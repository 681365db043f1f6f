import AisMixer.Library.Checksum
import AisMixer.DataPlane.Histories

/-!
# TAG blocks of outputs

The fields of a TAG block that the processor writes are made of digits, safe characters and dashes.
Its checksum is taken over code points, so it is the checksum of the octets exactly when the group id
has the same exclusive or in both readings.
-/

namespace AisMixer
open Library

/-! ### What fields are made of -/

/-- A digit, a safe character or a dash. -/
def isFieldChar (c : CodePoint) : Bool := isDigitChar c || isSafeChar c || c == 0x2D

def IsFieldText (s : PyStr) : Prop := ∀ c ∈ s, isFieldChar c = true

/-- Text of the ten digits. -/
def AsciiDigits (s : PyStr) : Prop := ∀ c ∈ s, 0x30 ≤ c.val ∧ c.val ≤ 0x39

lemma IsFieldText.append {s t : PyStr} (hs : IsFieldText s) (ht : IsFieldText t) :
    IsFieldText (s ++ t) := by
  intro c hc
  rcases List.mem_append.mp hc with hc | hc
  · exact hs c hc
  · exact ht c hc

lemma IsFieldText.not_mem {s : PyStr} (hs : IsFieldText s) {c : CodePoint} (hc : isFieldChar c = false) :
    c ∉ s := by
  intro hmem
  rw [hs c hmem] at hc
  cases hc

lemma isFieldText_of_safe {s : PyStr} (h : ∀ c ∈ s, isSafeChar c = true) : IsFieldText s := by
  intro c hc
  simp [isFieldChar, h c hc]

lemma AsciiDigits.isFieldText {s : PyStr} (h : AsciiDigits s) : IsFieldText s := by
  refine isFieldText_of_safe (fun c hc => ?_)
  obtain ⟨hle, hge⟩ := h c hc
  simp only [isSafeChar, Bool.or_eq_true, Bool.and_eq_true, decide_eq_true_eq, beq_iff_eq]
  omega

lemma isFieldText_of_isDigit {s : PyStr} (h : isDigit s = true) : IsFieldText s := by
  rw [isDigit, Bool.and_eq_true] at h
  intro c hc
  simp [isFieldChar, List.all_eq_true.mp h.2 c hc]

lemma natStr_asciiDigits (n : Nat) : AsciiDigits (natStr n) := by
  intro c hc
  unfold natStr at hc
  split at hc
  · rw [List.mem_singleton.mp hc]
    decide
  · obtain ⟨d, -, rfl⟩ := List.mem_map.mp hc
    simp only [digitChar]
    omega

lemma intStr_isFieldText (i : Int) : IsFieldText (intStr i) := by
  cases i with
  | ofNat n => exact (natStr_asciiDigits n).isFieldText
  | negSucc n =>
    have hdash : IsFieldText [0x2D] := by
      intro c hc
      rw [List.mem_singleton.mp hc]
      decide
    exact hdash.append (natStr_asciiDigits (n + 1)).isFieldText

lemma sanitizeS_safe (val : Option PyStr) : ∀ c ∈ sanitizeS val, isSafeChar c = true := by
  intro c hc
  obtain ⟨b, -, rfl⟩ := List.mem_map.mp (List.mem_of_mem_take hc)
  split
  · assumption
  · decide

lemma chooseSValue_safe (stationId source incoming remoteIp : Option PyStr) :
    ∀ c ∈ chooseSValueFromCandidates stationId source incoming remoteIp, isSafeChar c = true := by
  have hip : ∀ c ∈ ipToS remoteIp, isSafeChar c = true := by
    unfold ipToS
    split
    · have hall : (str "ANONYMOUS").all isSafeChar = true := by decide
      exact List.all_eq_true.mp hall
    · exact sanitizeS_safe _
  unfold chooseSValueFromCandidates
  split
  · exact sanitizeS_safe _
  · split
    · exact sanitizeS_safe _
    · split
      · exact sanitizeS_safe _
      · exact hip

lemma lt_of_isSafeChar {c : CodePoint} (h : isSafeChar c = true) : c.val < 0x80 := by
  simp only [isSafeChar, Bool.or_eq_true, Bool.and_eq_true, decide_eq_true_eq, beq_iff_eq] at h
  omega

/-! ### Checksums -/

/-- The octets of an upper-case hexadecimal number of two digits. -/
def hexPair (n : Nat) : Bytes :=
  [UInt8.ofNat (upperHexDigit (n / 16)).val, UInt8.ofNat (upperHexDigit (n % 16)).val]

/-- A message begins with a TAG block between backslashes, and the checksum of the block is the
exclusive or of its octets. -/
def HasTagChecksum (message : Bytes) : Prop :=
  ∃ content rest, message = [0x5C] ++ content ++ [0x2A] ++ hexPair (xorOf UInt8.toNat content) ++
    [0x5C] ++ rest ∧ 0x5C ∉ content ∧ 0x2A ∉ content

lemma hexPair_inj : ∀ m < 256, ∀ n < 256, hexPair m = hexPair n → m = n := by
  have hdigit : ∀ a < 16, ∀ b < 16, UInt8.ofNat (upperHexDigit a).val = UInt8.ofNat (upperHexDigit b).val →
      a = b := by decide
  intro m hm n hn h
  simp only [hexPair, List.cons.injEq, and_true] at h
  have hhigh := hdigit (m / 16) (by omega) (n / 16) (by omega) h.1
  have hlow := hdigit (m % 16) (by omega) (n % 16) (by omega) h.2
  omega

lemma upperHexDigit_spec : ∀ d < 16, (upperHexDigit d).val < 0x80 ∧ upperHexDigit d ≠ 0x5C ∧
    upperHexDigit d ≠ 0x2A := by decide

lemma hex02_digits (n : Nat) : ∀ c ∈ hex02 n, ∃ d < 16, c = upperHexDigit d := by
  intro c hc
  rcases List.mem_append.mp hc with hc | hc
  · exact ⟨0, by norm_num, by rw [List.eq_of_mem_replicate hc]; rfl⟩
  · obtain ⟨d, hd, rfl⟩ := List.mem_map.mp hc
    exact ⟨d, Nat.digits_lt_base (by decide) (List.mem_reverse.mp hd), rfl⟩

/-- The octets of a checksum text are two digits exactly for values of one octet. -/
lemma encode_hex02 (n : Nat) :
    (n < 256 → encodeSurrogatepass (hex02 n) = hexPair n) ∧
      (256 ≤ n → 2 < (encodeSurrogatepass (hex02 n)).length) := by
  have hencode : encodeSurrogatepass (hex02 n) = (hex02 n).map (fun c => UInt8.ofNat c.val) := by
    refine encode_of_ascii (fun c hc => ?_)
    obtain ⟨d, hd, rfl⟩ := hex02_digits n c hc
    exact (upperHexDigit_spec d hd).1
  constructor
  · intro hn
    have hpair : hex02 n = [upperHexDigit (n / 16), upperHexDigit (n % 16)] := by
      by_cases h16 : n < 16
      · by_cases h0 : n = 0
        · rw [h0]
          rfl
        · rw [hex02, Nat.digits_of_lt 16 n h0 h16, Nat.div_eq_of_lt h16, Nat.mod_eq_of_lt h16]
          rfl
      · rw [hex02, Nat.digits_def' (by norm_num) (by omega), Nat.digits_of_lt 16 (n / 16) (by omega) (by omega)]
        rfl
    rw [hencode, hpair]
    rfl
  · intro hn
    have hlen : 2 < (Nat.digits 16 n).length := by
      by_contra hle
      have hlt := Nat.lt_base_pow_length_digits (b := 16) (m := n) (by norm_num)
      have hpow : 16 ^ (Nat.digits 16 n).length ≤ 16 ^ 2 := Nat.pow_le_pow_right (by norm_num) (by omega)
      omega
    rw [hencode, List.length_map, hex02]
    simp only [List.length_append, List.length_replicate, List.length_map, List.length_reverse]
    omega

/-- The checksum of a header is right exactly when its code points and its octets have the same
exclusive or. -/
lemma hasTagChecksum_iff {content : PyStr} (hslash : 0x5C ∉ content) (hstar : 0x2A ∉ content)
    (rest : PyStr) :
    HasTagChecksum (encodeSurrogatepass (formatHeader content ++ rest)) ↔
      xorOf Fin.val content = xorOf UInt8.toNat (encodeSurrogatepass content) := by
  have hnot : ∀ {s : PyStr} {b : UInt8}, b.toNat < 0x80 → codePoint b.toNat ∉ s →
      b ∉ encodeSurrogatepass s := fun hb hs hmem => hs (mem_of_mem_encode hmem hb)
  have hslash' : (0x5C : UInt8) ∉ encodeSurrogatepass content := hnot (by decide) hslash
  have hstar' : (0x2A : UInt8) ∉ encodeSurrogatepass content := hnot (by decide) hstar
  have hbytes : encodeSurrogatepass (formatHeader content ++ rest) =
      [0x5C] ++ encodeSurrogatepass content ++ [0x2A] ++
        encodeSurrogatepass (hex02 (xorOf Fin.val content)) ++ [0x5C] ++ encodeSurrogatepass rest := by
    have h5c : encodeSurrogatepass [0x5C] = [0x5C] := by decide
    have h2a : encodeSurrogatepass [0x2A] = [0x2A] := by decide
    have hsum : nmeaChecksum content = hex02 (xorOf Fin.val content) := rfl
    simp only [formatHeader, encodeSurrogatepass_append, h5c, h2a, hsum]
  have hhexSlash : (0x5C : UInt8) ∉ encodeSurrogatepass (hex02 (xorOf Fin.val content)) := by
    refine hnot (by decide) (fun hmem => ?_)
    obtain ⟨d, hd, heq⟩ := hex02_digits _ _ hmem
    exact (upperHexDigit_spec d hd).2.1 heq.symm
  have hlt : xorOf UInt8.toNat (encodeSurrogatepass content) < 256 :=
    xorOf_lt (k := 8) _ (fun b _ => UInt8.toNat_lt b)
  constructor
  · rintro ⟨content', rest', heq, hslash'', hstar''⟩
    have hpairSlash : (0x5C : UInt8) ∉ hexPair (xorOf UInt8.toNat content') := by
      have hlt' : xorOf UInt8.toNat content' < 256 := xorOf_lt (k := 8) _ (fun b _ => UInt8.toNat_lt b)
      have hdigit : ∀ d < 16, UInt8.ofNat (upperHexDigit d).val ≠ 0x5C := by decide
      simp only [hexPair, List.mem_cons, List.not_mem_nil, or_false, not_or]
      exact ⟨(hdigit _ (by omega)).symm, (hdigit _ (by omega)).symm⟩
    have hblocks : (encodeSurrogatepass content ++ 0x2A :: encodeSurrogatepass (hex02 (xorOf Fin.val
        content))) ++ 0x5C :: encodeSurrogatepass rest =
          (content' ++ 0x2A :: hexPair (xorOf UInt8.toNat content')) ++ 0x5C :: rest' := by
      rw [hbytes] at heq
      simpa using heq
    obtain ⟨hblock, -⟩ := append_cons_inj (by simp [hslash', hhexSlash]) (by simp [hslash'', hpairSlash])
      hblocks
    obtain ⟨hcontent, hsum⟩ := append_cons_inj hstar' hstar'' hblock
    rw [← hcontent] at hsum
    by_cases hsmall : xorOf Fin.val content < 256
    · rw [(encode_hex02 _).1 hsmall] at hsum
      exact hexPair_inj _ hsmall _ hlt hsum
    · have hlong := (encode_hex02 (xorOf Fin.val content)).2 (by omega)
      rw [hsum] at hlong
      simp [hexPair] at hlong
  · intro heq
    refine ⟨encodeSurrogatepass content, encodeSurrogatepass rest, ?_, hslash', hstar'⟩
    rw [hbytes, heq, (encode_hex02 _).1 hlt]

/-- The content of a header holds none of its delimiters and no start of a sentence. -/
structure IsContent (content : PyStr) : Prop where
  slash : (0x5C : CodePoint) ∉ content
  star : (0x2A : CodePoint) ∉ content
  bang : (0x21 : CodePoint) ∉ content

namespace Processor

/-! ### The headers of outputs -/

/-- The header of a line up to its group id. -/
def headerLead (fmt : LineFormat) (index : Nat) (wall : ℚ) : PyStr :=
  let main := str "c:" ++ headerTime fmt.timestamp wall ++ str ",s:" ++ fmt.sValue
  let part := str "g:" ++ natStr (index + 1) ++ str "-" ++ natStr fmt.total ++ str "-"
  if fmt.tagged then if index = 0 then main ++ str "," ++ part else part else main

lemma headerContent_eq (fmt : LineFormat) (index : Nat) (wall : ℚ) :
    headerContent fmt.sValue (headerTime fmt.timestamp wall) (index == 0) (gTriplet fmt index) =
      headerLead fmt index wall ++ (if fmt.tagged then fmt.gid else []) := by
  cases htagged : fmt.tagged with
  | false => simp [headerContent, gTriplet, headerLead, htagged]
  | true =>
    by_cases hindex : index = 0
    · simp [headerContent, gTriplet, headerLead, htagged, hindex, str]
    · simp [headerContent, gTriplet, headerLead, htagged, hindex, str]

lemma gTriplet_ne_nil (fmt : LineFormat) (index : Nat) : gTriplet fmt index ≠ some [] := by
  unfold gTriplet
  split
  · simp [str]
  · simp

/-- A time is written as an integer. -/
lemma headerTime_eq {cfg : ProcessorConfig} {env : Environment} {T : PyStr → Prop} {C : Int → Prop}
    {G : PyStr → Prop} {r : SentenceReport} {e : Emission} (h : WrittenMessage cfg env T C G r e)
    (wall : ℚ) : ∃ i, headerTime e.timestamp wall = intStr i ∧ (i = truncate wall ∨ i = 0 ∨ C i) := by
  rcases h.timestamp with hnone | ⟨c, hc, hC⟩ | htext
  · exact ⟨truncate wall, by rw [hnone]; rfl, .inl rfl⟩
  · by_cases hzero : c = 0
    · exact ⟨truncate wall, by rw [hc, hzero]; rfl, .inl rfl⟩
    · exact ⟨c, by simp [hc, headerTime, HeaderTimestamp.truthy, hzero], .inr (.inr hC)⟩
  · exact ⟨0, by rw [htext]; rfl, .inr (.inl rfl)⟩

/-- A character that a header may hold apart from its group id. -/
def isLeadChar (c : CodePoint) : Bool := isSafeChar c || c == 0x2D || c == 0x3A || c == 0x2C

lemma lt_of_isLeadChar {c : CodePoint} (h : isLeadChar c = true) : c.val < 0x80 := by
  simp only [isLeadChar, isSafeChar, Bool.or_eq_true, Bool.and_eq_true, decide_eq_true_eq, beq_iff_eq] at h
  rcases h with ((h | rfl) | rfl) | rfl
  · omega
  all_goals decide

lemma intStr_lead (i : Int) : ∀ c ∈ intStr i, isLeadChar c = true := by
  have hdigits : ∀ n, ∀ c ∈ natStr n, isLeadChar c = true := by
    intro n c hc
    obtain ⟨hle, hge⟩ := natStr_asciiDigits n c hc
    have hsafe : isSafeChar c = true := by
      simp only [isSafeChar, Bool.or_eq_true, Bool.and_eq_true, decide_eq_true_eq, beq_iff_eq]
      omega
    simp [isLeadChar, hsafe]
  cases i with
  | ofNat n => exact hdigits n
  | negSucc n =>
    intro c hc
    rcases List.mem_cons.mp hc with rfl | hc
    · decide
    · exact hdigits (n + 1) c hc

lemma headerLead_lead {cfg : ProcessorConfig} {env : Environment} {T : PyStr → Prop} {C : Int → Prop}
    {G : PyStr → Prop} {r : SentenceReport} {e : Emission} (h : WrittenMessage cfg env T C G r e)
    {fmt : LineFormat} (hfmt : IsFormat cfg e fmt) (index : Nat) (wall : ℚ) :
    ∀ c ∈ headerLead fmt index wall, isLeadChar c = true := by
  obtain ⟨i, htime, -⟩ := headerTime_eq h wall
  have hs : ∀ c ∈ fmt.sValue, isLeadChar c = true := by
    obtain ⟨a, b, c, d, hchoose⟩ := hfmt.sValue
    intro x hx
    rw [hchoose] at hx
    simp [isLeadChar, chooseSValue_safe _ _ _ _ x hx]
  have happend : ∀ {s t : PyStr}, (∀ c ∈ s, isLeadChar c = true) → (∀ c ∈ t, isLeadChar c = true) →
      ∀ c ∈ s ++ t, isLeadChar c = true := by
    intro s t hs ht c hc
    rcases List.mem_append.mp hc with hc | hc
    · exact hs c hc
    · exact ht c hc
  have hliteral : ∀ s ∈ [str "c:", str ",s:", str "g:", str "-", str ","], ∀ c ∈ s,
      isLeadChar c = true := by
    have hall : [str "c:", str ",s:", str "g:", str "-", str ","].all (fun s => s.all isLeadChar) =
        true := by decide
    intro s hs c hc
    exact List.all_eq_true.mp (List.all_eq_true.mp hall s hs) c hc
  have hmain : ∀ c ∈ str "c:" ++ headerTime fmt.timestamp wall ++ str ",s:" ++ fmt.sValue,
      isLeadChar c = true := by
    rw [hfmt.timestamp, htime]
    exact happend (happend (happend (hliteral _ (by simp)) (intStr_lead i)) (hliteral _ (by simp))) hs
  have hpart : ∀ c ∈ str "g:" ++ natStr (index + 1) ++ str "-" ++ natStr fmt.total ++ str "-",
      isLeadChar c = true :=
    happend (happend (happend (happend (hliteral _ (by simp)) (intStr_lead (index + 1 : Nat)))
      (hliteral _ (by simp))) (intStr_lead (fmt.total : Nat))) (hliteral _ (by simp))
  unfold headerLead
  simp only
  split
  · split
    · exact happend (happend hmain (hliteral _ (by simp))) hpart
    · exact hpart
  · exact hmain

/-- The code points and the octets of a text have the same exclusive or. -/
def SameXor (s : PyStr) : Prop := xorOf Fin.val s = xorOf UInt8.toNat (encodeSurrogatepass s)

instance decidableSameXor : DecidablePred SameXor := fun _ => inferInstanceAs (Decidable (_ = _))

lemma sameXor_of_asciiDigits {s : PyStr} (h : AsciiDigits s) : SameXor s :=
  (xorOf_encode_ascii (fun c hc => lt_of_le_of_lt (h c hc).2 (by norm_num))).symm

/-- The octets of an output. -/
lemma output_message {cfg : ProcessorConfig} {env : Environment} {reports : List SentenceReport}
    {r : SentenceReport} {e : Emission} {fmt : LineFormat} {index n : Nat} {line : PyStr}
    {out : ProcessorOutput} (h : IsOutputLine cfg env reports r e fmt index n line out)
    (hline : (parseFragment line).isSome) :
    encodeUtf8 (formatHeader (headerLead fmt index (env.wallClock n) ++
      (if fmt.tagged then fmt.gid else [])) ++ (line ++ [0x0D, 0x0A])) = some out.message := by
  have hmessage := h.message
  have hfields := length_split_of_fragment hline
  rw [buildOutputBytes_ok_iff, wrapWithMeta_header hfields _ _ _ (gTriplet_ne_nil fmt index),
    headerContent_eq, List.append_assoc] at hmessage
  exact hmessage

lemma output_content {cfg : ProcessorConfig} {env : Environment} {T : PyStr → Prop} {C : Int → Prop}
    {G : PyStr → Prop} {r : SentenceReport} {e : Emission} {fmt : LineFormat}
    (hfmt : IsFormat cfg e fmt) (hwritten : WrittenMessage cfg env T C G r e) (hgid : IsFieldText e.gid)
    (index : Nat) (wall : ℚ) :
    IsContent (headerLead fmt index wall ++ (if fmt.tagged then fmt.gid else [])) := by
  have hnot : ∀ c, isLeadChar c = false → isFieldChar c = false →
      c ∉ headerLead fmt index wall ++ (if fmt.tagged then fmt.gid else []) := by
    intro c hlead hfield hmem
    rcases List.mem_append.mp hmem with hmem | hmem
    · rw [headerLead_lead hwritten hfmt index wall c hmem] at hlead
      cases hlead
    · split at hmem
      · rw [hfmt.gid] at hmem
        exact hgid.not_mem hfield hmem
      · cases hmem
  exact ⟨hnot _ (by decide) (by decide), hnot _ (by decide) (by decide), hnot _ (by decide) (by decide)⟩

/-- The checksum of an output is right exactly when its group id, if it has one, has the same
exclusive or over its code points and over its octets. -/
lemma output_checksum {cfg : ProcessorConfig} {env : Environment} {T : PyStr → Prop} {C : Int → Prop}
    {G : PyStr → Prop} {reports : List SentenceReport} {r : SentenceReport} {e : Emission}
    {fmt : LineFormat} {index n : Nat} {line : PyStr} {out : ProcessorOutput}
    (h : IsOutputLine cfg env reports r e fmt index n line out) (hwritten : WrittenMessage cfg env T C G r e)
    (hline : (parseFragment line).isSome) (hgid : IsFieldText e.gid) :
    HasTagChecksum out.message ↔ (fmt.tagged = true → SameXor e.gid) := by
  have hlead := headerLead_lead hwritten h.format index (env.wallClock n)
  have hcontent := output_content h.format hwritten hgid index (env.wallClock n)
  have hmessage := (encodeUtf8_eq_some.mp (output_message h hline)).2
  rw [hmessage, hasTagChecksum_iff hcontent.slash hcontent.star, xorOf_append,
    encodeSurrogatepass_append, xorOf_append,
    xorOf_encode_ascii (fun c hc => lt_of_isLeadChar (hlead c hc)), Nat.xor_right_inj]
  cases htagged : fmt.tagged with
  | false => simp [encodeSurrogatepass, xorOf]
  | true => simp [h.format.gid, SameXor]

/-! ### The checksum of every output -/

/-- The group ids that the processor would keep of a frame have one exclusive or. -/
def SameXorIds (cfg : ProcessingConfig) (frame : IngressFrame) : Prop :=
  ∀ sentences, parseFrameSentences frame true = .ok sentences → ∀ parsed ∈ sentences, ∀ gid,
    ingressGid cfg parsed = some gid → SameXor gid

lemma keepable_fragment (cfg : ProcessingConfig) {G : PyStr → Prop} {frame : IngressFrame}
    (hG : ∀ sentences, parseFrameSentences frame true = .ok sentences → ∀ parsed ∈ sentences, ∀ gid,
      ingressGid cfg parsed = some gid → G gid) :
    KeepableFrame cfg (fun text => (parseFragment text).isSome) (fun _ => True)
      (fun gid => IsFieldText gid ∧ G gid) frame := by
  intro sentences hparse parsed hparsed
  obtain ⟨text, htext, hfragment⟩ := parsed_text hparse hparsed
  refine ⟨⟨text, htext, hfragment, fun h => hfragment ▸ h⟩, fun _ _ => trivial, fun gid hgid => ?_⟩
  refine ⟨?_, hG sentences hparse parsed hparsed gid hgid⟩
  unfold ingressGid at hgid
  split at hgid
  · exact isFieldText_of_isDigit (parsed_gid hparse hparsed hgid)
  · cases hgid

/-- The checksums of a call after a history, with a property of all the group ids of its frames. -/
lemma call_checksums {cfg : ProcessorConfig} {env : Environment} {startNs : Int} {A : IngressFrame → Prop}
    {G : PyStr → Prop} (hA : ∀ frame, A frame → ∀ sentences, parseFrameSentences frame true = .ok sentences →
      ∀ parsed ∈ sentences, ∀ gid, ingressGid cfg.processing parsed = some gid → G gid)
    (hgen : ∀ n, AsciiDigits (env.gidGenerator cfg.processing.gidDigits n)) {p : Processor}
    (h : Reachable cfg env startNs A p) {frame : IngressFrame} (hframe : A frame)
    {snapshot : ProcessingSnapshot} {p' : Processor} {reports : List SentenceReport}
    (hcall : process cfg env p frame snapshot = (p', .ok reports)) {out : ProcessorOutput}
    (hout : out ∈ batch reports) :
    ∃ r e fmt index n line, IsOutputLine cfg env reports r e fmt index n line out ∧
      (HasTagChecksum out.message ↔ (fmt.tagged = true → SameXor e.gid)) ∧
      (G e.gid ∨ AsciiDigits e.gid) := by
  have hkept := h.kept (fun frame hframe => keepable_fragment cfg.processing (hA frame hframe))
  obtain ⟨-, hwritten⟩ := hkept.process (keepable_fragment cfg.processing (hA frame hframe)) hcall
  obtain ⟨r, e, fmt, index, n, line, hline, hmessage⟩ := output_written (hwritten reports rfl) hout
  have hfragment := hmessage.lines line (List.mem_of_getElem? hline.get)
  have hgid : IsFieldText e.gid ∧ (G e.gid ∨ AsciiDigits e.gid) := by
    rcases hmessage.gid with ⟨hfield, hG⟩ | ⟨k, hk⟩
    · exact ⟨hfield, .inl hG⟩
    · rw [hk]
      exact ⟨(hgen k).isFieldText, .inr (hgen k)⟩
  exact ⟨r, e, fmt, index, n, line, hline, output_checksum hline hmessage hfragment hgid.1, hgid.2⟩

/-- After every history whose preserved group ids have one exclusive or, every output carries the
checksum of its TAG block. Whatever the history, an output does so exactly when it has no group id
or one of that kind. -/
theorem tag_checksum {cfg : ProcessorConfig} {env : Environment} {startNs : Int}
    (hgen : ∀ n, AsciiDigits (env.gidGenerator cfg.processing.gidDigits n)) :
    (∀ p, Reachable cfg env startNs (SameXorIds cfg.processing) p → ∀ frame,
      SameXorIds cfg.processing frame → ∀ snapshot p' reports,
        process cfg env p frame snapshot = (p', .ok reports) → ∀ out ∈ batch reports,
          HasTagChecksum out.message) ∧
    ∀ p, Reachable cfg env startNs (fun _ => True) p → ∀ frame snapshot p' reports,
      process cfg env p frame snapshot = (p', .ok reports) → ∀ out ∈ batch reports,
        ∃ r e fmt index n line, IsOutputLine cfg env reports r e fmt index n line out ∧
          (HasTagChecksum out.message ↔ (fmt.tagged = true → SameXor e.gid)) := by
  constructor
  · intro p h frame hframe snapshot p' reports hcall out hout
    obtain ⟨r, e, fmt, index, n, line, -, hiff, hgid⟩ :=
      call_checksums (G := SameXor) (fun _ hframe => hframe) hgen h hframe hcall hout
    rw [hiff]
    intro _
    rcases hgid with hsame | hdigits
    · exact hsame
    · exact sameXor_of_asciiDigits hdigits
  · intro p h frame snapshot p' reports hcall out hout
    obtain ⟨r, e, fmt, index, n, line, hline, hiff, -⟩ :=
      call_checksums (G := fun _ => True) (fun _ _ _ _ _ _ _ _ => trivial) hgen h trivial hcall hout
    exact ⟨r, e, fmt, index, n, line, hline, hiff⟩

/-- Every output of every history carries the checksum of its TAG block. -/
def TagChecksums : Prop :=
  ∀ (cfg : ProcessorConfig) (env : Environment) (startNs : Int),
    (∀ n, AsciiDigits (env.gidGenerator cfg.processing.gidDigits n)) →
      ∀ p, Reachable cfg env startNs Produced p → ∀ frame, Produced frame → ∀ snapshot p' reports,
        process cfg env p frame snapshot = (p', .ok reports) → ∀ out ∈ batch reports,
          HasTagChecksum out.message

/-- A configuration that writes a TAG group on single sentences, too. -/
def singleTagConfig : ProcessorConfig := { taggedConfig with processing := ⟨none, true, true, true, 4⟩ }

/-- A datagram whose TAG group id is given. -/
def groupDatagram (gid : Bytes) : Bytes :=
  ascii "\\g:1-1-" ++ gid ++ ascii "*00\\!AIVDM,1,1,,A,p,0*00"

def groupOrigin : IngressOrigin := ⟨str "udp", str "a", none, some (str "10.0.0.1"), str "a"⟩

def groupFrame (gid : Bytes) : IngressFrame :=
  ⟨str "udp", str "a", none, some (str "10.0.0.1"), str "a", groupDatagram gid, .utf8Ignore⟩

lemma fixedGid_asciiDigits (digits n : Nat) : AsciiDigits (fixedGidEnvironment.gidGenerator digits n) := by
  change AsciiDigits (str "1")
  intro c hc
  rw [List.mem_singleton.mp hc]
  decide

/-- The messages of a call to a fresh processor. -/
def firstMessages (cfg : ProcessorConfig) (frame : IngressFrame) : List Bytes :=
  match (process cfg fixedGidEnvironment (.init 0) frame oneTarget).2 with
  | .ok reports => (batch reports).map ProcessorOutput.message
  | .error _ => []

lemma firstMessages_of_call {cfg : ProcessorConfig} {frame : IngressFrame} {messages : List Bytes}
    (hne : messages ≠ []) (h : firstMessages cfg frame = messages) :
    ∃ p' reports, process cfg fixedGidEnvironment (.init 0) frame oneTarget = (p', .ok reports) ∧
      (batch reports).map ProcessorOutput.message = messages := by
  unfold firstMessages at h
  split at h
  · next reports hreports => exact ⟨_, reports, Prod.ext rfl hreports, h⟩
  · exact absurd h.symm hne

theorem tag_checksum_digits : ∃ message, firstMessages singleTagConfig (groupFrame (ascii "77")) =
    [message] ∧ HasTagChecksum message := by
  have hmessages : firstMessages singleTagConfig (groupFrame (ascii "77")) =
    [ascii "\\c:1000,s:10_0_0_1,g:1-1-77*23\\!AIVDM,1,1,,A,p,0*00\r\n"] := by decide +kernel
  obtain ⟨p', reports, hcall, hbatch⟩ := firstMessages_of_call (by simp) hmessages
  have hids : SameXorIds singleTagConfig.processing (groupFrame (ascii "77")) := by
    intro sentences hparse parsed hparsed gid hgid
    have hall : (parseFrameSentences (groupFrame (ascii "77")) true).map
        (List.map (ingressGid singleTagConfig.processing)) = .ok [some (str "77")] := by decide +kernel
    rw [hparse, Except.map, Except.ok.injEq] at hall
    have hmem : ingressGid singleTagConfig.processing parsed ∈
      sentences.map (ingressGid singleTagConfig.processing) := List.mem_map_of_mem hparsed
    rw [hall, hgid, List.mem_singleton] at hmem
    rw [Option.some.inj hmem]
    decide
  refine ⟨_, hmessages, ?_⟩
  obtain ⟨out, hout, hmessage⟩ := List.mem_map.mp (hbatch ▸ List.mem_singleton.mpr rfl)
  rw [← hmessage]
  exact (@tag_checksum singleTagConfig fixedGidEnvironment 0 (fixedGid_asciiDigits 4)).1 _ .start _ hids
    oneTarget p' reports hcall out hout

/-- A superscript digit passes as a group id, and its code point is not the exclusive or of its
octets. -/
theorem not_tagChecksums : ¬TagChecksums := by
  intro h
  have hmessages : firstMessages singleTagConfig (groupFrame [0xC2, 0xB2]) =
      [encodeSurrogatepass (formatHeader (str "c:1000,s:10_0_0_1,g:1-1-" ++ [0xB2]) ++
        str "!AIVDM,1,1,,A,p,0*00\r\n")] := by decide +kernel
  obtain ⟨p', reports, hcall, hbatch⟩ := firstMessages_of_call (by simp) hmessages
  have hproduced : Produced (groupFrame [0xC2, 0xB2]) := by
    have hframe : frameFromUdpDatagram (groupDatagram [0xC2, 0xB2]) groupOrigin =
      .ok (groupFrame [0xC2, 0xB2]) := by decide +kernel
    exact .udpDatagram hframe
  obtain ⟨out, hout, hmessage⟩ := List.mem_map.mp (hbatch ▸ List.mem_singleton.mpr rfl)
  have hchecksum := h singleTagConfig fixedGidEnvironment 0 (fixedGid_asciiDigits 4) _ .start _ hproduced
    oneTarget p' reports hcall out hout
  rw [hmessage, hasTagChecksum_iff (by decide) (by decide)] at hchecksum
  revert hchecksum
  decide

end Processor

end AisMixer
