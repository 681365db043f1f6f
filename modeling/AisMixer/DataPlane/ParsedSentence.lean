import AisMixer.DataPlane.IngressFrame
import AisMixer.DataPlane.NmeaScanner

/-!
# Parsed sentences

The metadata of a sentence and of the TAG block in front of it. A fragment proves that its
ordinal lies between one and the declared total.
-/

namespace AisMixer
open Library

structure ParsedFragment where
  declaredTotal : Nat
  ordinal : Nat
  sequentialId : PyStr
  channel : PyStr
  ordinal_pos : 1 ≤ ordinal
  ordinal_le : ordinal ≤ declaredTotal
  deriving DecidableEq

structure ParsedGroupTag where
  part : Int
  total : Int
  groupId : PyStr
  preservableGroupId : Option PyStr
  deriving DecidableEq

structure ParsedTagMetadata where
  sValue : Option PyStr
  cText : Option PyStr
  cValue : Option Int
  gValue : Option ParsedGroupTag
  deriving DecidableEq

structure ParsedSentence where
  frame : IngressFrame
  scanMatch : NMEAScanMatch
  fragment : Option ParsedFragment
  tag : ParsedTagMetadata
  deriving DecidableEq

/-- `text.split(sep)`. -/
def split (sep : CodePoint) (text : PyStr) : List PyStr := text.splitOn sep

/-- Fields one to four of a sentence that has at least seven fields. -/
def leadingFields (text : PyStr) : Option (PyStr × PyStr × PyStr × PyStr) :=
  match split 0x2C text with
  | _ :: total :: ordinal :: sequentialId :: channel :: _ :: _ :: _ =>
    some (total, ordinal, sequentialId, channel)
  | _ => none

/-- A fragment of the two numbers, if `1 <= ordinal <= declared_total`. -/
def ParsedFragment.check (declaredTotal ordinal : Int) (sequentialId channel : PyStr) :
    Option ParsedFragment :=
  if h : declaredTotal < 1 ∨ ordinal < 1 ∨ declaredTotal < ordinal then none
  else some {
    declaredTotal := declaredTotal.toNat
    ordinal := ordinal.toNat
    sequentialId := sequentialId
    channel := channel
    ordinal_pos := by omega
    ordinal_le := by omega }

def parseFragment (sentenceText : PyStr) : Option ParsedFragment :=
  match leadingFields sentenceText with
  | none => none
  | some (total, ordinal, sequentialId, channel) =>
    match pyInt total, pyInt ordinal with
    | some declaredTotal, some ordinal =>
      ParsedFragment.check declaredTotal ordinal sequentialId channel
    | _, _ => none

def parseCValue : Option PyStr → Option Int
  | none => none
  | some value => if isDigit value then pyInt value else none

def parseGValue : Option PyStr → Option ParsedGroupTag
  | none => none
  | some value =>
    match splitMax 0x2D 2 value with
    | [partText, totalText, groupId] =>
      match pyInt partText, pyInt totalText with
      | some part, some total =>
        some ⟨part, total, groupId, if isDigit groupId then some groupId else none⟩
      | _, _ => none
    | _ => none

/-- The last values of the `s`, `c` and `g` pairs of a TAG body. -/
def tagFields (body : PyStr) : Option PyStr × Option PyStr × Option PyStr :=
  (split 0x2C body).foldl (fun (s, c, g) pair =>
    match partition 0x3A pair with
    | (_, false, _) => (s, c, g)
    | (key, true, value) =>
      if key = str "s" then (some value, c, g)
      else if key = str "c" then (s, some value, g)
      else if key = str "g" then (s, c, some value)
      else (s, c, g)) (none, none, none)

def parseTagMetadata (frame : IngressFrame) (m : NMEAScanMatch) :
    Except PyException ParsedTagMetadata :=
  match m.tagSpan with
  | none => .ok ⟨none, none, none, none⟩
  | some tagSpan => do
    let tagText ← decodeFrameSlice frame tagSpan.start tagSpan.stop
    let body := (partition 0x2A (tagText.drop 1).dropLast).1
    let (s, c, g) := tagFields body
    return ⟨s, c, parseCValue c, parseGValue g⟩

def validateMatch (frame : IngressFrame) (m : NMEAScanMatch) : Except PyException Unit :=
  let payload := frame.payload
  if payload.length < m.sentenceSpan.stop then
    .error (.valueError (str "sentence span exceeds frame payload"))
  else if payload[m.sentenceSpan.start]? ≠ some 0x21 then
    .error (.valueError (str "sentence span must begin with '!'"))
  else
    match m.tagSpan with
    | none => .ok ()
    | some tagSpan =>
      if payload.length < tagSpan.stop then .error (.valueError (str "TAG span exceeds frame payload"))
      else if tagSpan.stop ≠ m.sentenceSpan.start then
        .error (.valueError (str "TAG span must end at sentence start"))
      else if payload[tagSpan.start]? ≠ some 0x5C ∨ payload[tagSpan.stop - 1]? ≠ some 0x5C then
        .error (.valueError (str "TAG span must include both backslash delimiters"))
      else .ok ()

def parseScannedSentence (frame : IngressFrame) (m : NMEAScanMatch) :
    Except PyException ParsedSentence := do
  validateMatch frame m
  let sentenceText ← decodeFrameSlice frame m.sentenceSpan.start m.sentenceSpan.stop
  let tag ← parseTagMetadata frame m
  return ⟨frame, m, parseFragment sentenceText, tag⟩

def parseFrameSentences (frame : IngressFrame) (includeVdo : Bool) :
    Except PyException (List ParsedSentence) := do
  let matches_ ← scanNmeaSentences frame.payload includeVdo
  matches_.mapM (parseScannedSentence frame)

/-- `payload.find(b, start)`. -/
def find (payload : Bytes) (b : UInt8) (start : Nat) : Option Nat :=
  ((payload.drop start).findIdx? (· == b)).map (· + start)

/-- The first `s` value of the TAG block that leads the frame. -/
def parseLeadingSValue (frame : IngressFrame) : Except PyException (Option PyStr) :=
  if frame.payload.head? ≠ some 0x5C then .ok none
  else
    match find frame.payload 0x5C 1 with
    | none => .ok none
    | some tagEnd => do
      let text ← decodeFrameSlice frame 1 tagEnd
      let body := (partition 0x2A text).1
      return (split 0x2C body).findSome? (fun pair =>
        match partition 0x3A pair with
        | (_, false, _) => none
        | (key, true, value) => if key = str "s" then some value else none)

/-! ### Parsing is total on produced frames -/

/-- The text of a sentence, as the assembler decodes it. -/
def ParsedSentence.text (p : ParsedSentence) : Except PyException PyStr :=
  decodeFrameSlice p.frame p.scanMatch.sentenceSpan.start p.scanMatch.sentenceSpan.stop

lemma produced_payload {frame : IngressFrame} (h : Produced frame) :
    frame.textMode = .utf8Ignore ∨ ∃ s, frame.payload = encodeSurrogatepass s := by
  cases h with
  | udpDatagram h =>
    left
    obtain ⟨frame', h', hmode, -⟩ := frameFromUdpDatagram_ok _ _
    rw [h] at h'
    cases h'
    exact hmode
  | textPayload origin payload => exact .inr ⟨payload, rfl⟩

lemma decodeFrameSlice_ok {frame : IngressFrame} {start stop : Nat}
    (hframe : frame.textMode = .utf8Ignore ∨
      IsBoundary frame.payload start ∧ IsBoundary frame.payload stop)
    (hlt : start ≤ stop) (hstop : stop ≤ frame.payload.length) :
    ∃ text, decodeFrameSlice frame start stop = .ok text := by
  rw [decodeFrameSlice, if_neg (by omega), if_neg (by omega)]
  rcases hframe with hmode | ⟨h₁, h₂⟩
  · exact ⟨_, by rw [hmode]⟩
  · cases frame.textMode with
    | utf8Ignore => exact ⟨_, rfl⟩
    | utf8Surrogatepass =>
      obtain ⟨t, ht⟩ := decode_between h₁ h₂ hlt
      exact ⟨t, by simp [slice, ht, decodeSurrogatepass_encode]⟩

lemma ascii_of_isHexDigit {b : UInt8} (h : isHexDigit b = true) : b.toNat < 0x80 := by
  simp only [isHexDigit, Bool.or_eq_true, Bool.and_eq_true, decide_eq_true_eq] at h
  omega

lemma produced_boundary {frame : IngressFrame} (h : Produced frame) {i : Nat} {b : UInt8}
    (hi : frame.payload[i]? = some b) (hb : b.toNat < 0x80) :
    frame.textMode = .utf8Ignore ∨ IsBoundary frame.payload i ∧ IsBoundary frame.payload (i + 1) := by
  rcases produced_payload h with hmode | ⟨s, hs⟩
  · exact .inl hmode
  · right
    rw [hs] at hi ⊢
    exact isBoundary_of_ascii hi hb

/-- A slice between two ASCII octets of a produced frame decodes. -/
lemma produced_slice {frame : IngressFrame} (h : Produced frame) {i j : Nat} {b c : UInt8}
    (hi : frame.payload[i]? = some b) (hb : b.toNat < 0x80) (hj : frame.payload[j]? = some c)
    (hc : c.toNat < 0x80) (hij : i < j) :
    (∃ text, decodeFrameSlice frame i (j + 1) = .ok text) ∧
      ∃ text, decodeFrameSlice frame (i + 1) j = .ok text := by
  have hlen : j < frame.payload.length := (List.getElem?_eq_some_iff.mp hj).1
  rcases produced_boundary h hi hb with hmode | ⟨hi₁, hi₂⟩
  · exact ⟨decodeFrameSlice_ok (.inl hmode) (by omega) (by omega),
      decodeFrameSlice_ok (.inl hmode) (by omega) (by omega)⟩
  · rcases produced_boundary h hj hc with hmode | ⟨hj₁, hj₂⟩
    · exact ⟨decodeFrameSlice_ok (.inl hmode) (by omega) (by omega),
        decodeFrameSlice_ok (.inl hmode) (by omega) (by omega)⟩
    · exact ⟨decodeFrameSlice_ok (.inr ⟨hi₁, hj₂⟩) (by omega) (by omega),
        decodeFrameSlice_ok (.inr ⟨hi₂, hj₁⟩) (by omega) (by omega)⟩

/-- What the parser promises about a sentence. -/
structure IsParsed (frame : IngressFrame) (p : ParsedSentence) : Prop where
  frame_eq : p.frame = frame
  isScanMatch : IsScanMatch frame.payload p.scanMatch
  text : ∃ text, p.text = .ok text ∧ p.fragment = parseFragment text

lemma validateMatch_ok {frame : IngressFrame} {m : NMEAScanMatch}
    (hm : IsScanMatch frame.payload m) : validateMatch frame m = .ok () := by
  have hlen := hm.sentence.stop_le
  have hlt := hm.sentence.start_lt_stop
  rw [validateMatch, if_neg (by omega), if_neg (by simp [hm.sentence.bang])]
  cases htag : m.tagSpan with
  | none => rfl
  | some span =>
    obtain ⟨hstop, -, hfirst, hlast⟩ := hm.tag span htag
    simp only
    rw [if_neg (by omega), if_neg (by simp [hstop]), if_neg (by simp [hfirst, hlast])]

lemma parseTagMetadata_ok {frame : IngressFrame} (h : Produced frame) {m : NMEAScanMatch}
    (hm : IsScanMatch frame.payload m) : ∃ tag, parseTagMetadata frame m = .ok tag := by
  cases htag : m.tagSpan with
  | none => exact ⟨_, by rw [parseTagMetadata, htag]⟩
  | some span =>
    obtain ⟨-, hlt, hfirst, hlast⟩ := hm.tag span htag
    obtain ⟨⟨text, htext⟩, -⟩ := produced_slice h hfirst (by decide) hlast (by decide) hlt
    rw [Nat.sub_add_cancel (by omega)] at htext
    simp only [parseTagMetadata, htag, htext]
    exact ⟨_, rfl⟩

lemma parseScannedSentence_ok {frame : IngressFrame} (h : Produced frame) {m : NMEAScanMatch}
    (hm : IsScanMatch frame.payload m) :
    ∃ p, parseScannedSentence frame m = .ok p ∧ IsParsed frame p := by
  obtain ⟨b, hb, hhex⟩ := hm.sentence.hexDigit
  have hlt : m.sentenceSpan.start < m.sentenceSpan.stop - 1 := by
    have := hm.sentence.start_lt_stop
    by_contra hge
    have heq : m.sentenceSpan.stop - 1 = m.sentenceSpan.start := by omega
    rw [heq, hm.sentence.bang] at hb
    cases hb
    simp [isHexDigit] at hhex
  obtain ⟨⟨text, htext⟩, -⟩ :=
    produced_slice h hm.sentence.bang (by decide) hb (ascii_of_isHexDigit hhex) hlt
  rw [Nat.sub_add_cancel (by omega)] at htext
  obtain ⟨tag, htag⟩ := parseTagMetadata_ok h hm
  refine ⟨⟨frame, m, parseFragment text, tag⟩, ?_, rfl, hm, text, htext, rfl⟩
  simp [parseScannedSentence, validateMatch_ok hm, htext, htag, Bind.bind, Except.bind, Pure.pure,
    Except.pure]

theorem parseFrameSentences_ok {frame : IngressFrame} (h : Produced frame) (includeVdo : Bool) :
    ∃ ps, parseFrameSentences frame includeVdo = .ok ps ∧ ∀ p ∈ ps, IsParsed frame p := by
  obtain ⟨ms, hms, hall⟩ := scanNmeaSentences_ok frame.payload includeVdo
  obtain ⟨ps, hps, hparsed⟩ := mapM_ok_of_forall (fun m hm => parseScannedSentence_ok h (hall m hm))
  exact ⟨ps, by simp [parseFrameSentences, hms, hps, Bind.bind, Except.bind], hparsed⟩

/-- A slice between two ASCII octets of a produced frame is the encoding of what it decodes to. -/
lemma decodeFrameSlice_octets {frame : IngressFrame} (h : Produced frame) {i j : Nat} {b c : UInt8}
    (hi : frame.payload[i]? = some b) (hb : b.toNat < 0x80) (hj : frame.payload[j]? = some c)
    (hc : c.toNat < 0x80) (hij : i < j) {text : PyStr}
    (htext : decodeFrameSlice frame i (j + 1) = .ok text) :
    encodeSurrogatepass text = slice frame.payload i (j + 1) := by
  have hlen : j < frame.payload.length := (List.getElem?_eq_some_iff.mp hj).1
  rw [decodeFrameSlice, if_neg (by omega), if_neg (by omega)] at htext
  cases hmode : frame.textMode with
  | utf8Surrogatepass =>
    simp only [hmode] at htext
    split at htext
    · cases htext
    · next t ht =>
      obtain rfl := Except.ok.inj htext
      exact encode_of_decodeSurrogatepass ht
  | utf8Ignore =>
    simp only [hmode, Except.ok.injEq] at htext
    have hclean : ∃ s, frame.payload = encodeSurrogatepass s ∧ hasSurrogate s = false := by
      cases h with
      | udpDatagram hframe =>
        rename_i data origin
        obtain ⟨frame', hframe', -, hpayload⟩ := frameFromUdpDatagram_ok data origin
        rw [hframe] at hframe'
        obtain rfl := Except.ok.inj hframe'
        exact ⟨_, hpayload, hasSurrogate_of_subset (strip_subset _) (decodeIgnore_noSurrogate data)⟩
      | textPayload origin payload => cases hmode
    obtain ⟨s, hs, hnone⟩ := hclean
    rw [hs] at hi hj
    obtain ⟨hstart, -⟩ := isBoundary_of_ascii hi hb
    obtain ⟨-, hstop⟩ := isBoundary_of_ascii hj hc
    obtain ⟨t, ht⟩ := decode_between hstart hstop (by omega)
    have hslice : slice frame.payload i (j + 1) = encodeSurrogatepass t := by rw [hs]; exact ht
    have hsub : hasSurrogate t = false := by
      -- what stands before the slice, the slice and the rest are the whole text
      obtain ⟨before, hbefore⟩ := hstart
      have hwhole : encodeSurrogatepass (before ++ t) ++ (encodeSurrogatepass s).drop (j + 1) =
          encodeSurrogatepass s := by
        have htake : (encodeSurrogatepass s).take i = ((encodeSurrogatepass s).take (j + 1)).take i := by
          rw [List.take_take, min_eq_left (by omega)]
        rw [encodeSurrogatepass_append, ← hbefore, ← ht, htake, List.take_append_drop,
          List.take_append_drop]
      obtain ⟨rest, rfl, -⟩ := encode_append_cancel hwhole
      refine hasSurrogate_of_subset (fun c hc => ?_) hnone
      exact List.mem_append_left _ (List.mem_append_right _ hc)
    rw [← htext, hslice, decodeIgnore_encode hsub]

/-- The octets of a sentence of a produced frame are the encoding of its text. -/
lemma parsed_octets {frame : IngressFrame} (h : Produced frame) {includeVdo : Bool}
    {ps : List ParsedSentence} (hparse : parseFrameSentences frame includeVdo = .ok ps)
    {p : ParsedSentence} (hp : p ∈ ps) {text : PyStr} (htext : p.text = .ok text) :
    encodeSurrogatepass text =
      slice frame.payload p.scanMatch.sentenceSpan.start p.scanMatch.sentenceSpan.stop := by
  obtain ⟨ps', hps', hall⟩ := parseFrameSentences_ok h includeVdo
  obtain rfl : ps' = ps := Except.ok.inj (hps'.symm.trans hparse)
  obtain ⟨hframe, hmatch, -⟩ := hall p hp
  have hlt := hmatch.sentence.start_lt_stop
  have hbang := hmatch.sentence.bang
  obtain ⟨b, hb, hhex⟩ := hmatch.sentence.hexDigit
  have hne : p.scanMatch.sentenceSpan.start ≠ p.scanMatch.sentenceSpan.stop - 1 := by
    intro heq
    rw [← heq, hbang] at hb
    obtain rfl := Option.some.inj hb
    cases hhex
  have hstop : p.scanMatch.sentenceSpan.stop - 1 + 1 = p.scanMatch.sentenceSpan.stop := by omega
  rw [ParsedSentence.text, hframe, ← hstop] at htext
  rw [← hstop]
  exact decodeFrameSlice_octets h hbang (by decide) hb (ascii_of_isHexDigit hhex) (by omega) htext

/-- Whatever the frame, a sentence that was parsed has a text, and its fragment is read from it. -/
lemma parsed_text {frame : IngressFrame} {includeVdo : Bool} {ps : List ParsedSentence}
    (h : parseFrameSentences frame includeVdo = .ok ps) {p : ParsedSentence} (hp : p ∈ ps) :
    ∃ text, p.text = .ok text ∧ p.fragment = parseFragment text := by
  obtain ⟨ms, -, hms⟩ := bind_eq_ok_iff.mp h
  obtain ⟨m, -, hm⟩ := mem_of_mapM_ok hms p hp
  obtain ⟨-, -, hm⟩ := bind_eq_ok_iff.mp hm
  obtain ⟨text, htext, hm⟩ := bind_eq_ok_iff.mp hm
  obtain ⟨tag, -, hm⟩ := bind_eq_ok_iff.mp hm
  obtain rfl := Except.ok.inj hm
  exact ⟨text, htext, rfl⟩

/-- A sentence keeps the frame that it was read from. -/
lemma parsed_frame {frame : IngressFrame} {includeVdo : Bool} {ps : List ParsedSentence}
    (h : parseFrameSentences frame includeVdo = .ok ps) {p : ParsedSentence} (hp : p ∈ ps) :
    p.frame = frame := by
  obtain ⟨ms, -, hms⟩ := bind_eq_ok_iff.mp h
  obtain ⟨m, -, hm⟩ := mem_of_mapM_ok hms p hp
  obtain ⟨-, -, hm⟩ := bind_eq_ok_iff.mp hm
  obtain ⟨text, -, hm⟩ := bind_eq_ok_iff.mp hm
  obtain ⟨tag, -, hm⟩ := bind_eq_ok_iff.mp hm
  obtain rfl := Except.ok.inj hm
  rfl

/-- A group id that may be preserved consists of digits. -/
lemma parsed_gid {frame : IngressFrame} {includeVdo : Bool} {ps : List ParsedSentence}
    (h : parseFrameSentences frame includeVdo = .ok ps) {p : ParsedSentence} (hp : p ∈ ps) {gid : PyStr}
    (hgid : p.tag.gValue.bind ParsedGroupTag.preservableGroupId = some gid) : isDigit gid = true := by
  have hg : ∃ value, p.tag.gValue = parseGValue value := by
    obtain ⟨ms, -, hms⟩ := bind_eq_ok_iff.mp h
    obtain ⟨m, -, hm⟩ := mem_of_mapM_ok hms p hp
    obtain ⟨-, -, hm⟩ := bind_eq_ok_iff.mp hm
    obtain ⟨text, -, hm⟩ := bind_eq_ok_iff.mp hm
    obtain ⟨tag, htag, hm⟩ := bind_eq_ok_iff.mp hm
    obtain rfl := Except.ok.inj hm
    unfold parseTagMetadata at htag
    split at htag
    · obtain rfl := Except.ok.inj htag
      exact ⟨none, rfl⟩
    · obtain ⟨tagText, -, htag⟩ := bind_eq_ok_iff.mp htag
      obtain rfl := Except.ok.inj htag
      exact ⟨_, rfl⟩
  obtain ⟨value, hvalue⟩ := hg
  obtain ⟨tag, htag, hpreserve⟩ := Option.bind_eq_some_iff.mp hgid
  rw [hvalue] at htag
  unfold parseGValue at htag
  split at htag
  · cases htag
  · split at htag
    · split at htag
      · obtain rfl := Option.some.inj htag
        simp only at hpreserve
        split at hpreserve
        · next hdigit =>
          rw [← Option.some.inj hpreserve]
          exact hdigit
        · cases hpreserve
      · cases htag
    · cases htag

lemma find_spec {payload : Bytes} {b : UInt8} {start i : Nat} (h : find payload b start = some i) :
    start ≤ i ∧ payload[i]? = some b := by
  obtain ⟨j, hj, rfl⟩ := Option.map_eq_some_iff.mp h
  obtain ⟨hlt, hb, -⟩ := List.findIdx?_eq_some_iff_getElem.mp hj
  refine ⟨by omega, ?_⟩
  rw [Nat.add_comm, ← List.getElem?_drop, List.getElem?_eq_getElem hlt]
  simpa using hb

theorem parseLeadingSValue_ok {frame : IngressFrame} (h : Produced frame) :
    ∃ s, parseLeadingSValue frame = .ok s := by
  rw [parseLeadingSValue]
  by_cases hhead : frame.payload.head? ≠ some 0x5C
  · exact ⟨none, if_pos hhead⟩
  · rw [if_neg hhead]
    cases hfind : find frame.payload 0x5C 1 with
    | none => exact ⟨none, rfl⟩
    | some tagEnd =>
      obtain ⟨hle, hget⟩ := find_spec hfind
      have hfirst : frame.payload[0]? = some 0x5C := by
        rw [← List.head?_eq_getElem?]
        simpa using hhead
      obtain ⟨-, text, htext⟩ :=
        produced_slice h hfirst (by decide) hget (by decide) (by omega : 0 < tagEnd)
      rw [Nat.zero_add] at htext
      simp only [htext]
      exact ⟨_, rfl⟩

end AisMixer
