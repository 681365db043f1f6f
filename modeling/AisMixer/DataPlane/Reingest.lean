import AisMixer.Library.Numerals
import AisMixer.DataPlane.TagBlocks

/-!
# Outputs as ingress

A message that the processor wrote is a datagram that another instance can take in: the scanner
finds exactly the sentence that was emitted, and the parser reads the TAG block back as it was
written.
-/

namespace AisMixer
open Library

/-! ### Matches and their slices -/

/-- A match of the body does not depend on what follows it. -/
lemma bodyLength_take {body : Bytes} {n : Nat} (h : bodyLength body = some n) :
    bodyLength (body.take n) = some n := by
  induction body generalizing n with
  | nil => simp [bodyLength] at h
  | cons b rest ih =>
    by_cases hend : b = 0x2A ∧ (rest.take 2).length = 2 ∧ (rest.take 2).all isHexDigit
    · rw [bodyLength, if_pos hend] at h
      obtain rfl := Option.some.inj h
      rw [List.take_succ_cons, bodyLength, if_pos (by simpa [List.take_take] using hend)]
    · rw [bodyLength, if_neg hend] at h
      split at h
      · cases h
      · next hcrlf =>
        obtain ⟨m, hm, rfl⟩ := Option.map_eq_some_iff.mp h
        have htake := ih hm
        have hend' : ¬(b = 0x2A ∧ ((rest.take m).take 2).length = 2 ∧
            ((rest.take m).take 2).all isHexDigit) := by
          intro hend'
          apply hend
          have htwo : 2 ≤ m := by
            have hlen := hend'.2.1
            simp only [List.length_take] at hlen
            omega
          rwa [List.take_take, min_eq_left htwo] at hend'
        rw [List.take_succ_cons, bodyLength, if_neg hend', if_neg hcrlf, htake]
        rfl

lemma matchLength_take {includeVdo : Bool} {payload : Bytes} {n : Nat}
    (h : matchLength includeVdo payload = some n) : matchLength includeVdo (payload.take n) = some n := by
  unfold matchLength at h ⊢
  split at h
  · next hhead =>
    obtain ⟨m, hm, rfl⟩ := Option.map_eq_some_iff.mp h
    have hseven : (payload.take (m + 7)).take 7 = payload.take 7 := by
      rw [List.take_take, min_eq_left (by omega)]
    rw [hseven, if_pos hhead, List.drop_take, Nat.add_sub_cancel, bodyLength_take hm]
    rfl
  · cases h

/-- A whole sentence: the pattern matches all of it. -/
def IsSentence (octets : Bytes) : Prop := matchLength true octets = some octets.length

lemma findMatches_isSentence {payload : Bytes} {span : Nat × Nat} :
    ∀ (rest : Bytes) (position consumed : Nat), payload.drop position = rest →
      span ∈ findMatches true position consumed rest → IsSentence (slice payload span.1 span.2) := by
  intro rest
  induction rest with
  | nil => simp [findMatches]
  | cons b rest ih =>
    intro position consumed hdrop hmem
    have hnext : payload.drop (position + 1) = rest := by
      rw [← List.drop_drop, hdrop]
      rfl
    cases consumed with
    | succ consumed => exact ih (position + 1) consumed hnext (by simpa [findMatches] using hmem)
    | zero =>
      cases hm : matchLength true (b :: rest) with
      | none => exact ih (position + 1) 0 hnext (by simpa [findMatches, hm] using hmem)
      | some n =>
        simp only [findMatches, hm, List.mem_cons] at hmem
        rcases hmem with rfl | hmem
        · have hslice : slice payload position (position + n) = (b :: rest).take n := by
            rw [slice, List.drop_take, Nat.add_sub_cancel_left, hdrop]
          have hle := (matchLength_spec hm).stop_le
          rw [IsSentence, hslice, matchLength_take hm, List.length_take, min_eq_left hle]
        · exact ih (position + 1) (n - 1) hnext hmem

/-- The text of a sentence of a produced frame is what the scanner matched. -/
lemma text_isSentence {frame : IngressFrame} (h : Produced frame) {sentences : List ParsedSentence}
    (hparse : parseFrameSentences frame true = .ok sentences) {parsed : ParsedSentence}
    (hparsed : parsed ∈ sentences) {text : PyStr} (htext : parsed.text = .ok text) :
    IsSentence (encodeSurrogatepass text) := by
  obtain ⟨ms, hscan, hms⟩ := bind_eq_ok_iff.mp hparse
  obtain ⟨m, hm, hscanned⟩ := mem_of_mapM_ok hms parsed hparsed
  obtain ⟨span, hspan, hmatch⟩ := mem_of_mapM_ok hscan m hm
  have hsentence := findMatches_isSentence frame.payload 0 0 (List.drop_zero (l := frame.payload)) hspan
  have hm' : m.sentenceSpan.start = span.1 ∧ m.sentenceSpan.stop = span.2 := by
    obtain ⟨tagSpan, -, hmatch⟩ := bind_eq_ok_iff.mp hmatch
    obtain ⟨s, hs, hmatch⟩ := bind_eq_ok_iff.mp hmatch
    obtain rfl := Except.ok.inj hmatch
    unfold ByteSpan.new at hs
    split at hs
    · obtain rfl := Except.ok.inj hs
      exact ⟨rfl, rfl⟩
    · cases hs
  have hp : parsed.frame = frame ∧ parsed.scanMatch = m := by
    obtain ⟨-, -, hscanned⟩ := bind_eq_ok_iff.mp hscanned
    obtain ⟨t, -, hscanned⟩ := bind_eq_ok_iff.mp hscanned
    obtain ⟨tag, -, hscanned⟩ := bind_eq_ok_iff.mp hscanned
    obtain rfl := Except.ok.inj hscanned
    exact ⟨rfl, rfl⟩
  have hoctets := parsed_octets h hparse hparsed htext
  rw [hp.2, hm'.1, hm'.2] at hoctets
  rwa [hoctets]

/-! ### Scanning a tagged sentence -/

lemma matchLength_bang {b : UInt8} {rest : Bytes} (hb : b ≠ 0x21) : matchLength true (b :: rest) = none := by
  cases hm : matchLength true (b :: rest) with
  | none => rfl
  | some n =>
    have hbang := (matchLength_spec hm).bang
    simp only [List.getElem?_cons_zero, Option.some.injEq] at hbang
    exact absurd hbang hb

lemma findMatches_skip {header : Bytes} (h : 0x21 ∉ header) (rest : Bytes) (position : Nat) :
    findMatches true position 0 (header ++ rest) = findMatches true (position + header.length) 0 rest := by
  induction header generalizing position with
  | nil => rfl
  | cons b header ih =>
    simp only [List.mem_cons, not_or] at h
    rw [List.cons_append, findMatches, matchLength_bang (Ne.symm h.1)]
    simp only
    rw [ih h.2, List.length_cons]
    congr 1
    omega

lemma findMatches_consumed (rest : Bytes) :
    ∀ position consumed, rest.length ≤ consumed → findMatches true position consumed rest = [] := by
  induction rest with
  | nil => exact fun _ _ _ => rfl
  | cons b rest ih =>
    intro position consumed h
    obtain ⟨k, rfl⟩ : ∃ k, consumed = k + 1 := ⟨consumed - 1, by rw [List.length_cons] at h; omega⟩
    exact ih (position + 1) k (by simpa using h)

/-- The only match in a sentence behind a header is the sentence. -/
lemma findMatches_header {header octets : Bytes} (h : 0x21 ∉ header) (hs : IsSentence octets) :
    findMatches true 0 0 (header ++ octets) = [(header.length, header.length + octets.length)] := by
  have hpos := (matchLength_spec hs).start_lt_stop
  rw [findMatches_skip h, Nat.zero_add]
  cases octets with
  | nil => simp at hpos
  | cons b rest =>
    rw [findMatches, show matchLength true (b :: rest) = some (b :: rest).length from hs]
    simp only
    rw [findMatches_consumed rest _ _ (by simp)]

/-- The TAG block in front of a sentence starts at the first octet. -/
lemma rfind_header {block rest : Bytes} (h : 0x5C ∉ block) :
    rfind (0x5C :: block ++ 0x5C :: rest) 0x5C (block.length + 1) = some 0 := by
  have hmin : min (block.length + 1) (0x5C :: block ++ 0x5C :: rest).length = block.length + 1 := by
    simp
  have hrest : ((List.range block.length).map Nat.succ).filter
      (fun i => decide ((0x5C :: block ++ 0x5C :: rest)[i]? = some 0x5C)) = [] := by
    rw [List.filter_eq_nil_iff]
    intro i hi
    obtain ⟨j, hj, rfl⟩ := List.mem_map.mp hi
    rw [List.mem_range] at hj
    simp only [List.cons_append, List.getElem?_cons_succ, decide_eq_true_eq]
    rw [List.getElem?_append_left hj]
    exact fun hget => h (List.mem_of_getElem? hget)
  rw [rfind, hmin, List.range_succ_eq_map, List.filter_cons_of_pos (by simp), hrest]
  rfl

/-- What the parser reads in the content of a TAG block. -/
def tagOf (content : PyStr) : ParsedTagMetadata :=
  let (s, c, g) := tagFields content
  ⟨s, c, parseCValue c, parseGValue g⟩

lemma partition_append {sep : CodePoint} {s : PyStr} (h : sep ∉ s) (t : PyStr) :
    partition sep (s ++ sep :: t) = (s, true, t) := by
  induction s with
  | nil => simp [partition]
  | cons c s ih =>
    simp only [List.mem_cons, not_or] at h
    rw [List.cons_append, partition, if_neg (Ne.symm h.1), ih h.2]

lemma nmeaChecksum_plain (data : PyStr) :
    (0x5C : CodePoint) ∉ nmeaChecksum data ∧ (0x21 : CodePoint) ∉ nmeaChecksum data := by
  have hdigit : ∀ d < 16, upperHexDigit d ≠ 0x5C ∧ upperHexDigit d ≠ 0x21 := by decide
  constructor
  · intro hmem
    obtain ⟨d, hd, heq⟩ := hex02_digits _ _ hmem
    exact (hdigit d hd).1 heq.symm
  · intro hmem
    obtain ⟨d, hd, heq⟩ := hex02_digits _ _ hmem
    exact (hdigit d hd).2 heq.symm

/-- Where the scanner finds a sentence behind a block of the given length, and the block. -/
def taggedMatch (block octets : Nat) (h : 0 < octets) : NMEAScanMatch :=
  ⟨⟨block + 2, block + 2 + octets, by omega⟩, some ⟨0, block + 2, by omega⟩⟩

lemma scan_tagged {block octets : Bytes} (hslash : 0x5C ∉ block) (hbang : 0x21 ∉ block)
    (hs : IsSentence octets) (hpos : 0 < octets.length) :
    scanNmeaSentences (0x5C :: block ++ 0x5C :: octets) true =
      .ok [taggedMatch block.length octets.length hpos] := by
  obtain ⟨payload, hpayload⟩ : ∃ payload, payload = 0x5C :: block ++ 0x5C :: octets := ⟨_, rfl⟩
  have hfound : findMatches true 0 0 payload =
      [(block.length + 2, block.length + 2 + octets.length)] := by
    have hheader := @findMatches_header (0x5C :: block ++ [0x5C]) octets (by simp [hbang]) hs
    rw [hpayload]
    simpa using hheader
  have hlast : payload[block.length + 2 - 1]? = some 0x5C := by
    rw [hpayload]
    simp
  have hfind : rfind payload 0x5C (block.length + 2 - 1) = some 0 := by
    rw [hpayload]
    exact rfind_header hslash
  have hcond : ¬(block.length + 2 = 0 ∨ payload[block.length + 2 - 1]? ≠ some 0x5C) := by
    rw [hlast]
    simp
  have htag : ByteSpan.new 0 (block.length + 2) = .ok ⟨0, block.length + 2, by omega⟩ :=
    dif_pos (by omega)
  have hspan : ByteSpan.new (block.length + 2) (block.length + 2 + octets.length) =
    .ok ⟨block.length + 2, block.length + 2 + octets.length, by omega⟩ := dif_pos (by omega)
  have hmatch : scanMatch payload (block.length + 2, block.length + 2 + octets.length) =
      .ok (taggedMatch block.length octets.length hpos) := by
    simp only [scanMatch, findAdjacentTag, if_neg hcond, hfind, htag, hspan, Except.map, Bind.bind,
      Except.bind, Pure.pure, Except.pure]
    rfl
  rw [← hpayload, scanNmeaSentences, hfound, List.mapM_cons, hmatch]
  rfl

lemma formatHeader_eq (content : PyStr) :
    formatHeader content = 0x5C :: (content ++ 0x2A :: nmeaChecksum content) ++ [0x5C] := by
  simp [formatHeader]

lemma encode_formatHeader (content line : PyStr) :
    encodeSurrogatepass (formatHeader content ++ line) =
      0x5C :: encodeSurrogatepass (content ++ 0x2A :: nmeaChecksum content) ++
        0x5C :: encodeSurrogatepass line := by
  have hslash : encodeSurrogatepass [0x5C] = [0x5C] := by decide
  rw [formatHeader_eq, ← List.singleton_append, encodeSurrogatepass_append, encodeSurrogatepass_append,
    encodeSurrogatepass_append, hslash]
  simp

lemma IsContent.block {content : PyStr} (h : IsContent content) :
    (0x5C : UInt8) ∉ encodeSurrogatepass (content ++ 0x2A :: nmeaChecksum content) ∧
      (0x21 : UInt8) ∉ encodeSurrogatepass (content ++ 0x2A :: nmeaChecksum content) := by
  obtain ⟨hslash, hbang⟩ := nmeaChecksum_plain content
  have hstar : (0x5C : CodePoint) ≠ 0x2A ∧ (0x21 : CodePoint) ≠ 0x2A := by decide
  constructor
  · intro hmem
    have hchar := mem_of_mem_encode hmem (by decide)
    rcases List.mem_append.mp hchar with hchar | hchar
    · exact h.slash hchar
    · rcases List.mem_cons.mp hchar with hchar | hchar
      · exact hstar.1 hchar
      · exact hslash hchar
  · intro hmem
    have hchar := mem_of_mem_encode hmem (by decide)
    rcases List.mem_append.mp hchar with hchar | hchar
    · exact h.bang hchar
    · rcases List.mem_cons.mp hchar with hchar | hchar
      · exact hstar.2 hchar
      · exact hbang hchar

/-- A frame that holds a sentence behind a header parses into that sentence, with the TAG metadata
of the header. -/
theorem parse_tagged {content line : PyStr} (hcontent : IsContent content)
    (hline : IsSentence (encodeSurrogatepass line))
    (hclean : hasSurrogate (formatHeader content ++ line) = false) {frame : IngressFrame}
    (hpayload : frame.payload = encodeSurrogatepass (formatHeader content ++ line))
    (hmode : frame.textMode = .utf8Ignore) :
    ∃ parsed, parseFrameSentences frame true = .ok [parsed] ∧ parsed.text = .ok line ∧
      parsed.fragment = parseFragment line ∧ parsed.tag = tagOf content := by
  obtain ⟨block, hblock⟩ : ∃ block, block = encodeSurrogatepass (content ++ 0x2A :: nmeaChecksum content) :=
    ⟨_, rfl⟩
  obtain ⟨octets, hoctets⟩ : ∃ octets, octets = encodeSurrogatepass line := ⟨_, rfl⟩
  have hbytes : frame.payload = 0x5C :: block ++ 0x5C :: octets := by
    rw [hpayload, encode_formatHeader, hblock, hoctets]
  have hheader : encodeSurrogatepass (formatHeader content) = 0x5C :: block ++ [0x5C] := by
    have hnil := encode_formatHeader content []
    rw [List.append_nil] at hnil
    rw [hnil, hblock]
    rfl
  obtain ⟨hslash, hbang⟩ := hcontent.block
  rw [← hblock] at hslash hbang
  rw [← hoctets] at hline
  have hpos := (matchLength_spec hline).start_lt_stop
  have hscan : scanNmeaSentences frame.payload true = .ok [taggedMatch block.length octets.length hpos] := by
    rw [hbytes]
    exact scan_tagged hslash hbang hline hpos
  have hmatch : IsScanMatch frame.payload (taggedMatch block.length octets.length hpos) := by
    obtain ⟨ms, hms, hall⟩ := scanNmeaSentences_ok frame.payload true
    rw [hscan] at hms
    exact hall _ (Except.ok.inj hms ▸ List.mem_singleton.mpr rfl)
  have hlen : frame.payload.length = block.length + 2 + octets.length := by
    rw [hbytes]
    simp only [List.length_append, List.length_cons]
    omega
  have hsplit : frame.payload = (0x5C :: block ++ [0x5C]) ++ octets := by
    rw [hbytes]
    simp
  have hcut : (0x5C :: block ++ [0x5C]).length = block.length + 2 := by simp
  simp only [hasSurrogate_append, Bool.or_eq_false_iff] at hclean
  have htext : decodeFrameSlice frame (block.length + 2) (block.length + 2 + octets.length) =
      .ok line := by
    have hslice : slice frame.payload (block.length + 2) (block.length + 2 + octets.length) =
        encodeSurrogatepass line := by
      rw [slice, List.take_of_length_le (by omega), hsplit, List.drop_left' hcut, hoctets]
    rw [decodeFrameSlice, if_neg (by omega), if_neg (by omega), hmode, hslice,
      decodeIgnore_encode hclean.2]
  have htagText : decodeFrameSlice frame 0 (block.length + 2) = .ok (formatHeader content) := by
    have hslice : slice frame.payload 0 (block.length + 2) = encodeSurrogatepass (formatHeader content) := by
      rw [slice, List.drop_zero, hsplit, List.take_left' hcut, hheader]
    rw [decodeFrameSlice, if_neg (by omega), if_neg (by omega), hmode, hslice,
      decodeIgnore_encode hclean.1]
  have hbody : (partition 0x2A ((formatHeader content).drop 1).dropLast).1 = content := by
    have hinner : ((formatHeader content).drop 1).dropLast = content ++ 0x2A :: nmeaChecksum content := by
      rw [formatHeader_eq]
      exact List.dropLast_concat
    rw [hinner, partition_append hcontent.star]
  have htag : parseTagMetadata frame (taggedMatch block.length octets.length hpos) =
      .ok (tagOf content) := by
    simp only [parseTagMetadata, taggedMatch, htagText, Bind.bind, Except.bind, hbody]
    rfl
  refine ⟨⟨frame, taggedMatch block.length octets.length hpos, parseFragment line, tagOf content⟩, ?_,
    htext, rfl, rfl⟩
  have hscanned : parseScannedSentence frame (taggedMatch block.length octets.length hpos) =
      .ok ⟨frame, taggedMatch block.length octets.length hpos, parseFragment line, tagOf content⟩ := by
    have htext' : decodeFrameSlice frame (taggedMatch block.length octets.length hpos).sentenceSpan.start
      (taggedMatch block.length octets.length hpos).sentenceSpan.stop = .ok line := htext
    simp only [parseScannedSentence, validateMatch_ok hmatch, htext', htag, Bind.bind, Except.bind,
      Pure.pure, Except.pure]
  simp only [parseFrameSentences, hscan, Bind.bind, Except.bind]
  rw [List.mapM_cons, hscanned]
  rfl

/-! ### Reading the TAG block back -/

lemma split_append {s : PyStr} (h : (0x2C : CodePoint) ∉ s) (t : PyStr) :
    split 0x2C (s ++ 0x2C :: t) = s :: split 0x2C t := by
  rw [split, List.splitOn_append_cons_self, List.splitOn_eq_singleton h]
  rfl

lemma split_single {s : PyStr} (h : (0x2C : CodePoint) ∉ s) : split 0x2C s = [s] :=
  List.splitOn_eq_singleton h

/-- The `c` and `s` fields of a header. -/
lemma tagFields_main {time s : PyStr} (htime : (0x2C : CodePoint) ∉ time) (hs : (0x2C : CodePoint) ∉ s) :
    tagFields (str "c:" ++ time ++ str ",s:" ++ s) = (some s, some time, none) := by
  have hsplit : split 0x2C (str "c:" ++ time ++ str ",s:" ++ s) =
      [0x63 :: 0x3A :: time, 0x73 :: 0x3A :: s] := by
    have hfirst : (0x2C : CodePoint) ∉ (0x63 :: 0x3A :: time : PyStr) := by simp [htime]
    have hsecond : (0x2C : CodePoint) ∉ (0x73 :: 0x3A :: s : PyStr) := by simp [hs]
    rw [show str "c:" ++ time ++ str ",s:" ++ s = (0x63 :: 0x3A :: time) ++ 0x2C :: (0x73 :: 0x3A :: s) by
      simp [str], split_append hfirst, split_single hsecond]
  rw [tagFields, hsplit]
  simp [partition, str]

/-- The three fields of the header of a first line. -/
lemma tagFields_group {time s g : PyStr} (htime : (0x2C : CodePoint) ∉ time)
    (hs : (0x2C : CodePoint) ∉ s) (hg : (0x2C : CodePoint) ∉ g) :
    tagFields (str "c:" ++ time ++ str ",s:" ++ s ++ str ",g:" ++ g) = (some s, some time, some g) := by
  have hsplit : split 0x2C (str "c:" ++ time ++ str ",s:" ++ s ++ str ",g:" ++ g) =
      [0x63 :: 0x3A :: time, 0x73 :: 0x3A :: s, 0x67 :: 0x3A :: g] := by
    have hfirst : (0x2C : CodePoint) ∉ (0x63 :: 0x3A :: time : PyStr) := by simp [htime]
    have hsecond : (0x2C : CodePoint) ∉ (0x73 :: 0x3A :: s : PyStr) := by simp [hs]
    have hthird : (0x2C : CodePoint) ∉ (0x67 :: 0x3A :: g : PyStr) := by simp [hg]
    rw [show str "c:" ++ time ++ str ",s:" ++ s ++ str ",g:" ++ g = (0x63 :: 0x3A :: time) ++ 0x2C ::
      ((0x73 :: 0x3A :: s) ++ 0x2C :: (0x67 :: 0x3A :: g)) by simp [str], split_append hfirst,
      split_append hsecond, split_single hthird]
  rw [tagFields, hsplit]
  simp [partition, str]

/-- The only field of the header of a later line. -/
lemma tagFields_later {g : PyStr} (hg : (0x2C : CodePoint) ∉ g) :
    tagFields (str "g:" ++ g) = (none, none, some g) := by
  have hsplit : split 0x2C (str "g:" ++ g) = [0x67 :: 0x3A :: g] := by
    have hfirst : (0x2C : CodePoint) ∉ (0x67 :: 0x3A :: g : PyStr) := by simp [hg]
    exact split_single hfirst
  rw [tagFields, hsplit]
  simp [partition, str]

lemma parseCValue_intStr {i : Int} (hpos : 0 ≤ i) (hlt : i.natAbs < 10 ^ intMaxStrDigits) :
    parseCValue (some (intStr i)) = some i := by
  obtain ⟨n, rfl⟩ := Int.eq_ofNat_of_zero_le hpos
  have hstr : intStr (n : Int) = natStr n := rfl
  simp only [parseCValue, hstr, isDigit_natStr, if_true]
  exact pyInt_natStr (by simpa using hlt)

lemma dash_not_mem_natStr (n : Nat) : (0x2D : CodePoint) ∉ natStr n := by
  intro hmem
  obtain ⟨d, hd, heq⟩ := natStr_digits hmem
  exact (digitChar_spec d hd).2.2.2.1 heq.symm

lemma parseGValue_triplet {part total : Nat} (hpart : part < 10 ^ intMaxStrDigits)
    (htotal : total < 10 ^ intMaxStrDigits) {gid : PyStr} (hgid : isDigit gid = true) :
    parseGValue (some (natStr part ++ str "-" ++ natStr total ++ str "-" ++ gid)) =
      some ⟨part, total, gid, some gid⟩ := by
  have hshape : natStr part ++ str "-" ++ natStr total ++ str "-" ++ gid =
      natStr part ++ 0x2D :: (natStr total ++ 0x2D :: gid) := by simp [str]
  have hsplit : splitMax 0x2D 2 (natStr part ++ str "-" ++ natStr total ++ str "-" ++ gid) =
      [natStr part, natStr total, gid] := by
    rw [hshape, splitMax, partition_append (dash_not_mem_natStr part)]
    simp only
    rw [splitMax, partition_append (dash_not_mem_natStr total)]
    rfl
  simp only [parseGValue, hsplit, pyInt_natStr hpart, pyInt_natStr htotal, hgid, if_true]

/-! ### The limits of what is read -/

lemma declaredTotal_lt {text : PyStr} {fragment : ParsedFragment} (h : parseFragment text = some fragment) :
    fragment.declaredTotal < 10 ^ intMaxStrDigits := by
  unfold parseFragment at h
  split at h
  · cases h
  · split at h
    · next declaredTotal ordinal hdeclared _ =>
      unfold ParsedFragment.check at h
      split at h
      · cases h
      · obtain rfl := Option.some.inj h
        have hlt := pyInt_lt hdeclared
        change declaredTotal.toNat < _
        omega
    · cases h

/-- A time that the parser reads is a natural number of limited length. -/
def IsReadTime (c : Int) : Prop := 0 ≤ c ∧ c.natAbs < 10 ^ intMaxStrDigits

/-- No float is larger. -/
def floatLimit : ℕ := 2 ^ 1024

lemma truncate_isReadTime {wall : ℚ} (hpos : 0 ≤ wall) (hlt : wall < floatLimit) :
    IsReadTime (truncate wall) := by
  have hfloor : truncate wall = ⌊wall⌋ := if_pos hpos
  have hnonneg : 0 ≤ ⌊wall⌋ := Int.floor_nonneg.mpr hpos
  have hbound : ⌊wall⌋ < (floatLimit : ℤ) := Int.floor_lt.mpr (by exact_mod_cast hlt)
  have hpow : ∀ k ≤ intMaxStrDigits, 2 ^ k ≤ 10 ^ intMaxStrDigits := fun k hk =>
    (Nat.pow_le_pow_left (by norm_num) k).trans (Nat.pow_le_pow_right (by norm_num) hk)
  have hlimit := hpow 1024 (by decide)
  unfold floatLimit at hbound
  rw [hfloor]
  exact ⟨hnonneg, by omega⟩

lemma parseCValue_isReadTime {value : Option PyStr} {c : Int} (h : parseCValue value = some c) :
    IsReadTime c := by
  unfold parseCValue at h
  split at h
  · cases h
  · split at h
    · next hdigit => exact ⟨pyInt_nonneg hdigit h, pyInt_lt h⟩
    · cases h

/-- The `c` value of a sentence is read from a text. -/
lemma parsed_time {frame : IngressFrame} {includeVdo : Bool} {ps : List ParsedSentence}
    (h : parseFrameSentences frame includeVdo = .ok ps) {p : ParsedSentence} (hp : p ∈ ps) {c : Int}
    (hc : p.tag.cValue = some c) : IsReadTime c := by
  obtain ⟨ms, -, hms⟩ := bind_eq_ok_iff.mp h
  obtain ⟨m, -, hm⟩ := mem_of_mapM_ok hms p hp
  obtain ⟨-, -, hm⟩ := bind_eq_ok_iff.mp hm
  obtain ⟨text, -, hm⟩ := bind_eq_ok_iff.mp hm
  obtain ⟨tag, htag, hm⟩ := bind_eq_ok_iff.mp hm
  obtain rfl := Except.ok.inj hm
  unfold parseTagMetadata at htag
  split at htag
  · obtain rfl := Except.ok.inj htag
    cases hc
  · obtain ⟨tagText, -, htag⟩ := bind_eq_ok_iff.mp htag
    obtain rfl := Except.ok.inj htag
    exact parseCValue_isReadTime hc

/-! ### Datagrams of outputs -/

lemma strip_crlf {s : PyStr} {first last : CodePoint} (hfirst : s.head? = some first)
    (hlast : s.getLast? = some last) (hfirstSpace : isSpaceChar first = false)
    (hlastSpace : isSpaceChar last = false) : strip (s ++ [0x0D, 0x0A]) = s := by
  have hcr : isSpaceChar 0x0D = true := by decide
  have hlf : isSpaceChar 0x0A = true := by decide
  obtain ⟨rest, hrest⟩ : ∃ rest, s = first :: rest := by
    cases s with
    | nil => cases hfirst
    | cons c cs => exact ⟨cs, by rw [Option.some.inj hfirst]⟩
  have hleft : (s ++ [0x0D, 0x0A]).dropWhile isSpaceChar = s ++ [0x0D, 0x0A] := by
    rw [hrest, List.cons_append, List.dropWhile_cons_of_neg (by simp [hfirstSpace])]
  have hright : s.reverse.dropWhile isSpaceChar = s.reverse := by
    rw [← List.head?_reverse] at hlast
    cases hreverse : s.reverse with
    | nil => rfl
    | cons c cs =>
      rw [hreverse, List.head?_cons, Option.some.injEq] at hlast
      rw [List.dropWhile_cons_of_neg (by simp [hlast, hlastSpace])]
  rw [strip, hleft, List.reverse_append]
  simp [hcr, hlf, hright]

/-- The last character of a sentence is a hexadecimal digit. -/
lemma sentence_last {line : PyStr} (h : IsSentence (encodeSurrogatepass line)) :
    ∃ last, line.getLast? = some last ∧ isSpaceChar last = false := by
  obtain ⟨hpos, -, -, b, hb, hhex⟩ := matchLength_spec h
  have hsplit : encodeSurrogatepass line =
      (encodeSurrogatepass line).take ((encodeSurrogatepass line).length - 1) ++ b :: [] := by
    conv_lhs => rw [← List.take_append_drop ((encodeSurrogatepass line).length - 1) (encodeSurrogatepass line)]
    obtain ⟨hlt, hget⟩ := List.getElem?_eq_some_iff.mp hb
    rw [List.drop_eq_getElem_cons hlt, hget, Nat.sub_add_cancel hpos, List.drop_length]
  obtain ⟨t, u, hline, -, hu⟩ := encode_split_ascii hsplit (ascii_of_isHexDigit hhex)
  have hnil : u = [] := by
    cases u with
    | nil => rfl
    | cons c u =>
      have hlen := congrArg List.length hu
      have hchar := encodeChar_length_pos c
      simp only [encodeSurrogatepass, List.flatMap_cons, List.length_append, List.length_nil] at hlen
      omega
  refine ⟨codePoint b.toNat, by rw [hline, hnil]; simp, ?_⟩
  have hval : (codePoint b.toNat).val = b.toNat := codePoint_toNat (by
    have := ascii_of_isHexDigit hhex
    omega)
  simp only [isHexDigit, Bool.or_eq_true, Bool.and_eq_true, decide_eq_true_eq] at hhex
  simp only [isSpaceChar, inRanges, spaceRanges, List.any_cons, List.any_nil, Bool.or_false, hval,
    Bool.or_eq_false_iff, Bool.and_eq_false_iff, decide_eq_false_iff_not]
  omega

/-- The datagram of an output is framed as the header and the sentence. -/
lemma frame_of_output {content line : PyStr} (hline : IsSentence (encodeSurrogatepass line))
    {message : Bytes}
    (h : encodeUtf8 (formatHeader content ++ (line ++ [0x0D, 0x0A])) = some message)
    (origin : IngressOrigin) :
    ∃ frame, frameFromUdpDatagram message origin = .ok frame ∧ frame.textMode = .utf8Ignore ∧
      frame.payload = encodeSurrogatepass (formatHeader content ++ line) ∧
      hasSurrogate (formatHeader content ++ line) = false := by
  obtain ⟨hclean, hmessage⟩ := encodeUtf8_eq_some.mp h
  obtain ⟨last, hlast, hspace⟩ := sentence_last hline
  have hne : line ≠ [] := by
    rintro rfl
    cases hlast
  have hstrip : strip (formatHeader content ++ (line ++ [0x0D, 0x0A])) = formatHeader content ++ line := by
    rw [← List.append_assoc]
    refine @strip_crlf _ 0x5C last rfl ?_ (by decide) hspace
    rw [List.getLast?_append_of_ne_nil _ hne, hlast]
  obtain ⟨frame, hframe, hmode, hpayload⟩ := frameFromUdpDatagram_ok message origin
  refine ⟨frame, hframe, hmode, ?_, ?_⟩
  · rw [hpayload, hmessage, decodeIgnore_encode hclean, hstrip]
  · rw [← List.append_assoc, hasSurrogate_append, Bool.or_eq_false_iff] at hclean
    exact hclean.1

namespace Processor

/-- What parsing the datagram of a line gives: the line, and the TAG fields it was written with. -/
structure ReadsBack (fmt : LineFormat) (index : Nat) (line : PyStr) (wall : ℚ) (parsed : ParsedSentence) :
    Prop where
  text : parsed.text = .ok line
  fragment : parsed.fragment = parseFragment line
  first : index = 0 ∨ fmt.tagged = false → parsed.tag.sValue = some fmt.sValue ∧
    ∃ c, parsed.tag.cValue = some c ∧ intStr c = headerTime fmt.timestamp wall
  later : ¬(index = 0 ∨ fmt.tagged = false) → parsed.tag.sValue = none ∧ parsed.tag.cText = none
  group : fmt.tagged = true → parsed.tag.gValue = some ⟨(index + 1 : Nat), fmt.total, fmt.gid, some fmt.gid⟩
  ungrouped : fmt.tagged = false → parsed.tag.gValue = none

/-- A line together with the ingress sentence that it is the text of. -/
structure IsIngressSentence (line : PyStr) (original : ParsedSentence) : Prop where
  source : ∃ frame sentences, Produced frame ∧ parseFrameSentences frame true = .ok sentences ∧
    original ∈ sentences
  text : original.text = .ok line

lemma keepable_produced (cfg : ProcessingConfig) {frame : IngressFrame} (h : Produced frame) :
    KeepableFrame cfg (fun text => ∃ original, IsIngressSentence text original ∧ original.fragment.isSome)
      IsReadTime (fun gid => isDigit gid = true) frame := by
  intro sentences hparse parsed hparsed
  obtain ⟨text, htext, hfragment⟩ := parsed_text hparse hparsed
  refine ⟨⟨text, htext, hfragment, fun hfrag => ⟨parsed, ⟨⟨frame, sentences, h, hparse, hparsed⟩, htext⟩, hfrag⟩⟩,
    fun c hc => ?_, fun gid hgid => ?_⟩
  · unfold validC at hc
    split at hc
    · exact parsed_time hparse hparsed hc
    · cases hc
  · unfold ingressGid at hgid
    split at hgid
    · exact parsed_gid hparse hparsed hgid
    · cases hgid

/-- The TAG block of a line reads back as it was written. -/
lemma tagOf_lead {fmt : LineFormat} {index : Nat} {wall : ℚ} {i : Int}
    (htime : headerTime fmt.timestamp wall = intStr i) (hi : IsReadTime i)
    (hs : IsFieldText fmt.sValue) (hgid : isDigit fmt.gid = true)
    (hindex : index + 1 < 10 ^ intMaxStrDigits) (htotal : fmt.total < 10 ^ intMaxStrDigits)
    {parsed : ParsedSentence} {line : PyStr} (htext : parsed.text = .ok line)
    (hfragment : parsed.fragment = parseFragment line)
    (htag : parsed.tag = tagOf (headerLead fmt index wall ++ (if fmt.tagged then fmt.gid else []))) :
    ReadsBack fmt index line wall parsed := by
  have hcomma : isFieldChar 0x2C = false := by decide
  have hdash : IsFieldText (str "-") := by
    intro c hc
    rw [List.mem_singleton.mp hc]
    decide
  have htimeComma : (0x2C : CodePoint) ∉ intStr i := (intStr_isFieldText i).not_mem hcomma
  have hsComma := hs.not_mem hcomma
  have htriplet : IsFieldText (natStr (index + 1) ++ str "-" ++ natStr fmt.total ++ str "-" ++ fmt.gid) :=
    ((((intStr_isFieldText (index + 1 : Nat)).append hdash).append
      (intStr_isFieldText (fmt.total : Nat))).append hdash).append (isFieldText_of_isDigit hgid)
  have hgComma := htriplet.not_mem hcomma
  have hc := parseCValue_intStr hi.1 hi.2
  have hg := parseGValue_triplet hindex htotal hgid
  cases htagged : fmt.tagged with
  | false =>
    have hcontent : headerLead fmt index wall ++ (if fmt.tagged then fmt.gid else []) =
        str "c:" ++ intStr i ++ str ",s:" ++ fmt.sValue := by
      simp [headerLead, htagged, htime]
    rw [hcontent, tagOf, tagFields_main htimeComma hsComma] at htag
    refine ⟨htext, hfragment, fun _ => ?_, by simp [htagged], by simp [htagged], fun _ => ?_⟩
    · rw [htag]
      exact ⟨rfl, i, hc, htime.symm⟩
    · rw [htag]
      rfl
  | true =>
    by_cases hzero : index = 0
    · have hcontent : headerLead fmt index wall ++ (if fmt.tagged then fmt.gid else []) =
          str "c:" ++ intStr i ++ str ",s:" ++ fmt.sValue ++ str ",g:" ++
            (natStr (index + 1) ++ str "-" ++ natStr fmt.total ++ str "-" ++ fmt.gid) := by
        simp [headerLead, htagged, htime, hzero, str]
      rw [hcontent, tagOf, tagFields_group htimeComma hsComma hgComma] at htag
      refine ⟨htext, hfragment, fun _ => ?_, by simp [hzero], fun _ => ?_, by simp [htagged]⟩
      · rw [htag]
        exact ⟨rfl, i, hc, htime.symm⟩
      · rw [htag]
        exact hg
    · have hcontent : headerLead fmt index wall ++ (if fmt.tagged then fmt.gid else []) =
          str "g:" ++ (natStr (index + 1) ++ str "-" ++ natStr fmt.total ++ str "-" ++ fmt.gid) := by
        simp [headerLead, htagged, hzero]
      rw [hcontent, tagOf, tagFields_later hgComma] at htag
      refine ⟨htext, hfragment, by simp [hzero, htagged], fun _ => ?_, fun _ => ?_, by simp [htagged]⟩
      · rw [htag]
        exact ⟨rfl, rfl⟩
      · rw [htag]
        exact hg

/-- Every output, taken in as a datagram, is one sentence: the emitted one, with its fragment fields
and with the TAG metadata that was written. -/
theorem reingest_exact {cfg : ProcessorConfig} {env : Environment} {startNs : Int}
    (hdigits : 1 ≤ cfg.processing.gidDigits)
    (hgen : ∀ digits n, 1 ≤ digits → isDigit (env.gidGenerator digits n) = true)
    (hwall : ∀ n, 0 ≤ env.wallClock n ∧ env.wallClock n < floatLimit) {p : Processor}
    (h : Reachable cfg env startNs Produced p) {frame : IngressFrame} (hframe : Produced frame)
    {snapshot : ProcessingSnapshot} {p' : Processor} {reports : List SentenceReport}
    (hcall : process cfg env p frame snapshot = (p', .ok reports)) :
    ∀ out ∈ batch reports, ∃ r e fmt index n line original,
      IsOutputLine cfg env reports r e fmt index n line out ∧ IsIngressSentence line original ∧
        ∀ origin, ∃ frame' parsed, frameFromUdpDatagram out.message origin = .ok frame' ∧
          parseFrameSentences frame' true = .ok [parsed] ∧ parsed.fragment = original.fragment ∧
          ReadsBack fmt index line (env.wallClock n) parsed := by
  intro out hout
  have hkept := h.kept (fun frame hframe => keepable_produced cfg.processing hframe)
  obtain ⟨-, hwritten⟩ := hkept.process (keepable_produced cfg.processing hframe) hcall
  obtain ⟨r, e, fmt, index, n, line, hline, hmessage⟩ := output_written (hwritten reports rfl) hout
  obtain ⟨original, horiginal, hfrag⟩ := hmessage.lines line (List.mem_of_getElem? hline.get)
  obtain ⟨ingress, sentences, hproduced, hparse, hmem⟩ := horiginal.source
  have hsentence := text_isSentence hproduced hparse hmem horiginal.text
  have hfragment : original.fragment = parseFragment line := by
    obtain ⟨text, htext, hfragment⟩ := parsed_text hparse hmem
    rw [horiginal.text] at htext
    rw [hfragment, Except.ok.inj htext]
  have hgid : isDigit e.gid = true := by
    rcases hmessage.gid with hdigit | ⟨k, hk⟩
    · exact hdigit
    · rw [hk]
      exact hgen _ k hdigits
  obtain ⟨i, htime, hi⟩ := headerTime_eq hmessage (env.wallClock n)
  have hread : IsReadTime i := by
    rcases hi with rfl | rfl | hread
    · exact truncate_isReadTime (hwall n).1 (hwall n).2
    · exact ⟨le_rfl, by positivity⟩
    · exact hread
  have htotal : e.lines.length < 10 ^ intMaxStrDigits := by
    obtain ⟨text, fragment, hdeclared, hcount⟩ := hmessage.count
    rw [hcount]
    exact declaredTotal_lt hdeclared
  have hindex : index < e.lines.length := (List.getElem?_eq_some_iff.mp hline.get).1
  have hs : IsFieldText fmt.sValue := by
    obtain ⟨a, b, c, d, hchoose⟩ := hline.format.sValue
    rw [hchoose]
    exact isFieldText_of_safe (chooseSValue_safe _ _ _ _)
  have hencode := output_message hline (hfragment ▸ hfrag)
  have hcontent := output_content hline.format hmessage (isFieldText_of_isDigit hgid) index (env.wallClock n)
  refine ⟨r, e, fmt, index, n, line, original, hline, horiginal, fun origin => ?_⟩
  obtain ⟨frame', hframe', hmode, hpayload, hclean⟩ := frame_of_output hsentence hencode origin
  obtain ⟨parsed, hparsed, htext, hfragment', htag⟩ := parse_tagged hcontent hsentence hclean hpayload hmode
  refine ⟨frame', parsed, hframe', hparsed, hfragment'.trans hfragment.symm, ?_⟩
  refine tagOf_lead ?_ hread hs ?_ ?_ ?_ htext hfragment' htag
  · rw [hline.format.timestamp]
    exact htime
  · rw [hline.format.gid]
    exact hgid
  · omega
  · rw [hline.format.total]
    exact htotal

theorem reingest_exact_grouped : ∃ message frame parsed fmt index line,
    firstMessages singleTagConfig (groupFrame (ascii "77")) = [message] ∧
      frameFromUdpDatagram message groupOrigin = .ok frame ∧
      parseFrameSentences frame true = .ok [parsed] ∧ ReadsBack fmt index line 1000 parsed := by
  have hmessages : firstMessages singleTagConfig (groupFrame (ascii "77")) =
    [ascii "\\c:1000,s:10_0_0_1,g:1-1-77*23\\!AIVDM,1,1,,A,p,0*00\r\n"] := by decide +kernel
  obtain ⟨p', reports, hcall, hbatch⟩ := firstMessages_of_call (by simp) hmessages
  obtain ⟨out, hout, hmessage⟩ := List.mem_map.mp (hbatch ▸ List.mem_singleton.mpr rfl)
  have hproduced : Produced (groupFrame (ascii "77")) := by
    have hframe : frameFromUdpDatagram (groupDatagram (ascii "77")) groupOrigin =
      .ok (groupFrame (ascii "77")) := by decide +kernel
    exact .udpDatagram hframe
  have hwall : ∀ n, 0 ≤ fixedGidEnvironment.wallClock n ∧ fixedGidEnvironment.wallClock n < floatLimit := by
    intro n
    have hpow : ∀ k, 10 ≤ k → 1000 < 2 ^ k := fun k hk =>
      lt_of_lt_of_le (by norm_num) (Nat.pow_le_pow_right (by norm_num) hk)
    have hlimit : 1000 < floatLimit := hpow 1024 (by norm_num)
    change (0 : ℚ) ≤ 1000 ∧ (1000 : ℚ) < floatLimit
    exact ⟨by norm_num, by exact_mod_cast hlimit⟩
  obtain ⟨r, e, fmt, index, n, line, original, -, -, hread⟩ :=
    @reingest_exact singleTagConfig fixedGidEnvironment 0 (by decide)
      (fun digits n _ => fixedGidEnvironment_gid digits n) hwall _ .start _ hproduced oneTarget p' reports
      hcall out hout
  obtain ⟨frame, parsed, hframe, hparse, -, hback⟩ := hread groupOrigin
  exact ⟨_, frame, parsed, fmt, index, line, hmessages, hmessage ▸ hframe, hparse, hback⟩

end Processor

end AisMixer
