import AisMixer.Library.Json
import AisMixer.Library.Lines

/-!
# The serial line framer

`SerialLineFramer` of `nmea_sproxy/input_adapters.py` takes the bytes of a serial port in the
chunks in which they arrive. `Follows` says what it holds after a stream, in terms of the lines
of the stream alone, so that the cuts between the chunks do not matter.
-/

namespace AisMixer.Sproxy

open AisMixer.Library

structure InputConfigError where
  message : PyStr
  deriving DecidableEq

lemma toNat_pos {i : Int} (h : ¬i ≤ 0) : 0 < i.toNat := by omega

/-- `_positive_int(value, context)`. -/
def positiveInt (value : Json) (context : PyStr) : Except InputConfigError ℕ+ :=
  match value with
  | .int i =>
    if h : i ≤ 0 then .error ⟨context ++ str ": must be a positive integer"⟩
    else .ok ⟨i.toNat, toNat_pos h⟩
  | _ => .error ⟨context ++ str ": must be a positive integer"⟩

structure SerialLineFramer where
  maxLineBytes : ℕ+
  buffer : Bytes
  discardingOverlong : Bool
  previousWasCr : Bool
  deriving DecidableEq

/-- What a call of `feed` returns, beside the framer that it leaves. -/
structure FeedResult where
  framer : SerialLineFramer
  lines : List Bytes
  overlongDropped : Nat
  deriving DecidableEq

namespace SerialLineFramer

def fresh (maxLineBytes : ℕ+) : SerialLineFramer := ⟨maxLineBytes, [], false, false⟩

/-- The constructor. -/
def new (maxLineBytes : Json) : Except InputConfigError SerialLineFramer :=
  (positiveInt maxLineBytes (str "input.max_line_bytes")).map fresh

def finishLine (framer : SerialLineFramer) : SerialLineFramer × Option Bytes :=
  if framer.discardingOverlong then
    ({ framer with buffer := [], discardingOverlong := false }, none)
  else ({ framer with buffer := [] }, some framer.buffer)

lemma finishLine_previousWasCr (framer : SerialLineFramer) (cr : Bool) :
    { ({ framer with previousWasCr := cr } : SerialLineFramer).finishLine.1 with previousWasCr := cr } =
      ({ framer with previousWasCr := cr } : SerialLineFramer).finishLine.1 := by
  unfold finishLine
  split <;> rfl

/-- One pass of the loop of `feed`. -/
def feedByte (result : FeedResult) (byte : UInt8) : FeedResult :=
  if result.framer.previousWasCr ∧ byte = lineFeed then
    { result with framer := { result.framer with previousWasCr := false } }
  else
    let framer := { result.framer with previousWasCr := false }
    if byte = carriageReturn then
      let (framer, line) := framer.finishLine
      ⟨{ framer with previousWasCr := true }, result.lines ++ line.toList, result.overlongDropped⟩
    else if byte = lineFeed then
      let (framer, line) := framer.finishLine
      ⟨framer, result.lines ++ line.toList, result.overlongDropped⟩
    else if framer.discardingOverlong then { result with framer := framer }
    else if framer.maxLineBytes ≤ framer.buffer.length then
      ⟨{ framer with buffer := [], discardingOverlong := true }, result.lines,
        result.overlongDropped + 1⟩
    else { result with framer := { framer with buffer := framer.buffer ++ [byte] } }

def feed (framer : SerialLineFramer) (chunk : Bytes) : FeedResult :=
  chunk.foldl feedByte ⟨framer, [], 0⟩

/-- The results of successive calls of `feed`, after the framer that the last one leaves. -/
def feedAll : SerialLineFramer → List Bytes → SerialLineFramer × List FeedResult
  | framer, [] => (framer, [])
  | framer, chunk :: chunks =>
    let result := framer.feed chunk
    let (last, results) := feedAll result.framer chunks
    (last, result :: results)

/-! ### Chunks do not matter -/

/-- A pass of the loop only adds to what was collected before. -/
lemma feedByte_collected (result : FeedResult) (byte : UInt8) :
    feedByte result byte =
      ⟨(feedByte ⟨result.framer, [], 0⟩ byte).framer,
        result.lines ++ (feedByte ⟨result.framer, [], 0⟩ byte).lines,
        result.overlongDropped + (feedByte ⟨result.framer, [], 0⟩ byte).overlongDropped⟩ := by
  unfold feedByte
  dsimp only
  split_ifs <;> simp

lemma foldl_feedByte (chunk : Bytes) (result : FeedResult) :
    chunk.foldl feedByte result =
      ⟨(result.framer.feed chunk).framer, result.lines ++ (result.framer.feed chunk).lines,
        result.overlongDropped + (result.framer.feed chunk).overlongDropped⟩ := by
  unfold feed
  induction chunk generalizing result with
  | nil => simp
  | cons byte chunk ih =>
    rw [List.foldl_cons, List.foldl_cons, ih, ih (feedByte ⟨result.framer, [], 0⟩ byte),
      feedByte_collected]
    simp [add_assoc]

/-- Two chunks are fed like their concatenation. -/
lemma feed_append (framer : SerialLineFramer) (first second : Bytes) :
    framer.feed (first ++ second) =
      ⟨((framer.feed first).framer.feed second).framer,
        (framer.feed first).lines ++ ((framer.feed first).framer.feed second).lines,
        (framer.feed first).overlongDropped +
          ((framer.feed first).framer.feed second).overlongDropped⟩ := by
  have hfold := foldl_feedByte second (framer.feed first)
  unfold feed at hfold ⊢
  rw [List.foldl_append, hfold]

/-- The calls together return what one call with the whole stream returns. -/
theorem feedAll_eq_feed (framer : SerialLineFramer) (chunks : List Bytes) :
    framer.feed chunks.flatten =
      ⟨(framer.feedAll chunks).1, ((framer.feedAll chunks).2.map FeedResult.lines).flatten,
        ((framer.feedAll chunks).2.map FeedResult.overlongDropped).sum⟩ := by
  induction chunks generalizing framer with
  | nil => rfl
  | cons chunk chunks ih =>
    rw [List.flatten_cons, feed_append, ih (framer.feed chunk).framer]
    simp [feedAll]

/-! ### The lines of the stream -/

/-- What the framer has returned and what it holds after a stream. -/
structure Follows (limit : ℕ+) (stream : Bytes) (result : FeedResult) : Prop where
  maxLineBytes : result.framer.maxLineBytes = limit
  lines : result.lines = (terminatedLines lineFeed (universalNewlines stream)).filter
    (fun line => decide (line.length ≤ (limit : Nat)))
  overlong : result.overlongDropped = ((universalNewlines stream).splitOn lineFeed).countP
    (fun line => decide ((limit : Nat) < line.length))
  discarding : result.framer.discardingOverlong =
    decide ((limit : Nat) < (unterminatedLine lineFeed (universalNewlines stream)).length)
  buffer : result.framer.buffer =
    if result.framer.discardingOverlong then []
    else unterminatedLine lineFeed (universalNewlines stream)
  previousWasCr : result.framer.previousWasCr = decide (stream.getLast? = some carriageReturn)

lemma fresh_follows (limit : ℕ+) : Follows limit [] ⟨fresh limit, [], 0⟩ where
  maxLineBytes := rfl
  lines := rfl
  overlong := by simp [universalNewlines]
  discarding := by simp [fresh, universalNewlines]
  buffer := rfl
  previousWasCr := rfl

namespace Follows

variable {limit : ℕ+} {stream : Bytes} {result : FeedResult}

lemma buffer_length_le (h : Follows limit stream result) :
    result.framer.buffer.length ≤ (limit : Nat) := by
  have hdiscarding := h.discarding
  rw [h.buffer]
  by_cases hlong : (limit : Nat) < (unterminatedLine lineFeed (universalNewlines stream)).length
  · rw [hdiscarding, decide_eq_true hlong, if_pos rfl]
    exact Nat.zero_le _
  · rw [hdiscarding, decide_eq_false hlong, if_neg Bool.false_ne_true]
    exact not_lt.mp hlong

/-- The line feed of a pair. -/
lemma pair (h : Follows limit stream result) (hcr : result.framer.previousWasCr = true) :
    Follows limit (stream ++ [lineFeed])
      { result with framer := { result.framer with previousWasCr := false } } := by
  rw [h.previousWasCr, decide_eq_true_iff] at hcr
  have hstream := universalNewlines_snoc_pair hcr
  refine ⟨h.maxLineBytes, ?_, ?_, ?_, ?_, ?_⟩
  · rw [hstream]
    exact h.lines
  · rw [hstream]
    exact h.overlong
  · rw [hstream]
    exact h.discarding
  · rw [hstream]
    exact h.buffer
  · simp [lineFeed, carriageReturn]

/-- The overlong lines, the open one among them. -/
lemma overlong_eq (h : Follows limit stream result) :
    result.overlongDropped = (terminatedLines lineFeed (universalNewlines stream)).countP
        (fun line => decide ((limit : Nat) < line.length)) +
      if (limit : Nat) < (unterminatedLine lineFeed (universalNewlines stream)).length then 1 else 0 := by
  rw [h.overlong, ← terminatedLines_append_unterminatedLine, List.countP_append, List.countP_singleton]
  simp

/-- A terminator returns the open line, or drops it when it is overlong. -/
lemma finish (h : Follows limit stream result) {byte : UInt8}
    (hstream : universalNewlines (stream ++ [byte]) = universalNewlines stream ++ [lineFeed]) :
    Follows limit (stream ++ [byte])
      ⟨{ ({ result.framer with previousWasCr := false } : SerialLineFramer).finishLine.1 with
          previousWasCr := decide (byte = carriageReturn) },
        result.lines ++
          ({ result.framer with previousWasCr := false } : SerialLineFramer).finishLine.2.toList,
        result.overlongDropped⟩ := by
  have hdiscarding := h.discarding
  have hbuffer := h.buffer
  have hterminated := terminatedLines_snoc_self lineFeed (universalNewlines stream)
  have hopen := unterminatedLine_snoc_self lineFeed (universalNewlines stream)
  have hcount : result.overlongDropped = ((universalNewlines (stream ++ [byte])).splitOn lineFeed).countP
      (fun line => decide ((limit : Nat) < line.length)) := by
    rw [hstream, splitOn_snoc_self, List.countP_append, h.overlong]
    simp
  have hcr : decide (byte = carriageReturn) = decide ((stream ++ [byte]).getLast? = some carriageReturn) := by
    simp
  by_cases hlong : (limit : Nat) < (unterminatedLine lineFeed (universalNewlines stream)).length
  · rw [decide_eq_true hlong] at hdiscarding
    simp only [finishLine, if_pos hdiscarding]
    refine ⟨h.maxLineBytes, ?_, hcount, ?_, ?_, hcr⟩
    · rw [hstream, hterminated, List.filter_append, h.lines]
      simp [hlong]
    · simp [hstream, hopen]
    · simp [hstream, hopen]
  · rw [decide_eq_false hlong] at hdiscarding
    rw [hdiscarding, if_neg Bool.false_ne_true] at hbuffer
    simp only [finishLine, hdiscarding, Bool.false_eq_true, if_false]
    refine ⟨h.maxLineBytes, ?_, hcount, ?_, ?_, hcr⟩
    · rw [hstream, hterminated, List.filter_append, h.lines, hbuffer]
      simp [not_lt.mp hlong]
    · simp [hstream, hopen]
    · simp [hstream, hopen]

/-- Any other byte goes to the open line, which is dropped once it is overlong. -/
lemma extend (h : Follows limit stream result) {byte : UInt8} (hcr : byte ≠ carriageReturn)
    (hlf : byte ≠ lineFeed) :
    Follows limit (stream ++ [byte]) (SerialLineFramer.feedByte result byte) := by
  have hdiscarding := h.discarding
  have hbuffer := h.buffer
  have hstream : universalNewlines (stream ++ [byte]) = universalNewlines stream ++ [byte] := by
    rw [universalNewlines_snoc (fun hb => absurd hb hlf), if_neg hcr]
  have hterminated := terminatedLines_snoc_of_ne hlf (universalNewlines stream)
  have hopen := unterminatedLine_snoc_of_ne hlf (universalNewlines stream)
  rw [← hstream] at hterminated hopen
  have hsplit := terminatedLines_append_unterminatedLine lineFeed (universalNewlines (stream ++ [byte]))
  have hlast : false = decide ((stream ++ [byte]).getLast? = some carriageReturn) := by
    simp [hcr]
  have hcount := h.overlong_eq
  simp only [SerialLineFramer.feedByte, hcr, hlf, and_false, if_false]
  by_cases hlong : (limit : Nat) < (unterminatedLine lineFeed (universalNewlines stream)).length
  · rw [decide_eq_true hlong] at hdiscarding
    rw [if_pos hdiscarding]
    refine ⟨h.maxLineBytes, ?_, ?_, ?_, ?_, hlast⟩
    · rw [hterminated, h.lines]
    · rw [← hsplit, hterminated, hopen, List.countP_append, hcount]
      simp [hlong, Nat.lt_succ_of_lt hlong]
    · simp [hdiscarding, hopen, Nat.lt_succ_of_lt hlong]
    · rw [hbuffer, if_pos hdiscarding, if_pos hdiscarding]
  · rw [decide_eq_false hlong] at hdiscarding
    rw [hdiscarding, if_neg Bool.false_ne_true] at hbuffer
    rw [if_neg (by simp [hdiscarding]), h.maxLineBytes]
    by_cases hfull : (limit : Nat) ≤ result.framer.buffer.length
    · rw [if_pos hfull]
      rw [hbuffer] at hfull
      have hover : (limit : Nat) <
          (unterminatedLine lineFeed (universalNewlines stream)).length + 1 := Nat.lt_succ_of_le hfull
      refine ⟨rfl, ?_, ?_, ?_, ?_, hlast⟩
      · rw [hterminated, h.lines]
      · rw [← hsplit, hterminated, hopen, List.countP_append, hcount]
        simp [hlong, hover]
      · simp [hopen, hover]
      · simp
    · rw [if_neg hfull]
      rw [hbuffer] at hfull
      have hfits : ¬(limit : Nat) <
          (unterminatedLine lineFeed (universalNewlines stream)).length + 1 := by omega
      refine ⟨rfl, ?_, ?_, ?_, ?_, hlast⟩
      · rw [hterminated, h.lines]
      · rw [← hsplit, hterminated, hopen, List.countP_append, hcount]
        simp [hlong, hfits]
      · simp [hdiscarding, hopen, hfits]
      · simp [hdiscarding, hopen, hbuffer]

/-- The next byte of the stream. -/
theorem feedByte (h : Follows limit stream result) (byte : UInt8) :
    Follows limit (stream ++ [byte]) (SerialLineFramer.feedByte result byte) := by
  have hprevious := h.previousWasCr
  by_cases hpair : result.framer.previousWasCr = true ∧ byte = lineFeed
  · obtain ⟨hcr, rfl⟩ := hpair
    rw [SerialLineFramer.feedByte, if_pos ⟨hcr, rfl⟩]
    exact h.pair hcr
  · have hstream := @universalNewlines_snoc stream byte (by
      intro hb hlast
      exact hpair ⟨by rw [hprevious, decide_eq_true hlast], hb⟩)
    by_cases hcr : byte = carriageReturn
    · rw [if_pos hcr] at hstream
      have hnext := h.finish hstream
      rw [SerialLineFramer.feedByte, if_neg hpair, if_pos hcr]
      rwa [decide_eq_true hcr] at hnext
    · by_cases hlf : byte = lineFeed
      · rw [if_neg hcr] at hstream
        have hnext := h.finish (hstream.trans (by rw [hlf]))
        rw [SerialLineFramer.feedByte, if_neg hpair, if_neg hcr, if_pos hlf]
        rwa [decide_eq_false hcr, finishLine_previousWasCr] at hnext
      · exact h.extend hcr hlf

/-- The next chunk of the stream. -/
theorem foldl_feedByte (h : Follows limit stream result) (chunk : Bytes) :
    Follows limit (stream ++ chunk) (chunk.foldl SerialLineFramer.feedByte result) := by
  induction chunk generalizing stream result with
  | nil =>
    rw [List.append_nil]
    exact h
  | cons byte chunk ih =>
    rw [List.append_cons]
    exact ih (h.feedByte byte)

end Follows

/-- However a stream is cut into chunks, a new framer returns its terminated lines that fit, counts
those that do not, the open line among them, and never holds more than a line may have. The
third part looks at the buffer after each byte of each call. -/
theorem serial_framing_chunk_independent (maxLineBytes : Nat) (hmax : 1 ≤ maxLineBytes)
    (chunks : List Bytes) :
    ∃ framer, new (.int maxLineBytes) = .ok framer ∧
      ((framer.feedAll chunks).2.map FeedResult.lines).flatten =
        (terminatedLines lineFeed (universalNewlines chunks.flatten)).filter
          (fun line => decide (line.length ≤ maxLineBytes)) ∧
      ((framer.feedAll chunks).2.map FeedResult.overlongDropped).sum =
        ((universalNewlines chunks.flatten).splitOn lineFeed).countP
          (fun line => decide (maxLineBytes < line.length)) ∧
      ∀ earlier chunk later, chunks = earlier ++ chunk :: later → ∀ fed, fed <+: chunk →
        ((framer.feedAll earlier).1.feed fed).framer.buffer.length ≤ maxLineBytes := by
  refine ⟨fresh ⟨maxLineBytes, hmax⟩, ?_, ?_, ?_, ?_⟩
  · have hpos : ¬(maxLineBytes : Int) ≤ 0 := by omega
    rw [new, positiveInt, dif_neg hpos]
    rfl
  · have hfed := (fresh_follows ⟨maxLineBytes, hmax⟩).foldl_feedByte chunks.flatten
    have hlines := hfed.lines
    rwa [List.nil_append, ← feed, feedAll_eq_feed] at hlines
  · have hfed := (fresh_follows ⟨maxLineBytes, hmax⟩).foldl_feedByte chunks.flatten
    have hoverlong := hfed.overlong
    rwa [List.nil_append, ← feed, feedAll_eq_feed] at hoverlong
  · intro earlier chunk later hchunks fed hfed
    have hall := (fresh_follows ⟨maxLineBytes, hmax⟩).foldl_feedByte (earlier.flatten ++ fed)
    have hbound := hall.buffer_length_le
    rwa [← feed, feed_append, feedAll_eq_feed] at hbound

theorem serial_framing_chunk_independent_split_pair :
    1 ≤ 4 ∧ ∃ framer, new (.int (4 : Nat)) = .ok framer ∧
      ((framer.feedAll [ascii "ok\r", ascii "\nlong", ascii "er\n"]).2.map FeedResult.lines).flatten =
        (terminatedLines lineFeed (universalNewlines
          [ascii "ok\r", ascii "\nlong", ascii "er\n"].flatten)).filter
          (fun line => decide (line.length ≤ 4)) := by
  obtain ⟨framer, hnew, hlines, -⟩ := serial_framing_chunk_independent 4 (by decide)
    [ascii "ok\r", ascii "\nlong", ascii "er\n"]
  exact ⟨by decide, framer, hnew, hlines⟩

end SerialLineFramer

end AisMixer.Sproxy
