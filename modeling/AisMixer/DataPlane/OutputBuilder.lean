import AisMixer.Library.Utf8
import AisMixer.DataPlane.ParsedSentence

/-!
# Output messages

The choice of the `s` value, the TAG block in front of a sentence and the octets that egress
sends.
-/

namespace AisMixer
open Library

/-! ### The `s` value -/

/-- `[A-Za-z0-9_]`. -/
def isSafeChar (c : CodePoint) : Bool :=
  0x41 ≤ c.val && c.val ≤ 0x5A || 0x61 ≤ c.val && c.val ≤ 0x7A || 0x30 ≤ c.val && c.val ≤ 0x39 ||
    c.val == 0x5F

def sanitizeS (val : Option PyStr) : PyStr :=
  ((strip (val.getD [])).map (fun c => if isSafeChar c then c else 0x5F)).take 15

/-- `text.replace(old, new)` for single characters. -/
def replaceChar (old new : CodePoint) (text : PyStr) : PyStr :=
  text.map (fun c => if c = old then new else c)

/-- A value that is neither `None` nor empty. -/
def nonEmpty (value : Option PyStr) : Option PyStr := value.filter (fun v => !v.isEmpty)

def ipToS (ip : Option PyStr) : PyStr :=
  match nonEmpty ip with
  | none => str "ANONYMOUS"
  | some ip => sanitizeS (some (replaceChar 0x3A 0x5F (replaceChar 0x2E 0x5F ip)))

def chooseSValueFromCandidates (globalStationId sourceNameOrId incomingS remoteIp : Option PyStr) :
    PyStr :=
  match nonEmpty globalStationId with
  | some stationId => sanitizeS (some stationId)
  | none =>
    match (nonEmpty sourceNameOrId).filter (fun v => v ≠ str "ANONYMOUS") with
    | some source => sanitizeS (some source)
    | none =>
      match nonEmpty incomingS with
      | some incoming => sanitizeS (some incoming)
      | none => ipToS remoteIp

/-! ### The TAG block -/

/-- The digit of `X` formatting. -/
def upperHexDigit (n : Nat) : CodePoint :=
  if n < 10 then Fin.ofNat _ (0x30 + n) else Fin.ofNat _ (0x37 + n)

/-- `f"{n:02X}"`. -/
def hex02 (n : Nat) : PyStr :=
  let digits := (Nat.digits 16 n).reverse.map upperHexDigit
  List.replicate (2 - digits.length) 0x30 ++ digits

def nmeaChecksum (data : PyStr) : PyStr := hex02 (data.foldl (fun checksum c => checksum ^^^ c.val) 0)

def formatHeader (content : PyStr) : PyStr :=
  [0x5C] ++ content ++ [0x2A] ++ nmeaChecksum content ++ [0x5C]

/-- `int | str | None`. -/
inductive HeaderTimestamp where
  | none
  | int (i : Int)
  | text (s : PyStr)
  deriving DecidableEq

/-- The text of a timestamp that is true as a condition. -/
def HeaderTimestamp.truthy : HeaderTimestamp → Option PyStr
  | .none => Option.none
  | .int i => if i = 0 then Option.none else some (intStr i)
  | .text s => if s = [] then Option.none else some s

/-- `int(q)`. -/
def truncate (q : ℚ) : Int := if 0 ≤ q then ⌊q⌋ else -⌊-q⌋

/-- `wrap_with_meta`; `wall` is the reading of the clock if the code takes it. -/
def wrapWithMeta (nmeaLine stationId : PyStr) (timestamp : HeaderTimestamp) (isFirst : Bool)
    (gTriplet : Option PyStr) (wall : ℚ) : PyStr :=
  let timestampText := timestamp.truthy.getD (intStr (truncate wall))
  if (split 0x2C nmeaLine).length < 4 then nmeaLine
  else
    let tagFields := [str "c:" ++ timestampText, str "s:" ++ stationId]
    let header := match nonEmpty gTriplet with
      | some g =>
        if isFirst then formatHeader (join (str ",") (tagFields ++ [str "g:" ++ g]))
        else formatHeader (str "g:" ++ g)
      | none => formatHeader (join (str ",") tagFields)
    header ++ nmeaLine

def buildOutputBytes (nmeaLine stationId : PyStr) (timestamp : HeaderTimestamp) (isFirst : Bool)
    (gTriplet : Option PyStr) (wall : ℚ) : Except PyException Bytes :=
  match encodeUtf8 (wrapWithMeta nmeaLine stationId timestamp isFirst gTriplet wall ++ [0x0D, 0x0A]) with
  | none => .error .unicodeEncodeError
  | some message => .ok message

lemma buildOutputBytes_ok_iff {nmeaLine stationId : PyStr} {timestamp : HeaderTimestamp}
    {isFirst : Bool} {gTriplet : Option PyStr} {wall : ℚ} {message : Bytes} :
    buildOutputBytes nmeaLine stationId timestamp isFirst gTriplet wall = .ok message ↔
      encodeUtf8 (wrapWithMeta nmeaLine stationId timestamp isFirst gTriplet wall ++ [0x0D, 0x0A]) =
        some message := by
  unfold buildOutputBytes
  cases encodeUtf8 (wrapWithMeta nmeaLine stationId timestamp isFirst gTriplet wall ++ [0x0D, 0x0A]) with
  | none => simp
  | some octets => simp

/-! ### Headers -/

/-- The time that a header is written with. -/
def headerTime (timestamp : HeaderTimestamp) (wall : ℚ) : PyStr :=
  timestamp.truthy.getD (intStr (truncate wall))

/-- What a header holds between its opening backslash and its checksum. -/
def headerContent (stationId timestampText : PyStr) (isFirst : Bool) (gTriplet : Option PyStr) : PyStr :=
  let main := str "c:" ++ timestampText ++ str ",s:" ++ stationId
  match gTriplet with
  | some g => if isFirst then main ++ str ",g:" ++ g else str "g:" ++ g
  | none => main

lemma length_split_of_fragment {line : PyStr} (h : (parseFragment line).isSome) :
    4 ≤ (split 0x2C line).length := by
  unfold parseFragment leadingFields at h
  split at h
  · simp at h
  · next heq =>
    split at heq
    · next hsplit =>
      rw [hsplit]
      simp
    · cases heq

/-- A line of four fields is written with a header in front of it. -/
lemma wrapWithMeta_header {line : PyStr} (hfields : 4 ≤ (split 0x2C line).length) (stationId : PyStr)
    (timestamp : HeaderTimestamp) (isFirst : Bool) {g : Option PyStr} (hg : g ≠ some []) (wall : ℚ) :
    wrapWithMeta line stationId timestamp isFirst g wall =
      formatHeader (headerContent stationId (headerTime timestamp wall) isFirst g) ++ line := by
  have hlong : ¬(split 0x2C line).length < 4 := not_lt.mpr hfields
  simp only [wrapWithMeta, headerContent, headerTime, if_neg hlong]
  cases g with
  | none => simp [nonEmpty, join, List.intercalate, str]
  | some g =>
    have hne : nonEmpty (some g) = some g := by
      have hcons : g ≠ [] := fun h => hg (by rw [h])
      simp [nonEmpty, Option.filter, hcons]
    simp only [hne]
    cases isFirst <;> simp [join, List.intercalate, str]

end AisMixer
