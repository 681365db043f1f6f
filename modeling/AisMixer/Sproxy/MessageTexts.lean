import AisMixer.Library.JsonAscii
import AisMixer.Sproxy.ForwardLoop

/-!
# Messages between the proxy and the server

The messages of a session are flat objects, which their reader gets as they were written. The proxy sends
sentences and pings, the server answers with pongs.
-/

namespace AisMixer.Sproxy

open AisMixer.Library AisMixer.Udpsec Json

/-- The object of `send_udpsec_nmea_sentence`. -/
def nmeaMessage (cleanLine : PyStr) (wall : ℚ) (stationId : PyStr) : Json :=
  .obj [(str "type", .str (str "nmea")), (str "payload", .str cleanLine),
    (str "timestamp", .int (truncate wall)), (str "source_id", .str stationId)]

/-- What the proxy sends under the keys of its session. -/
inductive ClientMessage where
  | nmea (cleanLine : PyStr)
  | ping (sequence : Int)
  deriving DecidableEq

def ClientMessage.json (wall : ℚ) (stationId : PyStr) : ClientMessage → Json
  | .nmea cleanLine => nmeaMessage cleanLine wall stationId
  | .ping sequence => pingMessage sequence wall stationId

/-- A number that `int()` takes back from its decimal digits. -/
def ReadableNumber (i : Int) : Prop := (natStr i.natAbs).length ≤ intMaxStrDigits

instance (i : Int) : Decidable (ReadableNumber i) :=
  inferInstanceAs (Decidable ((natStr i.natAbs).length ≤ intMaxStrDigits))

/-- The text is without surrogates, as one that was decoded is, and the number can be read. -/
def ClientMessage.Readable : ClientMessage → Prop
  | .nmea cleanLine => hasSurrogate cleanLine = false
  | .ping sequence => ReadableNumber sequence

/-- A message is written, and read back. -/
lemma loadMessage_messageText {members : List (PyStr × Json)} (hnodup : (members.map Prod.fst).Nodup)
    (h : ∀ m ∈ members, AsciiKey m.1 ∧ FlatValue m.2) :
    ∃ plaintext, messageText (.obj members) = .ok plaintext ∧ loadMessage plaintext = .ok (.obj members) := by
  have hencode : encodeUtf8 (dumps {} (.obj members)) = some (encodeSurrogatepass (dumps {} (.obj members))) :=
    encodeUtf8_eq_some.mpr ⟨dumps_flat_plain (fun m hm => (h m hm).2), rfl⟩
  have hdecode := decodeUtf8_encode hencode
  refine ⟨_, by rw [messageText, hencode]; rfl, ?_⟩
  rw [loadMessage, hdecode]
  have hloads := loads_dumps_flat hnodup h
  simp only [orRaise, Bind.bind, Except.bind, hloads, Except.mapError]

section Messages

variable {wall : ℚ} {stationId cleanLine : PyStr} {sequence : Int}

instance (key : PyStr) : Decidable (AsciiKey key) :=
  decidable_of_iff (key.all (fun c => c.val ≤ 0x7E) = true) (by simp [AsciiKey])

/-- The messages differ in their kind and in one member. -/
lemma message_read {kind key : PyStr} {value : Json} (hkind : hasSurrogate kind = false)
    (hkeys : [str "type", key, str "timestamp", str "source_id"].Nodup) (hkey : AsciiKey key)
    (hvalue : FlatValue value) (hwall : ReadableNumber (truncate wall))
    (hstation : hasSurrogate stationId = false) :
    let message := Json.obj [(str "type", .str kind), (key, value), (str "timestamp", .int (truncate wall)),
      (str "source_id", .str stationId)]
    ∃ plaintext, messageText message = .ok plaintext ∧ loadMessage plaintext = .ok message := by
  apply loadMessage_messageText
  · exact hkeys
  · have htype : AsciiKey (str "type") := by decide
    have htimestamp : AsciiKey (str "timestamp") := by decide
    have hsource : AsciiKey (str "source_id") := by decide
    simp only [List.forall_mem_cons]
    exact ⟨⟨htype, hkind⟩, ⟨hkey, hvalue⟩, ⟨htimestamp, hwall⟩, ⟨hsource, hstation⟩, by simp⟩

lemma pingMessage_read (hsequence : ReadableNumber sequence) (hwall : ReadableNumber (truncate wall))
    (hstation : hasSurrogate stationId = false) :
    ∃ plaintext, messageText (pingMessage sequence wall stationId) = .ok plaintext ∧
      loadMessage plaintext = .ok (pingMessage sequence wall stationId) :=
  message_read (by decide) (by decide) (by decide) hsequence hwall hstation

lemma pongMessage_read (hsequence : ReadableNumber sequence) (hwall : ReadableNumber (truncate wall))
    (hstation : hasSurrogate stationId = false) :
    ∃ plaintext, messageText (pongMessage sequence wall stationId) = .ok plaintext ∧
      loadMessage plaintext = .ok (pongMessage sequence wall stationId) :=
  message_read (by decide) (by decide) (by decide) hsequence hwall hstation

lemma nmeaMessage_read (hline : hasSurrogate cleanLine = false) (hwall : ReadableNumber (truncate wall))
    (hstation : hasSurrogate stationId = false) :
    ∃ plaintext, messageText (nmeaMessage cleanLine wall stationId) = .ok plaintext ∧
      loadMessage plaintext = .ok (nmeaMessage cleanLine wall stationId) :=
  message_read (by decide) (by decide) (by decide) hline hwall hstation

/-- A message of the proxy is read as it was written. -/
lemma ClientMessage.read {content : ClientMessage} (hcontent : content.Readable)
    (hwall : ReadableNumber (truncate wall)) (hstation : hasSurrogate stationId = false) :
    ∃ plaintext, messageText (content.json wall stationId) = .ok plaintext ∧
      loadMessage plaintext = .ok (content.json wall stationId) := by
  cases content with
  | nmea cleanLine => exact nmeaMessage_read hcontent hwall hstation
  | ping sequence => exact pingMessage_read hcontent hwall hstation

end Messages

end AisMixer.Sproxy
