import AisMixer.Library.Utf8

/-!
# Ingress frames

A frame keeps its payload as octets, with the text mode by which slices of it are decoded.
The two producers are `frameFromUdpDatagram` for raw datagrams and `frameFromTextPayload` for
text that a secured station sent.
-/

namespace AisMixer
open Library

inductive PayloadTextMode where
  | utf8Ignore
  | utf8Surrogatepass
  deriving DecidableEq

structure IngressFrame where
  kind : PyStr
  sourceId : PyStr
  aliasForS : Option PyStr
  remoteIp : Option PyStr
  assemblerKey : PyStr
  payload : Bytes
  textMode : PayloadTextMode := .utf8Ignore
  deriving DecidableEq

/-- What a producer knows about the sender of a frame. -/
structure IngressOrigin where
  kind : PyStr
  sourceId : PyStr
  aliasForS : Option PyStr
  remoteIp : Option PyStr
  assemblerKey : PyStr
  deriving DecidableEq

/-- `frame_from_text_payload` of a `str` payload. -/
def frameFromTextPayload (origin : IngressOrigin) (payload : PyStr) : IngressFrame where
  kind := origin.kind
  sourceId := origin.sourceId
  aliasForS := origin.aliasForS
  remoteIp := origin.remoteIp
  assemblerKey := origin.assemblerKey
  payload := encodeSurrogatepass payload
  textMode := .utf8Surrogatepass

/-- `frame_from_udp_datagram`; strict encoding can fail, so the result says so. -/
def frameFromUdpDatagram (data : Bytes) (origin : IngressOrigin) :
    Except PyException IngressFrame :=
  match encodeUtf8 (strip (decodeIgnore data)) with
  | none => .error .unicodeEncodeError
  | some payload => .ok {
      kind := origin.kind
      sourceId := origin.sourceId
      aliasForS := origin.aliasForS
      remoteIp := origin.remoteIp
      assemblerKey := origin.assemblerKey
      payload := payload
      textMode := .utf8Ignore }

/-- The octets of `payload[start:end]`. -/
def slice (payload : Bytes) (start stop : Nat) : Bytes := (payload.take stop).drop start

def decodeFrameSlice (frame : IngressFrame) (start stop : Nat) : Except PyException PyStr :=
  if stop < start then .error (.valueError (str "frame slice end must not precede start"))
  else if frame.payload.length < stop then
    .error (.valueError (str "frame slice end exceeds payload"))
  else
    match frame.textMode with
    | .utf8Ignore => .ok (decodeIgnore (slice frame.payload start stop))
    | .utf8Surrogatepass =>
      match decodeSurrogatepass (slice frame.payload start stop) with
      | none => .error .unicodeDecodeError
      | some text => .ok text

/-- The frames that the built-in producers make. -/
inductive Produced : IngressFrame → Prop
  | udpDatagram {data : Bytes} {origin : IngressOrigin} {frame : IngressFrame}
      (h : frameFromUdpDatagram data origin = .ok frame) : Produced frame
  | textPayload (origin : IngressOrigin) (payload : PyStr) :
      Produced (frameFromTextPayload origin payload)

/-! ### Datagrams are always framed -/

lemma decodeIgnore_noSurrogate (data : Bytes) : hasSurrogate (decodeIgnore data) = false := by
  simp only [hasSurrogate, decodeIgnore, List.any_eq_false, List.mem_filter, and_imp]
  intro c _ hc
  simpa using hc

lemma strip_subset (s : PyStr) : ∀ c ∈ strip s, c ∈ s := by
  intro c hc
  simp only [strip, List.mem_reverse] at hc
  have h₁ := (List.dropWhile_sublist _).subset hc
  rw [List.mem_reverse] at h₁
  exact (List.dropWhile_sublist _).subset h₁

lemma hasSurrogate_of_subset {s t : PyStr} (h : ∀ c ∈ s, c ∈ t) (ht : hasSurrogate t = false) :
    hasSurrogate s = false := by
  simp only [hasSurrogate, List.any_eq_false] at ht ⊢
  exact fun c hc => ht c (h c hc)

/-- Every datagram gives a frame, and its payload is the strict encoding of its text. -/
theorem frameFromUdpDatagram_ok (data : Bytes) (origin : IngressOrigin) :
    ∃ frame, frameFromUdpDatagram data origin = .ok frame ∧ frame.textMode = .utf8Ignore ∧
      frame.payload = encodeSurrogatepass (strip (decodeIgnore data)) := by
  have h : hasSurrogate (strip (decodeIgnore data)) = false :=
    hasSurrogate_of_subset (strip_subset _) (decodeIgnore_noSurrogate data)
  simp [frameFromUdpDatagram, encodeUtf8, h]

end AisMixer
