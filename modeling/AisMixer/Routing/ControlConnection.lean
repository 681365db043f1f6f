import AisMixer.Library.Lines
import AisMixer.Routing.ControlAtomicity

/-!
# A connection of the control socket

`_serve_connection` of `core/routing_control_unix.py`, one pass of its loop at a time. The
reader returns a non-empty front of what the client has sent, of any size up to the requested
one, and nothing only at the end of the stream. An exception of the protocol is answered with an
internal error and ends the connection, as does a write that fails.
-/

namespace AisMixer.Routing

open AisMixer.Library

def errorFrameTooLarge : PyStr := str "frame_too_large"
def errorInternalError : PyStr := str "internal_error"
def frameTooLargeMessage : PyStr := str "Routing control request exceeds maximum frame size."
def internalErrorMessage : PyStr := str "Internal routing control error."

def readChunkSize : Nat := 65536

/-- A `RoutingControlUnixServer`; its constructor has checked the limit. -/
structure RoutingControlUnixServer where
  protocol : RoutingControlProtocol
  maxRequestBytes : ℕ+

/-- The connection between two passes of the loop: the routing state, what the reader has still to
return, the buffer, and the frames given to the protocol and the data written so far. -/
structure Connection where
  state : RoutingState
  unread : Bytes
  buffer : Bytes
  handled : List Bytes
  written : List Bytes
  closed : Bool

/-- `reader.read(requested)` when `amount` bytes are at hand. -/
def received (amount requested : Nat) (unread : Bytes) : Bytes :=
  unread.take (max 1 (min amount requested))

namespace Connection

def opened (state : RoutingState) (stream : Bytes) : Connection := ⟨state, stream, [], [], [], false⟩

/-- `_write_response`, whose result says whether the peer is still there. -/
def writeResponse (writable : Bool) (response : Bytes) (c : Connection) : Connection × Bool :=
  if writable then ({ c with written := c.written ++ [response ++ [lineFeed]] }, true)
  else (c, false)

/-- `_write_transport_error`. -/
def writeTransportError (writable : Bool) (code message : PyStr) (c : Connection) : Connection × Bool :=
  match encodeJsonResponse (errorResponse .null code message []) with
  | .ok response => c.writeResponse writable response
  | .error _ => (c, false)

/-- `_process_frame`. -/
def processFrame (protocol : RoutingControlProtocol) (writable : Bool) (frame : Bytes)
    (c : Connection) : Connection × Bool :=
  let (next, response) := protocol.handleJson c.state frame
  let c := { c with state := next, handled := c.handled ++ [frame] }
  match response with
  | .ok response => c.writeResponse writable response
  | .error _ =>
    ((c.writeTransportError writable errorInternalError internalErrorMessage).1, false)

def close (c : Connection) : Connection := { c with closed := true }

end Connection

namespace RoutingControlUnixServer

variable (server : RoutingControlUnixServer)

def writeFrameTooLarge (writable : Bool) (c : Connection) : Connection :=
  (c.writeTransportError writable errorFrameTooLarge frameTooLargeMessage).1.close

/-- The part of a pass that reads. -/
def fillBuffer (amount : Nat) (writable : Bool) (c : Connection) : Connection :=
  let readSize := min readChunkSize (server.maxRequestBytes + 1 - c.buffer.length)
  let readSize := if readSize ≤ 0 then 1 else readSize
  let chunk := received amount readSize c.unread
  if chunk = [] then
    if c.buffer = [] then c.close
    else (c.processFrame server.protocol writable c.buffer).1.close
  else { c with unread := c.unread.drop chunk.length, buffer := c.buffer ++ chunk }

/-- One pass of the loop. -/
def advance (amount : Nat) (writable : Bool) (c : Connection) : Connection :=
  if c.closed then c
  else
    match c.buffer.idxOf? lineFeed with
    | some newlineAt =>
      let frame := c.buffer.take newlineAt
      let c := { c with buffer := c.buffer.drop (newlineAt + 1) }
      if server.maxRequestBytes < frame.length then writeFrameTooLarge writable c
      else
        let (c, goOn) := c.processFrame server.protocol writable frame
        if goOn then c else c.close
    | none =>
      if server.maxRequestBytes < c.buffer.length then writeFrameTooLarge writable c
      else server.fillBuffer amount writable c

/-- The connection after some passes, where the peer decides how much each read returns and
whether each write succeeds. -/
def serve (amounts : Nat → Nat) (writable : Nat → Bool) (c : Connection) : Nat → Connection
  | 0 => c
  | n + 1 => server.advance (amounts n) (writable n) (serve amounts writable c n)

/-! ### What a pass does -/

lemma received_length_le {amount requested : Nat} (h : 0 < requested) (unread : Bytes) :
    (received amount requested unread).length ≤ requested := by
  rw [received, List.length_take]
  omega

lemma received_eq_nil_iff {amount requested : Nat} {unread : Bytes} :
    received amount requested unread = [] ↔ unread = [] := by
  have hpos : max 1 (min amount requested) ≠ 0 := by omega
  rw [received, List.take_eq_nil_iff]
  simp [hpos]

lemma received_append_drop (amount requested : Nat) (unread : Bytes) :
    received amount requested unread ++ unread.drop (received amount requested unread).length =
      unread := by
  rw [received, List.length_take]
  rcases le_total (max 1 (min amount requested)) unread.length with h | h
  · rw [min_eq_left h, List.take_append_drop]
  · rw [min_eq_right h, List.drop_length, List.take_of_length_le h, List.append_nil]

/-- The connection after a frame was given to the protocol. -/
def afterFrame (writable : Bool) (frame : Bytes) (c : Connection) : Connection :=
  if (c.processFrame server.protocol writable frame).2 then
    (c.processFrame server.protocol writable frame).1
  else (c.processFrame server.protocol writable frame).1.close

/-- The passes of an open connection whose buffer is within the limit. -/
inductive Pass (writable : Bool) (c : Connection) : Connection → Prop where
  | line {frame rest : Bytes} (hbuffer : c.buffer = frame ++ lineFeed :: rest)
      (hframe : lineFeed ∉ frame) (hfits : frame.length ≤ server.maxRequestBytes) :
      Pass writable c (server.afterFrame writable frame { c with buffer := rest })
  | overlong (hbuffer : lineFeed ∉ c.buffer) (hlong : (server.maxRequestBytes : Nat) < c.buffer.length) :
      Pass writable c (writeFrameTooLarge writable c)
  | finished (hunread : c.unread = []) (hbuffer : c.buffer = []) : Pass writable c c.close
  | tail (hunread : c.unread = []) (hbuffer : lineFeed ∉ c.buffer) (hne : c.buffer ≠ [])
      (hfits : c.buffer.length ≤ server.maxRequestBytes) :
      Pass writable c (c.processFrame server.protocol writable c.buffer).1.close
  | read {chunk rest : Bytes} (hunread : c.unread = chunk ++ rest) (hchunk : chunk ≠ [])
      (hbound : c.buffer.length + chunk.length ≤ server.maxRequestBytes + 1) :
      Pass writable c { c with unread := rest, buffer := c.buffer ++ chunk }

variable {server} {c : Connection}

lemma fillBuffer_pass (amount : Nat) (writable : Bool) (hbuffer : lineFeed ∉ c.buffer)
    (hfits : c.buffer.length ≤ server.maxRequestBytes) :
    server.Pass writable c (server.fillBuffer amount writable c) := by
  have hsize : 0 < min readChunkSize (server.maxRequestBytes + 1 - c.buffer.length) := by
    rw [readChunkSize]
    omega
  rw [fillBuffer, if_neg (not_le.mpr hsize)]
  split
  · rename_i hchunk
    have hunread := received_eq_nil_iff.mp hchunk
    split
    · rename_i hempty
      exact .finished hunread hempty
    · rename_i hne
      exact .tail hunread hbuffer hne hfits
  · rename_i hchunk
    have hlength := @received_length_le amount _ hsize c.unread
    refine .read (received_append_drop _ _ _).symm hchunk ?_
    omega

lemma advance_pass (amount : Nat) (writable : Bool) (hopen : c.closed = false)
    (hbound : c.buffer.length ≤ server.maxRequestBytes + 1) :
    server.Pass writable c (server.advance amount writable c) := by
  rw [advance, if_neg (by simp [hopen])]
  split
  · rename_i newlineAt hcut
    obtain ⟨hbuffer, hframe⟩ := eq_cut_of_idxOf? hcut
    have hfits : (c.buffer.take newlineAt).length ≤ server.maxRequestBytes := by
      have hlength := congrArg List.length hbuffer
      rw [List.length_append, List.length_cons] at hlength
      omega
    rw [if_neg (not_lt.mpr hfits)]
    exact .line hbuffer hframe hfits
  · rename_i hcut
    have hbuffer : lineFeed ∉ c.buffer := List.idxOf?_eq_none_iff.mp hcut
    split
    · rename_i hlong
      exact .overlong hbuffer hlong
    · rename_i hfits
      exact fillBuffer_pass amount writable hbuffer (not_lt.mp hfits)

/-! ### The buffer -/

section Buffer

variable (writable : Bool)

lemma writeResponse_buffer (response : Bytes) (c : Connection) :
    (c.writeResponse writable response).1.buffer = c.buffer := by
  unfold Connection.writeResponse
  split <;> rfl

lemma writeTransportError_buffer (code message : PyStr) (c : Connection) :
    (c.writeTransportError writable code message).1.buffer = c.buffer := by
  unfold Connection.writeTransportError
  split
  · exact writeResponse_buffer _ _ _
  · rfl

lemma processFrame_buffer (protocol : RoutingControlProtocol) (frame : Bytes) (c : Connection) :
    (c.processFrame protocol writable frame).1.buffer = c.buffer := by
  unfold Connection.processFrame
  dsimp only
  split
  · exact writeResponse_buffer _ _ _
  · exact writeTransportError_buffer _ _ _ _

lemma afterFrame_buffer (frame : Bytes) (c : Connection) :
    (server.afterFrame writable frame c).buffer = c.buffer := by
  unfold afterFrame
  split <;> exact processFrame_buffer writable server.protocol frame c

end Buffer

/-- No pass fills the buffer beyond one byte over the limit. -/
lemma Pass.buffer_le {writable : Bool} {c' : Connection} (h : server.Pass writable c c')
    (hbound : c.buffer.length ≤ server.maxRequestBytes + 1) :
    c'.buffer.length ≤ server.maxRequestBytes + 1 := by
  cases h with
  | line hbuffer hframe hfits =>
    rw [hbuffer, List.length_append, List.length_cons] at hbound
    rw [afterFrame_buffer]
    dsimp only
    omega
  | overlong hbuffer hlong =>
    rw [writeFrameTooLarge, Connection.close, writeTransportError_buffer]
    exact hbound
  | finished hunread hbuffer => exact hbound
  | tail hunread hbuffer hne hfits =>
    rw [Connection.close, processFrame_buffer]
    exact hbound
  | read hunread hchunk hlength =>
    rw [List.length_append]
    exact hlength

lemma serve_buffer_le (amounts : Nat → Nat) (writable : Nat → Bool) (state : RoutingState)
    (stream : Bytes) (n : Nat) :
    (server.serve amounts writable (.opened state stream) n).buffer.length ≤
      server.maxRequestBytes + 1 := by
  induction n with
  | zero => exact Nat.zero_le _
  | succ n ih =>
    rw [serve]
    cases hclosed : (server.serve amounts writable (.opened state stream) n).closed with
    | true =>
      rw [advance, if_pos hclosed]
      exact ih
    | false => exact (advance_pass (amounts n) (writable n) hclosed ih).buffer_le ih

/-! ### The frames -/

/-- The frames of a stream up to the first one over the limit. -/
def acceptedFrames (limit : Nat) (stream : Bytes) : List Bytes :=
  (streamLines lineFeed stream).takeWhile (fun frame => frame.length ≤ limit)

def hasOverlong (limit : Nat) (stream : Bytes) : Bool :=
  (streamLines lineFeed stream).any (fun frame => limit < frame.length)

/-- The answers of the protocol to a list of frames, `none` when it raises on one of them. -/
def answerAll (protocol : RoutingControlProtocol) :
    RoutingState → List Bytes → Option (RoutingState × List Bytes)
  | state, [] => some (state, [])
  | state, frame :: frames =>
    match protocol.handleJson state frame with
    | (next, .ok response) =>
      (answerAll protocol next frames).map (fun answers => (answers.1, response :: answers.2))
    | (_, .error _) => none

lemma answerAll_append (protocol : RoutingControlProtocol) (state : RoutingState)
    (frames more : List Bytes) :
    answerAll protocol state (frames ++ more) =
      (answerAll protocol state frames).bind (fun answers =>
        (answerAll protocol answers.1 more).map (fun rest => (rest.1, answers.2 ++ rest.2))) := by
  induction frames generalizing state with
  | nil => simp [answerAll]
  | cons frame frames ih =>
    rw [List.cons_append, answerAll, answerAll]
    split
    · rw [ih]
      cases answerAll protocol _ frames with
      | none => rfl
      | some answers => simp [Option.map_map, Function.comp_def]
    · rfl

variable {start : RoutingState} {stream : Bytes}

lemma acceptedFrames_eq {limit : Nat} {handled rest : List Bytes}
    (hlines : streamLines lineFeed stream = handled ++ rest)
    (hfits : ∀ frame ∈ handled, frame.length ≤ limit) :
    acceptedFrames limit stream = handled ++ rest.takeWhile (fun frame => frame.length ≤ limit) := by
  rw [acceptedFrames, hlines, List.takeWhile_append_of_pos]
  intro frame hframe
  exact decide_eq_true (hfits frame hframe)

lemma hasOverlong_eq {limit : Nat} {handled rest : List Bytes}
    (hlines : streamLines lineFeed stream = handled ++ rest)
    (hfits : ∀ frame ∈ handled, frame.length ≤ limit) :
    hasOverlong limit stream = rest.any (fun frame => limit < frame.length) := by
  rw [hasOverlong, hlines, List.any_append, Bool.or_eq_right_iff_imp]
  intro hany
  obtain ⟨frame, hframe, hlong⟩ := List.any_eq_true.mp hany
  exact absurd (hfits frame hframe) (not_le.mpr (of_decide_eq_true hlong))

/-- The frames handled so far have been answered, in their order. -/
def Answered (server : RoutingControlUnixServer) (start : RoutingState) (c : Connection)
    (refusals : List Bytes) : Prop :=
  ∃ responses, answerAll server.protocol start c.handled = some (c.state, responses) ∧
    c.written = responses.map (fun response => response ++ [lineFeed]) ++ refusals

/-- An open connection: what has not been handled is in the buffer and still to be read. -/
structure Serving (server : RoutingControlUnixServer) (start : RoutingState) (stream : Bytes)
    (c : Connection) : Prop where
  lines : streamLines lineFeed stream = c.handled ++ streamLines lineFeed (c.buffer ++ c.unread)
  fits : ∀ frame ∈ c.handled, frame.length ≤ server.maxRequestBytes
  answered : Answered server start c []
  isOpen : c.closed = false

/-- A connection that has ended. -/
structure Served (server : RoutingControlUnixServer) (start : RoutingState) (stream : Bytes)
    (c : Connection) : Prop where
  handled : c.handled = acceptedFrames server.maxRequestBytes stream
  answered : ∃ refusal,
    encodeJsonResponse (errorResponse .null errorFrameTooLarge frameTooLargeMessage []) = .ok refusal ∧
      Answered server start c
        (if hasOverlong server.maxRequestBytes stream then [refusal ++ [lineFeed]] else [])
  closed : c.closed = true

lemma exists_refusal : ∃ refusal,
    encodeJsonResponse (errorResponse .null errorFrameTooLarge frameTooLargeMessage []) = .ok refusal := by
  rw [encodes_iff]
  decide

/-- The protocol returns on the next frame when it returns on all accepted frames. -/
lemma Serving.exists_response (h : Serving server start stream c) {frame : Bytes}
    {rest : List Bytes} (hnext : streamLines lineFeed (c.buffer ++ c.unread) = frame :: rest)
    (hframe : frame.length ≤ server.maxRequestBytes)
    (hreturns : (answerAll server.protocol start
      (acceptedFrames server.maxRequestBytes stream)).isSome = true) :
    ∃ next response, server.protocol.handleJson c.state frame = (next, .ok response) := by
  obtain ⟨responses, hanswers, -⟩ := h.answered
  rw [acceptedFrames_eq h.lines h.fits, hnext, List.takeWhile_cons_of_pos (by simpa using hframe),
    answerAll_append, hanswers, Option.bind_some, answerAll] at hreturns
  split at hreturns
  · rename_i next response hjson
    exact ⟨next, response, hjson⟩
  · simp at hreturns

lemma processFrame_ok {protocol : RoutingControlProtocol} {frame response : Bytes}
    {next : RoutingState} (hjson : protocol.handleJson c.state frame = (next, .ok response)) :
    c.processFrame protocol true frame =
      ({ c with
        state := next
        handled := c.handled ++ [frame]
        written := c.written ++ [response ++ [lineFeed]] }, true) := by
  rw [Connection.processFrame, hjson]
  rfl

lemma Answered.snoc (h : Answered server start c []) {frame response : Bytes} {next : RoutingState}
    (hjson : server.protocol.handleJson c.state frame = (next, .ok response)) :
    Answered server start (c.processFrame server.protocol true frame).1 [] := by
  obtain ⟨responses, hanswers, hwritten⟩ := h
  rw [processFrame_ok hjson]
  refine ⟨responses ++ [response], ?_, ?_⟩
  · rw [answerAll_append, hanswers]
    simp [answerAll, hjson]
  · simp [hwritten]

/-- How much of the stream is still to be moved; a byte is moved to the buffer and out of it. -/
def Connection.pending (c : Connection) : Nat := 2 * c.unread.length + c.buffer.length

/-- A pass of an open connection goes on with the rest of the stream or ends with what the whole
stream asks for. -/
theorem Serving.pass (h : Serving server start stream c)
    (hreturns : (answerAll server.protocol start
      (acceptedFrames server.maxRequestBytes stream)).isSome = true)
    {c' : Connection} (hpass : server.Pass true c c') :
    Served server start stream c' ∨
      (Serving server start stream c' ∧ Connection.pending c' < Connection.pending c) := by
  cases hpass with
  | @line frame rest hbuffer hframe hfits =>
    have hnext : streamLines lineFeed (c.buffer ++ c.unread) =
        frame :: streamLines lineFeed (rest ++ c.unread) := by
      rw [hbuffer, List.append_assoc, List.cons_append, streamLines_cut hframe]
    obtain ⟨next, response, hjson⟩ := h.exists_response hnext hfits hreturns
    have hanswered := h.answered.snoc hjson
    rw [processFrame_ok hjson] at hanswered
    right
    rw [afterFrame, processFrame_ok (c := { c with buffer := rest }) hjson, if_pos rfl]
    refine ⟨⟨?_, ?_, hanswered, h.isOpen⟩, ?_⟩
    · rw [h.lines, hnext, List.append_cons]
    · intro other hother
      rcases List.mem_append.mp hother with hother | hother
      · exact h.fits other hother
      · rw [List.mem_singleton.mp hother]
        exact hfits
    · simp only [Connection.pending, hbuffer, List.length_append, List.length_cons]
      omega
  | overlong hbuffer hlong =>
    obtain ⟨refusal, hrefusal⟩ := exists_refusal
    obtain ⟨responses, hanswers, hwritten⟩ := h.answered
    have hne : c.buffer ≠ [] := by
      rintro hnil
      rw [hnil] at hlong
      exact absurd hlong (Nat.not_lt_zero _)
    obtain ⟨more, others, hnext⟩ := exists_streamLines_cons hbuffer hne c.unread
    have hfirst : (server.maxRequestBytes : Nat) < (c.buffer ++ more).length := by
      rw [List.length_append]
      omega
    have haccepted : acceptedFrames server.maxRequestBytes stream = c.handled := by
      rw [acceptedFrames_eq h.lines h.fits, hnext,
        List.takeWhile_cons_of_neg (by simpa using hfirst), List.append_nil]
    have hoverlong : hasOverlong server.maxRequestBytes stream = true := by
      rw [hasOverlong_eq h.lines h.fits, hnext, List.any_cons, decide_eq_true hfirst, Bool.true_or]
    left
    rw [writeFrameTooLarge, Connection.writeTransportError, hrefusal]
    refine ⟨haccepted.symm, ⟨refusal, hrefusal, responses, hanswers, ?_⟩, rfl⟩
    rw [hoverlong, if_pos rfl]
    simp [Connection.writeResponse, Connection.close, hwritten]
  | finished hunread hbuffer =>
    have hnext : streamLines lineFeed (c.buffer ++ c.unread) = [] := by
      rw [hbuffer, hunread]
      rfl
    obtain ⟨refusal, hrefusal⟩ := exists_refusal
    left
    refine ⟨?_, ⟨refusal, hrefusal, ?_⟩, rfl⟩
    · rw [acceptedFrames_eq h.lines h.fits, hnext, List.takeWhile_nil, List.append_nil]
      rfl
    · rw [hasOverlong_eq h.lines h.fits, hnext]
      exact h.answered
  | tail hunread hbuffer hne hfits =>
    have hnext : streamLines lineFeed (c.buffer ++ c.unread) = [c.buffer] := by
      rw [hunread, List.append_nil, streamLines_of_not_mem hbuffer, if_neg hne]
    obtain ⟨next, response, hjson⟩ := h.exists_response hnext hfits hreturns
    have hanswered := h.answered.snoc hjson
    obtain ⟨refusal, hrefusal⟩ := exists_refusal
    have hshort : ¬(server.maxRequestBytes : Nat) < c.buffer.length := not_lt.mpr hfits
    left
    rw [processFrame_ok hjson] at hanswered ⊢
    refine ⟨?_, ⟨refusal, hrefusal, ?_⟩, rfl⟩
    · rw [acceptedFrames_eq h.lines h.fits, hnext, List.takeWhile_cons_of_pos (by simpa using hfits),
        List.takeWhile_nil]
      rfl
    · rw [hasOverlong_eq h.lines h.fits, hnext, List.any_cons, decide_eq_false hshort]
      exact hanswered
  | @read chunk rest hunread hchunk hbound =>
    right
    refine ⟨⟨?_, h.fits, h.answered, h.isOpen⟩, ?_⟩
    · rw [h.lines, hunread, List.append_assoc]
    · have hpos := List.length_pos_of_ne_nil hchunk
      simp only [Connection.pending, hunread, List.length_append]
      omega

/-- After any number of passes the connection has ended, or it has still to move at most what the
passes so far have left. -/
theorem serve_progress (hreturns : (answerAll server.protocol start
      (acceptedFrames server.maxRequestBytes stream)).isSome = true)
    (amounts : Nat → Nat) {writable : Nat → Bool} (hwrites : ∀ n, writable n = true) (n : Nat) :
    Served server start stream (server.serve amounts writable (.opened start stream) n) ∨
      (Serving server start stream (server.serve amounts writable (.opened start stream) n) ∧
        Connection.pending (server.serve amounts writable (.opened start stream) n) + n ≤
          2 * stream.length) := by
  induction n with
  | zero => exact Or.inr ⟨⟨rfl, by simp [serve, Connection.opened], ⟨[], rfl, rfl⟩, rfl⟩, le_rfl⟩
  | succ n ih =>
    have hbound := @serve_buffer_le server amounts writable start stream n
    rw [serve]
    rcases ih with hserved | ⟨hserving, hpending⟩
    · left
      rw [advance, if_pos hserved.closed]
      exact hserved
    · have hpass := advance_pass (amounts n) (writable n) hserving.isOpen hbound
      rw [hwrites n] at hpass ⊢
      rcases hserving.pass hreturns hpass with hserved | ⟨hnext, hless⟩
      · exact Or.inl hserved
      · exact Or.inr ⟨hnext, by omega⟩

/-- However the reader cuts the stream, the buffer stays within one byte over the limit, and the
connection ends after the protocol has been given the frames up to the first one over the limit
and has answered each of them, with one refusal after the answers when there is such a frame. -/
theorem control_framing_chunk_independent (server : RoutingControlUnixServer) (start : RoutingState)
    (stream : Bytes) (amounts : Nat → Nat) (writable : Nat → Bool)
    (hwrites : ∀ n, writable n = true)
    (hreturns : (answerAll server.protocol start
      (acceptedFrames server.maxRequestBytes stream)).isSome = true) :
    (∀ n, (server.serve amounts writable (.opened start stream) n).buffer.length ≤
      server.maxRequestBytes + 1) ∧
    ∃ last refusal,
      encodeJsonResponse (errorResponse .null errorFrameTooLarge frameTooLargeMessage []) =
          .ok refusal ∧
        ∀ n, last ≤ n → ∃ final responses,
          answerAll server.protocol start (acceptedFrames server.maxRequestBytes stream) =
            some (final, responses) ∧
          (server.serve amounts writable (.opened start stream) n).closed = true ∧
          (server.serve amounts writable (.opened start stream) n).state = final ∧
          (server.serve amounts writable (.opened start stream) n).handled =
            acceptedFrames server.maxRequestBytes stream ∧
          (server.serve amounts writable (.opened start stream) n).written =
            responses.map (fun response => response ++ [lineFeed]) ++
              if hasOverlong server.maxRequestBytes stream then [refusal ++ [lineFeed]] else [] := by
  refine ⟨fun n => serve_buffer_le amounts writable start stream n, ?_⟩
  obtain ⟨refusal, hrefusal⟩ := exists_refusal
  refine ⟨2 * stream.length + 1, refusal, hrefusal, ?_⟩
  intro n hn
  rcases serve_progress hreturns amounts hwrites n with hserved | ⟨-, hpending⟩
  · obtain ⟨refusal', hrefusal', responses, hanswers, hwritten⟩ := hserved.answered
    obtain rfl : refusal' = refusal := by
      rw [hrefusal] at hrefusal'
      exact (Except.ok.inj hrefusal').symm
    rw [hserved.handled] at hanswers
    exact ⟨_, responses, hanswers, hserved.closed, rfl, hserved.handled, hwritten⟩
  · omega

/-- A frame at the limit, an empty one, and one over the limit that is not terminated. -/
def pipelinedStream : Bytes := ascii "abcd\n\nabcdef"

theorem control_framing_pipelined :
    ∃ last refusal,
      encodeJsonResponse (errorResponse .null errorFrameTooLarge frameTooLargeMessage []) =
          .ok refusal ∧
        ∀ n, last ≤ n → ∃ final responses,
          answerAll idleProtocol freshState (acceptedFrames 4 pipelinedStream) =
            some (final, responses) ∧
          (serve ⟨idleProtocol, 4⟩ (fun n => n) (fun _ => true)
            (.opened freshState pipelinedStream) n).closed = true ∧
          (serve ⟨idleProtocol, 4⟩ (fun n => n) (fun _ => true)
            (.opened freshState pipelinedStream) n).state = final ∧
          (serve ⟨idleProtocol, 4⟩ (fun n => n) (fun _ => true)
            (.opened freshState pipelinedStream) n).handled = acceptedFrames 4 pipelinedStream ∧
          (serve ⟨idleProtocol, 4⟩ (fun n => n) (fun _ => true)
            (.opened freshState pipelinedStream) n).written =
            responses.map (fun response => response ++ [lineFeed]) ++
              if hasOverlong 4 pipelinedStream then [refusal ++ [lineFeed]] else [] :=
  (control_framing_chunk_independent ⟨idleProtocol, 4⟩ freshState pipelinedStream (fun n => n)
    (fun _ => true) (fun _ => rfl) (by decide +kernel)).2

example : acceptedFrames 4 pipelinedStream = [ascii "abcd", []] := by decide +kernel

end RoutingControlUnixServer

end AisMixer.Routing
