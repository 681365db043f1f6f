import AisMixer.Sproxy.HandshakeAgreement

/-!
# Agreement about packets

What the other side must have put on the network: a proxy has keys only behind a promotion for its own
ClientHello, and a session is promoted only behind a ClientHello and a confirmation ping that the station's
proxy has sent.
-/

namespace AisMixer.Sproxy

open AisMixer.Library AisMixer.Udpsec

section Packets

variable {Private Public : Type}

/-! ### ClientHellos -/

/-- The packet of a ClientHello was sent. -/
def HelloSent (past : List (NetworkEvent Private Public)) (station : Station Private Public)
    (hello : ClientHello) : Prop :=
  ∃ packet, buildClientHelloPacket hello = .ok packet ∧
    NetworkEvent.client station (.sent packet station.remoteAddr) ∈ past

lemma HelloSent.mono {past later : List (NetworkEvent Private Public)} {station : Station Private Public}
    {hello : ClientHello} (h : HelloSent past station hello) (hsub : past ⊆ later) :
    HelloSent later station hello := by
  obtain ⟨packet, hpacket, hmem⟩ := h
  exact ⟨packet, hpacket, hsub hmem⟩

/-- A handshake that waits for its answer, or has one, has sent its ClientHello. -/
structure HellosSent (past : List (NetworkEvent Private Public)) (network : Network Private Public) : Prop where
  waiting : ∀ station waiting deadline, ⟨station, .awaitingHello waiting deadline⟩ ∈ network.parties →
    HelloSent past station waiting.hello
  accepted : ∀ station hello ephemeral serverHello keys,
    NetworkEvent.client station (.accepted hello ephemeral serverHello keys) ∈ past → HelloSent past station hello

variable {p : Primitives Private Public} {cfg : SecureSettings} {secure : Public → Prop}
  {network : Network Private Public} {events : List (NetworkEvent Private Public)}

/-- A proxy accepts an answer when it waits for one. -/
lemma mem_step_accepted {station : Station Private Public} {hello : ClientHello} {ephemeral : Private}
    {serverHello : ServerHello} {keys : SessionKeyMaterial} {action : NetworkAction Private Public}
    (h : NetworkEvent.client station (.accepted hello ephemeral serverHello keys) ∈
      (network.step p cfg action).2) :
    ∃ waiting deadline, ⟨station, .awaitingHello waiting deadline⟩ ∈ network.parties ∧ waiting.hello = hello := by
  cases action with
  | listen listener reception =>
    obtain ⟨own, -, heq⟩ := List.mem_map.mp h
    cases heq
  | start station' start =>
    obtain ⟨own, hown, heq⟩ := List.mem_map.mp h
    cases heq
    have houtcome := beginHandshake_outcome p station start
    generalize beginHandshake p station start = result at houtcome hown
    cases houtcome <;> simp at hown
  | turn index turn =>
    simp only [Network.step] at h
    split at h
    · cases h
    · next party hparty =>
      obtain ⟨own, hown, heq⟩ := List.mem_map.mp h
      cases heq
      obtain ⟨station, state⟩ := party
      have houtcome := handshakeTurn_outcome p station turn state
      dsimp only at hown
      generalize handshakeTurn p station turn state = result at houtcome hown
      cases houtcome with
      | stays quiet => exact (quiet _ hown).elim
      | leaves ends => exact (ends.2 _ hown).elim
      | @accepts waiting deadline data addr serverHello' keys' plaintext next before after state_eq received
          accepted text next_eq quiet_before quiet =>
        subst state_eq
        refine ⟨waiting, deadline, List.mem_of_getElem? hparty, ?_⟩
        rcases List.mem_append.mp hown with hbefore | hown
        · exact (quiet_before _ hbefore).elim
        rcases List.mem_cons.mp hown with heq | hown
        · cases heq
          rfl
        rcases List.mem_cons.mp hown with heq | hafter
        · cases heq
        · exact (quiet _ hafter).elim
      | confirms state_eq received authentic quiet_before =>
        rcases List.mem_append.mp hown with hbefore | hown
        · exact (quiet_before _ hbefore).elim
        · cases List.mem_singleton.mp hown
  | forward index content wall iv =>
    simp only [Network.step, forwardMessage] at h
    split at h
    · split at h
      · cases h
      · simp at h
    · cases h

/-- A proxy waits for an answer as before, or has sent its ClientHello just now. -/
lemma mem_step_waiting {station : Station Private Public} {waiting : Waiting Private} {deadline : ℚ}
    {action : NetworkAction Private Public}
    (h : ⟨station, .awaitingHello waiting deadline⟩ ∈ (network.step p cfg action).1.parties) :
    ⟨station, .awaitingHello waiting deadline⟩ ∈ network.parties ∨
      HelloSent (network.step p cfg action).2 station waiting.hello := by
  cases action with
  | listen listener reception => exact .inl h
  | start station' start =>
    rcases List.mem_append.mp h with hold | hnew
    · exact .inl hold
    right
    have houtcome := beginHandshake_outcome p station' start
    simp only [Network.step]
    generalize beginHandshake p station' start = result at houtcome hnew
    rw [List.mem_singleton] at hnew
    obtain ⟨rfl, hstate⟩ := Party.mk.inj hnew
    cases houtcome with
    | raised e => cases hstate
    | unsent begins => cases hstate
    | @waits hello packet timeout deadline' begins packet_eq =>
      cases hstate
      exact ⟨packet, packet_eq, by simp⟩
  | turn index turn =>
    simp only [Network.step] at h ⊢
    split at h
    · exact .inl h
    · next party hparty =>
      left
      rcases mem_set_party h with hold | hnew
      · exact hold
      obtain ⟨station', state⟩ := party
      have houtcome := handshakeTurn_outcome p station' turn state
      dsimp only at hnew
      generalize handshakeTurn p station' turn state = result at houtcome hnew
      obtain ⟨rfl, hstate⟩ := Party.mk.inj hnew
      cases houtcome with
      | stays quiet =>
        obtain rfl : HandshakeState.awaitingHello waiting deadline = state := hstate
        exact List.mem_of_getElem? hparty
      | leaves ends =>
        rcases ends.1 with hnone | ⟨e, hraised⟩
        · cases hstate.trans hnone
        · cases hstate.trans hraised
      | accepts state_eq received accepted text next_eq quiet_before quiet =>
        rcases next_eq with ⟨deadline', hnext⟩ | hnext
        · cases hstate.trans hnext
        · cases hstate.trans hnext
      | confirms state_eq received authentic quiet_before => cases hstate
  | forward index content wall iv =>
    left
    simp only [Network.step] at h
    split at h
    · exact h
    · exact h

/-- In every network that is reached. -/
lemma reached_hellosSent (h : Reached p cfg secure network events) : HellosSent events network := by
  induction h with
  | init => exact ⟨by simp, by simp⟩
  | @step network events action reached allowed ih =>
    constructor
    · intro station waiting deadline hmem
      rcases mem_step_waiting hmem with hold | hnew
      · exact (ih.waiting _ _ _ hold).mono (List.subset_append_left _ _)
      · exact hnew.mono (List.subset_append_right _ _)
    · intro station hello ephemeral serverHello keys hmem
      apply HelloSent.mono _ (List.subset_append_left events _)
      rcases List.mem_append.mp hmem with hold | hnew
      · exact ih.accepted _ _ _ _ _ hold
      · obtain ⟨waiting, deadline, hparty, rfl⟩ := mem_step_accepted hnew
        exact ih.waiting _ _ _ hparty

end Packets

/-! ### Data packets -/

section Released

variable {Private Public : Type} (p : Primitives Private Public)

def sealedPacket (key nonce plaintext : Bytes) : Bytes :=
  dataPrefix ++ nonce ++ p.encrypt key nonce plaintext dataAad

/-- A text was encrypted, and its packet sent. -/
def Released (past : List (NetworkEvent Private Public)) (key plaintext : Bytes) : Prop :=
  (∃ nonce station, NetworkEvent.client station (.encrypted key nonce plaintext) ∈ past ∧
    NetworkEvent.client station (.sent (sealedPacket p key nonce plaintext) station.remoteAddr) ∈ past) ∨
  ∃ nonce listener addr, NetworkEvent.server listener (.encrypted key nonce plaintext) ∈ past ∧
    NetworkEvent.server listener (.sent (sealedPacket p key nonce plaintext) addr) ∈ past

/-- What a datagram holds under a key of honest parties has been on the network before. -/
def Relayed (past : List (NetworkEvent Private Public)) (data : Bytes) : Prop :=
  ∀ key nonce ciphertext plaintext, SharedKey p past key → parseSecureDataPacket data = .ok (nonce, ciphertext) →
    p.decrypt key nonce ciphertext dataAad = some plaintext → Released p past key plaintext

def NetworkAction.data? : NetworkAction Private Public → Option Bytes
  | .listen _ reception => some reception.data
  | .turn _ reads =>
    match reads.received with
    | .datagram data _ => some data
    | _ => none
  | _ => none

variable (past : List (NetworkEvent Private Public)) (station : Station Private Public) (hello : ClientHello)

/-- The server has answered the ClientHello of a proxy and promoted the session, with the keys that the proxy
has. -/
structure HasPromoted (keys : SessionKeyMaterial) : Prop where
  helloSent : HelloSent past station hello
  installed : ∃ listener pending ephemeral handshake,
    NetworkEvent.server listener (.installed pending hello ephemeral handshake) ∈ past ∧
      p.publicKey listener.serverPriv = station.serverIdentityPublicKey ∧ handshake.keys = keys
  promoted : WasPromoted past ⟨station.stationId, keys.clientToServerKey, keys.serverToClientKey⟩

/-- The proxy that holds the identity of a station has sent the ClientHello that the server has answered, and
the confirmation ping under the keys of the answer. -/
structure HasConfirmed (handshake : ServerHandshake) : Prop where
  helloSent : HelloSent past station hello
  installed : ∃ listener pending ephemeral,
    NetworkEvent.server listener (.installed pending hello ephemeral handshake) ∈ past ∧
      listener.authorizedKeys.get? station.stationId = some (p.publicKey station.identityPrivateKey)
  pingSent : ∃ nonce plaintext wall,
    NetworkEvent.client station
        (.sent (sealedPacket p handshake.keys.clientToServerKey nonce plaintext) station.remoteAddr) ∈ past ∧
      loadMessage plaintext = .ok (pingMessage sessionConfirmationSequence wall station.stationId)

end Released

/-- A message of a proxy that confirms a session is the ping with the number 0. -/
lemma content_of_confirmation {content : ClientMessage} {wall : ℚ} {stationId stationId' : PyStr}
    (h : isSessionConfirmationPing (content.json wall stationId) stationId' = true) :
    content = .ping sessionConfirmationSequence := by
  rw [isSessionConfirmationPing, Bool.and_eq_true, Bool.and_eq_true, Bool.and_eq_true] at h
  obtain ⟨⟨⟨htype, hsequence⟩, -⟩, -⟩ := h
  cases content with
  | nmea cleanLine =>
    have hnmea : (ClientMessage.json wall stationId (.nmea cleanLine)).get? (str "type") =
        some (.str (str "nmea")) := rfl
    rw [hnmea] at htype
    have hping : isText (str "ping") (some (.str (str "nmea"))) = false := by decide
    rw [hping] at htype
    cases htype
  | ping sequence =>
    have hseq : (ClientMessage.json wall stationId (.ping sequence)).get? (str "seq") =
        some (.int sequence) := rfl
    rw [hseq] at hsequence
    rw [beq_iff_eq.mp hsequence]

section Agreement

variable {Private Public : Type} {p : Primitives Private Public} {cfg : SecureSettings}
  {secure : Public → Prop} {events : List (NetworkEvent Private Public)} {network : Network Private Public}

/-- What opens with the client's key of an installed session was sent by the proxy with the same keys. -/
lemma released_by_client (laws : KeyAgreement p) (right : NetworkRight p secure events network)
    (hcollisions : NoCollisions p events) {listener : Listener Private Public} {pending : PendingSecureSession}
    {hello : ClientHello} {ephemeral : Private} {handshake : ServerHandshake} {plaintext : Bytes}
    (hinstalled : NetworkEvent.server listener (.installed pending hello ephemeral handshake) ∈ events)
    (hreleased : Released p events handshake.keys.clientToServerKey plaintext) :
    ∃ station nonce clientEphemeral content wall,
      NetworkEvent.client station (.sent (sealedPacket p handshake.keys.clientToServerKey nonce plaintext)
          station.remoteAddr) ∈ events ∧
        NetworkEvent.client station
          (.accepted hello clientEphemeral handshake.serverHello handshake.keys) ∈ events ∧
        loadMessage plaintext = .ok (ClientMessage.json wall station.stationId content) := by
  rcases hreleased with ⟨nonce, station, hmem, hsent⟩ | ⟨nonce, listener', addr, hmem, -⟩
  · obtain ⟨station', nonce', clientEphemeral, content, wall, hevent, haccepted, hload, -⟩ :=
      sealed_by_client laws right hcollisions hinstalled hmem ⟨rfl, rfl⟩
    cases hevent
    exact ⟨station, nonce, clientEphemeral, content, wall, hsent, haccepted, hload⟩
  · obtain ⟨station', nonce', clientEphemeral, content, wall, hevent, -⟩ :=
      sealed_by_client laws right hcollisions hinstalled hmem ⟨rfl, rfl⟩
    cases hevent

/-- A promotion answers a confirmation ping that the proxy of the station has sent. -/
lemma promoted_by_client (laws : KeyAgreement p) (hreached : Reached p cfg secure network events)
    (hcollisions : NoCollisions p events) {action : NetworkAction Private Public}
    (hrelayed : ∀ data ∈ action.data?, Relayed p events data) {listener : Listener Private Public}
    {pending : PendingSecureSession} {session : SecureSession}
    (hsecure : SecureStation secure events session.stationId)
    (hpromoted : NetworkEvent.server listener (.promoted pending session) ∈ (network.step p cfg action).2) :
    ∃ station hello handshake, HasConfirmed p events station hello handshake ∧ session.secrets =
      ⟨station.stationId, handshake.keys.clientToServerKey, handshake.keys.serverToClientKey⟩ := by
  have right := reached_right hreached
  obtain ⟨reception, rfl, hevent⟩ := mem_step_server hpromoted
  obtain ⟨hsame, hmem, nonce, message, ⟨ciphertext, plaintext, hparse, hdecrypt, hload⟩, hping⟩ :=
    (receive_secrets p cfg listener reception network.server).promoted pending session hevent
  obtain ⟨listener', pending', hello, ephemeral, handshake, hinstalled, hsecrets⟩ := right.pendings _ hmem
  have hright : InstalledRight p secure events listener' pending' hello ephemeral handshake :=
    right.explained _ hinstalled
  obtain ⟨reception', hanswers⟩ := hright.answers
  have hpendingSecrets : pending.secrets =
      ⟨hello.stationId, handshake.keys.clientToServerKey, handshake.keys.serverToClientKey⟩ :=
    hsecrets.symm.trans hanswers.secrets
  have hsessionStation : session.stationId = hello.stationId :=
    congrArg SessionSecrets.stationId (hsame.trans hpendingSecrets)
  have hidentities : ∀ identity, listener'.authorizedKeys.get? hello.stationId = some identity →
      secure identity := by
    intro identity hidentity
    rw [hsessionStation] at hsecure
    exact hsecure listener' pending' hello ephemeral handshake identity hinstalled rfl hidentity
  rw [hpendingSecrets] at hdecrypt hping
  have hreleased := hrelayed reception.data rfl _ nonce ciphertext plaintext
    (installed_shared laws right hcollisions hinstalled hidentities) hparse hdecrypt
  obtain ⟨station, nonce', clientEphemeral, content, wall, hsent, haccepted, hload'⟩ :=
    released_by_client laws right hcollisions hinstalled hreleased
  obtain ⟨hid, hidentity⟩ := accepted_identity right hcollisions hinstalled hidentities haccepted
  obtain rfl := Except.ok.inj (hload.symm.trans hload')
  obtain rfl := content_of_confirmation hping
  refine ⟨station, hello, handshake, ⟨?_, ⟨listener', pending', ephemeral, hinstalled, hidentity⟩,
    ⟨nonce', plaintext, wall, hsent, hload'⟩⟩, ?_⟩
  · exact (reached_hellosSent hreached).accepted _ _ _ _ _ haccepted
  · rw [hid]
    exact hsame.trans hpendingSecrets

/-- Both sides of a handshake agree, whatever the network does: a proxy returns with keys only when the server
has promoted the session with them for this ClientHello, and the server promotes a session only when the proxy
that holds the identity of the station has sent the ClientHello and the confirmation ping. -/
theorem handshake_agreement (laws : KeyAgreement p) (hreached : Reached p cfg secure network events)
    (hcollisions : NoCollisions p events) {action : NetworkAction Private Public}
    (hallowed : Allowed p secure events action) (hrelayed : ∀ data ∈ action.data?, Relayed p events data) :
    (∀ station hello keys, secure station.serverIdentityPublicKey →
      NetworkEvent.client station (.confirmed hello keys) ∈ (network.step p cfg action).2 →
        HasPromoted p events station hello keys) ∧
      ∀ listener pending session, SecureStation secure events session.stationId →
        NetworkEvent.server listener (.promoted pending session) ∈ (network.step p cfg action).2 →
          ∃ station hello handshake, HasConfirmed p events station hello handshake ∧ session.secrets =
            ⟨station.stationId, handshake.keys.clientToServerKey, handshake.keys.serverToClientKey⟩ := by
  constructor
  · intro station hello keys hsecure hconfirmed
    obtain ⟨⟨ephemeral, serverHello, haccepted⟩, hinstalled, hpromoted⟩ :=
      confirmed_by_server laws (reached_right hreached) hcollisions hallowed hsecure hconfirmed
    exact ⟨(reached_hellosSent hreached).accepted _ _ _ _ _ haccepted, hinstalled, hpromoted⟩
  · intro listener pending session hsecure hpromoted
    exact promoted_by_client laws hreached hcollisions hrelayed hsecure hpromoted

end Agreement

/-! ### In the harbour -/

section Harbour

/-- An event that encrypts a text whose packet was sent. -/
def releases (past : List (NetworkEvent Nat Nat)) (key plaintext : Bytes) : NetworkEvent Nat Nat → Bool
  | .client station (.encrypted key' nonce plaintext') => key' = key ∧ plaintext' = plaintext ∧ past.any (fun
    | .client station' (.sent packet addr) => station' = station ∧ addr = station.remoteAddr ∧
        packet = sealedPacket sealingPrimitives key nonce plaintext
    | _ => false)
  | .server _ (.encrypted key' nonce plaintext') => key' = key ∧ plaintext' = plaintext ∧ past.any (fun
    | .server _ (.sent packet _) => packet = sealedPacket sealingPrimitives key nonce plaintext
    | _ => false)
  | _ => false

def relayedCheck (past : List (NetworkEvent Nat Nat)) (data : Bytes) : Bool :=
  match parseSecureDataPacket data with
  | .error _ => true
  | .ok (_, ciphertext) => past.any (releases past (ciphertext.drop (ciphertext.length - 32))
      (ciphertext.take (ciphertext.length - 32)))

lemma released_of_check {n : Nat} {key plaintext : Bytes}
    (h : (harbourRun n).2.any (releases (harbourRun n).2 key plaintext) = true) :
    Released sealingPrimitives (harbourRun n).2 key plaintext := by
  obtain ⟨event, hmem, hevent⟩ := List.any_eq_true.mp h
  match event, hevent with
  | .client station (.encrypted key' nonce plaintext'), hevent =>
    obtain ⟨rfl, rfl, hsent⟩ := of_decide_eq_true hevent
    obtain ⟨other, hother, hpacket⟩ := List.any_eq_true.mp hsent
    match other, hpacket with
    | .client station' (.sent packet addr), hpacket =>
      obtain ⟨rfl, rfl, rfl⟩ := of_decide_eq_true hpacket
      exact .inl ⟨nonce, station', hmem, hother⟩
  | .server listener (.encrypted key' nonce plaintext'), hevent =>
    obtain ⟨rfl, rfl, hsent⟩ := of_decide_eq_true hevent
    obtain ⟨other, hother, hpacket⟩ := List.any_eq_true.mp hsent
    match other, hpacket with
    | .server listener' (.sent packet addr), hpacket =>
      obtain rfl := of_decide_eq_true hpacket
      obtain rfl := (harbour_listener n hmem).trans (harbour_listener n hother).symm
      exact .inr ⟨nonce, listener, addr, hmem, hother⟩

lemma relayed_of_check {n : Nat} {data : Bytes} (h : relayedCheck (harbourRun n).2 data = true) :
    Relayed sealingPrimitives (harbourRun n).2 data := by
  intro key nonce ciphertext plaintext _ hparse hdecrypt
  rw [relayedCheck, hparse] at h
  simp only [sealingPrimitives] at hdecrypt
  split at hdecrypt
  · next hkey =>
    obtain rfl := Option.some.inj hdecrypt
    rw [← hkey]
    exact released_of_check h
  · cases hdecrypt

lemma harbour_relayed : ∀ n < 5, relayedCheck (harbourRun n).2 (packetSent (harbourRun n).2) = true := by
  decide +kernel

lemma harbourAction_data {sent data : Bytes} {n : Nat} (h : data ∈ (harbourAction sent n).data?) :
    data = sent := by
  rw [Option.mem_def] at h
  unfold harbourAction at h
  split at h <;> cases h <;> rfl

lemma harbour_action_relayed {n : Nat} (h : n < 5) :
    ∀ data ∈ (harbourAction (packetSent (harbourRun n).2) n).data?,
      Relayed sealingPrimitives (harbourRun n).2 data := by
  intro data hdata
  rw [harbourAction_data hdata]
  exact relayed_of_check (harbour_relayed n h)

/-- In the harbour the proxy gets its keys in the fifth step, and the session is promoted in the fourth. -/
theorem handshake_agreement_harbour :
    (∃ hello keys, HasPromoted sealingPrimitives (harbourRun 4).2 harbourStation hello keys) ∧
      ∃ station hello handshake, HasConfirmed sealingPrimitives (harbourRun 3).2 station hello handshake ∧
        station.stationId = str "boat1" := by
  constructor
  · obtain ⟨hello, keys, hmem⟩ := harbour_confirms
    exact ⟨hello, keys, (handshake_agreement sealing_keyAgreement (harbour_reached (by decide))
      (harbour_noCollisions (harbour_collisions 4 (by decide))) (harbour_allowed (by decide))
      (harbour_action_relayed (by decide))).1 _ _ _ harbour_secureServer hmem⟩
  · obtain ⟨listener, pending, session, hmem, hboat⟩ := harbour_promotes
    obtain ⟨station, hello, handshake, hconfirmed, hsecrets⟩ :=
      (handshake_agreement sealing_keyAgreement (harbour_reached (by decide))
        (harbour_noCollisions (harbour_collisions 3 (by decide))) (harbour_allowed (by decide))
        (harbour_action_relayed (by decide))).2
        listener pending session (harbour_secureStation 3 session.stationId) hmem
    have hstation : session.stationId = station.stationId := congrArg SessionSecrets.stationId hsecrets
    exact ⟨station, hello, handshake, hconfirmed, hstation.symm.trans hboat⟩

end Harbour

end AisMixer.Sproxy
