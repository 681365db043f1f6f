import AisMixer.Sproxy.Handshake
import AisMixer.Sproxy.MessageTexts
import AisMixer.Udpsec.SessionKeys

/-!
# Proxies, the server, and the network between them

Any number of proxies begin handshakes and the listeners of the server pass over datagrams, in any order.
What is received is whatever the network makes up, as long as it forges no signature of a secure identity
and no ciphertext under a key that two honest ephemeral keys lead to.
-/

namespace AisMixer.Sproxy

open AisMixer.Library AisMixer.Udpsec

structure Party (Private Public : Type) where
  station : Station Private Public
  state : HandshakeState Private

structure Network (Private Public : Type) where
  server : SecureState
  parties : List (Party Private Public)

inductive NetworkAction (Private Public : Type) where
  | listen (listener : Listener Private Public) (reception : Reception Private)
  | start (station : Station Private Public) (start : HandshakeStart Private)
  | turn (index : Nat) (turn : HandshakeTurn)
  | forward (index : Nat) (content : ClientMessage) (wall : ℚ) (iv : Bytes)

inductive NetworkEvent (Private Public : Type) where
  | server (listener : Listener Private Public) (event : ListenerEvent Private)
  | client (station : Station Private Public) (event : HandshakeEvent Private)
  | forwarded (station : Station Private Public) (keys : SessionKeyMaterial) (content : ClientMessage)

section Network

variable {Private Public : Type}

def NetworkEvent.packet? : NetworkEvent Private Public → Option Bytes
  | .server _ (.sent packet _) | .client _ (.sent packet _) => some packet
  | _ => none

/-- The datagram that was sent last. -/
def packetSent (events : List (NetworkEvent Private Public)) : Bytes :=
  ((events.filterMap NetworkEvent.packet?).getLast?).getD []

variable (p : Primitives Private Public) (cfg : SecureSettings)

/-! ### Steps -/

/-- `send_udpsec_nmea_sentence` and `send_ping` under the keys of a confirmed session. -/
def forwardMessage (station : Station Private Public) (keys : SessionKeyMaterial) (content : ClientMessage)
    (wall : ℚ) (iv : Bytes) : List (NetworkEvent Private Public) :=
  let key := keys.clientToServerKey
  match messageText (content.json wall station.stationId) with
  | .error _ => []
  | .ok plaintext =>
    [.forwarded station keys content, .client station (.encrypted key iv plaintext),
      .client station (.sent (dataPrefix ++ iv ++ p.encrypt key iv plaintext dataAad) station.remoteAddr)]

/-- One step, and the events that it adds. -/
def Network.step (network : Network Private Public) :
    NetworkAction Private Public → Network Private Public × List (NetworkEvent Private Public)
  | .listen listener reception =>
    let result := receive p cfg listener network.server reception
    ({ network with server := result.1 }, result.2.map (.server listener))
  | .start station start =>
    let result := beginHandshake p station start
    ({ network with parties := network.parties ++ [⟨station, result.1⟩] }, result.2.map (.client station))
  | .turn index turn =>
    match network.parties[index]? with
    | none => (network, [])
    | some party =>
      let result := handshakeTurn p party.station turn party.state
      ({ network with parties := network.parties.set index ⟨party.station, result.1⟩ },
        result.2.map (.client party.station))
  | .forward index content wall iv =>
    match network.parties[index]? with
    | some ⟨station, .returned (some keys)⟩ => (network, forwardMessage p station keys content wall iv)
    | _ => (network, [])

/-! ### What the network cannot do -/

def clientAuthCall (hello : ClientHello) : TranscriptCall :=
  .clientAuth hello.stationId hello.timestamp hello.clientRandom hello.clientEphemeralPublicKey

def serverAuthCall (hello : ClientHello) (serverHello : ServerHello) : TranscriptCall :=
  .serverAuth hello.stationId hello.timestamp hello.clientRandom hello.clientEphemeralPublicKey
    hello.clientSignature serverHello.serverRandom serverHello.serverEphemeralPublicKey

def sessionCall (hello : ClientHello) (serverHello : ServerHello) : TranscriptCall :=
  .sessionTranscript hello.stationId hello.timestamp hello.clientRandom hello.clientEphemeralPublicKey
    hello.clientSignature serverHello.serverRandom serverHello.serverEphemeralPublicKey
    serverHello.serverSignature

/-- The holder of an identity signs a digest. -/
def Signs (identity : Public) (digest : Bytes) : NetworkEvent Private Public → Prop
  | .client station (.begun hello _) =>
    p.publicKey station.identityPrivateKey = identity ∧ (clientAuthCall hello).run p.sha256 = .ok digest
  | .server listener (.installed _ hello _ handshake) =>
    p.publicKey listener.serverPriv = identity ∧
      (serverAuthCall hello handshake.serverHello).run p.sha256 = .ok digest
  | _ => False

/-- A proxy or the server encrypts a text. -/
def Seals (key plaintext : Bytes) : NetworkEvent Private Public → Prop
  | .client _ (.encrypted key' _ plaintext') => key' = key ∧ plaintext' = plaintext
  | .server _ (.encrypted key' _ plaintext') => key' = key ∧ plaintext' = plaintext
  | _ => False

/-- A key that is derived from an ephemeral key of a proxy and one of the server. -/
def SharedKey (past : List (NetworkEvent Private Public)) (key : Bytes) : Prop :=
  ∃ station hello clientEphemeral listener pending hello' serverEphemeral handshake transcriptHash label,
    NetworkEvent.client station (.begun hello clientEphemeral) ∈ past ∧
      NetworkEvent.server listener (.installed pending hello' serverEphemeral handshake) ∈ past ∧
      key = p.hkdf transcriptHash (sessionKeyInfo label)
        (p.exchange clientEphemeral (p.publicKey serverEphemeral))

/-- A datagram is no forgery. -/
structure Unforged (secure : Public → Prop) (past : List (NetworkEvent Private Public)) (data : Bytes) :
    Prop where
  clientSignature : ∀ hello identity digest, parseClientHelloPacket data = .ok hello → secure identity →
    (clientAuthCall hello).run p.sha256 = .ok digest →
    verifyTranscriptSignature p identity hello.clientSignature digest = .ok true →
    ∃ event ∈ past, Signs p identity digest event
  serverSignature : ∀ station hello ephemeral serverHello identity digest,
    NetworkEvent.client station (.begun hello ephemeral) ∈ past →
    parseServerHelloPacket data = .ok serverHello → secure identity →
    (serverAuthCall hello serverHello).run p.sha256 = .ok digest →
    verifyTranscriptSignature p identity serverHello.serverSignature digest = .ok true →
    ∃ event ∈ past, Signs p identity digest event
  ciphertext : ∀ key nonce ciphertext plaintext, SharedKey p past key →
    parseSecureDataPacket data = .ok (nonce, ciphertext) →
    p.decrypt key nonce ciphertext dataAad = some plaintext → ∃ event ∈ past, Seals key plaintext event

/-- What a step is given: no forgeries, and messages that can be read. -/
def Allowed (secure : Public → Prop) (past : List (NetworkEvent Private Public)) :
    NetworkAction Private Public → Prop
  | .listen _ reception => Unforged p secure past reception.data
  | .start _ _ => True
  | .turn _ turn => ReadableNumber (truncate turn.wall) ∧
      ∀ data addr, turn.received = .datagram data addr → Unforged p secure past data
  | .forward _ content wall _ => content.Readable ∧ ReadableNumber (truncate wall)

/-- The networks that are reached, each with the events that led to it. -/
inductive Reached (secure : Public → Prop) : Network Private Public → List (NetworkEvent Private Public) → Prop
  | init : Reached secure ⟨.init cfg, []⟩ []
  | step {network : Network Private Public} {events : List (NetworkEvent Private Public)}
      {action : NetworkAction Private Public} (reached : Reached secure network events)
      (allowed : Allowed p secure events action) :
      Reached secure (network.step p cfg action).1 (events ++ (network.step p cfg action).2)

end Network

/-! ### What the events tell -/

section Explanations

variable {Private Public : Type} (p : Primitives Private Public) (secure : Public → Prop)
  (past : List (NetworkEvent Private Public))

/-- A pending session with the secrets was installed. -/
def WasInstalled (secrets : SessionSecrets) : Prop :=
  ∃ listener pending hello ephemeral handshake,
    NetworkEvent.server listener (.installed pending hello ephemeral handshake) ∈ past ∧
      pending.secrets = secrets

/-- A session with the secrets was promoted. -/
def WasPromoted (secrets : SessionSecrets) : Prop :=
  ∃ listener pending session, NetworkEvent.server listener (.promoted pending session) ∈ past ∧
    session.secrets = secrets

/-- A proxy with keys for its ClientHello. -/
structure AcceptedRight (station : Station Private Public) (hello : ClientHello) (ephemeral : Private)
    (serverHello : ServerHello) (keys : SessionKeyMaterial) : Prop where
  begun : NetworkEvent.client station (.begun hello ephemeral) ∈ past
  derived : ∃ waiting : Waiting Private, waiting.hello = hello ∧ waiting.ephemeral = ephemeral ∧
    ∃ serverEphemeral,
      parseEphemeralPublicKey p serverHello.serverEphemeralPublicKey = .ok serverEphemeral ∧
        deriveHandshakeKeys p waiting serverHello serverEphemeral = .ok keys
  signed : secure station.serverIdentityPublicKey → ∃ digest,
    (serverAuthCall hello serverHello).run p.sha256 = .ok digest ∧
      ∃ event ∈ past, Signs p station.serverIdentityPublicKey digest event

/-- A pending session with keys for the ClientHello that it answers. -/
structure InstalledRight (listener : Listener Private Public) (pending : PendingSecureSession)
    (hello : ClientHello) (ephemeral : Private) (handshake : ServerHandshake) : Prop where
  answers : ∃ reception, Answers p listener reception pending hello ephemeral handshake
  signed : ∃ identity digest, listener.authorizedKeys.get? hello.stationId = some identity ∧
    (clientAuthCall hello).run p.sha256 = .ok digest ∧
      (secure identity → ∃ event ∈ past, Signs p identity digest event)

/-- A text that a proxy encrypts. -/
def ClientText (station : Station Private Public) (key plaintext : Bytes) : Prop :=
  ∃ hello ephemeral serverHello keys content wall,
    NetworkEvent.client station (.accepted hello ephemeral serverHello keys) ∈ past ∧
      keys.clientToServerKey = key ∧
      loadMessage plaintext = .ok (ClientMessage.json wall station.stationId content) ∧
      ∀ cleanLine, content = .nmea cleanLine → NetworkEvent.forwarded station keys content ∈ past

/-- How an event came about. -/
def Explained : NetworkEvent Private Public → Prop
  | .client station (.begun hello ephemeral) => Begins p station hello ephemeral
  | .client station (.accepted hello ephemeral serverHello keys) =>
    AcceptedRight p secure past station hello ephemeral serverHello keys
  | .client station (.encrypted key _ plaintext) => ClientText past station key plaintext
  | .client station (.confirmed hello keys) => ∃ ephemeral serverHello,
    NetworkEvent.client station (.accepted hello ephemeral serverHello keys) ∈ past
  | .server listener (.installed pending hello ephemeral handshake) =>
    InstalledRight p secure past listener pending hello ephemeral handshake
  | .server _ (.promoted pending session) => session.secrets = pending.secrets ∧ WasInstalled past pending.secrets
  | .server _ (.encrypted key _ _) => ∃ secrets, WasPromoted past secrets ∧ secrets.serverToClientKey = key
  | _ => True

def PartyRight (party : Party Private Public) : Prop :=
  match party.state with
  | .awaitingHello waiting _ =>
    NetworkEvent.client party.station (.begun waiting.hello waiting.ephemeral) ∈ past
  | .awaitingConfirmation waiting keys _ => ∃ serverHello,
    NetworkEvent.client party.station (.accepted waiting.hello waiting.ephemeral serverHello keys) ∈ past
  | .returned (some keys) => ∃ hello ephemeral serverHello,
    NetworkEvent.client party.station (.accepted hello ephemeral serverHello keys) ∈ past
  | _ => True

/-- A network whose states are what its events tell. -/
structure NetworkRight (network : Network Private Public) : Prop where
  pendings : ∀ x ∈ network.server.pendingSecrets, WasInstalled past x.2
  sessions : ∀ x ∈ network.server.sessionSecrets, WasPromoted past x.2
  parties : ∀ party ∈ network.parties, PartyRight past party
  explained : ∀ event ∈ past, Explained p secure past event

end Explanations

section Steps

variable {Private Public : Type} {p : Primitives Private Public} {cfg : SecureSettings}
  {secure : Public → Prop} {past later : List (NetworkEvent Private Public)}
  {network : Network Private Public}

/-! ### More events -/

lemma WasInstalled.mono {secrets : SessionSecrets} (h : WasInstalled past secrets) :
    WasInstalled (past ++ later) secrets := by
  obtain ⟨listener, pending, hello, ephemeral, handshake, hmem, hsecrets⟩ := h
  exact ⟨listener, pending, hello, ephemeral, handshake, List.mem_append_left _ hmem, hsecrets⟩

lemma WasPromoted.mono {secrets : SessionSecrets} (h : WasPromoted past secrets) :
    WasPromoted (past ++ later) secrets := by
  obtain ⟨listener, pending, session, hmem, hsecrets⟩ := h
  exact ⟨listener, pending, session, List.mem_append_left _ hmem, hsecrets⟩

lemma Explained.mono {event : NetworkEvent Private Public} (h : Explained p secure past event) :
    Explained p secure (past ++ later) event := by
  have hmore {event : NetworkEvent Private Public} (hmem : event ∈ past) : event ∈ past ++ later :=
    List.mem_append_left _ hmem
  have hsigned {identity : Public} {digest : Bytes} (hs : ∃ event ∈ past, Signs p identity digest event) :
      ∃ event ∈ past ++ later, Signs p identity digest event := by
    obtain ⟨event, hmem, hsigns⟩ := hs
    exact ⟨event, hmore hmem, hsigns⟩
  match event, h with
  | .forwarded _ _ _, _ => trivial
  | .client _ (.begun _ _), h => exact h
  | .client _ (.timeoutSet _), _ => trivial
  | .client _ (.sent _ _), _ => trivial
  | .client _ (.accepted _ _ _ _), h =>
    refine ⟨hmore h.begun, h.derived, ?_⟩
    intro hsecure
    obtain ⟨digest, hdigest, hs⟩ := h.signed hsecure
    exact ⟨digest, hdigest, hsigned hs⟩
  | .client _ (.encrypted _ _ _), h =>
    obtain ⟨hello, ephemeral, serverHello, keys, content, wall, hmem, hkey, hload, hforwarded⟩ := h
    exact ⟨hello, ephemeral, serverHello, keys, content, wall, hmore hmem, hkey, hload,
      fun line hline => hmore (hforwarded line hline)⟩
  | .client _ (.confirmed _ _), h =>
    obtain ⟨ephemeral, serverHello, hmem⟩ := h
    exact ⟨ephemeral, serverHello, hmore hmem⟩
  | .server _ (.installed _ _ _ _), h =>
    obtain ⟨identity, digest, hidentity, hdigest, hs⟩ := h.signed
    exact ⟨h.answers, identity, digest, hidentity, hdigest, fun hsecure => hsigned (hs hsecure)⟩
  | .server _ (.promoted _ _), h => exact ⟨h.1, h.2.mono⟩
  | .server _ (.encrypted _ _ _), h =>
    obtain ⟨secrets, hpromoted, hkey⟩ := h
    exact ⟨secrets, hpromoted.mono, hkey⟩
  | .server _ (.refused _), _ => trivial
  | .server _ (.helloAdmitted _), _ => trivial
  | .server _ (.nonceAdmitted _ _), _ => trivial
  | .server _ (.queued _), _ => trivial
  | .server _ (.sent _ _), _ => trivial

lemma PartyRight.mono {party : Party Private Public} (h : PartyRight past party) :
    PartyRight (past ++ later) party := by
  obtain ⟨station, state⟩ := party
  match state, h with
  | .awaitingHello _ _, h => exact List.mem_append_left _ h
  | .awaitingConfirmation _ _ _, h =>
    obtain ⟨serverHello, hmem⟩ := h
    exact ⟨serverHello, List.mem_append_left _ hmem⟩
  | .returned (some _), h =>
    obtain ⟨hello, ephemeral, serverHello, hmem⟩ := h
    exact ⟨hello, ephemeral, serverHello, List.mem_append_left _ hmem⟩
  | .returned none, _ => trivial
  | .raised _, _ => trivial

/-- A step that leaves the server alone. -/
lemma NetworkRight.client {parties : List (Party Private Public)} (h : NetworkRight p secure past network)
    (hparties : ∀ party ∈ parties, party ∈ network.parties ∨ PartyRight (past ++ later) party)
    (hlater : ∀ event ∈ later, Explained p secure (past ++ later) event) :
    NetworkRight p secure (past ++ later) { network with parties := parties } where
  pendings := fun x hx => (h.pendings x hx).mono
  sessions := fun x hx => (h.sessions x hx).mono
  parties := by
    intro party hparty
    rcases hparties party hparty with hold | hnew
    · exact (h.parties party hold).mono
    · exact hnew
  explained := by
    intro event hevent
    rcases List.mem_append.mp hevent with hold | hnew
    · exact (h.explained event hold).mono
    · exact hlater event hnew

/-! ### One step -/

lemma explained_public {station : Station Private Public} {event : HandshakeEvent Private}
    (h : event.IsPublic) : Explained p secure past (.client station event) := by
  cases event with
  | timeoutSet _ => trivial
  | sent _ _ => trivial
  | begun _ _ | accepted _ _ _ _ | encrypted _ _ _ | confirmed _ _ => exact h.elim

lemma listen_right (h : NetworkRight p secure past network) (listener : Listener Private Public)
    {reception : Reception Private} (hunforged : Unforged p secure past reception.data) :
    let result := receive p cfg listener network.server reception
    NetworkRight p secure (past ++ result.2.map (.server listener)) { network with server := result.1 } := by
  have hsecrets := receive_secrets p cfg listener reception network.server
  dsimp only
  generalize receive p cfg listener network.server reception = result at hsecrets ⊢
  have hnew {event : ListenerEvent Private} (hevent : event ∈ result.2) :
      NetworkEvent.server listener event ∈ past ++ result.2.map (.server listener) :=
    List.mem_append_right _ (List.mem_map_of_mem hevent)
  have hpromoted {pending : PendingSecureSession} {session : SecureSession} {secrets : SessionSecrets}
      (hevent : ListenerEvent.promoted pending session ∈ result.2) (heq : session.secrets = secrets) :
      WasPromoted (past ++ result.2.map (.server listener)) secrets :=
    ⟨listener, pending, session, hnew hevent, heq⟩
  constructor
  · intro x hx
    rcases hsecrets.pendings x hx with hold | ⟨pending, hello, ephemeral, handshake, hevent, heq⟩
    · exact (h.pendings x hold).mono
    · exact ⟨listener, pending, hello, ephemeral, handshake, hnew hevent, heq⟩
  · intro x hx
    rcases hsecrets.sessions x hx with hold | ⟨pending, session, hevent, heq⟩
    · exact (h.sessions x hold).mono
    · exact hpromoted hevent heq
  · exact fun party hparty => (h.parties party hparty).mono
  · intro event hevent
    rcases List.mem_append.mp hevent with hold | hlater
    · exact (h.explained event hold).mono
    obtain ⟨own, hown, rfl⟩ := List.mem_map.mp hlater
    cases own with
    | installed pending hello ephemeral handshake =>
      have hanswers := hsecrets.installed pending hello ephemeral handshake hown
      obtain ⟨replayKey, hfresh⟩ := hanswers.authentic
      obtain ⟨identity, digest, hidentity, hdigest, hverified, -⟩ := hfresh.signed
      refine ⟨⟨reception, hanswers⟩, identity, digest, hidentity, hdigest, ?_⟩
      intro hsecure
      obtain ⟨signing, hmem, hsigns⟩ := hunforged.clientSignature hello identity digest hfresh.parsed hsecure
        hdigest hverified
      exact ⟨signing, List.mem_append_left _ hmem, hsigns⟩
    | promoted pending session =>
      obtain ⟨hsame, hmem, -⟩ := hsecrets.promoted pending session hown
      exact ⟨hsame, (h.pendings _ hmem).mono⟩
    | encrypted key nonce plaintext =>
      rcases hsecrets.encrypted key nonce plaintext hown with ⟨x, hx, hkey⟩ | ⟨pending, session, hpast, hkey⟩
      · exact ⟨x.2, (h.sessions x hx).mono, hkey⟩
      · exact ⟨session.secrets, hpromoted hpast rfl, hkey⟩
    | refused _ | helloAdmitted _ | nonceAdmitted _ _ | queued _ | sent _ _ => trivial

lemma start_right (h : NetworkRight p secure past network) (station : Station Private Public)
    (start : HandshakeStart Private) :
    let result := beginHandshake p station start
    NetworkRight p secure (past ++ result.2.map (.client station))
      { network with parties := network.parties ++ [⟨station, result.1⟩] } := by
  dsimp only
  have houtcome := beginHandshake_outcome p station start
  generalize beginHandshake p station start = result at houtcome ⊢
  apply h.client
  · intro party hparty
    rcases List.mem_append.mp hparty with hold | hnew
    · exact .inl hold
    right
    obtain rfl := List.mem_singleton.mp hnew
    cases houtcome with
    | raised e => trivial
    | unsent begins => trivial
    | waits begins packet_eq => exact List.mem_append_right _ List.mem_cons_self
  · intro event hevent
    obtain ⟨own, hown, rfl⟩ := List.mem_map.mp hevent
    cases houtcome with
    | raised e => cases hown
    | unsent begins =>
      obtain rfl := List.mem_singleton.mp hown
      exact begins
    | waits begins packet_eq =>
      rcases List.mem_cons.mp hown with rfl | hown
      · exact begins
      · obtain rfl := List.mem_singleton.mp hown
        trivial

/-- The station of a ClientHello can be written and read. -/
lemma begins_station {station : Station Private Public} {hello : ClientHello} {ephemeral : Private}
    (h : Begins p station hello ephemeral) : hasSurrogate station.stationId = false := by
  rw [← h.stationId]
  exact hello.station.2.2

/-- The party of an event of its own in the place of one that it was. -/
lemma mem_set_party {parties : List (Party Private Public)} {index : Nat} {party next : Party Private Public}
    (h : party ∈ parties.set index next) : party ∈ parties ∨ party = next := List.mem_or_eq_of_mem_set h

lemma turn_right (h : NetworkRight p secure past network) {index : Nat} {party : Party Private Public}
    (hparty : party ∈ network.parties) {turn : HandshakeTurn} (hwall : ReadableNumber (truncate turn.wall))
    (hunforged : ∀ data addr, turn.received = .datagram data addr → Unforged p secure past data) :
    let result := handshakeTurn p party.station turn party.state
    NetworkRight p secure (past ++ result.2.map (.client party.station))
      { network with parties := network.parties.set index ⟨party.station, result.1⟩ } := by
  obtain ⟨station, state⟩ := party
  dsimp only
  have hright := h.parties _ hparty
  have houtcome := handshakeTurn_outcome p station turn state
  generalize handshakeTurn p station turn state = result at houtcome ⊢
  cases houtcome with
  | @stays events quiet =>
    apply h.client
    · intro party hmem
      rcases mem_set_party hmem with hold | rfl
      · exact .inl hold
      · exact .inl hparty
    · intro event hevent
      obtain ⟨own, hown, rfl⟩ := List.mem_map.mp hevent
      exact explained_public (quiet own hown)
  | leaves ends =>
    apply h.client
    · intro party hmem
      rcases mem_set_party hmem with hold | rfl
      · exact .inl hold
      · right
        rcases ends.1 with hnone | ⟨e, hraised⟩
        · simp only [PartyRight, hnone]
        · simp only [PartyRight, hraised]
    · intro event hevent
      obtain ⟨own, hown, rfl⟩ := List.mem_map.mp hevent
      exact explained_public (ends.2 own hown)
  | @accepts waiting deadline data addr serverHello keys plaintext next before after state_eq received accepted
      text next_eq quiet_before quiet =>
    subst state_eq
    have hbegun : NetworkEvent.client station (.begun waiting.hello waiting.ephemeral) ∈ past := hright
    have hbegins : Begins p station waiting.hello waiting.ephemeral := h.explained _ hbegun
    obtain ⟨serverEphemeral, hparse, hkeys⟩ := accepted.derived
    have hzero : ReadableNumber sessionConfirmationSequence := by decide
    obtain ⟨plaintext', htext', hload⟩ := pingMessage_read hzero hwall (begins_station hbegins)
    obtain rfl := Except.ok.inj (htext'.symm.trans text)
    have haccepted : NetworkEvent.client station
        (.accepted waiting.hello waiting.ephemeral serverHello keys) ∈
        past ++ (before ++ .accepted waiting.hello waiting.ephemeral serverHello keys ::
          .encrypted keys.clientToServerKey turn.iv plaintext' :: after).map (.client station) := by
      simp
    apply h.client
    · intro party hmem
      rcases mem_set_party hmem with hold | rfl
      · exact .inl hold
      · right
        rcases next_eq with ⟨deadline, rfl⟩ | rfl
        · exact ⟨serverHello, haccepted⟩
        · trivial
    · intro event hevent
      obtain ⟨own, hown, rfl⟩ := List.mem_map.mp hevent
      rcases List.mem_append.mp hown with hown | hown
      · exact explained_public (quiet_before own hown)
      rcases List.mem_cons.mp hown with rfl | hown
      · refine ⟨List.mem_append_left _ hbegun, ⟨waiting, rfl, rfl, serverEphemeral, hparse, hkeys⟩, ?_⟩
        intro hsecure
        obtain ⟨digest, hdigest, hverified⟩ := bind_eq_ok_iff.mp accepted.verified
        obtain ⟨signing, hmem, hsigns⟩ := (hunforged data addr received).serverSignature station waiting.hello
          waiting.ephemeral serverHello _ digest hbegun accepted.parsed hsecure hdigest hverified
        exact ⟨digest, hdigest, signing, List.mem_append_left _ hmem, hsigns⟩
      rcases List.mem_cons.mp hown with rfl | hown
      · refine ⟨_, _, _, _, .ping 0, turn.wall, haccepted, rfl, hload, ?_⟩
        intro cleanLine hline
        cases hline
      · exact explained_public (quiet own hown)
  | @confirms waiting keys deadline data addr before state_eq received authentic quiet_before =>
    subst state_eq
    obtain ⟨serverHello, haccepted⟩ := hright
    apply h.client
    · intro party hmem
      rcases mem_set_party hmem with hold | rfl
      · exact .inl hold
      · exact .inr ⟨_, _, _, List.mem_append_left _ haccepted⟩
    · intro event hevent
      obtain ⟨own, hown, rfl⟩ := List.mem_map.mp hevent
      rcases List.mem_append.mp hown with hown | hown
      · exact explained_public (quiet_before own hown)
      · obtain rfl := List.mem_singleton.mp hown
        exact ⟨_, _, List.mem_append_left _ haccepted⟩

lemma forward_right (h : NetworkRight p secure past network) {station : Station Private Public}
    {keys : SessionKeyMaterial} (hparty : ⟨station, .returned (some keys)⟩ ∈ network.parties)
    {content : ClientMessage} {wall : ℚ} (hcontent : content.Readable) (hwall : ReadableNumber (truncate wall))
    (iv : Bytes) : NetworkRight p secure (past ++ forwardMessage p station keys content wall iv) network := by
  obtain ⟨hello, ephemeral, serverHello, haccepted⟩ := h.parties _ hparty
  have hbegins : Begins p station hello ephemeral := h.explained _ (h.explained _ haccepted).begun
  obtain ⟨plaintext, htext, hload⟩ := ClientMessage.read hcontent hwall (begins_station hbegins)
  simp only [forwardMessage, htext]
  apply h.client
  · exact fun party hmem => .inl hmem
  · simp only [List.forall_mem_cons]
    refine ⟨trivial, ?_, trivial, by simp⟩
    refine ⟨hello, ephemeral, serverHello, keys, content, wall, List.mem_append_left _ haccepted, rfl, hload, ?_⟩
    intro cleanLine hline
    simp

lemma step_right (h : NetworkRight p secure past network) {action : NetworkAction Private Public}
    (hallowed : Allowed p secure past action) :
    NetworkRight p secure (past ++ (network.step p cfg action).2) (network.step p cfg action).1 := by
  have hnone : NetworkRight p secure (past ++ []) network := by
    rw [List.append_nil]
    exact h
  cases action with
  | listen listener reception => exact listen_right h listener hallowed
  | start station start => exact start_right h station start
  | turn index turn =>
    simp only [Network.step]
    split
    · exact hnone
    · next party hparty => exact turn_right h (List.mem_of_getElem? hparty) hallowed.1 hallowed.2
  | forward index content wall iv =>
    simp only [Network.step]
    split
    · next station keys hparty =>
      exact forward_right h (List.mem_of_getElem? hparty) hallowed.1 hallowed.2 iv
    · exact hnone

/-- The states of every network that is reached are what its events tell. -/
theorem reached_right {events : List (NetworkEvent Private Public)}
    (h : Reached p cfg secure network events) : NetworkRight p secure events network := by
  induction h with
  | init =>
    constructor
    · intro x hx
      cases hx
    · intro x hx
      cases hx
    · intro party hparty
      cases hparty
    · intro event hevent
      cases hevent
  | step reached allowed ih => exact step_right ih allowed

end Steps

end AisMixer.Sproxy
