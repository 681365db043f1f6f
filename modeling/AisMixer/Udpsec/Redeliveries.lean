import AisMixer.Udpsec.ReplayWindows

/-!
# Packets that are delivered again

The deliveries of one packet that a whole run lets in. A session takes a DATA packet again after the time
for which it remembers nonces, or after as many nonces as it remembers. A ClientHello is let in a second
time only at the far end of the window around its own time.
-/

namespace AisMixer.Udpsec

open AisMixer.Library SecureState

variable {Private Public : Type} {p : Primitives Private Public} {cfg : SecureSettings}
  {state : SecureState} {past : ℚ} {packet : Bytes}

/-! ### DATA packets -/

/-- A delivery that a session accepts; `before` is how many nonces the session has let in before it. -/
structure AcceptedDelivery where
  time : ℚ
  before : Nat
  frames : List IngressFrame

/-- The deliveries of a packet that a session accepts. -/
def acceptances (p : Primitives Private Public) (cfg : SecureSettings) (packet : Bytes) (number : Nat)
    (state : SecureState) (count : Nat) :
    List (Listener Private Public × Reception Private) → List AcceptedDelivery
  | [] => []
  | pass :: passes =>
    let result := receive p cfg pass.1 state pass.2
    let entered := (admissions result.2).nonces.filter (fun entry => entry.1 == number)
    let later := acceptances p cfg packet number result.1 (count + entered.length) passes
    if pass.2.data = packet ∧ entered ≠ [] then
      ⟨pass.2.monotonicNow, count, (admissions result.2).frames⟩ :: later
    else later

variable {number count base : Nat} {nonce ciphertext : Bytes} {since : ℚ}

lemma exists_nonce_of_entered {admitted : Admissions}
    (h : admitted.nonces.filter (fun entry => entry.1 == number) ≠ []) :
    ∃ nonce, (number, nonce) ∈ admitted.nonces := by
  obtain ⟨⟨number', nonce⟩, hentry⟩ := List.exists_mem_of_ne_nil _ h
  obtain ⟨hmem, hnumber⟩ := List.mem_filter.mp hentry
  have hsame : number' = number := beq_iff_eq.mp hnumber
  exact ⟨nonce, hsame ▸ hmem⟩

/-- While a session remembers the nonce of a packet it does not accept the packet. -/
lemma SessionRemembers.accepted_later {passes : List (Listener Private Public × Reception Private)}
    (h : SessionRemembers number nonce since count past state)
    (hparse : parseSecureDataPacket packet = .ok (nonce, ciphertext)) (hsound : Sound cfg past state)
    (htimes : (passes.map (fun pass => pass.2.monotonicNow)).Pairwise (· ≤ ·))
    (hpast : ∀ pass ∈ passes, past ≤ pass.2.monotonicNow) :
    ∀ later ∈ acceptances p cfg packet number state base passes,
      since + cfg.dataNonceTtl ≤ later.time ∨ base + cfg.dataNonceMaxPerSession ≤ count + later.before := by
  induction passes generalizing past state count base with
  | nil => simp [acceptances]
  | cons pass passes ih =>
    rw [List.map_cons, List.pairwise_cons] at htimes
    have hfirst := hpast pass List.mem_cons_self
    have hreaches := @reaches_receive _ _ p cfg pass.1 pass.2 _ _ hsound hfirst
    have hrest := fun base => @ih _ _ _ base
      (@SessionRemembers.receive _ _ p cfg pass.1 pass.2 _ _ _ _ _ _ h hsound hfirst)
      hreaches.sound htimes.2 (fun later hlater => htimes.1 _ (List.mem_map_of_mem hlater))
    have hlater : ∀ later ∈ acceptances p cfg packet number (Udpsec.receive p cfg pass.1 state pass.2).1
        (base + ((admissions (Udpsec.receive p cfg pass.1 state pass.2).2).nonces.filter
          (fun entry => entry.1 == number)).length) passes,
        since + cfg.dataNonceTtl ≤ later.time ∨ base + cfg.dataNonceMaxPerSession ≤ count + later.before := by
      intro later hmem
      rcases hrest _ later hmem with hexpired | hfull
      · exact .inl hexpired
      · exact .inr (by omega)
    intro later hmem
    rw [acceptances] at hmem
    split at hmem
    · rename_i haccepted
      rcases List.mem_cons.mp hmem with rfl | hmem
      · obtain ⟨nonce', hnonce'⟩ := exists_nonce_of_entered haccepted.2
        obtain ⟨⟨ciphertext', hparse'⟩, e, he, e', -, hnumber, -, hadmitted⟩ :=
          hreaches.outcome.nonce_admitted hnonce'
        have hsame : nonce' = nonce := by
          rw [haccepted.1, hparse] at hparse'
          exact (congrArg Prod.fst (Except.ok.inj hparse')).symm
        rw [hsame] at hadmitted
        have hset := hsound.invariant.sessionNonces e he
        have hforgotten := (h.remembers e he hnumber).forgotten hfirst hadmitted
        rw [hset.ttl_eq, hset.bound_eq] at hforgotten
        rcases hforgotten with hexpired | hfull
        · exact .inl hexpired
        · exact .inr (by dsimp only; omega)
      · exact hlater later hmem
    · exact hlater later hmem

/-- Two acceptances of a packet in passes in the order of time. -/
lemma pairwise_acceptances {passes : List (Listener Private Public × Reception Private)}
    (hnumbered : SessionsNumbered state) (hsound : Sound cfg past state)
    (htimes : (passes.map (fun pass => pass.2.monotonicNow)).Pairwise (· ≤ ·))
    (hpast : ∀ pass ∈ passes, past ≤ pass.2.monotonicNow) :
    (acceptances p cfg packet number state count passes).Pairwise (fun earlier later =>
      earlier.time + cfg.dataNonceTtl ≤ later.time ∨
        earlier.before + cfg.dataNonceMaxPerSession < later.before) := by
  induction passes generalizing past state count with
  | nil => exact List.Pairwise.nil
  | cons pass passes ih =>
    rw [List.map_cons, List.pairwise_cons] at htimes
    have hfirst := hpast pass List.mem_cons_self
    have hreaches := @reaches_receive _ _ p cfg pass.1 pass.2 _ _ hsound hfirst
    have hnow : ∀ later ∈ passes, pass.2.monotonicNow ≤ later.2.monotonicNow :=
      fun later hlater => htimes.1 _ (List.mem_map_of_mem hlater)
    have hrest := fun count => @ih _ _ count (hreaches.outcome.sessionsNumbered hnumbered) hreaches.sound
      htimes.2 hnow
    rw [acceptances]
    split
    · rename_i haccepted
      rw [List.pairwise_cons]
      refine ⟨?_, hrest _⟩
      intro later hlater
      obtain ⟨nonce, hnonce⟩ := exists_nonce_of_entered haccepted.2
      obtain ⟨⟨ciphertext, hparse⟩, -⟩ := hreaches.outcome.nonce_admitted hnonce
      rw [haccepted.1] at hparse
      have hentered := List.length_pos_of_ne_nil haccepted.2
      rcases (hreaches.outcome.sessionRemembers hnumbered hnonce).accepted_later hparse hreaches.sound
        htimes.2 hnow later hlater with hexpired | hfull
      · exact .inl hexpired
      · exact .inr (by dsimp only; omega)
    · exact hrest _

lemma Outcome.length_frames_le {listener : Listener Private Public} {reception : Reception Private}
    {state' : SecureState} {admitted : Admissions}
    (h : Outcome p cfg listener reception state state' admitted) : admitted.frames.length ≤ 1 := by
  cases h with
  | quiet _ _ admitted_eq => exact (congrArg (fun a => a.frames.length) admitted_eq).trans_le (Nat.zero_le 1)
  | hello _ _ _ _ _ admitted_eq =>
    exact (congrArg (fun a => a.frames.length) admitted_eq).trans_le (Nat.zero_le 1)
  | confirmation _ _ _ _ _ _ _ _ admitted_eq =>
    exact (congrArg (fun a => a.frames.length) admitted_eq).trans_le (Nat.zero_le 1)
  | data _ _ _ _ _ _ _ admitted_eq =>
    rw [admitted_eq]
    exact length_messageFrames_le _ _

lemma frames_of_acceptances {passes : List (Listener Private Public × Reception Private)}
    (hsound : Sound cfg past state) (htimes : (passes.map (fun pass => pass.2.monotonicNow)).Pairwise (· ≤ ·))
    (hpast : ∀ pass ∈ passes, past ≤ pass.2.monotonicNow) :
    ∀ delivery ∈ acceptances p cfg packet number state count passes, delivery.frames.length ≤ 1 := by
  induction passes generalizing past state count with
  | nil => simp [acceptances]
  | cons pass passes ih =>
    rw [List.map_cons, List.pairwise_cons] at htimes
    have hreaches := @reaches_receive _ _ p cfg pass.1 pass.2 _ _ hsound (hpast pass List.mem_cons_self)
    have hrest := fun count => @ih _ _ count hreaches.sound htimes.2
      (fun later hlater => htimes.1 _ (List.mem_map_of_mem hlater))
    intro delivery hmem
    rw [acceptances] at hmem
    split at hmem
    · rcases List.mem_cons.mp hmem with rfl | hmem
      · exact hreaches.outcome.length_frames_le
      · exact hrest _ delivery hmem
    · exact hrest _ delivery hmem

/-- In a whole run a session accepts a DATA packet again only after the time for which it remembers nonces,
or after letting in as many nonces as it remembers; each time it queues at most one frame, and without an
acceptance none is queued. -/
theorem data_packet_acceptances (p : Primitives Private Public) (cfg : SecureSettings)
    (passes : List (Listener Private Public × Reception Private))
    (htimes : (passes.map (fun pass => pass.2.monotonicNow)).Pairwise (· ≤ ·)) (packet : Bytes) (number : Nat) :
    let accepted := acceptances p cfg packet number (.init cfg) 0 passes
    accepted.Pairwise (fun earlier later => earlier.time + cfg.dataNonceTtl ≤ later.time ∨
        earlier.before + cfg.dataNonceMaxPerSession < later.before) ∧
      (∀ delivery ∈ accepted, delivery.frames.length ≤ 1) ∧
      ∀ earlier pass later, passes = earlier ++ pass :: later →
        let admitted := admissions (receive p cfg pass.1 (receiveAll p cfg (.init cfg) earlier) pass.2).2
        admitted.frames.length ≤ admitted.nonces.length := by
  cases passes with
  | nil => exact ⟨List.Pairwise.nil, by simp [acceptances], frames_le_nonces_of_split htimes⟩
  | cons first rest =>
    have hfirst := first_le_of_sorted htimes
    have hsound := sound_init cfg first.2.monotonicNow
    exact ⟨pairwise_acceptances (sessionsNumbered_init cfg) hsound htimes hfirst,
      frames_of_acceptances hsound htimes hfirst, frames_le_nonces_of_split htimes⟩

/-- A message that comes at once and again after 300 s. -/
def harbourRedelivery : List (Listener Nat Nat × Reception Nat) :=
  harbourStart ++ [harbourPass (harbourData 2 harbourNmea) 0, harbourPass (harbourData 3 (harbourPing 1)) 200,
    harbourPass (harbourData 2 harbourNmea) 300]

lemma harbour_packet_acceptances :
    (acceptances harbourPrimitives defaultSettings (harbourPass (harbourData 2 harbourNmea) 0).2.data 1
      (.init defaultSettings) 0 harbourRedelivery).map (fun delivery =>
        (delivery.time, delivery.before, delivery.frames.length)) = [(0, 0, 1), (300, 2, 1)] := by
  decide +kernel

/-- A ping after 200 s keeps the session alive until it forgets the nonce of its first message. -/
theorem data_packet_acceptances_harbour :
    let accepted := acceptances harbourPrimitives defaultSettings
      (harbourPass (harbourData 2 harbourNmea) 0).2.data 1 (.init defaultSettings) 0 harbourRedelivery
    accepted.length = 2 ∧ accepted.Pairwise (fun earlier later =>
      earlier.time + defaultSettings.dataNonceTtl ≤ later.time ∨
        earlier.before + defaultSettings.dataNonceMaxPerSession < later.before) := by
  refine ⟨?_, (data_packet_acceptances harbourPrimitives defaultSettings harbourRedelivery
    harbour_packet_times (harbourPass (harbourData 2 harbourNmea) 0).2.data 1).1⟩
  have hlength := congrArg List.length harbour_packet_acceptances
  rw [List.length_map] at hlength
  exact hlength

/-- The session accepts its message twice, and queues the frame twice. -/
theorem data_packet_accepted_twice :
    (harbourRedelivery.map (fun pass => pass.2.monotonicNow)).Pairwise (· ≤ ·) ∧
      ¬(acceptances harbourPrimitives defaultSettings (harbourPass (harbourData 2 harbourNmea) 0).2.data 1
        (.init defaultSettings) 0 harbourRedelivery).length ≤ 1 ∧
      (acceptances harbourPrimitives defaultSettings (harbourPass (harbourData 2 harbourNmea) 0).2.data 1
        (.init defaultSettings) 0 harbourRedelivery).map (fun delivery =>
          (delivery.time, delivery.before, delivery.frames.length)) = [(0, 0, 1), (300, 2, 1)] := by
  refine ⟨harbour_packet_times, ?_, harbour_packet_acceptances⟩
  have hlength := congrArg List.length harbour_packet_acceptances
  rw [List.length_map] at hlength
  rw [hlength]
  decide

/-- Room for one nonce in each session. -/
def narrowSettings : SecureSettings :=
  { defaultSettings with dataNonceMaxPerSession := 1, limits := by simp [defaultSettings] }

-- With that little room a single ping makes the session forget the message before it.
example :
    (acceptances harbourPrimitives narrowSettings (harbourPass (harbourData 2 harbourNmea) 0).2.data 1
      (.init narrowSettings) 0 (harbourStart ++ [harbourPass (harbourData 2 harbourNmea) 0,
        harbourPass (harbourData 3 (harbourPing 1)) 0, harbourPass (harbourData 2 harbourNmea) 0])).map
          (fun delivery => (delivery.time, delivery.before, delivery.frames.length)) =
      [(0, 0, 1), (0, 2, 1)] := by
  decide +kernel

/-! ### ClientHellos -/

/-- The deliveries of a packet that pass as a ClientHello: the wall time of each, and the ClientHello. -/
def admittedHellos (p : Primitives Private Public) (cfg : SecureSettings) (packet : Bytes) (state : SecureState) :
    List (Listener Private Public × Reception Private) → List (ℚ × ClientHello)
  | [] => []
  | pass :: passes =>
    let result := receive p cfg pass.1 state pass.2
    let later := admittedHellos p cfg packet result.1 passes
    if pass.2.data = packet then
      (admissions result.2).hellos.map (fun hello => (pass.2.wallNow, hello)) ++ later
    else later

/-- At most one delivery passes, or one at each end of the window around the time of the ClientHello. -/
def OnceOrAtEnds (admitted : List (ℚ × ClientHello)) : Prop :=
  admitted.length ≤ 1 ∨ ∃ hello : ClientHello,
    admitted = [((hello.timestamp : ℚ) - 30, hello), ((hello.timestamp : ℚ) + 30, hello)]

variable {listener : Listener Private Public} {reception : Reception Private} {hello : ClientHello} {key : Bytes}
  {offset wall : ℚ}

/-- A minute after a first delivery that is fresh, only the far end of the window is left. -/
lemma OnceOrAtEnds.cons {later : List (ℚ × ClientHello)} (h : OnceOrAtEnds later)
    (hfresh : |wall - hello.timestamp| ≤ 30)
    (hlater : ∀ entry ∈ later, wall + 60 ≤ entry.1 ∧ |entry.1 - hello.timestamp| ≤ 30 ∧ entry.2 = hello) :
    OnceOrAtEnds ((wall, hello) :: later) := by
  have hends : ∀ entry ∈ later, wall = hello.timestamp - 30 ∧ entry = ((hello.timestamp : ℚ) + 30, hello) := by
    intro entry hentry
    obtain ⟨hgap, hagain, hsame⟩ := hlater entry hentry
    obtain ⟨hlow, -⟩ := abs_le.mp hfresh
    obtain ⟨-, hhigh⟩ := abs_le.mp hagain
    exact ⟨by linarith, Prod.ext (by linarith) hsame⟩
  rcases h with honce | ⟨hello', rfl⟩
  · match later with
    | [] => exact .inl (le_refl 1)
    | [entry] =>
      obtain ⟨hwall, rfl⟩ := hends entry List.mem_cons_self
      rw [hwall]
      exact .inr ⟨hello, rfl⟩
    | _ :: _ :: _ => simp at honce
  · obtain ⟨-, hnear⟩ := hends _ List.mem_cons_self
    obtain ⟨-, hfar⟩ := hends _ (List.mem_cons_of_mem _ List.mem_cons_self)
    have htimes := congrArg Prod.fst (hnear.trans hfar.symm)
    dsimp only at htimes
    linarith

/-- While the replay record of a ClientHello is there it does not pass. -/
lemma ReplayRemembers.admitted_later {passes : List (Listener Private Public × Reception Private)}
    (h : ReplayRemembers cfg key since past state) (hfresh : FreshHello p listener reception hello key)
    (hpacket : reception.data = packet) (hsound : Sound cfg past state)
    (htimes : (passes.map (fun pass => pass.2.monotonicNow)).Pairwise (· ≤ ·))
    (hpast : ∀ pass ∈ passes, past ≤ pass.2.monotonicNow)
    (hclocks : ∀ pass ∈ passes, pass.2.wallNow = pass.2.monotonicNow + offset)
    (hevicted : (Udpsec.receiveAll p cfg state passes).replaysEvicted = 0) :
    ∀ later ∈ admittedHellos p cfg packet state passes,
      since + cfg.handshakeReplayTtl + offset ≤ later.1 ∧ |later.1 - hello.timestamp| ≤ 30 ∧ later.2 = hello := by
  induction passes generalizing past state with
  | nil => simp [admittedHellos]
  | cons pass passes ih =>
    rw [List.map_cons, List.pairwise_cons] at htimes
    have hfirst := hpast pass List.mem_cons_self
    have hreaches := @reaches_receive _ _ p cfg pass.1 pass.2 _ _ hsound hfirst
    have hnow : ∀ later ∈ passes, pass.2.monotonicNow ≤ later.2.monotonicNow :=
      fun later hlater => htimes.1 _ (List.mem_map_of_mem hlater)
    have hgrows := hreaches.outcome.replaysEvicted_le
    have hlast := @replaysEvicted_receiveAll_le _ _ p _ _ _ _ hreaches.sound htimes.2 hnow
    change (Udpsec.receiveAll p cfg (Udpsec.receive p cfg pass.1 state pass.2).1 passes).replaysEvicted = 0
      at hevicted
    have hrest := ih (hreaches.outcome.replayRemembers h hfirst (by omega)) hreaches.sound htimes.2 hnow
      (fun later hlater => hclocks later (List.mem_cons_of_mem _ hlater)) hevicted
    intro later hmem
    rw [admittedHellos] at hmem
    split at hmem
    · rename_i hdata
      rcases List.mem_append.mp hmem with hadmitted | hmem
      · obtain ⟨hello', hhello', rfl⟩ := List.mem_map.mp hadmitted
        rcases hreaches.outcome.replays_cases with ⟨hnone, -⟩ | ⟨hello₁, key', hone, hfresh', hreplay⟩
        · rw [hnone] at hhello'
          cases hhello'
        rw [hone, List.mem_singleton] at hhello'
        subst hhello'
        obtain ⟨rfl, rfl⟩ := hfresh.unique hfresh' (hdata.trans hpacket.symm)
        have hexpired := (h.later hfirst).expired hreplay
        have hclock := hclocks pass List.mem_cons_self
        exact ⟨by dsimp only; linarith, hfresh'.fresh, rfl⟩
      · exact hrest later hmem
    · exact hrest later hmem

lemma onceOrAtEnds_admittedHellos {passes : List (Listener Private Public × Reception Private)}
    (httl : cfg.handshakeReplayTtl = 60) (hsound : Sound cfg past state)
    (htimes : (passes.map (fun pass => pass.2.monotonicNow)).Pairwise (· ≤ ·))
    (hpast : ∀ pass ∈ passes, past ≤ pass.2.monotonicNow)
    (hclocks : ∀ pass ∈ passes, pass.2.wallNow = pass.2.monotonicNow + offset)
    (hevicted : (receiveAll p cfg state passes).replaysEvicted = 0) :
    OnceOrAtEnds (admittedHellos p cfg packet state passes) := by
  induction passes generalizing past state with
  | nil => exact .inl (Nat.zero_le 1)
  | cons pass passes ih =>
    rw [List.map_cons, List.pairwise_cons] at htimes
    have hfirst := hpast pass List.mem_cons_self
    have hreaches := @reaches_receive _ _ p cfg pass.1 pass.2 _ _ hsound hfirst
    have hnow : ∀ later ∈ passes, pass.2.monotonicNow ≤ later.2.monotonicNow :=
      fun later hlater => htimes.1 _ (List.mem_map_of_mem hlater)
    have hlaterClocks : ∀ later ∈ passes, later.2.wallNow = later.2.monotonicNow + offset :=
      fun later hlater => hclocks later (List.mem_cons_of_mem _ hlater)
    change (receiveAll p cfg (receive p cfg pass.1 state pass.2).1 passes).replaysEvicted = 0 at hevicted
    have hrest := ih hreaches.sound htimes.2 hnow hlaterClocks hevicted
    rw [admittedHellos]
    split
    · rename_i hdata
      rcases hreaches.outcome.replays_cases with ⟨hnone, -⟩ | ⟨hello, key, hone, hfresh, hreplay⟩
      · rw [hnone]
        exact hrest
      · rw [hone]
        apply hrest.cons hfresh.fresh
        intro entry hentry
        obtain ⟨hgap, hagain⟩ := (replayRemembers_admitted hsound hreplay).admitted_later hfresh hdata
          hreaches.sound htimes.2 hnow hlaterClocks hevicted entry hentry
        have hclock := hclocks pass List.mem_cons_self
        rw [httl] at hgap
        exact ⟨by linarith, hagain⟩
    · exact hrest

/-- In a whole run in which no replay record is evicted a ClientHello passes once, or twice at the two ends of
the window around its time: 30 s before it and 30 s after it. -/
theorem client_hello_admissions (p : Primitives Private Public) (cfg : SecureSettings)
    (passes : List (Listener Private Public × Reception Private)) (offset : ℚ)
    (httl : cfg.handshakeReplayTtl = 60)
    (htimes : (passes.map (fun pass => pass.2.monotonicNow)).Pairwise (· ≤ ·))
    (hclocks : ∀ pass ∈ passes, pass.2.wallNow = pass.2.monotonicNow + offset)
    (hevicted : (receiveAll p cfg (.init cfg) passes).counters.handshakeReplayCapacityEvicted = 0)
    (packet : Bytes) : OnceOrAtEnds (admittedHellos p cfg packet (.init cfg) passes) := by
  cases passes with
  | nil => exact .inl (Nat.zero_le 1)
  | cons first rest =>
    exact onceOrAtEnds_admittedHellos httl (sound_init cfg first.2.monotonicNow) htimes
      (first_le_of_sorted htimes) hclocks hevicted

lemma harbourHelloTwice_admitted :
    (admittedHellos harbourPrimitives defaultSettings (harbourPass (harbourHello 1030) 0).2.data
      (.init defaultSettings) harbourHelloTwice).length = 2 := by
  decide +kernel

theorem client_hello_admissions_harbour :
    ∃ hello : ClientHello, admittedHellos harbourPrimitives defaultSettings
      (harbourPass (harbourHello 1030) 0).2.data (.init defaultSettings) harbourHelloTwice =
        [((hello.timestamp : ℚ) - 30, hello), ((hello.timestamp : ℚ) + 30, hello)] := by
  apply (client_hello_admissions harbourPrimitives defaultSettings harbourHelloTwice 1000 rfl
    harbourHelloTwice_times harbourHelloTwice_clocks harbourHelloTwice_receiveAll.1
    (harbourPass (harbourHello 1030) 0).2.data).resolve_left
  rw [harbourHelloTwice_admitted]
  decide

/-- The ClientHello passes twice, and installs a pending session each time. -/
theorem client_hello_admitted_twice :
    (harbourHelloTwice.map (fun pass => pass.2.monotonicNow)).Pairwise (· ≤ ·) ∧
      (∀ pass ∈ harbourHelloTwice, pass.2.wallNow = pass.2.monotonicNow + 1000) ∧
      defaultSettings.handshakeReplayTtl = 60 ∧
      (receiveAll harbourPrimitives defaultSettings (.init defaultSettings)
        harbourHelloTwice).counters.handshakeReplayCapacityEvicted = 0 ∧
      (receiveAll harbourPrimitives defaultSettings (.init defaultSettings)
        harbourHelloTwice).pendingSessions.created = 2 ∧
      ¬(admittedHellos harbourPrimitives defaultSettings (harbourPass (harbourHello 1030) 0).2.data
        (.init defaultSettings) harbourHelloTwice).length ≤ 1 := by
  obtain ⟨hevicted, hcreated⟩ := harbourHelloTwice_receiveAll
  refine ⟨harbourHelloTwice_times, harbourHelloTwice_clocks, rfl, hevicted, hcreated, ?_⟩
  rw [harbourHelloTwice_admitted]
  decide

end AisMixer.Udpsec
