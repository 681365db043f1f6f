import AisMixer.Udpsec.PacketOutcomes

/-!
# How often a packet is let in

A nonce is let into the set of a session again only when its record has left the set: because it has
expired, or because as many other nonces have been let in since as the set holds. A ClientHello is let
in again only when its replay record has expired, for which the window around its own time leaves a
single instant.
-/

namespace AisMixer.Udpsec

open AisMixer.Library

/-! ### What a set remembers of a key -/

/-- A key has entered the set at a time, and up to `count` keys since. Its record is there unless it has
expired or has made room. -/
def Remembers (key : Bytes) (since : ℚ) (count : Nat) (now : ℚ) (set : BoundedExpiringSet Bytes) : Prop :=
  since + set.ttl ≤ now ∨ set.maxEntries ≤ count ∨ ∃ before record after,
    set.expiryOrder = before ++ record :: after ∧ record.key = key ∧
      record.expiresAt = since + set.ttl ∧ after.length ≤ count

section Sets

variable {key other : Bytes} {since past now : ℚ} {count : Nat} {set set' set'' : BoundedExpiringSet Bytes}

lemma AgedSet.admitted (h : AgedSet now set set') (h' : Admitted now key set' set'') :
    Admitted now key set set'' where
  ttl_eq := h'.ttl_eq.trans h.ttl_eq
  bound_eq := h'.bound_eq.trans h.bound_eq
  unseen := by
    intro r hr hlive
    rcases h.records.mem_left hr with hgone | ⟨r', hr', rfl⟩
    · exact absurd hlive (not_lt.mpr hgone)
    · exact h'.unseen r hr' hlive
  records := by
    obtain ⟨live, number, dropped, hfades, horder, hroom⟩ := h'.records
    rw [h.ttl_eq] at horder
    rw [h.bound_eq] at hroom
    exact ⟨live, number, dropped,
      h.records.trans (fun _ _ heq hgone => heq ▸ hgone) (fun _ _ _ => Eq.trans) hfades, horder, hroom⟩

lemma Remembers.aged (h : Remembers key since count past set) (hle : past ≤ now)
    (haged : AgedSet now set set') : Remembers key since count now set' := by
  unfold Remembers
  rw [haged.ttl_eq, haged.bound_eq]
  rcases h with hexpired | hfull | ⟨before, record, after, horder, hkey, hexpires, hlength⟩
  · exact .inl (hexpired.trans hle)
  · exact .inr (.inl hfull)
  · have hrecords := haged.records
    rw [horder] at hrecords
    rcases hrecords.split with hgone | ⟨before', record', after', horder', rfl, hlength'⟩
    · exact .inl (hexpires ▸ hgone)
    · exact .inr (.inr ⟨before', record, after', horder', hkey, hexpires, hlength'.trans hlength⟩)

lemma Remembers.mono {count' : Nat} (h : Remembers key since count now set) (hle : count ≤ count') :
    Remembers key since count' now set := by
  rcases h with hexpired | hfull | ⟨before, record, after, horder, hkey, hexpires, hlength⟩
  · exact .inl hexpired
  · exact .inr (.inl (hfull.trans hle))
  · exact .inr (.inr ⟨before, record, after, horder, hkey, hexpires, hlength.trans hle⟩)

/-- Another key enters: the record of the first makes room only for the last key that fits. -/
lemma Remembers.admitted (h : Remembers key since count past set) (hle : past ≤ now)
    (hadmitted : Admitted now other set set') : Remembers key since (count + 1) now set' := by
  obtain ⟨live, number, dropped, hfades, horder', hroom⟩ := hadmitted.records
  unfold Remembers
  rw [hadmitted.ttl_eq, hadmitted.bound_eq]
  rcases h with hexpired | hfull | ⟨before, record, after, horder, hkey, hexpires, hlength⟩
  · exact .inl (hexpired.trans hle)
  · exact .inr (.inl (hfull.trans (Nat.le_succ count)))
  · rw [horder] at hfades
    rcases hfades.split with hgone | ⟨before', record', after', rfl, rfl, hlength'⟩
    · exact .inl (hexpires ▸ hgone)
    · have hkept : ∀ front, set'.expiryOrder = front ++ record :: (after' ++ [⟨number, other, now + set.ttl⟩]) →
          Remembers key since (count + 1) now set' := by
        intro front hfront
        refine .inr (.inr ⟨front, record, _, hfront, hkey, ?_, ?_⟩)
        · rw [hadmitted.ttl_eq]
          exact hexpires
        · rw [List.length_append, List.length_singleton]
          omega
      unfold Remembers at hkept
      rw [hadmitted.ttl_eq, hadmitted.bound_eq] at hkept
      rcases hroom with rfl | ⟨rfl, hfull⟩
      · apply hkept before'
        rw [horder', List.drop_zero, List.append_assoc, List.cons_append]
      · cases before' with
        | nil =>
          rw [List.nil_append, List.length_cons] at hfull
          exact .inr (.inl (by omega))
        | cons first front =>
          apply hkept front
          rw [horder', List.cons_append, List.drop_succ_cons, List.drop_zero, List.append_assoc,
            List.cons_append]

lemma remembers_admitted (h : Admitted now key set set') : Remembers key now 0 now set' := by
  obtain ⟨live, number, dropped, -, horder, -⟩ := h.records
  refine .inr (.inr ⟨live.drop dropped, _, [], horder, rfl, ?_, le_refl 0⟩)
  rw [h.ttl_eq]

/-- A key that enters again has expired or has made room. -/
lemma Remembers.forgotten (h : Remembers key since count past set) (hle : past ≤ now)
    (hadmitted : Admitted now key set set') : since + set.ttl ≤ now ∨ set.maxEntries ≤ count := by
  rcases h with hexpired | hfull | ⟨before, record, after, horder, hkey, hexpires, -⟩
  · exact .inl (hexpired.trans hle)
  · exact .inr hfull
  · left
    rw [← hexpires]
    apply not_lt.mp
    intro hlive
    apply hadmitted.unseen record _ hlive hkey
    rw [horder]
    simp

end Sets

/-! ### Sessions over passes -/

variable {Private Public : Type} {p : Primitives Private Public} {cfg : SecureSettings}
  {listener : Listener Private Public} {reception : Reception Private} {state state' : SecureState}
  {admitted : Admissions}

open SecureState

lemma Outcome.nextNumber_le (h : Outcome p cfg listener reception state state' admitted) :
    state.nextNumber ≤ state'.nextNumber := by
  cases h with
  | quiet aged _ _ => exact aged.nextNumber.ge
  | hello _ _ _ aged installs _ =>
    rcases installs with ⟨-, -, hnext⟩ | ⟨pending, -, hinstalls⟩
    · exact (hnext.symm.trans aged.nextNumber).ge
    · rw [hinstalls.nextNumber, aged.nextNumber]
      exact Nat.le_succ _
  | confirmation _ _ _ aged _ admits promotes touches _ =>
    rw [touches.nextNumber, promotes.nextNumber, admits.nextNumber, aged.nextNumber]
    exact Nat.le_succ _
  | data _ _ _ aged _ admits touches _ =>
    rw [touches.nextNumber, admits.nextNumber, aged.nextNumber]

/-- Where a session of a touched store stood before. -/
lemma SecureState.Touches.mem {now : ℚ} {addr : Address} {current : SecureSession}
    (h : Touches now addr current state state') {e : Address × SecureSession}
    (he : e ∈ state'.sessions.records.entries) :
    ∃ e' ∈ state.sessions.records.entries, e'.2.number = e.2.number ∧
      e'.2.seenDataNonces = e.2.seenDataNonces := by
  obtain ⟨before, after, hentries, hentries'⟩ := h.sessions
  rw [hentries', List.mem_append, List.mem_append, List.mem_singleton] at he
  rw [hentries]
  rcases he with (he | he) | rfl
  · exact ⟨e, by simp [he], rfl, rfl⟩
  · exact ⟨e, by simp [he], rfl, rfl⟩
  · exact ⟨(addr, current), by simp, rfl, rfl⟩

lemma SecureState.Aged.mem_session {now : ℚ} (h : Aged cfg now state state') {e : Address × SecureSession}
    (he : e ∈ state'.sessions.records.entries) :
    ∃ e' ∈ state.sessions.records.entries, e'.2.number = e.2.number ∧
      AgedSet now e'.2.seenDataNonces e.2.seenDataNonces := by
  obtain ⟨e', he', hsame⟩ := h.sessions.mem_right he
  exact ⟨e', he', (congrArg Prod.fst hsame.facts_eq).symm, hsame.nonces_aged⟩

/-- A session of the state after a pass has just been given its number, or was there before: then the
pass has let at most the nonce that it reports into its set. -/
lemma Outcome.session_cases (h : Outcome p cfg listener reception state state' admitted)
    {e : Address × SecureSession} (he : e ∈ state'.sessions.records.entries) :
    state.nextNumber ≤ e.2.number ∧ e.2.number < state'.nextNumber ∨
      ∃ e' ∈ state.sessions.records.entries, e'.2.number = e.2.number ∧
        (AgedSet reception.monotonicNow e'.2.seenDataNonces e.2.seenDataNonces ∨
          ∃ nonce, admitted.nonces = [(e.2.number, nonce)] ∧
            Admitted reception.monotonicNow nonce e'.2.seenDataNonces e.2.seenDataNonces) := by
  have haged : ∀ mid, state.Aged cfg reception.monotonicNow mid → ∀ e ∈ mid.sessions.records.entries,
      ∃ e' ∈ state.sessions.records.entries, e'.2.number = e.2.number ∧
        AgedSet reception.monotonicNow e'.2.seenDataNonces e.2.seenDataNonces :=
    fun _ haged _ he => haged.mem_session he
  cases h with
  | quiet aged _ _ =>
    obtain ⟨e', he', hnumber, hset⟩ := haged _ aged e he
    exact .inr ⟨e', he', hnumber, .inl hset⟩
  | @hello _ _ mid _ _ _ aged installs _ =>
    have hsessions : state'.sessions = mid.sessions := by
      rcases installs with ⟨hsessions, -, -⟩ | ⟨pending, -, hinstalls⟩
      · exact hsessions.symm
      · exact hinstalls.sessions
    rw [hsessions] at he
    obtain ⟨e', he', hnumber, hset⟩ := haged _ aged e he
    exact .inr ⟨e', he', hnumber, .inl hset⟩
  | confirmation _ _ _ aged _ admits promotes touches _ =>
    obtain ⟨e₁, he₁, hnumber₁, hset₁⟩ := touches.mem he
    obtain ⟨kept, ⟨hkept, -⟩, -, hentries⟩ := promotes.sessions
    rw [hentries, List.mem_append, List.mem_singleton] at he₁
    rcases he₁ with he₁ | rfl
    · have hmem := hkept.subset he₁
      rw [admits.sessions] at hmem
      obtain ⟨e', he', hnumber, hset⟩ := haged _ aged e₁ hmem
      rw [hset₁] at hset
      exact .inr ⟨e', he', hnumber.trans hnumber₁, .inl hset⟩
    · left
      rw [promotes.promoted] at hnumber₁
      dsimp only at hnumber₁
      rw [touches.nextNumber, promotes.nextNumber, ← hnumber₁, admits.nextNumber, aged.nextNumber]
      exact ⟨le_refl _, Nat.lt_succ_self _⟩
  | @data nonce _ _ nonces session mid _ _ _ _ aged _ admits touches admitted_eq =>
    obtain ⟨e₁, he₁, hnumber₁, hset₁⟩ := touches.mem he
    rw [admits.sessions] at he₁
    right
    rcases mem_entries_set he₁ with rfl | he₁
    · obtain ⟨e', he', hnumber, hset⟩ := haged _ aged (session.address, session)
        ((Dict.get?_eq_some_iff _ _ _).mp admits.found)
      refine ⟨e', he', hnumber.trans hnumber₁, .inr ⟨nonce, ?_, ?_⟩⟩
      · rw [admitted_eq, ← hnumber₁]
      · rw [← hset₁]
        exact hset.admitted admits.admitted
    · obtain ⟨e', he', hnumber, hset⟩ := haged _ aged e₁ he₁
      rw [hset₁] at hset
      exact ⟨e', he', hnumber.trans hnumber₁, .inl hset⟩

def SecureState.sessionNumbers (state : SecureState) : List Nat :=
  state.sessions.records.entries.map (fun e => e.2.number)

/-- Sessions have numbers of their own, smaller than the next one. -/
structure SessionsNumbered (state : SecureState) : Prop where
  below : ∀ e ∈ state.sessions.records.entries, e.2.number < state.nextNumber
  nodup : state.sessionNumbers.Nodup

lemma SessionsNumbered.eq_of_number (h : SessionsNumbered state) {e e' : Address × SecureSession}
    (he : e ∈ state.sessions.records.entries) (he' : e' ∈ state.sessions.records.entries)
    (hnumber : e.2.number = e'.2.number) : e = e' :=
  List.inj_on_of_nodup_map h.nodup he he' hnumber

lemma SecureState.Aged.sessionNumbers {now : ℚ} (h : Aged cfg now state state') :
    state'.sessionNumbers.Sublist state.sessionNumbers :=
  h.sessions.map_sublist (fun _ _ hsame => congrArg Prod.fst hsame.facts_eq)

lemma SecureState.Touches.sessionNumbers {now : ℚ} {addr : Address} {current : SecureSession}
    (h : Touches now addr current state state') : state'.sessionNumbers.Perm state.sessionNumbers := by
  obtain ⟨before, after, hentries, hentries'⟩ := h.sessions
  unfold SecureState.sessionNumbers
  rw [hentries, hentries', List.append_assoc, List.map_append, List.map_append, List.map_append]
  exact (@List.perm_append_comm _ ([(addr, current)].map (fun e => e.2.number)) _).symm.append_left _

lemma SecureState.AdmitsData.sessionNumbers {now : ℚ} {nonce : Bytes} {session current : SecureSession}
    {nonces : BoundedExpiringSet Bytes} (h : AdmitsData now nonce session current nonces state state') :
    state'.sessionNumbers = state.sessionNumbers := by
  obtain ⟨before, after, hentries, hset, -⟩ := Dict.exists_split h.found
  unfold SecureState.sessionNumbers
  rw [h.sessions, hset, hentries, List.map_append, List.map_append, List.map_cons, List.map_cons]

lemma Outcome.sessionsNumbered (h : Outcome p cfg listener reception state state' admitted)
    (hnumbered : SessionsNumbered state) : SessionsNumbered state' where
  below := by
    intro e he
    rcases h.session_cases he with ⟨-, hgiven⟩ | ⟨e', he', hnumber, -⟩
    · exact hgiven
    · rw [← hnumber]
      exact (hnumbered.below e' he').trans_le h.nextNumber_le
  nodup := by
    cases h with
    | quiet aged _ _ => exact hnumbered.nodup.sublist aged.sessionNumbers
    | @hello _ _ mid _ _ _ aged installs _ =>
      have hsessions : state'.sessions = mid.sessions := by
        rcases installs with ⟨hsessions, -, -⟩ | ⟨pending, -, hinstalls⟩
        · exact hsessions.symm
        · exact hinstalls.sessions
      rw [SecureState.sessionNumbers, hsessions]
      exact hnumbered.nodup.sublist aged.sessionNumbers
    | @confirmation _ _ _ _ session mid confirmed _ _ _ _ aged _ admits promotes touches _ =>
      rw [touches.sessionNumbers.nodup_iff]
      obtain ⟨kept, ⟨hkept, -⟩, -, hentries⟩ := promotes.sessions
      have hnumbers : (kept.map (fun e => e.2.number)).Sublist state.sessionNumbers := by
        refine (hkept.map _).trans ?_
        rw [admits.sessions]
        exact aged.sessionNumbers
      have hnew : session.number = state.nextNumber := by
        rw [promotes.promoted]
        dsimp only
        rw [admits.nextNumber, aged.nextNumber]
      rw [SecureState.sessionNumbers, hentries, List.map_append, List.map_singleton, List.nodup_append]
      refine ⟨hnumbered.nodup.sublist hnumbers, List.nodup_singleton _, ?_⟩
      intro number hnumber number' hnumber' heq
      rw [List.mem_singleton.mp hnumber', hnew] at heq
      obtain ⟨e, he, rfl⟩ := List.mem_map.mp (hnumbers.subset hnumber)
      exact absurd heq (hnumbered.below e he).ne
    | data _ _ _ aged _ admits touches _ =>
      rw [touches.sessionNumbers.nodup_iff, admits.sessionNumbers]
      exact hnumbered.nodup.sublist aged.sessionNumbers

/-- How many nonces passes let into the set of a session. -/
def admittedNonces (p : Primitives Private Public) (cfg : SecureSettings) (number : Nat) (state : SecureState) :
    List (Listener Private Public × Reception Private) → Nat
  | [] => 0
  | pass :: passes =>
    let result := receive p cfg pass.1 state pass.2
    ((admissions result.2).nonces.filter (fun entry => entry.1 == number)).length +
      admittedNonces p cfg number result.1 passes

/-- What the session with a number remembers of a nonce, if it is still there. -/
structure SessionRemembers (number : Nat) (nonce : Bytes) (since : ℚ) (count : Nat) (now : ℚ)
    (state : SecureState) : Prop where
  given : number < state.nextNumber
  remembers : ∀ e ∈ state.sessions.records.entries, e.2.number = number →
    Remembers nonce since count now e.2.seenDataNonces

variable {number count : Nat} {nonce : Bytes} {since past now : ℚ}

/-- One pass. -/
lemma SessionRemembers.receive (h : SessionRemembers number nonce since count past state)
    (hsound : Sound cfg past state) (hle : past ≤ reception.monotonicNow) :
    SessionRemembers number nonce since
      (count + ((admissions (receive p cfg listener state reception).2).nonces.filter
        (fun entry => entry.1 == number)).length)
      reception.monotonicNow (receive p cfg listener state reception).1 := by
  have houtcome := (@reaches_receive _ _ p cfg listener reception _ _ hsound hle).outcome
  refine ⟨h.given.trans_le houtcome.nextNumber_le, ?_⟩
  intro e he hnumber
  rcases houtcome.session_cases he with ⟨hgiven, -⟩ | ⟨e', he', hsame, hset⟩
  · rw [hnumber] at hgiven
    exact absurd h.given (not_lt.mpr hgiven)
  have hbefore := h.remembers e' he' (hsame.trans hnumber)
  rcases hset with haged | ⟨admittedNonce, hnonces, hadmitted⟩
  · exact (hbefore.aged hle haged).mono (Nat.le_add_right _ _)
  · rw [hnonces, hnumber]
    simpa using hbefore.admitted hle hadmitted

/-- Passes in the order of time. -/
lemma SessionRemembers.receiveAll {passes : List (Listener Private Public × Reception Private)}
    (h : SessionRemembers number nonce since count past state) (hsound : Sound cfg past state)
    (htimes : (passes.map (fun pass => pass.2.monotonicNow)).Pairwise (· ≤ ·))
    (hpast : ∀ pass ∈ passes, past ≤ pass.2.monotonicNow) (hnow : ∀ pass ∈ passes, pass.2.monotonicNow ≤ now)
    (hle : past ≤ now) :
    SessionRemembers number nonce since (count + admittedNonces p cfg number state passes) now
      (Udpsec.receiveAll p cfg state passes) := by
  induction passes generalizing past state count with
  | nil => exact ⟨h.given, fun e he hnumber => (h.remembers e he hnumber).aged hle (.refl now _)⟩
  | cons pass passes ih =>
    rw [List.map_cons, List.pairwise_cons] at htimes
    have hfirst := hpast pass List.mem_cons_self
    have hreaches := @reaches_receive _ _ p cfg pass.1 pass.2 _ _ hsound hfirst
    have hrest := ih (@SessionRemembers.receive _ _ p cfg pass.1 pass.2 _ _ _ _ _ _ h hsound hfirst)
      hreaches.sound htimes.2 (fun later hlater => htimes.1 _ (List.mem_map_of_mem hlater))
      (fun later hlater => hnow later (List.mem_cons_of_mem _ hlater)) (hnow pass List.mem_cons_self)
    rw [Nat.add_assoc] at hrest
    exact hrest

lemma sessionsNumbered_receiveAll {passes : List (Listener Private Public × Reception Private)}
    (hnumbered : SessionsNumbered state) (hsound : Sound cfg past state)
    (htimes : (passes.map (fun pass => pass.2.monotonicNow)).Pairwise (· ≤ ·))
    (hpast : ∀ pass ∈ passes, past ≤ pass.2.monotonicNow) :
    SessionsNumbered (receiveAll p cfg state passes) := by
  induction passes generalizing past state with
  | nil => exact hnumbered
  | cons pass passes ih =>
    rw [List.map_cons, List.pairwise_cons] at htimes
    have hreaches := @reaches_receive _ _ p cfg pass.1 pass.2 _ _ hsound (hpast pass List.mem_cons_self)
    exact ih (hreaches.outcome.sessionsNumbered hnumbered) hreaches.sound htimes.2
      (fun later hlater => htimes.1 _ (List.mem_map_of_mem hlater))

/-- A nonce that a pass lets in was in no live record of the session, and is in its set from then on. -/
lemma Outcome.nonce_admitted (h : Outcome p cfg listener reception state state' admitted)
    (hmem : (number, nonce) ∈ admitted.nonces) :
    (∃ ciphertext, parseSecureDataPacket reception.data = .ok (nonce, ciphertext)) ∧
      ∃ e ∈ state.sessions.records.entries, ∃ e' ∈ state'.sessions.records.entries,
        e.2.number = number ∧ e'.2.number = number ∧
          Admitted reception.monotonicNow nonce e.2.seenDataNonces e'.2.seenDataNonces := by
  cases h with
  | quiet _ _ admitted_eq =>
    rw [admitted_eq] at hmem
    cases hmem
  | hello _ _ _ _ _ admitted_eq =>
    rw [admitted_eq] at hmem
    cases hmem
  | confirmation _ _ _ _ _ _ _ _ admitted_eq =>
    rw [admitted_eq] at hmem
    cases hmem
  | @data _ _ _ nonces session mid _ decrypts _ _ aged _ admits touches admitted_eq =>
    rw [admitted_eq, List.mem_singleton, Prod.mk.injEq] at hmem
    obtain ⟨rfl, rfl⟩ := hmem
    obtain ⟨ciphertext, -, hparse, -⟩ := decrypts
    obtain ⟨e, he, hnumber, hset⟩ := aged.mem_session ((Dict.get?_eq_some_iff _ _ _).mp admits.found)
    obtain ⟨before, after, -, hentries⟩ := touches.sessions
    refine ⟨⟨ciphertext, hparse⟩, e, he,
      (reception.addr, { session with seenDataNonces := nonces, lastSeen := reception.monotonicNow }), ?_,
      hnumber, rfl, hset.admitted admits.admitted⟩
    rw [hentries]
    simp

/-- What a session remembers right after a pass has let a nonce into its set. -/
lemma Outcome.sessionRemembers (h : Outcome p cfg listener reception state state' admitted)
    (hnumbered : SessionsNumbered state) (hmem : (number, nonce) ∈ admitted.nonces) :
    SessionRemembers number nonce reception.monotonicNow 0 reception.monotonicNow state' := by
  have hafter := h.sessionsNumbered hnumbered
  obtain ⟨-, e, -, e', he', -, hnumber', hadmitted⟩ := h.nonce_admitted hmem
  refine ⟨?_, ?_⟩
  · rw [← hnumber']
    exact hafter.below e' he'
  · intro other hother hnumber
    rw [hafter.eq_of_number hother he' (hnumber.trans hnumber'.symm)]
    exact remembers_admitted hadmitted

lemma length_messageFrames_le (stationId : PyStr) (content : SecureMessage) :
    (messageFrames listener reception stationId content).length ≤ 1 := by
  unfold messageFrames
  split
  · exact Nat.zero_le 1
  · split
    · exact le_refl 1
    · exact Nat.zero_le 1

/-- A frame goes onto the queue only with a nonce that is let in. -/
lemma Outcome.frames_le_nonces (h : Outcome p cfg listener reception state state' admitted) :
    admitted.frames.length ≤ admitted.nonces.length := by
  cases h with
  | quiet _ _ admitted_eq => exact (congrArg (fun a => a.frames.length) admitted_eq).trans_le (Nat.zero_le _)
  | hello _ _ _ _ _ admitted_eq =>
    exact (congrArg (fun a => a.frames.length) admitted_eq).trans_le (Nat.zero_le _)
  | confirmation _ _ _ _ _ _ _ _ admitted_eq =>
    exact (congrArg (fun a => a.frames.length) admitted_eq).trans_le (Nat.zero_le _)
  | data _ _ _ _ _ _ _ admitted_eq =>
    rw [admitted_eq]
    exact length_messageFrames_le _ _

lemma first_le_of_sorted {first : Listener Private Public × Reception Private}
    {rest : List (Listener Private Public × Reception Private)}
    (htimes : ((first :: rest).map (fun pass => pass.2.monotonicNow)).Pairwise (· ≤ ·)) :
    ∀ pass ∈ first :: rest, first.2.monotonicNow ≤ pass.2.monotonicNow := by
  intro pass hpass
  rw [List.map_cons, List.pairwise_cons] at htimes
  rcases List.mem_cons.mp hpass with rfl | hlater
  · exact le_rfl
  · exact htimes.1 _ (List.mem_map_of_mem hlater)

/-- A run in the order of time, split at one of its passes. -/
lemma times_split {before between : List (Listener Private Public × Reception Private)}
    {first second : Listener Private Public × Reception Private}
    (htimes : ((before ++ first :: between ++ [second]).map (fun pass => pass.2.monotonicNow)).Pairwise (· ≤ ·)) :
    ((before ++ [first]).map (fun pass => pass.2.monotonicNow)).Pairwise (· ≤ ·) ∧
      (between.map (fun pass => pass.2.monotonicNow)).Pairwise (· ≤ ·) ∧
      (∀ pass ∈ between, first.2.monotonicNow ≤ pass.2.monotonicNow) ∧
      (∀ pass ∈ between, pass.2.monotonicNow ≤ second.2.monotonicNow) ∧
      first.2.monotonicNow ≤ second.2.monotonicNow := by
  rw [List.pairwise_map] at htimes
  rw [List.pairwise_map, List.pairwise_map]
  have hinitial : (before ++ [first]).Sublist (before ++ first :: between ++ [second]) := by
    rw [List.append_assoc]
    exact (List.singleton_sublist.mpr (by simp)).append_left before
  rw [List.append_assoc, List.pairwise_append, List.cons_append, List.pairwise_cons,
    List.pairwise_append] at htimes
  obtain ⟨hbefore, ⟨hfirst, hbetween, -, hsecond⟩, hcross⟩ := htimes
  refine ⟨?_, hbetween, ?_, ?_, hfirst second (by simp)⟩
  · rw [List.pairwise_append]
    refine ⟨hbefore, List.pairwise_singleton _ _, ?_⟩
    intro pass hpass last hlast
    rw [List.mem_singleton.mp hlast]
    exact hcross pass hpass first List.mem_cons_self
  · intro pass hpass
    exact hfirst pass (List.mem_append_left _ hpass)
  · intro pass hpass
    exact hsecond pass hpass second (List.mem_singleton_self _)

/-- What a run that is split at two of its passes goes through. -/
structure SplitRun (p : Primitives Private Public) (cfg : SecureSettings)
    (before between : List (Listener Private Public × Reception Private))
    (first second : Listener Private Public × Reception Private) : Prop where
  start : Sound cfg first.2.monotonicNow (receiveAll p cfg (.init cfg) before)
  numbered : SessionsNumbered (receiveAll p cfg (.init cfg) before)
  firstReaches : Reaches p cfg first.1 first.2 (receiveAll p cfg (.init cfg) before)
    (receive p cfg first.1 (receiveAll p cfg (.init cfg) before) first.2)
  secondReaches : Reaches p cfg second.1 second.2
    (receiveAll p cfg (receive p cfg first.1 (receiveAll p cfg (.init cfg) before) first.2).1 between)
    (receive p cfg second.1
      (receiveAll p cfg (receive p cfg first.1 (receiveAll p cfg (.init cfg) before) first.2).1 between)
      second.2)
  state : Sound cfg second.2.monotonicNow
    (receiveAll p cfg (receive p cfg first.1 (receiveAll p cfg (.init cfg) before) first.2).1 between)

lemma sessionsNumbered_init (cfg : SecureSettings) : SessionsNumbered (.init cfg) where
  below := by simp [init, RecordStore.empty, Dict.empty]
  nodup := by simp [SecureState.sessionNumbers, init, RecordStore.empty, Dict.empty]

lemma splitRun {before between : List (Listener Private Public × Reception Private)}
    {first second : Listener Private Public × Reception Private}
    (htimes : ((before ++ first :: between ++ [second]).map (fun pass => pass.2.monotonicNow)).Pairwise (· ≤ ·)) :
    SplitRun p cfg before between first second := by
  obtain ⟨hbefore, hbetween, hfirst, hsecond, hle⟩ := times_split htimes
  have hstart : Sound cfg first.2.monotonicNow (receiveAll p cfg (.init cfg) before) :=
    @sound_run _ _ p cfg first.1 first.2 _ hbefore
  have hreaches := @reaches_receive _ _ p cfg first.1 first.2 _ _ hstart le_rfl
  have hstate := sound_receiveAll (p := p) hreaches.sound hbetween hfirst hsecond hle
  refine ⟨hstart, ?_, hreaches, reaches_receive hstate le_rfl, hstate⟩
  rw [List.map_append, List.pairwise_append] at hbefore
  cases before with
  | nil => exact sessionsNumbered_init cfg
  | cons earliest rest =>
    exact sessionsNumbered_receiveAll (sessionsNumbered_init cfg) (sound_init cfg earliest.2.monotonicNow)
      hbefore.1 (first_le_of_sorted hbefore.1)

/-- In no pass of a run more frames are queued than nonces are let in. -/
lemma frames_le_nonces_of_split {passes : List (Listener Private Public × Reception Private)}
    (htimes : (passes.map (fun pass => pass.2.monotonicNow)).Pairwise (· ≤ ·)) :
    ∀ earlier pass later, passes = earlier ++ pass :: later →
      let admitted := admissions (receive p cfg pass.1 (receiveAll p cfg (.init cfg) earlier) pass.2).2
      admitted.frames.length ≤ admitted.nonces.length := by
  intro earlier pass later hsplit
  have hinitial : (earlier ++ [pass]).Sublist passes := by
    rw [hsplit]
    exact (List.singleton_sublist.mpr (by simp)).append_left earlier
  have hearlier := htimes.sublist (hinitial.map (fun pass => pass.2.monotonicNow))
  have hsound := @sound_run _ _ p cfg pass.1 pass.2 _ hearlier
  have hreaches := @reaches_receive _ _ p cfg pass.1 pass.2 _ _ hsound le_rfl
  exact hreaches.outcome.frames_le_nonces

/-- A session takes a DATA packet again only after the time for which it remembers nonces, or after as
many nonces as it remembers; and in every pass a frame is queued only when a nonce is let in. -/
theorem data_packet_accepted_again (p : Primitives Private Public) (cfg : SecureSettings)
    (before between : List (Listener Private Public × Reception Private))
    (first second : Listener Private Public × Reception Private)
    (htimes : ((before ++ first :: between ++ [second]).map
      (fun pass => pass.2.monotonicNow)).Pairwise (· ≤ ·))
    (hsame : second.2.data = first.2.data) :
    let start := receiveAll p cfg (.init cfg) before
    let accepted := receive p cfg first.1 start first.2
    let state := receiveAll p cfg accepted.1 between
    let again := receive p cfg second.1 state second.2
    (∀ earlier pass later, before ++ first :: between ++ [second] = earlier ++ pass :: later →
      let admitted := admissions (receive p cfg pass.1 (receiveAll p cfg (.init cfg) earlier) pass.2).2
      admitted.frames.length ≤ admitted.nonces.length) ∧
      ∀ number nonce nonce', (number, nonce) ∈ (admissions accepted.2).nonces →
        (number, nonce') ∈ (admissions again.2).nonces →
        first.2.monotonicNow + cfg.dataNonceTtl ≤ second.2.monotonicNow ∨
          cfg.dataNonceMaxPerSession ≤ admittedNonces p cfg number accepted.1 between := by
  intro start accepted state again
  have hrun : SplitRun p cfg before between first second := splitRun htimes
  obtain ⟨-, hbetween, hfirst, hsecond, hle⟩ := times_split htimes
  refine ⟨frames_le_nonces_of_split htimes, ?_⟩
  intro number nonce nonce' hnonce hnonce'
  obtain ⟨⟨ciphertext, hparse⟩, -⟩ := hrun.firstReaches.outcome.nonce_admitted hnonce
  obtain ⟨⟨ciphertext', hparse'⟩, e, he, e', -, hnumber, -, hadmitted⟩ :=
    hrun.secondReaches.outcome.nonce_admitted hnonce'
  have hsameNonce : nonce' = nonce := by
    rw [hsame, hparse] at hparse'
    exact (congrArg Prod.fst (Except.ok.inj hparse')).symm
  have hremembers : SessionRemembers number nonce first.2.monotonicNow
      (0 + admittedNonces p cfg number accepted.1 between) second.2.monotonicNow state :=
    (hrun.firstReaches.outcome.sessionRemembers hrun.numbered hnonce).receiveAll hrun.firstReaches.sound
      hbetween hfirst hsecond hle
  have hset := hrun.state.invariant.sessionNonces e he
  rw [hsameNonce] at hadmitted
  have hforgotten := (hremembers.remembers e he hnumber).forgotten le_rfl hadmitted
  rw [hset.ttl_eq, hset.bound_eq, Nat.zero_add] at hforgotten
  exact hforgotten

def harbourNmea : Json :=
  .obj [(str "type", .str (str "nmea")), (str "payload", .str (str "!AIVDM,1,1,,A,15M67F,0*00")),
    (str "source_id", .str (str "boat1"))]

/-- A station opens a session and confirms it. -/
def harbourStart : List (Listener Nat Nat × Reception Nat) :=
  [harbourPass (harbourHello 1000) 0, harbourPass (harbourData 1 (harbourPing 0)) 0]

/-- What a session lets in of a packet that comes at once and again after 300 s, with a ping between. -/
lemma harbour_packet_runs :
    let first := harbourPass (harbourData 2 harbourNmea) 0
    let between := [harbourPass (harbourData 3 (harbourPing 1)) 200]
    let second := harbourPass (harbourData 2 harbourNmea) 300
    let start := receiveAll harbourPrimitives defaultSettings (.init defaultSettings) harbourStart
    let accepted := receive harbourPrimitives defaultSettings first.1 start first.2
    let state := receiveAll harbourPrimitives defaultSettings accepted.1 between
    let again := receive harbourPrimitives defaultSettings second.1 state second.2
    (admissions accepted.2).nonces = [(1, List.replicate 12 2)] ∧
      (admissions again.2).nonces = [(1, List.replicate 12 2)] ∧
      (admissions accepted.2).frames.length = 1 ∧ (admissions again.2).frames.length = 1 := by
  decide +kernel

lemma harbour_packet_times :
    ((harbourStart ++ harbourPass (harbourData 2 harbourNmea) 0 ::
      [harbourPass (harbourData 3 (harbourPing 1)) 200] ++
      [harbourPass (harbourData 2 harbourNmea) 300]).map (fun pass => pass.2.monotonicNow)).Pairwise (· ≤ ·) := by
  simp only [harbourStart, List.cons_append, List.nil_append, List.map_cons, List.map_nil,
    List.pairwise_cons, harbourPass, harbourReception]
  norm_num

/-- A ping after 200 s keeps the session alive until the nonce of its first message has expired. -/
theorem data_packet_accepted_again_harbour :
    let first := harbourPass (harbourData 2 harbourNmea) 0
    let between := [harbourPass (harbourData 3 (harbourPing 1)) 200]
    let second := harbourPass (harbourData 2 harbourNmea) 300
    let start := receiveAll harbourPrimitives defaultSettings (.init defaultSettings) harbourStart
    let accepted := receive harbourPrimitives defaultSettings first.1 start first.2
    first.2.monotonicNow + defaultSettings.dataNonceTtl ≤ second.2.monotonicNow ∨
      defaultSettings.dataNonceMaxPerSession ≤
        admittedNonces harbourPrimitives defaultSettings 1 accepted.1 between := by
  obtain ⟨haccepted, hagain, -, -⟩ := harbour_packet_runs
  refine (data_packet_accepted_again harbourPrimitives defaultSettings harbourStart
    [harbourPass (harbourData 3 (harbourPing 1)) 200] (harbourPass (harbourData 2 harbourNmea) 0)
    (harbourPass (harbourData 2 harbourNmea) 300) harbour_packet_times rfl).2 1 (List.replicate 12 2)
    (List.replicate 12 2) ?_ ?_
  · rw [haccepted]
    exact List.mem_singleton_self _
  · rw [hagain]
    exact List.mem_singleton_self _

/-! ### ClientHellos -/

/-- A pass lets at most one ClientHello past the replay records. -/
lemma Outcome.replays_cases (h : Outcome p cfg listener reception state state' admitted) :
    admitted.hellos = [] ∧ AgedReplays reception.monotonicNow state state' ∨
      ∃ hello key, admitted.hellos = [hello] ∧ FreshHello p listener reception hello key ∧
        AdmittedReplay reception.monotonicNow key state state' := by
  cases h with
  | quiet _ replays admitted_eq => exact .inl ⟨congrArg Admissions.hellos admitted_eq, replays⟩
  | hello _ authentic replays _ _ admitted_eq =>
    exact .inr ⟨_, _, congrArg Admissions.hellos admitted_eq, authentic, replays⟩
  | confirmation _ _ replays _ _ _ _ _ admitted_eq =>
    exact .inl ⟨congrArg Admissions.hellos admitted_eq, replays.aged⟩
  | data _ _ replays _ _ _ _ admitted_eq =>
    exact .inl ⟨congrArg Admissions.hellos admitted_eq, replays.aged⟩

def SecureState.replaysEvicted (state : SecureState) : Nat :=
  state.counters.handshakeReplayCapacityEvicted

lemma Outcome.replaysEvicted_le (h : Outcome p cfg listener reception state state' admitted) :
    state.replaysEvicted ≤ state'.replaysEvicted := by
  rcases h.replays_cases with ⟨-, haged⟩ | ⟨hello, key, -, -, hadmitted⟩
  · exact haged.evicted.ge
  · exact hadmitted.grows

/-- The replay records hold a key that entered them at a time, until it expires. -/
def ReplayRemembers (cfg : SecureSettings) (key : Bytes) (since now : ℚ) (state : SecureState) : Prop :=
  since + cfg.handshakeReplayTtl ≤ now ∨ ∃ r ∈ state.handshakeReplays.expiryOrder,
    r.key = key ∧ r.expiresAt = since + cfg.handshakeReplayTtl

variable {key : Bytes}

lemma ReplayRemembers.later (h : ReplayRemembers cfg key since past state) (hle : past ≤ now) :
    ReplayRemembers cfg key since now state := by
  rcases h with hexpired | hrecord
  · exact .inl (hexpired.trans hle)
  · exact .inr hrecord

lemma AgedSet.mem {set set' : BoundedExpiringSet Bytes} (h : AgedSet now set set')
    {r : ExpiringRecord Bytes} (hr : r ∈ set.expiryOrder) (hlive : now < r.expiresAt) :
    r ∈ set'.expiryOrder := by
  rcases h.records.mem_left hr with hgone | ⟨r', hr', rfl⟩
  · exact absurd hlive (not_lt.mpr hgone)
  · exact hr'

/-- A pass that evicts nothing. -/
lemma Outcome.replayRemembers (h : Outcome p cfg listener reception state state' admitted)
    (hremembers : ReplayRemembers cfg key since past state) (hle : past ≤ reception.monotonicNow)
    (hevicted : state'.replaysEvicted = state.replaysEvicted) :
    ReplayRemembers cfg key since reception.monotonicNow state' := by
  rcases hremembers with hexpired | ⟨r, hr, hkey, hexpires⟩
  · exact .inl (hexpired.trans hle)
  · by_cases hlive : reception.monotonicNow < r.expiresAt
    · right
      rcases h.replays_cases with ⟨-, haged⟩ | ⟨hello, key', -, -, hadmitted⟩
      · exact ⟨r, haged.aged.mem hr hlive, hkey, hexpires⟩
      · exact ⟨r, hadmitted.kept hevicted r hr hlive, hkey, hexpires⟩
    · left
      rw [← hexpires]
      exact not_lt.mp hlive

lemma replaysEvicted_receiveAll_le {passes : List (Listener Private Public × Reception Private)}
    (hsound : Sound cfg past state) (htimes : (passes.map (fun pass => pass.2.monotonicNow)).Pairwise (· ≤ ·))
    (hpast : ∀ pass ∈ passes, past ≤ pass.2.monotonicNow) :
    state.replaysEvicted ≤ (receiveAll p cfg state passes).replaysEvicted := by
  induction passes generalizing past state with
  | nil => exact le_refl _
  | cons pass passes ih =>
    rw [List.map_cons, List.pairwise_cons] at htimes
    have hreaches := @reaches_receive _ _ p cfg pass.1 pass.2 _ _ hsound (hpast pass List.mem_cons_self)
    exact hreaches.outcome.replaysEvicted_le.trans (ih hreaches.sound htimes.2
      (fun later hlater => htimes.1 _ (List.mem_map_of_mem hlater)))

/-- Passes in the order of time that evict nothing. -/
lemma ReplayRemembers.receiveAll {passes : List (Listener Private Public × Reception Private)}
    (hremembers : ReplayRemembers cfg key since past state) (hsound : Sound cfg past state)
    (htimes : (passes.map (fun pass => pass.2.monotonicNow)).Pairwise (· ≤ ·))
    (hpast : ∀ pass ∈ passes, past ≤ pass.2.monotonicNow) (hnow : ∀ pass ∈ passes, pass.2.monotonicNow ≤ now)
    (hle : past ≤ now) (hevicted : (Udpsec.receiveAll p cfg state passes).replaysEvicted = 0) :
    ReplayRemembers cfg key since now (Udpsec.receiveAll p cfg state passes) := by
  induction passes generalizing past state with
  | nil => exact hremembers.later hle
  | cons pass passes ih =>
    rw [List.map_cons, List.pairwise_cons] at htimes
    have hfirst := hpast pass List.mem_cons_self
    have hreaches := @reaches_receive _ _ p cfg pass.1 pass.2 _ _ hsound hfirst
    have hlater : ∀ later ∈ passes, pass.2.monotonicNow ≤ later.2.monotonicNow :=
      fun later hlater => htimes.1 _ (List.mem_map_of_mem hlater)
    have hrest := @replaysEvicted_receiveAll_le _ _ p _ _ _ _ hreaches.sound htimes.2 hlater
    have hgrows := hreaches.outcome.replaysEvicted_le
    change (Udpsec.receiveAll p cfg (Udpsec.receive p cfg pass.1 state pass.2).1 passes).replaysEvicted = 0
      at hevicted
    exact ih (hreaches.outcome.replayRemembers hremembers hfirst (by omega)) hreaches.sound htimes.2 hlater
      (fun later hlater => hnow later (List.mem_cons_of_mem _ hlater)) (hnow pass List.mem_cons_self) hevicted

lemma replayRemembers_admitted (hsound : Sound cfg past state) (h : AdmittedReplay now key state state') :
    ReplayRemembers cfg key now now state' := by
  obtain ⟨live, number, dropped, -, horder, -⟩ := h.admitted.records
  rw [hsound.invariant.replays.set.ttl_eq] at horder
  refine .inr ⟨⟨number, key, now + cfg.handshakeReplayTtl⟩, ?_, rfl, rfl⟩
  rw [horder]
  simp

/-- A key that enters again has expired. -/
lemma ReplayRemembers.expired (h : ReplayRemembers cfg key since now state)
    (hadmitted : AdmittedReplay now key state state') : since + cfg.handshakeReplayTtl ≤ now := by
  rcases h with hexpired | ⟨r, hr, hkey, hexpires⟩
  · exact hexpired
  · rw [← hexpires]
    apply not_lt.mp
    intro hlive
    exact hadmitted.admitted.unseen r hr hlive hkey

/-- The replay key is read off the datagram. -/
lemma FreshHello.unique {listener' : Listener Private Public} {reception' : Reception Private}
    {hello hello' : ClientHello} {key' : Bytes} (h : FreshHello p listener reception hello key)
    (h' : FreshHello p listener' reception' hello' key') (hsame : reception'.data = reception.data) :
    hello' = hello ∧ key' = key := by
  obtain ⟨hparsed, -, -, digest, -, hdigest, -, hkey⟩ := h
  obtain ⟨hparsed', -, -, digest', -, hdigest', -, hkey'⟩ := h'
  rw [hsame, hparsed] at hparsed'
  obtain rfl := Except.ok.inj hparsed'
  rw [hdigest] at hdigest'
  obtain rfl := Except.ok.inj hdigest'
  rw [hkey] at hkey'
  exact ⟨rfl, (Except.ok.inj hkey').symm⟩

/-- As long as no replay record is evicted, a ClientHello passes twice only at the two ends of the
window around its time: first 30 s before it and then 30 s after it. -/
theorem client_hello_admitted_again (p : Primitives Private Public) (cfg : SecureSettings)
    (before between : List (Listener Private Public × Reception Private))
    (first second : Listener Private Public × Reception Private) (offset : ℚ)
    (httl : cfg.handshakeReplayTtl = 60)
    (htimes : ((before ++ first :: between ++ [second]).map (fun pass => pass.2.monotonicNow)).Pairwise (· ≤ ·))
    (hclocks : ∀ pass ∈ before ++ first :: between ++ [second], pass.2.wallNow = pass.2.monotonicNow + offset)
    (hsame : second.2.data = first.2.data)
    (hevicted : (receiveAll p cfg (.init cfg)
      (before ++ first :: between ++ [second])).counters.handshakeReplayCapacityEvicted = 0) :
    let start := receiveAll p cfg (.init cfg) before
    let accepted := receive p cfg first.1 start first.2
    let state := receiveAll p cfg accepted.1 between
    let again := receive p cfg second.1 state second.2
    ∀ hello hello', hello ∈ (admissions accepted.2).hellos → hello' ∈ (admissions again.2).hellos →
      hello' = hello ∧ first.2.wallNow = hello.timestamp - 30 ∧ second.2.wallNow = hello.timestamp + 30 := by
  intro start accepted state again hello hello' hhello hhello'
  have hrun : SplitRun p cfg before between first second := splitRun htimes
  obtain ⟨-, hbetween, hfirst, hsecond, hle⟩ := times_split htimes
  have hstate : receiveAll p cfg (.init cfg) (before ++ first :: between ++ [second]) = again.1 := by
    simp only [receiveAll, List.foldl_append, List.foldl_cons, List.foldl_nil]
    rfl
  rw [hstate] at hevicted
  have hgrows : state.replaysEvicted ≤ again.1.replaysEvicted := hrun.secondReaches.outcome.replaysEvicted_le
  have hkept : state.replaysEvicted = 0 := Nat.le_zero.mp (hevicted ▸ hgrows)
  rcases hrun.firstReaches.outcome.replays_cases with ⟨hnone, -⟩ | ⟨hello₁, key, hone, hfresh, hadmitted⟩
  · rw [hnone] at hhello
    cases hhello
  rcases hrun.secondReaches.outcome.replays_cases with ⟨hnone', -⟩ | ⟨hello₂, key', hone', hfresh', hadmitted'⟩
  · rw [hnone'] at hhello'
    cases hhello'
  rw [hone, List.mem_singleton] at hhello
  rw [hone', List.mem_singleton] at hhello'
  subst hhello hhello'
  obtain ⟨rfl, rfl⟩ := hfresh.unique hfresh' hsame
  have hstart : ReplayRemembers cfg key' first.2.monotonicNow first.2.monotonicNow accepted.1 :=
    replayRemembers_admitted hrun.start hadmitted
  have hlater : ReplayRemembers cfg key' first.2.monotonicNow second.2.monotonicNow state :=
    hstart.receiveAll hrun.firstReaches.sound hbetween hfirst hsecond hle hkept
  have hgap := hlater.expired hadmitted'
  rw [httl] at hgap
  obtain ⟨hlow, -⟩ := abs_le.mp hfresh.fresh
  obtain ⟨-, hhigh⟩ := abs_le.mp hfresh'.fresh
  have hclock := hclocks first (by simp)
  have hclock' := hclocks second (by simp)
  exact ⟨rfl, by linarith, by linarith⟩

/-- A ClientHello that comes half a minute before its time and a minute later again. -/
def harbourHelloTwice : List (Listener Nat Nat × Reception Nat) :=
  [harbourPass (harbourHello 1030) 0, harbourPass (harbourHello 1030) 60]

lemma harbourHelloTwice_times :
    (harbourHelloTwice.map (fun pass => pass.2.monotonicNow)).Pairwise (· ≤ ·) := by
  simp only [harbourHelloTwice, List.map_cons, List.map_nil, List.pairwise_cons, harbourPass, harbourReception]
  norm_num

lemma harbourHelloTwice_clocks :
    ∀ pass ∈ harbourHelloTwice, pass.2.wallNow = pass.2.monotonicNow + 1000 := by
  simp [harbourHelloTwice, harbourPass, harbourReception, add_comm]

lemma harbourHelloTwice_receiveAll :
    (receiveAll harbourPrimitives defaultSettings (.init defaultSettings)
      harbourHelloTwice).counters.handshakeReplayCapacityEvicted = 0 ∧
    (receiveAll harbourPrimitives defaultSettings (.init defaultSettings)
      harbourHelloTwice).pendingSessions.created = 2 := by
  decide +kernel

/-- A hello that is sent half a minute ahead of its time passes again when it is delivered a minute later. -/
lemma harbour_hello_runs :
    let first := harbourPass (harbourHello 1030) 0
    let second := harbourPass (harbourHello 1030) 60
    let accepted := receive harbourPrimitives defaultSettings first.1 (.init defaultSettings) first.2
    let again := receive harbourPrimitives defaultSettings second.1 accepted.1 second.2
    (admissions accepted.2).hellos.length = 1 ∧
      (admissions again.2).hellos = (admissions accepted.2).hellos := by
  decide +kernel

theorem client_hello_admitted_again_harbour :
    ∃ hello : ClientHello, (harbourPass (harbourHello 1030) 0).2.wallNow = hello.timestamp - 30 ∧
      (harbourPass (harbourHello 1030) 60).2.wallNow = hello.timestamp + 30 := by
  obtain ⟨hadmitted, hsame⟩ := harbour_hello_runs
  obtain ⟨hevicted, -⟩ := harbourHelloTwice_receiveAll
  have hpasses : harbourHelloTwice =
      [] ++ harbourPass (harbourHello 1030) 0 :: [] ++ [harbourPass (harbourHello 1030) 60] := rfl
  rw [hpasses] at hevicted
  obtain ⟨hello, hhello⟩ := List.exists_mem_of_length_pos (Nat.lt_of_lt_of_eq Nat.zero_lt_one hadmitted.symm)
  have hagain := hhello
  rw [← hsame] at hagain
  refine ⟨hello, (client_hello_admitted_again harbourPrimitives defaultSettings [] []
    (harbourPass (harbourHello 1030) 0) (harbourPass (harbourHello 1030) 60) 1000 rfl ?_ ?_ rfl
    hevicted hello hello hhello hagain).2⟩
  · exact harbourHelloTwice_times
  · exact harbourHelloTwice_clocks

end AisMixer.Udpsec
