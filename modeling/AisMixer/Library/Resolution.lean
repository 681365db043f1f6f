import AisMixer.Library.Dict
import AisMixer.Library.Fallible

/-!
# Resolving named definitions by memoised recursion

A `System` gives each defined name the names it refers to and the way to combine their
values. `resolve` is the recursion with a memo table and an explicit path; it stops at a
name without a definition, at a name that is already on the path, and when its budget of
nested evaluations is used up. `Denotes` is the value of a name by unfolding its definition.
A run that returns has computed denotations (`resolve_ok`), and each failure names a
dangling reference, a cycle, or a path longer than the budget (`resolve_error`).
-/

namespace AisMixer.Library

/-- Named definitions: what a name refers to, and its value from theirs. -/
structure System (κ υ : Type) where
  operands : κ → Option (List κ)
  combine : κ → List υ → υ

inductive ResolutionFailure (κ : Type) where
  | missing (referrer : Option κ) (name : κ)
  | cycle (path : List κ)
  | outOfFuel

namespace System

variable {κ υ : Type} [DecidableEq κ]

/-- A list of recursive calls that share the memo table. -/
def resolveList {ε : Type} (f : κ → Dict κ υ → Except ε (υ × Dict κ υ)) :
    List κ → Dict κ υ → Except ε (List υ × Dict κ υ)
  | [], memo => .ok ([], memo)
  | name :: names, memo =>
    match f name memo with
    | .error e => .error e
    | .ok (value, memo) =>
      match resolveList f names memo with
      | .error e => .error e
      | .ok (values, memo) => .ok (value :: values, memo)

/-- The closed walk that a path makes when it comes back to one of its names. -/
def cycleFrom (path : List κ) (name : κ) : List κ := path.drop (path.idxOf name) ++ [name]

def resolve (s : System κ υ) (fuel : Nat) (path : List κ) (name : κ) (memo : Dict κ υ) :
    Except (ResolutionFailure κ) (υ × Dict κ υ) :=
  match memo.get? name with
  | some value => .ok (value, memo)
  | none =>
    match s.operands name with
    | none => .error (.missing path.getLast? name)
    | some names =>
      if name ∈ path then .error (.cycle (cycleFrom path name))
      else
        match fuel with
        | 0 => .error .outOfFuel
        | fuel + 1 =>
          match resolveList (resolve s fuel (path ++ [name])) names memo with
          | .error e => .error e
          | .ok (values, memo) =>
            .ok (s.combine name values, memo.set name (s.combine name values))

variable (s : System κ υ)

/-! ### The reference graph and the value of a name -/

def References (a b : κ) : Prop := ∃ names, s.operands a = some names ∧ b ∈ names

/-- A reference to a name without a definition. -/
def Dangling (a b : κ) : Prop := s.References a b ∧ s.operands b = none

def Acyclic : Prop := ∀ a, ¬Relation.TransGen s.References a a

/-- A closed walk along references. -/
def IsCycle (path : List κ) : Prop :=
  2 ≤ path.length ∧ List.IsChain s.References path ∧ path.head? = path.getLast?

/-- The value of a name by unfolding its definition. -/
inductive Denotes : κ → υ → Prop
  | intro {a : κ} {names : List κ} (value : κ → υ) (hdef : s.operands a = some names)
      (hsub : ∀ b ∈ names, Denotes b (value b)) : Denotes a (s.combine a (names.map value))

variable {s}

omit [DecidableEq κ] in
theorem Denotes.unique {a : κ} {v w : υ} (hv : s.Denotes a v) (hw : s.Denotes a w) : v = w := by
  induction hv generalizing w with
  | @intro a names value hdef hsub ih =>
    cases hw with
    | @intro _ names' value' hdef' hsub' =>
      have hnames : names = names' := Option.some_inj.mp (hdef ▸ hdef')
      subst hnames
      have hvalues : names.map value = names.map value' :=
        List.map_congr_left (fun b hb => ih b hb (hsub' b hb))
      rw [hvalues]

omit [DecidableEq κ] in
lemma Denotes.defined {a : κ} {v : υ} (h : s.Denotes a v) : (s.operands a).isSome := by
  cases h with
  | intro value hdef hsub => rw [hdef]; rfl

omit [DecidableEq κ] in
lemma Denotes.of_references {a b : κ} {v : υ} (h : s.Denotes a v) (hab : s.References a b) :
    ∃ w, s.Denotes b w := by
  cases h with
  | @intro _ names value hdef hsub =>
    obtain ⟨names', hdef', hb⟩ := hab
    have hnames : names = names' := Option.some_inj.mp (hdef ▸ hdef')
    exact ⟨value b, hsub b (hnames ▸ hb)⟩

omit [DecidableEq κ] in
/-- A name with a value has no infinite unfolding. -/
lemma Denotes.acc {a : κ} {v : υ} (h : s.Denotes a v) : Acc (fun b c => s.References c b) a := by
  induction h with
  | @intro a names value hdef hsub ih =>
    apply Acc.intro
    intro b hb
    obtain ⟨names', hdef', hmem⟩ := hb
    have hnames : names = names' := Option.some_inj.mp (hdef ▸ hdef')
    exact ih b (hnames ▸ hmem)

omit [DecidableEq κ] in
lemma Denotes.not_on_cycle {a : κ} {v : υ} (h : s.Denotes a v) :
    ¬Relation.TransGen s.References a a := by
  have hacc := h.acc
  clear h
  induction hacc with
  | intro a hsub ih =>
    intro hcycle
    -- the cycle through `a` is also a cycle through the next name on it
    obtain ⟨b, hab, hba⟩ := Relation.TransGen.head'_iff.mp hcycle
    exact ih b hab (Relation.TransGen.tail' hba hab)

/-! ### What a call can do -/

/-- A call that returns has found the value, or has combined the values of the operands. -/
lemma resolve_eq_ok {fuel : Nat} {path : List κ} {name : κ} {memo memo' : Dict κ υ} {value : υ}
    (h : s.resolve fuel path name memo = .ok (value, memo')) :
    memo.get? name = some value ∧ memo' = memo ∨
    memo.get? name = none ∧ ∃ room names values after, fuel = room + 1 ∧ s.operands name = some names ∧
      resolveList (s.resolve room (path ++ [name])) names memo = .ok (values, after) ∧
      value = s.combine name values ∧ memo' = after.set name value := by
  rw [resolve] at h
  cases hget : memo.get? name with
  | some old =>
    simp only [hget, Except.ok.injEq, Prod.mk.injEq] at h
    exact .inl ⟨congrArg some h.1, h.2.symm⟩
  | none =>
    right
    simp only [hget] at h
    cases hdef : s.operands name with
    | none => simp [hdef] at h
    | some names =>
      simp only [hdef] at h
      by_cases hpath : name ∈ path
      · simp [hpath] at h
      rw [if_neg hpath] at h
      cases fuel with
      | zero => cases h
      | succ room =>
        simp only at h
        cases hlist : resolveList (s.resolve room (path ++ [name])) names memo with
        | error e => simp [hlist] at h
        | ok p =>
          simp only [hlist, Except.ok.injEq, Prod.mk.injEq] at h
          obtain ⟨rfl, rfl⟩ := h
          exact ⟨rfl, room, names, p.1, p.2, rfl, rfl, hlist, rfl, rfl⟩

/-- A call that fails has no definition to evaluate, comes back to its path, has no room for an evaluation, or
hands on the failure of an operand. -/
lemma resolve_eq_error {fuel : Nat} {path : List κ} {name : κ} {memo : Dict κ υ} {e : ResolutionFailure κ}
    (h : s.resolve fuel path name memo = .error e) :
    s.operands name = none ∧ e = .missing path.getLast? name ∨
    ∃ names, s.operands name = some names ∧
      (name ∈ path ∧ e = .cycle (cycleFrom path name) ∨
      name ∉ path ∧ (fuel = 0 ∧ e = .outOfFuel ∨
        ∃ room, fuel = room + 1 ∧ resolveList (s.resolve room (path ++ [name])) names memo = .error e)) := by
  rw [resolve] at h
  cases hget : memo.get? name with
  | some old => simp [hget] at h
  | none =>
    simp only [hget] at h
    cases hdef : s.operands name with
    | none =>
      simp only [hdef, Except.error.injEq] at h
      exact .inl ⟨rfl, h.symm⟩
    | some names =>
      refine .inr ⟨names, rfl, ?_⟩
      simp only [hdef] at h
      by_cases hpath : name ∈ path
      · rw [if_pos hpath, Except.error.injEq] at h
        exact .inl ⟨hpath, h.symm⟩
      rw [if_neg hpath] at h
      refine .inr ⟨hpath, ?_⟩
      cases fuel with
      | zero => exact .inl ⟨rfl, (Except.error.inj h).symm⟩
      | succ room =>
        simp only at h
        cases hlist : resolveList (s.resolve room (path ++ [name])) names memo with
        | ok p => simp [hlist] at h
        | error e' =>
          simp only [hlist, Except.error.injEq] at h
          exact .inr ⟨room, rfl, hlist.trans (congrArg _ h)⟩

/-! ### Runs that return -/

/-- Every stored value is the value of its name. -/
def Sound (s : System κ υ) (memo : Dict κ υ) : Prop :=
  ∀ a v, memo.get? a = some v → s.Denotes a v

/-- Nothing stored is lost or changed. -/
def Extends (memo memo' : Dict κ υ) : Prop := ∀ a v, memo.get? a = some v → memo'.get? a = some v

lemma Extends.trans {m m' m'' : Dict κ υ} (h : Extends m m') (h' : Extends m' m'') :
    Extends m m'' :=
  fun a v hv => h' a v (h a v hv)

/-- What a call does when it returns. -/
def Computes (s : System κ υ) (memo : Dict κ υ) (name : κ) (value : υ) (memo' : Dict κ υ) : Prop :=
  s.Denotes name value ∧ Sound s memo' ∧ memo'.get? name = some value ∧ Extends memo memo'

lemma resolveList_ok [Nonempty υ] {ε : Type} {f : κ → Dict κ υ → Except ε (υ × Dict κ υ)}
    (hf : ∀ name memo value memo', Sound s memo → f name memo = .ok (value, memo') →
      Computes s memo name value memo')
    {names : List κ} {memo memo' : Dict κ υ} {values : List υ} (hmemo : Sound s memo)
    (h : resolveList f names memo = .ok (values, memo')) :
    (∃ value : κ → υ, values = names.map value ∧ ∀ b ∈ names, s.Denotes b (value b)) ∧
      Sound s memo' ∧ Extends memo memo' ∧ ∀ b ∈ names, (memo'.get? b).isSome := by
  induction names generalizing memo values with
  | nil =>
    obtain ⟨rfl, rfl⟩ : [] = values ∧ memo = memo' := by simpa [resolveList] using h
    exact ⟨⟨fun _ => Classical.arbitrary υ, rfl, by simp⟩, hmemo, fun a v hv => hv, by simp⟩
  | cons name names ih =>
    rw [resolveList] at h
    cases hhead : f name memo with
    | error e => simp [hhead] at h
    | ok p =>
      obtain ⟨first, memo₁⟩ := p
      obtain ⟨hfirst, hmemo₁, hstored, hext₁⟩ := hf name memo first memo₁ hmemo hhead
      simp only [hhead] at h
      cases htail : resolveList f names memo₁ with
      | error e => simp [htail] at h
      | ok q =>
        obtain ⟨rest, memo₂⟩ := q
        obtain ⟨rfl, rfl⟩ : first :: rest = values ∧ memo₂ = memo' := by simpa [htail] using h
        obtain ⟨⟨value, rfl, hvalue⟩, hmemo₂, hext₂, hall⟩ := ih hmemo₁ htail
        refine ⟨⟨fun b => if b = name then first else value b, ?_, ?_⟩, hmemo₂, hext₁.trans hext₂, ?_⟩
        · rw [List.map_cons, if_pos rfl, List.cons_inj_right]
          apply List.map_congr_left
          intro b hb
          by_cases hbn : b = name
          · subst hbn
            rw [if_pos rfl]
            exact (hvalue b hb).unique hfirst
          · rw [if_neg hbn]
        · intro b hb
          show s.Denotes b (if b = name then first else value b)
          by_cases hbn : b = name
          · rw [if_pos hbn, hbn]
            exact hfirst
          · rw [if_neg hbn]
            exact hvalue b ((List.mem_cons.mp hb).resolve_left hbn)
        · intro b hb
          rcases List.mem_cons.mp hb with rfl | hb
          · rw [hext₂ b first hstored]
            rfl
          · exact hall b hb

/-- A call that returns has computed the value of its name. -/
theorem resolve_ok [Nonempty υ] {fuel : Nat} {path : List κ} {name : κ} {memo memo' : Dict κ υ}
    {value : υ} (hmemo : Sound s memo) (h : s.resolve fuel path name memo = .ok (value, memo')) :
    Computes s memo name value memo' := by
  induction fuel using Nat.strong_induction_on generalizing path name memo memo' value with
  | _ fuel ih =>
    rcases resolve_eq_ok h with ⟨hget, rfl⟩ | ⟨hget, room, names, values, after, rfl, hdef, hlist, rfl, rfl⟩
    · exact ⟨hmemo name value hget, hmemo, hget, fun a v hv => hv⟩
    obtain ⟨⟨subvalue, rfl, hsub⟩, hafter, hext, -⟩ :=
      resolveList_ok (fun n m v m' hm hv => ih room (Nat.lt_succ_self room) hm hv) hmemo hlist
    have hvalue : s.Denotes name (s.combine name (names.map subvalue)) :=
      .intro subvalue hdef hsub
    refine ⟨hvalue, ?_, by simp, ?_⟩
    · intro a v hv
      rw [Dict.get?_set] at hv
      by_cases ha : name = a
      · rw [if_pos ha] at hv
        rw [← ha, ← Option.some_inj.mp hv]
        exact hvalue
      · rw [if_neg ha] at hv
        exact hafter a v hv
    · intro a v hv
      rw [Dict.get?_set]
      by_cases ha : name = a
      · rw [ha, hv] at hget
        cases hget
      · rw [if_neg ha]
        exact hext a v hv

/-! ### Runs that fail -/

/-- A path along references, without repeats, through so many defined names. -/
def HasPath (s : System κ υ) (length : Nat) : Prop :=
  ∃ path : List κ, path.length = length ∧ path.Nodup ∧ (∀ a ∈ path, (s.operands a).isSome) ∧
    List.IsChain s.References path

/-- A failure that names what is wrong with the definitions, or a path that is too long for the budget. -/
def Explains (s : System κ υ) (budget : Nat) : ResolutionFailure κ → Prop
  | .missing (some referrer) name => s.Dangling referrer name
  | .missing none _ => False
  | .cycle path => s.IsCycle path
  | .outOfFuel => s.HasPath (budget + 1)

omit [DecidableEq κ] in
lemma resolveList_error {ε : Type} {f : κ → Dict κ υ → Except ε (υ × Dict κ υ)} {P : ε → Prop}
    {names : List κ} (hf : ∀ name ∈ names, ∀ memo e, f name memo = .error e → P e)
    {memo : Dict κ υ} {e : ε} (h : resolveList f names memo = .error e) : P e := by
  induction names generalizing memo with
  | nil => simp [resolveList] at h
  | cons name names ih =>
    rw [resolveList] at h
    cases hhead : f name memo with
    | error e' =>
      obtain rfl : e' = e := by simpa [hhead] using h
      exact hf name (by simp) memo e' hhead
    | ok p =>
      simp only [hhead] at h
      cases htail : resolveList f names p.2 with
      | error e' =>
        obtain rfl : e' = e := by simpa [htail] using h
        exact ih (fun n hn => hf n (List.mem_cons_of_mem _ hn)) htail
      | ok q => simp [htail] at h

omit [DecidableEq κ] in
/-- A path is no longer than a list of all defined names. -/
lemma HasPath.le_length {defined : List κ} (hdefined : ∀ a, (s.operands a).isSome → a ∈ defined) {length : Nat}
    (h : s.HasPath length) : length ≤ defined.length := by
  obtain ⟨path, rfl, hnodup, hpath, -⟩ := h
  have hsub : path.Subperm defined := hnodup.subperm (fun a ha => hdefined a (hpath a ha))
  exact hsub.length_le

lemma isCycle_of_mem {path : List κ} {name : κ} (hchain : List.IsChain s.References (path ++ [name]))
    (hmem : name ∈ path) : s.IsCycle (cycleFrom path name) := by
  unfold cycleFrom
  have hlt : path.idxOf name < path.length := List.idxOf_lt_length_iff.mpr hmem
  have hhead : path.drop (path.idxOf name) = name :: path.drop (path.idxOf name + 1) := by
    rw [List.drop_eq_getElem_cons hlt, List.getElem_idxOf hlt]
  refine ⟨?_, ?_, ?_⟩
  · rw [hhead]
    simp
  · have hdrop : path.drop (path.idxOf name) ++ [name] = (path ++ [name]).drop (path.idxOf name) := by
      rw [List.drop_append_of_le_length hlt.le]
    rw [hdrop]
    exact hchain.drop _
  · rw [List.getLast?_concat, hhead]
    rfl

omit [DecidableEq κ] in
/-- A path whose last name has a definition goes on to each of its operands. -/
lemma isChain_append_operand {path names : List κ} {name operand : κ}
    (hchain : List.IsChain s.References (path ++ [name])) (hdef : s.operands name = some names)
    (hmem : operand ∈ names) : List.IsChain s.References (path ++ [name] ++ [operand]) := by
  rw [List.isChain_append]
  refine ⟨hchain, by simp, ?_⟩
  intro a ha b hb
  obtain rfl : name = a := by simpa using ha
  obtain rfl : operand = b := by simpa using hb
  exact ⟨names, hdef, hmem⟩

/-- A failure explains itself. -/
theorem resolve_error {budget fuel : Nat} {path : List κ} {name : κ} {memo : Dict κ υ} {e : ResolutionFailure κ}
    (hfuel : fuel + path.length = budget) (hnodup : path.Nodup) (hpath : ∀ a ∈ path, (s.operands a).isSome)
    (hchain : List.IsChain s.References (path ++ [name])) (hroot : path = [] → (s.operands name).isSome)
    (h : s.resolve fuel path name memo = .error e) : s.Explains budget e := by
  induction fuel using Nat.strong_induction_on generalizing path name memo e with
  | _ fuel ih =>
    rcases resolve_eq_error h with ⟨hnone, rfl⟩ | ⟨names, hdef, ⟨hmem, rfl⟩ | ⟨hmem, hdeeper⟩⟩
    · cases hlast : path.getLast? with
      | none =>
        have hsome := hroot (List.getLast?_eq_none_iff.mp hlast)
        rw [hnone] at hsome
        cases hsome
      | some referrer =>
        obtain ⟨front, rfl⟩ := List.getLast?_eq_some_iff.mp hlast
        have hstep : s.References referrer name := by
          have := List.isChain_append.mp (List.append_assoc _ _ _ ▸ hchain)
          simpa using this.2.1
        exact ⟨hstep, hnone⟩
    · exact isCycle_of_mem hchain hmem
    have hnodup' : (path ++ [name]).Nodup := by
      rw [List.nodup_append]
      refine ⟨hnodup, List.nodup_singleton name, ?_⟩
      intro a ha b hb hab
      rw [List.mem_singleton] at hb
      exact hmem (hb ▸ hab ▸ ha)
    have hpath' : ∀ a ∈ path ++ [name], (s.operands a).isSome := by
      intro a ha
      rcases List.mem_append.mp ha with ha | ha
      · exact hpath a ha
      · rw [List.mem_singleton.mp ha, hdef]
        rfl
    have hlength : (path ++ [name]).length = path.length + 1 := List.length_append
    rcases hdeeper with ⟨rfl, rfl⟩ | ⟨room, rfl, hlist⟩
    · exact ⟨path ++ [name], by omega, hnodup', hpath', hchain⟩
    · refine resolveList_error (fun operand hoperand m e₀ he₀ => ?_) hlist
      exact ih room (Nat.lt_succ_self room) (by omega) hnodup' hpath' (isChain_append_operand hchain hdef hoperand)
        (by simp) he₀

omit [DecidableEq κ] in
/-- Renaming the failures of the calls renames that of the list. -/
lemma resolveList_mapError {ε ε' : Type} {f : κ → Dict κ υ → Except ε (υ × Dict κ υ)}
    {g : κ → Dict κ υ → Except ε' (υ × Dict κ υ)} (k : ε → ε')
    (hfg : ∀ name memo, g name memo = (f name memo).mapError k) (names : List κ) (memo : Dict κ υ) :
    resolveList g names memo = (resolveList f names memo).mapError k := by
  induction names generalizing memo with
  | nil => rfl
  | cons name names ih =>
    rw [resolveList, resolveList, hfg]
    cases f name memo with
    | error e => rfl
    | ok p =>
      simp only [Except.mapError, ih]
      cases resolveList f names p.2 with
      | error e => rfl
      | ok q => rfl

/-! ### Resolving every name -/

omit [DecidableEq κ] in
lemma reaches_last {a b : κ} {path : List κ} (hchain : List.IsChain s.References (a :: path))
    (hlast : (a :: path).getLast? = some b) : Relation.ReflTransGen s.References a b := by
  induction path generalizing a with
  | nil =>
    obtain rfl : a = b := by simpa using hlast
    exact .refl
  | cons c path ih =>
    rw [List.isChain_cons_cons] at hchain
    rw [List.getLast?_cons_cons] at hlast
    exact .head hchain.1 (ih hchain.2 hlast)

omit [DecidableEq κ] in
lemma IsCycle.not_acyclic {path : List κ} (h : s.IsCycle path) : ¬s.Acyclic := by
  obtain ⟨hlen, hchain, hends⟩ := h
  cases path with
  | nil => simp at hlen
  | cons a path =>
    cases path with
    | nil => simp at hlen
    | cons b path =>
      rw [List.isChain_cons_cons] at hchain
      have hlast : (b :: path).getLast? = some a := by
        rw [← List.getLast?_cons_cons (a := a), ← hends, List.head?_cons]
      intro hacyclic
      exact hacyclic a (.head' hchain.1 (reaches_last hchain.2 hlast))

/-- All names in turn, each with the whole budget. -/
def resolveAll (s : System κ υ) (budget : Nat) (names : List κ) : Except (ResolutionFailure κ) (Dict κ υ) :=
  (resolveList (s.resolve budget []) names .empty).map Prod.snd

lemma resolveAll_ok [Nonempty υ] {budget : Nat} {names : List κ} {memo : Dict κ υ}
    (h : s.resolveAll budget names = .ok memo) :
    Sound s memo ∧ ∀ a ∈ names, (memo.get? a).isSome := by
  obtain ⟨⟨values, memo'⟩, hlist, rfl⟩ := map_eq_ok_iff.mp h
  have hempty : Sound s (.empty : Dict κ υ) := by
    intro a v hv
    simp at hv
  obtain ⟨-, hsound, -, hall⟩ :=
    resolveList_ok (fun n m v m' hm hv => resolve_ok hm hv) hempty hlist
  exact ⟨hsound, hall⟩

theorem resolveAll_error {budget : Nat} {names : List κ} (hnames : ∀ a ∈ names, (s.operands a).isSome)
    {e : ResolutionFailure κ} (h : s.resolveAll budget names = .error e) : s.Explains budget e := by
  have hlist : resolveList (s.resolve budget []) names .empty = .error e := by
    unfold resolveAll at h
    cases hl : resolveList (s.resolve budget []) names (.empty : Dict κ υ) with
    | ok p => simp [hl, Except.map] at h
    | error e' =>
      obtain rfl : e' = e := by simpa [hl, Except.map] using h
      rfl
  refine resolveList_error (fun a ha m e₀ he₀ => ?_) hlist
  exact resolve_error (by simp) List.nodup_nil (by simp) (by simp) (fun _ => hnames a ha) he₀

/-- Within the budget, all names resolve exactly when nothing dangles and nothing is circular. -/
theorem resolveAll_isOk_iff [Nonempty υ] {budget : Nat} {names : List κ}
    (hnames : ∀ a, (s.operands a).isSome ↔ a ∈ names) (hbudget : s.resolveAll budget names ≠ .error .outOfFuel) :
    (∃ memo, s.resolveAll budget names = .ok memo) ↔ (∀ a b, ¬s.Dangling a b) ∧ s.Acyclic := by
  constructor
  · rintro ⟨memo, h⟩
    obtain ⟨hsound, hall⟩ := resolveAll_ok h
    have hdenotes : ∀ a, (s.operands a).isSome → ∃ v, s.Denotes a v := by
      intro a ha
      obtain ⟨v, hv⟩ := Option.isSome_iff_exists.mp (hall a ((hnames a).mp ha))
      exact ⟨v, hsound a v hv⟩
    have hsource : ∀ a b, s.References a b → ∃ v, s.Denotes a v := by
      rintro a b ⟨names', hdef, -⟩
      exact hdenotes a (by rw [hdef]; rfl)
    constructor
    · rintro a b ⟨href, hnone⟩
      obtain ⟨v, hv⟩ := hsource a b href
      obtain ⟨w, hw⟩ := hv.of_references href
      have hsome := hw.defined
      rw [hnone] at hsome
      cases hsome
    · intro a hcycle
      obtain ⟨b, hab, -⟩ := Relation.TransGen.head'_iff.mp hcycle
      obtain ⟨v, hv⟩ := hsource a b hab
      exact hv.not_on_cycle hcycle
  · rintro ⟨hdangling, hacyclic⟩
    cases h : s.resolveAll budget names with
    | ok memo => exact ⟨memo, rfl⟩
    | error e =>
      have hexplains := resolveAll_error (fun a => (hnames a).mpr) h
      cases e with
      | missing referrer name =>
        cases referrer with
        | none => exact hexplains.elim
        | some referrer => exact (hdangling referrer name hexplains).elim
      | cycle path => exact (IsCycle.not_acyclic hexplains hacyclic).elim
      | outOfFuel => exact (hbudget h).elim

end System

end AisMixer.Library
