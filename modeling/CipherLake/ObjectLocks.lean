import CipherLake.Lib.Runs
import Mathlib.Algebra.BigOperators.Fin
import Mathlib.Algebra.Order.BigOperators.Group.Finset

/-! The locks of the tiered store. There is one lock object for each object in
use, kept in a map, counted, and taken out of the map when the count falls to
zero. `lockObject` loads the lock object before it counts itself, so a party can
be left with a lock object that is no longer in the map, while others go on with
a new one. -/
namespace CipherLake.ObjectLocks
open Lib Function

/-- How far a party is in `lockObject` or `unlockObject`, with the lock object
it has loaded. -/
inductive Phase where
  /-- Outside. -/
  | idle
  /-- `lockObject` has loaded or stored the lock object. -/
  | loaded (lock : Nat)
  /-- `lockObject` has `locksMu`, and has not counted yet. -/
  | counting (lock : Nat)
  | counted (lock : Nat)
  /-- `lockObject` waits for the mutex of the lock object. -/
  | waiting (lock : Nat)
  /-- `lockObject` has returned. -/
  | holding (lock : Nat)
  /-- `unlockObject` has loaded the lock object. -/
  | unlocking (lock : Nat)
  | unlocked (lock : Nat)
  /-- `unlockObject` has `locksMu`, and has not counted yet. -/
  | dropping (lock : Nat)
  | dropped (lock : Nat)
  /-- `unlockObject` has only to give `locksMu` back. -/
  | leaving
  deriving DecidableEq, Repr

/-- What the parties share for one key: the entry of the map, the number of lock
objects made, the mutex and the count of each, and `locksMu`; how far each party
is; and whether the program has been stopped for unlocking a free mutex. -/
structure State (P : Type) where
  entry : Option Nat
  fresh : Nat
  held : Nat → Bool
  refs : Nat → Int
  locksMu : Bool
  phase : P → Phase
  crashed : Bool

/-- Nobody has locked anything yet. -/
def State.initial (P : Type) : State P := ⟨none, 0, fun _ => false, fun _ => 0, false, fun _ => .idle, false⟩

section

variable {P : Type} [DecidableEq P]

def State.move (s : State P) (p : P) (x : Phase) : State P := { s with phase := Function.update s.phase p x }

/-- The next atomic step of a party; a step that has to wait is none. A party
that is outside calls `lockObject`, and one that has the lock `unlockObject`. -/
def next (s : State P) (p : P) : Option (State P) :=
  if s.crashed then none
  else
    match s.phase p with
    | .idle =>
      match s.entry with
      | some lock => some (s.move p (.loaded lock))
      | none => some (State.move { s with
          entry := some s.fresh
          fresh := s.fresh + 1
          held := Function.update s.held s.fresh false
          refs := Function.update s.refs s.fresh 0 } p (.loaded s.fresh))
    | .loaded lock => if s.locksMu then none else some (State.move { s with locksMu := true } p (.counting lock))
    | .counting lock =>
      some (State.move { s with refs := Function.update s.refs lock (s.refs lock + 1) } p (.counted lock))
    | .counted lock => some (State.move { s with locksMu := false } p (.waiting lock))
    | .waiting lock =>
      if s.held lock then none
      else some (State.move { s with held := Function.update s.held lock true } p (.holding lock))
    | .holding _ =>
      match s.entry with
      | none => some (s.move p .idle)
      | some lock => some (s.move p (.unlocking lock))
    | .unlocking lock =>
      if s.held lock then some (State.move { s with held := Function.update s.held lock false } p (.unlocked lock))
      else some { s with crashed := true }
    | .unlocked lock => if s.locksMu then none else some (State.move { s with locksMu := true } p (.dropping lock))
    | .dropping lock =>
      some (State.move { s with refs := Function.update s.refs lock (s.refs lock - 1) } p (.dropped lock))
    | .dropped lock =>
      some (State.move { s with entry := if s.refs lock = 0 then none else s.entry } p .leaving)
    | .leaving => some (State.move { s with locksMu := false } p .idle)

end

/-! ### Where the parties are -/

namespace Phase

/-- Between a returned `lockObject` and its `unlockObject`. -/
def Holds : Phase → Prop
  | .holding _ => True
  | _ => False

/-- The lock object a party still works with. -/
def lock : Phase → Option Nat
  | .idle | .leaving => none
  | .loaded lock | .counting lock | .counted lock | .waiting lock | .holding lock | .unlocking lock
  | .unlocked lock | .dropping lock | .dropped lock => some lock

/-- The party is in a section under `locksMu`. -/
def inside : Phase → Bool
  | .counting _ | .counted _ | .dropping _ | .dropped _ | .leaving => true
  | _ => false

/-- The party has the mutex of a lock object. -/
def owns (lock : Nat) : Phase → Bool
  | .holding own | .unlocking own => own = lock
  | _ => false

/-- What the party adds to the count of a lock object. -/
def weight (lock : Nat) : Phase → Int
  | .counted own | .waiting own | .holding own | .unlocking own | .unlocked own | .dropping own =>
    if own = lock then 1 else 0
  | _ => 0

theorem weight_nonneg (lock : Nat) (x : Phase) : 0 ≤ x.weight lock := by
  unfold weight
  split
  all_goals first | exact le_refl 0 | (split <;> omega)

variable {lock : Nat} {x : Phase}

theorem weight_eq_zero (apart : x.lock ≠ some lock) : x.weight lock = 0 := by
  unfold Phase.lock at apart
  unfold weight
  split <;> simp_all

theorem lock_of_owns (owned : x.owns lock = true) : x.lock = some lock := by
  unfold owns at owned
  unfold Phase.lock
  split <;> simp_all

/-- A party that works with a lock object has not counted itself yet, or is
counted, or has `locksMu`. -/
theorem place (works : x.lock = some lock) : x = .loaded lock ∨ x.weight lock = 1 ∨ x.inside = true := by
  unfold Phase.lock at works
  unfold weight inside
  split at works <;> simp_all

end Phase

/-! ### One owner at a time -/

/-- A mutex that is free has no owner, and one that is not has one at most. -/
def Guards {P : Type} (taken : Bool) (owner : P → Bool) : Prop :=
  ∀ p, owner p = true → taken = true ∧ ∀ q, owner q = true → q = p

namespace Guards

variable {P : Type} [DecidableEq P] {taken : Bool} {owner : P → Bool} {p : P}

theorem acquire (guards : Guards false owner) : Guards true (Function.update owner p true) := by
  have free : ∀ q, owner q ≠ true := fun q owns => Bool.false_ne_true (guards q owns).1
  have only : ∀ q, Function.update owner p true q = true → q = p := by
    intro q owns
    by_contra other
    rw [update_of_ne other] at owns
    exact free q owns
  intro q owns
  refine ⟨rfl, fun q' owns' => ?_⟩
  rw [only q owns, only q' owns']

theorem release (guards : Guards taken owner) (owned : owner p = true) :
    Guards false (Function.update owner p false) := by
  intro q owns
  by_cases same : q = p
  · rw [same, update_self] at owns
    cases owns
  · rw [update_of_ne same] at owns
    exact absurd ((guards p owned).2 q owns) same

theorem keep (guards : Guards taken owner) {b : Bool} (same : owner p = b) :
    Guards taken (Function.update owner p b) := by
  rwa [← same, update_eq_self]

end Guards

/-! ### The invariant -/

section

variable {P : Type} [DecidableEq P] [Fintype P] {s s' : State P} {p : P}

/-- Every party works with the lock object in the map, whose count is the number
of parties that have counted themselves; and each mutex has one owner at most. -/
structure Sound (s : State P) : Prop where
  entry : ∀ q lock, (s.phase q).lock = some lock → s.entry = some lock
  count : ∀ lock, s.refs lock = ∑ q, (s.phase q).weight lock
  inside : Guards s.locksMu fun q => (s.phase q).inside
  owned : ∀ lock, Guards (s.held lock) fun q => (s.phase q).owns lock

/-- A lock object is taken out of the map only while no party has loaded it
without having counted itself. -/
def Settled (s : State P) (p : P) : Prop :=
  ∀ lock, s.phase p = .dropped lock → s.refs lock = 0 → ∀ q, s.phase q ≠ .loaded lock

instance decidableSettled (s : State P) (p : P) : Decidable (Settled s p) :=
  match here : s.phase p with
  | .dropped lock =>
    decidable_of_iff (s.refs lock = 0 → ∀ q, s.phase q ≠ .loaded lock) (by simp [Settled, here])
  | .idle | .loaded _ | .counting _ | .counted _ | .waiting _ | .holding _ | .unlocking _ | .unlocked _
  | .dropping _ | .leaving => isTrue fun _ there => by cases here.symm.trans there

omit [DecidableEq P] in
theorem initial_sound : Sound (State.initial P) where
  entry _ _ works := by cases works
  count lock := by simp [State.initial, Phase.weight]
  inside _ owns := by cases owns
  owned _ _ owns := by cases owns

theorem sum_weight_update (phase : P → Phase) (p : P) (x : Phase) (lock : Nat) :
    ∑ q, (Function.update phase p x q).weight lock =
      ∑ q, (phase q).weight lock + (x.weight lock - (phase p).weight lock) := by
  have moved : (fun q => (Function.update phase p x q).weight lock) =
      Function.update (fun q => (phase q).weight lock) p (x.weight lock) :=
    comp_update (Phase.weight lock) phase p x
  rw [moved, Finset.sum_update_of_mem (Finset.mem_univ p),
    ← Finset.sum_sdiff (Finset.subset_univ {p}) (f := fun q => (phase q).weight lock), Finset.sum_singleton]
  omega

/-- What is to be shown of a step that moves one party on. -/
theorem Sound.moved (sound : Sound s) {x : Phase} {after : State P} (there : after.phase = Function.update s.phase p x)
    (entry : ∀ lock, x.lock = some lock → after.entry = some lock)
    (others : ∀ q, q ≠ p → ∀ lock, (s.phase q).lock = some lock → after.entry = some lock)
    (count : ∀ lock, after.refs lock = s.refs lock + (x.weight lock - (s.phase p).weight lock))
    (inside : Guards after.locksMu (Function.update (fun q => (s.phase q).inside) p x.inside))
    (owned : ∀ lock, Guards (after.held lock) (Function.update (fun q => (s.phase q).owns lock) p (x.owns lock))) :
    Sound after := by
  have each : ∀ {α : Type} (f : Phase → α), (fun q => f (after.phase q)) =
      Function.update (fun q => f (s.phase q)) p (f x) := by
    intro α f
    rw [there]
    exact comp_update f s.phase p x
  refine ⟨fun q lock works => ?_, fun lock => ?_, ?_, fun lock => ?_⟩
  · rw [there] at works
    by_cases same : q = p
    · rw [same, update_self] at works
      exact entry lock works
    · rw [update_of_ne same] at works
      exact others q same lock works
  · rw [there, count lock, sum_weight_update, sound.count lock]
  · rw [each Phase.inside]
    exact inside
  · rw [each (Phase.owns lock)]
    exact owned lock

/-- A step that leaves the map and the counts alone. -/
theorem Sound.passed (sound : Sound s) {x y : Phase} {held : Nat → Bool} {locksMu : Bool} (here : s.phase p = y)
    (works : x.lock = none ∨ x.lock = y.lock) (weight : ∀ lock, x.weight lock = y.weight lock)
    (inside : Guards locksMu (Function.update (fun q => (s.phase q).inside) p x.inside))
    (owned : ∀ lock, Guards (held lock) (Function.update (fun q => (s.phase q).owns lock) p (x.owns lock))) :
    Sound (State.move { s with held := held, locksMu := locksMu } p x) := by
  subst here
  refine sound.moved rfl (fun lock own => ?_) (fun q _ lock own => sound.entry q lock own) (fun lock => ?_) inside owned
  · rcases works with none | same
    · rw [none] at own
      cases own
    · exact sound.entry p lock (same ▸ own)
  · change s.refs lock = _
    rw [weight, sub_self, add_zero]

omit [DecidableEq P] in
/-- Nobody works with anything while the map has no entry. -/
theorem Sound.unused (sound : Sound s) (empty : s.entry = none) (q : P) : (s.phase q).lock = none := by
  cases works : (s.phase q).lock with
  | none => rfl
  | some lock => cases empty.symm.trans (sound.entry q lock works)

section
variable (sound : Sound s)
include sound

/-- `LoadOrStore`, where there is no entry: the new lock object has no party yet. -/
theorem Sound.stored (here : s.phase p = .idle) (empty : s.entry = none) :
    Sound (State.move { s with
      entry := some s.fresh
      fresh := s.fresh + 1
      held := Function.update s.held s.fresh false
      refs := Function.update s.refs s.fresh 0 } p (.loaded s.fresh)) := by
  have unused := sound.unused empty
  refine sound.moved rfl (fun lock own => own) (fun q _ lock own => ?_) (fun lock => ?_) ?_ fun lock => ?_
  · rw [unused q] at own
    cases own
  · have uncounted : s.refs lock = 0 := by
      rw [sound.count lock]
      refine Finset.sum_eq_zero fun q _ => Phase.weight_eq_zero ?_
      rw [unused q]
      exact Option.some_ne_none lock ∘ Eq.symm
    change Function.update s.refs s.fresh 0 lock = s.refs lock + (0 - (s.phase p).weight lock)
    rw [here, uncounted]
    by_cases same : lock = s.fresh
    · rw [same, update_self]
      rfl
    · rw [update_of_ne same, uncounted]
      rfl
  · exact sound.inside.keep (by rw [here]; rfl)
  · have unowned : ∀ q, (s.phase q).owns lock ≠ true := by
      intro q owned
      have works := Phase.lock_of_owns owned
      rw [unused q] at works
      cases works
    intro q owned
    by_cases same : q = p
    · rw [same, update_self] at owned
      cases owned
    · rw [update_of_ne same] at owned
      exact absurd owned (unowned q)

/-- A party takes `locksMu`. -/
theorem Sound.entered {x y : Phase} (here : s.phase p = y) (free : ¬ s.locksMu = true) (enters : x.inside = true)
    (works : x.lock = y.lock) (weight : ∀ l, x.weight l = y.weight l) (owns : ∀ l, y.owns l = x.owns l) :
    Sound (State.move { s with locksMu := true } p x) := by
  subst here
  refine sound.passed rfl (.inr works) weight ?_ fun l => (sound.owned l).keep (owns l)
  have guards := sound.inside
  rw [Bool.eq_false_iff.mpr free] at guards
  rw [enters]
  exact guards.acquire

/-- A party gives `locksMu` back. -/
theorem Sound.exited {x y : Phase} (here : s.phase p = y) (inside : y.inside = true) (exits : x.inside = false)
    (works : x.lock = y.lock) (weight : ∀ l, x.weight l = y.weight l) (owns : ∀ l, y.owns l = x.owns l) :
    Sound (State.move { s with locksMu := false } p x) := by
  subst here
  refine sound.passed rfl (.inr works) weight ?_ fun l => (sound.owned l).keep (owns l)
  rw [exits]
  exact sound.inside.release inside

/-- The mutex of a lock object that is free is taken. -/
theorem Sound.locked {lock : Nat} (here : s.phase p = .waiting lock) (free : s.held lock = false) :
    Sound (State.move { s with held := Function.update s.held lock true } p (.holding lock)) := by
  refine sound.passed here (.inr rfl) (fun _ => rfl) ?_ fun l => ?_
  · exact sound.inside.keep (by rw [here]; rfl)
  · by_cases same : l = lock
    · subst same
      have guards := sound.owned l
      rw [free] at guards
      rw [update_self, Phase.owns, decide_eq_true rfl]
      exact guards.acquire
    · rw [update_of_ne same]
      apply (sound.owned l).keep
      simp [here, Phase.owns, Ne.symm same]

/-- The mutex of a lock object is given back by the party that has it. -/
theorem Sound.unlocked {lock : Nat} (here : s.phase p = .unlocking lock) :
    Sound (State.move { s with held := Function.update s.held lock false } p (.unlocked lock)) := by
  refine sound.passed here (.inr rfl) (fun _ => rfl) ?_ fun l => ?_
  · exact sound.inside.keep (by rw [here]; rfl)
  · by_cases same : l = lock
    · subst same
      rw [update_self]
      apply (sound.owned l).release
      rw [here, Phase.owns, decide_eq_true rfl]
    · rw [update_of_ne same]
      apply (sound.owned l).keep
      simp [here, Phase.owns, Ne.symm same]

/-- A party counts itself in or out, under `locksMu`. -/
theorem Sound.recounted {lock : Nat} {x y : Phase} {n : Int} (here : s.phase p = y) (works : x.lock = some lock)
    (worked : y.lock = some lock) (counted : ∀ l, x.weight l - y.weight l = if l = lock then n else 0)
    (inside : y.inside = x.inside) (owned : ∀ l, y.owns l = x.owns l) :
    Sound (State.move { s with refs := Function.update s.refs lock (s.refs lock + n) } p x) := by
  subst here
  refine sound.moved rfl (fun l own => ?_) (fun q _ l own => sound.entry q l own) (fun l => ?_)
    (sound.inside.keep inside) fun l => (sound.owned l).keep (owned l)
  · rw [works] at own
    exact sound.entry p l (worked.trans own)
  · change Function.update s.refs lock (s.refs lock + n) l = _
    rw [counted l]
    by_cases same : l = lock
    · rw [same, update_self, if_pos rfl]
    · rw [update_of_ne same, if_neg same, add_zero]

/-- The entry is deleted when the last party that counted itself leaves, and no
party is about to count itself. -/
theorem Sound.left {lock : Nat} (here : s.phase p = .dropped lock) (settled : Settled s p) :
    Sound (State.move { s with entry := if s.refs lock = 0 then none else s.entry } p .leaving) := by
  have own : s.entry = some lock := sound.entry p lock (by rw [here]; rfl)
  refine sound.moved rfl (fun l works => by cases works) (fun q other l works => ?_) (fun l => ?_)
    (sound.inside.keep (by rw [here]; rfl)) fun l => (sound.owned l).keep (by rw [here]; rfl)
  · have same : lock = l := Option.some.inj (own.symm.trans (sound.entry q l works))
    subst same
    rw [own]
    apply if_neg
    intro zero
    rcases Phase.place works with uncounted | counts | inside
    · exact settled lock here zero q uncounted
    · rw [sound.count lock] at zero
      have all := (Finset.sum_eq_zero_iff_of_nonneg fun q _ => Phase.weight_nonneg lock (s.phase q)).mp zero
      rw [all q (Finset.mem_univ q)] at counts
      cases counts
    · exact other ((sound.inside p (congrArg Phase.inside here)).2 q inside)
  · rw [here]
    exact (add_zero _).symm

theorem next_sound (stepped : next s p = some s') (settled : Settled s p) : Sound s' := by
  unfold next at stepped
  split at stepped
  · cases stepped
  · cases here : s.phase p with
    | idle =>
      simp only [here] at stepped
      cases entry : s.entry with
      | none =>
        simp only [entry] at stepped
        cases stepped
        exact sound.stored here entry
      | some lock =>
        simp only [entry] at stepped
        cases stepped
        refine sound.moved rfl (fun l own => own ▸ entry) (fun q _ l own => sound.entry q l own) (fun l => ?_)
          (sound.inside.keep (by rw [here]; rfl)) fun l => (sound.owned l).keep (by rw [here]; rfl)
        rw [here]
        exact (add_zero _).symm
    | loaded lock =>
      simp only [here] at stepped
      split at stepped
      · cases stepped
      · next free =>
        cases stepped
        exact sound.entered here free rfl rfl (fun _ => rfl) fun _ => rfl
    | counting lock =>
      simp only [here] at stepped
      cases stepped
      refine sound.recounted here rfl rfl (fun l => ?_) rfl fun _ => rfl
      simp only [Phase.weight, sub_zero, eq_comm]
    | counted lock =>
      simp only [here] at stepped
      cases stepped
      exact sound.exited here rfl rfl rfl (fun _ => rfl) fun _ => rfl
    | waiting lock =>
      simp only [here] at stepped
      split at stepped
      · cases stepped
      · next free =>
        cases stepped
        exact sound.locked here (Bool.eq_false_iff.mpr free)
    | holding own =>
      have entry := sound.entry p own (by rw [here]; rfl)
      simp only [here, entry] at stepped
      cases stepped
      refine sound.passed here (.inr rfl) (fun _ => rfl) ?_ fun l => ?_
      · exact sound.inside.keep (by rw [here]; rfl)
      · exact (sound.owned l).keep (by rw [here]; rfl)
    | unlocking lock =>
      have held : s.held lock = true := (sound.owned lock p (by simp [here, Phase.owns])).1
      simp only [here, held, if_true] at stepped
      cases stepped
      exact sound.unlocked here
    | unlocked lock =>
      simp only [here] at stepped
      split at stepped
      · cases stepped
      · next free =>
        cases stepped
        exact sound.entered here free rfl rfl (fun _ => rfl) fun _ => rfl
    | dropping lock =>
      simp only [here] at stepped
      cases stepped
      refine sound.recounted here rfl rfl (fun l => ?_) rfl fun _ => rfl
      simp only [Phase.weight]
      by_cases same : l = lock
      · simp [same]
      · simp [same, Ne.symm same]
    | dropped lock =>
      simp only [here] at stepped
      cases stepped
      exact sound.left here settled
    | leaving =>
      simp only [here] at stepped
      cases stepped
      exact sound.exited here rfl rfl rfl (fun _ => rfl) fun _ => rfl

end

/-- At most one party is between a returned `lockObject` and its `unlockObject`. -/
def Exclusive (s : State P) : Prop := ∀ p q, (s.phase p).Holds → (s.phase q).Holds → p = q

omit [DecidableEq P] in
theorem Sound.exclusive (sound : Sound s) : Exclusive s := by
  intro p q holds holds'
  obtain ⟨lock, here⟩ : ∃ lock, s.phase p = .holding lock := by
    cases there : s.phase p <;> simp_all [Phase.Holds]
  obtain ⟨lock', here'⟩ : ∃ lock, s.phase q = .holding lock := by
    cases there : s.phase q <;> simp_all [Phase.Holds]
  -- both hold the mutex of the lock object in the map
  have one : lock = lock' := Option.some.inj <|
    (sound.entry p lock (by rw [here]; rfl)).symm.trans (sound.entry q lock' (by rw [here']; rfl))
  subst one
  exact (sound.owned lock q (by simp [here', Phase.owns])).2 p (by simp [here, Phase.owns])

end

/-- For any number of parties, in every run in which no lock object is taken out
of the map while a party has loaded it and not counted itself, the parties
exclude each other. -/
theorem lock_excludes {P : Type} [DecidableEq P] [Fintype P] (schedule : List P)
    (settled : Runs.Throughout next Settled (State.initial P) schedule) :
    Runs.Always next Exclusive (State.initial P) schedule := by
  have always : Runs.Always next Sound (State.initial P) schedule :=
    settled.always (fun p _ s s' stepped sound met => next_sound sound stepped met) initial_sound
  exact always.mono fun s sound => sound.exclusive

/-- One party after the other. -/
theorem turns_exclude :
    Runs.Always next Exclusive (State.initial Bool) (List.replicate 11 false ++ List.replicate 11 true) :=
  lock_excludes _ (by decide)

/-- Two parties have the lock at once: the second loads the lock object, the
first gives it back and takes the lock again with a new one, and the second goes
on with the old. -/
theorem lock_held_twice :
    let schedule := List.replicate 5 false ++ [true] ++ List.replicate 6 false ++ List.replicate 5 false ++
      List.replicate 4 true
    (schedule.foldlM next (State.initial Bool)).map (fun s => (s.phase false, s.phase true)) =
      some (.holding 1, .holding 0) := by
  decide

end CipherLake.ObjectLocks
