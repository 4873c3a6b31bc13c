import CipherLake.ErasureRecovery

/-! Sequences of writes to an erasure-coded backend in which some backends fail
or lose their shards. A backend that missed an overwrite still holds the shard
of the older object. -/
namespace CipherLake.ErasureBackend
open Lib

variable {k m : Nat}

/-! ### Runs -/

/-- The backends, with what a run has to remember of every path: the bytes of
the last write that returned no error, and the backends that do not hold its
shard as far as the failures tell. -/
structure Run (k m : Nat) where
  stored : Stored k m
  latest : Bytes → Option Bytes
  missed : Bytes → Finset (Fin (k + m))

def Run.empty : Run k m := ⟨fun _ _ => none, fun _ => none, fun _ => ∅⟩

inductive Event (k m : Nat) where
  | put (path data : Bytes) (outcomes : Fin (k + m) → Outcome)
  | lose (idx : Fin (k + m)) (path : Bytes)

/-- The backends that failed a write, or whose shard a write that failed as a
whole replaced. -/
def missing (outcomes : Fin (k + m) → Outcome) (result : Except Bytes Unit) (before : Finset (Fin (k + m))) :
    Finset (Fin (k + m)) :=
  match result with
  | .ok () => Finset.univ.filter fun i => (outcomes i).isSome
  | .error _ => before ∪ Finset.univ.filter fun i => (outcomes i).all (·.2 ≠ .kept)

def step (e : ErasureCodedBackend k m) (r : Run k m) : Event k m → Run k m
  | .put path data outcomes =>
    let (result, stored) := putShards e r.stored path data outcomes
    { stored
      latest := fun p => if p = path ∧ result = .ok () then some data else r.latest p
      missed := fun p => if p = path then missing outcomes result (r.missed p) else r.missed p }
  | .lose idx path =>
    { r with
      stored := fun i shardPath =>
        if i = idx ∧ shardPath = e.shardMapping path idx then none else r.stored i shardPath
      missed := fun p => if p = path then insert idx (r.missed p) else r.missed p }

/-- The data of a write is no longer than a slice can be. -/
def Event.Sized : Event k m → Prop
  | .put _ data _ => data.length < 2 ^ 63
  | .lose _ _ => True

inductive Reachable (e : ErasureCodedBackend k m) : Run k m → Prop where
  | empty : Reachable e Run.empty
  | event {r : Run k m} (event : Event k m) : event.Sized → Reachable e r → Reachable e (step e r event)

/-- Different objects have different shards on every backend. -/
def Separate (e : ErasureCodedBackend k m) : Prop := ∀ idx, Function.Injective (e.shardMapping · idx)

theorem defaultShardMapping_separate (E : Encoder k m) : Separate ⟨E, defaultShardMapping⟩ := by
  intro idx path path' same
  simp only [defaultShardMapping, List.append_assoc] at same
  exact List.append_cancel_right same

/-- What holds of the shards in every run: each is a shard of some data, and a
backend that missed nothing holds its shard of the latest data. -/
structure Sound (e : ErasureCodedBackend k m) (r : Run k m) : Prop where
  written : ∀ path i shard, r.stored i (e.shardMapping path i) = some shard →
    ∃ data, shard = shardsOf e.enc data i
  held : ∀ path data, r.latest path = some data → ∀ i, i ∉ r.missed path →
    r.stored i (e.shardMapping path i) = some (shardsOf e.enc data i)
  sized : ∀ path data, r.latest path = some data → data.length < 2 ^ 63

theorem putShards_stored (e : ErasureCodedBackend k m) (stored : Stored k m) (path data : Bytes)
    (outcomes : Fin (k + m) → Outcome) :
    (putShards e stored path data outcomes).2 = fun (i : Fin (k + m)) shardPath =>
      if shardPath = e.shardMapping path i then
        (outcomes i).left (stored i shardPath) (shardsOf e.enc data i) else stored i shardPath := by
  unfold putShards
  simp only [splitAndEncode_prefixed]
  split <;> rfl

/-- A write leaves the new shard or, if it failed, possibly the old one. -/
theorem Outcome.left_cases {outcome : Outcome} {before : Option Bytes} {shard found : Bytes}
    (after : outcome.left before shard = some found) : found = shard ∨ before = some found := by
  rcases outcome with _ | ⟨_, _ | _ | _⟩
  · exact .inl (Option.some.inj after).symm
  · exact .inr after
  · cases after
  · exact .inl (Option.some.inj after).symm

variable {e : ErasureCodedBackend k m}

theorem sound_put (separate : Separate e) {r : Run k m} (sound : Sound e r)
    (path data : Bytes) (outcomes : Fin (k + m) → Outcome) (small : data.length < 2 ^ 63) :
    Sound e (step e r (.put path data outcomes)) := by
  have stored := putShards_stored e r.stored path data outcomes
  simp only [step]
  generalize putShards e r.stored path data outcomes = out at stored ⊢
  obtain ⟨result, _⟩ := out
  subst stored
  refine ⟨fun p i shard found => ?_, fun p d latest i held => ?_, fun p d latest => ?_⟩
  · simp only at found
    split at found
    · rcases Outcome.left_cases found with rfl | before
      · exact ⟨data, rfl⟩
      · exact sound.written p i shard before
    · exact sound.written p i shard found
  · simp only at latest held ⊢
    by_cases own : p = path
    · subst own
      rw [if_pos rfl] at held ⊢
      cases result with
      | ok done =>
        rw [if_pos ⟨rfl, rfl⟩] at latest
        cases latest
        have made : outcomes i = none := by simpa [missing] using held
        rw [made]
        rfl
      | error err =>
        rw [if_neg (by simp)] at latest
        simp only [missing, Finset.mem_union, Finset.mem_filter_univ, not_or] at held
        have before := sound.held p d latest i held.1
        cases outcome : outcomes i with
        | none => simp [outcome] at held
        | some failed =>
          obtain ⟨err, remains⟩ := failed
          have kept : remains = .kept := by simpa [outcome] using held.2
          subst kept
          exact before
    · rw [if_neg fun same => own (separate i same)]
      rw [if_neg own] at held
      rw [if_neg fun both => own both.1] at latest
      exact sound.held p d latest i held
  · simp only at latest
    split at latest
    · cases latest
      exact small
    · exact sound.sized p d latest

theorem sound_lose (separate : Separate e) {r : Run k m} (sound : Sound e r)
    (idx : Fin (k + m)) (path : Bytes) : Sound e (step e r (.lose idx path)) := by
  refine ⟨fun p i shard found => ?_, fun p d latest i held => ?_, sound.sized⟩
  · simp only [step] at found
    split at found
    · cases found
    · exact sound.written p i shard found
  · simp only [step] at held ⊢
    by_cases own : p = path
    · subst own
      rw [if_pos rfl, Finset.mem_insert, not_or] at held
      rw [if_neg fun both => held.1 both.1]
      exact sound.held p d latest i held.2
    · rw [if_neg own] at held
      rw [if_neg]
      · exact sound.held p d latest i held
      · rintro ⟨rfl, same⟩
        exact own (separate i same)

theorem reachable_sound (separate : Separate e) {r : Run k m} (reached : Reachable e r) : Sound e r := by
  induction reached with
  | empty => exact ⟨nofun, nofun, nofun⟩
  | event event small _ ih =>
    cases event with
    | put path data outcomes => exact sound_put separate ih path data outcomes small
    | lose idx path => exact sound_lose separate ih idx path

/-! ### Reads -/

section Reads

variable {e : ErasureCodedBackend k m} {r : Run k m} {path data : Bytes} (failing : Fin (k + m) → Option Bytes)

theorem answers_ok {stored : Stored k m} {i : Fin (k + m)} {shard : Bytes} :
    answers e stored path failing i = .ok shard ↔ failing i = none ∧ stored i (e.shardMapping path i) = some shard := by
  unfold answers
  cases failing i with
  | some err => simp
  | none => cases stored i (e.shardMapping path i) <;> simp

theorem answers_nonempty (sound : Sound e r) :
    ∀ i shard, answers e r.stored path failing i = .ok shard → shard ≠ [] := by
  intro i shard answer
  obtain ⟨data, rfl⟩ := sound.written path i shard ((answers_ok failing).mp answer).2
  exact shardsOf_ne_nil e.enc data i

/-- The backends that hold their shard of the latest data and answer. -/
def current (r : Run k m) (path : Bytes) (failing : Fin (k + m) → Option Bytes) : Finset (Fin (k + m)) :=
  Finset.univ.filter fun i => i ∉ r.missed path ∧ failing i = none

theorem current_answers (sound : Sound e r) (latest : r.latest path = some data) {i : Fin (k + m)}
    (isCurrent : i ∈ current r path failing) : answers e r.stored path failing i = .ok (shardsOf e.enc data i) := by
  obtain ⟨held, answering⟩ := (Finset.mem_filter_univ i).mp isCurrent
  exact (answers_ok failing).mpr ⟨answering, sound.held path data latest i held⟩

/-- At most `m` backends that missed the latest write or do not answer leave
`k` others. -/
theorem current_card (few : (Finset.univ.filter fun i => i ∈ r.missed path ∨ (failing i).isSome).card ≤ m) :
    k ≤ (current r path failing).card := by
  have both := Finset.card_filter_add_card_filter_not (s := Finset.univ)
    (fun i : Fin (k + m) => i ∈ r.missed path ∨ (failing i).isSome)
  have same : (Finset.univ.filter fun i : Fin (k + m) => ¬ (i ∈ r.missed path ∨ (failing i).isSome)) =
      current r path failing := by
    ext i
    simp [current]
  rw [same, Finset.card_univ, Fintype.card_fin] at both
  omega

/-- Shards of one codeword among which are `k` of the latest data are shards of
that data. -/
theorem consistent_current (sound : Sound e r) (latest : r.latest path = some data)
    (many : k ≤ (current r path failing).card) {size : Nat} {shards : Fin k → Bytes} (sizes : Equal size shards)
    (consistent : Consistent e.enc (answers e r.stored path failing) shards) :
    shards = pieces e.enc (prefixed data) := by
  have own := (pieces_equal e.enc (prefixed_ne_nil data)).2
  refine e.enc.agree_unique e.enc.positive sizes.2 own _ many fun i isCurrent => ?_
  exact (consistent i _ (current_answers failing sound latest isCurrent)).symm

/-- In every run, and for every read that at most `m` backends spoil by having
missed or lost their shard of the latest write or by not answering: it returns
the latest data exactly if no backend answers with another shard. -/
theorem latest_returned_iff (separate : Separate e) (reached : Reachable e r) (latest : r.latest path = some data)
    (few : (Finset.univ.filter fun i => i ∈ r.missed path ∨ (failing i).isSome).card ≤ m) :
    getShards e r.stored path failing = .ok data ↔
      ∀ i shard, answers e r.stored path failing i = .ok shard → shard = shardsOf e.enc data i := by
  have sound := reachable_sound separate reached
  have many := current_card failing few
  rw [getShards, decode_ok_iff (answers_nonempty failing sound)]
  constructor
  · rintro ⟨_, _, sizes, -, consistent, -⟩
    have own := consistent_current failing sound latest many sizes consistent
    subst own
    exact consistent
  · intro consistent
    have answering : current r path failing ⊆ answered (answers e r.stored path failing) := fun i isCurrent =>
      mem_answered.mpr ⟨_, current_answers failing sound latest isCurrent⟩
    have fits := Nat.lt_trans (sound.sized path data latest) (by decide : (2 : Nat) ^ 63 < 2 ^ 64)
    exact ⟨_, _, pieces_equal e.enc (prefixed_ne_nil data), Nat.le_trans many (Finset.card_le_card answering),
      consistent, unframe_joined e.enc data fits⟩

/-- The shards that answer, at least `k` of them, are all of one codeword, and
it frames other bytes. -/
def Misleading (E : Encoder k m) (answers : Fin (k + m) → Except Bytes Bytes) (data : Bytes) : Prop :=
  ∃ size shards, Equal size shards ∧ k ≤ (answered answers).card ∧ Consistent E answers shards ∧
    ∃ bytes, bytes ≠ data ∧ Frames (joined shards) bytes

theorem current_not_misleading (sound : Sound e r) (latest : r.latest path = some data)
    (many : k ≤ (current r path failing).card) : ¬ Misleading e.enc (answers e r.stored path failing) data := by
  rintro ⟨size, shards, sizes, -, consistent, bytes, other, framed⟩
  have own := consistent_current failing sound latest many sizes consistent
  subst own
  have fits := Nat.lt_trans (sound.sized path data latest) (by decide : (2 : Nat) ^ 63 < 2 ^ 64)
  have read := (unframe_iff _ _).mpr framed
  rw [unframe_joined e.enc data fits] at read
  exact other (Except.ok.inj read).symm

/-- In every run a read returns nothing but the bytes of the latest write,
exactly if the answering shards do not pass for other bytes. -/
theorem only_latest_returned_iff (separate : Separate e) (reached : Reachable e r)
    (latest : r.latest path = some data) :
    (∀ bytes, getShards e r.stored path failing = .ok bytes → r.latest path = some bytes) ↔
      ¬ Misleading e.enc (answers e r.stored path failing) data := by
  have sound := reachable_sound separate reached
  simp only [getShards, decode_ok_iff (answers_nonempty failing sound), unframe_iff, latest, Option.some.injEq]
  constructor
  · rintro only ⟨size, shards, sizes, enough, consistent, bytes, other, framed⟩
    exact other (only bytes ⟨size, shards, sizes, enough, consistent, framed⟩).symm
  · rintro honest bytes ⟨size, shards, sizes, enough, consistent, framed⟩
    by_contra other
    exact honest ⟨size, shards, sizes, enough, consistent, bytes, Ne.symm other, framed⟩

end Reads

/-! ### One data shard and one parity shard -/

namespace Sample

theorem systematic_copy (data : Fin 1 → Bytes) (i : Fin (1 + 1)) :
    systematic (fun (data : Fin 1 → Bytes) (_ : Fin 1) => data 0) data i = data 0 := by
  refine Fin.addCases (fun i => ?_) (fun i => ?_) i
  · rw [systematic, Fin.append_left, Subsingleton.elim i 0]
  · rw [systematic, Fin.append_right]

/-- The code for one data shard: its parity shard is a copy. -/
def mirror : ErasureCode UInt8 1 1 where
  parity data _ := data 0
  solve shards _ := if shards 0 = [] then shards 1 else shards 0
  parity_size sizes _ := sizes 0
  determined := by
    intro size data data' positions _ _ many same
    obtain ⟨i, member⟩ := Finset.card_pos.mp many
    have own := same i member
    rw [systematic_copy, systematic_copy] at own
    funext j
    rw [Subsingleton.elim j 0, own]
  solved := by
    intro size shards positive part enough
    obtain ⟨i, member⟩ := Finset.card_pos.mp enough
    rw [mem_present] at member
    obtain ⟨chosen, there, eq⟩ : ∃ chosen, shards chosen ≠ [] ∧
        (if shards 0 = [] then shards 1 else shards 0) = shards chosen := by
      by_cases first : shards 0 = []
      · rw [if_pos first]
        refine ⟨1, fun second => member ?_, rfl⟩
        match i with
        | 0 => exact first
        | 1 => exact second
      · rw [if_neg first]
        exact ⟨0, first, rfl⟩
    rw [eq]
    refine ⟨fun _ => (part chosen).resolve_left there, {chosen}, ?_, Nat.le_refl 1, fun j isChosen => ?_⟩
    · rw [Finset.singleton_subset_iff, mem_present]
      exact there
    · rw [systematic_copy, Finset.mem_singleton.mp isChosen]

/-- A single shard holds all of the object. -/
def backend : ErasureCodedBackend 1 1 := ⟨⟨mirror, id, fun n => by simp⟩, defaultShardMapping⟩

def path : Bytes := str "bucket/key"

def first : Event 1 1 := .put path (str "old") fun _ => none

/-- A write that backend 1 fails. -/
def second : Event 1 1 := .put path (str "new") fun i => if i = 1 then some (str "timeout", .kept) else none

def created : Run 1 1 := step backend Run.empty second
def overwritten : Run 1 1 := step backend (step backend Run.empty first) second

theorem first_sized : first.Sized := by
  change (str "old").length < 2 ^ 63
  decide

theorem second_sized : second.Sized := by
  change (str "new").length < 2 ^ 63
  decide

theorem created_reachable : Reachable backend created := .event second second_sized .empty
theorem overwritten_reachable : Reachable backend overwritten :=
  .event second second_sized (.event first first_sized .empty)

end Sample

open Sample

/-- One of two backends missed the overwrite: nothing can be read although the
other holds all of the new object. -/
theorem overwrite_unreadable : Reachable backend overwritten ∧ overwritten.latest path = some (str "new") ∧
      (overwritten.missed path).card = 1 ∧
      getShards backend overwritten.stored path (fun _ => none) =
        .error (str "erasure-coded data verification failed: <nil>") :=
  ⟨overwritten_reachable, by decide +kernel, by decide +kernel, by decide +kernel⟩

/-- The backend with the new object does not answer: the old one is returned. -/
theorem overwritten_bytes_returned : Reachable backend overwritten ∧ overwritten.latest path = some (str "new") ∧
      getShards backend overwritten.stored path
          (fun i => if i = 0 then some (str "timeout") else none) = .ok (str "old") :=
  ⟨overwritten_reachable, by decide +kernel, by decide +kernel⟩

/-- The same failed backend is no harm when it holds no older shard. -/
theorem created_readable : getShards backend created.stored path (fun _ => none) = .ok (str "new") := by
  refine (latest_returned_iff _ (defaultShardMapping_separate _) created_reachable (by decide +kernel)
    (by decide +kernel)).mpr fun i shard answer => ?_
  match i with
  | 0 =>
    have own : answers backend created.stored path (fun _ => none) 0 =
        .ok (shardsOf backend.enc (str "new") 0) := by decide +kernel
    exact Except.ok.inj (answer.symm.trans own)
  | 1 =>
    have missing : answers backend created.stored path (fun _ => none) 1 =
        .error (str "object not found") := by decide +kernel
    exact absurd (answer.symm.trans missing) (by simp)

/-- Nor does it pass for other bytes. -/
theorem created_only_latest : Reachable backend created ∧ created.latest path = some (str "new") ∧
      ∀ bytes, getShards backend created.stored path (fun _ => none) = .ok bytes →
        created.latest path = some bytes := by
  have latest : created.latest path = some (str "new") := by decide +kernel
  have sound := reachable_sound (defaultShardMapping_separate _) created_reachable
  refine ⟨created_reachable, latest, ?_⟩
  exact (only_latest_returned_iff _ (defaultShardMapping_separate _) created_reachable latest).mpr
    (current_not_misleading _ sound latest (by decide +kernel))

end CipherLake.ErasureBackend
