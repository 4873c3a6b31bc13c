import CipherLake.ErasureRuns

/-! Deleting from an erasure-coded backend. As many backends as there are parity shards
may keep theirs, and as many as there are data shards make an object. -/
namespace CipherLake.ErasureBackend
open Lib StreamCipher

variable {k m : Nat} (e : ErasureCodedBackend k m) (stored : Stored k m) (path : Bytes)

/-- `Delete`, with the errors of the backends that fail and whether these still have their shard. -/
def delete (faults : Fin (k + m) → Option (Bytes × Bool)) : Except Bytes Unit × Stored k m :=
  let after : Stored k m := fun i shardPath =>
    if shardPath = e.shardMapping path i ∧ (faults i).all (!·.2) then none else stored i shardPath
  let errs := (List.finRange (k + m)).filterMap fun i => (faults i).map fun fault =>
    str "failed to delete shard " ++ decimal i ++ str ": " ++ fault.1
  if m < errs.length then
    (.error (str "too many shard delete failures (" ++ decimal errs.length ++ str "): " ++ errs.headD []), after)
  else (.ok (), after)

/-- The backends that hold a shard of the object. -/
def holders : Finset (Fin (k + m)) := Finset.univ.filter fun i => stored i (e.shardMapping path i) ≠ none

/-- `Exists`, with the backends that fail. -/
def exists_ (failing : Finset (Fin (k + m))) : Bool := k ≤ (holders e stored path \ failing).card

inductive Change (k m : Nat) where
  | put (path : Bytes) (input : Except Bytes Bytes) (outcomes : Fin (k + m) → Outcome)
  | rename (oldPath newPath missing : Bytes) (faults : Fin (k + m) → Option RenameFault)
  | delete (path : Bytes) (faults : Fin (k + m) → Option (Bytes × Bool))

def change : Change k m → Stored k m
  | .put path input outcomes => (put e stored path input outcomes).2
  | .rename oldPath newPath missing faults => (atomicRename e stored oldPath newPath missing faults).2
  | .delete path faults => (delete e stored path faults).2

def Change.Onto (path : Bytes) : Change k m → Prop
  | .put written _ _ => written = path
  | .rename _ newPath _ _ => newPath = path
  | .delete _ _ => False

variable {e stored path} {faults : Fin (k + m) → Option (Bytes × Bool)}

theorem delete_stored {other : Bytes} {i : Fin (k + m)} : (delete e stored path faults).2 i other =
    if other = e.shardMapping path i ∧ (faults i).all (!·.2) then none else stored i other := by
  unfold delete
  simp only
  split <;> rfl

/-- Only what is put under a path or renamed to it adds shards of the object. -/
theorem holders_change (separate : Separate e) {op : Change k m} (elsewhere : ¬ op.Onto path) :
    holders e (change e stored op) path ⊆ holders e stored path := by
  intro i
  have apart {other : Bytes} (differs : ¬ other = path) : e.shardMapping path i ≠ e.shardMapping other i :=
    fun same => differs (separate i same.symm)
  simp only [holders, Finset.mem_filter_univ]
  cases op with
  | put written input outcomes =>
    cases input with
    | error err => exact id
    | ok data =>
      simp only [change, put, putShards_stored, if_neg (apart elsewhere)]
      exact id
  | rename oldPath newPath missing renames =>
    have after : change e stored (.rename oldPath newPath missing renames) i (e.shardMapping path i) =
        if e.shardMapping path i = e.shardMapping oldPath i then renamedFrom (renames i) (stored i (e.shardMapping path i))
        else stored i (e.shardMapping path i) := by
      unfold change atomicRename
      simp only
      split <;> exact if_neg (apart elsewhere)
    rw [after]
    intro left none
    rw [none] at left
    unfold renamedFrom at left
    split at left
    · split at left <;> simp at left
    · exact left rfl
  | delete other others =>
    simp only [change, delete_stored]
    split
    · exact absurd rfl
    · exact id

/-- A deleted object stays deleted, until it is put or renamed to again, exactly if fewer
backends than make an object failed to delete their shard and still have it. -/
theorem deleted_stays_iff (separate : Separate e) :
    (∀ ops : List (Change k m), (∀ op ∈ ops, ¬ op.Onto path) → ∀ after,
      ops.foldl (change e) (delete e stored path faults).2 = after →
        (∀ failing, exists_ e after path failing = false) ∧ ∀ failing bytes, getShards e after path failing ≠ .ok bytes) ↔
      (Finset.univ.filter fun i => stored i (e.shardMapping path i) ≠ none ∧ (faults i).any (·.2) = true).card < k := by
  have kept : (Finset.univ.filter fun i => stored i (e.shardMapping path i) ≠ none ∧ (faults i).any (·.2) = true) =
      holders e (delete e stored path faults).2 path := by
    ext i
    simp only [holders, Finset.mem_filter_univ, delete_stored, true_and]
    rcases faults i with - | ⟨_, - | -⟩ <;> simp
  rw [kept]
  constructor
  · intro gone
    have absent := (gone [] (by simp) _ rfl).1 ∅
    simpa [exists_] using absent
  · rintro few ops elsewhere after rfl
    have within : (holders e (ops.foldl (change e) (delete e stored path faults).2) path).card < k := by
      generalize (delete e stored path faults).2 = stored at few
      induction ops generalizing stored with
      | nil => exact few
      | cons op ops ih =>
        obtain ⟨here, later⟩ := List.forall_mem_cons.mp elsewhere
        exact ih later _ ((Finset.card_le_card (holders_change separate here)).trans_lt few)
    generalize ops.foldl (change e) (delete e stored path faults).2 = after at within
    constructor
    · intro failing
      exact decide_eq_false (Nat.not_le.mpr ((Finset.card_le_card Finset.sdiff_subset).trans_lt within))
    · intro failing bytes read
      obtain ⟨-, -, -, _, -⟩ := (decode_iff e.enc bytes).mp read
      have answering : answered (answers e after path failing) ⊆ holders e after path := by
        intro i answers
        obtain ⟨_, answer⟩ := mem_answered.mp answers
        simp [holders, ((answers_ok failing).mp answer).2]
      have most := Finset.card_le_card (present_subset_answered.trans answering)
      omega

open Sample

theorem deleted_object_gone : exists_ backend
    (delete backend (step backend Run.empty first).stored Sample.path fun _ => none).2 Sample.path ∅ = false := by
  refine ((deleted_stays_iff (defaultShardMapping_separate _)).mpr ?_ [] (by simp) _ rfl).1 ∅
  decide +kernel

/-- One of two backends keeps its shard, which is enough to read the object. -/
theorem deleted_object_exists : ∃ deleted, delete backend (step backend Run.empty first).stored Sample.path
      (fun i => if i = 0 then some (str "timeout", true) else none) = (.ok (), deleted) ∧
    exists_ backend deleted Sample.path ∅ = true := by
  refine ⟨_, rfl, ?_⟩
  decide +kernel

end CipherLake.ErasureBackend
