import CipherLake.ErasureRuns
import Mathlib.Data.Fintype.Powerset

/-! Writes to an erasure-coded backend that fail as a whole. The shards written
or renamed before the failure stay, so what was under the path before is read
afterwards exactly if the mix of old and new shards is still part of a codeword
for it. -/
namespace CipherLake.ErasureBackend
open Lib List

variable {k m : Nat}

/-- A write to a path: of an input, which may fail to be read, or of the shards
of another path. -/
inductive Attempt (k m : Nat) where
  | put (input : Except Bytes Bytes) (outcomes : Fin (k + m) → Outcome)
  | rename (oldPath missing : Bytes) (faults : Fin (k + m) → Option RenameFault)

namespace Attempt

variable (e : ErasureCodedBackend k m) (stored : Stored k m) (path : Bytes)

def run : Attempt k m → Except Bytes Unit × Stored k m
  | .put input outcomes => ErasureBackend.put e stored path input outcomes
  | .rename oldPath missing faults => atomicRename e stored oldPath path missing faults

/-- The input cannot be read, or more shards fail than there are parity shards. -/
def Fails : Attempt k m → Prop
  | .put (.error _) _ => True
  | .put (.ok _) outcomes => m < (Finset.univ.filter fun i => (outcomes i).isSome).card
  | .rename oldPath _ faults =>
    m < (Finset.univ.filter fun i => (faults i).isSome ∨ stored i (e.shardMapping oldPath i) = none).card

/-- The shards that the attempt leaves under the path. -/
def left : Attempt k m → Fin (k + m) → Option Bytes
  | .put (.error _) _, i => stored i (e.shardMapping path i)
  | .put (.ok data) outcomes, i => (outcomes i).left (stored i (e.shardMapping path i)) (shardsOf e.enc data i)
  | .rename oldPath _ faults, i =>
    renamedTo (faults i) (stored i (e.shardMapping oldPath i)) (stored i (e.shardMapping path i))

end Attempt

theorem length_filterMap_finRange {n : Nat} {β : Type} (f : Fin n → Option β) :
    ((finRange n).filterMap f).length = (Finset.univ.filter fun i => (f i).isSome).card := by
  rw [length_filterMap_eq_countP, countP_eq_length_filter, Fin.univ_def]
  simp only [Finset.card, Finset.filter, Multiset.filter_coe, Multiset.coe_card, Bool.decide_eq_true]

section

variable {e : ErasureCodedBackend k m} {stored : Stored k m} {path : Bytes}

theorem run_left (attempt : Attempt k m) (i : Fin (k + m)) :
    (attempt.run e stored path).2 i (e.shardMapping path i) = attempt.left e stored path i := by
  cases attempt with
  | put input outcomes =>
    cases input with
    | error err => rfl
    | ok data =>
      change (putShards e stored path data outcomes).2 i _ = _
      rw [putShards_stored]
      exact if_pos rfl
  | rename oldPath missing faults =>
    unfold Attempt.run atomicRename
    simp only
    split <;> exact if_pos rfl

theorem run_fails (attempt : Attempt k m) : (attempt.run e stored path).1 ≠ .ok () ↔ attempt.Fails e stored := by
  cases attempt with
  | put input outcomes =>
    cases input with
    | error err => simp [Attempt.run, put, Attempt.Fails]
    | ok data =>
      change (putShards e stored path data outcomes).1 ≠ _ ↔ _
      unfold putShards Attempt.Fails
      simp only [splitAndEncode_prefixed, length_filterMap_finRange, Option.isSome_map]
      split
      · next many => simp [many]
      · next few => simp [few]
  | rename oldPath missing faults =>
    have each : ∀ i, (renameError missing (faults i) (stored i (e.shardMapping oldPath i))).isSome ↔
        (faults i).isSome ∨ stored i (e.shardMapping oldPath i) = none := by
      intro i
      unfold renameError
      cases faults i with
      | some failed => simp
      | none => cases stored i (e.shardMapping oldPath i) <;> simp
    unfold Attempt.run atomicRename Attempt.Fails
    simp only [length_filterMap_finRange, Option.isSome_map, each]
    split
    · next many => simp [many]
    · next few => simp [few]

/-- Shards from which bytes can be read: at least `k` of them are not empty, none
is if none is missing, and they are shards of one codeword that frames the bytes. -/
def Intact (E : Encoder k m) (shards : Fin (k + m) → Option Bytes) (bytes : Bytes) : Prop :=
  ∃ size data, Equal size data ∧ k ≤ (present fun i => (shards i).getD []).card ∧
    ((∀ i, shards i ≠ none) → ∀ i, shards i ≠ some []) ∧
    (∀ i shard, shards i = some shard → shard ≠ [] → shard = E.codeword data i) ∧ Frames (joined data) bytes

/-- What a read returns with all backends answering. -/
theorem get_iff (bytes : Bytes) : getShards e stored path (fun _ => none) = .ok bytes ↔
    Intact e.enc (fun i => stored i (e.shardMapping path i)) bytes := by
  have given : received (answers e stored path fun _ => none) = fun i => (stored i (e.shardMapping path i)).getD [] := by
    funext i
    unfold received answers
    cases stored i (e.shardMapping path i) <;> rfl
  have all : answered (answers e stored path fun _ => none) = Finset.univ ↔
      ∀ i, stored i (e.shardMapping path i) ≠ none := by
    simp [Finset.eq_univ_iff_forall, mem_answered, answers_ok, ← Option.ne_none_iff_exists']
  rw [getShards, decode_iff, all, given]
  refine exists_congr fun size => exists_congr fun data => and_congr Iff.rfl (and_congr Iff.rfl ?_)
  rw [unframe_iff]
  refine and_congr ?_ (and_congr ?_ Iff.rfl)
  · refine forall_congr' fun held => ?_
    rw [Finset.eq_univ_iff_forall]
    refine forall_congr' fun i => ?_
    obtain ⟨_, found⟩ := Option.ne_none_iff_exists'.mp (held i)
    simp [found]
  · unfold ErasureCode.Agree
    refine forall_congr' fun i => ?_
    cases found : stored i (e.shardMapping path i) <;> simp [found]

/-- A failed attempt leaves what was there to be read. -/
def Harmless (e : ErasureCodedBackend k m) (stored : Stored k m) (path bytes : Bytes) (attempt : Attempt k m) : Prop :=
  getShards e stored path (fun _ => none) = .ok bytes → (attempt.run e stored path).1 ≠ .ok () →
    getShards e (attempt.run e stored path).2 path (fun _ => none) = .ok bytes

/-- A failed write is harmless exactly if the old shards it left and the new ones
it made are together at least `k` shards of one codeword for the old bytes. -/
theorem harmless_iff (e : ErasureCodedBackend k m) (stored : Stored k m) (path bytes : Bytes)
    (attempt : Attempt k m) :
    Harmless e stored path bytes attempt ↔
      (Intact e.enc (fun i => stored i (e.shardMapping path i)) bytes → attempt.Fails e stored →
        Intact e.enc (attempt.left e stored path) bytes) := by
  unfold Harmless
  rw [get_iff, get_iff, run_fails]
  simp only [run_left]

end

/-! ### Two data shards and one parity shard -/

namespace Sample

/-- Bytes combined one by one. -/
def xorBytes (a b : Bytes) : Bytes := zipWith (· ^^^ ·) a b

theorem xorBytes_length {a b : Bytes} {size : Nat} (left : a.length = size) (right : b.length = size) :
    (xorBytes a b).length = size := by
  rw [xorBytes, length_zipWith, left, right, Nat.min_self]

theorem xorBytes_cancel {a b : Bytes} (same : a.length = b.length) : xorBytes a (xorBytes a b) = b := by
  induction a generalizing b with
  | nil =>
    cases b with
    | nil => rfl
    | cons y b => cases same
  | cons x a ih =>
    cases b with
    | nil => cases same
    | cons y b =>
      have rest := ih (Nat.succ.inj same)
      unfold xorBytes at rest ⊢
      rw [zipWith_cons_cons, zipWith_cons_cons, rest, ← UInt8.xor_assoc, UInt8.xor_self, UInt8.zero_xor]

theorem xorBytes_comm (a b : Bytes) : xorBytes a b = xorBytes b a := by
  unfold xorBytes
  rw [zipWith_comm]
  simp only [UInt8.xor_comm]

def xorParity (data : Fin 2 → Bytes) (_ : Fin 1) : Bytes := xorBytes (data ⟨0, Nat.two_pos⟩) (data ⟨1, Nat.one_lt_two⟩)

theorem two_of_three : ∀ positions : Finset (Fin (2 + 1)), 2 ≤ positions.card →
    (0 ∈ positions ∧ 1 ∈ positions) ∨ (0 ∈ positions ∧ 2 ∈ positions) ∨ (1 ∈ positions ∧ 2 ∈ positions) := by
  decide

/-- A missing data shard is the parity shard combined with the other one. -/
def xorSolve (shards : Fin (2 + 1) → Bytes) : Fin 2 → Bytes
  | 0 => if shards 0 = [] then xorBytes (shards 1) (shards 2) else shards 0
  | 1 => if shards 1 = [] then xorBytes (shards 0) (shards 2) else shards 1

theorem xor_determined {size : Nat} {data data' : Fin 2 → Bytes} (positions : Finset (Fin (2 + 1)))
    (sizes : ∀ i, (data i).length = size) (sizes' : ∀ i, (data' i).length = size) (many : 2 ≤ positions.card)
    (same : ∀ i ∈ positions, systematic xorParity data i = systematic xorParity data' i) : data = data' := by
  have zero : 0 ∈ positions → data 0 = data' 0 := same 0
  have one : 1 ∈ positions → data 1 = data' 1 := same 1
  have two : 2 ∈ positions → xorBytes (data 0) (data 1) = xorBytes (data' 0) (data' 1) := same 2
  have both : data 0 = data' 0 ∧ data 1 = data' 1 := by
    rcases two_of_three positions many with ⟨in0, in1⟩ | ⟨in0, in2⟩ | ⟨in1, in2⟩
    · exact ⟨zero in0, one in1⟩
    · refine ⟨zero in0, ?_⟩
      rw [← xorBytes_cancel ((sizes 0).trans (sizes 1).symm), two in2, zero in0,
        xorBytes_cancel ((sizes' 0).trans (sizes' 1).symm)]
    · refine ⟨?_, one in1⟩
      rw [← xorBytes_cancel ((sizes 1).trans (sizes 0).symm), xorBytes_comm (data 1) (data 0), two in2, one in1,
        xorBytes_comm (data' 0) (data' 1), xorBytes_cancel ((sizes' 1).trans (sizes' 0).symm)]
  funext i
  match i with
  | 0 => exact both.1
  | 1 => exact both.2

theorem xor_solved {size : Nat} {shards : Fin (2 + 1) → Bytes} (part : Partial size shards)
    (enough : 2 ≤ (present shards).card) :
    (∀ i, (xorSolve shards i).length = size) ∧ ∃ positions ⊆ present shards, 2 ≤ positions.card ∧
      ∀ i ∈ positions, systematic xorParity (xorSolve shards) i = shards i := by
  have sized i (there : shards i ≠ []) : (shards i).length = size := (part i).resolve_left there
  have enough := two_of_three _ enough
  have chosen {i j : Fin (2 + 1)} (apart : i ≠ j) (there : shards i ≠ [] ∧ shards j ≠ [])
      (sizes : (xorSolve shards 0).length = size ∧ (xorSolve shards 1).length = size)
      (right : systematic xorParity (xorSolve shards) i = shards i ∧ systematic xorParity (xorSolve shards) j = shards j) :
      (∀ i, (xorSolve shards i).length = size) ∧ ∃ positions ⊆ present shards, 2 ≤ positions.card ∧
        ∀ i ∈ positions, systematic xorParity (xorSolve shards) i = shards i := by
    refine ⟨fun n => ?_, {i, j}, ?_, (Finset.card_pair apart).ge, by simpa using right⟩
    · match n with
      | 0 => exact sizes.1
      | 1 => exact sizes.2
    · simpa [Finset.insert_subset_iff, mem_present] using there
  by_cases zero : shards 0 = []
  · -- the second data shard and the parity shard are there
    obtain ⟨one, two⟩ : shards 1 ≠ [] ∧ shards 2 ≠ [] := by simpa [zero] using enough
    have solved0 : xorSolve shards 0 = xorBytes (shards 1) (shards 2) := if_pos zero
    have solved1 : xorSolve shards 1 = shards 1 := if_neg one
    refine chosen (by decide : (1 : Fin 3) ≠ 2) ⟨one, two⟩ ?_ ⟨solved1, ?_⟩
    · rw [solved0, solved1, xorBytes_length (sized 1 one) (sized 2 two)]
      exact ⟨rfl, sized 1 one⟩
    · change xorBytes (xorSolve shards 0) (xorSolve shards 1) = shards 2
      rw [solved0, solved1, xorBytes_comm, xorBytes_cancel ((sized 1 one).trans (sized 2 two).symm)]
  have solved0 : xorSolve shards 0 = shards 0 := if_neg zero
  by_cases one : shards 1 = []
  · -- the first data shard and the parity shard are there
    have two : shards 2 ≠ [] := by simpa [zero, one] using enough
    have solved1 : xorSolve shards 1 = xorBytes (shards 0) (shards 2) := if_pos one
    refine chosen (by decide : (0 : Fin 3) ≠ 2) ⟨zero, two⟩ ?_ ⟨solved0, ?_⟩
    · rw [solved0, solved1, xorBytes_length (sized 0 zero) (sized 2 two)]
      exact ⟨sized 0 zero, rfl⟩
    · change xorBytes (xorSolve shards 0) (xorSolve shards 1) = shards 2
      rw [solved0, solved1, xorBytes_cancel ((sized 0 zero).trans (sized 2 two).symm)]
  · have solved1 : xorSolve shards 1 = shards 1 := if_neg one
    refine chosen (by decide : (0 : Fin 3) ≠ 1) ⟨zero, one⟩ ?_ ⟨solved0, solved1⟩
    rw [solved0, solved1]
    exact ⟨sized 0 zero, sized 1 one⟩

def xorCode : ErasureCode UInt8 2 1 where
  parity := xorParity
  solve := xorSolve
  parity_size sizes _ := xorBytes_length (sizes 0) (sizes 1)
  determined positions sizes sizes' many same := xor_determined positions sizes sizes' many same
  solved _ part enough := xor_solved part enough

def three : ErasureCodedBackend 2 1 := ⟨⟨xorCode, fun n => (n + 1) / 2, fun n => by omega⟩, defaultShardMapping⟩

/-- An object written without failures. -/
def written : Stored 2 1 := (putShards three (fun _ _ => none) path (str "old") fun _ => none).2

/-- An overwrite that two backends fail, each keeping what it has. -/
def overwrite : Attempt 2 1 :=
  .put (.ok (str "new")) fun i => if i = 1 then none else some (str "disk full", .kept)

end Sample

open Sample

/-- The one new shard that a failed overwrite made does not fit the two old
ones: the object that was there can no longer be read. -/
theorem failed_overwrite_destroys :
    getShards three written path (fun _ => none) = .ok (str "old") ∧
      (overwrite.run three written path).1 =
        .error (str "too many shard write failures (2): failed to put shard 0: disk full") ∧
      getShards three (overwrite.run three written path).2 path
        (fun _ => none) = .error (str "erasure-coded data verification failed: <nil>") :=
  ⟨by decide +kernel, by decide +kernel, by decide +kernel⟩

end CipherLake.ErasureBackend
