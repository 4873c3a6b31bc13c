import Mathlib.Data.Finset.Card
import Mathlib.Data.Fintype.Card
import Mathlib.Data.Fin.Tuple.Basic

/-! Systematic erasure codes: `k` data shards are extended by `m` parity shards
of the same size so that any `k` of all the shards determine the data. A shard
that is missing is empty. Missing shards are rebuilt from some `k` others, and
what is rebuilt is a codeword exactly if all the shards given agree with one. -/
namespace CipherLake.Lib

section Shards

variable {α : Type} {k m : Nat}

/-- The data shards followed by their parity shards. -/
def systematic (parity : (Fin k → List α) → Fin m → List α) (data : Fin k → List α) : Fin (k + m) → List α :=
  Fin.append data (parity data)

/-- The positions where there is a shard. -/
def present [DecidableEq α] {n : Nat} (shards : Fin n → List α) : Finset (Fin n) :=
  Finset.univ.filter fun i => shards i ≠ []

@[simp] theorem mem_present [DecidableEq α] {n : Nat} {shards : Fin n → List α} {i : Fin n} :
    i ∈ present shards ↔ shards i ≠ [] := by
  simp [present]

/-- Shards of one size, some of them missing. -/
def Partial {n : Nat} (size : Nat) (shards : Fin n → List α) : Prop :=
  ∀ i, shards i = [] ∨ (shards i).length = size

/-- A list cut into pieces of one size. -/
theorem flatten_chunks (count size : Nat) (items : List α) :
    (List.ofFn fun i : Fin count => (items.drop (i * size)).take size).flatten = items.take (count * size) := by
  induction count generalizing items with
  | zero => simp
  | succ count ih =>
    have later := ih (items.drop size)
    simp only [List.drop_drop] at later
    rw [List.ofFn_succ, List.flatten_cons]
    simp only [Fin.val_zero, Nat.zero_mul, List.drop_zero, Fin.val_succ, Nat.succ_mul]
    rw [Nat.add_comm (count * size) size, List.take_add, ← later]
    simp only [Nat.add_comm]

end Shards

/-- A code with its parity computation, and a way to solve for the data from
the shards that are there. Any `k` positions determine the data, and the
solution agrees with `k` of the shards given. -/
structure ErasureCode (α : Type) [DecidableEq α] (k m : Nat) where
  parity : (Fin k → List α) → Fin m → List α
  solve : (Fin (k + m) → List α) → Fin k → List α
  parity_size : ∀ {size data}, (∀ i, (data i).length = size) → ∀ j, (parity data j).length = size
  determined : ∀ {size data data'} (positions : Finset (Fin (k + m))), (∀ i, (data i).length = size) →
    (∀ i, (data' i).length = size) → k ≤ positions.card →
    (∀ i ∈ positions, systematic parity data i = systematic parity data' i) → data = data'
  solved : ∀ {size shards}, 0 < size → Partial size shards → k ≤ (present shards).card →
    (∀ i, (solve shards i).length = size) ∧ ∃ positions ⊆ present shards, k ≤ positions.card ∧
      ∀ i ∈ positions, systematic parity (solve shards) i = shards i

namespace ErasureCode

variable {α : Type} [DecidableEq α] {k m : Nat} (C : ErasureCode α k m)

def codeword (data : Fin k → List α) : Fin (k + m) → List α := systematic C.parity data

@[simp] theorem codeword_data (data : Fin k → List α) (i : Fin k) : C.codeword data (Fin.castAdd m i) = data i :=
  Fin.append_left _ _ i

@[simp] theorem codeword_parity (data : Fin k → List α) (j : Fin m) :
    C.codeword data (Fin.natAdd k j) = C.parity data j :=
  Fin.append_right _ _ j

theorem codeword_size {size : Nat} {data : Fin k → List α} (sized : ∀ i, (data i).length = size)
    (i : Fin (k + m)) : (C.codeword data i).length = size := by
  refine Fin.addCases (fun i => ?_) (fun j => ?_) i
  · rw [codeword_data]
    exact sized i
  · rw [codeword_parity]
    exact C.parity_size sized j

/-- Missing data shards are solved for, then missing parity shards computed. -/
def rebuild (shards : Fin (k + m) → List α) : Fin (k + m) → List α :=
  let data i := if shards (Fin.castAdd m i) = [] then C.solve shards i else shards (Fin.castAdd m i)
  Fin.append data fun j => if shards (Fin.natAdd k j) = [] then C.parity data j else shards (Fin.natAdd k j)

/-- The parity of the data shards is that of the others. -/
def Verified (shards : Fin (k + m) → List α) : Prop :=
  ∀ j, shards (Fin.natAdd k j) = C.parity (fun i => shards (Fin.castAdd m i)) j

instance (shards : Fin (k + m) → List α) : Decidable (C.Verified shards) := Nat.decidableForallFin _

/-- The shards given are some of those of the codeword. -/
def Agree (shards : Fin (k + m) → List α) (data : Fin k → List α) : Prop :=
  ∀ i, shards i ≠ [] → shards i = C.codeword data i

theorem verified_iff (shards : Fin (k + m) → List α) :
    C.Verified shards ↔ shards = C.codeword fun i => shards (Fin.castAdd m i) := by
  constructor
  · intro verified
    funext i
    refine Fin.addCases (fun i => ?_) (fun j => ?_) i
    · rw [codeword_data]
    · rw [codeword_parity]
      exact verified j
  · intro isCodeword j
    conv_lhs => rw [isCodeword]
    rw [codeword_parity]

variable {shards : Fin (k + m) → List α}

/-- Rebuilding leaves the shards that are there. -/
theorem rebuild_keeps {i : Fin (k + m)} (there : shards i ≠ []) : C.rebuild shards i = shards i := by
  revert there
  refine Fin.addCases (fun i there => ?_) (fun j there => ?_) i
  · simp only [rebuild, Fin.append_left, if_neg there]
  · simp only [rebuild, Fin.append_right, if_neg there]

/-- Shards of one codeword, at least `k` of them, are rebuilt to it. -/
theorem rebuild_agree {size : Nat} {data : Fin k → List α} (positive : 0 < size)
    (sized : ∀ i, (data i).length = size) (enough : k ≤ (present shards).card) (agree : C.Agree shards data) :
    C.rebuild shards = C.codeword data := by
  have some_missing : Partial size shards := fun i => by
    by_cases there : shards i = []
    · exact Or.inl there
    · exact Or.inr (agree i there ▸ C.codeword_size sized i)
  obtain ⟨solution, positions, given, many, solves⟩ := C.solved positive some_missing enough
  have solution_eq : C.solve shards = data := by
    refine C.determined positions solution sized many fun i member => ?_
    have there : shards i ≠ [] := mem_present.mp (given member)
    rw [solves i member]
    exact agree i there
  have data_eq : (fun i => if shards (Fin.castAdd m i) = [] then C.solve shards i else shards (Fin.castAdd m i)) =
      data := by
    funext i
    by_cases there : shards (Fin.castAdd m i) = []
    · rw [if_pos there, solution_eq]
    · rw [if_neg there, agree _ there, codeword_data]
  funext i
  refine Fin.addCases (fun i => ?_) (fun j => ?_) i
  · rw [codeword_data]
    exact (Fin.append_left _ _ i).trans (congrFun data_eq i)
  · rw [codeword_parity]
    simp only [rebuild, Fin.append_right]
    rw [data_eq]
    by_cases there : shards (Fin.natAdd k j) = []
    · rw [if_pos there]
    · rw [if_neg there, agree _ there, codeword_parity]

/-- Two codewords that agree in `k` positions are the same. -/
theorem agree_unique {size size' : Nat} {data data' : Fin k → List α} (positive : 0 < k)
    (sized : ∀ i, (data i).length = size) (sized' : ∀ i, (data' i).length = size')
    (positions : Finset (Fin (k + m))) (many : k ≤ positions.card)
    (same : ∀ i ∈ positions, C.codeword data i = C.codeword data' i) : data = data' := by
  obtain ⟨i, member⟩ := Finset.card_pos.mp (Nat.lt_of_lt_of_le positive many)
  have sizes : size = size' := by
    rw [← C.codeword_size sized i, same i member, C.codeword_size sized' i]
  subst sizes
  exact C.determined positions sized sized' many same

end ErasureCode
end CipherLake.Lib
