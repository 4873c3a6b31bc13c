import CipherLake.PolicySpecification

/-! The substitution of variable references. After each replacement the loop looks at
the whole text again, so what it does next depends on the values that it has put in. -/
namespace CipherLake.Iam
open Lib List

/-- The reference that the loop takes from a text: what stands before it, its name,
what stands behind it. -/
def firstReference (text : Bytes) : Option (Bytes × Bytes × Bytes) :=
  (index text (str "$\x7b")).bind fun start => (index (text.drop start) (str "\x7d")).map fun offset =>
    (text.take start, (text.drop (start + 2)).take (offset - 2), text.drop (start + offset + 1))

section
variable (L : Library) (ctx : EvalContext) (value : Bytes)

/-- The first references of the value replaced, and what is left of it. -/
inductive Stage : Bytes → Bytes → Prop
  | start : Stage [] value
  | next {done rest before name behind : Bytes} (stage : Stage done rest)
      (found : firstReference rest = some (before, name, behind)) :
      Stage (done ++ before ++ resolveConditionKey L name ctx) behind

/-- The reference that the loop takes does not begin in what is done. -/
def Inert (done rest : Bytes) : Prop := ∀ found, firstReference (done ++ rest) = some found → done.length ≤ found.1.length

theorem resolve_round (fuel : Nat) (text : Bytes) :
    resolveVariableSubstitution L ctx (fuel + 1) text = (firstReference text).elim (some text) fun found =>
      resolveVariableSubstitution L ctx fuel (found.1 ++ resolveConditionKey L found.2.1 ctx ++ found.2.2) := by
  rw [resolveVariableSubstitution, firstReference]
  cases index text (str "$\x7b") with
  | none => rfl
  | some start =>
    simp only [Option.bind_some]
    cases index (text.drop start) (str "\x7d") <;> rfl

end

theorem index_append (a b sub : Bytes) :
    (∃ i < a.length, index (a ++ b) sub = some i) ∨ index (a ++ b) sub = (index b sub).map (· + a.length) := by
  induction a with
  | nil => exact .inr (by simp)
  | cons c a ih =>
    rw [cons_append, index]
    split
    · exact .inl ⟨0, Nat.succ_pos _, rfl⟩
    · rcases ih with ⟨i, within, found⟩ | later
      · exact .inl ⟨i + 1, Nat.succ_lt_succ within, by rw [found]; rfl⟩
      · refine .inr ?_
        rw [later, Option.map_map]
        rfl

theorem index_brace_none {text : Bytes} : index text (str "\x7d") = none ↔ 125 ∉ text := by
  have brace : str "\x7d" = [125] := by decide
  rw [brace]
  induction text with
  | nil => simp [index]
  | cons c text ih =>
    by_cases same : 125 = c
    · simp [index, hasPrefix, same]
    · simp [index, hasPrefix, same, ih]

theorem inert_iff {done rest : Bytes} :
    Inert done rest ↔ firstReference (done ++ rest) = (firstReference rest).map fun found => (done ++ found.1, found.2) := by
  constructor
  · intro inert
    rcases index_append done rest (str "$\x7b") with ⟨i, within, opened⟩ | later
    · -- a reference that begins in what is done is never closed
      have unclosed : index ((done ++ rest).drop i) (str "\x7d") = none := by
        cases closed : index ((done ++ rest).drop i) (str "\x7d") with
        | none => rfl
        | some offset =>
          have after := inert _ (by rw [firstReference, opened, Option.bind_some, closed]; rfl)
          rw [length_take] at after
          omega
      have plain : 125 ∉ rest := fun held => by
        refine index_brace_none.mp unclosed ?_
        rw [drop_append_of_le_length (Nat.le_of_lt within)]
        exact mem_append_right _ held
      have nothing : firstReference rest = none := by
        unfold firstReference
        cases index rest (str "$\x7b") with
        | none => rfl
        | some j =>
          rw [Option.bind_some, index_brace_none.mpr fun held => plain (mem_of_mem_drop held)]
          rfl
      rw [nothing, firstReference, opened, Option.bind_some, unclosed]
      rfl
    · unfold firstReference
      rw [later]
      cases index rest (str "$\x7b") with
      | none => rfl
      | some j =>
        have behind (k : Nat) : (done ++ rest).drop (j + done.length + k) = rest.drop (j + k) := by
          rw [show j + done.length + k = done.length + (j + k) by omega, drop_append]
          simp
        have front : (done ++ rest).take (j + done.length) = done ++ rest.take j := by
          rw [Nat.add_comm, take_append]
          simp
        have here := behind 0
        rw [Nat.add_zero, Nat.add_zero] at here
        simp only [Option.map_some, Option.bind_some, here, front, Nat.add_assoc _ _ 1, behind, Option.map_map]
        rfl
  · intro same found taken
    rw [same] at taken
    obtain ⟨_, -, rfl⟩ := Option.map_eq_some_iff.mp taken
    simp

section
variable {L : Library} {ctx : EvalContext} {value : Bytes}

/-- What is left after a reference is shorter. -/
theorem firstReference_shorter {text before name behind : Bytes} (found : firstReference text = some (before, name, behind)) :
    behind.length < text.length := by
  obtain ⟨_, opened, closed⟩ := Option.bind_eq_some_iff.mp found
  obtain ⟨_, -, parts⟩ := Option.map_eq_some_iff.mp closed
  obtain ⟨_, _, whole, -⟩ := index_some opened
  have long := congrArg length whole
  have two : (str "$\x7b").length = 2 := by decide
  simp only [length_append, two] at long
  rw [Prod.mk.injEq, Prod.mk.injEq] at parts
  rw [← parts.2.2, length_drop]
  omega

/-- The rounds that are left are as many as references. -/
theorem resolve_stage (follows : ∀ done rest, Stage L ctx value done rest →
      firstReference (done ++ rest) = (firstReference rest).map fun found => (done ++ found.1, found.2))
    {fuel : Nat} {done rest : Bytes} (enough : rest.length < fuel) (stage : Stage L ctx value done rest) :
    ∃ done' rest', Stage L ctx value done' rest' ∧ firstReference rest' = none ∧
      resolveVariableSubstitution L ctx fuel (done ++ rest) = some (done' ++ rest') := by
  induction fuel generalizing done rest with
  | zero => cases enough
  | succ fuel ih =>
    rw [resolve_round, follows done rest stage]
    cases found : firstReference rest with
    | none => exact ⟨done, rest, stage, found, rfl⟩
    | some next =>
      obtain ⟨_, _, behind⟩ := next
      have shorter := firstReference_shorter found
      exact @ih _ behind (by omega) (stage.next found)

/-- The substitution ends and replaces each reference of the value once, and at every
stage takes the next one of them, exactly if at no stage the reference it takes begins
in what is done: in a value that was put in or next to it. -/
theorem substitution_once_iff :
    ((∃ fuel done rest, Stage L ctx value done rest ∧ firstReference rest = none ∧
        resolveVariableSubstitution L ctx fuel value = some (done ++ rest)) ∧
      ∀ done rest, Stage L ctx value done rest →
        firstReference (done ++ rest) = (firstReference rest).map fun found => (done ++ found.1, found.2)) ↔
      ∀ done rest, Stage L ctx value done rest → Inert done rest := by
  constructor
  · intro right done rest stage
    exact inert_iff.mpr (right.2 done rest stage)
  · intro inert
    have follows done rest stage := inert_iff.mp (inert done rest stage)
    exact ⟨⟨_, resolve_stage follows (Nat.lt_succ_self _) .start⟩, follows⟩

end

open PolicySpecification.Sample

/-- A client whose description of itself is a reference to it keeps the loop going. -/
theorem own_reference_endless : read.userAgent = reference ∧
    ¬ ∃ fuel text, resolveVariableSubstitution library read fuel reference = some text := by
  refine ⟨rfl, ?_⟩
  rintro ⟨fuel, text, ended⟩
  rw [reference_endless] at ended
  cases ended

end CipherLake.Iam
