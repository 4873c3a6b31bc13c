import Mathlib.Logic.Basic

/-! Runs of a machine that takes one input at a time and may have no next
state. A property of every state of a run is told from a condition on every
step, which is judged in the state the step starts from. -/
namespace CipherLake.Lib.Runs

universe u v

variable {σ : Type u} {ι : Type v}

section
variable (next : σ → ι → Option σ)

/-- A property of every state of a run. -/
def Always (holds : σ → Prop) : σ → List ι → Prop
  | s, [] => holds s
  | s, input :: later => holds s ∧ ∀ s', next s input = some s' → Always holds s' later

/-- A condition on every step of a run. -/
def Throughout (meets : σ → ι → Prop) : σ → List ι → Prop
  | _, [] => True
  | s, input :: later => ∀ s', next s input = some s' → meets s input ∧ Throughout meets s' later

instance decidableThroughout (meets : σ → ι → Prop) [∀ s input, Decidable (meets s input)] :
    ∀ s inputs, Decidable (Throughout next meets s inputs)
  | _, [] => isTrue trivial
  | s, input :: later =>
    match stepped : next s input with
    | none => isTrue fun _ reached => by cases stepped.symm.trans reached
    | some s' =>
      haveI := decidableThroughout meets s' later
      decidable_of_iff (meets s input ∧ Throughout next meets s' later) (by simp [Throughout, stepped])

end

variable {next : σ → ι → Option σ} {holds : σ → Prop} {s : σ} {inputs : List ι} {meets : σ → ι → Prop}

theorem Always.here (always : Always next holds s inputs) : holds s := by
  cases inputs with
  | nil => exact always
  | cons input later => exact always.1

theorem Always.mono {also : σ → Prop} (follows : ∀ s, holds s → also s) (always : Always next holds s inputs) :
    Always next also s inputs := by
  induction inputs generalizing s with
  | nil => exact follows s always
  | cons input later ih => exact ⟨follows s always.1, fun s' reached => ih (always.2 s' reached)⟩

/-- The last state of a run is one of its states. -/
theorem Always.last {s' : σ} (always : Always next holds s inputs) (reached : inputs.foldlM next s = some s') :
    holds s' := by
  induction inputs generalizing s with
  | nil =>
    cases reached
    exact always
  | cons input later ih =>
    rw [List.foldlM_cons] at reached
    obtain ⟨middle, stepped, rest⟩ := Option.bind_eq_some_iff.mp reached
    exact ih (always.2 middle stepped) rest

/-- What is seen at the end of a run rules the property out. -/
theorem seen_not_always {β : Type} (f : σ → β) {b : β} (reached : (inputs.foldlM next s).map f = some b)
    (bad : ∀ s, f s = b → ¬ holds s) : (inputs.foldlM next s).map f = some b ∧ ¬ Always next holds s inputs := by
  refine ⟨reached, fun always => ?_⟩
  obtain ⟨s', last, seen⟩ := Option.map_eq_some_iff.mp reached
  exact bad s' seen (always.last last)

/-- Where one step keeps the property exactly if it meets the condition, a run
has the property in all its states exactly if it meets the condition in all its
steps. -/
theorem always_iff_throughout (kept : σ → Prop) (keeps : ∀ s input s', next s input = some s' → kept s → kept s')
    (exact_ : ∀ s input s', next s input = some s' → kept s → holds s → (holds s' ↔ meets s input))
    (initially : kept s) (held : holds s) : Always next holds s inputs ↔ Throughout next meets s inputs := by
  induction inputs generalizing s with
  | nil => simp only [Always, Throughout, held]
  | cons input later ih =>
    simp only [Always, Throughout, held, true_and]
    refine forall_congr' fun s' => forall_congr' fun reached => ?_
    have after := keeps s input s' reached initially
    rw [← exact_ s input s' reached initially held]
    constructor
    · intro always
      exact ⟨always.here, (ih after always.here).mp always⟩
    · rintro ⟨heldAfter, throughout⟩
      exact (ih after heldAfter).mpr throughout

/-- What every step keeps that meets the condition, a run keeps whose steps all
meet it. -/
theorem Throughout.always
    (keeps : ∀ input ∈ inputs, ∀ s s', next s input = some s' → holds s → meets s input → holds s') (held : holds s)
    (throughout : Throughout next meets s inputs) : Always next holds s inputs := by
  induction inputs generalizing s with
  | nil => exact held
  | cons input later ih =>
    refine ⟨held, fun s' reached => ?_⟩
    obtain ⟨met, rest⟩ := throughout s' reached
    refine ih (fun input' listed => keeps input' (List.mem_cons_of_mem _ listed)) ?_ rest
    exact keeps input List.mem_cons_self s s' reached held met

/-- A step condition that follows from another in the states of a run. -/
theorem Throughout.mono (kept : σ → Prop) {also : σ → ι → Prop}
    (keeps : ∀ s input s', next s input = some s' → kept s → meets s input → kept s')
    (follows : ∀ s input s', next s input = some s' → kept s → meets s input → also s input) (initially : kept s)
    (throughout : Throughout next meets s inputs) : Throughout next also s inputs := by
  induction inputs generalizing s with
  | nil => trivial
  | cons input later ih =>
    intro s' reached
    obtain ⟨met, rest⟩ := throughout s' reached
    exact ⟨follows s input s' reached initially met, ih (keeps s input s' reached initially met) rest⟩

end CipherLake.Lib.Runs
