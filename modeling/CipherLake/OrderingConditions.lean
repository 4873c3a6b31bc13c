import CipherLake.PolicySpecification

/-! The ordering operators of conditions. Where a side cannot be read, or the key is
absent, the two are compared as texts. -/
namespace CipherLake.Iam
open Lib List

/-- The ordering operators, with the texts they can read and the order they put texts in. -/
def orderings (L : Library) : List (Bytes × (Bytes → Bool) × (Bytes → Bytes → Bool)) :=
  [(str "numericlessthan", fun text => (L.parseFloat text).isSome, fun a b => a < b),
    (str "numericgreaterthan", fun text => (L.parseFloat text).isSome, fun a b => b < a),
    (str "datelessthan", fun text => (L.parseRFC3339 text).isSome, fun a b => a < b),
    (str "dategreaterthan", fun text => (L.parseRFC3339 text).isSome, fun a b => b < a)]

/-- The key is there, and both sides can be read. -/
def WellFormed (reads : Bytes → Bool) (actual text : Bytes) : Prop :=
  actual ≠ [] ∧ reads actual = true ∧ reads text = true

section
variable (L : Library) (reads : Bytes → Bool) (fuel : Nat) (operator key : Bytes) (ctx : EvalContext) (value : Operand)

/-- The texts that an operand is compared as; `none` for a substitution that goes on. -/
def offered : List (Option Bytes) :=
  match value with
  | .text value => [resolveVariableSubstitution L ctx fuel value]
  | .many items => items.filterMap (·.map (resolveVariableSubstitution L ctx fuel))
  | .flag value => [some (if value then str "true" else str "false")]
  | .other printed => [some printed]

/-- An operand that can be judged satisfies the condition. -/
def Satisfied : Prop :=
  ∃ fuel text, some text ∈ offered L fuel ctx value ∧ WellFormed reads (resolveConditionKey L key ctx) text ∧
    compareValues L (L.toLower operator) (resolveConditionKey L key ctx) text = true

variable {L reads fuel operator key ctx value}

theorem conditionMatches_false (ordinary : L.toLower operator ≠ str "null") :
    conditionMatches L fuel operator key value ctx = some false ↔ ∀ answer ∈ offered L fuel ctx value,
      ∃ text, answer = some text ∧ compareValues L (L.toLower operator) (resolveConditionKey L key ctx) text = false := by
  simp only [conditionMatches, if_neg ordinary, offered]
  cases value with
  | text | flag | other => simp
  | many items =>
    induction items with
    | nil => simp [anyMatches]
    | cons item items ih =>
      cases item with
      | none => exact ih
      | some item =>
        simp only [filterMap_cons, Option.map_some, forall_mem_cons]
        rw [← ih, anyMatches]
        cases resolveVariableSubstitution L ctx fuel item <;> simp [ite_eq_iff]

theorem compareParsed_unread {α : Type} {parse : Bytes → Option α} {values : α → α → Bool} {texts : Bytes → Bytes → Bool}
    {actual text : Bytes} (unread : ¬ ((parse actual).isSome = true ∧ (parse text).isSome = true)) :
    compareParsed parse values texts actual text = texts actual text := by
  unfold compareParsed
  split
  · next first second => simp [first, second] at unread
  · rfl

variable {texts : Bytes → Bytes → Bool} (ordering : (L.toLower operator, reads, texts) ∈ orderings L)
include ordering

theorem ordering_spec : L.toLower operator ≠ str "null" ∧ ∀ actual text, ¬ (reads actual = true ∧ reads text = true) →
    compareValues L (L.toLower operator) actual text = texts actual text := by
  simp only [orderings, mem_cons, Prod.mk.injEq, not_mem_nil, or_false] at ordering
  rcases ordering with ⟨name, rfl, rfl⟩ | ⟨name, rfl, rfl⟩ | ⟨name, rfl, rfl⟩ | ⟨name, rfl, rfl⟩ <;> rw [name] <;>
    refine ⟨by decide, fun actual text unread => ?_⟩ <;>
    simp +decide [compareValues, numericLessThan, numericGreaterThan, dateLessThan, dateGreaterThan,
      compareParsed_unread unread]

/-- A condition that no operand satisfies that can be judged is answered with false exactly
if all substitutions end, and no operand that cannot be judged stands in the order as a text. -/
theorem unread_refused_iff (unreadable : reads [] = false) :
    (¬ Satisfied L reads operator key ctx value → ∃ fuel, conditionMatches L fuel operator key value ctx = some false) ↔
      (¬ Satisfied L reads operator key ctx value → ∃ fuel, ∀ answer ∈ offered L fuel ctx value, ∃ text,
        answer = some text ∧ (¬ WellFormed reads (resolveConditionKey L key ctx) text →
          texts (resolveConditionKey L key ctx) text = false)) := by
  obtain ⟨ordinary, asTexts⟩ := ordering_spec ordering
  refine imp_congr_right fun unsatisfied => exists_congr fun fuel => (conditionMatches_false ordinary).trans ?_
  refine forall₂_congr fun answer member => exists_congr fun text => and_congr_right ?_
  rintro rfl
  by_cases readable : WellFormed reads (resolveConditionKey L key ctx) text
  · refine iff_of_true (Bool.eq_false_iff.mpr fun holds => ?_) (absurd readable)
    exact unsatisfied ⟨fuel, text, member, readable, holds⟩
  · rw [asTexts _ _ fun both => readable ⟨fun absent => ?_, both⟩]
    · exact ⟨fun refused _ => refused, fun refused => refused readable⟩
    · rw [absent, unreadable] at both
      cases both.1

end

open PolicySpecification.Sample

/-- A key that is absent is less than every number. -/
theorem absent_key_satisfies : resolveConditionKey library (str "s3:max-keys") read = [] ∧
    conditionMatches library 1 (str "NumericLessThan") (str "s3:max-keys") (.text (str "10")) read = some true := by
  decide +kernel

/-- It is not less than nothing. -/
theorem absent_key_refused :
    ∃ fuel, conditionMatches library fuel (str "NumericLessThan") (str "s3:max-keys") (.text []) read = some false := by
  refine (unread_refused_iff (.head _) rfl).mpr (fun _ => ⟨1, ?_⟩) ?_
  · exact forall_mem_singleton.mpr ⟨_, rfl, fun _ => by decide +kernel⟩
  · rintro ⟨_, _, -, ⟨-, read, -⟩, -⟩
    cases read

end CipherLake.Iam
