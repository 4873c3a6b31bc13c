import CipherLake.PolicySpecification

/-! Conditions with a list of values. One string of the list that compares suffices,
for the negated operators too, and a value that is no string is passed over. -/
namespace CipherLake.Iam
open Lib List

/-- What is read of a value in a list. -/
def Operand.item : Operand → Option Bytes
  | .text value => some value
  | _ => none

def listed (values : List Operand) : Operand := .many (values.map Operand.item)

/-- The negated operators beside the operators they negate. -/
def opposites : List (Bytes × Bytes) :=
  [(str "stringequals", str "stringnotequals"), (str "stringlike", str "stringnotlike"),
    (str "numericequals", str "numericnotequals"), (str "ipaddress", str "notipaddress")]

section
variable (L : Library) (fuel : Nat) (operator key : Bytes) (ctx : EvalContext) (values : List Operand)

/-- Each value, on its own, is answered. -/
def Answered (answer : Operand → Bool) : Prop :=
  ∀ value ∈ values, conditionMatches L fuel operator key value ctx = some (answer value)

/-- Some string of the list compares. -/
def AnyString (answer : Operand → Bool) : Prop := ∃ value ∈ values, value.item ≠ none ∧ answer value = true

variable {L fuel operator key ctx values} {answer : Operand → Bool}

/-- A list is answered by its strings. -/
theorem conditionMatches_listed (ordinary : L.toLower operator ≠ str "null")
    (answered : ∀ value ∈ values, value.item ≠ none →
      conditionMatches L fuel operator key value ctx = some (answer value)) :
    ∃ b, conditionMatches L fuel operator key (listed values) ctx = some b ∧ (b = true ↔ AnyString values answer) := by
  simp only [conditionMatches, if_neg ordinary, listed]
  induction values with
  | nil => exact ⟨false, rfl, by simp [AnyString]⟩
  | cons value rest ih =>
    obtain ⟨b, ran, right⟩ := ih fun value member => answered value (mem_cons_of_mem _ member)
    have head := answered value mem_cons_self
    cases value with
    | text text =>
      have head := head (Option.some_ne_none text)
      simp only [conditionMatches, if_neg ordinary] at head
      obtain ⟨_, resolved, compared⟩ := Option.map_eq_some_iff.mp head
      simp only [map_cons, Operand.item, anyMatches, resolved, compared]
      cases told : answer (.text text) with
      | true => exact ⟨true, rfl, by simp [AnyString, Operand.item, told]⟩
      | false => exact ⟨b, ran, right.trans (by simp [AnyString, told])⟩
    | many | flag | other => exact ⟨b, ran, right.trans (by simp [AnyString, Operand.item])⟩

theorem compareValues_opposed {positive negated : Bytes} (opposed : (positive, negated) ∈ opposites)
    (actual expected : Bytes) : compareValues L negated actual expected = !compareValues L positive actual expected := by
  simp only [opposites, mem_cons, Prod.mk.injEq, not_mem_nil, or_false] at opposed
  rcases opposed with ⟨rfl, rfl⟩ | ⟨rfl, rfl⟩ | ⟨rfl, rfl⟩ | ⟨rfl, rfl⟩ <;> simp +decide [compareValues]

theorem opposites_ordinary : ∀ pair ∈ opposites, pair.1 ≠ str "null" ∧ pair.2 ≠ str "null" := by
  decide

variable {positive negated : Bytes} (opposed : (L.toLower positive, L.toLower negated) ∈ opposites)
include opposed

/-- On a value of its own a negated operator is the complement. -/
theorem conditionMatches_opposed {value : Operand} (single : ∀ items, value ≠ .many items) :
    conditionMatches L fuel negated key value ctx = (conditionMatches L fuel positive key value ctx).map not := by
  obtain ⟨first, second⟩ := opposites_ordinary _ opposed
  simp only [conditionMatches, if_neg first, if_neg second]
  cases value with
  | text text =>
    rw [Option.map_map]
    exact congrArg (Option.map · _) (funext (compareValues_opposed opposed _))
  | many items => exact absurd rfl (single items)
  | flag | other => exact congrArg some (compareValues_opposed opposed _ _)

/-- When a list of values means what it should. For a disjunction some string must
compare if any value does, for a conjunction exactly if all values do. A negated operator
is the complement on a list exactly if it finds a string where the other finds none. -/
theorem listed_values_iff (ordinary : L.toLower operator ≠ str "null") :
    ((∃ answer, Answered L fuel operator key ctx values answer ∧
        conditionMatches L fuel operator key (listed values) ctx = some (values.any answer)) ↔
      ∃ answer, Answered L fuel operator key ctx values answer ∧
        ((∃ value ∈ values, answer value = true) → AnyString values answer)) ∧
    ((∃ answer, Answered L fuel operator key ctx values answer ∧
        conditionMatches L fuel operator key (listed values) ctx = some (values.all answer)) ↔
      ∃ answer, Answered L fuel operator key ctx values answer ∧
        (AnyString values answer ↔ ∀ value ∈ values, answer value = true)) ∧
    (∀ value, (∀ items, value ≠ .many items) →
      conditionMatches L fuel negated key value ctx = (conditionMatches L fuel positive key value ctx).map not) ∧
    ((∃ answer, Answered L fuel positive key ctx values answer ∧
        conditionMatches L fuel negated key (listed values) ctx =
          (conditionMatches L fuel positive key (listed values) ctx).map not) ↔
      ∃ answer, Answered L fuel positive key ctx values answer ∧
        (AnyString values (fun value => !answer value) ↔ ¬ AnyString values answer)) := by
  refine ⟨?_, ?_, fun value => conditionMatches_opposed opposed, ?_⟩
  · refine exists_congr fun answer => and_congr_right fun answered => ?_
    obtain ⟨b, ran, right⟩ := conditionMatches_listed ordinary fun value member _ => answered value member
    rw [ran, Option.some_inj, Bool.eq_iff_iff, right, any_eq_true]
    exact ⟨Iff.mpr, fun covered => ⟨fun ⟨value, member, _, told⟩ => ⟨value, member, told⟩, covered⟩⟩
  · refine exists_congr fun answer => and_congr_right fun answered => ?_
    obtain ⟨b, ran, right⟩ := conditionMatches_listed ordinary fun value member _ => answered value member
    rw [ran, Option.some_inj, Bool.eq_iff_iff, right, all_eq_true]
  · refine exists_congr fun answer => and_congr_right fun answered => ?_
    obtain ⟨first, second⟩ := opposites_ordinary _ opposed
    obtain ⟨b, ran, right⟩ := conditionMatches_listed first fun value member _ => answered value member
    obtain ⟨_, ran', right'⟩ := @conditionMatches_listed L fuel negated key ctx values (fun value => !answer value) second
      fun value member isString => by
        rw [conditionMatches_opposed opposed (by rintro items rfl; exact isString rfl), answered value member]
        rfl
    rw [ran, ran', ← right, ← right', Option.map_some, Option.some_inj, Bool.eq_iff_iff, Bool.not_eq_true']
    simp

end

open PolicySpecification.Sample

/-- One value that differs satisfies a negated operator. -/
theorem list_not_conjunction :
    conditionMatches library 1 (str "StringNotEquals") (str "aws:PrincipalType") (.text (str "User")) read = some false ∧
    conditionMatches library 1 (str "StringNotEquals") (str "aws:PrincipalType")
      (listed [.text (str "User"), .text (str "Role")]) read = some true := by
  decide +kernel

/-- A list of one string is as good as the string. -/
theorem singleton_list_told :
    ∃ answer, Answered library 1 (str "Bool") (str "aws:PrincipalType") read [.text (str "user")] answer ∧
      conditionMatches library 1 (str "Bool") (str "aws:PrincipalType") (listed [.text (str "user")]) read =
        some ([.text (str "user")].any answer) := by
  refine (@listed_values_iff library 1 (str "Bool") (str "aws:PrincipalType") read _ (str "IpAddress") (str "NotIpAddress")
    (by decide) (by decide)).1.mpr ⟨fun _ => true, forall_mem_singleton.mpr (by decide +kernel), ?_⟩
  exact fun _ => ⟨_, mem_singleton_self _, nofun, rfl⟩

end CipherLake.Iam
