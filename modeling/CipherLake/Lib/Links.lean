import Mathlib.Logic.Function.Basic
import Mathlib.Data.List.Basic
import Mathlib.Data.List.Nodup

/-! A relation between the members of two collections that is kept twice, as a
list with each member of either. The two copies agree, and neither lists
anybody twice. -/
namespace CipherLake.Lib
open List

/-- Who is linked from one side: `l a` lists the partners of `a`, if there is
an `a`. -/
def LinkedTo (l : α → Option (List β)) (a : α) (b : β) : Prop := ∃ partners, l a = some partners ∧ b ∈ partners

structure Linked (l : α → Option (List β)) (r : β → Option (List α)) : Prop where
  agree : ∀ a b, LinkedTo l a b ↔ LinkedTo r b a
  left_nodup : ∀ a partners, l a = some partners → partners.Nodup
  right_nodup : ∀ b partners, r b = some partners → partners.Nodup

namespace Linked

variable {α β : Type} {l : α → Option (List β)} {r : β → Option (List α)}

theorem swap (linked : Linked l r) : Linked r l :=
  ⟨fun b a => (linked.agree a b).symm, linked.right_nodup, linked.left_nodup⟩

variable [DecidableEq α]

variable {partners : Option (List β)}

private theorem linkedTo_update {a a' : α} {b : β} :
    LinkedTo (Function.update l a partners) a' b ↔
      if a' = a then ∃ listed, partners = some listed ∧ b ∈ listed else LinkedTo l a' b := by
  unfold LinkedTo
  by_cases same : a' = a
  · subst same
    simp
  · simp [same]

variable {a : α}

private theorem nodup_update
    (others : ∀ a' listed, l a' = some listed → listed.Nodup) (here : ∀ listed, partners = some listed → listed.Nodup) :
    ∀ a' listed, Function.update l a partners a' = some listed → listed.Nodup := by
  intro a' listed found
  by_cases same : a' = a
  · subst same
    exact here listed (by simpa using found)
  · exact others a' listed (by simpa [same] using found)

/-- Somebody who has no partners, before or after. -/
private theorem unlinked (linked : Linked l r) (before : ∀ b, ¬ LinkedTo l a b)
    (after : ∀ listed, partners = some listed → listed = []) : Linked (Function.update l a partners) r := by
  refine ⟨fun a' b => ?_, nodup_update linked.left_nodup fun listed found => ?_, linked.right_nodup⟩
  · rw [linkedTo_update, ← linked.agree]
    split
    · next same =>
      subst same
      refine iff_of_false ?_ (before b)
      rintro ⟨listed, found, member⟩
      simp [after listed found] at member
    · exact Iff.rfl
  · rw [after listed found]
    exact nodup_nil

/-- Somebody without partners appears. -/
theorem create (linked : Linked l r) (absent : l a = none) : Linked (Function.update l a (some [])) r :=
  linked.unlinked (by simp [LinkedTo, absent]) (by simp)

/-- Somebody without partners goes. -/
theorem remove (linked : Linked l r) (alone : l a = some []) : Linked (Function.update l a none) r :=
  linked.unlinked (by simp [LinkedTo, alone]) (by simp)

variable [DecidableEq β] {b : β} {bs : List β} {as : List α}

/-- The lists of two change, for one another only. -/
private theorem relinked (linked : Linked l r) (left : l a = some bs) (right : r b = some as) {bs' : List β}
    {as' : List α} (distinct : bs'.Nodup) (distinct' : as'.Nodup) (between : b ∈ bs' ↔ a ∈ as')
    (others : ∀ b' ≠ b, b' ∈ bs' ↔ b' ∈ bs) (others' : ∀ a' ≠ a, a' ∈ as' ↔ a' ∈ as) :
    Linked (Function.update l a (some bs')) (Function.update r b (some as')) := by
  refine ⟨fun a' b' => ?_, nodup_update linked.left_nodup (by simpa using distinct),
    nodup_update linked.right_nodup (by simpa using distinct')⟩
  rw [linkedTo_update, linkedTo_update]
  have agree := linked.agree a' b'
  by_cases sameA : a' = a
  · subst sameA
    by_cases sameB : b' = b
    · subst sameB
      simpa using between
    · simp only [LinkedTo, left, Option.some.injEq, exists_eq_left'] at agree
      simp [sameB, LinkedTo, agree, others b' sameB]
  · by_cases sameB : b' = b
    · subst sameB
      simp only [LinkedTo, right, Option.some.injEq, exists_eq_left'] at agree
      simp [sameA, LinkedTo, agree, others' a' sameA]
    · simpa [sameA, sameB] using agree

/-- Two become partners. -/
theorem join (linked : Linked l r) (left : l a = some bs) (right : r b = some as) (apart : b ∉ bs) :
    Linked (Function.update l a (some (bs ++ [b]))) (Function.update r b (some (as ++ [a]))) := by
  have apart' : a ∉ as := by
    intro listed
    obtain ⟨_, held, member⟩ := (linked.agree a b).mpr ⟨as, right, listed⟩
    rw [left] at held
    cases held
    exact apart member
  refine linked.relinked left right ?_ ?_ (by simp) (fun _ other => by simp [other]) fun _ other => by simp [other]
  · exact nodup_append_comm.mp (nodup_cons.mpr ⟨apart, linked.left_nodup a bs left⟩)
  · exact nodup_append_comm.mp (nodup_cons.mpr ⟨apart', linked.right_nodup b as right⟩)

/-- Two are partners no longer. -/
theorem leave [BEq α] [LawfulBEq α] [BEq β] [LawfulBEq β] (linked : Linked l r) (left : l a = some bs)
    (right : r b = some as) :
    Linked (Function.update l a (some (bs.erase b))) (Function.update r b (some (as.erase a))) := by
  have distinct := linked.left_nodup a bs left
  have distinct' := linked.right_nodup b as right
  refine linked.relinked left right (distinct.erase b) (distinct'.erase a) ?_ (fun _ => mem_erase_of_ne)
    fun _ => mem_erase_of_ne
  simp [distinct.mem_erase_iff, distinct'.mem_erase_iff]

end Linked
end CipherLake.Lib
