import Mathlib.Data.List.Perm.Basic

/-! Sorting by exchange: the element at each place is compared with every later
one, and the two are exchanged if the first is the worse. What comes out is
ordered for every comparison that is the negation of a total preorder, and does
not depend on the order of what goes in where no two elements are equally good. -/
namespace CipherLake.Lib
open List

variable {α : Type}

/-- One pass of the inner loop: `held` stands at the place that is being filled. -/
def sweep (worse : α → α → Bool) (held : α) : List α → α × List α
  | [] => (held, [])
  | next :: later =>
    if worse held next then
      let (best, rest) := sweep worse next later
      (best, held :: rest)
    else
      let (best, rest) := sweep worse held later
      (best, next :: rest)

/-- The outer loop, for so many places. -/
def exchangeFrom (worse : α → α → Bool) : Nat → List α → List α
  | 0, elements => elements
  | _ + 1, [] => []
  | places + 1, held :: later =>
    let (best, rest) := sweep worse held later
    best :: exchangeFrom worse places rest

def exchangeSort (worse : α → α → Bool) (elements : List α) : List α :=
  exchangeFrom worse elements.length elements

variable (worse : α → α → Bool)

theorem sweep_perm (held : α) (later : List α) :
    ((sweep worse held later).1 :: (sweep worse held later).2).Perm (held :: later) := by
  induction later generalizing held with
  | nil => exact List.Perm.refl _
  | cons next later ih =>
    unfold sweep
    split
    · exact (List.Perm.swap held _ _).trans ((ih next).cons held)
    · exact (List.Perm.swap next _ _).trans (((ih held).cons next).trans (List.Perm.swap held next later))

theorem sweep_length (held : α) (later : List α) : (sweep worse held later).2.length = later.length := by
  simpa using (sweep_perm worse held later).length_eq

theorem exchangeFrom_perm (places : Nat) (elements : List α) : (exchangeFrom worse places elements).Perm elements := by
  induction places generalizing elements with
  | zero => exact List.Perm.refl _
  | succ places ih =>
    cases elements with
    | nil => exact List.Perm.refl _
    | cons held later => exact ((ih _).cons _).trans (sweep_perm worse held later)

theorem exchangeSort_perm (elements : List α) : (exchangeSort worse elements).Perm elements :=
  exchangeFrom_perm worse elements.length elements

/-- A comparison for which "not worse" is a total preorder. -/
structure Ranks (worse : α → α → Bool) : Prop where
  asymm : ∀ {a b}, worse a b = true → worse b a = false
  trans : ∀ {a b c}, worse b a = false → worse c b = false → worse c a = false

variable {worse : α → α → Bool}

/-- Nothing that is passed over is better than what the pass ends with. -/
theorem sweep_best (ranks : Ranks worse) (held : α) (later : List α) :
    worse (sweep worse held later).1 held = false ∧
      ∀ other ∈ (sweep worse held later).2, worse (sweep worse held later).1 other = false := by
  have same : ∀ a, worse a a = false := by
    intro a
    cases itself : worse a a with
    | false => rfl
    | true => exact itself.symm.trans (ranks.asymm itself)
  induction later generalizing held with
  | nil => exact ⟨same held, fun _ member => absurd member not_mem_nil⟩
  | cons next later ih =>
    unfold sweep
    cases exchanged : worse held next with
    | true =>
      obtain ⟨first, others⟩ := ih next
      have before : worse (sweep worse next later).1 held = false := ranks.trans (ranks.asymm exchanged) first
      refine ⟨before, fun other member => ?_⟩
      rcases mem_cons.mp member with rfl | member
      · exact before
      · exact others other member
    | false =>
      obtain ⟨first, others⟩ := ih held
      refine ⟨first, fun other member => ?_⟩
      rcases mem_cons.mp member with rfl | member
      · exact ranks.trans exchanged first
      · exact others other member

theorem exchangeFrom_ordered (ranks : Ranks worse) {places : Nat} {elements : List α}
    (enough : elements.length ≤ places) :
    (exchangeFrom worse places elements).Pairwise fun a b => worse a b = false := by
  induction places generalizing elements with
  | zero =>
    obtain rfl : elements = [] := eq_nil_of_length_eq_zero (Nat.le_zero.mp enough)
    exact List.Pairwise.nil
  | succ places ih =>
    cases elements with
    | nil => exact List.Pairwise.nil
    | cons held later =>
      have rest : (sweep worse held later).2.length ≤ places := by
        rw [sweep_length]
        exact Nat.le_of_succ_le_succ enough
      refine pairwise_cons.mpr ⟨fun other member => ?_, ih rest⟩
      exact (sweep_best ranks held later).2 other ((exchangeFrom_perm worse places _).mem_iff.mp member)

theorem exchangeSort_ordered (ranks : Ranks worse) (elements : List α) :
    (exchangeSort worse elements).Pairwise fun a b => worse a b = false :=
  exchangeFrom_ordered ranks (Nat.le_refl _)

/-- Elements of which no two are equally good come out in one order. -/
theorem exchangeSort_congr (ranks : Ranks worse) {elements others : List α}
    (distinct : ∀ a ∈ elements, ∀ b ∈ elements, worse a b = false → worse b a = false → a = b)
    (same : elements.Perm others) : exchangeSort worse elements = exchangeSort worse others := by
  have sorted := exchangeSort_perm worse elements
  have sorted' := exchangeSort_perm worse others
  refine List.Perm.eq_of_pairwise ?_ (exchangeSort_ordered ranks elements) (exchangeSort_ordered ranks others)
    (sorted.trans (same.trans sorted'.symm))
  intro a b inFirst inSecond
  exact distinct a (sorted.mem_iff.mp inFirst) b (same.mem_iff.mpr (sorted'.mem_iff.mp inSecond))

/-- A map that the comparison does not see past goes through the sort. -/
theorem exchangeSort_map {β : Type} {worse' : β → β → Bool} (f : α → β)
    (blind : ∀ a b, worse' (f a) (f b) = worse a b) (elements : List α) :
    exchangeSort worse' (elements.map f) = (exchangeSort worse elements).map f := by
  have swept : ∀ held later, sweep worse' (f held) (later.map f) =
      (f (sweep worse held later).1, (sweep worse held later).2.map f) := by
    intro held later
    induction later generalizing held with
    | nil => rfl
    | cons next later ih =>
      simp only [map_cons, sweep, blind]
      split <;> simp [ih]
  have from_ : ∀ places elements, exchangeFrom worse' places (elements.map f) =
      (exchangeFrom worse places elements).map f := by
    intro places
    induction places with
    | zero => exact fun _ => rfl
    | succ places ih =>
      intro elements
      cases elements with
      | nil => rfl
      | cons held later => simp [exchangeFrom, swept, ih]
  unfold exchangeSort
  rw [length_map]
  exact from_ elements.length elements

end CipherLake.Lib
