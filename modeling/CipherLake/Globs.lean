import CipherLake.Iam

/-! What `globMatch` decides. A star of the pattern that meets a star of the text is
taken for this byte, and only elsewhere for any sequence. So the matcher accepts
only texts of the language of the pattern, but not all of them. -/
namespace CipherLake.Iam
open Lib List

/-- The texts a pattern stands for: a star is any sequence, a question mark one
byte, any other byte itself. -/
def InLanguage : Bytes → Bytes → Prop
  | [], text => text = []
  | p :: rest, text =>
    if p = 42 then ∃ k, InLanguage rest (text.drop k)
    else ∃ c tail, text = c :: tail ∧ (p = c ∨ p = 63) ∧ InLanguage rest tail

/-- The same, with a star that stands for a star where it meets one. -/
def Spelled : Bytes → Bytes → Prop
  | [], text => text = []
  | p :: rest, [] => p = 42 ∧ Spelled rest []
  | p :: rest, c :: tail =>
    if p = c ∨ p = 63 then Spelled rest tail else p = 42 ∧ ∃ k, Spelled rest ((c :: tail).drop k)

/-- A try of the last star at a later place. -/
def Later : Option (Bytes × Bytes) → Prop
  | none => False
  | some (after, tried) => ∃ k, Spelled after (tried.drop (k + 1))

/-- A try of the last star at a later place would meet what is left of the pattern, too. -/
def Since (n : Nat) (pattern text : Bytes) (star : Option (Bytes × Bytes)) : Prop :=
  pattern.length ≤ n ∧ (Later star → ∃ k, Spelled pattern (text.drop k)) ∧
    ∀ s ∈ star, s.1.length ≤ n ∧ text.length ≤ s.2.length

/-- How much of the text may still be tried. -/
def untried (text : Bytes) (star : Option (Bytes × Bytes)) : Nat := (star.map (·.2.length)).getD text.length

section
variable {n fuel : Nat} {p c : UInt8} {pattern text : Bytes} {star : Option (Bytes × Bytes)}

theorem Spelled.inLanguage (spelled : Spelled pattern text) : InLanguage pattern text := by
  induction pattern generalizing text with
  | nil => exact spelled
  | cons p rest ih =>
    unfold InLanguage
    cases text with
    | nil =>
      rw [if_pos spelled.1]
      exact ⟨0, ih spelled.2⟩
    | cons c tail =>
      unfold Spelled at spelled
      split at spelled
      · next met =>
        split
        · exact ⟨1, ih spelled⟩
        · exact ⟨c, tail, rfl, met, ih spelled⟩
      · obtain ⟨star, k, later⟩ := spelled
        rw [if_pos star]
        exact ⟨k, ih later⟩

theorem spelled_star (apart : ¬ ((42 : UInt8) = c ∨ (42 : UInt8) = 63)) :
    Spelled (42 :: pattern) (c :: text) ↔ ∃ k, Spelled pattern ((c :: text).drop k) := by
  rw [Spelled, if_neg apart]
  exact and_iff_right rfl

/-- Without a star in the text no star of the pattern can be taken for it. -/
theorem InLanguage.spelled (plain : 42 ∉ text) (matched : InLanguage pattern text) : Spelled pattern text := by
  induction pattern generalizing text with
  | nil => exact matched
  | cons p rest ih =>
    unfold InLanguage at matched
    split at matched
    · next star =>
      obtain ⟨k, matched⟩ := matched
      have later := ih (fun held => plain (mem_of_mem_drop held)) matched
      cases text with
      | nil => exact ⟨star, by rwa [drop_nil] at later⟩
      | cons c tail =>
        have apart : ¬ ((42 : UInt8) = c ∨ (42 : UInt8) = 63) := by
          rintro (rfl | same)
          · exact plain mem_cons_self
          · cases same
        rw [star]
        exact (spelled_star apart).mpr ⟨k, later⟩
    · obtain ⟨c, tail, rfl, met, matched⟩ := matched
      rw [Spelled, if_pos met]
      exact ih (fun held => plain (mem_cons_of_mem c held)) matched

/-- Every byte of the pattern takes some of the text. -/
theorem spelled_tail (spelled : Spelled (p :: pattern) text) : ∃ k, Spelled pattern (text.drop k) := by
  cases text with
  | nil => exact ⟨0, spelled.2⟩
  | cons c tail =>
    unfold Spelled at spelled
    split at spelled
    · exact ⟨1, spelled⟩
    · exact spelled.2

theorem spelled_nil (pattern : Bytes) : (pattern.dropWhile (· = 42)).isEmpty = true ↔ Spelled pattern [] := by
  induction pattern with
  | nil => simp [Spelled]
  | cons p rest ih =>
    by_cases star : p = 42
    · simp [Spelled, star, ← ih]
    · simp [Spelled, star]

theorem Since.meet (met : p = c ∨ p = 63) (since : Since n (p :: pattern) (c :: text) star) :
    Since n pattern text star := by
  obtain ⟨short, leads, within⟩ := since
  refine ⟨(Nat.le_succ _).trans short, fun later => ?_, fun s held => ?_⟩
  · obtain ⟨k, spelled⟩ := leads later
    cases k with
    | zero =>
      rw [drop_zero, Spelled, if_pos met] at spelled
      exact ⟨0, spelled⟩
    | succ k =>
      obtain ⟨j, spelled⟩ := spelled_tail spelled
      rw [drop_succ_cons, drop_drop] at spelled
      exact ⟨k + j, spelled⟩
  · exact ⟨(within s held).1, (Nat.le_succ _).trans (within s held).2⟩

/-- A fresh try at a place of the text. -/
theorem since_fresh (short : pattern.length ≤ n) : Since n pattern text (some (pattern, text)) :=
  ⟨short, fun ⟨k, spelled⟩ => ⟨k + 1, spelled⟩, by rintro - ⟨⟩; exact ⟨short, Nat.le_refl _⟩⟩

/-- A try here or later. -/
theorem fresh_iff : Spelled pattern text ∨ Later (some (pattern, text)) ↔ ∃ k, Spelled pattern (text.drop k) :=
  Nat.or_exists_add_one (p := fun k => Spelled pattern (text.drop k))

/-- With enough rounds the loop tells if the pattern is met here or at a later try. -/
theorem globLoop_spec (since : Since n pattern text star)
    (enough : untried text star * (n + 1) + pattern.length < fuel) :
    ∃ answer, globLoop fuel pattern text star = some answer ∧ (answer = true ↔ Spelled pattern text ∨ Later star) := by
  induction fuel generalizing pattern text star with
  | zero => cases enough
  | succ fuel ih =>
    cases text with
    | nil =>
      refine ⟨_, rfl, (spelled_nil pattern).trans ⟨Or.inl, fun found => found.elim id fun later => ?_⟩⟩
      obtain ⟨k, spelled⟩ := since.2.1 later
      rwa [drop_nil] at spelled
    | cons c text =>
      -- one round without a byte of the pattern to take
      have retry (stuck : ¬ Spelled pattern (c :: text)) :
          ∃ answer, globLoop (fuel + 1) [] (c :: text) star = some answer ∧
            (answer = true ↔ Spelled pattern (c :: text) ∨ Later star) := by
        rw [or_iff_right stuck]
        obtain - | ⟨after, tried⟩ := star
        · exact ⟨false, rfl, by simp [Later]⟩
        obtain ⟨short, long⟩ : after.length ≤ n ∧ (c :: text).length ≤ tried.length := since.2.2 _ rfl
        cases tried with
        | nil => cases long
        | cons d tried =>
          obtain ⟨answer, ran, right⟩ := ih (@since_fresh n after tried short) (by
            simp only [untried, Option.map_some, Option.getD_some, length_cons, Nat.succ_mul] at enough ⊢
            omega)
          exact ⟨answer, ran, right.trans fresh_iff⟩
      cases pattern with
      | nil => exact retry (by simp [Spelled])
      | cons p rest =>
        simp only [globLoop]
        split
        · next met =>
          have less : untried text star ≤ untried (c :: text) star := by
            cases star with
            | none => exact Nat.le_succ _
            | some s => exact Nat.le_refl _
          rw [Spelled, if_pos met]
          refine ih (since.meet met) ?_
          have := Nat.mul_le_mul_right (n + 1) less
          rw [length_cons] at enough
          omega
        · next apart =>
          split
          · next isStar =>
            subst isStar
            have less : (c :: text).length ≤ untried (c :: text) star := by
              cases star with
              | none => exact Nat.le_refl _
              | some s => exact (since.2.2 s rfl).2
            have covered : Later star → Spelled (42 :: rest) (c :: text) := fun later => by
              obtain ⟨k, spelled⟩ := since.2.1 later
              obtain ⟨j, spelled⟩ := spelled_tail spelled
              rw [drop_drop] at spelled
              exact (spelled_star apart).mpr ⟨k + j, spelled⟩
            rw [or_iff_left_of_imp covered, spelled_star apart, ← fresh_iff]
            refine ih (since_fresh ((Nat.le_succ _).trans since.1)) ?_
            have := Nat.mul_le_mul_right (n + 1) less
            rw [length_cons] at enough
            change (c :: text).length * (n + 1) + rest.length < fuel
            omega
          · next other => exact retry (by simp [Spelled, apart, other])

theorem globMatch_iff_spelled : globMatch pattern text = true ↔ Spelled pattern text := by
  have since : Since pattern.length pattern text none := ⟨Nat.le_refl _, False.elim, nofun⟩
  have enough : untried text none * (pattern.length + 1) + pattern.length < (text.length + 2) * (pattern.length + 2) := by
    simp only [untried, Option.map_none, Option.getD_none, Nat.add_mul, Nat.mul_add]
    omega
  obtain ⟨_, ran, right⟩ := globLoop_spec since enough
  rw [globMatch, ran]
  exact right.trans (or_iff_left id)

end

/-- The matcher is right about a text exactly if the text is not in the language or is
so, too, with stars that stand for the stars they meet. A text without a star is such. -/
theorem globMatch_right_iff (pattern text : Bytes) :
    ((globMatch pattern text = true ↔ InLanguage pattern text) ↔
      (InLanguage pattern text → Spelled pattern text)) ∧
    (42 ∉ text → (globMatch pattern text = true ↔ InLanguage pattern text)) := by
  rw [globMatch_iff_spelled]
  refine ⟨⟨Iff.mpr, fun covers => ⟨Spelled.inLanguage, covers⟩⟩, fun plain => ?_⟩
  exact ⟨Spelled.inLanguage, InLanguage.spelled plain⟩

/-- A star is refused the text `*x`. -/
theorem star_refuses_text : InLanguage (str "*") (str "*x") ∧ globMatch (str "*") (str "*x") = false := by
  refine ⟨⟨2, rfl⟩, by decide⟩

end CipherLake.Iam
