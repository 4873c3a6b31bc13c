import CipherLake.Lib.Reader

/-! Readers that keep an output buffer and refill it from a source of blocks.
Each refill appends a block, which may be empty, and may declare the data
complete. What a buffered reader hands out is determined by its blocks alone,
whatever buffer sizes its consumer uses. -/
namespace CipherLake.Lib
open List

/-- A block source. `left` bounds the refills that neither fail nor complete
the data, and `size` bounds one block. -/
structure Pump (σ : Type) where
  pump : σ → Except ReadErr (Bytes × Bool) × σ
  left : σ → Nat
  size : Nat
  settled : ∀ s, left (pump s).2 ≤ left s
  progress : ∀ s bytes, (pump s).1 = .ok (bytes, false) → left (pump s).2 < left s
  bounded : ∀ s bytes done, (pump s).1 = .ok (bytes, done) → bytes.length < size

structure Buffered (σ : Type) where
  outBuf : Bytes
  done : Bool
  inner : σ
  deriving DecidableEq, Repr

namespace Buffered

variable {σ : Type}

/-- One call: drain the buffer if it holds anything, report the end once the
data is complete, and refill otherwise. -/
def loop (P : Pump σ) : Nat → Buffered σ → Nat → Answer × Buffered σ
  | 0, b, _ => (⟨[], none⟩, b)
  | fuel + 1, b, n =>
    if b.outBuf ≠ [] then (⟨b.outBuf.take n, none⟩, { b with outBuf := b.outBuf.drop n })
    else if b.done then (⟨[], some .eof⟩, b)
    else
      match P.pump b.inner with
      | (.error e, inner) => (⟨[], some e⟩, { b with inner })
      | (.ok (bytes, done), inner) => loop P fuel ⟨bytes, done, inner⟩ n

variable (P : Pump σ) (b : Buffered σ)

/-- The blocks of one call that are empty are fewer than `left`. -/
def read (n : Nat) : Answer × Buffered σ :=
  loop P (P.left b.inner + 3) b n

def left : Nat :=
  b.outBuf.length + if b.done then 0 else (P.left b.inner + 1) * P.size

theorem loop_within (P : Pump σ) (fuel : Nat) (b : Buffered σ) (n : Nat) : (loop P fuel b n).1.bytes.length ≤ n := by
  induction fuel generalizing b with
  | zero => exact Nat.zero_le n
  | succ fuel ih =>
    unfold loop
    split
    · exact length_take_le n b.outBuf
    · split
      · exact Nat.zero_le n
      · split
        · exact Nat.zero_le n
        · exact ih _

/-- A refill pays for the block it brings. -/
theorem left_refill (open_ : b.done = false) {bytes done inner}
    (refilled : P.pump b.inner = (.ok (bytes, done), inner)) : left P ⟨bytes, done, inner⟩ < left P b := by
  have fits : bytes.length < P.size := P.bounded b.inner bytes done (by rw [refilled])
  have positive : P.size ≤ (P.left b.inner + 1) * P.size :=
    Nat.le_mul_of_pos_left _ (Nat.succ_pos _)
  cases done with
  | true =>
    simp only [left, open_, if_true, Bool.false_eq_true, if_false]
    omega
  | false =>
    have fewer : P.left inner < P.left b.inner := by
      simpa [refilled] using P.progress b.inner bytes (by rw [refilled])
    have paid : (P.left inner + 1) * P.size + P.size ≤ (P.left b.inner + 1) * P.size := by
      rw [← Nat.succ_mul]
      exact Nat.mul_le_mul_right _ (by omega)
    simp only [left, open_, Bool.false_eq_true, if_false]
    omega

theorem loop_settled (P : Pump σ) (fuel : Nat) (b : Buffered σ) (n : Nat) : left P (loop P fuel b n).2 ≤ left P b := by
  induction fuel generalizing b with
  | zero => exact Nat.le_refl _
  | succ fuel ih =>
    unfold loop
    split
    · simp only [left, length_drop]
      omega
    split
    · exact Nat.le_refl _
    rename_i complete
    have open_ : b.done = false := by simpa using complete
    split
    · rename_i e inner failed
      have kept : P.left inner ≤ P.left b.inner := by simpa [failed] using P.settled b.inner
      simp only [left, open_, Bool.false_eq_true, if_false]
      gcongr
    · rename_i refilled
      exact Nat.le_trans (ih _) (Nat.le_of_lt (left_refill P b open_ refilled))

/-- With enough fuel a call that reports no error has drained something. -/
theorem loop_progress (fuel : Nat) (b : Buffered σ) (n : Nat) (positive : 0 < n)
    (enough : (if b.done then 1 else P.left b.inner + 2) < fuel)
    (brought : (loop P fuel b n).1.bytes ≠ [] ∨ (loop P fuel b n).1.err = none) :
    left P (loop P fuel b n).2 < left P b := by
  induction fuel generalizing b with
  | zero => exact absurd enough (Nat.not_lt_zero _)
  | succ fuel ih =>
    unfold loop at brought ⊢
    by_cases held : b.outBuf ≠ []
    · rw [if_pos held]
      have some_held := length_pos_iff.mpr held
      simp only [left, length_drop]
      omega
    · rw [if_neg held] at brought ⊢
      by_cases complete : b.done = true
      · simp [complete] at brought
      have open_ : b.done = false := by simpa using complete
      rw [if_neg complete] at brought ⊢
      rcases refilled : P.pump b.inner with ⟨_ | ⟨bytes, done⟩, inner⟩
      · simp [refilled] at brought
      simp only [refilled] at brought ⊢
      refine Nat.lt_trans (ih ⟨bytes, done, inner⟩ ?_ brought) (left_refill P b open_ refilled)
      cases done with
      | true => simp only [open_, Bool.false_eq_true, if_false] at enough; simp; omega
      | false =>
        have fewer : P.left inner < P.left b.inner := by
          simpa [refilled] using P.progress b.inner bytes (by rw [refilled])
        simp only [open_, Bool.false_eq_true, if_false] at enough ⊢
        omega

def reader : Reader (Buffered σ) where
  read := read P
  left := left P
  within b n := loop_within P _ b n
  settled b n := loop_settled P _ b n
  progress b n positive brought :=
    loop_progress P _ b n positive (by split <;> omega) brought

/-! ### What the blocks amount to -/

/-- `J` relates block-source states to the bytes of all blocks still to come,
and `Z` says what is known at their end: after a block that completes the data,
or a refill that reports an error. -/
structure Finishes (P : Pump σ) (J : σ → Bytes → Prop) (Z : σ → ReadErr → Prop) : Prop where
  step : ∀ {s data}, J s data →
    (∃ bytes done rest, (P.pump s).1 = .ok (bytes, done) ∧ data = bytes ++ rest ∧
      (if done then rest = [] ∧ Z (P.pump s).2 .eof else J (P.pump s).2 rest)) ∨
    (∃ e, (P.pump s).1 = .error e ∧ data = [] ∧ Z (P.pump s).2 e)

/-- The bytes a buffered reader still has to hand out. -/
def Holds (J : σ → Bytes → Prop) (Z : σ → ReadErr → Prop) (b : Buffered σ) (data : Bytes) : Prop :=
  ∃ rest, data = b.outBuf ++ rest ∧ if b.done then rest = [] ∧ Z b.inner .eof else J b.inner rest

variable {P : Pump σ} {J : σ → Bytes → Prop} {Z : σ → ReadErr → Prop}

theorem loop_ends (F : Finishes P J Z) (fuel : Nat) {b : Buffered σ} {data : Bytes} (held : Holds J Z b data)
    (n : Nat) :
    ∃ rest, data = (loop P fuel b n).1.bytes ++ rest ∧
      (((loop P fuel b n).1.err = none ∧ Holds J Z (loop P fuel b n).2 rest) ∨
        ∃ e, (loop P fuel b n).1.err = some e ∧ rest = [] ∧ Z (loop P fuel b n).2.inner e) := by
  induction fuel generalizing b data with
  | zero => exact ⟨data, rfl, .inl ⟨rfl, held⟩⟩
  | succ fuel ih =>
    obtain ⟨rest, rfl, later⟩ := held
    unfold loop
    by_cases some_held : b.outBuf ≠ []
    · rw [if_pos some_held]
      refine ⟨b.outBuf.drop n ++ rest, ?_, .inl ⟨rfl, rest, rfl, later⟩⟩
      rw [← append_assoc, take_append_drop]
    have empty : b.outBuf = [] := not_not.mp some_held
    rw [if_neg some_held]
    by_cases complete : b.done = true
    · rw [if_pos complete] at later ⊢
      obtain ⟨rfl, final⟩ := later
      exact ⟨[], by simp [empty], .inr ⟨.eof, rfl, rfl, final⟩⟩
    rw [if_neg complete] at later ⊢
    have step := F.step later
    generalize P.pump b.inner = out at step
    obtain ⟨_, _⟩ := out
    rcases step with ⟨_, _, more, rfl, rfl, kept⟩ | ⟨e, rfl, rfl, final⟩
    · rw [empty, nil_append]
      exact ih ⟨more, rfl, kept⟩
    · exact ⟨[], by simp [empty], .inr ⟨e, rfl, rfl, final⟩⟩

theorem ends (F : Finishes P J Z) : Reader.Ends (reader P) (Holds J Z) fun b e => Z b.inner e where
  step held _ := loop_ends F _ held _

end Buffered
end CipherLake.Lib
