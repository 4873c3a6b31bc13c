import CipherLake.Lib.Bytes

/-! Pull-style byte readers. A reader answers each request for at most `n`
bytes with some bytes and possibly an error, and may cut its data anywhere.
`Delivers` relates reader states to the bytes still to come, so that a reader
built over another one is understood by giving its own relation; `fill` and
`reads` are the two ways a reader is driven. -/
namespace CipherLake.Lib
open List

inductive ReadErr where
  | eof
  | unexpectedEOF
  | failed (message : Bytes)
  deriving DecidableEq, Repr

/-- The text of an error, as it stands inside a wrapping message. -/
def ReadErr.text : ReadErr → Bytes
  | .eof => str "EOF"
  | .unexpectedEOF => str "unexpected EOF"
  | .failed message => message

structure Answer where
  bytes : Bytes
  err : Option ReadErr
  deriving DecidableEq, Repr

/-- A reader over states `σ`. `left` bounds the calls that can still deliver
bytes or report no error: only an empty answer with an error can be repeated
for ever, so every loop over a reader ends. -/
structure Reader (σ : Type) where
  read : σ → Nat → Answer × σ
  left : σ → Nat
  within : ∀ s n, (read s n).1.bytes.length ≤ n
  settled : ∀ s n, left (read s n).2 ≤ left s
  progress : ∀ s n, 0 < n → (read s n).1.bytes ≠ [] ∨ (read s n).1.err = none →
    left (read s n).2 < left s

namespace Reader

/-- The error of a read that wanted `min` bytes and stopped with `e`. -/
def shortErr (min : Nat) (got : Bytes) (e : ReadErr) : Option ReadErr :=
  if min ≤ got.length then none
  else if e = .eof ∧ got ≠ [] then some .unexpectedEOF
  else some e

def fill (R : Reader σ) : Nat → σ → Nat → Bytes → Answer × σ
  | 0, s, _, got => (⟨got, none⟩, s)
  | fuel + 1, s, min, got =>
    if min ≤ got.length then (⟨got, none⟩, s)
    else
      let (a, s') := R.read s (min - got.length)
      match a.err with
      | none => R.fill fuel s' min (got ++ a.bytes)
      | some e => (⟨got ++ a.bytes, shortErr min (got ++ a.bytes) e⟩, s')

/-- `io.ReadFull` into a buffer of `n` bytes. -/
def readFull (R : Reader σ) (s : σ) (n : Nat) : Answer × σ := R.fill (R.left s + 1) s n []

/-- Reads with the given buffer sizes in turn, up to the first error. -/
def reads (R : Reader σ) : σ → List Nat → Answer × σ
  | s, [] => (⟨[], none⟩, s)
  | s, n :: sizes =>
    let (a, s') := R.read s n
    match a.err with
    | some e => (⟨a.bytes, some e⟩, s')
    | none =>
      let (b, s'') := R.reads s' sizes
      (⟨a.bytes ++ b.bytes, b.err⟩, s'')

variable {σ : Type} {R : Reader σ} {I : σ → Bytes → Prop} {s : σ} {data : Bytes}

/-- Every state that `I` relates to some remaining bytes hands out a piece of
exactly these bytes, and reports the end of the data only when none is left. -/
structure Delivers (R : Reader σ) (I : σ → Bytes → Prop) : Prop where
  step : ∀ {s data n}, I s data → 0 < n →
    ∃ rest, data = (R.read s n).1.bytes ++ rest ∧ I (R.read s n).2 rest ∧
      ((R.read s n).1.err = none ∨ ((R.read s n).1.err = some .eof ∧ rest = []))

/-- A loop over a reader never stops for want of fuel. -/
theorem fill_delivers (D : Delivers R I) (fuel : Nat) (held : I s data)
    (enough : R.left s < fuel) (min : Nat) (got : Bytes) (room : got.length ≤ min) :
    (R.fill fuel s min got).1.bytes = got ++ data.take (min - got.length) ∧
      I (R.fill fuel s min got).2 (data.drop (min - got.length)) ∧
      (R.fill fuel s min got).1.err =
        if min ≤ (got ++ data).length then none else if got ++ data = [] then some .eof else some .unexpectedEOF := by
  induction fuel generalizing s data got with
  | zero => exact absurd enough (Nat.not_lt_zero _)
  | succ fuel ih =>
    unfold fill
    by_cases full : min ≤ got.length
    · have none_left : min - got.length = 0 := by omega
      have covered : min ≤ (got ++ data).length := by simp; omega
      rw [if_pos full, if_pos covered]
      simpa [none_left] using held
    · have wanted : 0 < min - got.length := by omega
      obtain ⟨rest, shape, kept, ended⟩ := D.step held wanted
      have fits := R.within s (min - got.length)
      have moved := R.progress s (min - got.length) wanted
      generalize answer : R.read s (min - got.length) = out at *
      obtain ⟨⟨bytes, _⟩, s'⟩ := out
      simp only at shape kept ended fits moved
      have joined : got ++ data = (got ++ bytes) ++ rest := by rw [shape, append_assoc]
      have taken : got ++ data.take (min - got.length) =
          (got ++ bytes) ++ rest.take (min - (got ++ bytes).length) := by
        rw [shape, take_append, take_of_length_le fits, ← append_assoc, length_append, Nat.sub_add_eq]
      have dropped : data.drop (min - got.length) = rest.drop (min - (got ++ bytes).length) := by
        rw [shape, drop_append, drop_of_length_le fits, nil_append, length_append, Nat.sub_add_eq]
      rcases ended with rfl | ⟨rfl, rfl⟩
      · have smaller : R.left s' < fuel := Nat.lt_of_lt_of_le (moved (.inr rfl)) (by omega)
        have rest_room : (got ++ bytes).length ≤ min := by simp; omega
        rw [if_neg full, taken, dropped, joined]
        exact ih kept smaller (got ++ bytes) rest_room
      · rw [if_neg full, taken, dropped, joined]
        simp only [append_nil, take_nil, drop_nil, shortErr, true_and]
        refine ⟨kept, ?_⟩
        by_cases enough_now : min ≤ (got ++ bytes).length
        · rw [if_pos enough_now, if_pos enough_now]
        · rw [if_neg enough_now, if_neg enough_now]
          by_cases empty : got ++ bytes = [] <;> simp [empty]

/-- `io.ReadFull` takes exactly the next bytes, and tells a clean end from a
short one. -/
theorem readFull_delivers (D : Delivers R I) (held : I s data) (n : Nat) :
    (R.readFull s n).1.bytes = data.take n ∧ I (R.readFull s n).2 (data.drop n) ∧ (R.readFull s n).1.err =
        if n ≤ data.length then none else if data = [] then some .eof else some .unexpectedEOF := by
  simpa [readFull] using fill_delivers D (R.left s + 1) held (Nat.lt_succ_self _) n [] (Nat.zero_le n)

/-- Every state that `I` relates to some remaining bytes hands out a piece of
these bytes and stops with an error after the last of them, and `Z` says what is
known then. -/
structure Ends (R : Reader σ) (I : σ → Bytes → Prop) (Z : σ → ReadErr → Prop) : Prop where
  step : ∀ {s data n}, I s data → 0 < n →
    ∃ rest, data = (R.read s n).1.bytes ++ rest ∧
      (((R.read s n).1.err = none ∧ I (R.read s n).2 rest) ∨
        ∃ e, (R.read s n).1.err = some e ∧ rest = [] ∧ Z (R.read s n).2 e)

/-- A consumer that keeps reading gets all the bytes and the error. -/
theorem reads_to_error {Z : σ → ReadErr → Prop} (E : Ends R I Z) (held : I s data)
    (sizes : List Nat) (positive : ∀ n ∈ sizes, 0 < n) (enough : R.left s < sizes.length) :
    ∃ e, (R.reads s sizes).1 = ⟨data, some e⟩ ∧ Z (R.reads s sizes).2 e := by
  induction sizes generalizing s data with
  | nil => exact absurd enough (Nat.not_lt_zero _)
  | cons n sizes ih =>
    obtain ⟨_, shape, ended⟩ := E.step held (positive n (by simp))
    have moved := R.progress s n (positive n (by simp))
    unfold reads
    generalize R.read s n = out at *
    obtain ⟨⟨_, _⟩, s'⟩ := out
    simp only at shape ended moved
    rcases ended with ⟨rfl, kept⟩ | ⟨e, rfl, rfl, final⟩
    · have smaller : R.left s' < sizes.length := by
        have := moved (.inr rfl)
        simp only [length_cons] at enough
        omega
      obtain ⟨e, whole, final⟩ := ih kept (fun m member => positive m (by simp [member])) smaller
      exact ⟨e, by simp [whole, shape], final⟩
    · exact ⟨e, by simp [shape], final⟩

/-! ### How far a full read advances -/

theorem fill_settled (fuel : Nat) (s : σ) (min : Nat) (got : Bytes) : R.left (R.fill fuel s min got).2 ≤ R.left s := by
  induction fuel generalizing s got with
  | zero => exact Nat.le_refl _
  | succ fuel ih =>
    unfold fill
    split
    · exact Nat.le_refl _
    have step := R.settled s (min - got.length)
    generalize R.read s (min - got.length) = out at *
    obtain ⟨⟨_, err⟩, s'⟩ := out
    cases err with
    | none => exact Nat.le_trans (ih s' _) step
    | some e => exact step

/-- A full read that brought any byte, or succeeded, has used up some of the
reader. -/
theorem readFull_progress (s : σ) (n : Nat) (positive : 0 < n)
    (brought : (R.readFull s n).1.bytes ≠ [] ∨ (R.readFull s n).1.err = none) :
    R.left (R.readFull s n).2 < R.left s := by
  unfold readFull fill at *
  have wanted : ¬ n ≤ ([] : Bytes).length := by simp; omega
  rw [if_neg wanted] at brought ⊢
  have step := R.progress s (n - ([] : Bytes).length) (by simpa using positive)
  generalize R.read s (n - ([] : Bytes).length) = out at *
  obtain ⟨⟨_, err⟩, s'⟩ := out
  cases err with
  | none => exact Nat.lt_of_le_of_lt (fill_settled _ s' n _) (step (.inr rfl))
  | some e =>
    refine step (.inl ?_)
    rcases brought with brought | short
    · simpa using brought
    · rintro rfl
      simp [shortErr] at short
      omega

theorem fill_within (fuel : Nat) (s : σ) (min : Nat) (got : Bytes) (room : got.length ≤ min) :
    (R.fill fuel s min got).1.bytes.length ≤ min := by
  induction fuel generalizing s got with
  | zero => exact room
  | succ fuel ih =>
    unfold fill
    split
    · exact room
    have step := R.within s (min - got.length)
    generalize R.read s (min - got.length) = out at *
    obtain ⟨⟨bytes, err⟩, s'⟩ := out
    have joined : (got ++ bytes).length ≤ min := by simp at step ⊢; omega
    cases err with
    | none => exact ih s' _ joined
    | some e => exact joined

theorem readFull_within (s : σ) (n : Nat) : (R.readFull s n).1.bytes.length ≤ n :=
  fill_within _ s n [] (Nat.zero_le n)

theorem readFull_settled (s : σ) (n : Nat) : R.left (R.readFull s n).2 ≤ R.left s :=
  fill_settled _ s n []

end Reader

/-! ### Data cut into given pieces -/

/-- Data that arrives in the listed pieces, an empty piece being an answer
without bytes. The end is reported with the last piece or by a call of its own. -/
structure Segments where
  pieces : List Bytes
  endWithLast : Bool
  deriving DecidableEq, Repr

namespace Segments

def read : Segments → Nat → Answer × Segments
  | ⟨[], flag⟩, _ => (⟨[], some .eof⟩, ⟨[], flag⟩)
  | ⟨piece :: pieces, flag⟩, n =>
    if piece.length ≤ n then
      (⟨piece, if flag && pieces.isEmpty then some .eof else none⟩, ⟨pieces, flag⟩)
    else (⟨piece.take n, none⟩, ⟨piece.drop n :: pieces, flag⟩)

def left (s : Segments) : Nat := (s.pieces.map fun piece => piece.length + 1).sum

def reader : Reader Segments where
  read := read
  left := left
  within := by
    rintro ⟨_ | ⟨piece, pieces⟩, flag⟩ n
    · exact Nat.zero_le n
    · simp only [read]
      split
      · assumption
      · exact length_take_le n piece
  settled := by
    rintro ⟨_ | ⟨piece, pieces⟩, flag⟩ n
    · exact Nat.le_refl _
    · simp only [read]
      split <;> simp [left]
  progress := by
    rintro ⟨_ | ⟨piece, pieces⟩, flag⟩ n _ brought
    · simp [read] at brought
    · simp only [read]
      split
      · simp only [left, map_cons, sum_cons]
        omega
      · simp only [left, map_cons, sum_cons, length_drop]
        omega

/-- Cutting does not change the data. -/
theorem delivers : Reader.Delivers reader fun s data => s.pieces.flatten = data where
  step := by
    rintro ⟨_ | ⟨piece, pieces⟩, flag⟩ data n rfl -
    · exact ⟨[], rfl, rfl, .inr ⟨rfl, rfl⟩⟩
    · simp only [reader, read]
      split
      · refine ⟨pieces.flatten, by simp, rfl, ?_⟩
        cases flag <;> cases pieces <;> simp
      · exact ⟨piece.drop n ++ pieces.flatten, by simp [← append_assoc], by simp, .inl rfl⟩

end Segments
end CipherLake.Lib
