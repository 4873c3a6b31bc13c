import CipherLake.Lib.Bytes

/-! Text that passes through an encoder for valid UTF-8 only: each byte that
starts no valid sequence is replaced by the replacement character. -/
namespace CipherLake.Lib

def isTail (b : UInt8) : Bool := 0x80 ≤ b && b ≤ 0xBF

/-- How many bytes follow a lead byte. -/
def tailsWanted (lead : UInt8) : Option Nat :=
  if lead < 0x80 then some 0
  else if 0xC2 ≤ lead && lead ≤ 0xDF then some 1
  else if 0xE0 ≤ lead && lead ≤ 0xEF then some 2
  else if 0xF0 ≤ lead && lead ≤ 0xF4 then some 3
  else none

/-- The first tail byte is narrower after the lead bytes that would otherwise
allow an overlong form, a surrogate or a code point past the last one. -/
def tailsValid (lead : UInt8) : Bytes → Bool
  | [] => true
  | first :: more =>
    (if lead = 0xE0 then 0xA0 ≤ first else if lead = 0xF0 then 0x90 ≤ first else 0x80 ≤ first) &&
      (if lead = 0xED then first ≤ 0x9F else if lead = 0xF4 then first ≤ 0x8F else first ≤ 0xBF) &&
      more.all isTail

/-- The number of bytes after the lead byte in the sequence at the front, if
there is a valid one. -/
def tailLength (lead : UInt8) (rest : Bytes) : Option Nat :=
  match tailsWanted lead with
  | none => none
  | some n => if n ≤ rest.length && tailsValid lead (rest.take n) then some n else none

/-- `pending` bytes belong to a sequence already found valid. -/
def coerceFrom : (pending : Nat) → Bytes → Bytes
  | _, [] => []
  | pending + 1, b :: rest => b :: coerceFrom pending rest
  | 0, b :: rest =>
    match tailLength b rest with
    | some n => b :: coerceFrom n rest
    | none => 0xEF :: 0xBF :: 0xBD :: coerceFrom 0 rest

/-- A string after a JSON encoding and decoding. -/
def jsonString (text : Bytes) : Bytes := coerceFrom 0 text

theorem tailLength_some {lead : UInt8} {rest : Bytes} {n : Nat} :
    tailLength lead rest = some n ↔
      tailsWanted lead = some n ∧ n ≤ rest.length ∧ tailsValid lead (rest.take n) = true := by
  unfold tailLength
  cases tailsWanted lead with
  | none => simp
  | some m =>
    simp only [Option.ite_none_right_eq_some, Bool.and_eq_true, decide_eq_true_eq, Option.some.injEq]
    constructor
    · rintro ⟨valid, rfl⟩
      exact ⟨rfl, valid⟩
    · rintro ⟨rfl, valid⟩
      exact ⟨valid, rfl⟩

theorem coerceFrom_take (pending : Nat) (text : Bytes) (long : pending ≤ text.length) :
    (coerceFrom pending text).take pending = text.take pending ∧ pending ≤ (coerceFrom pending text).length := by
  induction pending generalizing text with
  | zero => simp
  | succ pending ih =>
    cases text with
    | nil => simp at long
    | cons b rest =>
      obtain ⟨same, enough⟩ := ih rest (by simpa using long)
      simp only [coerceFrom, List.take_succ_cons, same, List.length_cons]
      exact ⟨trivial, Nat.succ_le_succ enough⟩

private theorem coerceFrom_idem (pending : Nat) (text : Bytes) :
    coerceFrom pending (coerceFrom pending text) = coerceFrom pending text := by
  induction text generalizing pending with
  | nil => cases pending <;> rfl
  | cons b rest ih =>
    cases pending with
    | succ pending => simp only [coerceFrom, ih]
    | zero =>
      simp only [coerceFrom]
      cases valid : tailLength b rest with
      | none =>
        have replacement : tailLength 0xEF (0xBF :: 0xBD :: coerceFrom 0 rest) = some 2 := by
          simp [tailLength, tailsWanted, tailsValid, isTail]
        simp only [coerceFrom, replacement, ih]
      | some n =>
        obtain ⟨wanted, long, tails⟩ := tailLength_some.mp valid
        obtain ⟨same, kept⟩ := coerceFrom_take n rest long
        have again : tailLength b (coerceFrom n rest) = some n :=
          tailLength_some.mpr ⟨wanted, kept, same ▸ tails⟩
        simp only [coerceFrom, again, ih]

/-- What came out of the encoder passes through it unchanged. -/
theorem jsonString_idem (text : Bytes) : jsonString (jsonString text) = jsonString text :=
  coerceFrom_idem 0 text

theorem jsonString_ascii {text : Bytes} (ascii : ∀ b ∈ text, b < 0x80) : jsonString text = text := by
  unfold jsonString
  induction text with
  | nil => rfl
  | cons b rest ih =>
    have single : tailLength b rest = some 0 := tailLength_some.mpr
      ⟨by simp [tailsWanted, ascii b List.mem_cons_self], Nat.zero_le _, by simp [tailsValid]⟩
    rw [coerceFrom, single]
    exact congrArg (b :: ·) (ih fun b' member => ascii b' (List.mem_cons_of_mem _ member))

end CipherLake.Lib
