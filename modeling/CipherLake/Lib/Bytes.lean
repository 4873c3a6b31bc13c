import Mathlib.Order.Defs.LinearOrder
import Mathlib.Data.Nat.Bitwise
import Mathlib.Tactic.IntervalCases
import Mathlib.Tactic.Ring

/-! Byte strings: the literal form used for fixed texts, their byte order, and
the big-endian encoding of machine words. A string is a list of bytes and is
never assumed to be valid text. -/
namespace CipherLake.Lib

abbrev Bytes := List UInt8

/-- The bytes of an ASCII literal. -/
def str (text : String) : Bytes := text.toList.map fun c => c.toNat.toUInt8

/-- Equality tests of bytes and of strings can be relied on; membership in a list
is decided with them. -/
instance lawfulByte : LawfulBEq UInt8 := inferInstance
instance lawfulBytes : LawfulBEq Bytes := inferInstance

/-- What is said of all bytes of a string is decided along the string, and not
by going through all values of a byte. -/
instance (priority := high) decidableAllBytes (s : Bytes) (p : UInt8 → Prop) [DecidablePred p] :
    Decidable (∀ b ∈ s, p b) := List.decidableBAll p s

/-- The `width` low bytes of a number, highest first. -/
def bigEndian : (width value : Nat) → Bytes
  | 0, _ => []
  | width + 1, value => (value / 256 ^ width % 256).toUInt8 :: bigEndian width value

@[simp] theorem bigEndian_length (width value : Nat) : (bigEndian width value).length = width := by
  induction width with
  | zero => rfl
  | succ width ih => simp [bigEndian, ih]

/-- The number that bytes stand for, highest first. -/
def ofBigEndian (s : Bytes) : Nat := s.foldl (fun value b => value * 256 + b.toNat) 0

private theorem foldl_bigEndian (width value start : Nat) :
    (bigEndian width value).foldl (fun value b => value * 256 + b.toNat) start =
      start * 256 ^ width + value % 256 ^ width := by
  induction width generalizing start with
  | zero => simp [bigEndian, Nat.mod_one]
  | succ width ih =>
    have digit : (value / 256 ^ width % 256).toUInt8.toNat = value / 256 ^ width % 256 := by
      rw [Nat.toUInt8_eq, UInt8.toNat_ofNat', Nat.mod_eq_of_lt (Nat.mod_lt _ (by decide))]
    have split := Nat.mod_mul (x := value) (a := 256 ^ width) (b := 256)
    rw [bigEndian, List.foldl_cons, ih, digit, Nat.pow_succ, split]
    ring

/-- A number is read back from as many bytes as it needs. -/
theorem ofBigEndian_bigEndian {width value : Nat} (fits : value < 256 ^ width) :
    ofBigEndian (bigEndian width value) = value := by
  rw [ofBigEndian, foldl_bigEndian, Nat.mod_eq_of_lt fits, Nat.zero_mul, Nat.zero_add]

/-- Bytes are ordered by their value, with the comparison of the machine type. -/
instance linearOrderByte : LinearOrder UInt8 where
  le_refl a := Nat.le_refl a.toNat
  le_trans a b c := Nat.le_trans (n := a.toNat) (m := b.toNat) (k := c.toNat)
  lt_iff_le_not_ge a b := by
    rw [UInt8.lt_iff_toNat_lt, UInt8.le_iff_toNat_le, UInt8.le_iff_toNat_le]
    omega
  le_antisymm a b below above := UInt8.toNat_inj.mp (Nat.le_antisymm below above)
  le_total a b := Nat.le_total a.toNat b.toNat
  toDecidableLE := inferInstance
  toDecidableLT := inferInstance
  toDecidableEq := inferInstance

/-- `binary.BigEndian.PutUint32`: the four bytes of a word, highest first. -/
def putUint32 (v : UInt32) : Bytes :=
  [(v >>> 24).toUInt8, (v >>> 16).toUInt8, (v >>> 8).toUInt8, v.toUInt8]

/-- `binary.BigEndian.Uint32` on a four-byte buffer. -/
def uint32 : Bytes → UInt32
  | [b3, b2, b1, b0] => (b3.toUInt32 <<< 24) ||| (b2.toUInt32 <<< 16) |||
      (b1.toUInt32 <<< 8) ||| b0.toUInt32
  | _ => 0

/-- `binary.BigEndian.PutUint64`. -/
def putUint64 (v : UInt64) : Bytes :=
  [(v >>> 56).toUInt8, (v >>> 48).toUInt8, (v >>> 40).toUInt8, (v >>> 32).toUInt8,
    (v >>> 24).toUInt8, (v >>> 16).toUInt8, (v >>> 8).toUInt8, v.toUInt8]

@[simp] theorem putUint32_length (v : UInt32) : (putUint32 v).length = 4 := rfl

/-- A word is read back from the bytes it was written as. -/
theorem uint32_putUint32 (v : UInt32) : uint32 (putUint32 v) = v := by
  apply UInt32.toNat_inj.mp
  apply Nat.eq_of_testBit_eq
  intro i
  simp only [uint32, putUint32, UInt32.toNat_or, UInt32.toNat_shiftLeft, UInt8.toNat_toUInt32, UInt32.toNat_toUInt8,
    UInt32.toNat_shiftRight, Nat.testBit_or, Nat.testBit_shiftLeft, Nat.testBit_shiftRight, Nat.testBit_mod_two_pow]
  rcases Nat.lt_or_ge i 32 with _ | high
  · interval_cases i <;> simp
  · have clear : v.toNat.testBit i = false :=
      Nat.testBit_lt_two_pow (Nat.lt_of_lt_of_le v.toNat_lt (Nat.pow_le_pow_right (by decide) high))
    simp [clear]
    omega

/-- `binary.BigEndian.Uint64` on an eight-byte buffer. -/
def uint64 : Bytes → UInt64
  | [b7, b6, b5, b4, b3, b2, b1, b0] =>
    (b7.toUInt64 <<< 56) ||| (b6.toUInt64 <<< 48) ||| (b5.toUInt64 <<< 40) ||| (b4.toUInt64 <<< 32) |||
      (b3.toUInt64 <<< 24) ||| (b2.toUInt64 <<< 16) ||| (b1.toUInt64 <<< 8) ||| b0.toUInt64
  | _ => 0

/-- A double word is read back from the bytes it was written as. -/
theorem uint64_putUint64 (v : UInt64) : uint64 (putUint64 v) = v := by
  apply UInt64.toNat_inj.mp
  apply Nat.eq_of_testBit_eq
  intro i
  simp only [uint64, putUint64, UInt64.toNat_or, UInt64.toNat_shiftLeft, UInt8.toNat_toUInt64,
    UInt64.toNat_toUInt8, UInt64.toNat_shiftRight, Nat.testBit_or, Nat.testBit_shiftLeft, Nat.testBit_shiftRight,
    Nat.testBit_mod_two_pow]
  rcases Nat.lt_or_ge i 64 with _ | high
  · interval_cases i <;> simp
  · have clear : v.toNat.testBit i = false :=
      Nat.testBit_lt_two_pow (Nat.lt_of_lt_of_le v.toNat_lt (Nat.pow_le_pow_right (by decide) high))
    simp [clear]
    omega

/-- A word below the top bit has that bit clear and is unchanged by masking it. -/
theorem high_bit_clear (v : UInt32) (small : v.toNat < 2 ^ 31) : v &&& 0x80000000 = 0 ∧ v &&& ~~~0x80000000 = v := by
  have mask : (~~~0x80000000 : UInt32).toNat = 2 ^ 31 - 1 := rfl
  have bit : (0x80000000 : UInt32).toNat = 2 ^ 31 := rfl
  constructor
  · apply UInt32.toNat_inj.mp
    rw [UInt32.toNat_and, bit, Nat.and_two_pow, Nat.testBit_lt_two_pow small]
    simp
  · apply UInt32.toNat_inj.mp
    rw [UInt32.toNat_and, mask, Nat.and_two_pow_sub_one_eq_mod, Nat.mod_eq_of_lt small]

/-- Setting the top bit of such a word can be seen, and undone by masking. -/
theorem high_bit_set (v : UInt32) (small : v.toNat < 2 ^ 31) :
    (v ||| 0x80000000) &&& 0x80000000 = 0x80000000 ∧ (v ||| 0x80000000) &&& ~~~0x80000000 = v := by
  have mask : (~~~0x80000000 : UInt32).toNat = 2 ^ 31 - 1 := rfl
  have bit : (0x80000000 : UInt32).toNat = 2 ^ 31 := rfl
  have sum : v.toNat ||| 2 ^ 31 = 2 ^ 31 + v.toNat := by
    rw [Nat.or_comm]
    exact (Nat.two_pow_add_eq_or_of_lt small 1 ▸ by simp)
  constructor
  · apply UInt32.toNat_inj.mp
    rw [UInt32.toNat_and, UInt32.toNat_or, bit, Nat.and_two_pow, sum, Nat.testBit_two_pow_add_eq,
      Nat.testBit_lt_two_pow small]
    simp
  · apply UInt32.toNat_inj.mp
    rw [UInt32.toNat_and, UInt32.toNat_or, mask, bit, Nat.and_two_pow_sub_one_eq_mod, sum,
      Nat.add_mod_left, Nat.mod_eq_of_lt small]

/-- Two's complement 64-bit arithmetic. -/
def int64 (n : Int) : Int := Int.bmod n (2 ^ 64)

theorem int64_of_small {n : Int} (low : -2 ^ 63 ≤ n) (high : n < 2 ^ 63) : int64 n = n := by
  unfold int64
  rw [Int.bmod_eq_of_le] <;> omega

/-! ### Shared buffers -/

/-- A slice names its backing buffer: every holder of the slice sees the same
bytes, and sees them change. -/
abbrev Slice := Nat

structure Heap where
  buffers : List Bytes
  deriving DecidableEq, Repr

namespace Heap

variable (h : Heap) (slice : Slice)

def load : Bytes := h.buffers.getD slice []

def alloc (bytes : Bytes) : Slice × Heap := (h.buffers.length, ⟨h.buffers ++ [bytes]⟩)

/-- Overwrites every byte of one buffer with zero. -/
def zero : Heap :=
  ⟨h.buffers.modify slice fun bytes => List.replicate bytes.length 0⟩

@[simp] theorem load_alloc (bytes : Bytes) : (h.alloc bytes).2.load (h.alloc bytes).1 = bytes := by
  simp [load, alloc]

@[simp] theorem load_zero :
    (h.zero slice).load slice = List.replicate (h.load slice).length 0 := by
  simp only [load, zero, List.getD_eq_getElem?_getD, List.getElem?_modify_eq]
  cases h.buffers[slice]? <;> rfl

theorem load_zero_ne {cleared slice : Slice} (other : cleared ≠ slice) :
    (h.zero cleared).load slice = h.load slice := by
  simp [load, zero, List.getElem?_modify_ne _ _ other]

end Heap
end CipherLake.Lib
