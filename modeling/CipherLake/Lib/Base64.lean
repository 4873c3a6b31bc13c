import CipherLake.Lib.Bytes

/-! The padded base64 encoding with the alphabet for file names and addresses. -/
namespace CipherLake.Lib.Base64

def digit (v : Nat) : UInt8 :=
  if v < 26 then (65 + v).toUInt8
  else if v < 52 then (71 + v).toUInt8
  else if v < 62 then (v - 4).toUInt8
  else if v = 62 then 45
  else 95

def value (c : UInt8) : Nat :=
  if 65 ≤ c ∧ c ≤ 90 then c.toNat - 65
  else if 97 ≤ c ∧ c ≤ 122 then c.toNat - 71
  else if 48 ≤ c ∧ c ≤ 57 then c.toNat + 4
  else if c = 45 then 62
  else 63

/-- `base64.URLEncoding.EncodeToString`. -/
def encode : Bytes → Bytes
  | [] => []
  | [a] => [digit (a.toNat / 4), digit (a.toNat % 4 * 16), 61, 61]
  | [a, b] => [digit (a.toNat / 4), digit (a.toNat % 4 * 16 + b.toNat / 16), digit (b.toNat % 16 * 4), 61]
  | a :: b :: c :: rest =>
    digit (a.toNat / 4) :: digit (a.toNat % 4 * 16 + b.toNat / 16) :: digit (b.toNat % 16 * 4 + c.toNat / 64) ::
      digit (c.toNat % 64) :: encode rest

theorem value_digit {v : Nat} (small : v < 64) : value (digit v) = v := by
  have all : ∀ v : Fin 64, value (digit v) = v := by decide
  exact all ⟨v, small⟩

/-- Letters, numerals, the hyphen and the underscore. -/
def letter (c : UInt8) : Bool := 45 ≤ c && c ≤ 122 && c ≠ 47 && c ≠ 61

theorem letter_digit (v : Nat) : letter (digit v) = true := by
  have all : ∀ v : Fin 64, letter (digit v) = true := by decide
  by_cases small : v < 64
  · exact all ⟨v, small⟩
  · have last : digit v = 95 := by
      unfold digit
      rw [if_neg (by omega), if_neg (by omega), if_neg (by omega), if_neg (by omega)]
    rw [last]
    rfl

theorem digit_ne_pad (v : Nat) : digit v ≠ 61 := by
  intro pad
  have isLetter := letter_digit v
  rw [pad] at isLetter
  cases isLetter

/-- Every character is a letter or padding. -/
theorem mem_encode {s : Bytes} {c : UInt8} (member : c ∈ encode s) : letter c = true ∨ c = 61 := by
  induction s using encode.induct with
  | case1 => cases member
  | case2 a =>
    simp only [encode, List.mem_cons, List.not_mem_nil, or_false] at member
    rcases member with rfl | rfl | rfl | rfl <;> simp [letter_digit]
  | case3 a b =>
    simp only [encode, List.mem_cons, List.not_mem_nil, or_false] at member
    rcases member with rfl | rfl | rfl | rfl <;> simp [letter_digit]
  | case4 a b c' rest ih =>
    simp only [encode, List.mem_cons] at member
    rcases member with rfl | rfl | rfl | rfl | later
    · exact .inl (letter_digit _)
    · exact .inl (letter_digit _)
    · exact .inl (letter_digit _)
    · exact .inl (letter_digit _)
    · exact ih later

theorem slash_notMem_encode (s : Bytes) : 47 ∉ encode s := by
  intro member
  rcases mem_encode member with isLetter | ⟨⟨⟩⟩
  cases isLetter

theorem ascii_encode {s : Bytes} {c : UInt8} (member : c ∈ encode s) : c < 0x80 := by
  rcases mem_encode member with isLetter | rfl
  · simp only [letter, Bool.and_eq_true, decide_eq_true_eq] at isLetter
    exact Nat.lt_of_le_of_lt isLetter.1.1.2 (by decide)
  · decide

/-- The text of an encoding. -/
def decode : Bytes → Bytes
  | p :: q :: r :: u :: rest =>
    let first := (value p * 4 + value q / 16).toUInt8
    let second := (value q % 16 * 16 + value r / 4).toUInt8
    if r = 61 then [first]
    else if u = 61 then [first, second]
    else first :: second :: (value r % 4 * 64 + value u).toUInt8 :: decode rest
  | _ => []

private theorem toUInt8_eq {n : Nat} {a : UInt8} (same : n = a.toNat) : n.toUInt8 = a := by
  rw [same]
  exact UInt8.ofNat_toNat

theorem decode_encode (s : Bytes) : decode (encode s) = s := by
  induction s using encode.induct with
  | case1 => rfl
  | case2 a =>
    have bound := a.toNat_lt
    rw [encode, decode, if_pos rfl, value_digit (by omega), value_digit (by omega), toUInt8_eq (a := a) (by omega)]
  | case3 a b =>
    have bound := a.toNat_lt
    have bound' := b.toNat_lt
    rw [encode, decode, if_neg (digit_ne_pad _), if_pos rfl, value_digit (by omega), value_digit (by omega),
      value_digit (by omega), toUInt8_eq (a := a) (by omega), toUInt8_eq (a := b) (by omega)]
  | case4 a b c rest ih =>
    have bound := a.toNat_lt
    have bound' := b.toNat_lt
    have bound'' := c.toNat_lt
    rw [encode, decode, if_neg (digit_ne_pad _), if_neg (digit_ne_pad _), value_digit (by omega), value_digit (by omega),
      value_digit (by omega), value_digit (by omega), ih, toUInt8_eq (a := a) (by omega), toUInt8_eq (a := b) (by omega),
      toUInt8_eq (a := c) (by omega)]

end CipherLake.Lib.Base64
