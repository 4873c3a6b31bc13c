import CipherLake.Lib.Bytes
import Mathlib.Data.List.TakeDrop
import Mathlib.Data.List.TakeWhile

/-! The string functions of the Go standard library that the program uses, on
byte strings. -/
namespace CipherLake.Lib
open List

/-- `strings.HasPrefix(s, p)`. -/
def hasPrefix (s p : Bytes) : Bool := p.isPrefixOf s

/-- `strings.HasSuffix(s, p)`. -/
def hasSuffix (s p : Bytes) : Bool := p.isSuffixOf s

/-- `strings.TrimPrefix(s, p)`. -/
def trimPrefix (s p : Bytes) : Bytes := if hasPrefix s p then s.drop p.length else s

/-- `strings.TrimSuffix(s, p)`. -/
def trimSuffix (s p : Bytes) : Bytes := if hasSuffix s p then s.take (s.length - p.length) else s

/-- `strings.SplitN(s, sep, 2)` for a one-byte separator: what stands before the
first separator, and what stands behind it if there is one. -/
def cut (s : Bytes) (sep : UInt8) : Bytes × Option Bytes :=
  match s.span (· ≠ sep) with
  | (before, []) => (before, none)
  | (before, _ :: after) => (before, some after)

/-- `strings.Index(s, sub)`, `none` for -1. -/
def index : Bytes → Bytes → Option Nat
  | [], sub => if sub = [] then some 0 else none
  | b :: rest, sub => if hasPrefix (b :: rest) sub then some 0 else (index rest sub).map (· + 1)

/-- The UTF-8 forms of the characters `unicode.IsSpace` accepts. -/
def spaceForms : List Bytes :=
  [[9], [10], [11], [12], [13], [32], [0xC2, 0x85], [0xC2, 0xA0], [0xE1, 0x9A, 0x80], [0xE2, 0x80, 0x80],
    [0xE2, 0x80, 0x81], [0xE2, 0x80, 0x82], [0xE2, 0x80, 0x83], [0xE2, 0x80, 0x84], [0xE2, 0x80, 0x85],
    [0xE2, 0x80, 0x86], [0xE2, 0x80, 0x87], [0xE2, 0x80, 0x88], [0xE2, 0x80, 0x89], [0xE2, 0x80, 0x8A],
    [0xE2, 0x80, 0xA8], [0xE2, 0x80, 0xA9], [0xE2, 0x80, 0xAF], [0xE2, 0x81, 0x9F], [0xE3, 0x80, 0x80]]

def trimLeft (forms : List Bytes) : Nat → Bytes → Bytes
  | 0, s => s
  | fuel + 1, s =>
    match forms.find? fun form => form.isPrefixOf s with
    | none => s
    | some form => trimLeft forms fuel (s.drop form.length)

/-- `strings.TrimSpace`. -/
def trimSpace (s : Bytes) : Bytes :=
  let s := trimLeft spaceForms s.length s
  (trimLeft (spaceForms.map reverse) s.length s.reverse).reverse

/-- The value of a string of decimal digits. -/
def digits (s : Bytes) : Option Nat :=
  if s ≠ [] ∧ s.all fun c => 48 ≤ c ∧ c ≤ 57 then some (s.foldl (fun n c => 10 * n + (c.toNat - 48)) 0) else none

/-- `strconv.ParseInt(s, 10, 64)`. -/
def parseInt (s : Bytes) : Option Int :=
  let value : Option Int :=
    match s with
    | 45 :: rest => (digits rest).map fun n => -n
    | 43 :: rest => (digits rest).map fun n => n
    | _ => (digits s).map fun n => n
  value.filter fun n => -2 ^ 63 ≤ n ∧ n < 2 ^ 63

/-- `strings.ToLower` on text without non-ASCII letters. -/
def lowerASCII (s : Bytes) : Bytes := s.map fun c => if 65 ≤ c ∧ c ≤ 90 then c + 32 else c

@[simp] theorem hasPrefix_append (p s : Bytes) : hasPrefix (p ++ s) p = true :=
  isPrefixOf_iff_prefix.mpr (prefix_append p s)

@[simp] theorem trimPrefix_append (p s : Bytes) : trimPrefix (p ++ s) p = s := by
  simp [trimPrefix]

theorem cut_append {a : Bytes} {sep : UInt8} (absent : sep ∉ a) (b : Bytes) :
    cut (a ++ sep :: b) sep = (a, some b) := by
  have before : ∀ c ∈ a, (decide (c ≠ sep)) = true := by
    intro c held
    simpa using ne_of_mem_of_not_mem held absent
  rw [cut, span_eq_takeWhile_dropWhile, takeWhile_append_of_pos before, dropWhile_append_of_pos before]
  simp

theorem cut_of_notMem {a : Bytes} {sep : UInt8} (absent : sep ∉ a) : cut a sep = (a, none) := by
  have before : ∀ c ∈ a, (decide (c ≠ sep)) = true := by
    intro c held
    simpa using ne_of_mem_of_not_mem held absent
  rw [cut, span_eq_takeWhile_dropWhile, takeWhile_eq_self_iff.mpr before,
    dropWhile_eq_nil_iff.mpr before]

/-- What `index` finds stands at that place. -/
theorem index_some {s sub : Bytes} {i : Nat} (found : index s sub = some i) :
    ∃ before after, s = before ++ sub ++ after ∧ before.length = i := by
  induction s generalizing i with
  | nil =>
    rw [index] at found
    split at found
    · next empty => exact ⟨[], [], by simp [empty], by simpa using found⟩
    · cases found
  | cons b rest ih =>
    rw [index] at found
    split at found
    · next here =>
      obtain ⟨after, whole⟩ := isPrefixOf_iff_prefix.mp here
      exact ⟨[], after, by simp [whole], by simpa using found⟩
    · obtain ⟨_, later, rfl⟩ := Option.map_eq_some_iff.mp found
      obtain ⟨before, after, rfl, rfl⟩ := ih later
      exact ⟨b :: before, after, by simp, by simp⟩

/-- A separator that neither first part holds tells where the first part ends. -/
theorem append_separator_inj {a b : Bytes} {sep : UInt8} (inFirst : sep ∉ a) (inSecond : sep ∉ b)
    (x y : Bytes) : a ++ sep :: x = b ++ sep :: y ↔ a = b ∧ x = y := by
  constructor
  · intro same
    have parts := congrArg (cut · sep) same
    simpa [cut_append inFirst, cut_append inSecond] using parts
  · rintro ⟨rfl, rfl⟩
    rfl

private theorem trimLeft_of_graphic {forms : List Bytes} {c : UInt8}
    (foreign : ∀ form ∈ forms, form.head? ≠ some c ∧ form ≠ []) (fuel : Nat) (rest : Bytes) :
    trimLeft forms fuel (c :: rest) = c :: rest := by
  have none_found : (forms.find? fun form => form.isPrefixOf (c :: rest)) = none := by
    rw [List.find?_eq_none]
    intro form held
    rcases form with - | ⟨_, form⟩
    · exact absurd rfl (foreign _ held).2
    · have other := (foreign _ held).1
      simp only [List.head?_cons, ne_eq, Option.some.injEq] at other
      simp [isPrefixOf, other]
  cases fuel with
  | zero => rfl
  | succ fuel => simp only [trimLeft, none_found]

/-- A printable ASCII byte other than a blank. -/
def graphic (c : UInt8) : Bool := 33 ≤ c ∧ c ≤ 126

private theorem spaceForms_foreign {c : UInt8} (visible : graphic c = true) :
    (∀ form ∈ spaceForms, form.head? ≠ some c ∧ form ≠ []) ∧
      ∀ form ∈ spaceForms.map reverse, form.head? ≠ some c ∧ form ≠ [] := by
  have apart : ∀ forms : List Bytes, (forms.all fun form => (form.head?.map graphic) == some false) = true →
      ∀ form ∈ forms, form.head? ≠ some c ∧ form ≠ [] := by
    intro forms blank form held
    have starts := all_eq_true.mp blank form held
    constructor
    · intro first
      simp [first, visible] at starts
    · rintro rfl
      simp at starts
  exact ⟨apart _ (by decide), apart _ (by decide)⟩

/-- Nothing is trimmed from text that starts and ends with a visible byte. -/
theorem trimSpace_of_graphic {s : Bytes} {first last : UInt8} (starts : s.head? = some first)
    (ends : s.getLast? = some last) (firstVisible : graphic first = true)
    (lastVisible : graphic last = true) : trimSpace s = s := by
  obtain ⟨rest, rfl⟩ : ∃ rest, s = first :: rest := by
    cases s with
    | nil => simp at starts
    | cons c rest => exact ⟨rest, by simpa using starts⟩
  obtain ⟨front, backwards⟩ : ∃ front, (first :: rest).reverse = last :: front := by
    rw [List.getLast?_eq_head?_reverse] at ends
    cases reversed : (first :: rest).reverse with
    | nil => simp at reversed
    | cons c front => exact ⟨front, by simpa [reversed] using ends⟩
  simp only [trimSpace, trimLeft_of_graphic (spaceForms_foreign firstVisible).1]
  rw [backwards, trimLeft_of_graphic (spaceForms_foreign lastVisible).2, ← backwards, reverse_reverse]

/-! ### Numbers in decimal -/

private theorem toString_digits (n : Nat) : (toString n).toList = Nat.toDigits 10 n := by
  rw [Nat.toString_eq_repr, Nat.toList_repr]

private theorem toDigits_range {n : Nat} {c : Char} (member : c ∈ Nat.toDigits 10 n) : 48 ≤ c.toNat ∧ c.toNat ≤ 57 :=
  Char.isDigit_iff_toNat.mp (Nat.isDigit_of_mem_toDigits (by decide) (by decide) member)

/-- A number is written in digits. -/
theorem digit_of_mem_toString {n : Nat} {b : UInt8} (member : b ∈ str (toString n)) : 48 ≤ b ∧ b ≤ 57 := by
  rw [str, toString_digits] at member
  obtain ⟨_, listed, rfl⟩ := mem_map.mp member
  obtain ⟨low, high⟩ := toDigits_range listed
  rw [UInt8.le_iff_toNat_le, UInt8.le_iff_toNat_le, UInt8.toNat_ofNat', Nat.mod_eq_of_lt (by omega)]
  exact ⟨low, high⟩

/-- Numbers are written differently. -/
theorem str_toString_injective : Function.Injective fun n : Nat => str (toString n) := by
  have undone (n : Nat) : (str (toString n)).map (fun b => Char.ofNat b.toNat) = Nat.toDigits 10 n := by
    rw [str, toString_digits, map_map]
    refine (map_congr_left fun c listed => ?_).trans (map_id _)
    obtain ⟨-, _⟩ := toDigits_range listed
    rw [Function.comp_apply, UInt8.toNat_ofNat', Nat.mod_eq_of_lt (by omega), Char.ofNat_toNat, id]
  intro m n same
  have digits : Nat.toDigits 10 m = Nat.toDigits 10 n := by
    rw [← undone, ← undone]
    exact congrArg (map _) same
  simpa using congrArg (Nat.ofDigitChars 10 · 0) digits

end CipherLake.Lib
