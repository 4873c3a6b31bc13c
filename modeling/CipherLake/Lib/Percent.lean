import CipherLake.Lib.Bytes

/-! Percent-encoding. An encoding leaves a set of bytes bare and writes every
other byte as `%` and two hexadecimal digits; a decoding undoes it, and fails
on a `%` that two such digits do not follow. -/
namespace CipherLake.Lib
open List Option

def hexDigit (n : Nat) : UInt8 := if n < 10 then (48 + n).toUInt8 else (55 + n).toUInt8

def hexValue (c : UInt8) : Option Nat :=
  if 48 ≤ c ∧ c ≤ 57 then some (c.toNat - 48)
  else if 97 ≤ c ∧ c ≤ 102 then some (c.toNat - 87)
  else if 65 ≤ c ∧ c ≤ 70 then some (c.toNat - 55)
  else none

/-- Letters, digits and `-`, `_`, `.`, `~`. -/
def unreserved (c : UInt8) : Bool :=
  (97 ≤ c ∧ c ≤ 122) || (65 ≤ c ∧ c ≤ 90) || (48 ≤ c ∧ c ≤ 57) || c = 45 || c = 95 || c = 46 || c = 126

def percent (c : UInt8) : Bytes := [37, hexDigit (c.toNat / 16), hexDigit (c.toNat % 16)]

def encodeByte (bare : UInt8 → Bool) (c : UInt8) : Bytes := if bare c then [c] else percent c

def escapeWith (bare : UInt8 → Bool) (s : Bytes) : Bytes := s.flatMap (encodeByte bare)

/-- Decoding; in a query a `+` stands for a space. -/
def unescape (plusIsSpace : Bool) : Bytes → Option Bytes
  | [] => some []
  | c :: rest =>
    if c = 37 then
      match rest with
      | a :: b :: rest =>
        match hexValue a, hexValue b with
        | some high, some low => (unescape plusIsSpace rest).map ((high * 16 + low).toUInt8 :: ·)
        | _, _ => none
      | _ => none
    else (unescape plusIsSpace rest).map ((if plusIsSpace ∧ c = 43 then 32 else c) :: ·)

attribute [local simp] unescape

/-- What `url.PathEscape` leaves bare. -/
def pathBare (c : UInt8) : Bool := unreserved c || c ∈ str "$&+:=@"

/-- `url.PathEscape`. -/
def pathEscape (s : Bytes) : Bytes := escapeWith pathBare s

/-- `url.QueryEscape`: a space becomes a `+`. -/
def queryEscape (s : Bytes) : Bytes :=
  s.flatMap fun c => if c = 32 then [43] else encodeByte unreserved c

private theorem hexValue_hexDigit (n : Nat) (small : n < 16) : hexValue (hexDigit n) = some n := by
  interval_cases n <;> rfl

private theorem unescape_percent (plus : Bool) (c : UInt8) (rest : Bytes) :
    unescape plus (percent c ++ rest) = (unescape plus rest).map (c :: ·) := by
  have bound := c.toNat_lt
  have whole : c.toNat / 16 * 16 + c.toNat % 16 = c.toNat := by omega
  simp [percent, hexValue_hexDigit (c.toNat / 16) (by omega),
    hexValue_hexDigit (c.toNat % 16) (by omega), whole]

variable {c : UInt8} {bare : UInt8 → Bool} {s t d : Bytes}

theorem unescape_plain {plus : Bool} (plain : c ≠ 37) (rest : Bytes) :
    unescape plus (c :: rest) = (unescape plus rest).map ((if plus ∧ c = 43 then 32 else c) :: ·) := by
  rcases rest with - | ⟨_, - | ⟨_, rest⟩⟩ <;> simp [plain]

/-- What was encoded is read back, as long as neither `%` nor, in a query, `+`
is left bare. -/
theorem unescape_escapeWith {plus : Bool} (percentCoded : bare 37 = false) (plusCoded : plus = true → bare 43 = false)
    (s : Bytes) : unescape plus (escapeWith bare s) = some s := by
  induction s with
  | nil => rfl
  | cons c s ih =>
    rw [escapeWith, flatMap_cons, ← escapeWith, encodeByte]
    split
    · next isBare =>
      have plain : c ≠ 37 := by
        rintro rfl
        simp [percentCoded] at isBare
      rw [singleton_append, unescape_plain plain, ih]
      by_cases asSpace : plus = true ∧ c = 43
      · obtain ⟨query, rfl⟩ := asSpace
        simp [plusCoded query] at isBare
      · simp [asSpace]
    · rw [unescape_percent, ih]
      rfl

/-- Decoding shortens whatever it changes. -/
theorem unescape_shorter (decoded : unescape false s = some t) :
    t.length ≤ s.length ∧ (37 ∈ s → t.length < s.length) := by
  fun_induction unescape false s generalizing t with
  | case1 => simp_all
  | case2 a b rest high low atB atA ih =>
    obtain ⟨tail, found, rfl⟩ := map_eq_some_iff.mp decoded
    have := ih found
    simp only [length_cons]
    omega
  | case3 | case4 => cases decoded
  | case5 c rest plain ih =>
    obtain ⟨tail, found, rfl⟩ := map_eq_some_iff.mp decoded
    have shorter := ih found
    simp only [length_cons, mem_cons, Ne.symm plain, false_or]
    exact ⟨Nat.succ_le_succ shorter.1, fun present => Nat.succ_lt_succ (shorter.2 present)⟩

theorem unescape_eq_self_iff (decoded : unescape false s = some t) : t = s ↔ 37 ∉ s := by
  constructor
  · rintro rfl present
    exact absurd ((unescape_shorter decoded).2 present) (Nat.lt_irrefl _)
  · intro absent
    induction s generalizing t with
    | nil => simpa using decoded.symm
    | cons c s ih =>
      rw [mem_cons, not_or] at absent
      rw [unescape_plain (Ne.symm absent.1)] at decoded
      obtain ⟨_, found, rfl⟩ := map_eq_some_iff.mp decoded
      simp [ih found absent.2]

/-- A query parameter is read back. -/
theorem unescape_queryEscape (s : Bytes) : unescape true (queryEscape s) = some s := by
  induction s with
  | nil => rfl
  | cons c s ih =>
    rw [queryEscape, flatMap_cons, ← queryEscape]
    by_cases space : c = 32
    · rw [if_pos space, singleton_append, unescape_plain (by decide), ih]
      simp [space]
    rw [if_neg space, encodeByte]
    split
    · next bare =>
      have plain : c ≠ 37 ∧ c ≠ 43 := by
        constructor <;> rintro rfl <;> exact absurd bare (by decide)
      rw [singleton_append, unescape_plain plain.1, ih]
      simp [plain.2]
    · rw [unescape_percent, ih]
      rfl

/-- How each byte of a decoded text was written: as itself, or by the two digits
of an escape. -/
def escapes : Bytes → List (Option (UInt8 × UInt8))
  | [] => []
  | c :: rest =>
    if c = 37 then
      match rest with
      | a :: b :: rest => some (a, b) :: escapes rest
      | _ => []
    else none :: escapes rest

theorem escapes_plain (plain : c ≠ 37) (rest : Bytes) : escapes (c :: rest) = none :: escapes rest := by
  rcases rest with - | ⟨_, - | ⟨_, rest⟩⟩ <;> simp [escapes, plain]

theorem unescape_nil (decoded : unescape false s = some []) : s = [] := by
  fun_induction unescape false s <;> simp_all

/-- How the first byte of what is decoded was written. -/
theorem unescape_cons (decoded : unescape false s = some (c :: d)) :
    (∃ a b rest, s = 37 :: a :: b :: rest ∧ unescape false rest = some d) ∨
      ∃ rest, c ≠ 37 ∧ s = c :: rest ∧ unescape false rest = some d := by
  fun_induction unescape false s with
  | case1 | case3 | case4 => cases decoded
  | case2 a b rest high low atB atA =>
    obtain ⟨_, found, ⟨⟩⟩ := map_eq_some_iff.mp decoded
    exact .inl ⟨a, b, rest, rfl, found⟩
  | case5 c rest plain =>
    obtain ⟨_, found, ⟨⟩⟩ := map_eq_some_iff.mp decoded
    exact .inr ⟨rest, by simpa using plain, by simp, found⟩

/-- A text is determined by what it decodes to and how that was written. -/
theorem unescape_inj (first : unescape false s = some d) (second : unescape false t = some d)
    (alike : escapes s = escapes t) : s = t := by
  induction d generalizing s t with
  | nil => rw [unescape_nil first, unescape_nil second]
  | cons c d ih =>
    rcases unescape_cons first with ⟨_, _, rest, rfl, found⟩ | ⟨rest, plain, rfl, found⟩
    · rcases unescape_cons second with ⟨a', b', rest', rfl, found'⟩ | ⟨rest', plain', rfl, found'⟩
      · simp only [escapes, if_true, cons.injEq, some.injEq, Prod.mk.injEq] at alike
        rw [alike.1.1, alike.1.2, ih found found' alike.2]
      · rw [escapes_plain plain'] at alike
        simp [escapes] at alike
    · rcases unescape_cons second with ⟨a', b', rest', rfl, found'⟩ | ⟨rest', plain', rfl, found'⟩
      · rw [escapes_plain plain] at alike
        simp [escapes] at alike
      · rw [escapes_plain plain, escapes_plain plain'] at alike
        rw [ih found found' (cons.inj alike).2]

theorem escapes_length (decoded : unescape false s = some d) : (escapes s).length = d.length := by
  induction d generalizing s with
  | nil =>
    rw [unescape_nil decoded]
    rfl
  | cons c d ih =>
    rcases unescape_cons decoded with ⟨_, _, rest, rfl, found⟩ | ⟨rest, plain, rfl, found⟩
    · simp [escapes, ih found]
    · simp [escapes_plain plain, ih found]

/-- Without an escape nothing is decoded. -/
theorem unescape_unescaped (decoded : unescape false s = some d)
    (unescaped : escapes s = replicate d.length none) : s = d := by
  induction d generalizing s with
  | nil => exact unescape_nil decoded
  | cons c d ih =>
    rcases unescape_cons decoded with ⟨_, _, rest, rfl, found⟩ | ⟨rest, plain, rfl, found⟩
    · simp [escapes, replicate_succ] at unescaped
    · rw [escapes_plain plain, length_cons, replicate_succ] at unescaped
      rw [ih found (cons.inj unescaped).2]

/-- Two encodings of one string agree exactly when they leave the same of its
bytes bare. -/
theorem escapeWith_eq_iff {other : UInt8 → Bool} (coded : bare 37 = false) (otherCoded : other 37 = false) (s : Bytes) :
    escapeWith bare s = escapeWith other s ↔ ∀ c ∈ s, bare c = other c := by
  induction s with
  | nil => simp [escapeWith]
  | cons c s ih =>
    have notBare {p : UInt8 → Bool} (pCoded : p 37 = false) (isBare : p c = true) : c ≠ 37 := by
      rintro rfl
      simp [pCoded] at isBare
    simp only [escapeWith, flatMap_cons, forall_mem_cons, encodeByte] at ih ⊢
    rcases first : bare c with - | - <;> rcases second : other c with - | -
    · simp [ih, percent]
    · simp [percent, Ne.symm (notBare otherCoded second)]
    · simp [percent, notBare coded first]
    · simp [ih]

/-- What an encoding is made of. -/
theorem mem_escapeWith (held : c ∈ escapeWith bare s) : bare c = true ∨ c = 37 ∨ unreserved c = true := by
  obtain ⟨d, -, written⟩ := mem_flatMap.mp held
  have digit : ∀ n < 16, unreserved (hexDigit n) = true := by decide
  have bound := d.toNat_lt
  unfold encodeByte at written
  split at written
  · next isBare =>
    rw [mem_singleton] at written
    exact .inl (written ▸ isBare)
  · simp only [percent, mem_cons, not_mem_nil, or_false] at written
    rcases written with rfl | rfl | rfl
    · exact .inr (.inl rfl)
    · exact .inr (.inr (digit _ (by omega)))
    · exact .inr (.inr (digit _ (by omega)))

theorem mem_queryEscape (held : c ∈ queryEscape s) : c = 43 ∨ c = 37 ∨ unreserved c = true := by
  obtain ⟨d, -, written⟩ := mem_flatMap.mp held
  split at written
  · exact .inl (mem_singleton.mp written)
  · have single : c ∈ escapeWith unreserved [d] := by simpa [escapeWith] using written
    rcases mem_escapeWith single with bare | rest
    · exact .inr (.inr bare)
    · exact .inr rest

theorem queryEscape_injective : Function.Injective queryEscape := by
  intro s t same
  have undone := congrArg (unescape true) same
  rwa [unescape_queryEscape, unescape_queryEscape, some.injEq] at undone

theorem queryEscape_eq (plain : 32 ∉ s) : queryEscape s = escapeWith unreserved s := by
  simp only [queryEscape, escapeWith, flatMap_def]
  congr 1
  apply map_congr_left
  intro c held
  rw [if_neg (ne_of_mem_of_not_mem held plain)]

theorem plus_mem_queryEscape (spaced : 32 ∈ s) : 43 ∈ queryEscape s :=
  mem_flatMap.mpr ⟨32, spaced, by simp⟩

/-- Encoding the parts between separators is encoding the whole with the
separator left bare. -/
theorem escapeWith_splitOn (bare : UInt8 → Bool) (sep : UInt8) (s : Bytes) :
    [sep].intercalate ((s.splitOn sep).map (escapeWith bare)) = escapeWith (fun c => bare c || c = sep) s := by
  induction s with
  | nil => rfl
  | cons c s ih =>
    have some_part : (s.splitOn sep).map (escapeWith bare) ≠ [] := by simp [splitOn_ne_nil]
    rw [splitOn_cons_eq_if_modifyHead]
    by_cases isSep : c = sep
    · subst isSep
      rw [if_pos (beq_self_eq_true c), map_cons, intercalate_cons_of_ne_nil some_part, ih]
      simp [escapeWith, encodeByte]
    rw [if_neg (by simpa using isSep)]
    obtain ⟨part, _, split⟩ := exists_cons_of_ne_nil (splitOn_ne_nil sep s)
    rw [split] at ih ⊢
    have grown : ∀ tail : List Bytes, [sep].intercalate (escapeWith bare (c :: part) :: tail) =
        encodeByte bare c ++ [sep].intercalate (escapeWith bare part :: tail) := by
      intro tail
      cases tail <;> simp [escapeWith]
    rw [modifyHead_cons, map_cons, grown, ← map_cons, ih]
    simp [escapeWith, encodeByte, isSep]

end CipherLake.Lib
