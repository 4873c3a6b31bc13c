import CipherLake.SigV4
import Mathlib.Data.List.Perm.Basic

/-! What the texts that are signed are made of: escaped paths and parameters
between separators that no escaped text contains. -/
namespace CipherLake.SigV4
open Lib Http List

variable {sep b : UInt8} {p q part : Bytes} {parts : List Bytes} (path rawQuery : Bytes)

theorem mem_join (held : b ∈ join sep parts) : b = sep ∨ ∃ part ∈ parts, b ∈ part := by
  unfold join at held
  induction parts with
  | nil => simp at held
  | cons part parts ih =>
    by_cases last : parts = []
    · subst last
      exact .inr ⟨part, by simp, by simpa using held⟩
    rw [intercalate_cons_of_ne_nil last, mem_append, mem_append, mem_singleton] at held
    rcases held with (inPart | isSep) | later
    · exact .inr ⟨part, by simp, inPart⟩
    · exact .inl isSep
    · rcases ih later with isSep | ⟨other, listed, inOther⟩
      · exact .inl isSep
      · exact .inr ⟨other, mem_cons_of_mem _ listed, inOther⟩

theorem mem_join_of_mem (listed : part ∈ parts) (held : b ∈ part) : b ∈ join sep parts := by
  unfold join
  induction parts with
  | nil => simp at listed
  | cons first parts ih =>
    by_cases last : parts = []
    · subst last
      simpa [mem_singleton.mp listed] using held
    · rw [intercalate_cons_of_ne_nil last, mem_append, mem_append]
      rcases mem_cons.mp listed with rfl | later
      · exact .inl (.inl held)
      · exact .inr (ih later)

/-! ### The path -/

/-- What the canonical path leaves bare. -/
def slashBare (b : UInt8) : Bool := pathBare b || b = 47

theorem getCanonicalURI_rooted (rest : Bytes) :
    getCanonicalURI (47 :: rest) = escapeWith slashBare ((unescape false (47 :: rest)).getD (47 :: rest)) := by
  obtain ⟨tail, decoded⟩ : ∃ tail, (unescape false (47 :: rest)).getD (47 :: rest) = 47 :: tail := by
    rw [unescape_plain (by decide)]
    cases unescape false rest with
    | none => exact ⟨rest, rfl⟩
    | some tail => exact ⟨tail, rfl⟩
  have joined : join 47 (((47 :: tail).splitOn 47).map pathEscape) = escapeWith slashBare (47 :: tail) :=
    escapeWith_splitOn pathBare 47 (47 :: tail)
  have starts : hasPrefix (escapeWith slashBare (47 :: tail)) (str "/") = true := by
    exact hasPrefix_append _ _
  unfold getCanonicalURI
  rw [if_neg (cons_ne_nil _ _)]
  simp [decoded, joined, starts]

theorem newline_notMem_escape {bare : UInt8 → Bool} (coded : bare 10 = false) (s : Bytes) : 10 ∉ escapeWith bare s := by
  intro held
  rcases mem_escapeWith held with isBare | isPercent | isUnreserved
  · simp [coded] at isBare
  · exact absurd isPercent (by decide)
  · exact absurd isUnreserved (by decide)

theorem newline_notMem_uri : 10 ∉ getCanonicalURI path := by
  have joined : ∀ decoded : Bytes, join 47 ((decoded.splitOn 47).map pathEscape) = escapeWith slashBare decoded :=
    escapeWith_splitOn pathBare 47
  unfold getCanonicalURI
  generalize (if path = [] then str "/" else path) = path
  simp only [joined]
  split
  · exact newline_notMem_escape (by decide) _
  · rw [mem_append, not_or]
    exact ⟨by decide, newline_notMem_escape (by decide) _⟩

/-- The path once more decoded, as far as it can be. -/
def decodedPath (path : Bytes) : Bytes := (unescape false path).getD path

/-- How the bytes of the path are written, before they are decoded once more. -/
def spelling (path : Bytes) : List (Option (UInt8 × UInt8)) :=
  match unescape false path with
  | none => replicate path.length none
  | some _ => escapes path

theorem spelling_length : (spelling path).length = (decodedPath path).length := by
  unfold spelling decodedPath
  cases decoded : unescape false path with
  | none => simp
  | some d => exact escapes_length decoded

/-- Two paths that decode alike and are spelled alike are the same. -/
theorem spelled_inj (decoded : decodedPath p = decodedPath q) (alike : spelling p = spelling q) : p = q := by
  unfold decodedPath at decoded
  unfold spelling at alike
  cases first : unescape false p with
  | none =>
    cases second : unescape false q with
    | none => simpa [first, second] using decoded
    | some d =>
      simp only [first, second, Option.getD_none, Option.getD_some] at decoded alike
      subst decoded
      exact (unescape_unescaped second alike.symm).symm
  | some d =>
    cases second : unescape false q with
    | none =>
      simp only [first, second, Option.getD_none, Option.getD_some] at decoded alike
      subst decoded
      exact unescape_unescaped first alike
    | some d' =>
      simp only [first, second, Option.getD_some] at decoded alike
      subst decoded
      exact unescape_inj first second alike

/-- The canonical path is the escaped path, with a slash before it if need be. -/
theorem getCanonicalURI_eq {path : Bytes} (named : path ≠ []) :
    ∃ text, (text = decodedPath path ∨ text = 47 :: decodedPath path) ∧
      getCanonicalURI path = escapeWith slashBare text := by
  have joined : join 47 (((decodedPath path).splitOn 47).map pathEscape) = escapeWith slashBare (decodedPath path) :=
    escapeWith_splitOn pathBare 47 (decodedPath path)
  have decodes : (unescape false path).getD path = decodedPath path := rfl
  unfold getCanonicalURI
  simp only [if_neg named, decodes, joined]
  split
  · exact ⟨_, .inl rfl, rfl⟩
  · have slash : encodeByte slashBare 47 = str "/" := by decide
    refine ⟨_, .inr rfl, ?_⟩
    rw [escapeWith, escapeWith, flatMap_cons, slash]

/-- Paths of one canonical form that are spelled alike are the same. -/
theorem getCanonicalURI_inj (same : getCanonicalURI p = getCanonicalURI q)
    (alike : spelling p = spelling q) : p = q := by
  have lengths : (decodedPath p).length = (decodedPath q).length := by
    rw [← spelling_length, ← spelling_length, alike]
  refine spelled_inj ?_ alike
  by_cases empty : p = [] ∨ q = []
  · have both : decodedPath p = [] ∧ decodedPath q = [] := by
      rcases empty with rfl | rfl
      · exact ⟨rfl, length_eq_zero_iff.mp lengths.symm⟩
      · exact ⟨length_eq_zero_iff.mp lengths, rfl⟩
    rw [both.1, both.2]
  · rw [not_or] at empty
    obtain ⟨x, xForm, xEq⟩ := getCanonicalURI_eq empty.1
    obtain ⟨y, yForm, yEq⟩ := getCanonicalURI_eq empty.2
    have texts : x = y := by
      have undone := congrArg (unescape false) (xEq.symm.trans (same.trans yEq))
      rwa [unescape_escapeWith (by decide) (by simp), unescape_escapeWith (by decide) (by simp),
        Option.some.injEq] at undone
    subst texts
    rcases xForm with rfl | rfl <;> rcases yForm with eq | eq
    · exact eq
    · simp [eq] at lengths
    · simp [← eq] at lengths
    · exact (cons.inj eq).2

/-! ### The query -/

/-- A separator is not part of an escaped parameter. -/
theorem separator_notMem_queryEscape (separator : b = 10 ∨ b = 38 ∨ b = 61) (s : Bytes) : b ∉ queryEscape s := by
  intro held
  have forms := mem_queryEscape held
  rcases separator with rfl | rfl | rfl <;> exact absurd forms (by decide)

theorem join_six (a b x d e f : Bytes) :
    join 10 [a, b, x, d, e, f] = a ++ 10 :: (b ++ 10 :: (x ++ 10 :: (d ++ 10 :: (e ++ 10 :: f)))) := by
  simp [join]

theorem newline_notMem_query : 10 ∉ getCanonicalQueryString rawQuery := by
  unfold getCanonicalQueryString
  split
  · exact not_mem_nil
  intro held
  rcases mem_join held with isSep | ⟨_, listed, inPart⟩
  · exact absurd isSep (by decide)
  · obtain ⟨_, sorted, rfl⟩ := mem_map.mp listed
    obtain ⟨_, -, rfl⟩ := mem_map.mp ((mem_insertionSort _).mp sorted)
    simp [encodePair, separator_notMem_queryEscape (.inl rfl), str] at inPart

/-- The parameters of a query, as they are written. -/
def parameters (rawQuery : Bytes) : List Bytes := (rawQuery.splitOn 38).filter (· ≠ [])

/-- What is signed of a parameter: a name or value that cannot be decoded is
taken as it is. -/
def signedParameter (part : Bytes) : Bytes × Bytes :=
  let (key, value) := cut part 61
  ((unescape true key).getD key, (unescape true (value.getD [])).getD (value.getD []))

/-- What `net/http` reads of a parameter. -/
def readParameter (part : Bytes) : Option (Bytes × Bytes) :=
  if 59 ∈ part then none
  else
    let (key, value) := cut part 61
    match unescape true key, unescape true (value.getD []) with
    | some key, some value => some (key, value)
    | _, _ => none

/-- A parameter in the canonical query. -/
def canonicalParameter (p : Bytes × Bytes) : Bytes := encodePair (queryEscape p.1, queryEscape p.2)

theorem readParameter_signed {p : Bytes × Bytes} (read : readParameter part = some p) : p = signedParameter part := by
  unfold readParameter at read
  unfold signedParameter
  split at read
  · cases read
  simp only at read
  split at read
  · next key value atKey atValue =>
    cases read
    simp [atKey, atValue]
  · cases read

theorem parseQuery_eq : parseQuery rawQuery = (parameters rawQuery).filterMap readParameter := by
  unfold parseQuery parameters
  rw [filterMap_filter]
  refine filterMap_congr fun part _ => ?_
  by_cases empty : part = []
  · simp [empty]
  · rw [if_pos (decide_eq_true empty)]
    exact if_congr (or_iff_right empty) rfl rfl

theorem canonicalQuery_perm : ∃ texts,
    getCanonicalQueryString rawQuery = join 38 texts ∧
      texts.Perm (((parameters rawQuery).map signedParameter).map canonicalParameter) := by
  unfold getCanonicalQueryString
  by_cases empty : rawQuery = []
  · subst empty
    exact ⟨[], if_pos rfl, List.Perm.refl _⟩
  · rw [if_neg empty]
    refine ⟨_, rfl, ((perm_insertionSort _ _).map _).trans ?_⟩
    rw [map_map, map_map]
    exact List.Perm.refl _

theorem canonicalParameter_injective : Function.Injective canonicalParameter := by
  rintro ⟨key, value⟩ ⟨key', value'⟩ same
  have texts : queryEscape key ++ 61 :: queryEscape value = queryEscape key' ++ 61 :: queryEscape value' := by
    simpa [canonicalParameter, encodePair, str] using same
  have plain := separator_notMem_queryEscape (.inr (.inr rfl : (61 : UInt8) = 38 ∨ (61 : UInt8) = 61))
  obtain ⟨keys, values⟩ := (append_separator_inj (plain key) (plain key') _ _).mp texts
  rw [queryEscape_injective keys, queryEscape_injective values]

/-- Lists of texts without the separator are determined by their join, if none
of them is empty. -/
theorem join_inj {texts texts' : List Bytes} (plain : ∀ text ∈ texts, sep ∉ text ∧ text ≠ [])
    (plain' : ∀ text ∈ texts', sep ∉ text ∧ text ≠ []) (same : join sep texts = join sep texts') : texts = texts' := by
  have nonempty {l : List Bytes} (each : ∀ text ∈ l, sep ∉ text ∧ text ≠ []) (listed : l ≠ []) : join sep l ≠ [] := by
    obtain ⟨text, rest, rfl⟩ := exists_cons_of_ne_nil listed
    obtain ⟨b, tail, written⟩ := exists_cons_of_ne_nil (each text mem_cons_self).2
    have held : b ∈ text := by simp [written]
    exact ne_nil_of_mem (mem_join_of_mem mem_cons_self held)
  have split {l : List Bytes} (each : ∀ text ∈ l, sep ∉ text ∧ text ≠ []) (listed : l ≠ []) :
      (join sep l).splitOn sep = l :=
    splitOn_intercalate sep (fun text member => (each text member).1) listed
  by_cases first : texts = []
  · by_cases second : texts' = []
    · rw [first, second]
    · subst first
      exact absurd same.symm (nonempty plain' second)
  · by_cases second : texts' = []
    · subst second
      exact absurd same (nonempty plain first)
    · rw [← split plain first, same, split plain' second]

/-- Queries of one canonical form have the same signed parameters. -/
theorem signedParameters_perm {q' : Bytes} (same : getCanonicalQueryString q = getCanonicalQueryString q') :
    ((parameters q).map signedParameter).Perm ((parameters q').map signedParameter) := by
  obtain ⟨_, written, perm⟩ := canonicalQuery_perm q
  obtain ⟨_, written', perm'⟩ := canonicalQuery_perm q'
  have plain {l : List Bytes} {pairs : List (Bytes × Bytes)} (from_ : l.Perm (pairs.map canonicalParameter)) :
      ∀ text ∈ l, 38 ∉ text ∧ text ≠ [] := by
    intro text listed
    obtain ⟨_, -, rfl⟩ := mem_map.mp (from_.mem_iff.mp listed)
    have apart := separator_notMem_queryEscape (.inr (.inl rfl : (38 : UInt8) = 38 ∨ (38 : UInt8) = 61))
    simp [canonicalParameter, encodePair, str, apart]
  have equal := join_inj (plain perm) (plain perm') (written.symm.trans (same.trans written'))
  subst equal
  exact (map_perm_map_iff canonicalParameter_injective).mp (perm.symm.trans perm')

end CipherLake.SigV4
