import CipherLake.Lib.Bytes
import Mathlib.Algebra.BigOperators.Group.List.Basic
import Mathlib.Data.List.Lex
import Mathlib.Data.List.Sort

/-! An ordered table: a finite map kept as its entries in strictly increasing
key order, with point updates, and with a cursor that is the list of entries
from a key on. -/
namespace CipherLake.Lib
open List

structure Table (α β : Type) [LinearOrder α] where
  entries : List (α × β)
  sorted : entries.Pairwise fun a b => a.1 < b.1

namespace Table

variable {α β : Type} [LinearOrder α] {key other : α} {value : β} {entries : List (α × β)} {t : Table α β}

def empty : Table α β := ⟨[], List.Pairwise.nil⟩

def lookup (key : α) : List (α × β) → Option β
  | [] => none
  | (k, v) :: rest => if k = key then some v else lookup key rest

def get (t : Table α β) (key : α) : Option β := lookup key t.entries

def insertEntry (key : α) (value : β) : List (α × β) → List (α × β)
  | [] => [(key, value)]
  | (k, v) :: rest =>
    if key < k then (key, value) :: (k, v) :: rest
    else if key = k then (key, value) :: rest
    else (k, v) :: insertEntry key value rest

private theorem filter_above (above : ∀ e ∈ entries, key < e.1) :
    (entries.filter fun e => decide (e.1 ≠ key)) = entries :=
  filter_eq_self.mpr fun e member => by simp [ne_of_gt (above e member)]

/-- The new entry comes in, and an old one with its key goes. -/
private theorem insertEntry_perm (key : α) (value : β) (sorted : entries.Pairwise fun a b => a.1 < b.1) :
    (insertEntry key value entries).Perm ((key, value) :: entries.filter fun e => decide (e.1 ≠ key)) := by
  induction entries with
  | nil => exact .refl _
  | cons entry rest ih =>
    obtain ⟨_, _⟩ := entry
    obtain ⟨below, rest_sorted⟩ := pairwise_cons.mp sorted
    unfold insertEntry
    split
    · next before =>
      rw [filter_above (forall_mem_cons.mpr ⟨before, fun e member => before.trans (below e member)⟩)]
    split
    · next same =>
      subst same
      rw [filter_cons_of_neg (by simp), filter_above below]
    · next apart =>
      rw [filter_cons_of_pos (by simpa using Ne.symm apart)]
      exact ((ih rest_sorted).cons _).trans (.swap _ _ _)

private theorem insertEntry_sorted (key : α) (value : β) (entries : List (α × β))
    (sorted : entries.Pairwise fun a b => a.1 < b.1) :
    (insertEntry key value entries).Pairwise fun a b => a.1 < b.1 := by
  induction entries with
  | nil => simp [insertEntry]
  | cons entry rest ih =>
    obtain ⟨k, v⟩ := entry
    obtain ⟨below, rest_sorted⟩ := pairwise_cons.mp sorted
    unfold insertEntry
    split
    · next before =>
      refine pairwise_cons.mpr ⟨fun e member => ?_, sorted⟩
      rcases mem_cons.mp member with rfl | member
      · exact before
      · exact before.trans (below e member)
    · split
      · next same =>
        subst same
        exact pairwise_cons.mpr ⟨below, rest_sorted⟩
      · next not_before other =>
        have after : k < key := lt_of_le_of_ne (not_lt.mp not_before) (Ne.symm other)
        refine pairwise_cons.mpr ⟨fun e member => ?_, ih rest_sorted⟩
        rcases mem_cons.mp ((insertEntry_perm key value rest_sorted).subset member) with rfl | member
        · exact after
        · exact below e (mem_filter.mp member).1

def put (t : Table α β) (key : α) (value : β) : Table α β :=
  ⟨insertEntry key value t.entries, insertEntry_sorted key value t.entries t.sorted⟩

def delete (t : Table α β) (key : α) : Table α β :=
  ⟨t.entries.filter fun e => e.1 ≠ key, t.sorted.filter _⟩

/-- The entries that a cursor placed at `key` walks over. -/
def seek (t : Table α β) (key : α) : List (α × β) := t.entries.dropWhile fun e => e.1 < key

@[simp] theorem get_empty (key : α) : (empty : Table α β).get key = none := rfl

theorem mem_of_get (found : t.get key = some value) : (key, value) ∈ t.entries := by
  obtain ⟨entries, sorted⟩ := t
  simp only [get] at found ⊢
  clear sorted
  induction entries with
  | nil => simp [lookup] at found
  | cons entry rest ih =>
    obtain ⟨_, _⟩ := entry
    simp only [lookup] at found
    split at found
    · next same =>
      cases found
      rw [same]
      exact mem_cons_self
    · exact mem_cons_of_mem _ (ih found)

theorem get_of_mem (member : (key, value) ∈ t.entries) : t.get key = some value := by
  obtain ⟨entries, sorted⟩ := t
  simp only [get] at member ⊢
  induction entries with
  | nil => cases member
  | cons entry rest ih =>
    obtain ⟨above, rest_sorted⟩ := pairwise_cons.mp sorted
    simp only [lookup]
    rcases mem_cons.mp member with same | later
    · cases same
      rw [if_pos rfl]
    · rw [if_neg (ne_of_lt (above _ later)), ih rest_sorted later]

theorem get_eq_some_iff : t.get key = some value ↔ (key, value) ∈ t.entries := ⟨mem_of_get, get_of_mem⟩

theorem get_ne_none_of_mem (member : (key, value) ∈ t.entries) : t.get key ≠ none := by
  rw [get_of_mem member]
  exact Option.some_ne_none value

theorem put_perm (t : Table α β) (key : α) (value : β) :
    (t.put key value).entries.Perm ((key, value) :: (t.delete key).entries) := insertEntry_perm key value t.sorted

theorem mem_put {e : α × β} (member : e ∈ (t.put key value).entries) : e = (key, value) ∨ e ∈ t.entries :=
  (mem_cons.mp ((put_perm t key value).subset member)).imp_right fun kept => (mem_filter.mp kept).1

@[simp] theorem get_put_same (t : Table α β) (key : α) (value : β) : (t.put key value).get key = some value :=
  get_of_mem ((put_perm t key value).symm.subset mem_cons_self)

/-- The entries whose keys are kept. -/
def restrict (keep : α → Bool) (t : Table α β) : Table α β :=
  ⟨t.entries.filter fun e => keep e.1, t.sorted.filter _⟩

theorem get_restrict (keep : α → Bool) (t : Table α β) (key : α) :
    (t.restrict keep).get key = if keep key then t.get key else none := by
  ext value
  rw [get_eq_some_iff, restrict, mem_filter]
  split
  · next kept => rw [get_eq_some_iff, and_iff_left kept]
  · next dropped => simp [dropped]

@[simp] theorem get_delete_same (t : Table α β) (key : α) : (t.delete key).get key = none :=
  (get_restrict (fun k => decide (k ≠ key)) t key).trans (if_neg (by simp))

theorem get_delete_ne (t : Table α β) (apart : key ≠ other) : (t.delete key).get other = t.get other :=
  (get_restrict (fun k => decide (k ≠ key)) t other).trans (if_pos (by simpa using apart.symm))

theorem get_put_ne (t : Table α β) (value : β) (apart : key ≠ other) : (t.put key value).get other = t.get other := by
  ext v
  rw [← get_delete_ne t apart, get_eq_some_iff, get_eq_some_iff, (put_perm t key value).mem_iff, mem_cons]
  simp [Ne.symm apart]

/-- A table is determined by its lookups. -/
theorem ext_get {t' : Table α β} (same : ∀ key, t.get key = t'.get key) : t = t' := by
  have irrefl : Std.Irrefl fun a b : α × β => a.1 < b.1 := ⟨fun a => lt_irrefl a.1⟩
  have antisymm : Std.Antisymm fun a b : α × β => a.1 < b.1 := ⟨fun _ _ below above => absurd above (lt_asymm below)⟩
  have entries := t.sorted.eq_of_mem_iff t'.sorted fun e => by rw [← get_eq_some_iff, same, get_eq_some_iff]
  cases t
  cases t'
  congr 1

/-- What is kept of a table depends on the lookups of the keys that are kept. -/
theorem restrict_congr {keep : α → Bool} {t' : Table α β} (same : ∀ key, keep key = true → t.get key = t'.get key) :
    t.restrict keep = t'.restrict keep := by
  apply ext_get
  intro key
  rw [get_restrict, get_restrict]
  by_cases kept : keep key = true
  · rw [if_pos kept, if_pos kept, same key kept]
  · rw [if_neg kept, if_neg kept]

/-- Deleting some keys in a row keeps the others. -/
theorem foldl_delete (keys : List α) (t : Table α β) : keys.foldl delete t = t.restrict fun k => decide (k ∉ keys) := by
  induction keys generalizing t with
  | nil => simp [restrict]
  | cons key rest ih =>
    rw [foldl_cons, ih]
    simp [restrict, delete, filter_filter, Bool.decide_and, Bool.and_comm]

/-- A weight summed over the entries whose keys are selected. -/
def tally (t : Table α β) (select : α → Bool) (weight : β → Int) : Int :=
  ((t.entries.filter fun e => select e.1).map fun e => weight e.2).sum

theorem tally_put_delete (t : Table α β) (select : α → Bool) (weight : β → Int) (key : α) (value : β) :
    (t.put key value).tally select weight =
      (if select key then weight value else 0) + (t.delete key).tally select weight := by
  rw [tally, (((put_perm t key value).filter _).map _).sum_eq]
  cases chosen : select key <;> simp [tally, chosen]

theorem tally_delete (t : Table α β) (select : α → Bool) (weight : β → Int) (key : α) :
    (t.delete key).tally select weight =
      t.tally select weight - if select key then ((t.get key).map weight).getD 0 else 0 := by
  cases found : t.get key with
  | none =>
    have same : t.delete key = t := ext_get fun other => by
      by_cases own : key = other
      · rw [← own, get_delete_same, found]
      · exact get_delete_ne t own
    simp [same]
  | some value =>
    have same : t.put key value = t := ext_get fun other => by
      by_cases own : key = other
      · rw [← own, get_put_same, found]
      · exact get_put_ne t value own
    have parts := tally_put_delete t select weight key value
    rw [same] at parts
    simp only [parts, Option.map_some, Option.getD_some]
    omega

/-- Writing an entry adds its weight and takes off that of the entry it
replaces. -/
theorem tally_put (t : Table α β) (select : α → Bool) (weight : β → Int) (key : α) (value : β) :
    (t.put key value).tally select weight =
      t.tally select weight + if select key then weight value - ((t.get key).map weight).getD 0 else 0 := by
  rw [tally_put_delete, tally_delete]
  split <;> omega

/-- An entry is written, or removed. -/
def set (t : Table α β) (key : α) (value : Option β) : Table α β :=
  match value with
  | some v => t.put key v
  | none => t.delete key

theorem get_set (t : Table α β) (key other : α) (value : Option β) :
    (t.set key value).get other = if key = other then value else t.get other := by
  by_cases same : key = other
  · subst same
    cases value <;> simp [set]
  · rw [if_neg same]
    cases value with
    | none => exact get_delete_ne t same
    | some v => exact get_put_ne t v same

/-- Updates of different entries may be made in either order. -/
theorem set_comm (t : Table α β) (apart : key ≠ other) (value value' : Option β) :
    (t.set key value).set other value' = (t.set other value').set key value := by
  apply ext_get
  intro k
  simp only [get_set]
  by_cases isKey : key = k
  · subst isKey
    rw [if_neg (Ne.symm apart), if_pos rfl, if_pos rfl]
  · rw [if_neg isKey, if_neg isKey]

/-- The same keys with other values. -/
def map (f : β → γ) (t : Table α β) : Table α γ :=
  ⟨t.entries.map fun e => (e.1, f e.2), pairwise_map.mpr t.sorted⟩

@[simp] theorem get_map (f : β → γ) (t : Table α β) (key : α) : (t.map f).get key = (t.get key).map f := by
  ext value
  rw [get_eq_some_iff, map, mem_map, Option.map_eq_some_iff]
  simp [get_eq_some_iff]

theorem map_put (f : β → γ) (t : Table α β) (key : α) (value : β) :
    (t.put key value).map f = (t.map f).put key (f value) := by
  refine ext_get fun other => ?_
  by_cases same : key = other
  · subst same
    simp
  · rw [get_put_ne _ _ same, get_map, get_map, get_put_ne _ _ same]

theorem map_delete (f : β → γ) (t : Table α β) (key : α) : (t.delete key).map f = (t.map f).delete key := by
  refine ext_get fun other => ?_
  by_cases same : key = other
  · subst same
    simp
  · rw [get_delete_ne _ same, get_map, get_map, get_delete_ne _ same]

/-- Where keys may repeat, what stands under a key is one of the entries for it. -/
theorem get_foldl_put_cases {δ : Type} (key : δ → α) (value : δ → β) (items : List δ) (t : Table α β) (other : α) :
    (∃ item ∈ items, key item = other ∧
        (items.foldl (fun t item => t.put (key item) (value item)) t).get other = some (value item)) ∨
      (∀ item ∈ items, key item ≠ other) ∧
        (items.foldl (fun t item => t.put (key item) (value item)) t).get other = t.get other := by
  induction items generalizing t with
  | nil => exact .inr ⟨fun _ member => absurd member not_mem_nil, rfl⟩
  | cons item items ih =>
    rw [foldl_cons]
    rcases ih (t.put (key item) (value item)) with ⟨last, member, isKey, found⟩ | ⟨none, found⟩
    · exact .inl ⟨last, mem_cons_of_mem _ member, isKey, found⟩
    · by_cases same : key item = other
      · exact .inl ⟨item, mem_cons_self, same, found.trans (same ▸ get_put_same _ _ _)⟩
      · exact .inr ⟨forall_mem_cons.mpr ⟨same, none⟩, found.trans (get_put_ne _ _ same)⟩

/-- Writing entries with different keys one after the other. -/
theorem get_foldl_put {δ : Type} (key : δ → α) (value : δ → β) {items : List δ} (distinct : (items.map key).Nodup)
    (t : Table α β) :
    (∀ item ∈ items, (items.foldl (fun t item => t.put (key item) (value item)) t).get (key item) =
        some (value item)) ∧
      ∀ other, other ∉ items.map key →
        (items.foldl (fun t item => t.put (key item) (value item)) t).get other = t.get other := by
  refine ⟨fun item member => ?_, fun other outside => ?_⟩
  · rcases get_foldl_put_cases key value items t (key item) with ⟨_, among, same, found⟩ | ⟨none, -⟩
    · rw [found, inj_on_of_nodup_map distinct among member same]
    · exact absurd rfl (none item member)
  · rcases get_foldl_put_cases key value items t other with ⟨item, among, same, -⟩ | ⟨-, kept⟩
    · exact absurd (mem_map.mpr ⟨item, among, same⟩) outside
    · exact kept

/-- What holds of every entry still does after a write it holds of. -/
theorem forall_get_put {Q : α → β → Prop} (all : ∀ k v, t.get k = some v → Q k v) (new : Q key value) :
    ∀ k v, (t.put key value).get k = some v → Q k v := by
  intro k v found
  by_cases same : key = k
  · subst same
    rw [get_put_same] at found
    exact Option.some.inj found ▸ new
  · rw [get_put_ne _ _ same] at found
    exact all k v found

theorem forall_get_delete {Q : α → β → Prop} (all : ∀ k v, t.get k = some v → Q k v) :
    ∀ k v, (t.delete key).get k = some v → Q k v := by
  intro k v found
  by_cases same : key = k
  · subst same
    rw [get_delete_same] at found
    cases found
  · rw [get_delete_ne _ same] at found
    exact all k v found

end Table

/-! ### Keys with a common prefix -/

variable {p : Bytes}

theorem not_lt_of_isPrefix {k : Bytes} (isPrefix : p <+: k) : ¬ k < p := by
  obtain ⟨_, rfl⟩ := isPrefix
  induction p with
  | nil => exact not_lt_nil _
  | cons b p ih =>
    rw [cons_append, cons_lt_cons_iff]
    rintro (below | ⟨-, below⟩)
    · exact lt_irrefl _ below
    · exact ih below

/-- Between a prefix and a key that has it, every key has it. -/
theorem isPrefix_of_between {a k : Bytes} (lower : ¬ a < p) (upper : ¬ k < a) (isPrefix : p <+: k) : p <+: a := by
  induction p generalizing a k with
  | nil => exact nil_prefix
  | cons b p ih =>
    obtain ⟨k, rfl, rest⟩ : ∃ k', k = b :: k' ∧ p <+: k' := by
      obtain ⟨suffix, rfl⟩ := isPrefix
      exact ⟨p ++ suffix, rfl, prefix_append p suffix⟩
    cases a with
    | nil => exact absurd (nil_lt_cons b p) lower
    | cons c a =>
      rw [cons_lt_cons_iff, not_or, not_and] at lower upper
      have same : c = b := le_antisymm (not_lt.mp upper.1) (not_lt.mp lower.1)
      subst same
      exact cons_prefix_cons.mpr ⟨rfl, ih (lower.2 rfl) (upper.2 rfl) rest⟩

namespace Table

private theorem dropWhile_none {q : γ → Bool} {l : List γ} (fails : ∀ x ∈ l, q x = false) : l.dropWhile q = l := by
  cases l with
  | nil => rfl
  | cons x l => simp [fails x mem_cons_self]

/-- A scan from a prefix that stops at the first key without it visits exactly
the keys that have it. -/
theorem seek_prefix (t : Table Bytes β) (p : Bytes) :
    (t.seek p).takeWhile (fun e => p.isPrefixOf e.1) = t.entries.filter fun e => p.isPrefixOf e.1 := by
  obtain ⟨entries, sorted⟩ := t
  simp only [seek]
  induction entries with
  | nil => rfl
  | cons entry rest ih =>
    obtain ⟨below, rest_sorted⟩ := pairwise_cons.mp sorted
    by_cases before : entry.1 < p
    · have lacks : p.isPrefixOf entry.1 = false := by
        rw [Bool.eq_false_iff]
        intro has
        exact not_lt_of_isPrefix ( isPrefixOf_iff_prefix.mp has) before
      simp [before, lacks, ih rest_sorted]
    · simp only [before, decide_false, Bool.false_eq_true, not_false_eq_true, dropWhile_cons_of_neg]
      by_cases has : p.isPrefixOf entry.1 = true
      · have later := ih rest_sorted
        rw [dropWhile_none] at later
        · simp [has, later]
        · intro e member
          have after : ¬ e.1 < p := fun under => before ((below e member).trans under)
          simp [after]
      · have none_later : rest.filter (fun e => p.isPrefixOf e.1) = [] := by
          rw [filter_eq_nil_iff]
          intro e member later
          apply has
          rw [ isPrefixOf_iff_prefix] at later ⊢
          exact isPrefix_of_between before (lt_asymm (below e member)) later
        simp [has, none_later]

/-- A scan under a prefix depends on the lookups of the keys that have it. -/
theorem seek_prefix_congr (t t' : Table Bytes β) (p : Bytes)
    (same : ∀ key, p.isPrefixOf key = true → t.get key = t'.get key) :
    (t.seek p).takeWhile (fun e => p.isPrefixOf e.1) = (t'.seek p).takeWhile fun e => p.isPrefixOf e.1 := by
  rw [ seek_prefix, seek_prefix]
  exact congrArg entries (restrict_congr same)

/-- Without the keys under a name, a scan under it finds nothing. -/
theorem scan_emptied (t : Table Bytes β) (start : Bytes) :
    ((t.restrict fun k => !start.isPrefixOf k).seek start).takeWhile (fun e => start.isPrefixOf e.1) = [] := by
  rw [ seek_prefix]
  apply filter_eq_nil_iff.mpr
  intro e member
  have kept := (mem_filter.mp member).2
  rw [Bool.not_eq_true]
  simpa only [Bool.not_eq_true_eq_eq_false] using kept

/-- A scan under a name finds what was put there. -/
theorem scan_put (t : Table Bytes β) (start rest : Bytes) (value : β) :
    (start ++ rest, value) ∈ ((t.put (start ++ rest) value).seek start).takeWhile fun e => start.isPrefixOf e.1 := by
  rw [ seek_prefix]
  apply mem_filter.mpr
  exact ⟨mem_of_get (get_put_same t _ _), isPrefixOf_iff_prefix.mpr (prefix_append start rest)⟩

end Table
end CipherLake.Lib
