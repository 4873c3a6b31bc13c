import CipherLake.Lib.FileTree
import Mathlib.Algebra.Order.BigOperators.Group.List

/-! The files of a tree as a table, and how many bytes lie below a directory. What
a call does to the tree is one update of that table. Also the calls that read a
whole file or a whole directory, and the ending of a name. -/
namespace CipherLake.Lib
open List Table Option

namespace Table

variable {α β γ : Type} [LinearOrder α]

/-- The entries whose values are mapped to something. -/
def filterMap (f : β → Option γ) (t : Table α β) : Table α γ where
  entries := t.entries.filterMap fun e => (f e.2).map fun value => (e.1, value)
  sorted := by
    apply t.sorted.filterMap
    intro a b below a' mapped b' mapped'
    obtain ⟨value, -, rfl⟩ := map_eq_some_iff.mp mapped
    obtain ⟨_, -, rfl⟩ := map_eq_some_iff.mp mapped'
    exact below

theorem get_filterMap (f : β → Option γ) (t : Table α β) (key : α) : (t.filterMap f).get key = (t.get key).bind f := by
  apply ext
  intro value
  rw [get_eq_some_iff, bind_eq_some_iff]
  simp only [filterMap, mem_filterMap, map_eq_some_iff, Prod.mk.injEq, get_eq_some_iff]
  constructor
  · rintro ⟨⟨_, v⟩, member, _, mapped, rfl, rfl⟩
    exact ⟨v, member, mapped⟩
  · rintro ⟨v, member, mapped⟩
    exact ⟨(key, v), member, value, mapped, rfl, rfl⟩

end Table

def Entry.data : Entry → Option Bytes
  | .file data => some data
  | .dir => none

namespace FileTree

variable {t t' : FileTree} {path : Path}

def files (t : FileTree) : Table Path Bytes := (t.nodes.delete []).filterMap Entry.data

theorem get_files (t : FileTree) (path : Path) : t.files.get path = (t.entry path).bind Entry.data := by
  rw [files, get_filterMap, entry, entryIn]
  by_cases root : path = []
  · simp [root, Entry.data]
  · rw [get_delete_ne _ (Ne.symm root), if_neg root]

variable {data : Bytes}

theorem get_files_eq_some : t.files.get path = some data ↔ t.entry path = some (.file data) := by
  rw [get_files, bind_eq_some_iff]
  constructor
  · rintro ⟨entry, held, isData⟩
    cases entry with
    | dir => cases isData
    | file data' =>
      cases isData
      exact held
  · intro held
    exact ⟨_, held, rfl⟩

/-- New directories are no new files. -/
theorem Grown.files (grown : Grown t t' path) : t'.files = t.files := by
  apply Table.ext_get
  intro other
  apply ext
  intro data
  rw [get_files_eq_some, get_files_eq_some, grown.file]

/-- Where everything else is as it was, a file has been written. -/
theorem files_written {made : FileTree} (grown : Grown t made path) {target : Path}
    (entries : ∀ other, t'.entry other = if other = target then some (.file data) else made.entry other) :
    t'.files = t.files.put target data := by
  apply Table.ext_get
  intro other
  rw [get_files, entries]
  by_cases same : other = target
  · rw [if_pos same, same, get_put_same]
    rfl
  · rw [if_neg same, get_put_ne _ _ (Ne.symm same), ← grown.files, get_files]

/-- Where everything else is as it was, what stood at a path has been removed. -/
theorem files_removed (entries : ∀ other, t'.entry other = if other = path then none else t.entry other) :
    t'.files = t.files.delete path := by
  apply Table.ext_get
  intro other
  rw [get_files, entries]
  by_cases same : other = path
  · rw [if_pos same, same, get_delete_same]
    rfl
  · rw [if_neg same, get_delete_ne _ (Ne.symm same), get_files]

/-! ### Counting bytes -/

/-- The bytes in the files below a directory. -/
def bytesUnder (t : FileTree) (dir : Path) : Int := t.files.tally (fun path => dir.isPrefixOf path) fun data => data.length

/-- The bytes of the file at a path, if there is one. -/
def fileLength (t : FileTree) (path : Path) : Int := ((t.files.get path).map fun data => (data.length : Int)).getD 0

/-- What counts towards a directory. -/
def within (dir path : Path) (bytes : Int) : Int := if dir.isPrefixOf path then bytes else 0

theorem bytesUnder_nonneg (t : FileTree) (dir : Path) : 0 ≤ t.bytesUnder dir := by
  apply sum_nonneg
  intro bytes listed
  obtain ⟨_, -, rfl⟩ := mem_map.mp listed
  exact Int.natCast_nonneg _

theorem bytesUnder_written {target : Path} (written : t'.files = t.files.put target data) (dir : Path) :
    t'.bytesUnder dir = t.bytesUnder dir + within dir target (data.length - t.fileLength target) := by
  rw [bytesUnder, written, tally_put]
  rfl

theorem bytesUnder_removed (removed : t'.files = t.files.delete path) (dir : Path) :
    t'.bytesUnder dir = t.bytesUnder dir - within dir path (t.fileLength path) := by
  rw [bytesUnder, removed, tally_delete]
  rfl

theorem fileLength_of_entry (held : t.entry path = some (.file data)) :
    t.fileLength path = data.length := by
  rw [fileLength, get_files, held]
  rfl

/-! ### Reading -/

/-- `os.ReadFile`. -/
def readFile (t : FileTree) (path : Path) : Except Errno Bytes :=
  match t.entry path with
  | some (.file data) => .ok data
  | some .dir => .error (.other (str "is a directory"))
  | none => .error (t.missing path)

def childOf (dir : Path) (e : Path × Entry) : Option (Bytes × Entry) :=
  if e.1 ≠ [] ∧ e.1.dropLast = dir then some (e.1.getLastD [], e.2) else none

/-- `os.ReadDir`: the names in a directory, in order. -/
def readDir (t : FileTree) (dir : Path) : Except Errno (List (Bytes × Entry)) :=
  match t.entry dir with
  | some .dir => .ok (t.nodes.entries.filterMap (childOf dir))
  | _ => .error (t.missing dir)

theorem childOf_eq_some {dir : Path} {e : Path × Entry} {child : Bytes × Entry} :
    childOf dir e = some child ↔ e = (dir ++ [child.1], child.2) := by
  rcases e with ⟨_, _⟩
  rcases child with ⟨_, _⟩
  simp only [childOf, ite_none_right_eq_some, some.injEq, Prod.mk.injEq]
  constructor
  · rintro ⟨⟨named, rfl⟩, rfl, rfl⟩
    refine ⟨?_, rfl⟩
    rw [getLastD_eq_getLast?, List.getLast?_eq_some_getLast named]
    exact (dropLast_append_getLast named).symm
  · rintro ⟨rfl, rfl⟩
    simp

/-- A directory lists exactly what lies in it. -/
theorem readDir_dir {dir : Path} (isDir : t.entry dir = some .dir) :
    ∃ listed, t.readDir dir = .ok listed ∧
      ∀ name value, (name, value) ∈ listed ↔ t.entry (dir ++ [name]) = some value := by
  refine ⟨t.nodes.entries.filterMap (childOf dir), by simp only [readDir, isDir], fun name value => ?_⟩
  have named : dir ++ [name] ≠ [] := by simp
  rw [mem_filterMap, entry, entryIn, if_neg named, get_eq_some_iff]
  simp only [childOf_eq_some, exists_eq_right]

end FileTree

namespace Path

/-- `filepath.Ext`: from the last dot on. -/
def ext (name : Bytes) : Bytes :=
  let ending := (name.reverse.takeWhile fun b => b ≠ 46 ∧ b ≠ 47).reverse
  match name.reverse.drop ending.length with
  | 46 :: _ => 46 :: ending
  | _ => []

theorem ext_append (name : Bytes) {ending : Bytes} (plain : ∀ b ∈ ending, b ≠ 46 ∧ b ≠ 47) :
    ext (name ++ 46 :: ending) = 46 :: ending := by
  have reversed : (name ++ 46 :: ending).reverse = ending.reverse ++ 46 :: name.reverse := by simp
  have whole : (ending.reverse ++ 46 :: name.reverse).takeWhile (fun b => b ≠ 46 ∧ b ≠ 47) = ending.reverse := by
    rw [takeWhile_append_of_pos (by simpa using plain), takeWhile_cons_of_neg (by simp), append_nil]
  simp only [ext, reversed, whole, reverse_reverse]
  rw [← length_reverse, drop_left]
  rfl

end Path
end CipherLake.Lib
