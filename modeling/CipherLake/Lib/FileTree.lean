import CipherLake.Lib.Table
import Mathlib.Data.List.Infix

/-! A hierarchical file system: a finite tree of directories and regular files
addressed by lists of names, with the outcome of each system call. A tree
carries the fact that everything in it lies in a directory, so a name can be
looked up without walking. -/
namespace CipherLake.Lib
open List Table

abbrev Path := List Bytes

variable {name : Bytes}

namespace Path

/-- One step of `filepath.Clean` on a rooted path. -/
def push (path : Path) (name : Bytes) : Path :=
  if name = [] ∨ name = str "." then path
  else if name = str ".." then path.dropLast
  else path ++ [name]

/-- `filepath.Join(root, path)` for an absolute root. -/
def join (root : Path) (path : Bytes) : Path := (path.splitOn 47).foldl push root

/-- The names of a path that are neither empty nor a dot. -/
def names (path : Bytes) : Path := (path.splitOn 47).filter fun name => name ≠ [] ∧ name ≠ str "."

def render : Path → Bytes
  | [] => str "/"
  | path => path.flatMap fun name => str "/" ++ name

theorem join_plain (root : Path) (path : Bytes) (plain : str ".." ∉ path.splitOn 47) :
    join root path = root ++ names path := by
  unfold join names
  generalize path.splitOn 47 = parts at plain
  induction parts generalizing root with
  | nil => simp
  | cons name parts ih =>
    rw [mem_cons, not_or] at plain
    rw [foldl_cons, ih _ plain.2]
    by_cases skipped : name = [] ∨ name = str "."
    · rw [push, if_pos skipped, filter_cons_of_neg]
      simp only [ne_eq, decide_eq_true_eq, not_and_or, not_not]
      exact skipped
    · have named : name ≠ [] ∧ name ≠ str "." := not_or.mp skipped
      rw [push, if_neg skipped, if_neg (Ne.symm plain.1), filter_cons_of_pos (by simpa using named)]
      simp

/-- A name that can stand in a directory. -/
def IsName (name : Bytes) : Prop := name ≠ [] ∧ name ≠ str "." ∧ name ≠ str ".." ∧ 47 ∉ name

theorem join_name (root : Path) (isName : IsName name) : join root name = root ++ [name] := by
  obtain ⟨some_name, dot, dots, plain⟩ := isName
  have whole : name.splitOn 47 = [name] := splitOn_eq_singleton plain
  rw [join, whole, foldl_cons, foldl_nil, push, if_neg (not_or.mpr ⟨some_name, dot⟩), if_neg dots]

theorem names_append (a b : Bytes) : names (a ++ str "/" ++ b) = names a ++ names b := by
  have slash : a ++ str "/" ++ b = a ++ 47 :: b := by simp [str]
  rw [names, slash, splitOn_append_cons_self, filter_append]
  rfl

end Path

inductive Errno where
  | notExist
  | notDir
  | exist
  | notEmpty
  | busy
  | other (message : Bytes)
  deriving DecidableEq, Repr

def Errno.text : Errno → Bytes
  | .notExist => str "no such file or directory"
  | .notDir => str "not a directory"
  | .exist => str "file exists"
  | .notEmpty => str "directory not empty"
  | .busy => str "device or resource busy"
  | .other message => message

inductive Entry where
  | file (data : Bytes)
  | dir
  deriving DecidableEq, Repr

/-- The root is not stored and is always a directory. -/
def entryIn (nodes : Table Path Entry) (path : Path) : Option Entry :=
  if path = [] then some .dir else nodes.get path

structure FileTree where
  nodes : Table Path Entry
  closed : ∀ path, entryIn nodes path ≠ none → entryIn nodes path.dropLast = some .dir

namespace FileTree

def empty : FileTree := ⟨Table.empty, by
  intro path held
  by_cases root : path = []
  · simp [root, entryIn]
  · simp [entryIn, root] at held⟩

def entry (t : FileTree) (path : Path) : Option Entry := entryIn t.nodes path

@[simp] theorem entry_root (t : FileTree) : t.entry [] = some .dir := by
  simp [entry, entryIn]

variable {t : FileTree} {path other done : Path} {data : Bytes}

theorem file_named (held : t.entry path = some (.file data)) : path ≠ [] := by
  rintro rfl
  simp at held

theorem entry_ancestor {above : Path} (isPrefix : above <+: path) (strict : above ≠ path) (held : t.entry path ≠ none) :
    t.entry above = some .dir := by
  obtain ⟨below, rfl⟩ := isPrefix
  induction below using reverseRecOn with
  | nil => simp at strict
  | append_singleton below name ih =>
    have parent : t.entry (above ++ below) = some .dir := by
      have found := t.closed (above ++ (below ++ [name])) held
      rwa [← append_assoc, dropLast_concat] at found
    by_cases last : below = []
    · simpa [last] using parent
    · exact ih (by simpa using last) (by simp [parent])

/-! ### Updates -/

/-- Whether anything lies below a path. -/
def occupied (t : FileTree) (path : Path) : Bool :=
  t.nodes.entries.any fun e => path.isPrefixOf e.1 && e.1 ≠ path

theorem occupied_iff (t : FileTree) (path : Path) :
    t.occupied path = true ↔ ∃ other, path <+: other ∧ other ≠ path ∧ t.entry other ≠ none := by
  rw [occupied, any_eq_true]
  constructor
  · rintro ⟨⟨other, value⟩, member, below⟩
    simp only [Bool.and_eq_true, isPrefixOf_iff_prefix, decide_eq_true_eq] at below
    refine ⟨other, below.1, below.2, ?_⟩
    rw [entry, entryIn]
    split
    · simp
    · exact get_ne_none_of_mem member
  · rintro ⟨other, isPrefix, apart, held⟩
    have named : other ≠ [] := by
      rintro rfl
      exact apart (prefix_nil.mp isPrefix).symm
    rw [entry, entryIn, if_neg named] at held
    obtain ⟨value, found⟩ := Option.ne_none_iff_exists'.mp held
    exact ⟨(other, value), mem_of_get found, by simp [isPrefix, apart]⟩

private theorem dropLast_ne (named : path ≠ []) : path.dropLast ≠ path := by
  intro same
  have shorter := congrArg length same
  have := length_pos_iff.mpr named
  simp at shorter
  omega

private theorem entryIn_put {nodes : Table Path Entry} {value : Entry} (named : path ≠ []) (other : Path) :
    entryIn (nodes.put path value) other = if other = path then some value else entryIn nodes other := by
  by_cases same : other = path
  · simp [same, entryIn, named]
  · rw [if_neg same, entryIn, get_put_ne _ _ (Ne.symm same)]
    rfl

private theorem entryIn_delete_ne {nodes : Table Path Entry} (apart : path ≠ other) :
    entryIn (nodes.delete path) other = entryIn nodes other := by
  rw [entryIn, get_delete_ne _ apart]
  rfl

private theorem child_free {child : Path} (free : t.occupied path = false) (below : child ≠ [])
    (parent : child.dropLast = path) : t.entry child = none := by
  by_contra held
  have isPrefix : path <+: child := parent ▸ dropLast_prefix child
  have apart : child ≠ path := fun same => dropLast_ne below (parent.trans same.symm)
  simp [(t.occupied_iff path).mpr ⟨child, isPrefix, apart, held⟩] at free

theorem file_free (held : t.entry path = some (.file data)) : t.occupied path = false := by
  rw [Bool.eq_false_iff, ne_eq, occupied_iff]
  rintro ⟨_, isPrefix, apart, below⟩
  simp [entry_ancestor isPrefix (Ne.symm apart) below] at held

/-- A new file or new contents, or a new directory, in an existing directory. -/
def set (t : FileTree) (path : Path) (value : Entry) : FileTree :=
  if fits : path ≠ [] ∧ t.entry path.dropLast = some .dir ∧ t.entry path ≠ some .dir then
    ⟨t.nodes.put path value, by
      intro other held
      rw [entryIn_put fits.1] at held ⊢
      by_cases same : other = path
      · rw [same, if_neg (dropLast_ne fits.1)]
        exact fits.2.1
      · rw [if_neg same] at held
        have parent := t.closed other held
        have apart : other.dropLast ≠ path := fun isPath => fits.2.2 (isPath ▸ parent)
        rwa [if_neg apart]⟩
  else t

def erase (t : FileTree) (path : Path) : FileTree :=
  if free : t.occupied path = false then
    ⟨t.nodes.delete path, by
      intro other held
      by_cases root : other = []
      · simp [root, entryIn]
      have apart : path ≠ other := by
        rintro rfl
        simp [entryIn, root] at held
      rw [entryIn_delete_ne apart] at held
      rw [entryIn_delete_ne fun parent => held (child_free free root parent.symm)]
      exact t.closed other held⟩
  else t

theorem entry_set {value : Entry} (named : path ≠ []) (parent : t.entry path.dropLast = some .dir)
    (open_ : t.entry path ≠ some .dir) (other : Path) :
    (t.set path value).entry other = if other = path then some value else t.entry other := by
  rw [set, dif_pos ⟨named, parent, open_⟩, entry, entryIn_put named]
  rfl

theorem entry_erase (named : path ≠ []) (free : t.occupied path = false) (other : Path) :
    (t.erase path).entry other = if other = path then none else t.entry other := by
  rw [erase, dif_pos free, entry]
  by_cases same : other = path
  · simp [same, entryIn, named]
  · rw [if_neg same, entryIn_delete_ne (Ne.symm same)]
    rfl

/-! ### System calls -/

def isFile (t : FileTree) (path : Path) : Bool :=
  match t.entry path with
  | some (.file _) => true
  | _ => false

/-- What a walk to an absent name reports. -/
def missing (t : FileTree) (path : Path) : Errno :=
  if path.inits.any t.isFile then .notDir else .notExist

/-- `os.MkdirAll` below an existing directory. `fault` says which creations
fail. An obstacle is met before anything is created. -/
def mkdirAll (fault : Path → Option Errno) (t : FileTree) (done : Path) : Path → Except (Path × Errno) Unit × FileTree
  | [] => (.ok (), t)
  | name :: rest =>
    let here := done ++ [name]
    match t.entry here with
    | some .dir => mkdirAll fault t here rest
    | some (.file _) => (.error (here, .notDir), t)
    | none =>
      match fault here with
      | some e => (.error (here, e), t)
      | none => mkdirAll fault (t.set here .dir) here rest

/-- `open` with `O_CREATE|O_EXCL`. -/
def createExcl (t : FileTree) (path : Path) (data : Bytes) : Except Errno Unit × FileTree :=
  if t.entry path ≠ none then (.error .exist, t)
  else if t.entry path.dropLast ≠ some .dir then (.error (t.missing path), t)
  else (.ok (), t.set path (.file data))

/-- `open` with `O_CREATE|O_TRUNC`. -/
def create (t : FileTree) (path : Path) : Except Errno Unit × FileTree :=
  if t.entry path = some .dir then (.error (.other (str "is a directory")), t)
  else if t.entry path.dropLast ≠ some .dir then (.error (t.missing path), t)
  else (.ok (), t.set path (.file []))

/-- A write at the end of an open file; one that has no name any more is
forgotten with it. -/
def append (t : FileTree) (path : Path) (bytes : Bytes) : FileTree :=
  match t.entry path with
  | some (.file data) => t.set path (.file (data ++ bytes))
  | _ => t

/-- `os.Truncate`, which can also fill up with zeros. -/
def truncate (t : FileTree) (path : Path) (length : Nat) : FileTree :=
  match t.entry path with
  | some (.file data) => t.set path (.file (data.take length ++ replicate (length - data.length) 0))
  | _ => t

/-- `os.Rename` of a file. -/
def rename (t : FileTree) (source target : Path) : Except Errno Unit × FileTree :=
  match t.entry source with
  | some (.file data) =>
    if t.entry target = some .dir then (.error .exist, t)
    else if t.entry target.dropLast ≠ some .dir then (.error (t.missing target), t)
    else (.ok (), (t.erase source).set target (.file data))
  | _ => (.error (t.missing source), t)

/-- `os.Remove`: a file, or a directory that is empty. -/
def remove (t : FileTree) (path : Path) : Except Errno Unit × FileTree :=
  if path = [] then (.error .busy, t)
  else
    match t.entry path with
    | none => (.error (t.missing path), t)
    | some _ => if t.occupied path then (.error .notEmpty, t) else (.ok (), t.erase path)

/-! ### What the calls change -/

/-- `t'` has everything of `t`, and beyond it only directories on the way to
`path`. -/
def Grown (t t' : FileTree) (path : Path) : Prop :=
  ∀ other, t'.entry other = t.entry other ∨
    t.entry other = none ∧ t'.entry other = some .dir ∧ other <+: path

theorem Grown.refl (t : FileTree) (path : Path) : Grown t t path := fun _ => .inl rfl

theorem Grown.trans {a b c : FileTree} (first : Grown a b path) (second : Grown b c path) : Grown a c path := by
  intro other
  rcases first other with kept | ⟨new, made, onWay⟩
  · rcases second other with kept' | ⟨new', made', onWay'⟩
    · exact .inl (kept'.trans kept)
    · exact .inr ⟨kept ▸ new', made', onWay'⟩
  · rcases second other with kept' | ⟨new', -, -⟩
    · exact .inr ⟨new, kept'.trans made, onWay⟩
    · simp [made] at new'

variable {t' : FileTree} (fault : Path → Option Errno)

theorem Grown.file (grown : Grown t t' path) :
    t'.entry other = some (.file data) ↔ t.entry other = some (.file data) := by
  rcases grown other with kept | ⟨new, made, -⟩
  · rw [kept]
  · simp [new, made]

private theorem entry_mkdir (inside : t.entry done = some .dir) (free : t.entry (done ++ [name]) = none)
    (other : Path) :
    (t.set (done ++ [name]) .dir).entry other = if other = done ++ [name] then some .dir else t.entry other :=
  entry_set (by simp) (by simpa using inside) (by simp [free]) other

private theorem grown_mkdir {rest : Path} (inside : t.entry done = some .dir) (free : t.entry (done ++ [name]) = none) :
    Grown t (t.set (done ++ [name]) .dir) (done ++ [name] ++ rest) := by
  intro other
  rw [entry_mkdir inside free]
  split
  · next same => exact .inr ⟨same ▸ free, rfl, same ▸ prefix_append _ _⟩
  · exact .inl rfl

/-- `MkdirAll` only adds directories on its way, and all of them if it succeeds. -/
theorem mkdirAll_grown (t : FileTree) (done rest : Path) (inside : t.entry done = some .dir) :
    Grown t (mkdirAll fault t done rest).2 (done ++ rest) ∧
      ((mkdirAll fault t done rest).1 = .ok () → (mkdirAll fault t done rest).2.entry (done ++ rest) = some .dir) := by
  induction rest generalizing t done with
  | nil => exact ⟨Grown.refl _ _, fun _ => by simpa [mkdirAll] using inside⟩
  | cons name rest ih =>
    have shift : done ++ name :: rest = done ++ [name] ++ rest := by simp
    rw [shift]
    unfold mkdirAll
    simp only
    rcases held : t.entry (done ++ [name]) with - | ⟨_⟩ | -
    · rcases fault (done ++ [name]) with - | -
      · obtain ⟨grown, reached⟩ := ih (t.set (done ++ [name]) .dir) (done ++ [name]) (by simp [entry_mkdir inside held])
        exact ⟨(grown_mkdir inside held).trans grown, reached⟩
      · exact ⟨Grown.refl _ _, nofun⟩
    · exact ⟨Grown.refl _ _, nofun⟩
    · exact ih t (done ++ [name]) held

/-- No file stands on the way, and every missing directory can be made. -/
def Passable (fault : Path → Option Errno) (t : FileTree) (path : Path) : Prop :=
  ∀ above, above <+: path →
    (∀ data, t.entry above ≠ some (.file data)) ∧ (t.entry above = none → fault above = none)

private theorem passable_mkdir {fault : Path → Option Errno} {rest : Path} (inside : t.entry done = some .dir)
    (free : t.entry (done ++ [name]) = none) (allowed : fault (done ++ [name]) = none) :
    Passable fault (t.set (done ++ [name]) .dir) (done ++ [name] ++ rest) ↔
      Passable fault t (done ++ [name] ++ rest) := by
  refine forall_congr' fun above => imp_congr_right fun _ => ?_
  rw [entry_mkdir inside free]
  split
  · next same => simp [same, free, allowed]
  · rfl

theorem mkdirAll_ok_iff (t : FileTree) (done rest : Path) (inside : t.entry done = some .dir) :
    (mkdirAll fault t done rest).1 = .ok () ↔ Passable fault t (done ++ rest) := by
  induction rest generalizing t done with
  | nil =>
    refine iff_of_true rfl fun above isPrefix => ?_
    rw [append_nil] at isPrefix
    have dir : t.entry above = some .dir := by
      by_cases same : above = done
      · rw [same, inside]
      · exact entry_ancestor isPrefix same (by simp [inside])
    simp [dir]
  | cons name rest ih =>
    have shift : done ++ name :: rest = done ++ [name] ++ rest := by simp
    have onWay : done ++ [name] <+: done ++ [name] ++ rest := prefix_append _ _
    rw [shift]
    unfold mkdirAll
    simp only
    rcases held : t.entry (done ++ [name]) with - | ⟨data⟩ | -
    · rcases failing : fault (done ++ [name]) with - | _
      · rw [← passable_mkdir inside held failing]
        exact ih _ _ (by simp [entry_mkdir inside held])
      · refine iff_of_false nofun fun passable => ?_
        simp [(passable _ onWay).2 held] at failing
    · refine iff_of_false nofun fun passable => ?_
      exact (passable _ onWay).1 data held
    · exact ih t (done ++ [name]) held

/-- A removal takes away one name and what it stands for, or nothing. -/
theorem remove_cases (t : FileTree) (path : Path) : (∃ e, t.remove path = (.error e, t)) ∨
      ∃ t', t.remove path = (.ok (), t') ∧ t.entry path ≠ none ∧
        ∀ other, t'.entry other = if other = path then none else t.entry other := by
  unfold remove
  by_cases root : path = []
  · exact .inl ⟨_, if_pos root⟩
  rw [if_neg root]
  rcases held : t.entry path with - | -
  · exact .inl ⟨_, rfl⟩
  · simp only
    cases busy : t.occupied path with
    | true => exact .inl ⟨_, rfl⟩
    | false => exact .inr ⟨_, rfl, by simp, entry_erase root busy⟩

theorem remove_file (held : t.entry path = some (.file data)) :
    ∃ t', t.remove path = (.ok (), t') ∧ ∀ other, t'.entry other = if other = path then none else t.entry other := by
  refine ⟨t.erase path, ?_, entry_erase (file_named held) (file_free held)⟩
  simp [remove, file_named held, held, file_free held]

/-- Creating a file fails and changes nothing, or leaves an empty file. -/
theorem create_cases (t : FileTree) (path : Path) : (∃ e, t.create path = (.error e, t)) ∨
      ∃ t', t.create path = (.ok (), t') ∧
        ∀ other, t'.entry other = if other = path then some (.file []) else t.entry other := by
  unfold create
  by_cases isDir : t.entry path = some .dir
  · exact .inl ⟨_, if_pos isDir⟩
  have named : path ≠ [] := by
    rintro rfl
    exact isDir (entry_root t)
  rw [if_neg isDir]
  by_cases parent : t.entry path.dropLast = some .dir
  · exact .inr ⟨_, if_neg (not_not.mpr parent), entry_set named parent isDir⟩
  · exact .inl ⟨_, if_pos parent⟩

theorem create_ok (created : t.create path = (.ok (), t')) : t'.entry path = some (.file []) := by
  rcases create_cases t path with ⟨_, failed⟩ | ⟨_, made, entries⟩
  · cases created.symm.trans failed
  · cases created.symm.trans made
    rw [entries, if_pos rfl]

/-- A file is given other contents. -/
theorem entry_rewrite (held : t.entry path = some (.file data)) (bytes : Bytes) (other : Path) :
    (t.set path (.file bytes)).entry other = if other = path then some (.file bytes) else t.entry other := by
  exact entry_set (file_named held) (t.closed path (by rw [← entry, held]; nofun)) (by rw [held]; nofun) other

theorem entry_append (held : t.entry path = some (.file data)) (bytes : Bytes) (other : Path) :
    (t.append path bytes).entry other = if other = path then some (.file (data ++ bytes)) else t.entry other := by
  simp only [append, held]
  exact entry_rewrite held _ other

theorem entry_truncate (held : t.entry path = some (.file data)) {length : Nat} (within : length ≤ data.length)
    (other : Path) :
    (t.truncate path length).entry other = if other = path then some (.file (data.take length)) else t.entry other := by
  simp only [truncate, held, Nat.sub_eq_zero_of_le within, replicate_zero, append_nil]
  exact entry_rewrite held _ other

/-- A file is renamed over another file or to a free name in a directory. -/
theorem rename_file {source target : Path} (held : t.entry source = some (.file data)) (named : target ≠ [])
    (parent : t.entry target.dropLast = some .dir) (open_ : t.entry target ≠ some .dir) :
    ∃ t', t.rename source target = (.ok (), t') ∧ ∀ other, t'.entry other =
      if other = target then some (.file data) else if other = source then none else t.entry other := by
  have erased := entry_erase (file_named held) (file_free held)
  have apart : target.dropLast ≠ source := by
    rintro same
    simp [same, held] at parent
  refine ⟨(t.erase source).set target (.file data), by simp [rename, held, open_, parent], fun other => ?_⟩
  rw [entry_set named (by rw [erased, if_neg apart, parent]), erased]
  rw [erased]
  split
  · simp
  · exact open_

/-- A renaming fails and changes nothing, or moves a file. -/
theorem rename_cases (t : FileTree) (source target : Path) : (∃ e, t.rename source target = (.error e, t)) ∨
      ∃ t' data, t.rename source target = (.ok (), t') ∧ t.entry source = some (.file data) ∧ ∀ other, t'.entry other =
        if other = target then some (.file data) else if other = source then none else t.entry other := by
  rcases held : t.entry source with - | data | -
  · exact .inl ⟨t.missing source, by simp [rename, held]⟩
  · by_cases isDir : t.entry target = some .dir
    · exact .inl ⟨.exist, by simp [rename, held, isDir]⟩
    have named : target ≠ [] := by
      rintro rfl
      exact isDir (entry_root t)
    by_cases parent : t.entry target.dropLast = some .dir
    · obtain ⟨t', renamed, entries⟩ := rename_file held named parent isDir
      exact .inr ⟨t', data, renamed, rfl, entries⟩
    · exact .inl ⟨t.missing target, by simp [rename, held, isDir, parent]⟩
  · exact .inl ⟨t.missing source, by simp [rename, held]⟩
/-! ### Walks -/

/-- `filepath.Walk`: what lies at or below a path, in lexical order. Nothing
below a directory that cannot be listed is visited. -/
def walk (unlisted : Path → Option Errno) (t : FileTree) (root : Path) : List (Path × Entry) :=
  t.nodes.entries.filter fun e =>
    e.1 ≠ [] && root.isPrefixOf e.1 &&
      !e.1.inits.any fun above => root.isPrefixOf above && above ≠ e.1 && (unlisted above).isSome

theorem walk_below {unlisted : Path → Option Errno} {root : Path} {e : Path × Entry}
    (visited : e ∈ walk unlisted t root) : root <+: e.1 ∧ t.entry e.1 = some e.2 := by
  obtain ⟨member, below⟩ := mem_filter.mp visited
  simp only [Bool.and_eq_true, isPrefixOf_iff_prefix, decide_eq_true_eq] at below
  rw [entry, entryIn, if_neg below.1.1]
  exact ⟨below.1.2, get_of_mem member⟩

theorem mem_walk {root : Path} (below : root <+: path) (held : t.entry path = some (.file data)) :
    (path, .file data) ∈ walk (fun _ => none) t root := by
  have named := file_named held
  rw [entry, entryIn, if_neg named] at held
  exact mem_filter.mpr ⟨mem_of_get held, by simp [named, below]⟩

/-- `os.Remove` of every file of a list, with the removals that fail; a file
that is gone already is no failure. -/
def removeFiles (fault : Path → Option Errno) (t : FileTree) : List (Path × Entry) → List (Path × Errno) × FileTree
  | [] => ([], t)
  | (_, .dir) :: rest => removeFiles fault t rest
  | (path, .file _) :: rest =>
    match fault path with
    | some e => ((path, e) :: (removeFiles fault t rest).1, (removeFiles fault t rest).2)
    | none =>
      match t.remove path with
      | (.ok (), t) => removeFiles fault t rest
      | (.error .notExist, t) => removeFiles fault t rest
      | (.error e, t) => ((path, e) :: (removeFiles fault t rest).1, (removeFiles fault t rest).2)

/-- Nothing changes but listed files, and these go. -/
theorem removeFiles_frame (t : FileTree) (files : List (Path × Entry)) (other : Path) :
    (removeFiles fault t files).2.entry other = t.entry other ∨
      (removeFiles fault t files).2.entry other = none ∧ ∃ data, (other, .file data) ∈ files := by
  induction files generalizing t with
  | nil => exact .inl rfl
  | cons file rest ih =>
    have later (t : FileTree) : (removeFiles fault t rest).2.entry other = t.entry other ∨
        (removeFiles fault t rest).2.entry other = none ∧ ∃ data, (other, .file data) ∈ file :: rest :=
      (ih t).imp_right fun ⟨gone, data, listed⟩ => ⟨gone, data, mem_cons_of_mem _ listed⟩
    rcases file with ⟨path, data | -⟩
    · simp only [removeFiles]
      cases fault path with
      | some e => exact later t
      | none =>
        rcases t.remove_cases path with ⟨e, refused⟩ | ⟨t', removed, -, entries⟩
        · rw [refused]
          cases e <;> exact later t
        rw [removed]
        by_cases same : other = path
        · subst same
          have gone : t'.entry other = none := by rw [entries, if_pos rfl]
          rcases ih t' with kept | ⟨none, -⟩
          · exact .inr ⟨kept.trans gone, data, mem_cons_self⟩
          · exact .inr ⟨none, data, mem_cons_self⟩
        · have kept : t'.entry other = t.entry other := by rw [entries, if_neg same]
          exact kept ▸ later t'
    · exact later t

/-- What is not there does not come. -/
theorem removeFiles_none {fault : Path → Option Errno} (absent : t.entry other = none) (files : List (Path × Entry)) :
    (removeFiles fault t files).2.entry other = none := by
  rcases removeFiles_frame fault t files other with kept | ⟨gone, -⟩
  · exact kept.trans absent
  · exact gone

/-- If no removal fails, every listed file goes. -/
theorem removeFiles_gone (t : FileTree) (files : List (Path × Entry)) {data' : Bytes}
    (held : t.entry other = some (.file data')) (listed : (other, .file data) ∈ files) :
    (removeFiles (fun _ => none) t files).2.entry other = none := by
  induction files generalizing t with
  | nil => cases listed
  | cons file rest ih =>
    rcases file with ⟨path, content | -⟩
    · simp only [removeFiles]
      by_cases same : path = other
      · subst same
        obtain ⟨t', removed, entries⟩ := remove_file held
        rw [removed]
        exact removeFiles_none (by rw [entries, if_pos rfl]) rest
      · have later : (other, .file data) ∈ rest := by
          rcases mem_cons.mp listed with here | later
          · cases here
            exact absurd rfl same
          · exact later
        rcases t.remove_cases path with ⟨e, refused⟩ | ⟨t', removed, -, entries⟩
        · rw [refused]
          cases e <;> exact ih t held later
        · rw [removed]
          exact ih t' (by rw [entries, if_neg (Ne.symm same), held]) later
    · refine ih t held ((mem_cons.mp listed).resolve_left ?_)
      rintro ⟨⟩

end FileTree
end CipherLake.Lib
