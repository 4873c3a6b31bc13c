import CipherLake.Lib.FileTree
import CipherLake.Lib.Reader
import CipherLake.Metadata

/-! The file-backed object store: `FileBackend` and `TieredObjectStore`. An
object's bucket and key become a path that is cleaned and resolved below the
root directory of its tier. A write goes to a temporary file that is renamed
over the object. -/
namespace CipherLake.Storage
open Lib Metadata FileTree List

/-- What the operating system contributes to one request: the random part of
a temporary name, and the calls that fail. A failing write or read has
transferred the given number of bytes. -/
structure Disk where
  random : Bytes
  mkdir : Path → Option Errno
  create : Option Errno
  write : Option (Nat × Errno)
  (sync close rename cleanup opening : Option Errno)
  reading : Option (Nat × Errno)
  (sourceClose remove : Option Errno)

/-- No call fails. -/
def Disk.sound (random : Bytes) : Disk :=
  ⟨random, fun _ => none, none, none, none, none, none, none, none, none, none, none⟩

/-- The text of an `fs.PathError`. -/
def pathError (op : String) (path : Path) (e : Errno) : Bytes :=
  str op ++ str " " ++ Path.render path ++ str ": " ++ e.text

/-- The text of an `os.LinkError`. -/
def renameError (source target : Path) (e : Errno) : Bytes :=
  str "rename " ++ Path.render source ++ str " " ++ Path.render target ++ str ": " ++ e.text

/-- The name `os.CreateTemp` makes from a pattern: the random part replaces
the last star, or is appended. -/
def tempName (pattern random : Bytes) : Bytes :=
  match pattern.reverse.span (· ≠ 42) with
  | (_, []) => pattern ++ random
  | (tail, _ :: head) => head.reverse ++ random ++ tail.reverse

def tempPath (random : Bytes) (fullPath : Path) : Path :=
  fullPath.dropLast ++ [tempName (str ".tmp-" ++ fullPath.getLastD []) random]

/-! ### `FileBackend` -/

variable (random : Bytes) (fullPath : Path) (tiers : Tiers) (disk : Disk) (fs : FileTree)

/-- `io.Copy`, the size check, `Sync` and `Close`: the bytes that reached the
temporary file, and the error that stops the write. -/
def writeTemp (tmpPath : Path) (data : Answer) (size : Int) : Bytes × Except Bytes Unit :=
  match disk.write with
  | some (n, e) =>
    (data.bytes.take n, .error (str "failed to write file: " ++ pathError "write" tmpPath e))
  | none =>
    (data.bytes,
      match data.err with
      | some .unexpectedEOF => .error (str "failed to write file: " ++ ReadErr.unexpectedEOF.text)
      | some (.failed message) => .error (str "failed to write file: " ++ message)
      | _ =>
        if size > 0 ∧ (data.bytes.length : Int) ≠ size then
          .error (str "incomplete write: expected " ++ str (toString size) ++ str ", got " ++
            str (toString data.bytes.length))
        else
          match disk.sync, disk.close with
          | some e, _ => .error (str "failed to sync file: " ++ pathError "sync" tmpPath e)
          | none, some e => .error (str "failed to close temp file: " ++ pathError "close" tmpPath e)
          | none, none => .ok ())

/-- `os.Remove(tmpPath)` on an error path, whose own error is dropped. -/
def discard (tmpPath : Path) : FileTree :=
  match disk.cleanup with
  | some _ => fs
  | none => (fs.remove tmpPath).2

def renameTemp (tmpPath fullPath : Path) : Except Errno Unit × FileTree :=
  match disk.rename with
  | some e => (.error e, fs)
  | none => fs.rename tmpPath fullPath

def createTemp (fullPath : Path) : Except Bytes Unit × FileTree :=
  let tmpPath := tempPath disk.random fullPath
  if fullPath = [] then (.error (str "createtemp .tmp-/: pattern contains path separator"), fs)
  else
    match disk.create with
    | some e => (.error (pathError "open" tmpPath e), fs)
    | none =>
      match fs.createExcl tmpPath [] with
      | (.error e, fs) => (.error (pathError "open" tmpPath e), fs)
      | (.ok (), fs) => (.ok (), fs)

/-- The part of `Put` that follows the creation of the directory. -/
def replaceFile (fullPath : Path) (data : Answer) (size : Int) :
    Except Bytes Unit × FileTree :=
  match createTemp disk fs fullPath with
  | (.error e, fs) => (.error (str "failed to create temp file: " ++ e), fs)
  | (.ok (), fs) =>
    let tmpPath := tempPath disk.random fullPath
    match writeTemp disk tmpPath data size with
    | (written, .error e) => (.error e, discard disk (fs.set tmpPath (.file written)) tmpPath)
    | (written, .ok ()) =>
      match renameTemp disk (fs.set tmpPath (.file written)) tmpPath fullPath with
      | (.error e, fs) =>
        (.error (str "failed to rename temp file: rename " ++ Path.render tmpPath ++ str " " ++
          Path.render fullPath ++ str ": " ++ e.text), discard disk fs tmpPath)
      | (.ok (), fs) => (.ok (), fs)

/-- `FileBackend.Put`; `data` is what the reader hands out up to its error. -/
def FileBackend.put (rootDir : Path) (path : Bytes) (data : Answer)
    (size : Int) : Except Bytes Unit × FileTree :=
  let fullPath := Path.join rootDir path
  match fs.mkdirAll disk.mkdir [] fullPath.dropLast with
  | (.error (place, e), fs) => (.error (str "failed to create directory: " ++ pathError "mkdir" place e), fs)
  | (.ok (), fs) => replaceFile disk fs fullPath data size

def errObjectNotFound : Bytes := str "object not found"
def errTierNotAvailable : Bytes := str "storage tier not available"

/-- What reading an open file to its end gives. A directory can be opened and
not be read. -/
def contents (fullPath : Path) : Entry → Answer
  | .dir => ⟨[], some (.failed (str "read " ++ Path.render fullPath ++ str ": is a directory"))⟩
  | .file data =>
    match disk.reading with
    | some (n, e) => ⟨data.take n, some (.failed (pathError "read" fullPath e))⟩
    | none => ⟨data, some .eof⟩

def FileBackend.get (rootDir : Path) (path : Bytes) : Except Bytes Answer :=
  let fullPath := Path.join rootDir path
  match disk.opening with
  | some e => .error (str "failed to open file: " ++ pathError "open" fullPath e)
  | none =>
    match fs.entry fullPath with
    | some e => .ok (contents disk fullPath e)
    | none =>
      if fs.missing fullPath = .notExist then .error errObjectNotFound
      else .error (str "failed to open file: " ++ pathError "open" fullPath (fs.missing fullPath))

def FileBackend.delete (rootDir : Path) (path : Bytes) : Except Bytes Unit × FileTree :=
  let fullPath := Path.join rootDir path
  let refused e : Except Bytes Unit := .error (str "failed to delete file: " ++ pathError "remove" fullPath e)
  match disk.remove with
  | some e => (refused e, fs)
  | none =>
    match fs.remove fullPath with
    | (.error .notExist, fs) => (.ok (), fs)
    | (.error e, fs) => (refused e, fs)
    | (.ok (), fs) => (.ok (), fs)

/-! ### `TieredObjectStore` -/

abbrev tierHot : Int := 0

/-- The root directory of each registered tier. -/
abbrev Tiers := Int → Option Path

def makePath (bucket key : Bytes) : Bytes := bucket ++ str "/" ++ key

def put (bucket key : Bytes) (data : Answer) (size : Int)
    (tier : Int) : Except Bytes Unit × FileTree :=
  match tiers tier with
  | none => (.error errTierNotAvailable, fs)
  | some rootDir =>
    match FileBackend.put disk fs rootDir (makePath bucket key) data size with
    | (.error e, fs) => (.error (str "failed to put object: " ++ e), fs)
    | (.ok (), fs) => (.ok (), fs)

def get (bucket key : Bytes) (tier : Int) : Except Bytes Answer :=
  match tiers tier with
  | none => .error errTierNotAvailable
  | some rootDir =>
    match FileBackend.get disk fs rootDir (makePath bucket key) with
    | .error e => .error (str "failed to get object: " ++ e)
    | .ok data => .ok data

def delete (bucket key : Bytes) (tier : Int) :
    Except Bytes Unit × FileTree :=
  match tiers tier with
  | none => (.error errTierNotAvailable, fs)
  | some rootDir =>
    match FileBackend.delete disk fs rootDir (makePath bucket key) with
    | (.error e, fs) => (.error (str "failed to delete object: " ++ e), fs)
    | (.ok (), fs) => (.ok (), fs)

/-! ### What a write does to the tree -/

theorem tempName_length (pattern random : Bytes) : pattern.length ≤ (tempName pattern random).length + 1 := by
  have whole : (pattern.reverse.span (· ≠ 42)).1 ++ (pattern.reverse.span (· ≠ 42)).2 = pattern.reverse := by
    rw [span_eq_takeWhile_dropWhile]
    exact takeWhile_append_dropWhile
  unfold tempName
  generalize pattern.reverse.span (· ≠ 42) = cut at *
  obtain ⟨_, - | ⟨_, _⟩⟩ := cut
  · simp
    omega
  · have lengths := congrArg length whole
    simp at lengths ⊢
    omega

@[simp] theorem tempPath_dropLast :
    (tempPath random fullPath).dropLast = fullPath.dropLast := dropLast_concat

theorem tempPath_ne_nil : tempPath random fullPath ≠ [] := by
  simp [tempPath]

/-- A temporary name is longer than the name it stands for. -/
theorem tempPath_ne : tempPath random fullPath ≠ fullPath := by
  intro same
  have last : tempName (str ".tmp-" ++ fullPath.getLastD []) random = fullPath.getLastD [] := by
    have both := congrArg (getLastD · []) same
    simpa [tempPath] using both
  have longer := tempName_length (str ".tmp-" ++ fullPath.getLastD []) random
  rw [last] at longer
  simp [str] at longer
  omega

theorem not_prefix_dropLast {path : Path} (other : Path) (parent : other.dropLast = path.dropLast)
    (otherNamed : other ≠ []) : ¬ other <+: path.dropLast := by
  intro isPrefix
  have short := isPrefix.length_le
  have both := congrArg length parent
  have := length_pos_iff.mpr otherNamed
  simp at short both
  omega

/-- The bytes that reach the temporary file. -/
def reached (data : Answer) : Bytes :=
  match disk.write with
  | some (n, _) => data.bytes.take n
  | none => data.bytes

/-- A write that fails has made its temporary file and cannot remove it. -/
structure Spills (disk : Disk) (fs : FileTree) (fullPath : Path) : Prop where
  passable : fs.Passable disk.mkdir fullPath.dropLast
  named : fullPath ≠ []
  created : disk.create = none
  fresh : fs.entry (tempPath disk.random fullPath) = none
  stuck : disk.cleanup ≠ none

/-- Everything is as it was, but for the temporary file if it is spilt. -/
def Leaves (spilt : Prop) (fs fs' : FileTree) (fullPath : Path) (data : Answer) : Prop :=
  (¬ spilt ∧ ∀ other, fs'.entry other = fs.entry other) ∨ spilt ∧ ∀ other, fs'.entry other =
    if other = tempPath disk.random fullPath then some (.file (reached disk data)) else fs.entry other

variable {fs fs' : FileTree} {fullPath : Path} {disk : Disk} {tiers : Tiers} {bucket key : Bytes} {size tier : Int}

variable {data : Answer}

/-- A failed write leaves what is there. -/
theorem Leaves.kept {made : FileTree} {path : Path} {content : Entry}
    (leaves : Leaves disk (Spills disk fs fullPath) made fs' fullPath data) (grown : fs.Grown made fullPath.dropLast)
    (there : fs.entry path = some content) : fs'.entry path = some content := by
  have before : made.entry path = some content := by
    rcases grown path with kept | ⟨absent, -⟩
    · exact kept.trans there
    · cases absent.symm.trans there
  rcases leaves with ⟨-, kept⟩ | ⟨spills, entries⟩
  · exact (kept path).trans before
  · rw [entries, if_neg, before]
    rintro rfl
    cases spills.fresh.symm.trans there

theorem grown_same {other : Path} (grown : FileTree.Grown fs fs' fullPath.dropLast)
    (parent : other.dropLast = fullPath.dropLast) (otherNamed : other ≠ []) : fs'.entry other = fs.entry other :=
  (grown other).resolve_right fun ⟨_, _, isPrefix⟩ => not_prefix_dropLast other parent otherNamed isPrefix

/-- The temporary file is complete. -/
def WritesOut (disk : Disk) (data : Answer) (size : Int) : Prop :=
  disk.write = none ∧ (data.err = none ∨ data.err = some .eof) ∧
    ¬ (size > 0 ∧ (data.bytes.length : Int) ≠ size) ∧ disk.sync = none ∧ disk.close = none

/-- The writes into an existing directory that succeed. -/
structure Replaceable (disk : Disk) (fs : FileTree) (fullPath : Path) (data : Answer) (size : Int) : Prop where
  named : fullPath ≠ []
  open_ : fs.entry fullPath ≠ some .dir
  fresh : fs.entry (tempPath disk.random fullPath) = none
  created : disk.create = none
  written : WritesOut disk data size
  renamed : disk.rename = none

/-- The writes that succeed. -/
structure Writable (disk : Disk) (fs : FileTree) (fullPath : Path) (data : Answer) (size : Int) : Prop
    extends Replaceable disk fs fullPath data size where
  passable : fs.Passable disk.mkdir fullPath.dropLast

theorem writeTemp_cases (disk : Disk) (tmpPath : Path) (data : Answer) (size : Int) :
    (writeTemp disk tmpPath data size = (data.bytes, .ok ()) ∧ WritesOut disk data size) ∨
      (∃ written e, writeTemp disk tmpPath data size = (written, .error e) ∧ ¬ WritesOut disk data size) := by
  unfold writeTemp WritesOut
  rcases disk.write with - | ⟨_, e⟩
  · by_cases short : size > 0 ∧ (data.bytes.length : Int) ≠ size
    · rcases data.err with - | - | - | - <;> simp [short]
    · simp only [short, if_false]
      rcases data.err with - | - | - | - <;> rcases disk.sync with - | e <;> rcases disk.close with - | e' <;> simp
  · simp

theorem writeTemp_reached (disk : Disk) (tmpPath : Path) (data : Answer) (size : Int) :
    (writeTemp disk tmpPath data size).1 = reached disk data := by
  unfold writeTemp reached
  cases disk.write with
  | none => rfl
  | some fault => rfl

private theorem entry_set_temp {tmpPath : Path} (data : Bytes) (beside : tmpPath.dropLast = fullPath.dropLast)
    (named : tmpPath ≠ []) (parent : fs.entry fullPath.dropLast = some .dir) (free : fs.entry tmpPath ≠ some .dir)
    (other : Path) :
    (fs.set tmpPath (.file data)).entry other = if other = tmpPath then some (.file data) else fs.entry other :=
  entry_set named (beside ▸ parent) free other

theorem createTemp_cases (disk : Disk) (fs : FileTree) (fullPath : Path)
    (parent : fs.entry fullPath.dropLast = some .dir) :
    (∃ fs', createTemp disk fs fullPath = (.ok (), fs') ∧ fullPath ≠ [] ∧
        fs.entry (tempPath disk.random fullPath) = none ∧ disk.create = none ∧
        ∀ other, fs'.entry other =
          if other = tempPath disk.random fullPath then some (.file []) else fs.entry other) ∨
      ∃ e, createTemp disk fs fullPath = (.error e, fs) ∧
        (fullPath = [] ∨ fs.entry (tempPath disk.random fullPath) ≠ none ∨ disk.create ≠ none) := by
  unfold createTemp
  by_cases root : fullPath = []
  · exact .inr ⟨_, if_pos root, .inl root⟩
  rcases created : disk.create with - | e
  · by_cases fresh : fs.entry (tempPath disk.random fullPath) = none
    · refine .inl ⟨fs.set (tempPath disk.random fullPath) (.file []), ?_, root, fresh, rfl, ?_⟩
      · simp [root, FileTree.createExcl, fresh, parent]
      · exact entry_set_temp [] (tempPath_dropLast _ _) (tempPath_ne_nil _ _) parent (by simp [fresh])
    · refine Or.inr ⟨pathError "open" (tempPath disk.random fullPath) .exist, ?_, Or.inr (Or.inl fresh)⟩
      simp [FileTree.createExcl, fresh, root]
  · exact .inr ⟨_, if_neg root, .inr (.inr (by simp))⟩

/-- The temporary file is made and cannot be removed. -/
def Strewn (disk : Disk) (fs : FileTree) (fullPath : Path) : Prop :=
  fullPath ≠ [] ∧ fs.entry (tempPath disk.random fullPath) = none ∧ disk.create = none ∧ disk.cleanup ≠ none

private theorem discard_leaves (named : fullPath ≠ [])
    (free : fs.entry (tempPath disk.random fullPath) = none) (created : disk.create = none)
    (held : ∀ other, fs'.entry other =
      if other = tempPath disk.random fullPath then some (.file (reached disk data)) else fs.entry other) :
    Leaves disk (Strewn disk fs fullPath) fs (discard disk fs' (tempPath disk.random fullPath)) fullPath data := by
  have present : fs'.entry (tempPath disk.random fullPath) = some (.file (reached disk data)) := by simp [held]
  obtain ⟨_, removed, entries⟩ := remove_file present
  unfold discard
  cases stuck : disk.cleanup with
  | some e => exact .inr ⟨⟨named, free, created, by simp [stuck]⟩, held⟩
  | none =>
    simp only [removed]
    refine .inl ⟨fun strewn => strewn.2.2.2 stuck, fun other => ?_⟩
    rw [entries, held]
    split
    · next same => rw [same, free]
    · rfl

/-- The write proper, in an existing directory. -/
theorem replaceFile_cases (disk : Disk) (fs : FileTree) (fullPath : Path) (data : Answer) (size : Int)
    (parent : fs.entry fullPath.dropLast = some .dir) :
    (∃ fs', replaceFile disk fs fullPath data size = (.ok (), fs') ∧ Replaceable disk fs fullPath data size ∧
        ∀ other, fs'.entry other = if other = fullPath then some (.file data.bytes) else fs.entry other) ∨
      ∃ e fs', replaceFile disk fs fullPath data size = (.error e, fs') ∧
        ¬ Replaceable disk fs fullPath data size ∧ Leaves disk (Strewn disk fs fullPath) fs fs' fullPath data := by
  let temp := tempPath disk.random fullPath
  unfold replaceFile
  rcases createTemp_cases disk fs fullPath parent with
    ⟨fs₁, created, named, fresh, allowed, placed⟩ | ⟨e, refused, reason⟩
  swap
  · rw [refused]
    have unmade : ¬ (fullPath ≠ [] ∧ fs.entry temp = none ∧ disk.create = none) := by
      rintro ⟨named, fresh, created⟩
      rcases reason with root | taken | failing
      · exact named root
      · exact taken fresh
      · exact failing created
    refine .inr ⟨_, _, rfl, fun able => unmade ⟨able.named, able.fresh, able.created⟩, .inl ⟨?_, fun _ => rfl⟩⟩
    exact fun strewn => unmade ⟨strewn.1, strewn.2.1, strewn.2.2.1⟩
  rw [created]
  simp only
  have outside : fullPath.dropLast ≠ temp := by
    intro same
    rw [same, fresh] at parent
    cases parent
  have filled (bytes : Bytes) (other : Path) : (fs₁.set temp (.file bytes)).entry other =
        if other = temp then some (.file bytes) else fs.entry other := by
    have inDir : fs₁.entry fullPath.dropLast = some .dir := by
      rw [placed, if_neg outside, parent]
    rw [entry_set_temp bytes (tempPath_dropLast _ _) (tempPath_ne_nil _ _) inDir (by simp [placed]), placed]
    split <;> rfl
  have all := writeTemp_reached disk temp data size
  rcases writeTemp_cases disk temp data size with
    ⟨wrote, out⟩ | ⟨bytes, e, stopped, notOut⟩
  swap
  · rw [stopped] at all ⊢
    obtain rfl : bytes = _ := all
    exact .inr ⟨_, _, rfl, fun able => notOut able.written, discard_leaves named fresh allowed (filled _)⟩
  rw [wrote] at all ⊢
  let written := fs₁.set temp (.file data.bytes)
  have left : Leaves disk (Strewn disk fs fullPath) fs (discard disk written temp) fullPath data :=
    discard_leaves named fresh allowed (all ▸ filled data.bytes)
  simp only [renameTemp]
  rcases moving : disk.rename with - | e
  swap
  · exact .inr ⟨_, _, rfl, fun able => by simp [able.renamed] at moving, left⟩
  have apart : fullPath ≠ temp := Ne.symm (tempPath_ne _ _)
  have target : written.entry fullPath = fs.entry fullPath := by
    rw [filled, if_neg apart]
  have held : written.entry temp = some (.file data.bytes) := by
    rw [filled, if_pos rfl]
  by_cases open_ : fs.entry fullPath = some .dir
  · have refused : FileTree.rename written temp fullPath = (.error .exist, written) := by
      simp [FileTree.rename, held, target, open_]
    rw [refused]
    exact .inr ⟨_, _, rfl, fun able => able.open_ open_, left⟩
  · obtain ⟨fs₂, renamed, entries⟩ := rename_file held named (by
      rw [filled, if_neg outside, parent]) (target ▸ open_)
    rw [renamed]
    refine .inl ⟨fs₂, rfl, ⟨named, open_, fresh, allowed, out, moving⟩, fun other => ?_⟩
    rw [entries, filled]
    split
    · rfl
    · split
      · next same => rw [same, fresh]
      · rfl

/-- Everything a write can do: it succeeds and replaces one file, or it fails
and adds at most directories and a temporary file it could not remove. -/
theorem FileBackend.put_cases (disk : Disk) (fs : FileTree) (rootDir : Path) (path : Bytes) (data : Answer)
    (size : Int) :
    (∃ fs' made, FileBackend.put disk fs rootDir path data size = (.ok (), fs') ∧
        Writable disk fs (Path.join rootDir path) data size ∧
        fs.Grown made (Path.join rootDir path).dropLast ∧
        ∀ other, fs'.entry other =
          if other = Path.join rootDir path then some (.file data.bytes) else made.entry other) ∨
      ∃ e fs' made, FileBackend.put disk fs rootDir path data size = (.error e, fs') ∧
        ¬ Writable disk fs (Path.join rootDir path) data size ∧ fs.Grown made (Path.join rootDir path).dropLast ∧
        Leaves disk (Spills disk fs (Path.join rootDir path)) made fs' (Path.join rootDir path) data := by
  unfold FileBackend.put
  generalize Path.join rootDir path = fullPath
  simp only
  obtain ⟨grown, reached⟩ := fs.mkdirAll_grown disk.mkdir [] fullPath.dropLast (by simp)
  have passable := fs.mkdirAll_ok_iff disk.mkdir [] fullPath.dropLast (by simp)
  generalize fs.mkdirAll disk.mkdir [] fullPath.dropLast = out at *
  obtain ⟨⟨_, e⟩ | ⟨⟩, made⟩ := out
  · refine .inr ⟨_, _, made, rfl, fun writable => ?_, grown, .inl ⟨fun spills => ?_, fun _ => rfl⟩⟩
    · exact nomatch passable.mpr writable.passable
    · exact nomatch passable.mpr spills.passable
  have inDir := reached rfl
  have clear := passable.mp rfl
  have same : made.entry (tempPath disk.random fullPath) = fs.entry (tempPath disk.random fullPath) :=
    grown_same grown (tempPath_dropLast _ _) (tempPath_ne_nil _ _)
  rcases replaceFile_cases disk made fullPath data size inDir with
    ⟨fs', done, able, entries⟩ | ⟨e, fs', failed, unable, left⟩
  · refine .inl ⟨fs', made, done, ⟨⟨able.named, ?_, ?_, able.created, able.written, able.renamed⟩, clear⟩,
      grown, entries⟩
    · exact grown_same grown rfl able.named ▸ able.open_
    · exact same ▸ able.fresh
  · refine .inr ⟨e, fs', made, failed, fun writable => unable ?_, grown, ?_⟩
    · refine ⟨writable.named, ?_, same.trans writable.fresh, writable.created, writable.written, writable.renamed⟩
      rw [grown_same grown rfl writable.named]
      exact writable.open_
    · have spilt : Strewn disk made fullPath ↔ Spills disk fs fullPath := by
        constructor
        · exact fun ⟨named, fresh, created, stuck⟩ => ⟨clear, named, created, same.symm.trans fresh, stuck⟩
        · exact fun spills =>
            ⟨spills.named, same.trans spills.fresh, spills.created, spills.stuck⟩
      rwa [spilt] at left

/-- What stands at a path can be removed, or nothing stands there. -/
structure Removable (disk : Disk) (fs : FileTree) (path : Path) : Prop where
  removed : disk.remove = none
  named : path ≠ []
  free : fs.entry path ≠ none → fs.occupied path = false
  reached : fs.entry path = none → fs.missing path = .notExist

theorem FileBackend.delete_spec (disk : Disk) (fs : FileTree) (rootDir : Path) (path : Bytes) :
    (Removable disk fs (Path.join rootDir path) ∧ ∃ fs', FileBackend.delete disk fs rootDir path = (.ok (), fs') ∧
        ∀ other, fs'.entry other = if other = Path.join rootDir path then none else fs.entry other) ∨
      ¬ Removable disk fs (Path.join rootDir path) ∧ ∃ e, FileBackend.delete disk fs rootDir path = (.error e, fs) := by
  unfold FileBackend.delete
  generalize Path.join rootDir path = fullPath
  simp only
  rcases fault : disk.remove with - | e
  · unfold FileTree.remove
    by_cases root : fullPath = []
    · exact .inr ⟨fun removable => removable.named root, by simp [root]⟩
    · cases held : fs.entry fullPath with
      | none =>
        simp only [if_neg root]
        by_cases gone : fs.missing fullPath = .notExist
        · refine .inl ⟨⟨fault, root, fun present => absurd held present, fun _ => gone⟩, fs, ?_, fun other => ?_⟩
          · simp [gone]
          · split
            · next same => rw [same, held]
            · rfl
        · refine .inr ⟨fun removable => gone (removable.reached held), ?_⟩
          cases kind : fs.missing fullPath with
          | notExist => exact absurd kind gone
          | _ => exact ⟨_, rfl⟩
      | some value =>
        simp only [if_neg root]
        cases busy : fs.occupied fullPath with
        | true =>
          refine .inr ⟨fun removable => ?_, _, rfl⟩
          have free := removable.free (by simp [held])
          rw [busy] at free
          cases free
        | false =>
          exact .inl ⟨⟨fault, root, fun _ => busy, fun absent => by simp [held] at absent⟩, fs.erase fullPath, rfl,
            entry_erase root busy⟩
  · refine .inr ⟨fun removable => ?_, _, rfl⟩
    rw [removable.removed] at fault
    cases fault

/-- A stored file is deleted unless the operating system fails. -/
theorem FileBackend.delete_file {rootDir : Path} {path data : Bytes}
    (held : fs.entry (Path.join rootDir path) = some (.file data)) (sound : disk.remove = none) :
    ∃ fs', FileBackend.delete disk fs rootDir path = (.ok (), fs') ∧
      ∀ other, fs'.entry other = if other = Path.join rootDir path then none else fs.entry other := by
  obtain ⟨fs', removed, entries⟩ := remove_file held
  exact ⟨fs', by simp [FileBackend.delete, sound, removed], entries⟩

/-- Where an object's data lies. -/
def objectPath (rootDir : Path) (bucket key : Bytes) : Path := Path.join rootDir (makePath bucket key)

/-- A deletion removes what stands at the object's path in its tier, or nothing
if that cannot be removed. -/
theorem delete_spec (tiers : Tiers) (disk : Disk) (fs : FileTree) (bucket key : Bytes) (tier : Int) :
    (∃ rootDir fs', tiers tier = some rootDir ∧ Removable disk fs (objectPath rootDir bucket key) ∧
        delete tiers disk fs bucket key tier = (.ok (), fs') ∧
        ∀ other, fs'.entry other = if other = objectPath rootDir bucket key then none else fs.entry other) ∨
      (∀ rootDir, tiers tier = some rootDir → ¬ Removable disk fs (objectPath rootDir bucket key)) ∧
        ∃ e, delete tiers disk fs bucket key tier = (.error e, fs) := by
  unfold delete objectPath
  cases root : tiers tier with
  | none => exact .inr ⟨nofun, _, rfl⟩
  | some rootDir =>
    simp only [Option.some.injEq, forall_eq']
    rcases FileBackend.delete_spec disk fs rootDir (makePath bucket key) with
      ⟨removable, fs', deleted, entries⟩ | ⟨stuck, e, refused⟩
    · exact .inl ⟨rootDir, fs', rfl, removable, by simp only [deleted], entries⟩
    · exact Or.inr ⟨stuck, str "failed to delete object: " ++ e, by simp only [refused]⟩

/-- A write that is answered with success replaces one file. -/
theorem put_ok (done : put tiers disk fs bucket key data size tier = (.ok (), fs')) :
    ∃ rootDir made, tiers tier = some rootDir ∧ Writable disk fs (objectPath rootDir bucket key) data size ∧
      fs.Grown made (objectPath rootDir bucket key).dropLast ∧
      ∀ other, fs'.entry other =
        if other = objectPath rootDir bucket key then some (.file data.bytes) else made.entry other := by
  unfold put at done
  cases root : tiers tier with
  | none =>
    rw [root] at done
    cases done
  | some rootDir =>
    simp only [root] at done
    rcases FileBackend.put_cases disk fs rootDir (makePath bucket key) data size with
      ⟨fs'', made, ok, writable, grown, entries⟩ | ⟨_, fs'', _, failed, -⟩
    · rw [ok] at done
      obtain rfl := (Prod.mk.inj done).2
      exact ⟨rootDir, made, rfl, writable, grown, entries⟩
    · rw [failed] at done
      cases done

/-- A write that does not reach the store leaves every file. -/
theorem put_error {body : Answer} {e : Bytes} (failed : put tiers disk fs bucket key body size tier = (.error e, fs')) :
    (∀ hot, tiers tier = some hot → ¬ Writable disk fs (objectPath hot bucket key) body size) ∧
      ∀ path content, fs.entry path = some content → fs'.entry path = some content := by
  unfold put at failed
  cases registered : tiers tier with
  | none =>
    simp only [registered] at failed
    obtain rfl := (Prod.mk.inj failed).2
    exact ⟨nofun, fun _ _ => id⟩
  | some hot =>
    simp only [registered] at failed
    rcases FileBackend.put_cases disk fs hot (makePath bucket key) body size with
      ⟨fs'', made, ok, -⟩ | ⟨_, fs'', made, failed', unable, grown, leaves⟩
    · rw [ok] at failed
      cases failed
    · rw [failed'] at failed
      obtain rfl := (Prod.mk.inj failed).2
      refine ⟨fun hot' same => ?_, fun path content there => leaves.kept grown there⟩
      cases same
      exact unable

theorem writable_of_put (done : (put tiers disk fs bucket key data size tier).1 = .ok ()) :
    ∃ rootDir, tiers tier = some rootDir ∧ Writable disk fs (objectPath rootDir bucket key) data size := by
  obtain ⟨rootDir, _, registered, writable, _⟩ := put_ok (Prod.ext_iff.mpr ⟨done, rfl⟩)
  exact ⟨rootDir, registered, writable⟩

/-- Reading an object succeeds exactly when a file stands at its path. -/
theorem get_eq_iff (tiers : Tiers) (random : Bytes) (fs : FileTree) (bucket key data : Bytes) (tier : Int) :
    get tiers (Disk.sound random) fs bucket key tier = .ok ⟨data, some .eof⟩ ↔
      ∃ rootDir, tiers tier = some rootDir ∧ fs.entry (objectPath rootDir bucket key) = some (.file data) := by
  unfold get FileBackend.get objectPath
  rcases tiers tier with - | rootDir
  · simp
  · simp only [Disk.sound, Option.some.injEq, exists_eq_left']
    rcases fs.entry (Path.join rootDir (makePath bucket key)) with - | ⟨_⟩ | -
    · by_cases absent : fs.missing (Path.join rootDir (makePath bucket key)) = .notExist <;> simp [absent]
    · simp [contents]
    · simp [contents]

end CipherLake.Storage
