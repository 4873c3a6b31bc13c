import CipherLake.Lib.Files
import CipherLake.Lib.Runs
import CipherLake.Migration

/-! The size that the object store keeps for each tier. A write adds what its
caller declared, a deletion takes off what the file system reports, and a migration
moves what the record says, each only if it comes that far. The files change by
what was really written and removed, and by what a failed call leaves behind. The
two agree after a call exactly if they agree for every tier on what the call did. -/
namespace CipherLake.Storage
open Lib Lib.FileTree Metadata

/-! ### The store and its sizes -/

/-- The object store with the sizes of its tiers. -/
structure TieredStore extends ObjectStore where
  currentSize : Int → Int64

/-- What `os.Stat` contributes: a failure, and the size of a directory. -/
structure Stat where
  fault : Option Errno
  dirSize : Int64

def FileBackend.size (stat : Stat) (fs : FileTree) (rootDir : Path) (path : Bytes) : Except Bytes Int64 :=
  let fullPath := Path.join rootDir path
  let refused e : Except Bytes Int64 :=
    if e = .notExist then .error errObjectNotFound
    else .error (str "failed to stat file: " ++ pathError "stat" fullPath e)
  match stat.fault with
  | some e => refused e
  | none =>
    match fs.entry fullPath with
    | some (.file data) => .ok (Int64.ofNat data.length)
    | some .dir => .ok stat.dirSize
    | none => refused (fs.missing fullPath)

namespace TieredStore

def add (sizes : Int → Int64) (tier : Int) (size : Int64) : Int → Int64 :=
  fun t => if t = tier then sizes t + size else sizes t

variable (tiers : Tiers) (disk : Disk)

def put (s : TieredStore) (bucket key : Bytes) (data : Answer) (size : Int64)
    (tier : Int) : Except Bytes Unit × TieredStore :=
  match Storage.put tiers disk s.fs bucket key data size.toInt tier with
  | (.error e, fs) => (.error e, { s with fs })
  | (.ok (), fs) => (.ok (), { s with fs, currentSize := add s.currentSize tier size })

def delete (stat : Stat) (s : TieredStore) (bucket key : Bytes) (tier : Int) :
    Except Bytes Unit × TieredStore :=
  match tiers tier with
  | none => (.error errTierNotAvailable, s)
  | some rootDir =>
    -- the error of the size is dropped, and the size is then zero
    let size := (FileBackend.size stat s.fs rootDir (makePath bucket key)).toOption.getD 0
    match FileBackend.delete disk s.fs rootDir (makePath bucket key) with
    | (.error e, fs) => (.error (str "failed to delete object: " ++ e), { s with fs })
    | (.ok (), fs) => (.ok (), { s with fs, currentSize := add s.currentSize tier (-size) })

def migrate (env : Env) (s : TieredStore) (bucket key : Bytes) (fromTier toTier : Int) :
    Except Bytes Unit × TieredStore :=
  match getObject s.metadata bucket key with
  | .error _ => (.error errObjectNotFound, s)
  | .ok record =>
    match transfer tiers disk s.fs bucket key fromTier toTier record with
    | (.error e, fs) => (.error e, { s with fs })
    | (.ok (), fs) =>
      let size := Int64.ofInt record.size
      let currentSize := add (add s.currentSize fromTier (-size)) toTier size
      match putObject env s.metadata bucket key { record with storageTier := toTier } with
      | (.error e, metadata) =>
        (.error (str "failed to update metadata after migration: " ++ e.text), ⟨⟨fs, metadata⟩, currentSize⟩)
      | (.ok (), metadata) => (.ok (), ⟨⟨fs, metadata⟩, currentSize⟩)

/-- The sizes aside, the calls are those of the object store. -/
theorem put_store (s : TieredStore) (bucket key : Bytes) (data : Answer) (size : Int64)
    (tier : Int) : ((put tiers disk s bucket key data size tier).1, (put tiers disk s bucket key data size tier).2.fs) =
      Storage.put tiers disk s.fs bucket key data size.toInt tier := by
  unfold put
  rcases Storage.put tiers disk s.fs bucket key data size.toInt tier with ⟨_ | ⟨⟩, -⟩ <;> rfl

theorem delete_store (stat : Stat) (s : TieredStore) (bucket key : Bytes) (tier : Int) :
    ((delete tiers disk stat s bucket key tier).1, (delete tiers disk stat s bucket key tier).2.fs) =
      Storage.delete tiers disk s.fs bucket key tier := by
  unfold delete Storage.delete
  cases tiers tier with
  | none => rfl
  | some rootDir =>
    simp only
    rcases FileBackend.delete disk s.fs rootDir (makePath bucket key) with ⟨_ | ⟨⟩, -⟩ <;> rfl

theorem migrate_store (env : Env) (s : TieredStore) (bucket key : Bytes)
    (fromTier toTier : Int) :
    ((migrate tiers disk env s bucket key fromTier toTier).1,
        (migrate tiers disk env s bucket key fromTier toTier).2.toObjectStore) =
      Storage.migrate tiers disk env s.toObjectStore bucket key fromTier toTier := by
  rw [migrate_eq]
  unfold migrate
  cases getObject s.metadata bucket key with
  | error e => rfl
  | ok record =>
    simp only
    rcases transfer tiers disk s.fs bucket key fromTier toTier record with ⟨e | ⟨⟩, fs⟩
    · rfl
    · rcases putObject env s.metadata bucket key { record with storageTier := toTier } with ⟨e | ⟨⟩, metadata⟩ <;> rfl

end TieredStore

/-! ### What a call does to the files -/

variable (sizes : Int → Int64) (disk : Disk) (fs : FileTree) (tier fromTier : Int)

variable (rootDir : Path) (toTier : Int) (size : Int64) (t : Int)

/-- A write replaces one file, or leaves the files as they were, but for a
temporary file that it could not remove. -/
theorem FileBackend.put_files (bucket key : Bytes) (data : Answer) (size : Int) :
    (Writable disk fs (objectPath rootDir bucket key) data size ∧
      ∃ fs', FileBackend.put disk fs rootDir (makePath bucket key) data size = (.ok (), fs') ∧
        fs'.files = fs.files.put (objectPath rootDir bucket key) data.bytes) ∨
    (¬ Writable disk fs (objectPath rootDir bucket key) data size ∧
      ∃ e fs', FileBackend.put disk fs rootDir (makePath bucket key) data size = (.error e, fs') ∧
        (Spills disk fs (objectPath rootDir bucket key) → fs'.files =
          fs.files.put (tempPath disk.random (objectPath rootDir bucket key)) (reached disk data)) ∧
        (¬ Spills disk fs (objectPath rootDir bucket key) → fs'.files = fs.files)) := by
  rcases FileBackend.put_cases disk fs rootDir (makePath bucket key) data size with
    ⟨fs', made, done, writable, grown, entries⟩ | ⟨e, fs', made, failed, unable, grown, leaves⟩
  · exact .inl ⟨writable, fs', done, files_written grown entries⟩
  · refine .inr ⟨unable, e, fs', failed, ?_⟩
    rcases leaves with ⟨clean, kept⟩ | ⟨spills, entries⟩
    · have grown' : fs.Grown fs' (objectPath rootDir bucket key).dropLast := fun other => kept other ▸ grown other
      exact ⟨fun spills => absurd spills clean, fun _ => grown'.files⟩
    · exact ⟨fun _ => files_written grown entries, fun clean => absurd spills clean⟩

theorem FileBackend.delete_files (bucket key : Bytes) : (Removable disk fs (objectPath rootDir bucket key) ∧
      ∃ fs', FileBackend.delete disk fs rootDir (makePath bucket key) = (.ok (), fs') ∧
        fs'.files = fs.files.delete (objectPath rootDir bucket key)) ∨
    (¬ Removable disk fs (objectPath rootDir bucket key) ∧
      ∃ e, FileBackend.delete disk fs rootDir (makePath bucket key) = (.error e, fs)) := by
  rcases FileBackend.delete_spec disk fs rootDir (makePath bucket key) with
    ⟨removable, fs', deleted, entries⟩ | refused
  · exact .inl ⟨removable, fs', deleted, files_removed entries⟩
  · exact .inr refused

/-! ### What the files and the sizes should agree on -/

/-- The size of every tier is the number of bytes in its directory. -/
structure Accurate (tiers : Tiers) (s : TieredStore) : Prop where
  counted : ∀ tier rootDir, tiers tier = some rootDir → (s.currentSize tier).toInt = s.fs.bytesUnder rootDir
  nonneg : ∀ tier rootDir, tiers tier = some rootDir → 0 ≤ (s.currentSize tier).toInt

/-- For every tier, what is put down is by how much the directory grows, and the
new size is not too large to be put down. -/
def Agrees (tiers : Tiers) (s : TieredStore) (posted : Int → Int) (grown : Path → Int) : Prop :=
  ∀ tier rootDir, tiers tier = some rootDir →
    posted tier = grown rootDir ∧ s.fs.bytesUnder rootDir + grown rootDir < 2 ^ 63

/-- A sum of sizes is right exactly if it is the sum and does not run over. -/
theorem bmod_eq_iff {before posted after : Int} (small : 0 ≤ before ∧ before < 2 ^ 63)
    (bounded : -2 ^ 63 ≤ posted ∧ posted ≤ 2 ^ 63) (nonneg : 0 ≤ after) :
    (before + posted).bmod (2 ^ 64) = after ↔ posted = after - before ∧ after < 2 ^ 63 := by
  rw [Int.bmod_def]
  constructor
  · intro same
    split at same <;> omega
  · rintro ⟨rfl, _⟩
    split <;> omega

variable {tiers : Tiers} {s : TieredStore}

/-- Sizes that were right stay right exactly if they agree with the files on what
happened. -/
theorem Accurate.iff_agrees (accurate : Accurate tiers s) (s' : TieredStore) {posted : Int → Int} {grown : Path → Int}
    (sizes : ∀ tier, (s'.currentSize tier).toInt = ((s.currentSize tier).toInt + posted tier).bmod (2 ^ 64))
    (bounded : ∀ tier, -2 ^ 63 ≤ posted tier ∧ posted tier ≤ 2 ^ 63)
    (files : ∀ dir, s'.fs.bytesUnder dir = s.fs.bytesUnder dir + grown dir) :
    Accurate tiers s' ↔ Agrees tiers s posted grown := by
  have each (tier : Int) (rootDir : Path) (registered : tiers tier = some rootDir) :
      (s'.currentSize tier).toInt = s'.fs.bytesUnder rootDir ↔
        posted tier = grown rootDir ∧ s.fs.bytesUnder rootDir + grown rootDir < 2 ^ 63 := by
    have right := accurate.counted tier rootDir registered
    have small : 0 ≤ (s.currentSize tier).toInt ∧ (s.currentSize tier).toInt < 2 ^ 63 :=
      ⟨accurate.nonneg tier rootDir registered, (s.currentSize tier).toInt_lt⟩
    have after := s'.fs.bytesUnder_nonneg rootDir
    rw [sizes, bmod_eq_iff small (bounded tier) after, files, right]
    constructor
    · rintro ⟨same, fits⟩
      exact ⟨by omega, fits⟩
    · rintro ⟨same, fits⟩
      exact ⟨by omega, fits⟩
  constructor
  · intro accurate' tier rootDir registered
    exact (each tier rootDir registered).mp (accurate'.counted tier rootDir registered)
  · intro agrees
    have counted tier rootDir registered := (each tier rootDir registered).mpr (agrees tier rootDir registered)
    refine ⟨counted, fun tier rootDir registered => ?_⟩
    rw [counted tier rootDir registered]
    exact s'.fs.bytesUnder_nonneg rootDir

theorem toInt_add_zero (x : Int64) : x.toInt = (x.toInt + 0).bmod (2 ^ 64) := by
  have lower := x.le_toInt
  have upper := x.toInt_lt
  rw [Int.add_zero, Int.bmod_def]
  split <;> omega

theorem toInt_add : (TieredStore.add sizes tier size t).toInt =
      ((sizes t).toInt + if t = tier then size.toInt else 0).bmod (2 ^ 64) := by
  unfold TieredStore.add
  split
  · exact Int64.toInt_add _ _
  · exact toInt_add_zero _

theorem toInt_add_neg : (TieredStore.add sizes tier (-size) t).toInt =
      ((sizes t).toInt + if t = tier then -size.toInt else 0).bmod (2 ^ 64) := by
  rw [toInt_add]
  split
  · rw [Int64.toInt_neg, Int.add_bmod_bmod]
  · rfl

theorem toInt_moved : (TieredStore.add (TieredStore.add sizes fromTier (-size)) toTier size t).toInt =
      ((sizes t).toInt + ((if t = toTier then size.toInt else 0) - if t = fromTier then size.toInt else 0)).bmod
        (2 ^ 64) := by
  rw [toInt_add, toInt_add_neg, Int.bmod_add_bmod]
  congr 1
  split <;> split <;> omega

/-! ### The calls -/

/-- The calls on the store, with what the operating system and the metadata store
contribute to them. -/
inductive Call where
  | put (disk : Disk) (bucket key : Bytes) (data : Answer) (size : Int64) (tier : Int)
  | delete (disk : Disk) (stat : Stat) (bucket key : Bytes) (tier : Int)
  | migrate (disk : Disk) (env : Env) (bucket key : Bytes) (fromTier toTier : Int)

def perform (tiers : Tiers) (s : TieredStore) : Call → TieredStore
  | .put disk bucket key data size tier => (s.put tiers disk bucket key data size tier).2
  | .delete disk stat bucket key tier => (s.delete tiers disk stat bucket key tier).2
  | .migrate disk env bucket key fromTier toTier => (s.migrate tiers disk env bucket key fromTier toTier).2

/-- Nothing of a failed write of these bytes is left where it counts. -/
def LeavesNothing (tiers : Tiers) (s : TieredStore) (disk : Disk) (path : Path) (data : Answer) : Prop :=
  Spills disk s.fs path → Agrees tiers s (fun _ => 0)
    fun dir => within dir (tempPath disk.random path) (reached disk data).length

/-- The migration opens its source and cannot write what it reads. -/
structure CopyFails (tiers : Tiers) (disk : Disk) (fs : FileTree) (bucket key : Bytes) (fromTier toTier : Int)
    (record : ObjectMetadata) (entry : Entry) (source target : Path) : Prop
    extends Opens tiers disk fs bucket key fromTier toTier record entry source target where
  blocked : ¬ Writable disk fs (objectPath target bucket key)
    (contents disk (objectPath source bucket key) entry) record.size

/-- A call puts down what it does to the files. -/
def Balanced (tiers : Tiers) (s : TieredStore) : Call → Prop
  | .put disk bucket key data size tier => ∀ rootDir, tiers tier = some rootDir →
    let path := objectPath rootDir bucket key
    (Writable disk s.fs path data size.toInt →
        Agrees tiers s (fun t => if t = tier then size.toInt else 0)
          fun dir => within dir path (data.bytes.length - s.fs.fileLength path)) ∧
      (¬ Writable disk s.fs path data size.toInt → LeavesNothing tiers s disk path data)
  | .delete disk stat bucket key tier => ∀ rootDir, tiers tier = some rootDir →
    let path := objectPath rootDir bucket key
    let size := (FileBackend.size stat s.fs rootDir (makePath bucket key)).toOption.getD 0
    Removable disk s.fs path →
      Agrees tiers s (fun t => if t = tier then -size.toInt else 0) fun dir => -within dir path (s.fs.fileLength path)
  | .migrate disk _ bucket key fromTier toTier => ∀ record, getObject s.metadata bucket key = .ok record →
    let size := (Int64.ofInt record.size).toInt
    (∀ data source target, Moves tiers disk s.fs bucket key fromTier toTier record data source target →
      let copy := objectPath target bucket key
      (Deletes disk →
        Agrees tiers s (fun t => (if t = toTier then size else 0) - if t = fromTier then size else 0)
          fun dir => within dir copy (data.length - s.fs.fileLength copy) -
            within dir (objectPath source bucket key) data.length) ∧
        (¬ Deletes disk →
          Agrees tiers s (fun _ => 0) fun dir => within dir copy (data.length - s.fs.fileLength copy))) ∧
      ∀ entry source target, CopyFails tiers disk s.fs bucket key fromTier toTier record entry source target →
        LeavesNothing tiers s disk (objectPath target bucket key)
          (contents disk (objectPath source bucket key) entry)

/-- Nothing done, nothing put down. -/
theorem Accurate.of_files {fs : FileTree} (accurate : Accurate tiers s) (same : fs.files = s.fs.files) :
    Accurate tiers { s with fs } := by
  have bytes (dir : Path) : fs.bytesUnder dir = s.fs.bytesUnder dir := by
    unfold bytesUnder
    rw [same]
  refine ⟨fun tier rootDir registered => ?_, accurate.nonneg⟩
  rw [bytes]
  exact accurate.counted tier rootDir registered

theorem Accurate.iff_leavesNothing (accurate : Accurate tiers s) {fs : FileTree} {disk : Disk} {path : Path}
    {data : Answer}
    (spilled : Spills disk s.fs path → fs.files = s.fs.files.put (tempPath disk.random path) (reached disk data))
    (clean : ¬ Spills disk s.fs path → fs.files = s.fs.files) :
    Accurate tiers { s with fs } ↔ LeavesNothing tiers s disk path data := by
  unfold LeavesNothing
  by_cases spills : Spills disk s.fs path
  · have absent : s.fs.fileLength (tempPath disk.random path) = 0 := by
      rw [fileLength, get_files, spills.fresh]
      rfl
    have files (dir : Path) := bytesUnder_written (spilled spills) dir
    simp only [absent, Int.sub_zero] at files
    simp only [spills, forall_const]
    exact accurate.iff_agrees { s with fs } (fun tier => toInt_add_zero _) (fun _ => by simp) files
  · exact iff_of_true (accurate.of_files (clean spills)) fun does => absurd does spills

theorem posted_bounded :
    -2 ^ 63 ≤ (if t = tier then size.toInt else 0) ∧ (if t = tier then size.toInt else 0) ≤ 2 ^ 63 := by
  have lower := size.le_toInt
  have upper := size.toInt_lt
  split <;> omega

theorem put_accurate_iff (accurate : Accurate tiers s) (disk : Disk) (bucket key : Bytes) (data : Answer) (size : Int64)
    (tier : Int) : Accurate tiers (s.put tiers disk bucket key data size tier).2 ↔
      Balanced tiers s (.put disk bucket key data size tier) := by
  unfold TieredStore.put Storage.put
  simp only [Balanced]
  cases registered : tiers tier with
  | none => simpa using accurate
  | some rootDir =>
    simp only [Option.some.injEq, forall_eq']
    rcases FileBackend.put_files disk s.fs rootDir bucket key data size.toInt with
      ⟨writable, fs, done, files⟩ | ⟨blocked, e, fs, failed, spilled, clean⟩
    · simp only [done, writable, forall_const, not_true_eq_false, false_implies, and_true]
      exact accurate.iff_agrees _ (toInt_add _ _ _) (posted_bounded tier size) (bytesUnder_written files)
    · simp only [failed, blocked, false_implies, not_false_eq_true, forall_const, true_and]
      exact accurate.iff_leavesNothing spilled clean

theorem delete_accurate_iff (accurate : Accurate tiers s) (disk : Disk) (stat : Stat) (bucket key : Bytes) (tier : Int) :
    Accurate tiers (s.delete tiers disk stat bucket key tier).2 ↔
      Balanced tiers s (.delete disk stat bucket key tier) := by
  unfold TieredStore.delete
  simp only [Balanced]
  cases registered : tiers tier with
  | none => simpa using accurate
  | some rootDir =>
    simp only [Option.some.injEq, forall_eq']
    rcases FileBackend.delete_files disk s.fs rootDir bucket key with
      ⟨removable, _, done, files⟩ | ⟨blocked, _, failed⟩
    · simp only [done, removable, forall_const]
      refine accurate.iff_agrees _ (toInt_add_neg _ _ _) (fun t => ?_) fun dir => ?_
      · have bounds := posted_bounded tier
          ((FileBackend.size stat s.fs rootDir (makePath bucket key)).toOption.getD 0) t
        split at bounds
        · next same => simp only [same, if_true]; omega
        · next other => simp only [other, if_false]; omega
      · rw [bytesUnder_removed files]
        omega
    · simp only [failed, blocked, false_implies, iff_true]
      exact accurate

theorem moved_bounded : -2 ^ 63 ≤ ((if t = toTier then size.toInt else 0) - if t = fromTier then size.toInt else 0) ∧
      ((if t = toTier then size.toInt else 0) - if t = fromTier then size.toInt else 0) ≤ 2 ^ 63 := by
  have lower := size.le_toInt
  have upper := size.toInt_lt
  split <;> split <;> omega

theorem migrate_accurate_iff (accurate : Accurate tiers s) (disk : Disk) (env : Env) (bucket key : Bytes)
    (fromTier toTier : Int) : Accurate tiers (s.migrate tiers disk env bucket key fromTier toTier).2 ↔
      Balanced tiers s (.migrate disk env bucket key fromTier toTier) := by
  unfold TieredStore.migrate
  simp only [Balanced]
  cases found : getObject s.metadata bucket key with
  | error e => exact iff_of_true accurate nofun
  | ok record =>
    simp only [Except.ok.injEq, forall_eq']
    rcases transfer_cases tiers disk s.fs bucket key fromTier toTier record with
      ⟨e, fs, failed, unmoved, -, ⟨unopened, rfl⟩ | ⟨entry, source, target, _, opens, copying⟩⟩ |
        ⟨data, source, target, copied, moves, copying, atTarget, beyond, outcome⟩
    · rw [failed]
      exact iff_of_true accurate ⟨fun _ _ _ moves => absurd moves (unmoved _ _ _),
        fun _ _ _ fails => absurd fails.toOpens (unopened _ _ _)⟩
    · rw [failed]
      rcases FileBackend.put_files disk s.fs target bucket key (contents disk (objectPath source bucket key) entry)
        record.size with ⟨-, _, done, -⟩ | ⟨blocked, _, _, failing, spilled, clean⟩
      · cases copying.symm.trans done
      cases copying.symm.trans failing
      refine (accurate.iff_leavesNothing spilled clean).trans ⟨fun nothing => ⟨?_, ?_⟩, fun balanced => ?_⟩
      · exact fun _ _ _ moves => absurd moves (unmoved _ _ _)
      · intro entry' source' target' fails'
        obtain ⟨rfl, rfl, rfl⟩ := opens.unique fails'.toOpens
        exact nothing
      · exact balanced.2 entry source target ⟨opens, blocked⟩
    · rcases FileBackend.put_files disk s.fs target bucket key ⟨data, some .eof⟩ record.size with
        ⟨-, _, done, files⟩ | ⟨blocked, -⟩
      swap
      · exact absurd moves.copied blocked
      cases copying.symm.trans done
      have atSource : copied.entry (objectPath source bucket key) = some (.file data) := by
        by_cases same : objectPath source bucket key = objectPath target bucket key
        · rw [same, atTarget]
        · exact beyond _ _ same moves.held
      have uncopied : ∀ entry source target,
          CopyFails tiers disk s.fs bucket key fromTier toTier record entry source target →
          LeavesNothing tiers s disk (objectPath target bucket key)
            (contents disk (objectPath source bucket key) entry) := by
        intro _ _ _ fails
        obtain ⟨rfl, rfl, rfl⟩ := moves.opens.unique fails.toOpens
        exact absurd (moves.contents ▸ moves.copied) fails.blocked
      rw [moves.forall_iff, and_iff_left uncopied]
      rcases outcome with ⟨stays, e, failed⟩ | ⟨deletes, fs, done, left⟩
      · rw [failed]
        simp only [stays, false_implies, true_and, not_false_eq_true, forall_const]
        exact accurate.iff_agrees { s with fs := copied } (fun tier => toInt_add_zero _) (fun _ => by simp)
          (bytesUnder_written files)
      · rw [done]
        simp only [deletes, forall_const, not_true_eq_false, false_implies, and_true]
        have grown (dir : Path) : fs.bytesUnder dir = s.fs.bytesUnder dir +
            (within dir (objectPath target bucket key) (data.length - s.fs.fileLength (objectPath target bucket key)) -
              within dir (objectPath source bucket key) data.length) := by
          rw [bytesUnder_removed (files_removed left), bytesUnder_written files, fileLength_of_entry atSource]
          simp only
          omega
        rcases putObject env s.metadata bucket key { record with storageTier := toTier } with ⟨e | ⟨⟩, metadata⟩
        · exact accurate.iff_agrees _ (toInt_moved _ _ _ _) (moved_bounded _ _ _) grown
        · exact accurate.iff_agrees _ (toInt_moved _ _ _ _) (moved_bounded _ _ _) grown

/-- One call keeps the sizes right exactly if it puts down what it does. -/
theorem perform_accurate_iff (accurate : Accurate tiers s) (call : Call) :
    Accurate tiers (perform tiers s call) ↔ Balanced tiers s call := by
  cases call with
  | put disk bucket key data size tier => exact put_accurate_iff accurate disk bucket key data size tier
  | delete disk stat bucket key tier => exact delete_accurate_iff accurate disk stat bucket key tier
  | migrate disk env bucket key fromTier toTier =>
    exact migrate_accurate_iff accurate disk env bucket key fromTier toTier

/-! ### Runs -/

def next (tiers : Tiers) (s : TieredStore) (call : Call) : Option TieredStore := some (perform tiers s call)

/-- In a run that starts with the right sizes they stay right exactly if every
call puts down, for every tier, what it does to the files of the tier. -/
theorem sizes_accurate_iff (tiers : Tiers) (s : TieredStore) (accurate : Accurate tiers s) (calls : List Call) :
    Runs.Always (next tiers) (Accurate tiers) s calls ↔ Runs.Throughout (next tiers) (Balanced tiers) s calls := by
  apply Runs.always_iff_throughout (fun _ => True)
  · exact fun _ _ _ _ _ => trivial
  · rintro s call _ ⟨⟩ - right
    exact perform_accurate_iff right call
  · trivial
  · exact accurate

namespace Sample

/-- A new store with empty tiers. -/
def fresh : TieredStore := ⟨⟨FileTree.empty, ⟨Table.empty, Table.empty, Table.empty⟩⟩, fun _ => 0⟩

/-- A write of four bytes. -/
def write (random : String) (size : Int64) : Call :=
  .put (Disk.sound (str random)) (str "bkt") (str "k") ⟨str "data", some .eof⟩ size tierHot

theorem fresh_accurate : Accurate tiers fresh := by
  have empty (dir : Path) : FileTree.empty.bytesUnder dir = 0 := rfl
  exact ⟨fun tier rootDir _ => (empty rootDir).symm, fun tier rootDir _ => Int.le_refl 0⟩

end Sample

open Sample

/-- An object that is written twice is counted twice, and one that is written
without a declared size leaves a negative size when it is deleted. -/
theorem sizes_drift :
    (((perform Sample.tiers (perform Sample.tiers Sample.fresh (write "1" 4)) (write "2" 4)).currentSize
          0).toInt = 8 ∧
        (perform Sample.tiers (perform Sample.tiers Sample.fresh (write "1" 4))
          (write "2" 4)).fs.bytesUnder [str "hot"] = 4) ∧
      ((perform Sample.tiers (perform Sample.tiers Sample.fresh (write "1" 0))
          (.delete (Disk.sound (str "2")) ⟨none, 4096⟩ (str "bkt") (str "k") tierHot)).currentSize 0).toInt = -4 ∧
      ¬ Runs.Always (next Sample.tiers) (Accurate Sample.tiers) Sample.fresh [write "1" 4, write "2" 4] := by
  refine (fun counted held => ⟨⟨counted, held⟩, by decide +kernel, fun always => ?_⟩) (by decide +kernel) (by decide +kernel)
  have right := ((always.2 _ rfl).2 _ rfl).counted 0 [str "hot"] rfl
  cases right

/-- The first write of an object with its right size is counted right. -/
theorem first_write_counted : Runs.Always (next Sample.tiers) (Accurate Sample.tiers) Sample.fresh [write "1" 4] := by
  apply (sizes_accurate_iff Sample.tiers Sample.fresh Sample.fresh_accurate [write "1" 4]).mpr
  refine fun s' reached => ⟨?_, trivial⟩
  have done : (put Sample.tiers (Disk.sound (str "1")) Sample.fresh.fs (str "bkt") (str "k")
      ⟨str "data", some .eof⟩ (4 : Int64).toInt tierHot).1 = .ok () := by decide +kernel
  obtain ⟨rootDir, registered, writable⟩ := writable_of_put done
  rintro rootDir' registered'
  cases registered.symm.trans registered'
  refine ⟨fun _ => ?_, fun blocked => absurd writable blocked⟩
  cases registered
  intro tier dir known
  unfold Sample.tiers at known
  split at known
  · cases known
    decide +kernel
  · cases known
    decide +kernel
  · cases known

end CipherLake.Storage
