import CipherLake.Storage

/-! Moving an object between tiers. `Migrate` copies the data, deletes the
source and records the new tier last, so what it leaves behind depends on the
step at which it stops. -/
namespace CipherLake.Storage
open Lib Metadata

/-- The data files and the metadata. -/
structure ObjectStore where
  fs : FileTree
  metadata : Store

def migrate (tiers : Tiers) (disk : Disk) (env : Env) (s : ObjectStore) (bucket key : Bytes)
    (fromTier toTier : Int) : Except Bytes Unit × ObjectStore :=
  match getObject s.metadata bucket key with
  | .error _ => (.error errObjectNotFound, s)
  | .ok record =>
    if record.storageTier ≠ fromTier then (.error (str "object is not in source tier"), s)
    else
      let srcPath := makePath bucket key
      match tiers fromTier, tiers toTier with
      | some source, some target =>
        match FileBackend.get disk s.fs source srcPath with
        | .error e => (.error (str "failed to read from source: " ++ e), s)
        | .ok data =>
          match FileBackend.put disk s.fs target srcPath data record.size with
          | (.error e, fs) => (.error (str "failed to write to destination: " ++ e), { s with fs })
          | (.ok (), fs) =>
            match disk.sourceClose with
            | some e => (.error (str "failed to close source after migration: " ++
                pathError "close" (Path.join source srcPath) e), { s with fs })
            | none =>
              match FileBackend.delete disk fs source srcPath with
              | (.error e, fs) => (.error (str "failed to delete source after migration: " ++ e), { s with fs })
              | (.ok (), fs) =>
                match putObject env s.metadata bucket key { record with storageTier := toTier } with
                | (.error e, metadata) =>
                  (.error (str "failed to update metadata after migration: " ++ e.text), ⟨fs, metadata⟩)
                | (.ok (), metadata) => (.ok (), ⟨fs, metadata⟩)
      | _, _ => (.error errTierNotAvailable, s)

/-- The data part of `migrate`: the copy and the deletion of the source. -/
def transfer (tiers : Tiers) (disk : Disk) (fs : FileTree) (bucket key : Bytes) (fromTier toTier : Int)
    (record : ObjectMetadata) : Except Bytes Unit × FileTree :=
  if record.storageTier ≠ fromTier then (.error (str "object is not in source tier"), fs)
  else
    let srcPath := makePath bucket key
    match tiers fromTier, tiers toTier with
    | some source, some target =>
      match FileBackend.get disk fs source srcPath with
      | .error e => (.error (str "failed to read from source: " ++ e), fs)
      | .ok data =>
        match FileBackend.put disk fs target srcPath data record.size with
        | (.error e, fs) => (.error (str "failed to write to destination: " ++ e), fs)
        | (.ok (), fs) =>
          match disk.sourceClose with
          | some e => (.error (str "failed to close source after migration: " ++
              pathError "close" (Path.join source srcPath) e), fs)
          | none =>
            match FileBackend.delete disk fs source srcPath with
            | (.error e, fs) => (.error (str "failed to delete source after migration: " ++ e), fs)
            | (.ok (), fs) => (.ok (), fs)
    | _, _ => (.error errTierNotAvailable, fs)

/-- A read at the tier the object's record names. -/
def readBack (tiers : Tiers) (s : ObjectStore) (bucket key : Bytes) : Except Bytes Answer :=
  match getObject s.metadata bucket key with
  | .error e => .error e.text
  | .ok record => get tiers (Disk.sound []) s.fs bucket key record.storageTier

/-- The object can be read, as these bytes. -/
def Readable (tiers : Tiers) (s : ObjectStore) (bucket key data : Bytes) : Prop :=
  readBack tiers s bucket key = .ok ⟨data, some .eof⟩

/-- The source of an object is gone before the move is on record: either the
two tiers keep the object at one path, or the record cannot be written. -/
structure Strands (tiers : Tiers) (disk : Disk) (env : Env) (s : ObjectStore) (bucket key : Bytes)
    (fromTier toTier : Int) (record : ObjectMetadata) (data : Bytes) (source target : Path) : Prop where
  inSource : record.storageTier = fromTier
  fromRoot : tiers fromTier = some source
  toRoot : tiers toTier = some target
  opened : disk.opening = none
  read : disk.reading = none
  copied : Writable disk s.fs (objectPath target bucket key) ⟨data, some .eof⟩ record.size
  closed : disk.sourceClose = none
  deleted : disk.remove = none
  stranded : objectPath source bucket key = objectPath target bucket key ∨
    Refused env s.metadata bucket key { record with storageTier := toTier }

/-- The migration of a record copies these bytes from one tier to the other. -/
structure Moves (tiers : Tiers) (disk : Disk) (fs : FileTree) (bucket key : Bytes) (fromTier toTier : Int)
    (record : ObjectMetadata) (data : Bytes) (source target : Path) : Prop where
  inSource : record.storageTier = fromTier
  fromRoot : tiers fromTier = some source
  toRoot : tiers toTier = some target
  opened : disk.opening = none
  read : disk.reading = none
  held : fs.entry (objectPath source bucket key) = some (.file data)
  copied : Writable disk fs (objectPath target bucket key) ⟨data, some .eof⟩ record.size

/-- After the copy, the source is closed and removed. -/
structure Deletes (disk : Disk) : Prop where
  closed : disk.sourceClose = none
  deleted : disk.remove = none

section
variable {tiers : Tiers} {disk : Disk} {env : Env} {s : ObjectStore} {bucket key data : Bytes}
  {record : ObjectMetadata} {fromTier toTier : Int}

theorem migrate_eq : migrate tiers disk env s bucket key fromTier toTier =
    match getObject s.metadata bucket key with
    | .error _ => (.error errObjectNotFound, s)
    | .ok record =>
      match transfer tiers disk s.fs bucket key fromTier toTier record with
      | (.error e, fs) => (.error e, { s with fs })
      | (.ok (), fs) => match putObject env s.metadata bucket key { record with storageTier := toTier } with
        | (.error e, metadata) =>
          (.error (str "failed to update metadata after migration: " ++ e.text), ⟨fs, metadata⟩)
        | (.ok (), metadata) => (.ok (), ⟨fs, metadata⟩) := by
  unfold migrate transfer
  rcases getObject s.metadata bucket key with e | record
  · rfl
  simp only
  split
  · rfl
  rcases tiers fromTier with - | source
  · rfl
  rcases tiers toTier with - | target
  · rfl
  simp only
  rcases FileBackend.get disk s.fs source (makePath bucket key) with e | data
  · rfl
  simp only
  rcases FileBackend.put disk s.fs target (makePath bucket key) data record.size with ⟨e | ⟨⟩, fs⟩
  · rfl
  rcases disk.sourceClose with - | e
  · simp only
    rcases FileBackend.delete disk fs source (makePath bucket key) with ⟨e | ⟨⟩, fs⟩ <;> rfl
  · rfl

theorem readable_iff {metadata : Store} {record : ObjectMetadata} {rootDir : Path} (fs : FileTree)
    (recorded : getObject metadata bucket key = .ok record) (root : tiers record.storageTier = some rootDir) :
    Readable tiers ⟨fs, metadata⟩ bucket key data ↔ fs.entry (objectPath rootDir bucket key) = some (.file data) := by
  rw [Readable, readBack, recorded]
  rw [get_eq_iff]
  simp [root]

variable {fs : FileTree} {path source target : Path}

theorem get_opened {rootDir : Path} {answer : Answer}
    (read : FileBackend.get disk fs rootDir (makePath bucket key) = .ok answer) :
    ∃ entry, disk.opening = none ∧ fs.entry (objectPath rootDir bucket key) = some entry ∧
      contents disk (objectPath rootDir bucket key) entry = answer := by
  unfold FileBackend.get at read
  rcases opened : disk.opening with - | _
  · rw [opened] at read
    simp only at read
    split at read
    · next entry present => exact ⟨entry, rfl, present, Except.ok.inj read⟩
    · split at read <;> cases read
  · rw [opened] at read
    cases read

/-- What is read without an error is a whole file. -/
theorem contents_whole {entry : Entry}
    (ended : (contents disk path entry).err = none ∨ (contents disk path entry).err = some .eof) :
    ∃ data, entry = .file data ∧ disk.reading = none ∧ contents disk path entry = ⟨data, some .eof⟩ := by
  cases entry with
  | dir => simp [contents] at ended
  | file data =>
    rcases fault : disk.reading with - | ⟨_, _⟩
    · exact ⟨data, rfl, rfl, by simp only [contents, fault]⟩
    · simp [contents, fault] at ended

/-- The migration finds its source. -/
structure Opens (tiers : Tiers) (disk : Disk) (fs : FileTree) (bucket key : Bytes) (fromTier toTier : Int)
    (record : ObjectMetadata) (entry : Entry) (source target : Path) : Prop where
  inSource : record.storageTier = fromTier
  fromRoot : tiers fromTier = some source
  toRoot : tiers toTier = some target
  opened : disk.opening = none
  held : fs.entry (objectPath source bucket key) = some entry

theorem Opens.unique {entry entry' : Entry} {source' target' : Path}
    (opens : Opens tiers disk fs bucket key fromTier toTier record entry source target)
    (opens' : Opens tiers disk fs bucket key fromTier toTier record entry' source' target') :
    entry = entry' ∧ source = source' ∧ target = target' := by
  cases opens.fromRoot.symm.trans opens'.fromRoot
  cases opens.toRoot.symm.trans opens'.toRoot
  exact ⟨Option.some.inj (opens.held.symm.trans opens'.held), rfl, rfl⟩

theorem Moves.opens (moves : Moves tiers disk fs bucket key fromTier toTier record data source target) :
    Opens tiers disk fs bucket key fromTier toTier record (.file data) source target :=
  ⟨moves.inSource, moves.fromRoot, moves.toRoot, moves.opened, moves.held⟩

theorem Moves.contents (moves : Moves tiers disk fs bucket key fromTier toTier record data source target) :
    contents disk path (.file data) = ⟨data, some .eof⟩ := by
  simp only [Storage.contents, moves.read]

/-- The data part leaves everything, or it opens the source and goes on to the
copy. -/
theorem transfer_opens (tiers : Tiers) (disk : Disk) (fs : FileTree) (bucket key : Bytes) (fromTier toTier : Int)
    (record : ObjectMetadata) :
    ((∃ e, transfer tiers disk fs bucket key fromTier toTier record = (.error e, fs)) ∧
        ∀ entry source target, ¬ Opens tiers disk fs bucket key fromTier toTier record entry source target) ∨
      ∃ entry source target, Opens tiers disk fs bucket key fromTier toTier record entry source target ∧
        transfer tiers disk fs bucket key fromTier toTier record =
          match FileBackend.put disk fs target (makePath bucket key)
            (contents disk (objectPath source bucket key) entry) record.size with
          | (.error e, fs) => (.error (str "failed to write to destination: " ++ e), fs)
          | (.ok (), fs) =>
            match disk.sourceClose with
            | some e => (.error (str "failed to close source after migration: " ++
                pathError "close" (Path.join source (makePath bucket key)) e), fs)
            | none =>
              match FileBackend.delete disk fs source (makePath bucket key) with
              | (.error e, fs) => (.error (str "failed to delete source after migration: " ++ e), fs)
              | (.ok (), fs) => (.ok (), fs) := by
  by_cases inSource : record.storageTier = fromTier
  swap
  · exact .inl ⟨⟨_, if_pos inSource⟩, fun _ _ _ opens => inSource opens.inSource⟩
  rcases fromRoot : tiers fromTier with - | source
  · refine .inl ⟨by simp [transfer, inSource, fromRoot], fun _ _ _ opens => ?_⟩
    simp [opens.fromRoot] at fromRoot
  rcases toRoot : tiers toTier with - | target
  · refine .inl ⟨by simp [transfer, inSource, toRoot], fun _ _ _ opens => ?_⟩
    simp [opens.toRoot] at toRoot
  cases read : FileBackend.get disk fs source (makePath bucket key) with
  | error e =>
    refine .inl ⟨by simp [transfer, inSource, fromRoot, toRoot, read], fun _ _ _ opens => ?_⟩
    cases fromRoot.symm.trans opens.fromRoot
    have present := opens.held
    rw [objectPath] at present
    simp [FileBackend.get, opens.opened, present] at read
  | ok answer =>
    obtain ⟨entry, opened, present, rfl⟩ := get_opened read
    refine .inr ⟨entry, source, target, ⟨inSource, fromRoot, toRoot, opened, present⟩, ?_⟩
    simp only [transfer, inSource, fromRoot, toRoot, read, ne_eq, not_true_eq_false, if_false]

/-- Everything the data part can do: it stops before the copy or fails to copy, and
leaves all files, or it makes the copy, and then removes the source if it can. -/
theorem transfer_cases (tiers : Tiers) (disk : Disk) (fs : FileTree) (bucket key : Bytes) (fromTier toTier : Int)
    (record : ObjectMetadata) :
    (∃ e fs', transfer tiers disk fs bucket key fromTier toTier record = (.error e, fs') ∧
        (∀ data source target, ¬ Moves tiers disk fs bucket key fromTier toTier record data source target) ∧
        (∀ path data, fs.entry path = some (.file data) → fs'.entry path = some (.file data)) ∧
        ((∀ entry source target, ¬ Opens tiers disk fs bucket key fromTier toTier record entry source target) ∧ fs' = fs ∨
          ∃ entry source target e, Opens tiers disk fs bucket key fromTier toTier record entry source target ∧
            FileBackend.put disk fs target (makePath bucket key) (contents disk (objectPath source bucket key) entry)
              record.size = (.error e, fs'))) ∨
      ∃ data source target copied, Moves tiers disk fs bucket key fromTier toTier record data source target ∧
        FileBackend.put disk fs target (makePath bucket key) ⟨data, some .eof⟩ record.size = (.ok (), copied) ∧
        copied.entry (objectPath target bucket key) = some (.file data) ∧
        (∀ path bytes, path ≠ objectPath target bucket key → fs.entry path = some (.file bytes) →
          copied.entry path = some (.file bytes)) ∧
        (¬ Deletes disk ∧ (∃ e, transfer tiers disk fs bucket key fromTier toTier record = (.error e, copied)) ∨
          Deletes disk ∧ ∃ fs', transfer tiers disk fs bucket key fromTier toTier record = (.ok (), fs') ∧
            ∀ other, fs'.entry other = if other = objectPath source bucket key then none else copied.entry other) := by
  rcases transfer_opens tiers disk fs bucket key fromTier toTier record with
    ⟨⟨e, stopped⟩, unopened⟩ | ⟨entry, source, target, opens, goesOn⟩
  · exact .inl ⟨e, fs, stopped, fun _ _ _ moves => unopened _ _ _ moves.opens, fun _ _ held => held,
      .inl ⟨unopened, rfl⟩⟩
  rw [goesOn]
  rcases FileBackend.put_cases disk fs target (makePath bucket key)
    (contents disk (objectPath source bucket key) entry) record.size with
    ⟨copied, made, done, writable, grown, entries⟩ | ⟨e, fs', made, failed, blocked, grown, leaves⟩
  · obtain ⟨data, rfl, reading, whole⟩ := contents_whole writable.written.2.1
    rw [whole] at done writable entries
    simp only [whole, done]
    have atTarget : copied.entry (objectPath target bucket key) = some (.file data) :=
      (entries _).trans (if_pos rfl)
    have beyond (path : Path) (bytes : Bytes) (apart : path ≠ objectPath target bucket key)
        (held : fs.entry path = some (.file bytes)) : copied.entry path = some (.file bytes) :=
      ((entries path).trans (if_neg apart)).trans (grown.file.mpr held)
    have atSource : copied.entry (objectPath source bucket key) = some (.file data) := by
      by_cases same : objectPath source bucket key = objectPath target bucket key
      · rw [same, atTarget]
      · exact beyond _ _ same opens.held
    refine .inr ⟨data, source, target, copied,
      ⟨opens.inSource, opens.fromRoot, opens.toRoot, opens.opened, reading, opens.held, writable⟩, done, atTarget,
      beyond, ?_⟩
    rcases closing : disk.sourceClose with - | e
    swap
    · refine .inl ⟨fun deletes => ?_, _, rfl⟩
      simp [deletes.closed] at closing
    rcases removing : disk.remove with - | e
    swap
    · refine .inl ⟨fun deletes => ?_, ?_⟩
      · simp [deletes.deleted] at removing
      · simp [FileBackend.delete, removing]
    obtain ⟨fs', removed, left⟩ := FileBackend.delete_file atSource removing
    exact .inr ⟨⟨closing, removing⟩, fs', by simp only [removed], left⟩
  · simp only [failed]
    refine .inl ⟨_, fs', rfl, fun data _ _ moves => ?_, fun path bytes held => leaves.kept grown held,
      .inr ⟨entry, source, target, e, opens, failed⟩⟩
    obtain ⟨rfl, rfl, rfl⟩ := opens.unique moves.opens
    exact blocked (moves.contents ▸ moves.copied)

section
variable (moves : Moves tiers disk fs bucket key fromTier toTier record data source target)
include moves

/-- What one migration copies, and between which tiers. -/
theorem Moves.unique {data' : Bytes} {source' target' : Path}
    (moves' : Moves tiers disk fs bucket key fromTier toTier record data' source' target') :
    data = data' ∧ source = source' ∧ target = target' := by
  cases moves.fromRoot.symm.trans moves'.fromRoot
  cases moves.toRoot.symm.trans moves'.toRoot
  cases moves.held.symm.trans moves'.held
  exact ⟨rfl, rfl, rfl⟩

theorem Moves.forall_iff {claim : Bytes → Path → Path → Prop} :
    (∀ data source target, Moves tiers disk fs bucket key fromTier toTier record data source target →
      claim data source target) ↔ claim data source target := by
  constructor
  · intro every
    exact every _ _ _ moves
  · intro this _ _ _ moves'
    obtain ⟨rfl, rfl, rfl⟩ := moves.unique moves'
    exact this

end

/-- A file survives the data part of a migration unless something else is copied
over it or it is the source and is removed. -/
theorem transfer_spares_iff (held : fs.entry path = some (.file data)) :
    (transfer tiers disk fs bucket key fromTier toTier record).2.entry path = some (.file data) ↔
      ∀ data' source target, Moves tiers disk fs bucket key fromTier toTier record data' source target →
        (objectPath target bucket key = path → data' = data) ∧
          (Deletes disk → objectPath source bucket key ≠ path) := by
  rcases transfer_cases tiers disk fs bucket key fromTier toTier record with
    ⟨e, fs', stopped, unmoved, kept, -⟩ | ⟨data', source, target, copied, moves, -, atTarget, beyond, outcome⟩
  · rw [stopped]
    exact iff_of_true (kept path data held) fun _ _ _ moves => absurd moves (unmoved _ _ _)
  have copiedOver : copied.entry path = some (.file data) ↔ (objectPath target bucket key = path → data' = data) := by
    by_cases same : objectPath target bucket key = path
    · rw [← same, atTarget]
      simp
    · simp [same, beyond path data (Ne.symm same) held]
  rw [moves.forall_iff, ← copiedOver]
  rcases outcome with ⟨stays, e, failed⟩ | ⟨deletes, fs', done, left⟩
  · simp [failed, stays]
  · rw [done, left]
    by_cases source_ : path = objectPath source bucket key
    · simp [source_, deletes]
    · simp [source_, Ne.symm source_]

/-- The store after a migration of a record has run its course. -/
def settled (tiers : Tiers) (disk : Disk) (env : Env) (s : ObjectStore) (bucket key : Bytes) (fromTier toTier : Int)
    (record : ObjectMetadata) : ObjectStore :=
  match transfer tiers disk s.fs bucket key fromTier toTier record with
  | (.error _, fs) => { s with fs }
  | (.ok (), fs) => ⟨fs, (putObject env s.metadata bucket key { record with storageTier := toTier }).2⟩

theorem settled_fs : (settled tiers disk env s bucket key fromTier toTier record).fs =
    (transfer tiers disk s.fs bucket key fromTier toTier record).2 := by
  unfold settled
  rcases transfer tiers disk s.fs bucket key fromTier toTier record with ⟨_ | ⟨⟩, -⟩ <;> rfl

theorem migrate_settled : (migrate tiers disk env s bucket key fromTier toTier).2 =
    match getObject s.metadata bucket key with
    | .error _ => s
    | .ok record => settled tiers disk env s bucket key fromTier toTier record := by
  rw [migrate_eq]
  rcases getObject s.metadata bucket key with e | record
  · rfl
  simp only [settled]
  rcases transfer tiers disk s.fs bucket key fromTier toTier record with ⟨e | ⟨⟩, fs⟩
  · rfl
  rcases putObject env s.metadata bucket key { record with storageTier := toTier } with ⟨e | ⟨⟩, metadata⟩ <;> rfl

/-- An object that is on record can be read after a migration, of whatever record,
if its data is where the new record says, or, failing that, where it was. -/
theorem settled_readable_iff {current : ObjectMetadata} {home : Path}
    (recorded : getObject s.metadata bucket key = .ok current) (root : tiers current.storageTier = some home)
    (held : s.fs.entry (objectPath home bucket key) = some (.file data)) :
    Readable tiers (settled tiers disk env s bucket key fromTier toTier record) bucket key data ↔
      ∀ data' source target, Moves tiers disk s.fs bucket key fromTier toTier record data' source target →
        (Deletes disk → ¬ Refused env s.metadata bucket key { record with storageTier := toTier } →
          data' = data ∧ objectPath source bucket key ≠ objectPath target bucket key) ∧
        ((Deletes disk → Refused env s.metadata bucket key { record with storageTier := toTier }) →
          (objectPath target bucket key = objectPath home bucket key → data' = data) ∧
            (Deletes disk → objectPath source bucket key ≠ objectPath home bucket key)) := by
  have spared : (transfer tiers disk s.fs bucket key fromTier toTier record).2.entry (objectPath home bucket key) =
      some (.file data) ↔ _ := transfer_spares_iff held
  unfold settled
  rcases transfer_cases tiers disk s.fs bucket key fromTier toTier record with
    ⟨e, fs', stopped, unmoved, kept, -⟩ | ⟨data', source, target, copied, moves, -, atTarget, beyond, outcome⟩
  · rw [stopped]
    rw [readable_iff _ recorded root]
    exact iff_of_true (kept _ data held) fun _ _ _ moves => absurd moves (unmoved _ _ _)
  · rw [moves.forall_iff] at spared ⊢
    rcases outcome with ⟨stays, e, failed⟩ | ⟨deletes, fs', done, left⟩
    · rw [failed] at spared ⊢
      simp only [readable_iff _ recorded root, spared, stays, false_imp_iff, true_and, true_imp_iff]
    rw [done] at spared ⊢
    by_cases refused : Refused env s.metadata bucket key { record with storageTier := toTier }
    · rcases putObject_spec env s.metadata bucket key { record with storageTier := toTier } with
        ⟨-, e, unchanged⟩ | ⟨granted, -⟩
      · simp only [unchanged, readable_iff _ recorded root, spared, refused, not_true_eq_false, false_imp_iff,
          imp_true_iff, true_and, true_imp_iff]
      · exact absurd refused granted
    · have accepted := getObject_putObject ((putObject_ok_iff ..).mpr refused)
      simp only [readable_iff _ accepted moves.toRoot, left, deletes, refused, not_false_eq_true, true_imp_iff,
        false_imp_iff, and_true]
      by_cases same : objectPath target bucket key = objectPath source bucket key
      · simp [same]
      · simp [same, Ne.symm same, atTarget]

end

/-- A migration keeps the object readable unless it strands it, wherever it
stops. -/
theorem migrate_readable_iff (tiers : Tiers) (disk : Disk) (env : Env) (s : ObjectStore)
    (bucket key data : Bytes) (record : ObjectMetadata) (fromTier toTier : Int)
    (recorded : getObject s.metadata bucket key = .ok record)
    (held : get tiers (Disk.sound []) s.fs bucket key record.storageTier = .ok ⟨data, some .eof⟩) :
    Readable tiers (migrate tiers disk env s bucket key fromTier toTier).2 bucket key data ↔
      ¬ ∃ source target, Strands tiers disk env s bucket key fromTier toTier record data source target := by
  obtain ⟨home, root, present⟩ := (get_eq_iff ..).mp held
  rw [migrate_settled, recorded]
  rw [settled_readable_iff recorded root present]
  constructor
  · rintro safe ⟨source, target, strands⟩
    obtain rfl : home = source := Option.some.inj (root.symm.trans (strands.inSource ▸ strands.fromRoot))
    obtain ⟨carried, spared⟩ := safe data home target ⟨strands.inSource, strands.fromRoot, strands.toRoot,
      strands.opened, strands.read, present, strands.copied⟩
    have deletes : Deletes disk := ⟨strands.closed, strands.deleted⟩
    by_cases refused : Refused env s.metadata bucket key { record with storageTier := toTier }
    · exact (spared fun _ => refused).2 deletes rfl
    · exact (carried deletes refused).2 (strands.stranded.resolve_right refused)
  · intro unstranded data' source target moves
    obtain rfl : home = source := Option.some.inj (root.symm.trans (moves.inSource ▸ moves.fromRoot))
    cases present.symm.trans moves.held
    have stranded (deletes : Deletes disk) : ¬ (objectPath home bucket key = objectPath target bucket key ∨
        Refused env s.metadata bucket key { record with storageTier := toTier }) := fun reason =>
      unstranded ⟨home, target, moves.inSource, moves.fromRoot, moves.toRoot, moves.opened, moves.read, moves.copied,
        deletes.closed, deletes.deleted, reason⟩
    refine ⟨fun deletes _ => ⟨rfl, fun same => stranded deletes (.inl same)⟩, fun failing => ⟨fun _ => rfl, ?_⟩⟩
    intro deletes
    exact absurd (.inr (failing deletes)) (stranded deletes)

namespace Sample

def tiers : Tiers
  | 0 => some [str "hot"]
  | 1 => some [str "warm"]
  | _ => none

def env : Env := ⟨str "v1", 7, none, none⟩

def record : ObjectMetadata where
  key := str "k"
  bucket := str "bkt"
  size := 4
  contentType := str "text/plain"
  etag := str "e1"
  checksum := []
  checksumType := []
  userMetadata := []
  storageTier := tierHot
  createdAt := 5
  modifiedAt := 5
  encrypted := false
  encryptedDEK := []
  versionID := str "v1"
  isLatest := true
  deleteMarker := false
  ssecUsed := false
  ssecKeySHA256 := []
  ssecAlgorithm := []
  retainUntil := none

/-- One object of four bytes, put into the hot tier of an empty store. -/
def stored : ObjectStore where
  fs := (put tiers (Disk.sound (str "1")) FileTree.empty (str "bkt") (str "k") ⟨str "data", some .eof⟩ 4 tierHot).2
  metadata := (putObject env ⟨Table.empty, Table.empty, Table.empty⟩ (str "bkt") (str "k") record).2

end Sample

open Sample

/-- A move from the hot tier to the hot tier reports success and the data is gone. -/
theorem move_within_tier_loses_data : Readable tiers stored (str "bkt") (str "k") (str "data") ∧
      (migrate tiers (Disk.sound (str "2")) env stored (str "bkt") (str "k") 0 0).1 = .ok () ∧
      readBack tiers (migrate tiers (Disk.sound (str "2")) env stored (str "bkt") (str "k") 0 0).2
        (str "bkt") (str "k") = .error (str "failed to get object: object not found") := by
  unfold Readable
  decide +kernel

theorem migrate_readable_iff_to_warm : Readable tiers
      (migrate tiers (Disk.sound (str "2")) env stored (str "bkt") (str "k") 0 1).2
      (str "bkt") (str "k") (str "data") := by
  have recorded : getObject stored.metadata (str "bkt") (str "k") = .ok
      (stamped env record).decoded := by decide +kernel
  refine (migrate_readable_iff _ _ _ _ _ _ _ _ _ _ recorded (by decide +kernel)).mpr ?_
  rintro ⟨_, _, strands⟩
  cases strands.fromRoot
  cases strands.toRoot
  rcases strands.stranded with same | unnamed | unnamed | wal | db | ⟨_, registered, -⟩
  · revert same
    decide +kernel
  · exact absurd unnamed (by decide)
  · exact absurd unnamed (by decide)
  · exact wal rfl
  · exact db rfl
  · cases registered

end CipherLake.Storage
