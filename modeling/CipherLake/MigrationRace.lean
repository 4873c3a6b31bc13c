import CipherLake.Gateway
import CipherLake.Lib.Waiting
import CipherLake.Migration

/-! A `PUT` and a migration of the same object at the same time. The lock of the
object covers the writing of the data and the whole of a migration, but not the
record that the `PUT` writes afterwards. A migration that starts from the old
record moves the new data away, or covers it with the old, and the record of
one names the tier of the other. -/
namespace CipherLake.MigrationRace
open Lib Lib.Program Metadata Storage

/-- The store, and whether the lock of the object is held. -/
structure Shared extends ObjectStore where
  locked : Bool

/-- The atomic operations. `TieredObjectStore.Put` and `Delete` hold the lock from
beginning to end and touch one file, so each of them is one operation; a
migration holds it over many. -/
inductive Op where
  | lockObject
  | unlockObject
  | getObject
  | backendGet (rootDir : Path)
  | backendPut (rootDir : Path) (data : Answer) (size : Int)
  | closeSource (rootDir : Path)
  | backendDelete (rootDir : Path)
  | putObject (env : Env) (m : ObjectMetadata)
  | storePut (data : Answer) (size tier : Int)
  | storeDelete (tier : Int)

abbrev Result : Op → Type
  | .lockObject => Unit
  | .unlockObject => Unit
  | .getObject => Except StoreErr ObjectMetadata
  | .backendGet _ => Except Bytes Answer
  | .putObject _ _ => Except StoreErr Unit
  | _ => Except Bytes Unit

/-- The object, and the failures the `PUT` and the migration meet. -/
structure Setting where
  tiers : Tiers
  (writer mover : Disk)
  (bucket key : Bytes)

section
variable (c : Setting)

def exec : (op : Op) → Shared → Result op × Shared
  | .lockObject, s => ((), { s with locked := true })
  | .unlockObject, s => ((), { s with locked := false })
  | .getObject, s => (getObject s.metadata c.bucket c.key, s)
  | .backendGet rootDir, s => (FileBackend.get c.mover s.fs rootDir (makePath c.bucket c.key), s)
  | .backendPut rootDir data size, s =>
    let (result, fs) := FileBackend.put c.mover s.fs rootDir (makePath c.bucket c.key) data size
    (result, { s with fs })
  | .closeSource rootDir, s =>
    match c.mover.sourceClose with
    | some e => (.error (pathError "close" (Path.join rootDir (makePath c.bucket c.key)) e), s)
    | none => (.ok (), s)
  | .backendDelete rootDir, s =>
    let (result, fs) := FileBackend.delete c.mover s.fs rootDir (makePath c.bucket c.key)
    (result, { s with fs })
  | .putObject env m, s =>
    let (result, metadata) := putObject env s.metadata c.bucket c.key m
    (result, { s with metadata })
  | .storePut data size tier, s =>
    let (result, fs) := put c.tiers c.writer s.fs c.bucket c.key data size tier
    (result, { s with fs })
  | .storeDelete tier, s =>
    let (result, fs) := delete c.tiers c.writer s.fs c.bucket c.key tier
    (result, { s with fs })

/-- Who needs the lock waits until it is free. -/
def ready : Op → Shared → Bool
  | .lockObject, s => !s.locked
  | .storePut _ _ _, s => !s.locked
  | .storeDelete _, s => !s.locked
  | _, _ => true

abbrev Task (α : Type) := Program Op Result α

def putObjectMetadataAfterStore (env : Env) (record : ObjectMetadata) : Task (Except Bytes Unit) := do
  let recorded : Except StoreErr Unit ← perform (Op.putObject env record)
  match recorded with
  | .error e =>
    let _ ← perform (Op.storeDelete tierHot)
    pure (.error (str "failed to store metadata: " ++ e.text))
  | .ok () => pure (.ok ())

/-- `putStoredObjectWithMetadata`. -/
def putStored (env : Env) (data : Answer) (size : Int) (record : ObjectMetadata) (storeErrMessage : String) :
    Task (Except Bytes Unit) := do
  let stored : Except Bytes Unit ← perform (Op.storePut data size tierHot)
  match stored with
  | .error e => pure (.error (str storeErrMessage ++ str ": " ++ e))
  | .ok () => putObjectMetadataAfterStore env record

/-- The copy and the deletion of the source. -/
def moveData (fromTier toTier : Int) (record : ObjectMetadata) : Task (Except Bytes Unit) :=
  if record.storageTier ≠ fromTier then pure (.error (str "object is not in source tier"))
  else
    match c.tiers fromTier, c.tiers toTier with
    | some source, some target => do
      let read : Except Bytes Answer ← perform (Op.backendGet source)
      match read with
      | .error e => pure (.error (str "failed to read from source: " ++ e))
      | .ok data =>
        let copied : Except Bytes Unit ← perform (Op.backendPut target data record.size)
        match copied with
        | .error e => pure (.error (str "failed to write to destination: " ++ e))
        | .ok () =>
          let closed : Except Bytes Unit ← perform (Op.closeSource source)
          match closed with
          | .error e => pure (.error (str "failed to close source after migration: " ++ e))
          | .ok () =>
            let deleted : Except Bytes Unit ← perform (Op.backendDelete source)
            match deleted with
            | .error e => pure (.error (str "failed to delete source after migration: " ++ e))
            | .ok () => pure (.ok ())
    | _, _ => pure (.error errTierNotAvailable)

def moveRecorded : Except StoreErr Unit → Except Bytes Unit
  | .error e => .error (str "failed to update metadata after migration: " ++ e.text)
  | .ok () => .ok ()

/-- The new tier is put on record. -/
def recordMove (env : Env) (toTier : Int) (record : ObjectMetadata) : Task (Except Bytes Unit) := do
  let recorded ← perform (Op.putObject env { record with storageTier := toTier })
  pure (moveRecorded recorded)

/-- What follows the look at the record. -/
def moveFound (env : Env) (fromTier toTier : Int) : Except StoreErr ObjectMetadata → Task (Except Bytes Unit)
  | .error _ => pure (.error errObjectNotFound)
  | .ok record => do
    let moved ← moveData c fromTier toTier record
    match moved with
    | .error e => pure (.error e)
    | .ok () => recordMove env toTier record

/-- The deferred unlocking. -/
def release (result : Except Bytes Unit) : Task (Except Bytes Unit) := do
  perform Op.unlockObject
  pure result

/-- `Migrate`. -/
def migrateTask (env : Env) (fromTier toTier : Int) : Task (Except Bytes Unit) := do
  perform Op.lockObject
  let found : Except StoreErr ObjectMetadata ← perform Op.getObject
  let result ← moveFound c env fromTier toTier found
  release result

end

/-! ### The programs on their own -/

section
variable {c : Setting} {env : Env} {fromTier toTier : Int} {record : ObjectMetadata} {s : Shared}

theorem run_moveData : run (exec c) (moveData c fromTier toTier record) s =
    ((transfer c.tiers c.mover s.fs c.bucket c.key fromTier toTier record).1,
      { s with fs := (transfer c.tiers c.mover s.fs c.bucket c.key fromTier toTier record).2 }) := by
  unfold moveData transfer
  split
  · rfl
  rcases c.tiers fromTier with - | source
  · rfl
  rcases c.tiers toTier with - | target
  · rfl
  simp only [run_bind, run_perform, exec]
  rcases FileBackend.get c.mover s.fs source (makePath c.bucket c.key) with e | data
  · rfl
  simp only [run_bind, run_perform, exec]
  rcases FileBackend.put c.mover s.fs target (makePath c.bucket c.key) data record.size with ⟨e | ⟨⟩, fs⟩
  · rfl
  simp only [run_bind, run_perform, exec]
  rcases c.mover.sourceClose with - | e
  · simp only [run_bind, run_perform, exec]
    rcases FileBackend.delete c.mover fs source (makePath c.bucket c.key) with ⟨e | ⟨⟩, fs⟩ <;> rfl
  · rfl

/-- The store that is left when a migration has gone on from a record. -/
def afterFound (c : Setting) (env : Env) (fromTier toTier : Int) (s : ObjectStore) :
    Except StoreErr ObjectMetadata → ObjectStore
  | .error _ => s
  | .ok record => settled c.tiers c.mover env s c.bucket c.key fromTier toTier record

theorem run_moveFound (found : Except StoreErr ObjectMetadata) :
    (run (exec c) (moveFound c env fromTier toTier found) s).2 =
      ⟨afterFound c env fromTier toTier s.toObjectStore found, s.locked⟩ := by
  cases found with
  | error e => rfl
  | ok record =>
    simp only [moveFound, afterFound, settled, run_bind, run_moveData]
    rcases transfer c.tiers c.mover s.fs c.bucket c.key fromTier toTier record with ⟨e | ⟨⟩, -⟩ <;> rfl

theorem migrate_afterFound (s : ObjectStore) : (migrate c.tiers c.mover env s c.bucket c.key fromTier toTier).2 =
      afterFound c env fromTier toTier s (getObject s.metadata c.bucket c.key) := by
  rw [migrate_settled]
  rcases getObject s.metadata c.bucket c.key with - | - <;> rfl

/-- On its own, the program is `migrate`. -/
theorem run_migrateTask : run (exec c) (migrateTask c env fromTier toTier) s =
    ((migrate c.tiers c.mover env s.toObjectStore c.bucket c.key fromTier toTier).1,
      ⟨(migrate c.tiers c.mover env s.toObjectStore c.bucket c.key fromTier toTier).2, false⟩) := by
  rw [migrate_eq]
  unfold migrateTask release
  simp only [run_bind, run_perform, run_pure, exec]
  rcases getObject s.metadata c.bucket c.key with e | record
  · rfl
  simp only [moveFound, run_bind, run_moveData]
  rcases transfer c.tiers c.mover s.fs c.bucket c.key fromTier toTier record with ⟨e | ⟨⟩, fs⟩
  · rfl
  simp only [recordMove, run_bind, run_perform, exec]
  rcases putObject env s.metadata c.bucket c.key { record with storageTier := toTier } with ⟨e | ⟨⟩, metadata⟩ <;> rfl

/-- On its own, the other program is the gateway's. -/
theorem run_putStored {κ : Type} (g : Gateway.Config) (call : Gateway.Call κ) (w : Gateway.World κ)
    (bucket key : Bytes) (plan : Gateway.Plan) (message : String) (mover : Disk) :
    run (exec ⟨g.tiers, call.disk, mover, bucket, key⟩)
        (putStored call.db plan.data plan.size plan.record message) ⟨⟨w.fs, w.metadata⟩, false⟩ =
      let out := Gateway.putStoredObjectWithMetadata g call w bucket key plan message
      (out.1, ⟨⟨out.2.fs, out.2.metadata⟩, false⟩) := by
  unfold putStored Gateway.putStoredObjectWithMetadata
  simp only [run_bind, run_perform, exec]
  rcases put g.tiers call.disk w.fs bucket key plan.data plan.size tierHot with ⟨e | ⟨⟩, -⟩
  · rfl
  simp only [putObjectMetadataAfterStore, Gateway.putObjectMetadataAfterStore, run_bind, run_perform, exec]
  rcases putObject call.db w.metadata bucket key plan.record with ⟨e | ⟨⟩, -⟩ <;> rfl

end

/-! ### The record of the `PUT` amid a migration -/

/-- The `PUT` writes its record, if it is accepted. -/
def recordStep (c : Setting) (env : Env) (m : ObjectMetadata) (s : Shared) : Option Shared :=
  match putObject env s.metadata c.bucket c.key m with
  | (.error _, _) => none
  | (.ok (), metadata) => some { s with metadata }

/-- Operations that neither read nor write a record. -/
def Aside : Op → Prop
  | .getObject => False
  | .putObject _ _ => False
  | _ => True

/-- Operations on the data files. -/
def OnData : Op → Prop
  | .backendGet _ => True
  | .backendPut _ _ _ => True
  | .closeSource _ => True
  | .backendDelete _ => True
  | _ => False

variable {op : Op}

theorem OnData.aside (data : OnData op) : Aside op := by
  cases op with
  | getObject => exact data
  | putObject env m => exact data
  | _ => trivial

section
variable {c : Setting} {env env' : Env} {fromTier toTier : Int} {record m : ObjectMetadata} {s : Shared}

theorem recordStep_eq_some {s' : Shared} : recordStep c env m s = some s' ↔
    ∃ metadata, putObject env s.metadata c.bucket c.key m = (.ok (), metadata) ∧ s' = { s with metadata } := by
  unfold recordStep
  rcases putObject env s.metadata c.bucket c.key m with ⟨_ | ⟨⟩, metadata⟩
  · simp
  · simp [eq_comm]

theorem indifferent_aside (op : Op) (aside : Aside op) : Indifferent (exec c) (recordStep c env m) op := by
  intro s
  unfold recordStep
  cases op with
  | getObject => exact aside.elim
  | putObject env m => exact aside.elim
  | closeSource rootDir =>
    simp only [exec]
    cases c.mover.sourceClose with
    | none => rcases putObject env s.metadata c.bucket c.key m with ⟨e | ⟨⟩, metadata⟩ <;> simp
    | some e => rcases putObject env s.metadata c.bucket c.key m with ⟨e | ⟨⟩, metadata⟩ <;> simp
  | _ =>
    simp only [exec]
    rcases putObject env s.metadata c.bucket c.key m with ⟨e | ⟨⟩, metadata⟩ <;> simp

theorem only_moveData : Only OnData (moveData c fromTier toTier record) := by
  unfold moveData
  split
  · trivial
  split
  swap
  · trivial
  · refine only_bind (only_perform trivial) fun read => ?_
    split
    · trivial
    refine only_bind (only_perform trivial) fun copied => ?_
    split
    · trivial
    refine only_bind (only_perform trivial) fun closed => ?_
    split
    · trivial
    · refine only_bind (only_perform trivial) fun deleted => ?_
      split <;> trivial

variable {out : Except Bytes Unit × Shared} {t : Shared} {turns : List Turn}

/-- The record of the `PUT` comes before the record of the migration or after it. -/
theorem amid_recordMove (amid : Amid (exec c) (recordStep c env m) (recordMove env' toTier record) s out) :
    (∃ s', recordStep c env m s = some s' ∧ out.2 = (run (exec c) (recordMove env' toTier record) s').2) ∨
      recordStep c env m (run (exec c) (recordMove env' toTier record) s).2 = some out.2 := by
  rcases amid.of_bind with ⟨_, inside, rfl⟩ | after
  · cases inside with
    | now steps => exact .inl ⟨_, steps, rfl⟩
    | later rest =>
      cases rest with
      | now steps => exact .inr steps
  · cases after with
    | now steps => exact .inr steps

/-- The record of the `PUT` may as well come before the data part. -/
theorem recordStep_moveData
    (steps : recordStep c env m (run (exec c) (moveData c fromTier toTier record) s).2 = some t) :
    ∃ s', recordStep c env m s = some s' ∧ run (exec c) (moveData c fromTier toTier record) s' =
      ((run (exec c) (moveData c fromTier toTier record) s).1, t) := by
  rw [run_moveData] at steps
  obtain ⟨metadata, recorded, rfl⟩ := recordStep_eq_some.mp steps
  refine ⟨{ s with metadata }, recordStep_eq_some.mpr ⟨metadata, recorded, rfl⟩, ?_⟩
  rw [run_moveData, run_moveData]

/-- The record of the `PUT` comes before all of the migration that follows the look
at the old record, or after it. -/
theorem amid_moveFound {found : Except StoreErr ObjectMetadata}
    (amid : Amid (exec c) (recordStep c env m) (moveFound c env' fromTier toTier found) s out) :
    (∃ s', recordStep c env m s = some s' ∧ out.2 = (run (exec c) (moveFound c env' fromTier toTier found) s').2) ∨
      recordStep c env m (run (exec c) (moveFound c env' fromTier toTier found) s).2 = some out.2 := by
  cases found with
  | error e =>
    cases amid with
    | now steps => exact .inr steps
  | ok record =>
    unfold moveFound at amid ⊢
    simp only [run_bind]
    rcases amid.of_bind with ⟨_, inside, rfl⟩ | after
    · obtain ⟨same, steps⟩ := inside.of_only (only_moveData.mono fun _ => OnData.aside) indifferent_aside
      obtain ⟨s', before, moved⟩ := recordStep_moveData steps
      refine .inl ⟨s', before, ?_⟩
      rw [moved, same]
    · rcases moved : (run (exec c) (moveData c fromTier toTier record) s).1 with e | ⟨⟩
      · rw [moved] at after
        cases after with
        | now steps => exact .inr steps
      rw [moved] at after
      rcases amid_recordMove after with ⟨_, steps, last⟩ | steps
      · obtain ⟨s', before, same⟩ := recordStep_moveData steps
        refine .inl ⟨s', before, ?_⟩
        rw [same, moved]
        exact last
      · exact .inr steps

/-- Amid a migration, the record of the `PUT` is written before the old record is
looked at, or before the new tier is put on record, or at the end. -/
theorem amid_migrateTask (amid : Amid (exec c) (recordStep c env m) (migrateTask c env' fromTier toTier) s out) :
    (∃ metadata, putObject env s.metadata c.bucket c.key m = (.ok (), metadata) ∧
        (out.2.toObjectStore = (migrate c.tiers c.mover env' ⟨s.fs, metadata⟩ c.bucket c.key fromTier toTier).2 ∨
          out.2.toObjectStore =
            afterFound c env' fromTier toTier ⟨s.fs, metadata⟩ (getObject s.metadata c.bucket c.key))) ∨
      ∃ metadata, putObject env (migrate c.tiers c.mover env' s.toObjectStore c.bucket c.key fromTier toTier).2.metadata
          c.bucket c.key m = (.ok (), metadata) ∧
        out.2.toObjectStore =
          ⟨(migrate c.tiers c.mover env' s.toObjectStore c.bucket c.key fromTier toTier).2.fs, metadata⟩ := by
  have whole (t : Shared) : ((run (exec c) (migrateTask c env' fromTier toTier) t).2).toObjectStore =
      (migrate c.tiers c.mover env' t.toObjectStore c.bucket c.key fromTier toTier).2 := by
    rw [run_migrateTask]
  rcases amid.of_bind with ⟨middle, inside, rfl⟩ | amid
  · obtain ⟨-, steps⟩ := inside.of_only (only_perform (by trivial)) indifferent_aside
    obtain ⟨metadata, recorded, after⟩ := recordStep_eq_some.mp steps
    refine .inl ⟨metadata, recorded, .inl ?_⟩
    rw [after]
    exact whole { s with metadata }
  rcases amid.of_bind with ⟨middle, inside, rfl⟩ | amid
  · cases inside with
    | now steps =>
      obtain ⟨metadata, recorded, rfl⟩ := recordStep_eq_some.mp steps
      exact .inl ⟨metadata, recorded, .inl (whole { s with metadata })⟩
    | later rest =>
      cases rest with
      | now steps =>
        obtain ⟨metadata, recorded, rfl⟩ := recordStep_eq_some.mp steps
        refine .inl ⟨metadata, recorded, .inr ?_⟩
        simp only [release, run_bind, run_perform, run_pure, run, exec, run_moveFound]
  rw [migrate_afterFound]
  rcases amid.of_bind with ⟨middle, inside, rfl⟩ | amid
  · simp only [release, run_bind, run_perform, run_pure, exec] at inside ⊢
    rcases amid_moveFound inside with ⟨_, steps, last⟩ | steps
    · obtain ⟨metadata, recorded, rfl⟩ := recordStep_eq_some.mp steps
      refine .inl ⟨metadata, recorded, .inr ?_⟩
      rw [last, run_moveFound]
    · rw [run_moveFound] at steps
      obtain ⟨metadata, recorded, last⟩ := recordStep_eq_some.mp steps
      refine .inr ⟨metadata, recorded, ?_⟩
      rw [last]
  · have only (result : Except Bytes Unit) : Only Aside (release result) :=
      only_bind (only_perform (by trivial)) fun _ => only_pure _
    obtain ⟨-, steps⟩ := amid.of_only (only _) indifferent_aside
    simp only [release, run_bind, run_perform, run_pure, exec, run_moveFound] at steps
    obtain ⟨metadata, recorded, last⟩ := recordStep_eq_some.mp steps
    refine .inr ⟨metadata, recorded, ?_⟩
    rw [last]

/-! ### Interleavings -/

/-- Operations that neither take the lock nor wait for it nor free it. -/
def Inner : Op → Prop
  | .lockObject => False
  | .unlockObject => False
  | .storePut _ _ _ => False
  | .storeDelete _ => False
  | _ => True

theorem OnData.inner (data : OnData op) : Inner op := by
  cases op with
  | lockObject => exact data
  | unlockObject => exact data
  | storePut data' size tier => exact data
  | storeDelete tier => exact data
  | _ => trivial

theorem Inner.ready (inner : Inner op) (s : Shared) : ready op s = true := by
  cases op with
  | lockObject => exact inner.elim
  | storePut data size tier => exact inner.elim
  | storeDelete tier => exact inner.elim
  | _ => rfl

theorem only_moveFound (found : Except StoreErr ObjectMetadata) :
    Only Inner (moveFound c env' fromTier toTier found) := by
  cases found with
  | error e => trivial
  | ok record =>
    refine only_bind (only_moveData.mono fun _ => OnData.inner) fun moved => ?_
    split
    · trivial
    · exact only_bind (only_perform (by trivial)) fun _ => only_pure _

/-- A migration with the lock. -/
def lockedPart (c : Setting) (env : Env) (fromTier toTier : Int) : Task (Except Bytes Unit) := do
  let found : Except StoreErr ObjectMetadata ← perform Op.getObject
  let result ← moveFound c env fromTier toTier found
  release result

theorem critical_lockedPart : Critical (· = Op.unlockObject) (lockedPart c env' fromTier toTier) := by
  refine critical_bind (only_perform nofun) fun found => critical_bind ?_ fun result => ?_
  · apply (only_moveFound found).mono
    rintro _ inner rfl
    exact inner
  · exact .inl ⟨rfl, fun _ => trivial⟩

theorem exec_keeps_locked (op : Op) (s : Shared) (stays : ¬ op = Op.unlockObject) (locked : s.locked = true) :
    (exec c op s).2.locked = true := by
  cases op with
  | unlockObject => exact absurd rfl stays
  | lockObject => rfl
  | closeSource rootDir =>
    simp only [exec]
    cases c.mover.sourceClose with
    | none => exact locked
    | some e => exact locked
  | _ => exact locked

variable {data : Answer} {size : Int} {message : String}

theorem run_putStored_ok (ran : run (exec c) (putStored env data size m message) s = (.ok (), t)) :
    ∃ fs metadata, put c.tiers c.writer s.fs c.bucket c.key data size tierHot = (.ok (), fs) ∧
      putObject env s.metadata c.bucket c.key m = (.ok (), metadata) ∧ t = { s with fs, metadata } := by
  unfold putStored at ran
  simp only [run_bind, run_perform, exec] at ran
  rcases stored : put c.tiers c.writer s.fs c.bucket c.key data size tierHot with ⟨e | ⟨⟩, fs⟩
  · rw [stored] at ran
    cases ran
  rw [stored] at ran
  simp only [putObjectMetadataAfterStore, run_bind, run_perform, exec] at ran
  rcases recorded : putObject env s.metadata c.bucket c.key m with ⟨e | ⟨⟩, metadata⟩
  · rw [recorded] at ran
    cases ran
  · rw [recorded] at ran
    exact ⟨fs, metadata, rfl, rfl, (Prod.mk.inj ran).2.symm⟩

abbrev Both := Pair Op Result (Except Bytes Unit) (Except Bytes Unit) Shared

variable {r : Both}

/-- Once the data is stored, the record is written amid the other program. -/
theorem recorded_amid (left : r.first = putObjectMetadataAfterStore env m)
    (putDone : (readyInterleave (exec c) ready turns r).first = done (.ok ()))
    (otherDone : IsDone (readyInterleave (exec c) ready turns r).second) :
    ∃ out, Amid (exec c) (recordStep c env m) r.second r.state out ∧
      (readyInterleave (exec c) ready turns r).state = out.2 := by
  obtain ⟨_, s', r', later, makes, first, state, final⟩ :=
    acts_amid left (fun _ => rfl) (by rw [putDone]; trivial : IsDone (readyInterleave (exec c) ready turns r).first)
  rw [final] at putDone otherDone ⊢
  simp only [exec] at first state
  rcases recorded : putObject env s'.metadata c.bucket c.key m with ⟨_ | ⟨⟩, metadata⟩
  · rw [recorded] at first
    have fails : Yields (fun result => result ≠ .ok ()) r'.first := by
      rw [first]
      exact fun _ => nofun
    have yields := readyInterleave_yields (exec c) ready fails later
    rw [putDone] at yields
    exact absurd rfl yields
  · rw [recorded] at first state
    obtain ⟨-, ran⟩ := readyInterleave_first_done (exec c) ready first later
    refine ⟨_, makes.amid (recordStep_eq_some.mpr ⟨metadata, recorded, state⟩), ?_⟩
    rw [← ran]
    cases ended : (readyInterleave (exec c) ready later r').second with
    | done result => rfl
    | call op next =>
      rw [ended] at otherDone
      exact otherDone.elim

/-- A `PUT` that finds the lock taken comes after the migration. -/
theorem stored_after (left : r.first = putStored env data size m message)
    (critical : Critical (· = Op.unlockObject) r.second) (locked : r.state.locked = true)
    (leaves : (run (exec c) r.second r.state).2 = t)
    (putDone : (readyInterleave (exec c) ready turns r).first = done (.ok ())) :
    run (exec c) (putStored env data size m message) t = (.ok (), (readyInterleave (exec c) ready turns r).state) := by
  have waits (s : Shared) (held : s.locked = true) : ready (.storePut data size tierHot) s = false := by
    simp [ready, held]
  obtain ⟨r', later, first, ended, ran, final⟩ := waits_for_critical left waits exec_keeps_locked critical locked
    (by rw [putDone]; trivial : IsDone (readyInterleave (exec c) ready turns r).first)
  rw [final] at putDone ⊢
  cases second : r'.second with
  | call op next =>
    rw [second] at ended
    exact ended.elim
  | done result =>
    obtain ⟨-, alone⟩ := readyInterleave_second_done (exec c) ready second later
    rw [second] at ran
    have reached : r'.state = t := (congrArg Prod.snd ran).trans leaves
    rw [first, reached, putDone] at alone
    exact alone.symm

/-- However the two interleave, either the migration is over before the `PUT`
begins, or the data is stored first and the record is written amid the migration. -/
theorem interleave_cases {s : ObjectStore} (interleaved : readyInterleave (exec c) ready turns
      (start (putStored env data size m message) (migrateTask c env' fromTier toTier) ⟨s, false⟩) = r)
    (putDone : r.first = done (.ok ())) (moveDone : IsDone r.second) :
    (∃ fs metadata, put c.tiers c.writer (migrate c.tiers c.mover env' s c.bucket c.key fromTier toTier).2.fs c.bucket
          c.key data size tierHot = (.ok (), fs) ∧
        putObject env (migrate c.tiers c.mover env' s c.bucket c.key fromTier toTier).2.metadata c.bucket c.key m =
          (.ok (), metadata) ∧ r.state.toObjectStore = ⟨fs, metadata⟩) ∨
      ∃ fs out, put c.tiers c.writer s.fs c.bucket c.key data size tierHot = (.ok (), fs) ∧
        Amid (exec c) (recordStep c env m) (migrateTask c env' fromTier toTier) ⟨⟨fs, s.metadata⟩, false⟩ out ∧
        r.state = out.2 := by
  subst interleaved
  cases turns with
  | nil => cases putDone
  | cons who later =>
    rw [readyInterleave_cons] at putDone moveDone ⊢
    cases who with
    | first =>
      generalize moved : readyTurn (exec c) ready .first
        (start (putStored env data size m message) (migrateTask c env' fromTier toTier) ⟨s, false⟩) = r at *
      have first : r.first = match (put c.tiers c.writer s.fs c.bucket c.key data size tierHot).1 with
          | .error e => pure (.error (str message ++ str ": " ++ e))
          | .ok () => putObjectMetadataAfterStore env m := by
        subst moved
        rfl
      have second : r.second = migrateTask c env' fromTier toTier := by
        subst moved
        rfl
      have state : r.state = ⟨⟨(put c.tiers c.writer s.fs c.bucket c.key data size tierHot).2, s.metadata⟩, false⟩ := by
        subst moved
        rfl
      rcases stored : put c.tiers c.writer s.fs c.bucket c.key data size tierHot with ⟨e | ⟨⟩, fs⟩
      · rw [stored] at first
        rw [(readyInterleave_first_done (exec c) ready first later).1] at putDone
        cases putDone
      · rw [stored] at first state
        obtain ⟨out, amid, final⟩ := recorded_amid first putDone moveDone
        rw [second, state] at amid
        exact .inr ⟨fs, out, rfl, amid, final⟩
    | second =>
      have ran := stored_after (t := ⟨(migrate c.tiers c.mover env' s c.bucket c.key fromTier toTier).2, false⟩)
        rfl critical_lockedPart rfl (congrArg Prod.snd run_migrateTask) putDone
      obtain ⟨fs, metadata, stored, recorded, final⟩ := run_putStored_ok ran
      refine .inl ⟨fs, metadata, stored, recorded, ?_⟩
      rw [final]

/-! ### Every order is possible -/

/-- The two finish in this interleaving, the `PUT` with success. -/
structure Finishes (c : Setting) (put move : Task (Except Bytes Unit)) (s : ObjectStore) (turns : List Turn)
    (t : ObjectStore) : Prop where
  stored : (readyInterleave (exec c) ready turns (start put move ⟨s, false⟩)).first = done (.ok ())
  moved : IsDone (readyInterleave (exec c) ready turns (start put move ⟨s, false⟩)).second
  left : (readyInterleave (exec c) ready turns (start put move ⟨s, false⟩)).state.toObjectStore = t

theorem finishes_of_results {put move : Task (Except Bytes Unit)} {s : ObjectStore}
    (interleaved : readyInterleave (exec c) ready turns (start put move ⟨s, false⟩) = r) {moved : Except Bytes Unit}
    (results : (r.first.result, r.second.result) = (some (.ok ()), some moved)) :
    Finishes c put move s turns r.state.toObjectStore := by
  obtain ⟨first, second⟩ := Prod.mk.inj results
  subst interleaved
  refine ⟨result_eq_some.mp first, ?_, rfl⟩
  rw [result_eq_some.mp second]
  trivial

theorem only_lockedPart : Only (fun op => ∀ s, ready op s = true) (lockedPart c env' fromTier toTier) := by
  refine only_bind (only_perform fun _ => rfl) fun found => only_bind ?_ fun result => ?_
  · exact (only_moveFound found).mono fun _ => Inner.ready
  · exact only_bind (only_perform fun _ => rfl) fun _ => only_pure _

variable {fs : FileTree} {metadata : Store} {s : ObjectStore}

theorem run_lockedPart : (run (exec c) (lockedPart c env' fromTier toTier) ⟨⟨fs, metadata⟩, true⟩).2 =
    ⟨(migrate c.tiers c.mover env' ⟨fs, metadata⟩ c.bucket c.key fromTier toTier).2, false⟩ :=
  congrArg Prod.snd (run_migrateTask (s := ⟨⟨fs, metadata⟩, false⟩))

section
variable (stored : put c.tiers c.writer s.fs c.bucket c.key data size tierHot = (.ok (), fs))

include stored

/-- The data is stored, the migration takes the lock, and the record is written
somewhere amid the rest of it. -/
theorem finishes_amid {out : Except Bytes Unit × Shared}
    (amid : Amid (exec c) (recordStep c env m) (lockedPart c env' fromTier toTier) ⟨⟨fs, s.metadata⟩, true⟩ out) :
    ∃ turns, Finishes c (putStored env data size m message) (migrateTask c env' fromTier toTier) s turns
      out.2.toObjectStore := by
  let begun := readyInterleave (exec c) ready [.first, .second]
    (start (putStored env data size m message) (migrateTask c env' fromTier toTier) ⟨s, false⟩)
  have first : begun.first = match (put c.tiers c.writer s.fs c.bucket c.key data size tierHot).1 with
    | .error e => pure (.error (str message ++ str ": " ++ e))
    | .ok () => putObjectMetadataAfterStore env m := rfl
  have state : begun.state = ⟨⟨(put c.tiers c.writer s.fs c.bucket c.key data size tierHot).2, s.metadata⟩, true⟩ := rfl
  rw [stored] at first state
  have makes (s s' : Shared) (steps : recordStep c env m s = some s') :
      exec c (.putObject env m) s = (.ok (), s') := by
    obtain ⟨_, recorded, rfl⟩ := recordStep_eq_some.mp steps
    simp only [exec, recorded]
  obtain ⟨turns, ended, moved, reached⟩ := exists_amid (exec c) ready first (fun _ => rfl)
    (fun s s' steps => by rw [makes s s' steps]; exact ⟨rfl, rfl⟩) only_lockedPart
    (by rw [state]; exact amid)
  rw [← readyInterleave_append] at ended moved reached
  refine ⟨_, ended, ?_, ?_⟩
  · rw [moved]
    trivial
  · rw [reached]

end

/-! ### What is left -/

/-- A record that replaces another of the same size is not counted. -/
theorem counted_same {info : BucketInfo} {old new kept record : ObjectMetadata} (same : new.size = old.size)
    (sameKept : kept.size = old.size) :
    counted (counted info (some old) new) (some kept) record = counted info (some old) record := by
  simp only [counted, Option.isNone_some, Bool.false_eq_true, if_false, Option.map_some, Option.getD_some, same,
    sameKept, Int.sub_self]
  congr 1
  simp only [int64, Int.zero_bmod, Int.add_zero, Int.bmod_add_bmod]

/-- The `PUT`'s record is accepted after the migration if it is before. -/
theorem refused_recounted {record : ObjectMetadata} {metadata : Store}
    (found : getObject s.metadata c.bucket c.key = .ok record)
    (moved : putObject env' s.metadata c.bucket c.key { record with storageTier := toTier } = (.ok (), metadata)) :
    Refused env metadata c.bucket c.key m ↔ Refused env s.metadata c.bucket c.key m := by
  have old : s.metadata.objects.get (objectKey c.bucket c.key) = some record := by
    unfold getObject at found
    split at found
    · cases found
    · next held => rw [held, Except.ok.inj found]
  rcases putObject_spec env' s.metadata c.bucket c.key { record with storageTier := toTier } with
    ⟨-, _, failed⟩ | ⟨-, done_⟩
  · rw [failed] at moved
    cases moved
  rw [done_] at moved
  obtain rfl := (Prod.mk.inj moved).2
  unfold Refused countedBuckets
  simp only [Table.get_put_same, old]
  cases registered : s.metadata.buckets.get c.bucket with
  | none => simp [registered]
  | some info =>
    simp only [Table.get_put_same, Option.some.injEq, exists_eq_left']
    rw [counted_same]
    · rfl
    · rfl

/-- The migration does not disturb the data of the `PUT`, once it is stored. From the
old record it copies nothing over it but the same bytes, does not remove it, and
what it puts on record afterwards, if it does, are the same bytes in another place.
From the new record it does not strand the object. -/
structure Undisturbed (c : Setting) (env : Env) (fromTier toTier : Int) (before : Store) (fs : FileTree)
    (metadata : Store) (home : Path) (bytes : Bytes) (new : ObjectMetadata) : Prop where
  fromOld : ∀ old data source target, getObject before c.bucket c.key = .ok old →
    Moves c.tiers c.mover fs c.bucket c.key fromTier toTier old data source target →
    (objectPath target c.bucket c.key = objectPath home c.bucket c.key → data = bytes) ∧
      (Deletes c.mover → objectPath source c.bucket c.key ≠ objectPath home c.bucket c.key ∧
        (Refused env metadata c.bucket c.key { old with storageTier := toTier } ∨
          data = bytes ∧ objectPath source c.bucket c.key ≠ objectPath target c.bucket c.key))
  fromNew : ∀ data source target, Moves c.tiers c.mover fs c.bucket c.key fromTier toTier new data source target →
    Deletes c.mover → objectPath source c.bucket c.key ≠ objectPath target c.bucket c.key ∧
      ¬ Refused env metadata c.bucket c.key { new with storageTier := toTier }

/-- A record that is written with success, and a file, make an object readable. -/
theorem readable_recorded {home : Path} {bytes : Bytes} {before : Store} (hot : m.storageTier = tierHot)
    (root : c.tiers tierHot = some home) (recorded : putObject env before c.bucket c.key m = (.ok (), metadata)) :
    Readable c.tiers ⟨fs, metadata⟩ c.bucket c.key bytes ↔
      fs.entry (objectPath home c.bucket c.key) = some (.file bytes) := by
  have found := getObject_putObject (congrArg Prod.fst recorded)
  rw [recorded] at found
  exact readable_iff fs found ((congrArg c.tiers hot).trans root)

section
variable {home : Path} (hot : m.storageTier = tierHot)
  (stored : put c.tiers c.writer s.fs c.bucket c.key data size tierHot = (.ok (), fs))
  (root : c.tiers tierHot = some home)

include stored root in
theorem stored_home : fs.entry (objectPath home c.bucket c.key) = some (.file data.bytes) := by
  obtain ⟨_, _, root', -, -, entries⟩ := put_ok stored
  cases root.symm.trans root'
  rw [entries, if_pos rfl]

include hot stored root

theorem readable_before_iff (recorded : putObject env s.metadata c.bucket c.key m = (.ok (), metadata)) :
    Readable c.tiers (migrate c.tiers c.mover env' ⟨fs, metadata⟩ c.bucket c.key fromTier toTier).2 c.bucket c.key
        data.bytes ↔
      ∀ bytes source target,
        Moves c.tiers c.mover fs c.bucket c.key fromTier toTier (stamped env m).decoded bytes source target →
        Deletes c.mover → objectPath source c.bucket c.key ≠ objectPath target c.bucket c.key ∧
          ¬ Refused env' metadata c.bucket c.key { (stamped env m).decoded with storageTier := toTier } := by
  have found := getObject_putObject (congrArg Prod.fst recorded)
  rw [recorded] at found
  have newRoot : c.tiers (stamped env m).decoded.storageTier = some home := (congrArg c.tiers hot).trans root
  have held := stored_home stored root
  rw [migrate_afterFound, found, afterFound, settled_readable_iff found newRoot held]
  refine forall_congr' fun bytes => forall_congr' fun source => forall_congr' fun target => forall_congr' fun moves => ?_
  obtain rfl : source = home := by
    have fromRoot := moves.fromRoot
    rw [← moves.inSource, newRoot] at fromRoot
    exact (Option.some.inj fromRoot).symm
  cases held.symm.trans moves.held
  tauto

theorem readable_between_iff (recorded : putObject env s.metadata c.bucket c.key m = (.ok (), metadata)) :
    Readable c.tiers (afterFound c env' fromTier toTier ⟨fs, metadata⟩ (getObject s.metadata c.bucket c.key)) c.bucket
        c.key data.bytes ↔
      ∀ old bytes source target, getObject s.metadata c.bucket c.key = .ok old →
        Moves c.tiers c.mover fs c.bucket c.key fromTier toTier old bytes source target →
        (Deletes c.mover → ¬ Refused env' metadata c.bucket c.key { old with storageTier := toTier } →
          bytes = data.bytes ∧ objectPath source c.bucket c.key ≠ objectPath target c.bucket c.key) ∧
        ((Deletes c.mover → Refused env' metadata c.bucket c.key { old with storageTier := toTier }) →
          (objectPath target c.bucket c.key = objectPath home c.bucket c.key → bytes = data.bytes) ∧
            (Deletes c.mover → objectPath source c.bucket c.key ≠ objectPath home c.bucket c.key)) := by
  have held := stored_home stored root
  cases looked : getObject s.metadata c.bucket c.key with
  | error e => exact iff_of_true ((readable_recorded hot root recorded).mpr held) nofun
  | ok old =>
    have found := getObject_putObject (congrArg Prod.fst recorded)
    rw [recorded] at found
    have newRoot : c.tiers (stamped env m).decoded.storageTier = some home := (congrArg c.tiers hot).trans root
    rw [afterFound, settled_readable_iff found newRoot held]
    constructor
    · rintro spared _ bytes source target ⟨⟩ moves
      exact spared bytes source target moves
    · intro spared bytes source target moves
      exact spared old bytes source target rfl moves

theorem readable_after_iff {metadata' : Store} (recorded : putObject env metadata' c.bucket c.key m = (.ok (), metadata)) :
    Readable c.tiers ⟨(migrate c.tiers c.mover env' ⟨fs, s.metadata⟩ c.bucket c.key fromTier toTier).2.fs, metadata⟩
        c.bucket c.key data.bytes ↔
      ∀ old bytes source target, getObject s.metadata c.bucket c.key = .ok old →
        Moves c.tiers c.mover fs c.bucket c.key fromTier toTier old bytes source target →
        (objectPath target c.bucket c.key = objectPath home c.bucket c.key → bytes = data.bytes) ∧
          (Deletes c.mover → objectPath source c.bucket c.key ≠ objectPath home c.bucket c.key) := by
  have held := stored_home stored root
  rw [readable_recorded hot root recorded, migrate_afterFound]
  cases looked : getObject s.metadata c.bucket c.key with
  | error e => exact iff_of_true held nofun
  | ok old =>
    rw [afterFound, settled_fs, transfer_spares_iff held]
    constructor
    · rintro spared _ bytes source target ⟨⟩ moves
      exact spared bytes source target moves
    · intro spared bytes source target moves
      exact spared old bytes source target rfl moves

end

/-- The record of the `PUT` is accepted after the migration exactly if it is before. -/
theorem accepted_after (env' : Env) (fs : FileTree) (fromTier toTier : Int) :
    (∃ metadata, putObject env s.metadata c.bucket c.key m = (.ok (), metadata)) ↔
    ∃ metadata, putObject env (migrate c.tiers c.mover env' ⟨fs, s.metadata⟩ c.bucket c.key fromTier toTier).2.metadata
      c.bucket c.key m = (.ok (), metadata) := by
  have granted (metadata : Store) : (∃ metadata', putObject env metadata c.bucket c.key m = (.ok (), metadata')) ↔
      ¬ Refused env metadata c.bucket c.key m := by
    rw [← putObject_ok_iff]
    constructor
    · rintro ⟨metadata', recorded⟩
      exact congrArg Prod.fst recorded
    · intro ok
      exact ⟨_, Prod.ext_iff.mpr ⟨ok, rfl⟩⟩
  rw [granted, granted, migrate_afterFound]
  cases looked : getObject s.metadata c.bucket c.key with
  | error e => rfl
  | ok old =>
    rw [afterFound, settled]
    rcases transfer c.tiers c.mover fs c.bucket c.key fromTier toTier old with ⟨e | ⟨⟩, fs'⟩
    · rfl
    rcases moved : putObject env' s.metadata c.bucket c.key { old with storageTier := toTier } with ⟨e | ⟨⟩, metadata⟩
    · have same := putObject_error (congrArg Prod.fst moved)
      rw [moved] at same
      obtain rfl : metadata = s.metadata := same
      rfl
    · exact not_congr (refused_recounted looked moved).symm

end

/-- However a `PUT` and a migration of one object interleave, the object reads as the
bytes of the `PUT` afterwards, exactly if the migration does not disturb the data
that is stored before the record. -/
theorem interleavings_readable_iff (c : Setting) (env env' : Env) (s : ObjectStore) (data : Answer) (size : Int)
    (m : ObjectMetadata) (message : String) (fromTier toTier : Int) (hot : m.storageTier = tierHot) :
    (∀ turns t, Finishes c (putStored env data size m message) (migrateTask c env' fromTier toTier) s turns t →
        Readable c.tiers t c.bucket c.key data.bytes) ↔
      ∀ fs metadata home, put c.tiers c.writer s.fs c.bucket c.key data size tierHot = (.ok (), fs) →
        putObject env s.metadata c.bucket c.key m = (.ok (), metadata) → c.tiers tierHot = some home →
        Undisturbed c env' fromTier toTier s.metadata fs metadata home data.bytes (stamped env m).decoded := by
  constructor
  · intro readable fs metadata home stored recorded root
    have steps : recordStep c env m ⟨⟨fs, s.metadata⟩, true⟩ = some ⟨⟨fs, metadata⟩, true⟩ :=
      recordStep_eq_some.mpr ⟨metadata, recorded, rfl⟩
    obtain ⟨metadata', recorded'⟩ := (accepted_after env' fs fromTier toTier).mp ⟨metadata, recorded⟩
    have through {out : Except Bytes Unit × Shared} (amid : Amid (exec c) (recordStep c env m)
        (lockedPart c env' fromTier toTier) ⟨⟨fs, s.metadata⟩, true⟩ out) :
        Readable c.tiers out.2.toObjectStore c.bucket c.key data.bytes := by
      obtain ⟨turns, finishes⟩ := finishes_amid stored amid
      exact readable turns _ finishes
    have before := through (.now steps)
    have between : Readable c.tiers (run (exec c) (moveFound c env' fromTier toTier
      (getObject s.metadata c.bucket c.key) >>= release) ⟨⟨fs, metadata⟩, true⟩).2.toObjectStore c.bucket c.key
      data.bytes := through (.later (.now steps))
    have after := through (.last (recordStep_eq_some.mpr ⟨metadata', by rwa [run_lockedPart], rfl⟩))
    rw [run_lockedPart] at before after
    simp only [release, run_bind, run_perform, run_pure, exec, run_moveFound] at between
    refine ⟨?_, (readable_before_iff hot stored root recorded).mp before⟩
    intro old bytes source target found moves
    obtain ⟨copied, -⟩ := (readable_between_iff hot stored root recorded).mp between old bytes source target found moves
    obtain ⟨covered, removed⟩ := (readable_after_iff hot stored root recorded').mp after old bytes source
      target found moves
    refine ⟨covered, fun deletes => ⟨removed deletes, ?_⟩⟩
    by_cases refused : Refused env' metadata c.bucket c.key { old with storageTier := toTier }
    · exact .inl refused
    · exact .inr (copied deletes refused)
  · intro undisturbed turns t finishes
    obtain rfl := finishes.left
    rcases interleave_cases rfl finishes.stored finishes.moved with
      ⟨fs, metadata, stored, recorded, final⟩ | ⟨fs, out, stored, amid, final⟩
    · obtain ⟨home, _, root, _⟩ := put_ok stored
      rw [final, readable_recorded hot root recorded]
      exact stored_home stored root
    obtain ⟨home, _, root, _⟩ := put_ok stored
    rw [final]
    rcases amid_migrateTask amid with ⟨metadata, recorded, last | last⟩ | ⟨metadata, recorded, last⟩
    · rw [last, readable_before_iff hot stored root recorded]
      exact (undisturbed fs metadata home stored recorded root).fromNew
    · rw [last, readable_between_iff hot stored root recorded]
      intro old bytes source target found moves
      obtain ⟨covered, removed⟩ :=
        (undisturbed fs metadata home stored recorded root).fromOld old bytes source target found moves
      refine ⟨fun deletes granted => ?_, fun _ => ⟨covered, fun deletes => (removed deletes).1⟩⟩
      exact (removed deletes).2.resolve_left granted
    · rw [last, readable_after_iff hot stored root recorded]
      obtain ⟨metadata', recorded'⟩ := (accepted_after env' fs fromTier toTier).mpr ⟨metadata, recorded⟩
      intro old bytes source target found moves
      obtain ⟨covered, removed⟩ :=
        (undisturbed fs metadata' home stored recorded' root).fromOld old bytes source target found moves
      exact ⟨covered, fun deletes => (removed deletes).1⟩

open Storage.Sample

namespace Sample

/-- A hot and a warm tier on a sound disk. -/
def setting : Setting where
  tiers := tiers
  writer := Disk.sound (str "3")
  mover := Disk.sound (str "2")
  bucket := str "bkt"
  key := str "k"

/-- The source of a migration cannot be removed. -/
def stuck : Setting := { setting with mover := { Disk.sound (str "2") with remove := some .busy } }

/-- A `PUT` of other bytes. -/
def put : Task (Except Bytes Unit) :=
  putStored ⟨str "v2", 9, none, none⟩ ⟨str "woof", some .eof⟩ 4 { record with versionID := str "v2" }
    "failed to store object"

def move (c : Setting) : Task (Except Bytes Unit) := migrateTask c env 0 1

/-- The data is stored, the object is migrated, and the record is written. -/
def turns : List Turn := .first :: (List.replicate 8 .second ++ [.first])

/-- What is left of the two programs and of the store. -/
def final (c : Setting) : Both :=
  readyInterleave (exec c) ready turns (start put (move c) ⟨stored, false⟩)

end Sample

open Sample

/-- The `PUT` and the migration succeed both, and the object cannot be read: its
data is in the warm tier, its record says it is in the hot one. -/
theorem migrated_amid_put_lost : ∃ t, Finishes setting put (move setting) stored turns t ∧
      (final setting).second.result = some (.ok ()) ∧
      readBack setting.tiers t (str "bkt") (str "k") = .error (str "failed to get object: object not found") ∧
      ¬ Readable setting.tiers t (str "bkt") (str "k") (str "woof") := by
  have results : ((final setting).first.result, (final setting).second.result) =
      (some (.ok ()), some (.ok ())) := by decide +kernel
  have read : readBack setting.tiers (final setting).state.toObjectStore (str "bkt") (str "k") =
      .error (str "failed to get object: object not found") := by decide +kernel
  refine ⟨_, finishes_of_results rfl results, (Prod.mk.inj results).2, read, ?_⟩
  intro readable
  exact nomatch read.symm.trans readable

/-- A migration that stops before it removes the source does no harm, whatever
the order. -/
theorem stuck_migration_harmless : (∃ t, Finishes stuck put (move stuck) stored turns t) ∧
      ∀ turns t, Finishes stuck put (move stuck) stored turns t →
        Readable stuck.tiers t (str "bkt") (str "k") (str "woof") := by
  have results : ((final stuck).first.result, (final stuck).second.result) =
      (some (.ok ()), some (.error (str ("failed to delete source after migration: failed to delete file: " ++
        "remove /hot/bkt/k: device or resource busy")))) := by decide +kernel
  have stays : ¬ Deletes stuck.mover := fun deletes => nomatch deletes.deleted
  refine ⟨⟨_, finishes_of_results rfl results⟩, ?_⟩
  apply (interleavings_readable_iff stuck _ _ stored ⟨str "woof", some .eof⟩ 4
    { record with versionID := str "v2" } "failed to store object" 0 1 rfl).mpr
  intro fs metadata home stored recorded root
  refine ⟨?_, fun _ _ _ _ deletes => absurd deletes stays⟩
  intro old data source target found moves
  refine ⟨fun same => ?_, fun deletes => absurd deletes stays⟩
  cases root
  cases moves.toRoot
  exact absurd same (by decide +kernel)

end CipherLake.MigrationRace
