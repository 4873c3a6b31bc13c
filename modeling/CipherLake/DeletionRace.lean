import CipherLake.BucketService
import CipherLake.Lib.Turns
import CipherLake.Migration

/-! The deletion of a bucket and a `PUT` into it at the same time. The deletion
looks for objects in one transaction and removes the bucket with everything in it
in another. A record written in between is not seen and is removed, though its
`PUT` has been or will be answered with 200. A record that is written before the
first makes the deletion give up, and one that is written after the second stays. -/
namespace CipherLake.DeletionRace
open Lib Lib.Program Http Gateway Metadata Storage Buckets Multipart

variable {κ : Type}

structure Shared where
  fs : FileTree
  db : Database

/-- The atomic operations: the transactions of the metadata store, and the calls
of the object store, which hold the lock of the object. -/
inductive Op where
  | getBucket
  | listObjects
  | listUploads
  | deleteBucket
  | storePut (data : Answer) (size : Int)
  | storeDelete
  | putObject (m : ObjectMetadata)

abbrev Result : Op → Type
  | .getBucket => Except StoreErr BucketInfo
  | .listObjects => List ObjectMetadata
  | .listUploads => List MultipartUpload
  | .deleteBucket => Except StoreErr Unit
  | .storePut _ _ => Except Bytes Unit
  | .storeDelete => Except Bytes Unit
  | .putObject _ => Except StoreErr Unit

abbrev Task := Program Op Result

/-- The object and its bucket, and what the operating system and the metadata
store contribute to the two requests. -/
structure Setting where
  tiers : Tiers
  disk : Disk
  (bucket key : Bytes)
  (writes deletes : Env)

def exec (c : Setting) : (op : Op) → Shared → Result op × Shared
  | .getBucket, s => (getBucket s.db.store c.bucket, s)
  | .listObjects, s => (listObjects s.db.store c.bucket [] 1, s)
  | .listUploads, s => (listUploads c.deletes.now s.db.uploads c.bucket, s)
  | .deleteBucket, s =>
    let out := deleteBucket c.deletes s.db c.bucket
    (out.1, { s with db := out.2 })
  | .storePut data size, s =>
    let out := put c.tiers c.disk s.fs c.bucket c.key data size tierHot
    (out.1, { s with fs := out.2 })
  | .storeDelete, s =>
    let out := delete c.tiers c.disk s.fs c.bucket c.key tierHot
    (out.1, { s with fs := out.2 })
  | .putObject m, s =>
    let out := putObject c.writes s.db.store c.bucket c.key m
    (out.1, { s with db := { s.db with store := out.2 } })

/-! ### The two requests -/

/-- What a `PUT` brings to the store: its data, what the check of its checksum will
say, and the record of an object that is there. -/
structure Incoming where
  data : Answer
  size : Int
  verdict : Except Bytes (Bytes × Bytes)
  record : ObjectMetadata
  live : record.deleteMarker = false

/-- `putObjectMetadataAfterStore`. -/
def recordTask (record : ObjectMetadata) : Task (Except Reply ObjectMetadata) := do
  let recorded : Except StoreErr Unit ← perform (Op.putObject record)
  match recorded with
  | .error e => do
    let _ : Except Bytes Unit ← perform Op.storeDelete
    pure (.error (.refused (str "failed to store metadata: " ++ e.text)))
  | .ok () => pure (.ok record)

/-- The steps of `handlePutObject` on the store. -/
def putTask (p : Incoming) : Task (Except Reply ObjectMetadata) := do
  let stored : Except Bytes Unit ← perform (Op.storePut p.data p.size)
  match stored with
  | .error e => pure (.error (.refused (str "failed to store object: " ++ e)))
  | .ok () =>
    match p.verdict with
    | .error mismatch => do
      let _ : Except Bytes Unit ← perform Op.storeDelete
      pure (.error (.error 400 (str "BadDigest") mismatch))
    | .ok (checksum, checksumType) => recordTask { p.record with checksum, checksumType }

/-- The last step of `handleDeleteBucket`. -/
def removeBucket : Task Reply := do
  let removed : Except StoreErr Unit ← perform Op.deleteBucket
  match removed with
  | .error e => pure (.refused (str "failed to delete bucket: " ++ e.text))
  | .ok () => pure (.sent 204 [] [] none)

def checkUploads (bucket : Bytes) : Task Reply := do
  let uploads : List MultipartUpload ← perform Op.listUploads
  if uploads ≠ [] then pure (bucketNotEmpty bucket "in-progress multipart uploads") else removeBucket

def checkObjects (bucket : Bytes) : Task Reply := do
  let objects : List ObjectMetadata ← perform Op.listObjects
  if objects ≠ [] then pure (bucketNotEmpty bucket "objects") else checkUploads bucket

/-- The steps of `handleDeleteBucket` on the store. -/
def deleteTask (bucket : Bytes) : Task Reply := do
  let found : Except StoreErr BucketInfo ← perform Op.getBucket
  match found with
  | .error e => pure (.refused (str "failed to delete bucket: " ++ e.text))
  | .ok _ => checkObjects bucket

/-- The part of the gateway's state that the two requests share. -/
def shared (w : World κ) : Shared := ⟨w.fs, w.metadata, w.uploads, w.sessions⟩

/-- On its own, the first task is what the handler of a `PUT` does once it has its
plan. -/
theorem run_putTask (g : Config) (call : Call κ) (w : World κ) (r : Request) (bucket key body : Bytes) (plan : Plan)
    (live : plan.record.deleteMarker = false) (deletes : Env) :
    run (exec ⟨g.tiers, call.disk, bucket, key, call.db, deletes⟩)
        (putTask ⟨plan.data, plan.size, finalizeChecksum call r body, plan.record, live⟩) (shared w) =
      ((commitPut g call w r bucket key body plan).1, shared (commitPut g call w r bucket key body plan).2) := by
  unfold putTask commitPut
  simp only [run_bind, run_perform, exec, shared]
  rcases put g.tiers call.disk w.fs bucket key plan.data plan.size tierHot with ⟨e | ⟨⟩, -⟩
  · rfl
  · cases finalizeChecksum call r body with
    | error mismatch => rfl
    | ok sums =>
      simp only [recordTask, putObjectMetadataAfterStore, run_bind, run_perform, exec]
      generalize putObject call.db w.metadata bucket key _ = out
      obtain ⟨e | ⟨⟩, -⟩ := out
      · rfl
      · rfl

/-- On its own, the second task is the handler of the deletion. -/
theorem run_deleteTask (call : Call κ) (w : World κ) (r : Request) (bucket : Bytes) (method : r.method = str "DELETE")
    (c : Setting) (same : c.bucket = bucket) (env : c.deletes = call.db) :
    run (exec c) (deleteTask bucket) (shared w) =
      ((handleDeleteBucket call w r bucket).1, shared (handleDeleteBucket call w r bucket).2) := by
  subst same
  unfold deleteTask handleDeleteBucket
  simp only [run_bind, run_perform, exec, shared, method, ne_eq, not_true_eq_false, if_false, ← env]
  cases getBucket w.metadata c.bucket with
  | error e => rfl
  | ok info =>
    simp only [checkObjects, run_bind, run_perform, exec]
    by_cases objects : listObjects w.metadata c.bucket [] 1 = []
    · simp only [objects, not_true_eq_false, if_false, checkUploads, run_bind, run_perform, exec, ne_eq]
      by_cases uploads : listUploads c.deletes.now w.uploads c.bucket = []
      · simp only [uploads, not_true_eq_false, if_false, removeBucket, run_bind, run_perform, exec]
        rcases deleteBucket c.deletes ⟨w.metadata, w.uploads, w.sessions⟩ c.bucket with ⟨e | ⟨⟩, -⟩ <;> rfl
      · simp [uploads, run_pure]
    · simp [objects, run_pure]

/-! ### What is left of the object -/

/-- The bucket is there, and the deletion finds nothing in it and works. -/
structure Deletable (c : Setting) (d : Database) : Prop where
  found : ∃ info, getBucket d.store c.bucket = .ok info
  objects : listObjects d.store c.bucket [] 1 = []
  uploads : listUploads c.deletes.now d.uploads c.bucket = []
  working : c.deletes.dbFault = none

/-- The data can be written, the checksum is right, and the record is accepted. -/
structure Storable (c : Setting) (p : Incoming) (s : Shared) : Prop where
  written : ∃ rootDir, c.tiers tierHot = some rootDir ∧
    Writable c.disk s.fs (objectPath rootDir c.bucket c.key) p.data p.size
  checked : ∃ sums, p.verdict = .ok sums
  accepted : ¬ Refused c.writes s.db.store c.bucket c.key p.record

def Recorded (c : Setting) (record : ObjectMetadata) (s : Shared) : Prop :=
  s.db.store.objects.get (objectKey c.bucket c.key) = some (stamped c.writes record).decoded

/-- The data and the record of an object are there. -/
structure Present (c : Setting) (data : Bytes) (record : ObjectMetadata) (s : Shared) : Prop where
  recorded : Recorded c record s
  stored : ∃ rootDir, c.tiers tierHot = some rootDir ∧
    s.fs.entry (objectPath rootDir c.bucket c.key) = some (.file data)

def NotEmpty (bucket : Bytes) (reply : Reply) : Prop :=
  reply = bucketNotEmpty bucket "objects" ∨ reply = bucketNotEmpty bucket "in-progress multipart uploads"

variable (n : Nat) (bucket : Bytes)

section
variable {c : Setting} {s : Shared} {m : ObjectMetadata}

theorem run_removeBucket_state : (run (exec c) removeBucket s).2 =
    { s with db := (deleteBucket c.deletes s.db c.bucket).2 } := by
  simp only [removeBucket, run_bind, run_perform, exec]
  rcases deleteBucket c.deletes s.db c.bucket with ⟨_ | ⟨⟩, -⟩ <;> rfl

theorem run_checkUploads_state : (run (exec c) (checkUploads c.bucket) s).2 =
    if listUploads c.deletes.now s.db.uploads c.bucket = [] then (run (exec c) removeBucket s).2 else s := by
  simp only [checkUploads, run_bind, run_perform, exec, ne_eq]
  by_cases none : listUploads c.deletes.now s.db.uploads c.bucket = []
  · simp [none]
  · simp [none, run_pure]

/-- A deletion that finds objects leaves everything as it is. -/
theorem run_checkObjects_state (held : listObjects s.db.store c.bucket [] 1 ≠ []) :
    (run (exec c) (checkObjects c.bucket) s).2 = s := by
  simp [checkObjects, run_bind, run_perform, exec, held, run_pure]

theorem run_deleteTask_state (held : listObjects s.db.store c.bucket [] 1 ≠ []) :
    (run (exec c) (deleteTask c.bucket) s).2 = s := by
  simp only [deleteTask, run_bind, run_perform, exec]
  cases getBucket s.db.store c.bucket with
  | error e => rfl
  | ok info => exact run_checkObjects_state held

/-- A bucket with a record in it is not found empty. -/
theorem Recorded.listed (live : m.deleteMarker = false) (recorded : Recorded c m s) :
    listObjects s.db.store c.bucket [] 1 ≠ [] := by
  have member : (objectKey c.bucket c.key, (stamped c.writes m).decoded) ∈
      Listing.liveEntries s.db.store c.bucket [] := by
    apply List.mem_filter.mpr
    refine ⟨Table.mem_of_get recorded, ?_⟩
    simp [Metadata.live, stamped, ObjectMetadata.decoded, live, objectKey]
  rw [Listing.listObjects_eq]
  intro none
  rcases List.take_eq_nil_iff.mp none with zero | empty
  · exact absurd zero (by decide)
  · rw [List.map_eq_nil_iff] at empty
    rw [empty] at member
    cases member

/-- The deletion removes the record, unless the database fails. -/
theorem recorded_deleteBucket (recorded : Recorded c m s) :
    Recorded c m { s with db := (deleteBucket c.deletes s.db c.bucket).2 } ↔ c.deletes.dbFault ≠ none := by
  unfold deleteBucket
  cases fault : c.deletes.dbFault with
  | some e => simpa using recorded
  | none =>
    have under : hasPrefix (objectKey c.bucket c.key) (c.bucket ++ str "/") = true := by
      apply List.isPrefixOf_iff_prefix.mpr
      simp [objectKey]
    simp [Recorded, foldl_keysUnder, Table.get_restrict, under]

/-- A record that is there when the deletion removes the bucket is lost. -/
theorem recorded_removeBucket (recorded : Recorded c m s) :
    Recorded c m (run (exec c) removeBucket s).2 ↔ c.deletes.dbFault ≠ none := by
  rw [run_removeBucket_state]
  exact recorded_deleteBucket recorded

theorem recorded_checkUploads (recorded : Recorded c m s) : Recorded c m (run (exec c) (checkUploads c.bucket) s).2 ↔
      ¬ (listUploads c.deletes.now s.db.uploads c.bucket = [] ∧ c.deletes.dbFault = none) := by
  rw [run_checkUploads_state]
  by_cases none : listUploads c.deletes.now s.db.uploads c.bucket = []
  · simp [none, recorded_removeBucket recorded]
  · simp [none, recorded]

/-! ### How far the deletion has come -/

theorem advance_deleteTask : advance (exec c) (n + 1) (deleteTask c.bucket) s =
    match getBucket s.db.store c.bucket with
    | .error e => (done (.refused (str "failed to delete bucket: " ++ e.text)), s)
    | .ok _ => advance (exec c) n (checkObjects c.bucket) s := by
  cases found : getBucket s.db.store c.bucket with
  | error e => simp only [deleteTask, perform, bind, Program.bind, advance, exec, found, pure, advance_done]
  | ok info => simp only [deleteTask, perform, bind, Program.bind, advance, exec, found]

theorem advance_checkObjects : advance (exec c) (n + 1) (checkObjects c.bucket) s =
    if listObjects s.db.store c.bucket [] 1 = [] then advance (exec c) n (checkUploads c.bucket) s
    else (done (bucketNotEmpty c.bucket "objects"), s) := by
  by_cases objects : listObjects s.db.store c.bucket [] 1 = []
  · simp [checkObjects, perform, bind, Program.bind, advance, exec, objects]
  · simp [checkObjects, perform, bind, Program.bind, advance, exec, objects, pure, advance_done]

theorem advance_checkUploads : advance (exec c) (n + 1) (checkUploads c.bucket) s =
    if listUploads c.deletes.now s.db.uploads c.bucket = [] then advance (exec c) n removeBucket s
    else (done (bucketNotEmpty c.bucket "in-progress multipart uploads"), s) := by
  by_cases uploads : listUploads c.deletes.now s.db.uploads c.bucket = []
  · simp [checkUploads, perform, bind, Program.bind, advance, exec, uploads]
  · simp [checkUploads, perform, bind, Program.bind, advance, exec, uploads, pure, advance_done]

theorem advance_removeBucket : ∃ reply, (advance (exec c) (n + 1) removeBucket s).1 = done reply := by
  simp only [removeBucket, perform, bind, Program.bind, advance, exec]
  cases (deleteBucket c.deletes s.db c.bucket).1 with
  | error e => exact ⟨_, congrArg Prod.fst (advance_done _ n _ _)⟩
  | ok value => exact ⟨_, congrArg Prod.fst (advance_done _ n _ _)⟩

/-- The first three steps of a deletion only look. -/
theorem advance_looks {n : Nat} (early : n ≤ 3) : (advance (exec c) n (deleteTask c.bucket) s).2 = s := by
  rcases n with - | n
  · rfl
  rw [advance_deleteTask]
  split
  · rfl
  rcases n with - | n
  · rfl
  rw [advance_checkObjects]
  split
  swap
  · rfl
  rcases n with - | n
  · rfl
  rw [advance_checkUploads]
  split
  · obtain rfl : n = 0 := by omega
    rfl
  · rfl

/-- A record that is written when the deletion has made so many steps is there in
the end, unless it came between the search for objects and the removal. -/
theorem recorded_after_steps (live : m.deleteMarker = false) {t : Shared} (same : n ≤ 3 → t.db.uploads = s.db.uploads)
    (recorded : Recorded c m t) :
    Recorded c m (run (exec c) (advance (exec c) n (deleteTask c.bucket) s).1 t).2 ↔
      ¬ (Deletable c s.db ∧ (n = 2 ∨ n = 3)) := by
  have listed := recorded.listed live
  have finished {reply : Reply} : Recorded c m (run (exec c) (done reply) t).2 := recorded
  rcases n with - | n
  · simp only [advance, run_deleteTask_state listed]
    exact iff_of_true recorded (by omega)
  rw [advance_deleteTask]
  cases found : getBucket s.db.store c.bucket with
  | error e =>
    refine iff_of_true finished ?_
    rintro ⟨deletable, -⟩
    obtain ⟨info, found'⟩ := deletable.found
    rw [found] at found'
    cases found'
  | ok info =>
    rcases n with - | n
    · simp only [advance, run_checkObjects_state listed]
      exact iff_of_true recorded (by omega)
    rw [advance_checkObjects]
    by_cases objects : listObjects s.db.store c.bucket [] 1 = []
    swap
    · rw [if_neg objects]
      exact iff_of_true finished fun lost => objects lost.1.objects
    rw [if_pos objects]
    have deletable : Deletable c s.db ↔
        listUploads c.deletes.now s.db.uploads c.bucket = [] ∧ c.deletes.dbFault = none :=
      ⟨fun d => ⟨d.uploads, d.working⟩, fun rest => ⟨⟨info, found⟩, objects, rest.1, rest.2⟩⟩
    rcases n with - | n
    · simp [advance, recorded_checkUploads recorded, same (by omega), deletable]
    rw [advance_checkUploads]
    by_cases uploads : listUploads c.deletes.now s.db.uploads c.bucket = []
    swap
    · rw [if_neg uploads]
      exact iff_of_true finished fun lost => uploads lost.1.uploads
    rw [if_pos uploads]
    rcases n with - | n
    · simp [advance, recorded_removeBucket recorded, deletable, uploads]
    · obtain ⟨reply, ended⟩ := advance_removeBucket (c := c) (s := s) n
      rw [ended]
      exact iff_of_true finished (by omega)

/-- Operations on the metadata store alone. -/
def OnDatabase : Op → Prop
  | .storePut _ _ => False
  | .storeDelete => False
  | _ => True

theorem OnDatabase.commutes {op : Op} (database : OnDatabase op) (data : Answer) (size : Int) :
    Commutes (exec c) (.storePut data size) op := by
  cases op with
  | storePut data' size' => exact database.elim
  | storeDelete => exact database.elim
  | _ => exact ⟨fun _ => rfl, fun _ => rfl, fun _ => rfl⟩

theorem OnDatabase.keeps_fs {op : Op} (database : OnDatabase op) (s : Shared) : (exec c op s).2.fs = s.fs := by
  cases op with
  | storePut data' size' => exact database.elim
  | storeDelete => exact database.elim
  | _ => rfl

theorem only_deleteTask : Only OnDatabase (deleteTask bucket) := by
  have removing : Only OnDatabase removeBucket := by
    refine only_bind (only_perform trivial) fun removed => ?_
    split <;> exact only_pure _
  have uploads : Only OnDatabase (checkUploads bucket) := by
    refine only_bind (only_perform trivial) fun uploads => ?_
    split
    · exact only_pure _
    · exact removing
  have objects : Only OnDatabase (checkObjects bucket) := by
    refine only_bind (only_perform trivial) fun objects => ?_
    split
    · exact only_pure _
    · exact uploads
  refine only_bind (only_perform trivial) fun found => ?_
  split
  · exact only_pure _
  · exact objects

end

/-! ### Interleavings -/

abbrev Both := Pair Op Result (Except Reply ObjectMetadata) Reply Shared

/-- The record with the checksum of what was read. -/
def Incoming.checked (p : Incoming) (sums : Bytes × Bytes) : ObjectMetadata :=
  { p.record with checksum := sums.1, checksumType := sums.2 }

/-- What the turns lead to. -/
def interleaved (c : Setting) (p : Incoming) (s : Shared) (turns : List Turn) : Both :=
  interleave (exec c) turns (start (putTask p) (deleteTask c.bucket) s)

section
variable {c : Setting} {p : Incoming} {s : Shared} {turns : List Turn} {out : Except Reply ObjectMetadata} {reply : Reply}

variable {record : ObjectMetadata}

/-- Once the data is stored, the record is written when the deletion has made as
many steps as it had turns. -/
theorem recordTask_outcome {r : Both} (left : r.first = recordTask record)
    (putDone : (interleave (exec c) turns r).first = done out)
    (deleteDone : (interleave (exec c) turns r).second = done reply) :
    let before := advance (exec c) (preceding 0 turns) r.second r.state
    ((putObject c.writes before.2.db.store c.bucket c.key record).1 ≠ .ok () ∧ ∀ record', out ≠ .ok record') ∨
      (putObject c.writes before.2.db.store c.bucket c.key record).1 = .ok () ∧ out = .ok record ∧
        (interleave (exec c) turns r).state = (run (exec c) before.1 (exec c (.putObject record) before.2).2).2 := by
  obtain ⟨n, later, r', split, first, second, state, final⟩ :=
    acts_after left (by rw [putDone]; trivial : IsDone (interleave (exec c) turns r).first)
  have steps : preceding 0 turns = n := by
    rw [split, preceding_replicate]
    rfl
  rw [steps]
  rw [final] at putDone deleteDone ⊢
  intro before
  cases recorded : (putObject c.writes before.2.db.store c.bucket c.key record).1 with
  | error e =>
    refine .inl ⟨nofun, ?_⟩
    rintro record' rfl
    have fails : Yields (fun result => ∀ record', result ≠ .ok record') r'.first := by
      rw [first]
      change Yields _ (match (putObject c.writes before.2.db.store c.bucket c.key record).1 with
        | .error e => _
        | .ok () => _)
      rw [recorded]
      exact fun _ _ => nofun
    have yields := interleave_yields (exec c) fails later
    rw [putDone] at yields
    exact yields record' rfl
  | ok value =>
    have ended : r'.first = done (.ok record) := by
      rw [first]
      change (match (putObject c.writes before.2.db.store c.bucket c.key record).1 with
        | .error e => _
        | .ok () => _) = _
      rw [recorded]
      rfl
    obtain ⟨still, ran⟩ := interleave_first_done (exec c) ended later
    rw [putDone] at still
    refine .inr ⟨rfl, (Program.done.inj still), ?_⟩
    rw [deleteDone, second, state] at ran
    exact congrArg Prod.snd ran

/-- The data goes in or does not, whatever the deletion has done so far, and the
rest of the `PUT` is the record. -/
theorem put_outcome (putDone : (interleaved c p s turns).first = done out)
    (deleteDone : (interleaved c p s turns).second = done reply) :
    ((∀ fs, put c.tiers c.disk s.fs c.bucket c.key p.data p.size tierHot ≠ (.ok (), fs)) ∨
        ∀ sums, p.verdict ≠ .ok sums) ∧ (∀ record, out ≠ .ok record) ∨
      ∃ fs sums, put c.tiers c.disk s.fs c.bucket c.key p.data p.size tierHot = (.ok (), fs) ∧ p.verdict = .ok sums ∧
        let before := advance (exec c) (preceding 1 turns) (deleteTask c.bucket) { s with fs }
        ((putObject c.writes before.2.db.store c.bucket c.key (p.checked sums)).1 ≠ .ok () ∧
            ∀ record, out ≠ .ok record) ∨
          (putObject c.writes before.2.db.store c.bucket c.key (p.checked sums)).1 = .ok () ∧
            out = .ok (p.checked sums) ∧ (interleaved c p s turns).state =
              (run (exec c) before.1 (exec c (.putObject (p.checked sums)) before.2).2).2 := by
  unfold interleaved at putDone deleteDone ⊢
  obtain ⟨n, later, r, split, first, second, state, final⟩ := acts_after (r := start (putTask p) _ s) rfl
    (by rw [putDone]; trivial : IsDone (interleave (exec c) turns (start (putTask p) (deleteTask c.bucket) s)).first)
  have steps : preceding 1 turns = n + preceding 0 later := by
    rw [split, preceding_replicate]
    rfl
  obtain ⟨moved, same⟩ := advance_past (s := s)
    ((only_deleteTask c.bucket).mono fun op database => database.commutes (c := c) p.data p.size) n
  simp only [start, same] at first second state
  rw [final] at putDone deleteDone ⊢
  rcases stored : put c.tiers c.disk s.fs c.bucket c.key p.data p.size tierHot with ⟨_ | ⟨⟩, fs⟩
  · simp only [exec, stored] at first
    refine .inl ⟨.inl (by simp), ?_⟩
    rintro record rfl
    rw [(interleave_first_done (exec c) first later).1] at putDone
    cases putDone
  · simp only [exec, stored] at first moved
    cases verdict : p.verdict with
    | error mismatch =>
      refine .inl ⟨.inr nofun, ?_⟩
      rintro record rfl
      have fails : Yields (fun result => ∀ record, result ≠ .ok record) r.first := by
        rw [first, verdict]
        exact fun _ _ => nofun
      have yields := interleave_yields (exec c) fails later
      rw [putDone] at yields
      exact yields record rfl
    | ok sums =>
      refine .inr ⟨fs, sums, rfl, rfl, ?_⟩
      rw [verdict] at first
      have outcome := recordTask_outcome first putDone deleteDone
      have reached : advance (exec c) (preceding 0 later) r.second r.state =
          advance (exec c) (preceding 1 turns) (deleteTask c.bucket) { s with fs } := by
        rw [steps, advance_add, moved, second, state]
        rfl
      rw [reached] at outcome
      exact outcome

/-- An acknowledged object is there, and a deletion that finds the bucket not
empty leaves what the `PUT` alone would have left. -/
structure Unharmed (c : Setting) (p : Incoming) (s : Shared) (out : Except Reply ObjectMetadata) (reply : Reply)
    (after : Shared) : Prop where
  kept : ∀ record, out = .ok record → Present c p.data.bytes record after
  unchanged : NotEmpty c.bucket reply → (out, after) = run (exec c) (putTask p) s

/-- Operations that only look. -/
def Looks : Op → Prop
  | .getBucket => True
  | .listObjects => True
  | .listUploads => True
  | _ => False

theorem Looks.still {op : Op} (looks : Looks op) (s : Shared) : (exec c op s).2 = s := by
  cases op with
  | getBucket => rfl
  | listObjects => rfl
  | listUploads => rfl
  | _ => exact looks.elim

theorem failed_ne_notEmpty (e : Bytes) : ¬ NotEmpty bucket (.refused (str "failed to delete bucket: " ++ e)) := by
  have failed : (str "failed to delete bucket: ").head? = some 102 := by decide
  have full : (str "bucket not empty: bucket ").head? = some 98 := by decide
  rintro (same | same)
  all_goals
    have begins := congrArg List.head? (Reply.refused.inj same)
    simp [List.head?_append, failed, full] at begins

/-- A deletion only looks before it says that the bucket is not empty. -/
theorem deleteTask_looks : OnlyUnless Looks (fun reply => ¬ NotEmpty bucket reply) (deleteTask bucket) := by
  have removing : OnlyUnless Looks (fun reply => ¬ NotEmpty bucket reply) removeBucket := by
    refine ⟨.inr fun removed => ?_, fun removed => ?_⟩
    · cases removed with
      | error e => exact failed_ne_notEmpty bucket e.text
      | ok value => rintro (same | same) <;> cases same
    · cases removed with
      | error e => trivial
      | ok value => trivial
  have uploads : OnlyUnless Looks (fun reply => ¬ NotEmpty bucket reply) (checkUploads bucket) := by
    refine onlyUnless_after trivial fun uploads => ?_
    split
    · trivial
    · exact removing
  have objects : OnlyUnless Looks (fun reply => ¬ NotEmpty bucket reply) (checkObjects bucket) := by
    refine onlyUnless_after trivial fun objects => ?_
    split
    · trivial
    · exact uploads
  refine onlyUnless_after trivial fun found => ?_
  split
  · trivial
  · exact objects

theorem unchanged_of_notEmpty (putDone : (interleaved c p s turns).first = done out)
    (deleteDone : (interleaved c p s turns).second = done reply) (notEmpty : NotEmpty c.bucket reply) :
    (out, (interleaved c p s turns).state) = run (exec c) (putTask p) s := by
  unfold interleaved at putDone deleteDone ⊢
  have same := interleave_unchanged (p := putTask p) (s := s) (deleteTask_looks c.bucket)
    (fun _ looks s => looks.still s) turns deleteDone (not_not.mpr notEmpty)
  rw [putDone] at same
  exact same

/-- What the `PUT` wrote is at the end where it was written. -/
theorem stored_after {fs : FileTree} {n : Nat}
    (stored : put c.tiers c.disk s.fs c.bucket c.key p.data p.size tierHot = (.ok (), fs)) :
    let before := advance (exec c) n (deleteTask c.bucket) { s with fs }
    ∃ rootDir, c.tiers tierHot = some rootDir ∧
      (run (exec c) before.1 (exec c (.putObject record) before.2).2).2.fs.entry
        (objectPath rootDir c.bucket c.key) = some (.file p.data.bytes) := by
  intro before
  have keeps (op : Op) (database : OnDatabase op) (t : Shared) (same : t.fs = fs) : (exec c op t).2.fs = fs :=
    (database.keeps_fs t).trans same
  obtain ⟨only, there⟩ := (only_deleteTask c.bucket).advance (s := { s with fs }) keeps n rfl
  have final : (run (exec c) before.1 (exec c (.putObject record) before.2).2).2.fs = fs :=
    only.preserves keeps _ there
  obtain ⟨rootDir, made, registered, -, -, entries⟩ := put_ok stored
  refine ⟨rootDir, registered, ?_⟩
  rw [final, entries, if_pos rfl]

theorem recorded_putObject {t : Shared}
    (recorded : (putObject c.writes t.db.store c.bucket c.key record).1 = .ok ()) :
    Recorded c record (exec c (.putObject record) t).2 := by
  rcases putObject_cases c.writes t.db.store c.bucket c.key record with ⟨_, eq⟩ | ⟨_, -, -, eq⟩
  · rw [eq] at recorded
    cases recorded
  · simp only [Recorded, exec, eq, Table.get_put_same]

/-- Of the interleavings of a `PUT` into a bucket and the deletion of the bucket,
those do harm in which both would succeed and the record is written after the
search for objects, the second step of the deletion, and before the removal, its
fourth. -/
theorem unharmed_iff (c : Setting) (p : Incoming) (s : Shared) (turns : List Turn) (out : Except Reply ObjectMetadata)
    (reply : Reply) (putDone : (interleaved c p s turns).first = done out)
    (deleteDone : (interleaved c p s turns).second = done reply) :
    Unharmed c p s out reply (interleaved c p s turns).state ↔
      ¬ (Deletable c s.db ∧ Storable c p s ∧ (preceding 1 turns = 2 ∨ preceding 1 turns = 3)) := by
  rcases put_outcome putDone deleteDone with ⟨unstored, failed⟩ | ⟨fs, sums, stored, verdict, outcome⟩
  · -- the data is not stored, or taken back before a record is written
    refine iff_of_true ⟨fun record ok => absurd ok (failed record), unchanged_of_notEmpty putDone deleteDone⟩ ?_
    rintro ⟨-, ⟨⟨rootDir, registered, writable⟩, ⟨sums, checked⟩, -⟩, -⟩
    rcases unstored with unwritten | mismatch
    · rcases put : put c.tiers c.disk s.fs c.bucket c.key p.data p.size tierHot with ⟨_ | ⟨⟩, fs⟩
      · exact (put_error put).1 rootDir registered writable
      · exact unwritten fs put
    · exact mismatch sums checked
  · have accepted (early : preceding 1 turns ≤ 3) :
        (putObject c.writes (advance (exec c) (preceding 1 turns) (deleteTask c.bucket) { s with fs }).2.db.store
          c.bucket c.key (p.checked sums)).1 = .ok () ↔ ¬ Refused c.writes s.db.store c.bucket c.key p.record := by
      rw [advance_looks early]
      exact putObject_ok_iff _ _ _ _ _
    rcases outcome with ⟨refused, failed⟩ | ⟨recorded, rfl, final⟩
    · -- the record is refused
      refine iff_of_true ⟨fun record ok => absurd ok (failed record), unchanged_of_notEmpty putDone deleteDone⟩ ?_
      rintro ⟨-, storable, between⟩
      exact refused ((accepted (by omega)).mpr storable.accepted)
    · have live : (p.checked sums).deleteMarker = false := p.live
      have kept := recorded_after_steps (s := { s with fs }) (preceding 1 turns) live
        (fun early => congrArg (·.db.uploads) (advance_looks early)) (recorded_putObject recorded)
      rw [← final] at kept
      constructor
      · rintro ⟨present, -⟩ ⟨deletable, -, between⟩
        exact kept.mp (present _ rfl).recorded ⟨deletable, between⟩
      · intro harmless
        refine ⟨?_, unchanged_of_notEmpty putDone deleteDone⟩
        rintro record ⟨⟩
        refine ⟨kept.mpr fun ⟨deletable, between⟩ => harmless ⟨deletable, ?_, between⟩, ?_⟩
        · obtain ⟨rootDir, _, registered, writable, -⟩ := put_ok stored
          exact ⟨⟨rootDir, registered, writable⟩, ⟨sums, verdict⟩, (accepted (by omega)).mp recorded⟩
        · rw [final]
          exact stored_after stored

end

namespace Sample

/-- A `PUT` into an empty bucket on a sound disk. -/
def setting : Setting where
  tiers := Storage.Sample.tiers
  disk := Disk.sound (str "1")
  bucket := str "bkt"
  key := str "k"
  writes := ⟨str "v1", 7, none, none⟩
  deletes := ⟨str "v2", 7, none, none⟩

def incoming : Incoming := ⟨⟨str "meow", some .eof⟩, 4, .ok ([], str "sha256"), Storage.Sample.record, rfl⟩

def before : Shared where
  fs := FileTree.empty
  db := ⟨⟨Table.empty, Table.empty.put (str "bkt") blankInfo, Table.empty⟩, ⟨Table.empty, Table.empty⟩, Table.empty⟩

/-- The deletion has looked for objects and uploads; the `PUT` comes and goes; the
bucket is removed. -/
def turns : List Turn := [.second, .second, .second, .first, .first, .second]

/-- The `PUT` is over before the deletion begins. -/
def inTurn : List Turn := [.first, .first, .second, .second]

def acknowledged : ObjectMetadata := incoming.checked ([], str "sha256")

end Sample

open Sample

/-- The `PUT` and the deletion succeed both, and the record is gone. -/
theorem acknowledged_discarded : (interleaved setting incoming before turns).first = done (.ok acknowledged) ∧
      (interleaved setting incoming before turns).second = done (.sent 204 [] [] none) ∧
      ¬ Unharmed setting incoming before (.ok acknowledged) (.sent 204 [] [] none)
        (interleaved setting incoming before turns).state := by
  have put : (interleaved setting incoming before turns).first.result = some (.ok acknowledged) := by decide +kernel
  have deleted : (interleaved setting incoming before turns).second.result =
      some (.sent 204 [] [] none) := by decide +kernel
  have gone : (interleaved setting incoming before turns).state.db.store.objects.get
      (objectKey (str "bkt") (str "k")) = none := by decide +kernel
  refine ⟨result_eq_some.mp put, result_eq_some.mp deleted, fun unharmed => ?_⟩
  have recorded := (unharmed.kept _ rfl).recorded
  exact absurd (gone.symm.trans recorded) nofun

/-- With the `PUT` first, the deletion sees the object and leaves it. -/
theorem put_first_unharmed : Unharmed setting incoming before (.ok acknowledged)
      (bucketNotEmpty (str "bkt") "objects")
      (interleaved setting incoming before inTurn).state := by
  have put : (interleaved setting incoming before inTurn).first.result = some (.ok acknowledged) := by decide +kernel
  have seen : (interleaved setting incoming before inTurn).second.result =
      some (bucketNotEmpty (str "bkt") "objects") := by decide +kernel
  apply (unharmed_iff _ _ _ inTurn _ _ (result_eq_some.mp put) (result_eq_some.mp seen)).mpr
  rintro ⟨-, -, between⟩
  revert between
  decide

end CipherLake.DeletionRace
