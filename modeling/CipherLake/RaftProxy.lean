import CipherLake.Lib.Runs
import CipherLake.MetadataInterface
import CipherLake.RaftFsm

/-! `RaftMetadataProxy` on a single node, against a store that is called directly.
Writes go through the log into the state machine's own database, whose answer is
ignored; reads go to the store that no write reaches. -/
namespace CipherLake.Raft
open Lib Lib.Runs Metadata Gateway Buckets Multipart

/-- What an operation carries, as JSON. A missing record is null. -/
inductive Record where
  | null
  | object (m : ObjectMetadata)
  | bucket (info : BucketInfo)
  | upload (upload : MultipartUpload)
  | part (part : UploadPart)

structure RaftMetadataProxy where
  store : Database
  fsm : BoltFSM Record
  enabled : Bool

def bucketRecord : Option BucketInfo → Record
  | none => .null
  | some info => .bucket info.decoded

/-- The operation that the proxy makes of a write. -/
def operation : Write → FSMOperation Record
  | .putObject bucket key m => ⟨.putObject, bucket, key, .object m.decoded⟩
  | .deleteObject bucket key => ⟨.deleteObject, bucket, key, .null⟩
  | .createBucket bucket info => ⟨.createBucket, bucket, [], bucketRecord info⟩
  | .deleteBucket bucket => ⟨.deleteBucket, bucket, [], .null⟩
  | .updateBucket bucket info => ⟨.updateBucket, bucket, [], bucketRecord info⟩
  | .putObjectVersion bucket key m => ⟨.putObjectVersion, bucket, key, .object m.decoded⟩
  | .putUpload upload => ⟨.putUpload, upload.bucket, upload.key, .upload (decodedUpload upload)⟩
  | .deleteUpload bucket key _ => ⟨.deleteUpload, bucket, key, .null⟩
  | .addPart uploadID part =>
    ⟨.addPart, uploadID, str (toString part.partNumber),
      .part { part with etag := jsonString part.etag, checksum := jsonString part.checksum }⟩

variable (s : State) (f : BoltFSM Record) (p : RaftMetadataProxy)

/-- `RaftApply` on a log that takes every entry. What the state machine answers is
not looked at. -/
def raftApply (op : FSMOperation Record) : Except StoreErr Unit × BoltFSM Record :=
  (.ok (), (f.apply op.decoded).2)

def RaftMetadataProxy.write (env : Env) (w : Write) : Except StoreErr Unit × RaftMetadataProxy :=
  if p.enabled then
    let (answer, fsm) := raftApply p.fsm (operation w)
    (answer, { p with fsm })
  else
    let (answer, store) := w.perform env p.store
    (answer, { p with store })

def RaftMetadataProxy.read (now : Time) (r : Read) : Result := r.result now p.store

/-! ### The proxy beside the store -/

inductive Outcome where
  | written (answer : Except StoreErr Unit)
  | found (result : Result)

/-- A call, with the id that a write may draw and the clock. Nothing fails. -/
inductive Event where
  | write (versionID : Bytes) (now : Time) (w : Write)
  | read (now : Time) (r : Read)

structure State where
  proxy : RaftMetadataProxy
  direct : Database
  outcomes : List (Outcome × Outcome)

def State.initial (d : Database) (f : BoltFSM Record) : State := ⟨⟨d, f, true⟩, d, []⟩

def next : Event → Option State
  | .write versionID now w =>
    let (answer, proxy) := s.proxy.write ⟨versionID, now, none, none⟩ w
    let (due, direct) := w.perform ⟨versionID, now, none, none⟩ s.direct
    some ⟨proxy, direct, (.written answer, .written due) :: s.outcomes⟩
  | .read now r => some { s with outcomes := (.found (s.proxy.read now r), .found (r.result now s.direct)) :: s.outcomes }

/-- Every call had the outcome that it has on the store. -/
def Agreed : Prop := ∀ o ∈ s.outcomes, o.1 = o.2

/-- The store accepts the write; the writes so far make no difference to the read. -/
def Unnoticed (initial : Database) (s : State) : Event → Prop
  | .write versionID now w => (w.perform ⟨versionID, now, none, none⟩ s.direct).1 = .ok ()
  | .read now r => r.result now s.direct = r.result now initial

/-- No write reaches the store that is read. -/
def Untouched (initial : Database) (s : State) : Prop := s.proxy.enabled = true ∧ s.proxy.store = initial

theorem Untouched.step {initial : Database} {s s' : State} {event : Event} (stepped : next s event = some s')
    (untouched : Untouched initial s) : Untouched initial s' := by
  cases event with
  | write versionID now w =>
    simp only [next, RaftMetadataProxy.write, untouched.1, if_true] at stepped
    cases stepped
    exact ⟨rfl, untouched.2⟩
  | read now r =>
    cases stepped
    exact untouched

theorem agreed_step {initial : Database} {s s' : State} {event : Event} (stepped : next s event = some s')
    (untouched : Untouched initial s) (agreed : Agreed s) : Agreed s' ↔ Unnoticed initial s event := by
  cases event with
  | write versionID now w =>
    simp only [next, RaftMetadataProxy.write, untouched.1, if_true] at stepped
    cases stepped
    simp only [Agreed, List.forall_mem_cons, raftApply, Outcome.written.injEq, Unnoticed]
    exact ⟨fun both => both.1.symm, fun accepted => ⟨accepted.symm, agreed⟩⟩
  | read now r =>
    cases stepped
    simp only [Agreed, List.forall_mem_cons, RaftMetadataProxy.read, untouched.2, Outcome.found.injEq, Unnoticed]
    exact ⟨fun both => both.1.symm, fun same => ⟨same.symm, agreed⟩⟩

/-- Over every sequence of calls, the proxy has the outcomes of a store that is called
directly exactly if the store accepts every write and no read depends on a write. -/
theorem proxy_outcomes_agree_iff (initial : Database) (f : BoltFSM Record) (events : List Event) :
    Always next Agreed (.initial initial f) events ↔
      Throughout next (Unnoticed initial) (.initial initial f) events := by
  refine always_iff_throughout (Untouched initial) (fun _ _ _ => Untouched.step) ?_ ⟨rfl, rfl⟩ (by rintro _ ⟨⟩)
  exact fun s event s' stepped untouched agreed => agreed_step stepped untouched agreed

/-- In the state machine, too, a later version of an object takes the place of the
earlier one, whatever their ids. -/
theorem later_version_replaces (bucket key : Bytes) (m m' : ObjectMetadata) :
    (raftApply (raftApply f (operation (.putObjectVersion bucket key m))).2
        (operation (.putObjectVersion bucket key m'))).2 =
      (raftApply f (operation (.putObjectVersion bucket key m'))).2 := by
  have replaced (at_ : Bytes) (a b : Record) : (f.versions.put at_ a).put at_ b = f.versions.put at_ b := by
    apply Table.ext_get
    intro other
    by_cases same : at_ = other
    · rw [same, Table.get_put_same, Table.get_put_same]
    · rw [Table.get_put_ne _ _ same, Table.get_put_ne _ _ same, Table.get_put_ne _ _ same]
  exact congrArg (fun versions => { f with versions }) (replaced _ _ _)

namespace Sample

def database : Database := ⟨⟨.empty, .empty, .empty⟩, ⟨.empty, .empty⟩, .empty⟩

def fsm : BoltFSM Record := ⟨.empty, .empty, .empty, .empty, .empty, .empty⟩

/-- A bucket is made twice and looked up. -/
def calls : List Event :=
  [.write [] 1 (.createBucket (str "b") none), .write [] 2 (.createBucket (str "b") none), .read 3 (.getBucket (str "b"))]

/-- Whether an outcome is a success. -/
def succeeded : Outcome → Bool
  | .written answer => answer.isOk
  | .found (.bucket answer) => answer.isOk
  | .found _ => true

end Sample

open Sample

/-- A bucket that exists is made again without an error, and after that it is not
found. -/
theorem acknowledged_bucket_not_found : (calls.foldlM next (.initial database fsm)).map
        (fun s => s.outcomes.map fun o => (succeeded o.1, succeeded o.2)) =
      some [(false, true), (true, false), (true, true)] ∧
      ¬ Always next Agreed (.initial database fsm) calls := by
  refine seen_not_always _ (by decide +kernel) ?_
  intro s seen agreed
  obtain ⟨o, rest, outcomes, seen, -⟩ := List.map_eq_cons_iff.mp seen
  rw [agreed o (outcomes ▸ List.mem_cons_self)] at seen
  obtain ⟨given, due⟩ := Prod.mk.inj seen
  cases given.symm.trans due

end CipherLake.Raft
