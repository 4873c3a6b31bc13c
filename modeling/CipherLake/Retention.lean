import CipherLake.BatchDeletion
import CipherLake.CacheCoherence
import CipherLake.FailedOverwrites

/-! Objects under a retention lock. The lock is looked at by the deletion of a
single object and by nothing else: a write replaces the object together with its
lock, and a batch of deletions removes it. So an object stays for its time in the
runs whose writes and batches do not meet its record or its file. -/
namespace CipherLake.Retention
open Lib Http AccessControl Metadata Storage Gateway Multipart Resumable ObjectWrites FailedOverwrites BatchDeletion

variable {κ : Type}

/-- The requests that store or delete objects. -/
inductive Op (κ : Type) where
  | write (bucket key : Bytes) (task : Write κ)
  | delete (call : Call κ) (r : Request) (bucket key : Bytes)
  | deleteMany (call : Call κ) (parse : Bytes → Except Bytes (List Bytes × Bool)) (r : Request) (bucket : Bytes)

def writeRequest : Write κ → Request
  | .put _ r | .copy _ r | .complete _ _ r | .finalize _ _ r => r

def Op.call : Op κ → Call κ
  | .write _ _ task => task.call
  | .delete call _ _ _ | .deleteMany call _ _ _ => call

def Op.request : Op κ → Request
  | .write _ _ task => writeRequest task
  | .delete _ r _ _ | .deleteMany _ _ r _ => r

/-- The request is processed before this time, and does not ask for the lock to
be passed over. -/
structure Ordinary (until_ : Time) (op : Op κ) : Prop where
  early : op.call.db.now < until_
  plain : op.request.headerGet (str "x-amz-bypass-governance-retention") = []

def answer (g : Config) (w : World κ) : Op κ → Option (Reply × World κ)
  | .write bucket key task => task.handle g bucket key w
  | .delete call r bucket key => handleDeleteObject g call w r bucket key
  | .deleteMany call parse r bucket => postBucket g call parse w r bucket

def next (g : Config) (w : World κ) (op : Op κ) : Option (World κ) := (answer g w op).map (·.2)

/-- A request that does not meet an object. If the data of a write reaches the
store, it lies elsewhere, and if it is recorded, then under another name. The
data of an object that may be deleted lies elsewhere. No round of a batch strikes
the object. -/
def Misses (g : Config) (home name : Bytes) (root : Path) (w : World κ) : Op κ → Prop
  | .write bucket key task =>
    match task.prepare g bucket key w with
    | some (.ok (_, p)) =>
      ∀ hot, Written g task.call bucket key w p.plan hot →
        objectPath hot bucket key ≠ objectPath root home name ∧
          (Rejected task.call bucket key w p ∨
            objectKey bucket key ≠ objectKey home name ∧ ¬ CacheCoherence.Sweeps g (objectPath root home name) task)
    | _ => True
  | .delete call r bucket key =>
    ∀ m place, getObject w.metadata bucket key = .ok m → retained call r m = false →
      g.tiers m.storageTier = some place → objectPath place bucket key ≠ objectPath root home name
  | .deleteMany call parse r bucket =>
    ∀ identity logins keys, BatchDeletion.Reaches g call parse w r bucket identity logins keys →
      Passed g call bucket home name { w with logins } keys

section
variable {g : Config} {bucket key home name : Bytes} {w w' : World κ} {m : ObjectMetadata} {root : Path}
  {data : Bytes} {reply : Reply}

/-- A write that misses an object leaves its record and its data. -/
theorem write_misses {write : Write κ} (held : Held g home name w m root data)
    (misses : Misses g home name root w (.write bucket key write))
    (done : write.handle g bucket key w = some (reply, w')) : Held g home name w' m root data := by
  rcases handle_cases done with ⟨-, -, logins, keys, rfl⟩ | ⟨_, p, prepared, ⟨logins, keys, rfl⟩, stored⟩
  · exact ⟨held.record, held.tier, held.file⟩
  simp only [Misses, prepared] at misses
  rcases stored with ⟨e, fs, -, unwritten, rfl⟩ | ⟨fs, put, stored⟩
  · exact ⟨held.record, held.tier, (put_error unwritten).2 _ _ held.file⟩
  obtain ⟨hot, made, registered, writable, grown, entries⟩ := put_ok put
  obtain ⟨elsewhere, unrecorded⟩ := misses hot ⟨registered, writable⟩
  have kept : fs.entry (objectPath root home name) = some (.file data) := by
    rw [entries, if_neg elsewhere.symm]
    exact grown.file.mpr held.file
  rcases stored with ⟨-, rejected, rfl⟩ | ⟨checksum, metadata, accepted, recorded, concluded⟩
  · have there : fs.entry (objectPath hot bucket key) = some (.file p.plan.data.bytes) := by rw [entries, if_pos rfl]
    refine ⟨held.record, held.tier, ?_⟩
    rw [@takeBack_entry κ g bucket key { w with logins, keys, fs } hot _ write.call registered there]
    rw [if_neg fun both => elsewhere both.1.symm]
    exact kept
  · obtain ⟨apart, unswept⟩ := unrecorded.resolve_left accepted
    obtain ⟨fs', uploads, sessions, shape, files⟩ := CacheCoherence.conclude_shape prepared
      { w with logins, keys, fs, metadata } (p.record checksum)
    rw [concluded] at shape
    obtain rfl : w' = _ := shape
    refine ⟨?_, held.tier, (files _ unswept).trans kept⟩
    rcases putObject_cases write.call.db w.metadata bucket key (p.record checksum) with
      ⟨e, refused⟩ | ⟨buckets, -, -, eq⟩
    · rw [refused] at recorded
      cases recorded
    rw [eq] at recorded
    obtain rfl := (Prod.mk.inj recorded).2
    have record := held.record
    unfold getObject at record ⊢
    rw [Table.get_put_ne _ _ apart]
    exact record

theorem held_of_left (held : Held g home name w m root data) (left : Left g home name w w') :
    Held g home name w' m root data := by
  refine ⟨(getObject_record left.record).trans held.record, held.tier, ?_⟩
  rw [left.data m root held.record held.tier]
  exact held.file

variable {call : Call κ} {r : Request}

/-- A marker or a removal under another name leaves an object whose data lies
elsewhere. -/
theorem deleteExisting_left (found : getObject w.metadata bucket key = .ok m)
    (done : deleteExisting g call w r bucket key m = (reply, w'))
    (apart : retained call r m = false → objectKey bucket key ≠ objectKey home name ∧
      ∀ place, g.tiers m.storageTier = some place → ∀ m' root', getObject w.metadata home name = .ok m' →
        g.tiers m'.storageTier = some root' → objectPath place bucket key ≠ objectPath root' home name) :
    Left g home name w w' := by
  unfold deleteExisting at done
  split at done
  · cases done
    exact Left.refl w
  rename_i free
  obtain ⟨names, places⟩ := apart (Bool.eq_false_iff.mpr free)
  split at done
  · rcases putObject_cases call.db w.metadata bucket key (deleteMarkerOf call bucket key m) with
      ⟨e, refused⟩ | ⟨buckets, -, -, marked⟩
    · simp only [refused] at done
      cases done
      exact Left.refl w
    · simp only [marked] at done
      obtain ⟨logins, rfl⟩ := CacheCoherence.deletedReply_world done
      exact ⟨Table.get_put_ne _ _ names, fun _ _ _ _ => rfl⟩
  · have removed : removeNext g call bucket w key = (removeObject g call w bucket key m).2 := by
      simp only [removeNext, found]
    have left : Left g home name w (removeNext g call bucket w key) := by
      rw [removeNext_left]
      rintro ⟨m₁, place, found₁, registered, -, ⟨own, -⟩ | ⟨m', root', found', registered', shared, -⟩⟩
      · exact names own
      · cases found.symm.trans found₁
        exact places place registered m' root' found' registered' shared.symm
    rw [removed] at left
    rcases removing : removeObject g call w bucket key m with ⟨⟨part, e⟩ | ⟨⟩, w₁⟩
    · rw [removing] at left
      simp only [removing] at done
      cases done
      exact left
    · rw [removing] at left
      simp only [removing] at done
      obtain ⟨logins, rfl⟩ := CacheCoherence.deletedReply_world done
      exact ⟨left.record, left.data⟩

/-- A deletion that misses an object leaves it, and the lock keeps the deletion of
the object itself away. -/
theorem delete_misses {until_ : Time} (held : Held g home name w m root data)
    (locked : m.retainUntil = some until_) (ordinary : Ordinary until_ (.delete call r bucket key))
    (misses : Misses g home name root w (.delete call r bucket key))
    (done : handleDeleteObject g call w r bucket key = some (reply, w')) : Held g home name w' m root data := by
  have early : call.db.now < until_ := ordinary.early
  have plain : r.headerGet (str "x-amz-bypass-governance-retention") = [] := ordinary.plain
  unfold handleDeleteObject at done
  split at done
  · cases done
    exact held
  rcases identified_cases done with ⟨logins, rfl, -⟩ | ⟨_, logins, -, goesOn⟩
  · exact ⟨held.record, held.tier, held.file⟩
  split at goesOn
  · cases goesOn
    exact ⟨held.record, held.tier, held.file⟩
  rename_i m₁ found
  have held₁ : Held g home name { w with logins } m root data := ⟨held.record, held.tier, held.file⟩
  refine held_of_left held₁ (deleteExisting_left found (Option.some.inj goesOn) fun free => ⟨?_, ?_⟩)
  · -- under the object's own name its record is found, which is locked
    intro own
    have same : getObject w.metadata bucket key = .ok m := by
      have record := held.record
      unfold getObject at record ⊢
      rw [own]
      exact record
    cases same.symm.trans found
    have bypass : ([] : Bytes) ≠ str "true" := by decide
    simp [retained, locked, plain, bypass, early] at free
  · intro place registered m' root' found' registered'
    cases held.record.symm.trans found'
    cases held.tier.symm.trans registered'
    exact misses m₁ place found free registered

theorem deleteMany_misses {parse : Bytes → Except Bytes (List Bytes × Bool)}
    (held : Held g home name w m root data) (misses : Misses g home name root w (.deleteMany call parse r bucket))
    (done : postBucket g call parse w r bucket = some (reply, w')) : Held g home name w' m root data := by
  rcases postBucket_cases done with ⟨-, logins, rfl⟩ | ⟨identity, logins, keys, reaches, rfl⟩
  · exact ⟨held.record, held.tier, held.file⟩
  · have same : Left g home name w { w with logins } := ⟨rfl, fun _ _ _ _ => rfl⟩
    have left := (foldl_left keys { w with logins }).mpr (misses identity logins keys reaches)
    exact held_of_left held (same.iff_right.mpr left)

end

/-- In a run of ordinary requests, all of which miss a locked object, the object
has its record with the lock, and its data, in every state. -/
theorem locked_object_stays (g : Config) (home name : Bytes) (w : World κ) (m : ObjectMetadata) (root : Path)
    (data : Bytes) (until_ : Time) (ops : List (Op κ)) (held : Held g home name w m root data)
    (locked : m.retainUntil = some until_) (ordinary : ∀ op ∈ ops, Ordinary until_ op)
    (misses : Runs.Throughout (next g) (Misses g home name root) w ops) :
    Runs.Always (next g) (fun w => Held g home name w m root data) w ops := by
  refine misses.always (fun op listed s s' stepped held missed => ?_) held
  obtain ⟨⟨_, _⟩, answered, rfl⟩ := Option.map_eq_some_iff.mp stepped
  cases op with
  | write bucket key task => exact write_misses held missed answered
  | delete call r bucket key => exact delete_misses held locked (ordinary _ listed) missed answered
  | deleteMany call parse r bucket => exact deleteMany_misses held missed answered

open FailedOverwrites.Sample

namespace Sample

/-- The object of the private bucket, locked until 100. -/
def photo : ObjectMetadata := { Gateway.Sample.photo with retainUntil := some 100 }

def world : World Unit :=
  { Gateway.Sample.world with
    metadata := { Gateway.Sample.world.metadata with
      objects := Table.empty.put (objectKey (str "photos") (str "cat.jpg")) photo } }

theorem held : Held config (str "photos") (str "cat.jpg") world photo [str "hot"] (str "meow") :=
  ⟨by decide +kernel, by decide +kernel, by decide +kernel⟩

def put (key : Bytes) : Op Unit := .write (str "photos") key (FailedOverwrites.Sample.put [])

def batch : Op Unit :=
  .deleteMany Gateway.Sample.call BatchDeletion.Sample.parse { BatchDeletion.Sample.request with header := [] }
    (str "photos")

def delete : Op Unit :=
  .delete Gateway.Sample.call { Gateway.Sample.request [] with method := str "DELETE" } (str "photos") (str "cat.jpg")

theorem ordinary {op : Op Unit} (time : op.call.db.now = 7) (bare : op.request.header = []) : Ordinary 100 op := by
  refine ⟨by rw [time]; decide, ?_⟩
  simp [Request.headerGet, Request.headerValues, bare]

/-- What is left of the object: the time of its lock, and its data. -/
def left (w : World Unit) : Option (Option Time) × Option Entry :=
  ((w.metadata.objects.get (objectKey (str "photos") (str "cat.jpg"))).map (·.retainUntil),
    w.fs.entry [str "hot", str "photos", str "cat.jpg"])

theorem not_always {op : Op Unit} {w : World Unit} (stepped : next config world op = some w)
    (lost : left w ≠ (some (some 100), some (.file (str "meow")))) :
    ¬ Runs.Always (next config) (fun w => Held config (str "photos") (str "cat.jpg") w photo [str "hot"] (str "meow"))
      world [op] := by
  intro always
  have after := (always.2 w stepped).here
  have record := after.record
  unfold getObject at record
  split at record
  · cases record
  rename_i m found
  cases record
  refine lost (Prod.ext ?_ after.file)
  simp only [left, found]
  rfl

end Sample

/-- A locked object is overwritten by a `PUT`, which drops the lock, and it is
removed by a batch of deletions. -/
theorem locked_object_lost : Held config (str "photos") (str "cat.jpg") Sample.world Sample.photo [str "hot"]
        (str "meow") ∧
      Sample.photo.retainUntil = some 100 ∧ Ordinary 100 (Sample.put (str "cat.jpg")) ∧ Ordinary 100 Sample.batch ∧
      (∃ w, next config Sample.world (Sample.put (str "cat.jpg")) = some w ∧
        Sample.left w = (some none, some (.file (str "woof")))) ∧
      (∃ w, next config Sample.world Sample.batch = some w ∧ Sample.left w = (none, none)) ∧
      ∀ op ∈ [Sample.put (str "cat.jpg"), Sample.batch], ¬ Runs.Always (next config)
        (fun w => Held config (str "photos") (str "cat.jpg") w Sample.photo [str "hot"]
          (str "meow")) Sample.world [op] := by
  have overwritten : (next config Sample.world (Sample.put (str "cat.jpg"))).map Sample.left =
      some (some none, some (.file (str "woof"))) := by decide +kernel
  have removed : (next config Sample.world Sample.batch).map Sample.left = some (none, none) := by decide +kernel
  obtain ⟨w₁, put, seen₁⟩ := Option.map_eq_some_iff.mp overwritten
  obtain ⟨w₂, batch, seen₂⟩ := Option.map_eq_some_iff.mp removed
  refine ⟨Sample.held, rfl, Sample.ordinary rfl rfl, Sample.ordinary rfl rfl, ⟨w₁, put, seen₁⟩, ⟨w₂, batch, seen₂⟩, ?_⟩
  intro op listed
  rcases List.mem_cons.mp listed with rfl | listed
  · exact Sample.not_always put (by rw [seen₁]; decide)
  · obtain rfl := List.mem_singleton.mp listed
    exact Sample.not_always batch (by rw [seen₂]; decide)

/-- The deletion of the object itself, and a write to another one, leave it. -/
theorem locked_object_kept : Runs.Always (next config)
      (fun w => Held config (str "photos") (str "cat.jpg") w Sample.photo [str "hot"]
        (str "meow")) Sample.world [Sample.delete, Sample.put (str "dog.jpg")] := by
  refine locked_object_stays config (str "photos") (str "cat.jpg") Sample.world Sample.photo
    [str "hot"] (str "meow") 100 [Sample.delete, Sample.put (str "dog.jpg")] Sample.held rfl ?_ ?_
  · intro op listed
    rcases List.mem_cons.mp listed with rfl | listed
    · exact Sample.ordinary rfl rfl
    · obtain rfl := List.mem_singleton.mp listed
      exact Sample.ordinary rfl rfl
  · refine fun w₁ _ => ⟨?_, fun w₂ _ => ⟨?_, trivial⟩⟩
    · -- the object itself is locked
      intro m place found free
      cases Sample.held.record.symm.trans found
      have locked : retained Sample.delete.call Sample.delete.request Sample.photo = true := by decide +kernel
      exact nomatch locked.symm.trans free
    · simp only [Misses, Sample.put]
      split
      · intro hot written
        have root : config.tiers tierHot = some [str "hot"] := by decide +kernel
        cases root.symm.trans written.1
        exact ⟨by decide +kernel, Or.inr ⟨by decide, id⟩⟩
      · trivial

end CipherLake.Retention
