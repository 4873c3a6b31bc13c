import CipherLake.Gateway

/-! The buckets of the metadata store: making, changing and deleting them. A
deletion is one transaction over all tables, and finds what belongs to the
bucket by the text of the keys. -/
namespace CipherLake.Buckets
open Lib Metadata Gateway

/-- The tables of the bolt database that a bucket has entries in. -/
structure Database where
  store : Store
  uploads : Uploads
  sessions : Table Bytes ResumableSession

/-- The record `CreateBucket` makes if it is given none. -/
def blankInfo : BucketInfo := ⟨[], none, 0, 0, false, [], [], []⟩

def createBucket (env : Env) (s : Store) (bucket : Bytes) (info : Option BucketInfo) : Except StoreErr Unit × Store :=
  if bucket = [] then (.error .invalidKey, s)
  else
    match env.dbFault with
    | some e => (.error (.failed e), s)
    | none =>
      match s.buckets.get bucket with
      | some _ => (.error (.bucketAlreadyExists bucket), s)
      | none => (.ok (), { s with buckets := s.buckets.put bucket (info.getD blankInfo).decoded })

def getBucket (s : Store) (bucket : Bytes) : Except StoreErr BucketInfo :=
  match s.buckets.get bucket with
  | none => .error .bucketNotFound
  | some info => .ok info

/-- `UpdateBucket`; bolt takes no empty key. -/
def updateBucket (env : Env) (s : Store) (bucket : Bytes) (info : BucketInfo) : Except StoreErr Unit × Store :=
  match env.dbFault with
  | some e => (.error (.failed e), s)
  | none =>
    if bucket = [] then (.error (.failed (str "key required")), s)
    else (.ok (), { s with buckets := s.buckets.put bucket info.decoded })

/-- The keys a cursor finds by their beginning. -/
def keysUnder (start : Bytes) (t : Table Bytes β) : List Bytes :=
  (t.entries.filter fun e => hasPrefix e.1 start).map (·.1)

/-- The parts recorded under the ids of uploads. -/
def deleteParts (uploadIDs : List Bytes) (parts : Table Bytes UploadPart) : Table Bytes UploadPart :=
  uploadIDs.foldl (fun parts uploadID =>
    (((parts.seek (uploadID ++ str "/")).takeWhile fun e => hasPrefix e.1 (uploadID ++ str "/")).map (·.1)).foldl
      Table.delete parts) parts

def deleteBucket (env : Env) (d : Database) (bucket : Bytes) : Except StoreErr Unit × Database :=
  match env.dbFault with
  | some e => (.error (.failed e), d)
  | none =>
    let start := bucket ++ str "/"
    let uploadIDs := ((d.uploads.uploads.entries.filter fun e => hasPrefix e.1 start).map (·.2.uploadID)).filter (· ≠ [])
    let resumable := (d.sessions.entries.filter fun e => e.2.bucket = bucket).map (·.1)
    (.ok (), {
      store := {
        objects := (keysUnder start d.store.objects).foldl Table.delete d.store.objects
        versions := (keysUnder start d.store.versions).foldl Table.delete d.store.versions
        buckets := d.store.buckets.delete bucket }
      uploads := {
        uploads := (keysUnder start d.uploads.uploads).foldl Table.delete d.uploads.uploads
        parts := deleteParts uploadIDs d.uploads.parts }
      sessions := resumable.foldl Table.delete d.sessions })

/-! ### What the operations do to the records -/

theorem createBucket_cases (env : Env) (s : Store) (bucket : Bytes) (info : Option BucketInfo) :
    (∃ e, createBucket env s bucket info = (.error e, s) ∧
      (bucket = [] ∨ env.dbFault ≠ none ∨ s.buckets.get bucket ≠ none)) ∨
    (createBucket env s bucket info =
        (.ok (), { s with buckets := s.buckets.put bucket (info.getD blankInfo).decoded }) ∧
      bucket ≠ [] ∧ env.dbFault = none ∧ s.buckets.get bucket = none) := by
  unfold createBucket
  by_cases unnamed : bucket = []
  · exact .inl ⟨_, if_pos unnamed, .inl unnamed⟩
  rw [if_neg unnamed]
  cases env.dbFault with
  | some e => exact .inl ⟨_, rfl, by simp⟩
  | none =>
    cases present : s.buckets.get bucket with
    | some info => exact .inl ⟨_, rfl, by simp⟩
    | none => exact .inr ⟨rfl, unnamed, rfl, rfl⟩

/-- Deleting the keys found by their beginning keeps the other keys. -/
theorem foldl_keysUnder (start : Bytes) (t : Table Bytes β) :
    (keysUnder start t).foldl Table.delete t = t.restrict fun k => !hasPrefix k start := by
  rw [Table.foldl_delete]
  unfold Table.restrict
  congr 1
  refine List.filter_congr fun e member => ?_
  have found : e.1 ∈ keysUnder start t ↔ hasPrefix e.1 start = true := by
    simp only [keysUnder, List.mem_map, List.mem_filter]
    constructor
    · rintro ⟨_, ⟨-, has⟩, same⟩
      exact same ▸ has
    · intro has
      exact ⟨e, ⟨member, has⟩, rfl⟩
  simp [found]

end CipherLake.Buckets
