import CipherLake.Lib.Table
import CipherLake.Lib.Utf8
import Mathlib.Data.List.TakeWhile

/-! The bolt-backed metadata store. Records are kept as JSON, so the strings of
a record come back in the form a JSON encoder gives them. Bucket counters and
quotas are part of the same transaction as the record. -/
namespace CipherLake.Metadata
open Lib

inductive StoreErr where
  | keyNotFound
  | bucketNotFound
  | bucketAlreadyExists (bucket : Bytes)
  | invalidKey
  | quotaExceeded
  | failed (message : Bytes)
  deriving DecidableEq, Repr

def StoreErr.text : StoreErr → Bytes
  | .keyNotFound => str "key not found"
  | .bucketNotFound => str "bucket not found"
  | .bucketAlreadyExists bucket => str "bucket already exists: " ++ bucket
  | .invalidKey => str "invalid key"
  | .quotaExceeded => str "quota exceeded"
  | .failed message => message

/-- A time in nanoseconds; zero is the zero time. -/
abbrev Time := Nat

structure ObjectMetadata where
  (key bucket : Bytes)
  size : Int
  (contentType etag checksum checksumType : Bytes)
  userMetadata : List (Bytes × Bytes)
  storageTier : Int
  (createdAt modifiedAt : Time)
  encrypted : Bool
  (encryptedDEK versionID : Bytes)
  (isLatest deleteMarker ssecUsed : Bool)
  (ssecKeySHA256 ssecAlgorithm : Bytes)
  retainUntil : Option Time
  deriving DecidableEq, Repr

/-- A record after a JSON encoding and decoding. The binary `encryptedDEK` is
encoded in base64 and comes back as it is. -/
def ObjectMetadata.decoded (m : ObjectMetadata) : ObjectMetadata :=
  { m with
    key := jsonString m.key
    bucket := jsonString m.bucket
    contentType := jsonString m.contentType
    etag := jsonString m.etag
    checksum := jsonString m.checksum
    checksumType := jsonString m.checksumType
    userMetadata := m.userMetadata.map fun e => (jsonString e.1, jsonString e.2)
    versionID := jsonString m.versionID
    ssecKeySHA256 := jsonString m.ssecKeySHA256
    ssecAlgorithm := jsonString m.ssecAlgorithm }

structure QuotaConfig where
  (maxObjects maxSizeBytes : Int)
  deriving DecidableEq, Repr

structure BucketInfo where
  acl : Bytes
  quota : Option QuotaConfig
  (objectCount totalSize : Int)
  versioning : Bool
  (ownerID ownerName region : Bytes)
  deriving DecidableEq, Repr

/-- A bucket's record after a JSON encoding and decoding. -/
def BucketInfo.decoded (info : BucketInfo) : BucketInfo :=
  { info with
    acl := jsonString info.acl
    ownerID := jsonString info.ownerID
    ownerName := jsonString info.ownerName
    region := jsonString info.region }

/-- The bolt buckets `objects`, `buckets` and `object_versions`. -/
structure Store where
  objects : Table Bytes ObjectMetadata
  buckets : Table Bytes BucketInfo
  versions : Table Bytes ObjectMetadata

def objectKey (bucket key : Bytes) : Bytes := bucket ++ str "/" ++ key

/-- The first segment of a table key: the bucket of an object or an upload, or
the upload of a part. -/
def home (k : Bytes) : Bytes := k.takeWhile (· ≠ 47)

theorem home_append (a b : Bytes) : home (a ++ str "/" ++ b) = home a := by
  have slash : str "/" = [47] := by decide
  rw [slash]
  induction a with
  | nil => rfl
  | cons c a ih =>
    unfold home at ih ⊢
    by_cases cuts : c = 47
    · simp [cuts]
    · simp only [List.cons_append, List.takeWhile_cons, cuts, ih, ne_eq, not_false_eq_true, decide_true, if_true]

theorem home_plain {a : Bytes} (plain : (47 : UInt8) ∉ a) : home a = a := by
  apply List.takeWhile_eq_self_iff.mpr
  intro c held
  simpa using ne_of_mem_of_not_mem held plain

/-- What lies under a name belongs to it. -/
theorem home_under {k a : Bytes} (under : (a ++ str "/").isPrefixOf k = true) : home k = home a := by
  obtain ⟨rest, rfl⟩ := List.isPrefixOf_iff_prefix.mp under
  exact home_append a rest

/-- What one call takes from its surroundings: a fresh version id, the clock,
and the failures of the write-ahead log and of the database. -/
structure Env where
  versionID : Bytes
  now : Time
  (walFault dbFault : Option Bytes)
  deriving DecidableEq, Repr

variable (env : Env) (s : Store) (info : BucketInfo) (m : ObjectMetadata)

def stamped : ObjectMetadata :=
  { m with
    versionID := if m.versionID = [] then env.versionID else m.versionID
    createdAt := if m.createdAt = 0 then env.now else m.createdAt
    modifiedAt := env.now
    isLatest := true }

/-- The bucket's counters after the record is written. -/
def counted (previous : Option ObjectMetadata) (m : ObjectMetadata) : BucketInfo :=
  { info with
    objectCount := if previous.isNone then int64 (info.objectCount + 1) else info.objectCount
    totalSize := int64 (info.totalSize + int64 (m.size - (previous.map (·.size)).getD 0)) }

def exceeds : Bool :=
  match info.quota with
  | none => false
  | some quota =>
    quota.maxObjects > 0 && info.objectCount > quota.maxObjects ||
      quota.maxSizeBytes > 0 && info.totalSize > quota.maxSizeBytes

/-- A refused or failed transaction is rolled back as a whole. -/
def putObject (bucket key : Bytes) (m : ObjectMetadata) : Except StoreErr Unit × Store :=
  if bucket = [] ∨ key = [] then (.error .invalidKey, s)
  else
    match env.walFault with
    | some e => (.error (.failed (str "failed to write metadata WAL: " ++ e)), s)
    | none =>
      match env.dbFault with
      | some e => (.error (.failed e), s)
      | none =>
        let at_ := objectKey bucket key
        let record := (stamped env m).decoded
        let objects := s.objects.put at_ record
        match s.buckets.get bucket with
        | none => (.ok (), { s with objects })
        | some info =>
          let info := counted info (s.objects.get at_) m
          if exceeds info then (.error .quotaExceeded, s)
          else (.ok (), { s with objects, buckets := s.buckets.put bucket info })

def getObject (bucket key : Bytes) : Except StoreErr ObjectMetadata :=
  match s.objects.get (objectKey bucket key) with
  | none => .error .keyNotFound
  | some m => .ok m

def discounted : BucketInfo :=
  { info with
    objectCount := max 0 (int64 (info.objectCount - 1))
    totalSize := max 0 (int64 (info.totalSize - m.size)) }

def deleteObject (bucket key : Bytes) : Except StoreErr Unit × Store :=
  match env.dbFault with
  | some e => (.error (.failed e), s)
  | none =>
    match s.objects.get (objectKey bucket key) with
    | none => (.ok (), s)
    | some m =>
      let buckets := match s.buckets.get bucket with
        | none => s.buckets
        | some info => s.buckets.put bucket (discounted info m)
      let versionPrefix := objectKey bucket key ++ str "/"
      let stale := (s.versions.seek versionPrefix).takeWhile fun e => versionPrefix.isPrefixOf e.1
      (.ok (), {
        objects := s.objects.delete (objectKey bucket key)
        buckets
        versions := stale.foldl (fun t e => t.delete e.1) s.versions })

def live : Bool := m.isLatest && !m.deleteMarker

/-- The cursor loop of `ListObjects`. -/
def collect (searchPrefix : Bytes) (maxKeys : Int) : Int → List (Bytes × ObjectMetadata) → List ObjectMetadata
  | _, [] => []
  | count, (k, m) :: rest =>
    if ¬ count < maxKeys then []
    else if ¬ searchPrefix.isPrefixOf k then []
    else if live m then m :: collect searchPrefix maxKeys (count + 1) rest
    else collect searchPrefix maxKeys count rest

def listObjects (bucket pre : Bytes) (maxKeys : Int) : List ObjectMetadata :=
  let searchPrefix := objectKey bucket pre
  collect searchPrefix maxKeys 0 (s.objects.seek searchPrefix)

/-! ### What the operations keep -/

variable (env : Env) (s : Store) (bucket key : Bytes) (m : ObjectMetadata)

/-- The writes of a record that do not go through. -/
def Refused (env : Env) (s : Store) (bucket key : Bytes) (m : ObjectMetadata) : Prop :=
  bucket = [] ∨ key = [] ∨ env.walFault ≠ none ∨ env.dbFault ≠ none ∨
    ∃ info, s.buckets.get bucket = some info ∧
      exceeds (counted info (s.objects.get (objectKey bucket key)) m) = true

/-- The buckets after a record is written. -/
def countedBuckets (s : Store) (bucket key : Bytes) (m : ObjectMetadata) : Table Bytes BucketInfo :=
  match s.buckets.get bucket with
  | none => s.buckets
  | some info => s.buckets.put bucket (counted info (s.objects.get (objectKey bucket key)) m)

/-- Everything a write of a record can do: it is refused and changes nothing,
or the record is in place and its bucket counts it. -/
theorem putObject_spec : (Refused env s bucket key m ∧ ∃ e, putObject env s bucket key m = (.error e, s)) ∨
    (¬ Refused env s bucket key m ∧ putObject env s bucket key m =
      (.ok (), ⟨s.objects.put (objectKey bucket key) (stamped env m).decoded, countedBuckets s bucket key m,
        s.versions⟩)) := by
  unfold putObject Refused countedBuckets
  by_cases unnamed : bucket = [] ∨ key = []
  · rw [if_pos unnamed]
    rcases unnamed with rfl | rfl <;> simp
  rw [if_neg unnamed]
  rw [not_or] at unnamed
  rcases env.walFault with - | e
  · rcases env.dbFault with - | e
    · rcases s.buckets.get bucket with - | info
      · simp [unnamed]
      · by_cases exceeded : exceeds (counted info (s.objects.get (objectKey bucket key)) m) = true <;>
          simp [unnamed, exceeded]
    · simp
  · simp

theorem putObject_cases : (∃ e, putObject env s bucket key m = (.error e, s)) ∨
    (∃ buckets, key ≠ [] ∧ bucket ≠ [] ∧ putObject env s bucket key m =
      (.ok (), ⟨s.objects.put (objectKey bucket key) (stamped env m).decoded, buckets, s.versions⟩)) := by
  rcases putObject_spec env s bucket key m with ⟨-, refused⟩ | ⟨granted, eq⟩
  · exact .inl refused
  · simp only [Refused, not_or] at granted
    exact .inr ⟨_, granted.2.1, granted.1, eq⟩

theorem putObject_ok_iff : (putObject env s bucket key m).1 = .ok () ↔ ¬ Refused env s bucket key m := by
  rcases putObject_spec env s bucket key m with ⟨refused, e, eq⟩ | ⟨granted, eq⟩
  · simp [eq, refused]
  · simp [eq, granted]

/-- Everything a removal can do to the records. -/
theorem deleteObject_objects : (deleteObject env s bucket key).2.objects = s.objects ∨
      (deleteObject env s bucket key).2.objects = s.objects.delete (objectKey bucket key) := by
  unfold deleteObject
  split
  · exact .inl rfl
  · split
    · exact .inl rfl
    · exact .inr rfl

/-- A failed write changes nothing. -/
theorem putObject_error {env : Env} {s : Store} {bucket key : Bytes} {m : ObjectMetadata} {e : StoreErr}
    (failed : (putObject env s bucket key m).1 = .error e) : (putObject env s bucket key m).2 = s := by
  rcases putObject_cases env s bucket key m with ⟨_, eq⟩ | ⟨_, -, -, eq⟩
  · rw [eq]
  · rw [eq] at failed
    cases failed

theorem getObject_putObject {env : Env} {s : Store} {bucket key : Bytes} {m : ObjectMetadata}
    (done : (putObject env s bucket key m).1 = .ok ()) :
    getObject (putObject env s bucket key m).2 bucket key = .ok (stamped env m).decoded := by
  rcases putObject_cases env s bucket key m with ⟨_, eq⟩ | ⟨_, -, -, eq⟩
  · rw [eq] at done
    cases done
  · rw [eq, getObject]
    simp

end CipherLake.Metadata
