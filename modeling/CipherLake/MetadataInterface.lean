import CipherLake.Buckets
import CipherLake.Multipart

/-! The interface of the metadata store as a whole: the reads and writes that the
handlers modelled elsewhere do not make, and all of them as one type of calls on the
bolt database. -/
namespace CipherLake.Metadata
open Lib Gateway Buckets Multipart

/-! ### Versions and lists -/

def versionKey (bucket key versionID : Bytes) : Bytes := objectKey bucket key ++ str "/" ++ versionID

def putObjectVersion (env : Env) (s : Store) (bucket key : Bytes) (m : ObjectMetadata) : Except StoreErr Unit × Store :=
  let m := { m with
    versionID := if m.versionID = [] then env.versionID else m.versionID
    createdAt := if m.createdAt = 0 then env.now else m.createdAt
    modifiedAt := env.now }
  match env.dbFault with
  | some e => (.error (.failed e), s)
  | none => (.ok (), { s with versions := s.versions.put (versionKey bucket key m.versionID) m.decoded })

def getObjectVersion (s : Store) (bucket key versionID : Bytes) : Except StoreErr ObjectMetadata :=
  match s.versions.get (versionKey bucket key versionID) with
  | none => .error (.failed (str "version not found"))
  | some m => .ok m

def listObjectVersions (s : Store) (bucket key : Bytes) (maxVersions : Int) : List ObjectMetadata :=
  let start := objectKey bucket key ++ str "/"
  (((s.versions.seek start).takeWhile fun e => hasPrefix e.1 start).map (·.2)).take maxVersions.toNat

def listBuckets (s : Store) : List BucketInfo := s.buckets.entries.map (·.2)

def listExpiredUploads (now : Time) (s : Uploads) : List MultipartUpload :=
  (s.uploads.entries.map (·.2)).filter fun upload => upload.expiresAt ≤ now

structure ListResult where
  objects : List ObjectMetadata
  commonPrefixes : List Bytes
  isTruncated : Bool
  nextMarker : Bytes
  deriving DecidableEq, Repr

/-- The cursor loop of `ListObjectsWithDelimiter`. It cuts the prefix off twice, and
panics at a key that is too short for that. -/
def collectDelimited (searchPrefix pre delimiter : Bytes) (maxKeys : Int) :
    List ObjectMetadata → List Bytes → List (Bytes × ObjectMetadata) → Option (List ObjectMetadata × List Bytes)
  | objects, prefixes, [] => some (objects, prefixes)
  | objects, prefixes, (k, m) :: rest =>
    let tail := k.drop searchPrefix.length
    let remainder := tail.drop pre.length
    if ¬ (objects.length < maxKeys ∧ hasPrefix k searchPrefix) then some (objects, prefixes)
    else if tail.length < pre.length then none
    else
      match if delimiter = [] then none else index remainder delimiter with
      | some i =>
        let common := pre ++ remainder.take (i + delimiter.length)
        let prefixes := if common ∈ prefixes then prefixes else prefixes ++ [common]
        collectDelimited searchPrefix pre delimiter maxKeys objects prefixes rest
      | none =>
        let objects := if live m then objects ++ [m] else objects
        collectDelimited searchPrefix pre delimiter maxKeys objects prefixes rest

def listObjectsWithDelimiter (s : Store) (bucket pre delimiter : Bytes) (maxKeys : Int) : Option ListResult :=
  let searchPrefix := objectKey bucket pre
  (collectDelimited searchPrefix pre delimiter maxKeys [] [] (s.objects.seek searchPrefix)).map fun found =>
    let isTruncated := found.1.length = maxKeys
    ⟨found.1, found.2, isTruncated, if isTruncated then (found.1.getLast?.map (·.key)).getD [] else []⟩

/-! ### Calls -/

inductive Write where
  | putObject (bucket key : Bytes) (m : ObjectMetadata)
  | deleteObject (bucket key : Bytes)
  | createBucket (bucket : Bytes) (info : Option BucketInfo)
  | deleteBucket (bucket : Bytes)
  | updateBucket (bucket : Bytes) (info : Option BucketInfo)
  | putObjectVersion (bucket key : Bytes) (m : ObjectMetadata)
  | putUpload (upload : MultipartUpload)
  | deleteUpload (bucket key uploadID : Bytes)
  | addPart (uploadID : Bytes) (part : UploadPart)

/-- A call on the database. The null that `UpdateBucket` stores for a missing record
reads as the blank one. -/
def Write.perform (env : Env) (d : Database) : Write → Except StoreErr Unit × Database
  | .putObject bucket key m =>
    let (answer, store) := Metadata.putObject env d.store bucket key m
    (answer, { d with store })
  | .deleteObject bucket key =>
    let (answer, store) := Metadata.deleteObject env d.store bucket key
    (answer, { d with store })
  | .createBucket bucket info =>
    let (answer, store) := Buckets.createBucket env d.store bucket info
    (answer, { d with store })
  | .deleteBucket bucket => Buckets.deleteBucket env d bucket
  | .updateBucket bucket info =>
    let (answer, store) := Buckets.updateBucket env d.store bucket (info.getD blankInfo)
    (answer, { d with store })
  | .putObjectVersion bucket key m =>
    let (answer, store) := Metadata.putObjectVersion env d.store bucket key m
    (answer, { d with store })
  | .putUpload upload =>
    let (answer, uploads) := Multipart.putUpload env.dbFault env.now env.versionID d.uploads upload
    (answer.mapError .failed, { d with uploads })
  | .deleteUpload bucket key uploadID =>
    let (answer, uploads) := Multipart.deleteUpload env.dbFault d.uploads bucket key uploadID
    (answer, { d with uploads })
  | .addPart uploadID part =>
    let (answer, uploads) := Multipart.addPart env.dbFault d.uploads uploadID part
    (answer.mapError .failed, { d with uploads })

inductive Read where
  | getObject (bucket key : Bytes)
  | listObjects (bucket pre : Bytes) (maxKeys : Int)
  | listObjectsWithDelimiter (bucket pre delimiter : Bytes) (maxKeys : Int)
  | getBucket (bucket : Bytes)
  | listBuckets
  | getObjectVersion (bucket key versionID : Bytes)
  | listObjectVersions (bucket key : Bytes) (maxVersions : Int)
  | getUpload (bucket key uploadID : Bytes)
  | listUploads (bucket : Bytes)
  | listExpiredUploads
  | getParts (uploadID : Bytes)

inductive Result where
  | object (answer : Except StoreErr ObjectMetadata)
  | objects (listed : List ObjectMetadata)
  | listing (listed : Option ListResult)
  | bucket (answer : Except StoreErr BucketInfo)
  | buckets (listed : List BucketInfo)
  | upload (answer : Except StoreErr MultipartUpload)
  | uploads (listed : List MultipartUpload)
  | parts (listed : List UploadPart)

def Read.result (now : Time) (d : Database) : Read → Result
  | .getObject bucket key => .object (Metadata.getObject d.store bucket key)
  | .listObjects bucket pre maxKeys => .objects (Metadata.listObjects d.store bucket pre maxKeys)
  | .listObjectsWithDelimiter bucket pre delimiter maxKeys =>
    .listing (Metadata.listObjectsWithDelimiter d.store bucket pre delimiter maxKeys)
  | .getBucket bucket => .bucket (Buckets.getBucket d.store bucket)
  | .listBuckets => .buckets (Metadata.listBuckets d.store)
  | .getObjectVersion bucket key versionID => .object (Metadata.getObjectVersion d.store bucket key versionID)
  | .listObjectVersions bucket key maxVersions => .objects (Metadata.listObjectVersions d.store bucket key maxVersions)
  | .getUpload bucket key uploadID => .upload (Multipart.getUpload d.uploads bucket key uploadID)
  | .listUploads bucket => .uploads (Multipart.listUploads now d.uploads bucket)
  | .listExpiredUploads => .uploads (Metadata.listExpiredUploads now d.uploads)
  | .getParts uploadID => .parts (Multipart.recordedParts d.uploads uploadID)

end CipherLake.Metadata
