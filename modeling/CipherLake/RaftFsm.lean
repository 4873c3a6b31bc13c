import CipherLake.Lib.GoStrings
import CipherLake.Lib.Table
import CipherLake.Lib.Utf8

/-! `BoltFSM`: the state machine that the metadata log is applied to, over its own
database. What an operation carries is stored as it came, so it is any type here. -/
namespace CipherLake.Raft
open Lib

inductive OpType where
  | putObject
  | deleteObject
  | createBucket
  | deleteBucket
  | updateBucket
  | putObjectVersion
  | putUpload
  | deleteUpload
  | addPart
  | other (name : Bytes)
  deriving DecidableEq, Repr

structure FSMOperation (δ : Type) where
  type : OpType
  (bucket key : Bytes)
  data : δ

/-- The buckets of `fsm.db` that operations write to. -/
structure BoltFSM (δ : Type) where
  (objects objectIndex buckets versions uploads parts : Table Bytes δ)

variable {δ : Type}

variable (f : BoltFSM δ) (op : FSMOperation δ)

/-- An operation after the JSON encoding for the log. -/
def FSMOperation.decoded : FSMOperation δ :=
  { op with bucket := jsonString op.bucket, key := jsonString op.key }

/-- The key that most operations use, whatever version or upload they are about. -/
def FSMOperation.entryKey : Bytes := op.bucket ++ str "/" ++ op.key

/-- Up to the last slash. -/
def extractPrefix (key : Bytes) : Bytes := (key.reverse.dropWhile (· ≠ 47)).reverse

def applyPutObject : BoltFSM δ :=
  let indexKey := op.bucket ++ str "/" ++ extractPrefix op.key
  { f with
    objects := f.objects.put op.entryKey op.data
    objectIndex := if (f.objectIndex.get indexKey).isNone then f.objectIndex.put indexKey op.data else f.objectIndex }

def applyDeleteBucket : BoltFSM δ :=
  let start := op.bucket ++ str "/"
  let keysToDelete := ((f.objects.seek start).takeWhile fun e => hasPrefix e.1 start).map (·.1)
  { f with objects := keysToDelete.foldl Table.delete f.objects, buckets := f.buckets.delete op.bucket }

/-- `applyCreateBucket` and `applyUpdateBucket`; bolt takes no empty key. -/
def applyPutBucket : Except Bytes Unit × BoltFSM δ :=
  if op.bucket = [] then (.error (str "key required"), f)
  else (.ok (), { f with buckets := f.buckets.put op.bucket op.data })

def BoltFSM.apply : Except Bytes Unit × BoltFSM δ :=
  match op.type with
  | .putObject => (.ok (), applyPutObject f op)
  | .deleteObject => (.ok (), { f with objects := f.objects.delete op.entryKey })
  | .createBucket => applyPutBucket f op
  | .deleteBucket => (.ok (), applyDeleteBucket f op)
  | .updateBucket => applyPutBucket f op
  | .putObjectVersion => (.ok (), { f with versions := f.versions.put op.entryKey op.data })
  | .putUpload => (.ok (), { f with uploads := f.uploads.put op.entryKey op.data })
  | .deleteUpload => (.ok (), { f with uploads := f.uploads.delete op.entryKey })
  | .addPart => (.ok (), { f with parts := f.parts.put op.entryKey op.data })
  | .other name => (.error (str "unknown operation type: " ++ name), f)

end CipherLake.Raft
