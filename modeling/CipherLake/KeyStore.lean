import CipherLake.Coordinator
import CipherLake.Lib.Base64
import CipherLake.Lib.Files
import CipherLake.Storage

/-! `KeyStoreService`: the wrapped data keys, one file each in a directory for
their bucket, with all of them in memory. -/
namespace CipherLake.KeyStore
open Lib Storage
open Coordinator (EncryptedDEK)

structure KeyEntry where
  (keyID bucket objectKey encryptedKey algorithm : Bytes)
  (keyVersion createdAt objectSize : Int)
  deriving DecidableEq, Repr

variable (entry : KeyEntry) (J : Json) (faults : Faults) (t : FileTree)

def KeyEntry.dek : EncryptedDEK :=
  ⟨entry.encryptedKey, entry.algorithm, entry.keyID, entry.keyVersion⟩

/-- An entry after a JSON encoding and decoding. -/
def KeyEntry.coerced : KeyEntry :=
  { entry with
    keyID := jsonString entry.keyID
    bucket := jsonString entry.bucket
    objectKey := jsonString entry.objectKey
    algorithm := jsonString entry.algorithm }

/-- `encoding/json` on entries. A creation time may be one that cannot be
written. -/
structure Json where
  marshal : KeyEntry → Except Bytes Bytes
  unmarshal : Bytes → Except Bytes KeyEntry
  inverse : ∀ entry data, marshal entry = .ok data → unmarshal data = .ok entry.coerced

/-- What goes wrong while a key is written to its file. -/
structure Faults where
  mkdir : Path → Option Errno
  create : Option Errno
  write : Option (Nat × Errno)
  rename : Option Errno

/-- The service's memory and the files. -/
structure World where
  dataPath : Path
  keys : Table Bytes KeyEntry
  disk : FileTree

def makeKeyIndex (bucket objectKey : Bytes) : Bytes := bucket ++ str "/" ++ objectKey

def encodeObjectKey (key : Bytes) : Bytes := Base64.encode key

def generateKeyID (random : Bytes) : Bytes := Base64.encode random

/-! ### Files -/

def keyFileName (objectKey : Bytes) : Bytes := encodeObjectKey objectKey ++ str ".key"

def keyFile (dataPath : Path) (bucket objectKey : Bytes) : Path :=
  Path.join (Path.join dataPath bucket) (keyFileName objectKey)

/-- `os.WriteFile`. What could not be written to the end is left as it is. -/
def writeFile (path : Path) (data : Bytes) : Except Bytes Unit × FileTree :=
  match faults.create, t.create path with
  | some e, _ => (.error (pathError "open" path e), t)
  | none, (.error e, t) => (.error (pathError "open" path e), t)
  | none, (.ok (), t) =>
    match faults.write with
    | some (n, e) => (.error (pathError "write" path e), t.append path (data.take n))
    | none => (.ok (), t.append path data)

/-- The end of `persistKey`: the file is written under another name first. -/
def writeAtomically (tmpFile keyFile : Path) (data : Bytes) : Except Bytes Unit × FileTree :=
  match writeFile faults t tmpFile data with
  | (.error e, t) => (.error (str "failed to write key file: " ++ e), t)
  | (.ok (), t) =>
    match faults.rename, t.rename tmpFile keyFile with
    | some e, _ => (.error (renameError tmpFile keyFile e), t)
    | none, (.error e, t) => (.error (renameError tmpFile keyFile e), t)
    | none, (.ok (), t) => (.ok (), t)

def persistKey (dataPath : Path) (t : FileTree) (entry : KeyEntry) : Except Bytes Unit × FileTree :=
  let bucketDir := Path.join dataPath entry.bucket
  match t.mkdirAll faults.mkdir [] bucketDir with
  | (.error (path, e), t) => (.error (str "failed to create bucket directory: " ++ pathError "mkdir" path e), t)
  | (.ok (), t) =>
    match J.marshal entry with
    | .error e => (.error (str "failed to marshal key entry: " ++ e), t)
    | .ok data =>
      let keyFile := Path.join bucketDir (keyFileName entry.objectKey)
      let tmpFile := Path.join bucketDir (keyFileName entry.objectKey ++ str ".tmp")
      writeAtomically faults t tmpFile keyFile data

def loadKey (fault : Option Errno) (w : World) (bucket objectKey : Bytes) : Except Bytes KeyEntry :=
  let keyFile := keyFile w.dataPath bucket objectKey
  match fault, w.disk.readFile keyFile with
  | some e, _ => .error (str "failed to read key file: " ++ pathError "open" keyFile e)
  | none, .error e => .error (str "failed to read key file: " ++ pathError "open" keyFile e)
  | none, .ok data =>
    match J.unmarshal data with
    | .error e => .error (str "failed to unmarshal key entry: " ++ e)
    | .ok entry => .ok entry

def deleteKeyFile (fault : Option Errno) (w : World) (bucket objectKey : Bytes) : Except Bytes Unit × FileTree :=
  let keyFile := keyFile w.dataPath bucket objectKey
  match fault, w.disk.remove keyFile with
  | some e, _ => (.error (pathError "remove" keyFile e), w.disk)
  | none, (.error e, t) => (.error (pathError "remove" keyFile e), t)
  | none, (.ok (), t) => (.ok (), t)

/-- The entries in the directory of one bucket. Files that cannot be read or
decoded are passed over. -/
def bucketEntries (unreadable : Path → Option Errno) (t : FileTree) (bucketPath : Path) : List KeyEntry :=
  match unreadable bucketPath, t.readDir bucketPath with
  | none, .ok keyFiles =>
    keyFiles.filterMap fun file =>
      if Lib.Path.ext file.1 ≠ str ".key" then none
      else
        match unreadable (bucketPath ++ [file.1]), t.readFile (bucketPath ++ [file.1]) with
        | none, .ok data => (J.unmarshal data).toOption
        | _, _ => none
  | _, _ => []

/-- What `loadAllKeys` finds. A directory that cannot be listed is only warned
about. -/
def storedEntries (unreadable : Path → Option Errno) (dataPath : Path) (t : FileTree) : List KeyEntry :=
  match unreadable dataPath, t.readDir dataPath with
  | none, .ok buckets =>
    buckets.flatMap fun bucket =>
      match bucket with
      | (name, .dir) => bucketEntries J unreadable t (dataPath ++ [name])
      | (_, .file _) => []
  | _, _ => []

def loadAllKeys (unreadable : Path → Option Errno) (dataPath : Path) (t : FileTree) : Table Bytes KeyEntry :=
  (storedEntries J unreadable dataPath t).foldl
    (fun keys entry => keys.put (makeKeyIndex entry.bucket entry.objectKey) entry) Table.empty

def newKeyStoreService (mkdir unreadable : Path → Option Errno) (dataPath : Path) (t : FileTree) :
    Except Bytes World × FileTree :=
  match t.mkdirAll mkdir [] dataPath with
  | (.error (path, e), t) => (.error (str "failed to create keystore directory: " ++ pathError "mkdir" path e), t)
  | (.ok (), t) => (.ok ⟨dataPath, loadAllKeys J unreadable dataPath t, t⟩, t)

/-! ### Calls

A call that panics gives nothing. -/

/-- The entry that `StoreKey` makes, with a key id if it has none. -/
def newEntry (random : Bytes) (now : Int) (bucket objectKey : Bytes) (dek : EncryptedDEK) (objectSize : Int) :
    KeyEntry :=
  let keyID := if dek.keyID = [] then generateKeyID random else dek.keyID
  ⟨keyID, bucket, objectKey, dek.encryptedKey, dek.algorithm, dek.keyVersion, now, objectSize⟩

def storeKey (random : Bytes) (now : Int) (w : World) (bucket objectKey : Bytes)
    (encryptedDEK : Option EncryptedDEK) (objectSize : Int) : Option (Except Bytes Bytes) × World :=
  match encryptedDEK with
  | none => (none, w)
  | some dek =>
    let entry := newEntry random now bucket objectKey dek objectSize
    let keyIndex := makeKeyIndex bucket objectKey
    let keys := w.keys.put keyIndex entry
    match persistKey J faults w.dataPath w.disk entry with
    | (.error e, disk) =>
      (some (.error (str "failed to persist key: " ++ e)), { w with keys := keys.delete keyIndex, disk })
    | (.ok (), disk) => (some (.ok entry.keyID), { w with keys, disk })

def getKey (fault : Option Errno) (w : World) (bucket objectKey : Bytes) :
    Option (Except Bytes EncryptedDEK) × World :=
  let keyIndex := makeKeyIndex bucket objectKey
  match w.keys.get keyIndex with
  | some entry => (some (.ok entry.dek), w)
  | none =>
    match loadKey J fault w bucket objectKey with
    | .error _ => (some (.error (str "key not found for " ++ bucket ++ str "/" ++ objectKey)), w)
    -- The loaded entry is a variable of the inner block; the one read after it is still nil.
    | .ok entry => (none, { w with keys := w.keys.put keyIndex entry })

def deleteKey (fault : Option Errno) (w : World) (bucket objectKey : Bytes) : Except Bytes Unit × World :=
  let w := { w with keys := w.keys.delete (makeKeyIndex bucket objectKey) }
  match deleteKeyFile fault w bucket objectKey with
  | (.error e, disk) => (.error (str "failed to delete key file: " ++ e), { w with disk })
  | (.ok (), disk) => (.ok (), { w with disk })

end CipherLake.KeyStore
