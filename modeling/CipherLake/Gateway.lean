import CipherLake.AccessControl
import CipherLake.ObjectCache
import CipherLake.Storage

/-! What the object handlers of the gateway work on: its configuration, the
stores behind it, and what the surroundings contribute to one request. The
encryption coordinator is reached through an interface, so it is a parameter
here. -/
namespace CipherLake.Gateway
open Lib Http AccessControl Metadata Storage

/-! ### Uploads under way -/

/-- The fields of an upload's record that its handlers look up. -/
structure MultipartUpload where
  (uploadID bucket key : Bytes)
  (initiated expiresAt : Time)
  contentType : Bytes
  userMetadata : List (Bytes × Bytes)
  encrypted : Bool
  deriving DecidableEq, Repr

structure UploadPart where
  partNumber : Int
  etag : Bytes
  size : Int
  checksum : Bytes
  uploadedAt : Time
  deriving DecidableEq, Repr

/-- The bolt buckets `uploads` and `upload_parts`. -/
structure Uploads where
  uploads : Table Bytes MultipartUpload
  parts : Table Bytes UploadPart

structure ResumableSession where
  (uploadID bucket key : Bytes)
  (offset totalSize : Int)
  contentType : Bytes
  userMetadata : List (Bytes × Bytes)
  expiresAt : Time
  checksum : Bytes
  finalized : Bool
  deriving DecidableEq, Repr

/-- A session after a JSON encoding and decoding. -/
def ResumableSession.decoded (s : ResumableSession) : ResumableSession :=
  { s with
    uploadID := jsonString s.uploadID
    bucket := jsonString s.bucket
    key := jsonString s.key
    contentType := jsonString s.contentType
    userMetadata := s.userMetadata.map fun e => (jsonString e.1, jsonString e.2)
    checksum := jsonString s.checksum }

/-! ### The gateway -/

/-- An encrypted body: what the encrypting reader hands out, the metadata kept
with the object, and the announced size. -/
structure Sealed where
  data : Answer
  metadata : Bytes
  size : Int
  deriving DecidableEq, Repr

/-- The encryption coordinator during one request, over a key-store state `κ`.
A reader is known by what it hands out. -/
structure Crypto (κ : Type) where
  encryptOperation (keys : κ) (userID bucket key : Bytes) (plaintext : Answer) (size : Int) :
    Except Bytes Sealed × κ
  decryptOperation (keys : κ) (userID bucket key : Bytes) (ciphertext : Answer) (metadata : Bytes) :
    Except Bytes Answer
  encryptWithClientKey (plaintext : Answer) (clientKey : Bytes) (size : Int) : Except Bytes Sealed
  decryptWithClientKey (ciphertext : Answer) (clientKey metadata : Bytes) (size : Int) : Except Bytes Answer

structure Config where
  provider : Provider
  tiers : Tiers
  (uploadsDir resumableDir : Path)
  (resumableExpiry maxUploadBytes : Int)
  cryptoEnabled : Bool

/-- The stores behind the gateway. The object cache is optional. -/
structure World (κ : Type) where
  logins : Logins
  fs : FileTree
  metadata : Store
  cache : Option ObjectCache
  keys : κ
  uploads : Uploads
  sessions : Table Bytes ResumableSession

/-- What the surroundings contribute to one request: fresh identifiers, the
digests and formats of the Go library, and the failures of the stores. -/
structure Call (κ : Type) where
  auth : AccessControl.Env
  fuel : Nat
  disk : Disk
  db : Metadata.Env
  crypto : Option (Crypto κ)
  (etag versionID : Bytes)
  (crc32c md5 base64 : Bytes → Bytes)
  parseHTTPTime : Bytes → Option Time
  formatHTTPTime : Time → Bytes

/-- The answer to a request: the error a handler returns to its caller, an
error document, or a status with headers and a body, whose transfer may fail.
A batch of deletions lists the keys, with version, code and message. -/
inductive Reply where
  | refused (message : Bytes)
  | panicked
  | error (status : Nat) (code message : Bytes)
  | sent (status : Nat) (headers : List (Bytes × Bytes)) (body : Bytes) (failure : Option Bytes)
  | deleted (deleted : List (Bytes × Bytes)) (errors : List (Bytes × Bytes × Bytes))
  deriving DecidableEq, Repr

/-- The request did what it was to do. -/
def Reply.Succeeded : Reply → Prop
  | .sent status _ _ none => 200 ≤ status ∧ status < 300
  | .deleted _ errors => errors = []
  | _ => False

instance : DecidablePred Reply.Succeeded := fun reply =>
  match reply with
  | .sent status _ _ none => inferInstanceAs (Decidable (200 ≤ status ∧ status < 300))
  | .sent _ _ _ (some _) => isFalse id
  | .deleted _ errors => inferInstanceAs (Decidable (errors = []))
  | .refused _ => isFalse id
  | .panicked => isFalse id
  | .error _ _ _ => isFalse id

variable {κ : Type}

variable (g : Config) (call : Call κ) (w : World κ) (r : Request)

/-- `requireIdentity` at the head of a handler. -/
def identified (action bucket key : Bytes)
    (denied : Bytes → Reply) (next : World κ → Option (Reply × World κ)) : Option (Reply × World κ) :=
  (requireIdentity call.auth call.fuel g.provider w.logins r action bucket key).bind fun identified =>
    match identified with
    | (.error .panicked, logins) => some (.panicked, { w with logins })
    | (.error (.refused e), logins) => some (denied e, { w with logins })
    | (.ok _, logins) => next { w with logins }

/-- A request is turned away, which changes nothing but the failed logins, or
goes on in somebody's name. -/
theorem identified_cases {g : Config} {call : Call κ} {w : World κ} {r : Request} {action bucket key : Bytes}
    {denied : Bytes → Reply} {next : World κ → Option (Reply × World κ)} {out : Reply × World κ}
    (made : identified g call w r action bucket key denied next = some out) :
    (∃ logins, out.2 = { w with logins } ∧ (out.1 = .panicked ∨ ∃ e, out.1 = denied e)) ∨
      ∃ identity logins, requireIdentity call.auth call.fuel g.provider w.logins r action bucket key =
        some (.ok identity, logins) ∧ next { w with logins } = some out := by
  obtain ⟨⟨result, logins⟩, checked, outcome⟩ := Option.bind_eq_some_iff.mp made
  rcases result with (e | -) | identity
  · cases outcome
    exact .inl ⟨logins, rfl, .inr ⟨e, rfl⟩⟩
  · cases outcome
    exact .inl ⟨logins, rfl, .inl rfl⟩
  · exact .inr ⟨identity, logins, checked, outcome⟩

def accessDenied (e : Bytes) : Reply := .refused (str "access denied: " ++ e)

/-- `requestUserID`. -/
def withUserID (next : Bytes → World κ → Reply × World κ) : Reply × World κ :=
  match requestUserID call.auth g.provider w.logins r with
  | (.error _, logins) => (.panicked, { w with logins })
  | (.ok userID, logins) => next userID { w with logins }

theorem withUserID_cases (next : Bytes → World κ → Reply × World κ) :
    (∃ logins, withUserID g call w r next = (.panicked, { w with logins })) ∨
      ∃ userID logins, withUserID g call w r next = next userID { w with logins } := by
  unfold withUserID
  rcases requestUserID call.auth g.provider w.logins r with ⟨_ | userID, logins⟩
  · exact .inl ⟨logins, rfl⟩
  · exact .inr ⟨userID, logins, rfl⟩

/-! ### Storing an object -/

/-- `buildActiveObjectMetadata`, with the fields that are the same in every
record it makes. -/
structure ActiveObject where
  size : Int
  contentType : Bytes
  userMetadata : List (Bytes × Bytes)
  encrypted : Bool
  encryptedDEK : Bytes
  ssecKeySHA256 : Option Bytes
  deriving DecidableEq, Repr

def buildActiveObjectMetadata (bucket key : Bytes) (input : ActiveObject) : ObjectMetadata where
  key := key
  bucket := bucket
  size := input.size
  contentType := input.contentType
  etag := call.etag
  checksum := []
  checksumType := []
  userMetadata := input.userMetadata
  storageTier := tierHot
  createdAt := call.db.now
  modifiedAt := call.db.now
  encrypted := input.encrypted
  encryptedDEK := input.encryptedDEK
  versionID := call.versionID
  isLatest := true
  deleteMarker := false
  ssecUsed := input.ssecKeySHA256.isSome
  ssecKeySHA256 := input.ssecKeySHA256.getD []
  ssecAlgorithm := if input.ssecKeySHA256.isSome then str "AES256" else []
  retainUntil := none

/-- What is to be stored: the reader, the announced size and the record. -/
structure Plan where
  data : Answer
  size : Int
  record : ObjectMetadata
  deriving DecidableEq, Repr

/-- `g.store.Delete` on an error path, whose own error is dropped. -/
def takeBack (bucket key : Bytes) : World κ :=
  { w with fs := (Storage.delete g.tiers call.disk w.fs bucket key tierHot).2 }

def putObjectMetadataAfterStore (bucket key : Bytes) (record : ObjectMetadata) : Except Bytes Unit × World κ :=
  match putObject call.db w.metadata bucket key record with
  | (.error e, metadata) =>
    (.error (str "failed to store metadata: " ++ e.text), takeBack g call { w with metadata } bucket key)
  | (.ok (), metadata) => (.ok (), { w with metadata })

def putStoredObjectWithMetadata (bucket key : Bytes) (plan : Plan)
    (storeErrMessage : String) : Except Bytes Unit × World κ :=
  match Storage.put g.tiers call.disk w.fs bucket key plan.data plan.size tierHot with
  | (.error e, fs) => (.error (str storeErrMessage ++ str ": " ++ e), { w with fs })
  | (.ok (), fs) => putObjectMetadataAfterStore g call { w with fs } bucket key plan.record

end CipherLake.Gateway
