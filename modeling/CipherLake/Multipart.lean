import CipherLake.ObjectService

/-! Multipart uploads: the parts of an upload are files in a directory named by
the upload id, which the request names. Completing an upload joins them to an
object. Aborting it removes them before the metadata is consulted. -/
namespace CipherLake.Multipart
open Lib Http AccessControl Metadata Storage Gateway

variable {κ : Type}

/-! ### Records -/

def uploadKey (bucket key uploadID : Bytes) : Bytes := bucket ++ str "/" ++ key ++ str "/" ++ uploadID

/-- An upload is deleted with the parts recorded under its id. -/
def deleteUpload (dbFault : Option Bytes) (s : Uploads) (bucket key uploadID : Bytes) :
    Except StoreErr Unit × Uploads :=
  match dbFault with
  | some e => (.error (.failed e), s)
  | none =>
    match s.uploads.get (uploadKey bucket key uploadID) with
    | none => (.ok (), s)
    | some _ =>
      let partsPrefix := uploadID ++ str "/"
      let partsToDelete := ((s.parts.seek partsPrefix).takeWhile fun e => hasPrefix e.1 partsPrefix).map (·.1)
      (.ok (), ⟨s.uploads.delete (uploadKey bucket key uploadID), partsToDelete.foldl Table.delete s.parts⟩)

/-! ### Part files -/

/-- The file-system calls of one clean-up that fail. -/
structure Faults where
  stat : Option Errno
  (list remove : Path → Option Errno)

def Faults.none : Faults := ⟨Option.none, fun _ => Option.none, fun _ => Option.none⟩

def getUploadDir (uploadsDir : Path) (uploadID : Bytes) : Path := Path.join uploadsDir uploadID

def getPartPath (uploadsDir : Path) (uploadID : Bytes) (partNumber : Nat) : Path :=
  getUploadDir uploadsDir uploadID ++ [str "part-" ++ str (toString partNumber)]

variable (g : Config) (call : Call κ) (s : Uploads) (r : Request) (faults : Faults) (t : FileTree)

/-- `os.Stat`: a missing name is told from a file on the way to it. -/
def stat (path : Path) : Except Errno Unit :=
  match faults.stat with
  | some e => .error e
  | none =>
    match t.entry path with
    | none => .error (t.missing path)
    | some _ => .ok ()

def removeDir (path : Path) : Except Errno Unit × FileTree :=
  match faults.remove path with
  | some e => (.error e, t)
  | none => t.remove path

/-- `errors.Join`: one text to a line. -/
def joinErrors : List Bytes → Except Bytes Unit
  | [] => .ok ()
  | errs => .error ((str "\n").intercalate errs)

/-- The directories a walk comes to and cannot list. -/
def unlisted (root : Path) : List (Path × Errno) :=
  (t.walk faults.list root).filterMap fun e =>
    match e.2, faults.list e.1 with
    | .dir, some err => some (e.1, err)
    | _, _ => Option.none

def cleanupParts (uploadsDir : Path) (uploadID : Bytes) : Except Bytes Unit × FileTree :=
  let uploadDir := getUploadDir uploadsDir uploadID
  match stat faults t uploadDir with
  | .error .notExist => (.ok (), t)
  | .error e =>
    (.error (str "failed to stat upload dir " ++ Path.render uploadDir ++ str ": " ++ pathError "stat" uploadDir e), t)
  | .ok () =>
    -- the failures of a walk are listed by kind here, and in the order of the walk in the source
    let walkErrs := (unlisted faults t uploadDir).map fun e =>
      str "walk error on " ++ Path.render e.1 ++ str ": " ++ pathError "open" e.1 e.2
    let (failed, t) := t.removeFiles faults.remove (t.walk faults.list uploadDir)
    let removeErrs := failed.map fun e =>
      str "failed to remove part file " ++ Path.render e.1 ++ str ": " ++ pathError "remove" e.1 e.2
    match removeDir faults t uploadDir with
    | (.ok (), t) => (joinErrors (walkErrs ++ removeErrs), t)
    | (.error .notExist, t) => (joinErrors (walkErrs ++ removeErrs), t)
    | (.error e, t) =>
      (joinErrors (walkErrs ++ removeErrs ++
        [str "failed to remove upload dir " ++ Path.render uploadDir ++ str ": " ++ pathError "remove" uploadDir e]), t)

/-! ### Finding uploads and parts -/

def getUpload (bucket key uploadID : Bytes) : Except StoreErr MultipartUpload :=
  match s.uploads.get (uploadKey bucket key uploadID) with
  | none => .error .keyNotFound
  | some upload => .ok upload

/-- `ListUploads`: the uploads of a bucket that have not expired. -/
def listUploads (now : Time) (s : Uploads) (bucket : Bytes) : List MultipartUpload :=
  let start := bucket ++ str "/"
  (((s.uploads.seek start).takeWhile fun e => hasPrefix e.1 start).map (·.2)).filter fun upload =>
    upload.expiresAt > now

/-- `GetParts`: the parts recorded under an id, in the order of their keys. -/
def recordedParts (uploadID : Bytes) : List UploadPart :=
  let partsPrefix := uploadID ++ str "/"
  ((s.parts.seek partsPrefix).takeWhile fun e => hasPrefix e.1 partsPrefix).map (·.2)

/-- The parts recorded under an id, by their numbers. -/
def getParts (uploadID : Bytes) : List UploadPart :=
  let partsPrefix := uploadID ++ str "/"
  (((s.parts.seek partsPrefix).takeWhile fun e => hasPrefix e.1 partsPrefix).map (·.2)).mergeSort
    fun a b => a.partNumber ≤ b.partNumber

structure Upload where
  (key uploadID : Bytes)
  initiated : Time
  deriving DecidableEq, Repr

structure ListUploadsOutput where
  bucket : Bytes
  maxUploads : Int
  isTruncated : Bool
  uploads : List Upload
  deriving DecidableEq, Repr

structure Part where
  partNumber : Int
  etag : Bytes
  lastModified : Time
  size : Int
  checksum : Bytes
  deriving DecidableEq, Repr

structure ListPartsOutput where
  (bucket key uploadID storageClass : Bytes)
  maxParts : Int
  isTruncated : Bool
  parts : List Part
  deriving DecidableEq, Repr

/-- The loop of the listings: one page, and whether something is left. -/
def page (limit : Int) (entries : List α) : List α × Bool :=
  (entries.take limit.toNat, decide (limit.toNat < entries.length))

/-- A number in the query, with a default. -/
def queryInt (name : String) (default : Int) : Int := (parseInt (r.queryGet (str name))).getD default

/-- `HandleListUploads`. Nobody is asked for. -/
def handleListUploads (now : Time) (s : Uploads) (r : Request) (bucket : Bytes) : Except Bytes ListUploadsOutput :=
  if r.method ≠ str "GET" then .error (str "method not allowed")
  else
    let maxUploads := queryInt r "max-uploads" 1000
    let (uploads, isTruncated) := page maxUploads (listUploads now s bucket)
    .ok { bucket, maxUploads, isTruncated, uploads := uploads.map fun u => ⟨u.key, u.uploadID, u.initiated⟩ }

/-- `HandleListParts`. Nobody is asked for, and only the id is looked up. -/
def handleListParts (bucket key : Bytes) : Except Bytes ListPartsOutput :=
  if r.method ≠ str "GET" then .error (str "method not allowed")
  else
    let uploadID := r.queryGet (str "uploadId")
    if uploadID = [] then .error (str "uploadId is required")
    else
      let maxParts := queryInt r "max-parts" 1000
      let partNumberMarker := queryInt r "part-number-marker" 0
      let (parts, isTruncated) := page maxParts
        ((recordedParts s uploadID).filter fun part => partNumberMarker < part.partNumber)
      .ok { bucket, key, uploadID, storageClass := str "STANDARD", maxParts, isTruncated,
            parts := parts.map fun p => ⟨p.partNumber, quoted p.etag, p.uploadedAt, p.size, p.checksum⟩ }

/-! ### Starting -/

/-- The calls of `HandleCreateMultipartUpload` that fail. -/
structure CreateFaults where
  putUpload : Option Bytes
  mkdir : Path → Option Errno

/-- An upload after a JSON encoding and decoding. -/
def decodedUpload (u : MultipartUpload) : MultipartUpload :=
  { u with
    uploadID := jsonString u.uploadID
    bucket := jsonString u.bucket
    key := jsonString u.key
    contentType := jsonString u.contentType
    userMetadata := u.userMetadata.map fun e => (jsonString e.1, jsonString e.2) }

/-- A day, in nanoseconds. -/
def uploadLifetime : Time := 24 * 60 * 60 * 10 ^ 9

/-- `PutUpload`, with an id at hand for an upload that has none. -/
def putUpload (fault : Option Bytes) (now : Time) (newID : Bytes) (s : Uploads) (upload : MultipartUpload) :
    Except Bytes Unit × Uploads :=
  let upload := { upload with
    uploadID := if upload.uploadID = [] then newID else upload.uploadID
    initiated := if upload.initiated = 0 then now else upload.initiated
    expiresAt := if upload.expiresAt = 0 then now + uploadLifetime else upload.expiresAt }
  match fault with
  | some e => (.error e, s)
  | none =>
    (.ok (), ⟨s.uploads.put (uploadKey upload.bucket upload.key upload.uploadID) (decodedUpload upload), s.parts⟩)

/-- `HandleCreateMultipartUpload`, with the UUID it draws. A directory that
cannot be made leaves the upload on the record. -/
def handleCreateMultipartUpload (faults : CreateFaults) (w : World κ) (r : Request)
    (bucket key uploadID : Bytes) : Option (Reply × World κ) :=
  if r.method ≠ str "POST" then some (.refused (str "method not allowed"), w)
  else
    identified g call w r (str "write") bucket key accessDenied fun w =>
      some <| withUserID g call w r fun _ w =>
        match putUpload faults.putUpload call.db.now uploadID w.uploads
            ⟨uploadID, bucket, key, call.db.now, call.db.now + uploadLifetime, objectContentType r,
              parseUserMetadata r, false⟩ with
        | (.error e, _) => (.refused (str "failed to create upload: " ++ e), w)
        | (.ok (), uploads) =>
          match w.fs.mkdirAll faults.mkdir [] (getUploadDir g.uploadsDir uploadID) with
          | (.error (path, e), fs) =>
            (.refused (str "failed to create upload directory: " ++ pathError "mkdir" path e), { w with uploads, fs })
          | (.ok (), fs) => (.sent 200 [(str "x-amz-upload-id", uploadID)] [] none, { w with uploads, fs })

/-! ### Uploading a part -/

/-- The calls of `HandleUploadPart` that fail. -/
structure PartFaults where
  mkdir : Path → Option Errno
  create : Option Errno
  write : Option (Nat × Errno)
  (sync rename remove : Option Errno)
  addPart : Option Bytes

/-- `AddPart`. -/
def addPart (fault : Option Bytes) (s : Uploads) (uploadID : Bytes) (part : UploadPart) : Except Bytes Unit × Uploads :=
  match fault with
  | some e => (.error e, s)
  | none =>
    let decoded := { part with etag := jsonString part.etag, checksum := jsonString part.checksum }
    (.ok (), ⟨s.uploads, s.parts.put (uploadID ++ str "/" ++ str (toString part.partNumber)) decoded⟩)

/-- The open file takes the body, up to the first error of either. -/
def writePart (faults : PartFaults) (tempPath : Path) (body : Answer) : Bytes × Except Bytes Unit :=
  match faults.write with
  | some (n, e) => (body.bytes.take n, .error (pathError "write" tempPath e))
  | none => (body.bytes, (readAll body).map fun _ => ())

/-- What the part is written to before it has its name. -/
def partTempPath (partPath : Path) : Path := partPath.dropLast ++ [(partPath.getLast?.getD []) ++ str ".tmp"]

/-- The part of `HandleUploadPart` that puts the file in place. An error leaves
no temporary file, unless its removal fails too. -/
def storePart (faults : PartFaults) (t : FileTree) (uploadDir partPath : Path) (body : Answer) :
    Except Bytes Unit × FileTree :=
  let tempPath := partTempPath partPath
  let discard (t : FileTree) := if faults.remove.isSome then t else (t.remove tempPath).2
  match t.mkdirAll faults.mkdir [] uploadDir with
  | (.error (path, e), t) => (.error (str "failed to create upload directory: " ++ pathError "mkdir" path e), t)
  | (.ok (), t) =>
    match faults.create, t.create tempPath with
    | some e, _ => (.error (str "failed to create part file: " ++ pathError "open" tempPath e), t)
    | none, (.error e, t) => (.error (str "failed to create part file: " ++ pathError "open" tempPath e), t)
    | none, (.ok (), t) =>
      match writePart faults tempPath body with
      | (written, .error e) => (.error (str "failed to write part data: " ++ e), discard (t.append tempPath written))
      | (written, .ok ()) =>
        let t := t.append tempPath written
        match faults.sync, faults.rename, t.rename tempPath partPath with
        | some e, _, _ => (.error (str "failed to sync part file: " ++ pathError "sync" tempPath e), discard t)
        | none, some e, _ =>
          (.error (str "failed to finalize part file: " ++ renameError tempPath partPath e), discard t)
        | none, none, (.error e, t) =>
          (.error (str "failed to finalize part file: " ++ renameError tempPath partPath e), discard t)
        | none, none, (.ok (), t) => (.ok (), t)

def handleUploadPart (faults : PartFaults) (w : World κ) (r : Request)
    (bucket key : Bytes) : Option (Reply × World κ) :=
  if r.method ≠ str "PUT" then some (.refused (str "method not allowed"), w)
  else
    identified g call w r (str "write") bucket key accessDenied fun w =>
      let uploadID := r.queryGet (str "uploadId")
      let partNumberStr := r.queryGet (str "partNumber")
      if uploadID = [] then some (.refused (str "uploadId is required"), w)
      else
        match (parseInt partNumberStr).filter fun n => 1 ≤ n ∧ n ≤ 10000 with
        | none => some (.refused (str "invalid partNumber"), w)
        | some partNumber =>
          match getUpload w.uploads bucket key uploadID with
          | .error e => some (.refused (str "upload not found: " ++ e.text), w)
          | .ok upload =>
            if call.db.now > upload.expiresAt then some (.refused (str "upload has expired"), w)
            else
              let partPath := getPartPath g.uploadsDir uploadID partNumber.toNat
              match storePart faults w.fs (getUploadDir g.uploadsDir uploadID) partPath r.body with
              | (.error e, fs) => some (.refused e, { w with fs })
              | (.ok (), fs) =>
                let checksum := call.base64 (call.auth.digests.sha256 r.body.bytes)
                let etag := SigV4.hexLower (call.auth.digests.sha256 (uploadID ++ partNumberStr))
                match addPart faults.addPart w.uploads uploadID
                    ⟨partNumber, etag, r.body.bytes.length, checksum, call.db.now⟩ with
                | (.error e, uploads) =>
                  let fs := if faults.remove.isSome then fs else (fs.remove partPath).2
                  some (.refused (str "failed to add part: " ++ e), { w with fs, uploads })
                | (.ok (), uploads) =>
                  some (.sent 200 [(str "ETag", quoted etag), (str "x-amz-checksum-sha256", checksum)] [] none,
                    { w with fs, uploads })

/-! ### Completing -/

/-- What the surroundings contribute to a completion: the failures of its own
file and database calls. -/
structure Completion where
  opening : Int → Option Errno
  reading : Int → Option (Nat × Errno)
  cleanup : Faults
  deleteUpload : Option Bytes

/-- A part file, read to its end. -/
def readPart (faults : Completion) (t : FileTree) (path : Path) (partNumber : Int) : Except Bytes Answer :=
  match faults.opening partNumber with
  | some e => .error (pathError "open" path e)
  | none =>
    match t.entry path with
    | none => .error (pathError "open" path (t.missing path))
    | some .dir => .ok ⟨[], some (.failed (str "read " ++ Path.render path ++ str ": is a directory"))⟩
    | some (.file data) =>
      match faults.reading partNumber with
      | none => .ok ⟨data, some .eof⟩
      | some (n, e) => .ok ⟨data.take n, some (.failed (pathError "read" path e))⟩

/-- The merging goroutine, as its pipe hands out the bytes: the parts in a row,
up to the first that cannot be read, and a check of the total. -/
def mergeParts (faults : Completion) (t : FileTree) (uploadsDir : Path) (uploadID : Bytes) (totalSize : Int) :
    List UploadPart → Bytes → Answer
  | [], merged =>
    if (merged.length : Int) ≠ totalSize then
      ⟨merged, some (.failed (str "part merge size mismatch: expected " ++ str (toString totalSize) ++ str ", got " ++
        str (toString merged.length)))⟩
    else ⟨merged, some .eof⟩
  | part :: rest, merged =>
    let number := str (toString part.partNumber)
    match readPart faults t (getUploadDir uploadsDir uploadID ++ [str "part-" ++ number]) part.partNumber with
    | .error e => ⟨merged, some (.failed (str "failed to open part " ++ number ++ str ": " ++ e))⟩
    | .ok data =>
      match readAll data with
      | .error e => ⟨merged ++ data.bytes, some (.failed (str "failed to copy part " ++ number ++ str ": " ++ e))⟩
      | .ok bytes => mergeParts faults t uploadsDir uploadID totalSize rest (merged ++ bytes)

def totalSize (parts : List UploadPart) : Int := (parts.map (·.size)).sum

def completePlan (faults : Completion) (w : World κ) (bucket key uploadID : Bytes)
    (upload : MultipartUpload) (parts : List UploadPart) : Plan :=
  ⟨mergeParts faults w.fs g.uploadsDir uploadID (totalSize parts) parts [], totalSize parts,
    buildActiveObjectMetadata call bucket key
      ⟨totalSize parts, upload.contentType, upload.userMetadata, upload.encrypted, [], none⟩⟩

/-- `HandleCompleteMultipartUpload`. The object is in place before the upload is
taken off the record. -/
def handleCompleteMultipartUpload (faults : Completion) (w : World κ) (r : Request)
    (bucket key : Bytes) : Option (Reply × World κ) :=
  if r.method ≠ str "POST" then some (.refused (str "method not allowed"), w)
  else
    identified g call w r (str "write") bucket key accessDenied fun w =>
      let uploadID := r.queryGet (str "uploadId")
      if uploadID = [] then some (.refused (str "uploadId is required"), w)
      else
        match getUpload w.uploads bucket key uploadID with
        | .error e => some (.refused (str "upload not found: " ++ e.text), w)
        | .ok upload =>
          if call.db.now > upload.expiresAt then some (.refused (str "upload has expired"), w)
          else if getParts w.uploads uploadID = [] then some (.refused (str "no parts uploaded"), w)
          else
            let plan := completePlan g call faults w bucket key uploadID upload (getParts w.uploads uploadID)
            match putStoredObjectWithMetadata g call w bucket key plan "failed to store merged object" with
            | (.error e, w) => some (.refused e, w)
            | (.ok (), w) =>
              let fs := (cleanupParts faults.cleanup w.fs g.uploadsDir uploadID).2
              match deleteUpload faults.deleteUpload w.uploads bucket key uploadID with
              | (.error e, uploads) =>
                some (.refused (str "failed to finalize upload metadata: " ++ e.text), { w with fs, uploads })
              | (.ok (), uploads) =>
                some (.sent 200 [(str "ETag", quoted call.etag)] [] none, { w with fs, uploads })

/-! ### Aborting -/

/-- `HandleAbortMultipartUpload`, with the status of the answer. What the
clean-up could not do is logged and dropped. -/
def handleAbortMultipartUpload (env : AccessControl.Env) (fuel : Nat) (p : Provider) (uploadsDir : Path)
    (faults : Faults) (dbFault : Option Bytes) (w : World κ) (r : Request) (bucket key : Bytes) :
    Option (Except Failure Nat × World κ) :=
  if r.method ≠ str "DELETE" then some (.error (.refused (str "method not allowed")), w)
  else
    (requireIdentity env fuel p w.logins r (str "write") bucket key).map fun identified =>
      match identified with
      | (.error .panicked, logins) => (.error .panicked, { w with logins })
      | (.error (.refused e), logins) => (.error (.refused (str "access denied: " ++ e)), { w with logins })
      | (.ok _, logins) =>
        let uploadID := r.queryGet (str "uploadId")
        if uploadID = [] then (.error (.refused (str "uploadId is required")), { w with logins })
        else
          let fs := (cleanupParts faults w.fs uploadsDir uploadID).2
          match deleteUpload dbFault w.uploads bucket key uploadID with
          | (.error e, uploads) =>
            (.error (.refused (str "failed to abort upload: " ++ e.text)), { w with logins, fs, uploads })
          | (.ok (), uploads) => (.ok 204, { w with logins, fs, uploads })

end CipherLake.Multipart
