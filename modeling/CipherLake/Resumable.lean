import CipherLake.ObjectService

/-! Resumable uploads. A session records how much of the upload has arrived, and
a temporary file holds it. A `PATCH` checks the recorded offset, appends its
body to the file, and records the new offset at the end; it holds no lock in
between, so it is a machine that other requests run beside. -/
namespace CipherLake.Resumable
open Lib Http AccessControl Metadata Storage Gateway

variable {κ : Type}

variable (g : Config) (choice : Choice) (call : Call κ) (faults : Finalization) (t : FileTree) (w : World κ)
  (r : Request) (session : ResumableSession)

def getTempFilePath (uploadID : Bytes) : Path := Path.join g.resumableDir (uploadID ++ str ".tmp")

/-! ### Sessions -/

def putResumableSession (fault : Option Bytes) (w : World κ) (session : ResumableSession) :
    Except Bytes Unit × World κ :=
  match fault with
  | some e => (.error e, w)
  | none => (.ok (), { w with sessions := w.sessions.put session.uploadID session.decoded })

def deleteResumableSession (fault : Option Bytes) (w : World κ) (uploadID : Bytes) : World κ :=
  match fault with
  | some _ => w
  | none => { w with sessions := w.sessions.delete uploadID }

def unauthorized (e : Bytes) : Reply := .error 401 (str "AccessDenied") e

def invalidRequest (message : String) : Reply := .error 400 (str "InvalidRequest") (str message)

/-- The checks with which every request on a session begins. -/
def findSession (bucket key : Bytes) : Except Reply ResumableSession :=
  let uploadID := r.queryGet (str "uploadId")
  if uploadID = [] then .error (invalidRequest "uploadId is required")
  else
    match w.sessions.get uploadID with
    | none => .error (.error 404 (str "NoSuchUpload") (str "Upload session not found"))
    | some session =>
      if session.bucket ≠ bucket ∨ session.key ≠ key then .error (invalidRequest "Bucket/key mismatch")
      else if call.db.now > session.expiresAt then
        .error (.error 410 (str "UploadExpired") (str "Upload session has expired"))
      else .ok session

/-- A request without a session is not successful. -/
theorem findSession_failed {call : Call κ} {w : World κ} {r : Request} {bucket key : Bytes} {reply : Reply}
    (failed : findSession call w r bucket key = .error reply) : ¬ reply.Succeeded := by
  unfold findSession at failed
  simp only at failed
  split at failed
  · cases failed
    exact id
  split at failed
  · cases failed
    exact id
  split at failed
  · cases failed
    exact id
  · split at failed
    · cases failed
      exact id
    · cases failed

/-- The calls of `HandleCreateSession` that fail. -/
structure Creation where
  session : Option Bytes
  create : Option Errno
  undo : Option Bytes

def newSession (bucket key uploadID : Bytes) : ResumableSession where
  uploadID := uploadID
  bucket := bucket
  key := key
  offset := 0
  totalSize := (parseInt (r.headerGet (str "Upload-Length"))).getD (-1)
  contentType := objectContentType r
  userMetadata := parseUserMetadata r
  expiresAt := (call.db.now + g.resumableExpiry).toNat
  checksum := []
  finalized := false

def createFile (fault : Option Errno) (t : FileTree) (path : Path) : Except Errno Unit × FileTree :=
  match fault with
  | some e => (.error e, t)
  | none => t.create path

def handleCreateSession (faults : Creation) (w : World κ) (r : Request)
    (bucket key uploadID : Bytes) : Option (Reply × World κ) :=
  identified g call w r (str "write") bucket key unauthorized fun w =>
    match putResumableSession faults.session w (newSession g call r bucket key uploadID) with
    | (.error e, w) => some (.refused (str "failed to create resumable session: " ++ e), w)
    | (.ok (), w) =>
      let path := getTempFilePath g uploadID
      match createFile faults.create w.fs path with
      | (.error e, fs) =>
        some (.refused (str "failed to create temp file: " ++ pathError "open" path e),
          deleteResumableSession faults.undo { w with fs } uploadID)
      | (.ok (), fs) =>
        some (.sent 201 [(str "Location", str "/" ++ bucket ++ str "/" ++ key ++ str "?uploadId=" ++ uploadID),
          (str "Upload-Offset", str "0"), (str "X-CipherLake-Upload-Id", uploadID),
          (str "Content-Type", str "application/json")] [] none, { w with fs })

def handleHead (bucket key : Bytes) : Option (Reply × World κ) :=
  identified g call w r (str "read") bucket key unauthorized fun w =>
    match findSession call w r bucket key with
    | .error reply => some (reply, w)
    | .ok session =>
      some (.sent 204 ([(str "Upload-Offset", str (toString session.offset))] ++
        (if session.totalSize > 0 then [(str "Upload-Length", str (toString session.totalSize))] else []) ++
        (if session.checksum ≠ [] then [(str "Upload-Checksum", str "sha256 " ++ session.checksum)] else []) ++
        [(str "X-CipherLake-Upload-Id", r.queryGet (str "uploadId"))]) [] none, w)

/-! ### Finalizing -/

/-- The calls of `HandleFinalize` that fail. -/
structure Finalization where
  (opening stat : Option Errno)
  reading : Option (Nat × Errno)
  hashing : Option Errno
  session : Option Bytes
  (close remove : Option Errno)
  forget : Option Bytes

/-- `computeFileChecksum`. -/
def computeFileChecksum (fault : Option Errno) (t : FileTree) (path : Path) : Option Bytes :=
  match fault, t.entry path with
  | none, some (.file data) => some (call.base64 (call.auth.digests.sha256 data))
  | _, _ => none

/-- The open temporary file: its size, and what reading it gives. -/
def openTemp (path : Path) : Except Bytes (Int × Answer) :=
  match faults.opening with
  | some e => .error (str "failed to open temp file: " ++ pathError "open" path e)
  | none =>
    match t.entry path with
    | some (.file data) =>
      match faults.stat with
      | some e => .error (str "failed to stat temp file: " ++ pathError "stat" path e)
      | none =>
        match faults.reading with
        | none => .ok (data.length, ⟨data, some .eof⟩)
        | some (n, e) => .ok (data.length, ⟨data.take n, some (.failed (pathError "read" path e))⟩)
    | some .dir => .ok (4096, ⟨[], some (.failed (str "read " ++ Path.render path ++ str ": is a directory"))⟩)
    | none => .error (str "failed to open temp file: " ++ pathError "open" path (t.missing path))

/-- The plan for what the temporary file holds. -/
def prepareFinalize (bucket key userID checksum : Bytes)
    (session : ResumableSession) (contentLength : Int) (data : Answer) : Except Reply Plan × World κ :=
  let active (encrypted : Bool) (encryptedDEK : Bytes) :=
    { buildActiveObjectMetadata call bucket key
        ⟨contentLength, session.contentType, session.userMetadata, encrypted, encryptedDEK, none⟩ with
      checksum
      checksumType := str "sha256" }
  match call.crypto, g.cryptoEnabled with
  | some crypto, true =>
    match crypto.encryptOperation w.keys userID bucket key data contentLength with
    | (.error e, keys) => (.error (.refused (str "encryption failed: " ++ e)), { w with keys })
    | (.ok sealed_, keys) => (.ok ⟨sealed_.data, sealed_.size, active true sealed_.metadata⟩, { w with keys })
  | _, _ => (.ok ⟨data, contentLength, active false []⟩, w)

/-- `cleanupSession`. -/
def cleanupSession (uploadID : Bytes) (path : Path) : World κ :=
  let fs := match faults.remove with
    | some _ => w.fs
    | none => (w.fs.remove path).2
  deleteResumableSession faults.forget { w with fs } uploadID

/-- What follows the storing of the object. -/
def concludeFinalize (uploadID : Bytes) (encrypted : Bool) : Reply × World κ :=
  let path := getTempFilePath g uploadID
  let w := (putResumableSession faults.session w { session with finalized := true }).2
  match faults.close with
  | some e => (.refused (str "failed to close temp file: " ++ pathError "close" path e), w)
  | none =>
    (.sent 200 ([(str "ETag", quoted call.etag), (str "x-amz-version-id", call.versionID)] ++
      (if encrypted then [(str "x-amz-server-side-encryption", str "AES256")] else []) ++
      [(str "X-CipherLake-Upload-Id", uploadID)]) [] none, cleanupSession faults w uploadID path)

/-- `HandleFinalize` once the file is open. -/
def storeUpload
    (bucket key : Bytes) (session : ResumableSession) (contentLength : Int) (data : Answer) : Reply × World κ :=
  let uploadID := r.queryGet (str "uploadId")
  let path := getTempFilePath g uploadID
  withUserID g call w r fun userID w =>
    let checksum := if session.checksum ≠ [] then session.checksum
      else (computeFileChecksum call faults.hashing w.fs path).getD []
    match prepareFinalize g call w bucket key userID checksum session contentLength data with
    | (.error reply, w) => (reply, w)
    | (.ok plan, w) =>
      match putStoredObjectWithMetadata g call w bucket key plan "failed to store object" with
      | (.error e, w) => (.refused e, w)
      | (.ok (), w) => concludeFinalize g call faults w session uploadID plan.record.encrypted

def handleFinalize (bucket key : Bytes) : Option (Reply × World κ) :=
  identified g call w r (str "write") bucket key unauthorized fun w =>
    match findSession call w r bucket key with
    | .error reply => some (reply, w)
    | .ok session =>
      if session.finalized then some (invalidRequest "Upload session already finalized", w)
      else
        match openTemp faults w.fs (getTempFilePath g (r.queryGet (str "uploadId"))) with
        | .error e => some (.refused e, w)
        | .ok (contentLength, data) => some (storeUpload g call faults w r bucket key session contentLength data)

/-! ### Appending -/

/-- Where a `PATCH` stands. From the opening of the file on it carries the
session it read, and later how much it has written and the checksum it found. -/
inductive Phase where
  | opening (session : ResumableSession)
  | copying (session : ResumableSession) (rest : Bytes) (written : Nat)
  | syncing (session : ResumableSession) (written : Nat)
  | hashing (session : ResumableSession) (written : Nat)
  | deciding (session : ResumableSession) (written : Nat) (computed : Bytes)
  | updated (session : ResumableSession) (computed : Bytes)
  | answered (reply : Reply)
  deriving DecidableEq, Repr

/-- The checksum a client provides, as `sha256 <base64>`. -/
def providedChecksum : Bytes :=
  match cut (r.headerGet (str "Upload-Checksum")) 32 with
  | (algorithm, some value) => if call.auth.library.toLower algorithm = str "sha256" then value else []
  | (_, none) => []

/-- The checks of `HandlePatch`, against the session as it is recorded now. -/
def checkPatch (bucket key : Bytes) : Phase :=
  match findSession call w r bucket key with
  | .error reply => .answered reply
  | .ok session =>
    if session.finalized then .answered (invalidRequest "Upload session already finalized")
    else if r.headerGet (str "Upload-Offset") = [] then
      .answered (invalidRequest "Upload-Offset header is required")
    else
      match parseInt (r.headerGet (str "Upload-Offset")) with
      | none => .answered (invalidRequest "Invalid Upload-Offset header")
      | some clientOffset =>
        if clientOffset ≠ session.offset then
          .answered (.error 409 (str "OffsetMismatch") (str "Offset mismatch: client sent " ++
            str (toString clientOffset) ++ str ", server has " ++ str (toString session.offset)))
        else .opening session

def admitPatch (bucket key : Bytes) : Option (Phase × World κ) :=
  (requireIdentity call.auth call.fuel g.provider w.logins r (str "write") bucket key).map fun identified =>
    match identified with
    | (.error .panicked, logins) => (.answered .panicked, { w with logins })
    | (.error (.refused e), logins) => (.answered (unauthorized e), { w with logins })
    | (.ok _, logins) => (checkPatch call w r bucket key, { w with logins })

/-- A `PATCH` under way. -/
structure Patch (κ : Type) where
  call : Call κ
  request : Request
  (bucket key : Bytes)
  phase : Phase

/-- What the surroundings decide about one step: how many bytes the next write
takes, and the call that fails. -/
structure Choice where
  count : Nat
  fault : Option Errno
  finalization : Finalization

def failedCall (text op : String) (path : Path) (e : Errno) : Phase :=
  .answered (.refused (str text ++ str ": " ++ pathError op path e))

/-- The copy of the body to the file: one write, or the end of the body. A
write that fails may have taken some bytes. -/
def copyStep (path : Path) (body : Answer) (session : ResumableSession)
    (rest : Bytes) (written : Nat) : Phase × FileTree :=
  match choice.fault with
  | some e => (failedCall "failed to write data" "write" path e, t.append path (rest.take choice.count))
  | none =>
    if rest = [] then
      match readAll body with
      | .error e => (.answered (.refused (str "failed to write data: " ++ e)), t)
      | .ok _ => (.syncing session written, t)
    else
      let piece := rest.take (choice.count + 1)
      (.copying session (rest.drop (choice.count + 1)) (written + piece.length), t.append path piece)

/-- The session with what has been written, and the checksum if there is one. -/
def advancedSession (written : Nat) (computed : Bytes) : ResumableSession :=
  { session with
    offset := session.offset + written
    checksum := if computed ≠ [] then computed else session.checksum }

/-- The checksum of a client does not match. -/
def mismatched (computed : Bytes) : Bool :=
  providedChecksum call r ≠ [] && computed ≠ providedChecksum call r

/-- The end of `HandlePatch`: the file is cut back to the recorded offset, or
the new offset is recorded. A cut that fails goes unnoticed. -/
def decideStep (path : Path) (call : Call κ) (r : Request)
    (session : ResumableSession) (written : Nat) (computed : Bytes) : Phase × World κ :=
  if mismatched call r computed then
    (.answered (.error 400 (str "BadDigest") (str "Checksum mismatch: expected " ++ providedChecksum call r ++
      str ", got " ++ computed)),
      if choice.fault.isSome then w else { w with fs := w.fs.truncate path session.offset.toNat })
  else
    match putResumableSession (choice.fault.map Errno.text) w (advancedSession session written computed) with
    | (.error e, w) => (.answered (.refused (str "failed to update session: " ++ e)), w)
    | (.ok (), w) => (.updated (advancedSession session written computed) computed, w)

def wantsFinalize : Bool := r.headerGet (str "X-CipherLake-Finalize") = str "1"

/-- The answer with the new offset. -/
def acknowledgement (computed : Bytes) : Reply :=
  .sent 204 ([(str "Upload-Offset", str (toString session.offset))] ++
    (if computed ≠ [] then [(str "Upload-Checksum", str "sha256 " ++ computed)] else []) ++
    [(str "X-CipherLake-Upload-Id", r.queryGet (str "uploadId"))]) [] none

def finishStep (path : Path) (p : Patch κ)
    (session : ResumableSession) (computed : Bytes) : Option (Phase × World κ) :=
  if wantsFinalize p.request then
    match choice.fault with
    | some e => some (failedCall "failed to close temp file before finalize" "close" path e, w)
    | none =>
      (handleFinalize g p.call choice.finalization w p.request p.bucket p.key).map fun out =>
        (.answered out.1, out.2)
  else some (.answered (acknowledgement p.request session computed), w)

/-- One step of a `PATCH` after its checks. -/
def advance (p : Patch κ) : Option (Phase × World κ) :=
  let path := getTempFilePath g (p.request.queryGet (str "uploadId"))
  match p.phase with
  | .opening session =>
    match choice.fault, w.fs.entry path with
    | some e, _ => some (failedCall "failed to open temp file" "open" path e, w)
    | none, some (.file _) => some (.copying session p.request.body.bytes 0, w)
    | none, some .dir => some (failedCall "failed to open temp file" "open" path (.other (str "is a directory")), w)
    | none, none => some (failedCall "failed to open temp file" "open" path (w.fs.missing path), w)
  | .copying session rest written =>
    let (phase, fs) := copyStep choice w.fs path p.request.body session rest written
    some (phase, { w with fs })
  | .syncing session written =>
    match choice.fault with
    | some e => some (failedCall "failed to sync temp file" "sync" path e, w)
    | none => some (.hashing session written, w)
  | .hashing session written =>
    let computed :=
      if providedChecksum p.call p.request ≠ [] ∨ session.offset + written > 0 then
        (computeFileChecksum p.call choice.fault w.fs path).getD []
      else []
    some (.deciding session written computed, w)
  | .deciding session written computed =>
    some (decideStep choice w path p.call p.request session written computed)
  | .updated session computed => finishStep g choice w path p session computed
  | .answered reply => some (.answered reply, w)

end CipherLake.Resumable
