import CipherLake.BucketService
import CipherLake.Resumable

/-! The two dispatchers of the gateway, for requests on a bucket and on an
object. They choose a handler by the method, the query and one header. Some of
the handlers are guarded here, some guard themselves, and some are not guarded
at all. -/
namespace CipherLake.Gateway
open Lib Http AccessControl Metadata Storage Multipart Resumable

variable {κ : Type}

/-- The optional services beside the stores: resumable uploads, the full-text
index and the vector search, each known by what it answers once a request has
been let through. -/
structure Services (κ : Type) where
  resumable : Bool
  fts : Option (World κ → Request → Response × World κ)
  vectorSearch : World κ → Request → Response × World κ

/-- What the surroundings contribute to one request beyond `Call`: decoders, a
fresh id, and what each handler of uploads meets. -/
structure Surroundings where
  documents : Documents
  requestID : Bytes
  part : PartFaults
  completion : Completion
  abort : Faults
  abortRecord : Option Bytes
  patch : List Choice
  finalization : Finalization

/-- An answer of an object handler. -/
def replied (out : Reply × World κ) : Response × World κ := (.reply out.1, out.2)

variable (g : Config) (services : Services κ) (call : Call κ) (env : Surroundings) (w : World κ) (r : Request)

/-- `requireIdentity` on the way to a handler. -/
def permitted (action bucket key : Bytes)
    (denied : String) (next : World κ → Response × World κ) : Option (Response × World κ) :=
  (requireIdentity call.auth call.fuel g.provider w.logins r action bucket key).map fun identified =>
    match identified with
    | (.error .panicked, logins) => (.reply .panicked, { w with logins })
    | (.error (.refused e), logins) => (.reply (.refused (str denied ++ str ": " ++ e)), { w with logins })
    | (.ok _, logins) => next { w with logins }

/-! ### Buckets -/

def handleFTSSearch : Option (Response × World κ) :=
  match services.fts with
  | none => some (.refused "FTS is not enabled", w)
  | some search =>
    permitted g call w r (str "read") [] [] "FTS search requires authentication" fun w => search w r

/-- The `PUT` branch of `handleBucketOperations`. -/
def putBucket (bucket : Bytes) : Option (Response × World κ) :=
  if r.queryHas (str "acl") then
    permitted g call w r (str "admin") bucket [] "access denied" fun w =>
      handlePutBucketAcl call env.documents w r bucket
  else
    permitted g call w r (str "write") bucket [] "access denied" fun w =>
      replied (handleCreateBucket g call env.documents env.requestID w r bucket)

/-- The `GET` branch of `handleBucketOperations`. -/
def getBucketResource (bucket : Bytes) : Option (Response × World κ) :=
  if r.queryHas (str "location") then some (handleGetBucketLocation w.metadata bucket, w)
  else if r.queryHas (str "fts_search") then handleFTSSearch g services call w r
  else if r.queryHas (str "acl") then
    permitted g call w r (str "read") bucket [] "access denied" fun w => (handleGetBucketAcl w.metadata bucket, w)
  else if r.queryHas (str "versioning") then some (handleGetBucketVersioning w.metadata bucket, w)
  else if r.queryHas (str "uploads") then
    match handleListUploads call.db.now w.uploads r bucket with
    | .error e => some (.reply (.refused e), w)
    | .ok listing => some (.uploads listing, w)
  else if isBucketPublicRead g w bucket then some (handleListObjects w.metadata r bucket, w)
  else
    permitted g call w r (str "read") bucket [] "access denied" fun w => (handleListObjects w.metadata r bucket, w)

def handleBucketOperations (bucket method : Bytes) : Option (Response × World κ) :=
  if method = str "PUT" then putBucket g call env w r bucket
  else if method = str "DELETE" then
    permitted g call w r (str "admin") bucket [] "access denied" fun w =>
      replied (handleDeleteBucket call w r bucket)
  else if method = str "HEAD" then
    permitted g call w r (str "read") bucket [] "access denied" fun w => (.reply (handleHeadBucket w r bucket), w)
  else if method = str "POST" then (postBucket g call env.documents.deletion w r bucket).map replied
  else if method = str "GET" then getBucketResource g services call w r bucket
  else some (.refused "method not allowed", w)

/-! ### Objects -/

/-- The steps of a `PATCH`, with nobody else about. `none` if the list of
choices does not last until the answer. -/
def runPatch (g : Config) (w : World κ) (p : Patch κ) : List Choice → Option (Reply × World κ)
  | [] =>
    match p.phase with
    | .answered reply => some (reply, w)
    | _ => none
  | choice :: rest =>
    match p.phase with
    | .answered reply => some (reply, w)
    | _ => (advance g choice w p).bind fun (phase, w) => runPatch g w { p with phase } rest

def handlePatch (choices : List Choice) (w : World κ) (r : Request) (bucket key : Bytes) : Option (Reply × World κ) :=
  (admitPatch g call w r bucket key).bind fun (phase, w) => runPatch g w ⟨call, r, bucket, key, phase⟩ choices

/-- The answer to an aborted upload. -/
def abortReply : Except Failure Nat → Reply
  | .ok status => .sent status [] [] none
  | .error (.refused e) => .refused e
  | .error .panicked => .panicked

/-- The branch of `handleObjectOperations` for resumable uploads. -/
def resumableOperation (bucket key method : Bytes) : Option (Reply × World κ) :=
  if method = str "PATCH" then handlePatch g call env.patch w r bucket key
  else if method = str "HEAD" then handleHead g call w r bucket key
  else if method = str "POST" then
    if r.queryHas (str "finalize") then handleFinalize g call env.finalization w r bucket key
    else some (.refused (str "unsupported POST operation for resumable upload"), w)
  else some (.refused (str "method not allowed for resumable upload"), w)

/-- The branch of `handleObjectOperations` for multipart uploads. -/
def multipartOperation (bucket key method : Bytes) : Option (Response × World κ) :=
  if method = str "PUT" then (handleUploadPart g call env.part w r bucket key).map replied
  else if method = str "POST" then
    (handleCompleteMultipartUpload g call env.completion w r bucket key).map replied
  else if method = str "DELETE" then
    (handleAbortMultipartUpload call.auth call.fuel g.provider g.uploadsDir env.abort env.abortRecord w r
      bucket key).map fun out => (.reply (abortReply out.1), out.2)
  else if method = str "GET" then
    match handleListParts w.uploads r bucket key with
    | .error e => some (.reply (.refused e), w)
    | .ok listing => some (.parts listing, w)
  else some (.refused "method not allowed for multipart upload", w)

def handleObjectPOST (bucket key : Bytes) : Option (Response × World κ) :=
  if r.queryHas (str "vector_search") then
    permitted g call w r (str "read") bucket key "access denied" fun w => services.vectorSearch w r
  else some (.refused "unsupported POST operation", w)

/-- The rest of `handleObjectOperations`. A `PATCH` with an upload id does not
come this far. -/
def objectOperation (bucket key method : Bytes) : Option (Response × World κ) :=
  if method = str "PUT" then
    if r.headerGet (str "x-amz-copy-source") ≠ [] then (handleCopyObject g call w r bucket key).map replied
    else (handlePutObject g call w r bucket key).map replied
  else if method = str "GET" then (handleGetObject g call w r bucket key).map replied
  else if method = str "HEAD" then (handleHeadObject g call w r bucket key).map replied
  else if method = str "DELETE" then (handleDeleteObject g call w r bucket key).map replied
  else if method = str "POST" then handleObjectPOST g services call w r bucket key
  else some (.refused "method not allowed", w)

/-- A request on a resumable upload carries a header besides the id. -/
def isResumable : Bool :=
  services.resumable && r.headerGet (str "X-CipherLake-Resumable") = str "1"

def handleObjectOperations (bucket key method : Bytes) : Option (Response × World κ) :=
  if r.queryHas (str "uploadId") then
    if isResumable services r then (resumableOperation g call env w r bucket key method).map replied
    else multipartOperation g call env w r bucket key method
  else objectOperation g services call w r bucket key method

end CipherLake.Gateway
