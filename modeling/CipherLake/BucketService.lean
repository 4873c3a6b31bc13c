import CipherLake.Buckets
import CipherLake.Multipart

/-! The handlers of buckets: making and deleting them, their access lists, and
the documents that describe them and list what they hold. None of the handlers
asks who sent the request; that is done, or not, on the way to them. -/
namespace CipherLake.Gateway
open Lib Http AccessControl Metadata Storage Buckets

variable {κ : Type}

/-! ### Documents -/

structure ListObjectsOutput where
  (name keyPrefix marker : Bytes)
  maxKeys : Int
  delimiter : Bytes
  isTruncated : Bool
  nextMarker : Bytes
  contents : List Listing.Content
  commonPrefixes : List Bytes
  deriving DecidableEq, Repr

/-- A grant as it is written out: the kind of the grantee stands in it twice. -/
structure Grant where
  (xmlnsXSI xsiType granteeType id displayName permission : Bytes)
  deriving DecidableEq, Repr

structure AccessControlPolicy where
  (ownerID ownerDisplayName : Bytes)
  grants : List Grant
  deriving DecidableEq, Repr

/-- The answer to a request for any resource: one of an object handler, or a
document, which goes out with status 200. -/
inductive Response where
  | reply (reply : Reply)
  | objects (listing : ListObjectsOutput)
  | objectsV2 (listing : Listing.ListObjectsV2Output)
  | location (constraint : Bytes)
  | accessControl (policy : AccessControlPolicy)
  | versioning (status mfaDelete : Bytes)
  | uploads (listing : Multipart.ListUploadsOutput)
  | parts (listing : Multipart.ListPartsOutput)
  | results (document : Bytes)
  deriving DecidableEq, Repr

def Response.refused (message : String) : Response := .reply (.refused (str message))

def noSuchBucket : Response :=
  .reply (.error 404 (str "NoSuchBucket") (str "The specified bucket does not exist."))

/-- The decoders of the documents a request can carry: the region of a new
bucket, and the grants of an access list with the type and the id of the
grantee and the permission. -/
structure Documents where
  locationConstraint : Bytes → Option Bytes
  grants : Bytes → Option (List (Bytes × Bytes × Bytes))
  deletion : Bytes → Except Bytes (List Bytes × Bool)

/-- The document in the body of a request, if one can be read. -/
def bodyDocument (r : Request) (decode : Bytes → Option α) : Option α :=
  match readAll (limited maxRequestBodyBytes r.body) with
  | .error _ => none
  | .ok [] => none
  | .ok body => decode body

/-! ### Making and deleting -/

/-- The record of a new bucket. -/
def newBucketInfo (documents : Documents) (r : Request) (userID : Bytes) : BucketInfo :=
  let acl := r.headerGet (str "x-amz-acl")
  let owner := if userID = [] ∨ userID = str "anonymous" then str "admin" else userID
  let region := ((bodyDocument r documents.locationConstraint).filter (· ≠ [])).getD (str "us-east-1")
  { acl := if acl = [] then str "private" else acl
    quota := none
    objectCount := 0
    totalSize := 0
    versioning := false
    ownerID := owner
    ownerName := owner
    region }

def handleCreateBucket (g : Config) (call : Call κ) (documents : Documents) (requestID : Bytes) (w : World κ)
    (r : Request) (bucket : Bytes) : Reply × World κ :=
  if r.method ≠ str "PUT" then (.refused (str "method not allowed"), w)
  else
    withUserID g call w r fun userID w =>
      match createBucket call.db w.metadata bucket (some (newBucketInfo documents r userID)) with
      | (.error e, metadata) => (.refused (str "failed to create bucket: " ++ e.text), { w with metadata })
      | (.ok (), metadata) =>
        (.sent 200 [(str "Location", str "/" ++ bucket), (str "x-amz-request-id", requestID)] [] none,
          { w with metadata })

/-- `ErrBucketNotEmpty` with what is still there. -/
def bucketNotEmpty (bucket : Bytes) (left : String) : Reply :=
  .refused (str "bucket not empty: bucket " ++ bucket ++ str " still has " ++ str left)

variable (call : Call κ) (w : World κ) (s : Store) (r : Request)

def handleDeleteBucket (bucket : Bytes) : Reply × World κ :=
  if r.method ≠ str "DELETE" then (.refused (str "method not allowed"), w)
  else
    match getBucket w.metadata bucket with
    | .error e => (.refused (str "failed to delete bucket: " ++ e.text), w)
    | .ok _ =>
      if listObjects w.metadata bucket [] 1 ≠ [] then (bucketNotEmpty bucket "objects", w)
      else if Multipart.listUploads call.db.now w.uploads bucket ≠ [] then
        (bucketNotEmpty bucket "in-progress multipart uploads", w)
      else
        match deleteBucket call.db ⟨w.metadata, w.uploads, w.sessions⟩ bucket with
        | (.error e, d) =>
          (.refused (str "failed to delete bucket: " ++ e.text),
            { w with metadata := d.store, uploads := d.uploads, sessions := d.sessions })
        | (.ok (), d) =>
          (.sent 204 [] [] none, { w with metadata := d.store, uploads := d.uploads, sessions := d.sessions })

def handleHeadBucket (bucket : Bytes) : Reply :=
  if r.method ≠ str "HEAD" then .refused (str "method not allowed")
  else
    match getBucket w.metadata bucket with
    | .error e => .refused (str "bucket not found: " ++ e.text)
    | .ok _ => .sent 200 [] [] none

/-! ### Listing -/

/-- The first form of the listing, which never looks at its marker. -/
def listObjectsV1 (bucket pre delimiter marker : Bytes) (maxKeys : Int) : ListObjectsOutput :=
  let objects := listObjects s bucket pre maxKeys
  let isTruncated := decide ((objects.length : Int) = maxKeys)
  let grouped := objects.map fun obj => (obj, Listing.commonPrefixForObject obj.key pre delimiter)
  let contents := grouped.filterMap fun g => if g.2.isNone then some (Listing.objectListContent g.1) else none
  { name := bucket
    keyPrefix := pre
    marker
    maxKeys
    delimiter
    isTruncated
    nextMarker := if isTruncated then ((contents.getLast?).map (·.key)).getD [] else []
    contents
    commonPrefixes := grouped.filterMap (·.2) }

/-- `handleListObjects`. A truncated page of a negative length is cut out of
bounds. -/
def handleListObjects (bucket : Bytes) : Response :=
  if r.method ≠ str "GET" then .refused "method not allowed"
  else
    let pre := r.queryGet (str "prefix")
    let delimiter := r.queryGet (str "delimiter")
    let maxKeys := Multipart.queryInt r "max-keys" 1000
    if r.queryGet (str "list-type") = str "2" then
      let listing := Listing.handleListObjectsV2 s bucket pre delimiter maxKeys (r.queryGet (str "start-after"))
        (r.queryGet (str "continuation-token"))
      if listing.isTruncated ∧ maxKeys < 0 then .reply .panicked else .objectsV2 listing
    else .objects (listObjectsV1 s bucket pre delimiter (r.queryGet (str "marker")) maxKeys)

/-! ### Describing -/

def handleGetBucketLocation (bucket : Bytes) : Response :=
  match getBucket s bucket with
  | .error _ => noSuchBucket
  | .ok info => .location (if info.region = str "us-east-1" then [] else info.region)

/-- The status is never set. -/
def handleGetBucketVersioning (bucket : Bytes) : Response :=
  match getBucket s bucket with
  | .error _ => noSuchBucket
  | .ok _ => .versioning [] []

def grant (granteeType id displayName permission : Bytes) : Grant :=
  ⟨str "http://www.w3.org/2001/XMLSchema-instance", granteeType, granteeType, id, displayName, permission⟩

def allUsers : Bytes := str "http://acs.amazonaws.com/groups/global/AllUsers"

def handleGetBucketAcl (bucket : Bytes) : Response :=
  match getBucket s bucket with
  | .error _ => noSuchBucket
  | .ok info =>
    let ownerID := if info.ownerID = [] then str "admin" else info.ownerID
    let ownerName := if info.ownerName = [] then str "admin" else info.ownerName
    .accessControl ⟨ownerID, ownerName,
      [grant (str "CanonicalUser") ownerID ownerName (str "FULL_CONTROL")] ++
      (if info.acl = str "public-read" ∨ info.acl = str "public-read-write" then
        [grant (str "Group") allUsers [] (str "READ")] else []) ++
      (if info.acl = str "public-read-write" then [grant (str "Group") allUsers [] (str "WRITE")] else [])⟩

/-- The access list a document of grants amounts to. -/
def grantedACL (grants : List (Bytes × Bytes × Bytes)) : Bytes :=
  let everybody (permission : String) := grants.any fun grant => grant = (str "Group", allUsers, str permission)
  if everybody "READ" && everybody "WRITE" then str "public-read-write"
  else if everybody "READ" then str "public-read"
  else str "private"

/-- The access list a request asks for; an unknown one is private. -/
def requestedACL (documents : Documents) (r : Request) : Bytes :=
  let named := if r.headerGet (str "x-amz-acl") = [] then r.queryGet (str "acl") else r.headerGet (str "x-amz-acl")
  let acl := ((bodyDocument r documents.grants).map grantedACL).getD named
  if acl ∈ [str "private", str "public-read", str "public-read-write", str "authenticated-read"] then acl
  else str "private"

def handlePutBucketAcl (documents : Documents) (w : World κ) (r : Request) (bucket : Bytes) : Response × World κ :=
  match getBucket w.metadata bucket with
  | .error _ => (noSuchBucket, w)
  | .ok info =>
    match updateBucket call.db w.metadata bucket { info with acl := requestedACL documents r } with
    | (.error e, metadata) =>
      (.reply (.refused (str "failed to update bucket ACL: " ++ e.text)), { w with metadata })
    | (.ok (), metadata) => (.reply (.sent 200 [] [] none), { w with metadata })

end CipherLake.Gateway
