import CipherLake.Gateway
import CipherLake.Listing

/-! The handlers of single objects: storing, serving, copying and deleting. Each
write prepares what is to be stored and only then touches the store, so the
preparation is a definition of its own. -/
namespace CipherLake.Gateway
open Lib Http AccessControl Metadata Storage

variable {κ : Type}

/-! ### Reading a request -/

variable (g : Config) (call : Call κ) (w : World κ) (r : Request) (m : ObjectMetadata)

def objectContentType : Bytes :=
  let contentType := r.headerGet (str "Content-Type")
  if contentType = [] then str "application/octet-stream" else contentType

def validateContentType (contentType : Bytes) : Bool :=
  contentType = [] || !([str "application/x-msdos-program", str "application/x-msdownload"].any
    (hasPrefix (call.auth.library.toLower contentType)))

/-- `io.LimitReader`: the error of the source is met only within the limit. -/
def limited (limit : Int) (data : Answer) : Answer :=
  if (data.bytes.length : Int) < limit then data else ⟨data.bytes.take limit.toNat, some .eof⟩

/-- `io.ReadAll`: the end of the source is no error. -/
def readAll (data : Answer) : Except Bytes Bytes :=
  match data.err with
  | some .unexpectedEOF => .error ReadErr.unexpectedEOF.text
  | some (.failed message) => .error message
  | _ => .ok data.bytes

def tooLarge (size max : Int) : Reply :=
  .error 413 (str "EntityTooLarge") (str "Object size " ++ str (toString size) ++
    str " exceeds maximum allowed size " ++ str (toString max))

/-- `resolveUploadContentLength`, with the body that is left to read: one of
unknown length is read into memory. -/
def resolveUploadContentLength : Except Reply (Int × Answer) :=
  let max := g.maxUploadBytes
  if r.contentLength ≥ 0 then
    if max > 0 ∧ r.contentLength > max then .error (tooLarge r.contentLength max)
    else .ok (r.contentLength, r.body)
  else
    match readAll (if max > 0 then limited (max + 1) r.body else r.body) with
    | .error e => .error (.refused (str "failed to read request body: " ++ e))
    | .ok bodyBytes =>
      if max > 0 ∧ (bodyBytes.length : Int) > max then .error (tooLarge bodyBytes.length max)
      else .ok (bodyBytes.length, ⟨bodyBytes, some .eof⟩)

/-- `parseUserMetadata`: the first value of each field. -/
def parseUserMetadata : List (Bytes × Bytes) :=
  let fields := r.header.filter fun field => hasPrefix field.1 (str "x-amz-meta-")
  let keys := (fields.map (·.1)).dedup
  keys.map fun k => (trimPrefix k (str "x-amz-meta-"), r.headerGet k)

/-- `ParseSSECHeaders`. -/
def parseSSECHeaders : Except Bytes (Option Bytes) :=
  let algorithm := r.headerGet (str "x-amz-server-side-encryption-customer-algorithm")
  let keyB64 := r.headerGet (str "x-amz-server-side-encryption-customer-key")
  let keyMD5B64 := r.headerGet (str "x-amz-server-side-encryption-customer-key-MD5")
  if algorithm = [] ∧ keyB64 = [] ∧ keyMD5B64 = [] then .ok none
  else if algorithm ≠ str "AES256" then .error (str "invalid SSE-C algorithm: must be AES256")
  else if keyB64 = [] then .error (str "SSE-C customer key is required when algorithm is specified")
  else
    match call.auth.base64Decode keyB64 with
    | .error _ => .error (str "invalid SSE-C customer key: not valid base64")
    | .ok clientKey =>
      if clientKey.length ≠ 32 then .error (str "invalid SSE-C customer key: must be 256-bit (32 bytes)")
      else if keyMD5B64 = [] then .error (str "SSE-C customer key MD5 is required")
      else
        match call.auth.base64Decode keyMD5B64 with
        | .error _ => .error (str "invalid SSE-C customer key MD5: not valid base64")
        | .ok expectedMD5 =>
          if expectedMD5 ≠ call.md5 clientKey then .error (str "SSE-C customer key MD5 mismatch")
          else .ok (some clientKey)

def computeSSECKeySHA256 (clientKey : Bytes) : Bytes :=
  SigV4.hexLower (call.auth.digests.sha256 clientKey)

/-! ### Checksums -/

/-- `objectChecksumRecorder`: the kind of checksum a request provides, and its
value. -/
def checksumRecorder : Option (Bytes × Bytes) :=
  let provided (name : String) (checksumType : String) : Option (Bytes × Bytes) :=
    if r.headerGet (str name) ≠ [] then some (str checksumType, r.headerGet (str name)) else none
  ((provided "x-amz-checksum-crc32c" "crc32c").or (provided "x-amz-checksum-sha256" "sha256")).or
    ((provided "x-amz-checksum-md5" "md5").or (provided "Content-MD5" "md5"))

def digest (checksumType data : Bytes) : Bytes :=
  call.base64 (if checksumType = str "crc32c" then call.crc32c data
    else if checksumType = str "md5" then call.md5 data else call.auth.digests.sha256 data)

def upperASCII (s : Bytes) : Bytes := s.map fun c => if 97 ≤ c ∧ c ≤ 122 then c - 32 else c

/-- `Finalize`: the checksum to keep and its kind, or the message of a
mismatch. -/
def finalizeChecksum (data : Bytes) : Except Bytes (Bytes × Bytes) :=
  match checksumRecorder r with
  | none => .ok (digest call (str "sha256") data, str "sha256")
  | some (checksumType, expected) =>
    let actual := digest call checksumType data
    if expected ≠ actual then
      .error (upperASCII checksumType ++ str " checksum mismatch: expected " ++ expected ++ str ", got " ++ actual)
    else .ok (actual, checksumType)

/-! ### Storing -/

/-- The part of `handlePutObject` before the store is touched. The key of an
envelope is stored here. -/
def preparePut (bucket key userID contentType : Bytes)
    (contentLength : Int) (body : Answer) : Except Reply Plan × World κ :=
  let active (encrypted : Bool) (encryptedDEK : Bytes) (ssecKeySHA256 : Option Bytes) :=
    buildActiveObjectMetadata call bucket key
      ⟨contentLength, contentType, parseUserMetadata r, encrypted, encryptedDEK, ssecKeySHA256⟩
  match parseSSECHeaders call r with
  | .error e => (.error (.error 400 (str "InvalidRequest") e), w)
  | .ok (some clientKey) =>
    match call.crypto with
    | none =>
      (.error (.refused (str "SSE-C encryption requested but encryption services are not enabled")), w)
    | some crypto =>
      match crypto.encryptWithClientKey body clientKey contentLength with
      | .error _ => (.error (.refused (str "SSE-C encryption failed")), w)
      | .ok sealed_ =>
        (.ok ⟨sealed_.data, sealed_.size,
          active true sealed_.metadata (some (computeSSECKeySHA256 call clientKey))⟩, w)
  | .ok none =>
    match call.crypto, g.cryptoEnabled with
    | some crypto, true =>
      match crypto.encryptOperation w.keys userID bucket key body contentLength with
      | (.error e, keys) => (.error (.refused (str "encryption failed: " ++ e)), { w with keys })
      | (.ok sealed_, keys) =>
        (.ok ⟨sealed_.data, sealed_.size, active true sealed_.metadata none⟩, { w with keys })
    | _, _ => (.ok ⟨body, contentLength, active false [] none⟩, w)

/-- The rest of `handlePutObject`: the data replaces what is stored before its
checksum is known. -/
def commitPut (bucket key : Bytes) (body : Bytes)
    (plan : Plan) : Except Reply ObjectMetadata × World κ :=
  match Storage.put g.tiers call.disk w.fs bucket key plan.data plan.size tierHot with
  | (.error e, fs) => (.error (.refused (str "failed to store object: " ++ e)), { w with fs })
  | (.ok (), fs) =>
    match finalizeChecksum call r body with
    | .error mismatch =>
      (.error (.error 400 (str "BadDigest") mismatch), takeBack g call { w with fs } bucket key)
    | .ok (checksum, checksumType) =>
      let record := { plan.record with checksum, checksumType }
      match putObjectMetadataAfterStore g call { w with fs } bucket key record with
      | (.error e, w) => (.error (.refused e), w)
      | (.ok (), w) => (.ok record, w)

def putHeaders (record : ObjectMetadata) : List (Bytes × Bytes) :=
  let keyMD5 := r.headerGet (str "x-amz-server-side-encryption-customer-key-MD5")
  [(str "ETag", str "\"" ++ record.etag ++ str "\""), (str "x-amz-version-id", record.versionID)] ++
    (if record.ssecUsed then
      (str "x-amz-server-side-encryption-customer-algorithm", str "AES256") ::
        (if keyMD5 ≠ [] then [(str "x-amz-server-side-encryption-customer-key-MD5", keyMD5)] else [])
    else if record.encrypted then [(str "x-amz-server-side-encryption", str "AES256")] else []) ++
    [(str "x-amz-checksum-" ++ record.checksumType, record.checksum)]

def handlePutObject (bucket key : Bytes) :
    Option (Reply × World κ) :=
  if r.method ≠ str "PUT" then some (.refused (str "method not allowed"), w)
  else
    identified g call w r (str "write") bucket key accessDenied fun w =>
      let contentType := objectContentType r
      if ¬ validateContentType call contentType then
        some (.refused (str "unsupported content type: " ++ contentType), w)
      else
        match resolveUploadContentLength g r with
        | .error reply => some (reply, w)
        | .ok (contentLength, body) =>
          some <| withUserID g call w r fun userID w =>
            match preparePut g call w r bucket key userID contentType contentLength body with
            | (.error reply, w) => (reply, w)
            | (.ok plan, w) =>
              match commitPut g call w r bucket key body.bytes plan with
              | (.error reply, w) => (reply, w)
              | (.ok record, w) => (.sent 200 (putHeaders r record) [] none, w)

/-! ### Serving -/

/-- `parseRangeHeader`: the first and the last byte. -/
def parseRangeHeader (rangeHeader : Bytes) (totalSize : Int) : Except Bytes (Int × Int) :=
  if ¬ hasPrefix rangeHeader (str "bytes=") then .error (str "invalid range header format")
  else
    let bounds : Except Bytes (Int × Int) :=
      match (trimPrefix rangeHeader (str "bytes=")).splitOn 45 with
      | [[], last] =>
        match parseInt last with
        | none => .error (str "invalid range end")
        | some length => .ok (max 0 (int64 (totalSize - length)), totalSize - 1)
      | [first, []] =>
        match parseInt first with
        | none => .error (str "invalid range start")
        | some start => .ok (start, totalSize - 1)
      | [first, last] =>
        match parseInt first with
        | none => .error (str "invalid range start")
        | some start =>
          match parseInt last with
          | none => .error (str "invalid range end")
          | some last => .ok (start, last)
      | _ => .error (str "invalid range specification")
    match bounds with
    | .error e => .error e
    | .ok (start, last) =>
      if start > last ∨ start ≥ totalSize then .error (str "range not satisfiable")
      else .ok (start, if last ≥ totalSize then totalSize - 1 else last)

def noSuchKey (key : Bytes) : Reply :=
  .error 404 (str "NoSuchKey") (str "Object '" ++ key ++ str "' not found")

def internalError : Reply :=
  .error 500 (str "InternalError") (str "An internal error occurred while processing the object")

/-- `isBucketPublicRead`. -/
def isBucketPublicRead (bucket : Bytes) : Bool :=
  g.provider.authHandler.anonymousRead ||
    match w.metadata.buckets.get bucket with
    | none => false
    | some info => info.acl = str "public-read" || info.acl = str "public-read-write"

def quoted (etag : Bytes) : Bytes := str "\"" ++ etag ++ str "\""

/-- The conditional headers, with the answer if one of them decides. -/
def precondition : Option Reply :=
  let ifNoneMatch := r.headerGet (str "If-None-Match")
  let ifMatch := r.headerGet (str "If-Match")
  let ifModifiedSince := r.headerGet (str "If-Modified-Since")
  if ifNoneMatch ≠ [] ∧ (ifNoneMatch = str "*" ∨ ifNoneMatch = quoted m.etag) then some (.sent 304 [] [] none)
  else if ifMatch ≠ [] ∧ ifMatch ≠ str "*" ∧ ifMatch ≠ quoted m.etag then
    some (.error 412 (str "PreconditionFailed") (str "ETag does not match"))
  else if ifModifiedSince = [] then none
  else
    match call.parseHTTPTime ifModifiedSince with
    | none => none
    | some time => if m.modifiedAt > time then none else some (.sent 304 [] [] none)

/-- `writeObjectResponseHeaders` for a `GET`. -/
def objectHeaders (contentLength : Int)
    (cacheStatus contentRange : Bytes) : List (Bytes × Bytes) :=
  let keyMD5 := r.headerGet (str "x-amz-server-side-encryption-customer-key-MD5")
  let checksumMode := r.headerGet (str "x-amz-checksum-mode")
  [(str "Content-Type", m.contentType), (str "Content-Length", str (toString contentLength)),
    (str "ETag", quoted m.etag), (str "Last-Modified", call.formatHTTPTime m.modifiedAt),
    (str "Accept-Ranges", str "bytes"), (str "Cache-Control", str "max-age=3600")] ++
    (if cacheStatus ≠ [] then [(str "X-Cache", cacheStatus)] else []) ++
    (if contentRange ≠ [] then [(str "Content-Range", contentRange)] else []) ++
    (if m.ssecUsed then
      (str "x-amz-server-side-encryption-customer-algorithm", str "AES256") ::
        (if keyMD5 ≠ [] then [(str "x-amz-server-side-encryption-customer-key-MD5", keyMD5)] else [])
    else if m.encrypted then [(str "x-amz-server-side-encryption", str "AES256")] else []) ++
    (m.userMetadata.map fun e => (str "X-Amz-Meta-" ++ e.1, e.2)) ++
    (if checksumMode ≠ str "ENABLED" ∧ (m.checksum = [] ∨ m.checksumType = []) then []
    else if m.checksumType = str "crc32c" ∨ m.checksumType = str "sha256" ∨ m.checksumType = str "md5" then
      [(str "x-amz-checksum-" ++ m.checksumType, m.checksum)]
    else [])

/-- `validateObjectSSECKey`. -/
def validateObjectSSECKey : Except Reply Bytes :=
  match parseSSECHeaders call r with
  | .error _ => .error (.error 400 (str "InvalidRequest") (str "Invalid SSE-C customer key headers"))
  | .ok none => .error (.error 403 (str "AccessDenied")
      (str "Object encrypted with SSE-C requires customer key headers"))
  | .ok (some clientKey) =>
    if computeSSECKeySHA256 call clientKey ≠ m.ssecKeySHA256 then
      .error (.error 403 (str "AccessDenied")
        (str "The provided SSE-C key does not match the key used to encrypt the object"))
    else .ok clientKey

/-- The reader the body is taken from, its announced length, and whether the
raw data stands in for what could not be decrypted. -/
structure Opened where
  data : Answer
  contentLength : Int
  fallback : Bool
  deriving DecidableEq, Repr

/-- The decryption of what the store handed out. -/
def openObject (keys : κ) (r : Request) (bucket key userID : Bytes)
    (m : ObjectMetadata) (data : Answer) : Except Reply Opened :=
  if m.ssecUsed then
    match validateObjectSSECKey call r m with
    | .error reply => .error reply
    | .ok clientKey =>
      match call.crypto with
      | none => .ok ⟨data, m.size, false⟩
      | some crypto =>
        if m.encryptedDEK = [] then .ok ⟨data, m.size, false⟩
        else
          match crypto.decryptWithClientKey data clientKey m.encryptedDEK m.size with
          | .error _ => .error internalError
          | .ok plain => .ok ⟨plain, m.size, false⟩
  else
    match call.crypto with
    | none => .ok ⟨data, m.size, false⟩
    | some crypto =>
      if ¬ m.encrypted ∨ m.encryptedDEK = [] then .ok ⟨data, m.size, false⟩
      else if r.headerGet (str "x-amz-raw-decryption-fallback") = str "true" then
        match readAll (limited g.maxUploadBytes data) with
        | .error _ => .error internalError
        | .ok rawBackup =>
          match crypto.decryptOperation keys userID bucket key ⟨rawBackup, some .eof⟩ m.encryptedDEK with
          | .error _ => .ok ⟨⟨rawBackup, some .eof⟩, rawBackup.length, true⟩
          | .ok plain => .ok ⟨plain, m.size, false⟩
      else
        match crypto.decryptOperation keys userID bucket key data m.encryptedDEK with
        | .error _ => .error internalError
        | .ok plain => .ok ⟨plain, m.size, false⟩

def isClientDisconnected (message : Bytes) : Bool :=
  [str "broken pipe", str "connection reset", str "client disconnected", str "use of closed connection"].any
    fun sign => (index message sign).isSome

/-- What becomes of a failed transfer. -/
def streamFailure (message : Bytes) : Option Bytes :=
  if isClientDisconnected message then none else some (str "failed to stream object body: " ++ message)

/-- `1<<20`: larger objects are not cached. -/
def cachedLimit : Int := 1048576

/-- Objects that go through the cache. -/
def cacheable (rangeHeader : Bytes) : Bool :=
  m.size < cachedLimit && rangeHeader = [] && !m.encrypted

def cacheKey (bucket key : Bytes) : Bytes := bucket ++ str "/" ++ key

/-- The transfer of the body. A body that goes through the cache is read as a
whole first, up to the limit; what was read before a failure is lost. -/
def sendBody (limit : Int) (call : Call κ) (w : World κ) (bucket key : Bytes) (status : Nat)
    (headers : List (Bytes × Bytes)) (data : Answer) (caching : Bool) : Reply × World κ :=
  match w.cache, caching with
  | some cache, true =>
    match readAll (limited limit data) with
    | .ok body =>
      (.sent status headers body none, { w with cache := cache.set call.db.now (cacheKey bucket key) body })
    | .error e => (.sent status headers [] (streamFailure e), w)
  | _, _ =>
    match readAll data with
    | .ok body => (.sent status headers body none, w)
    | .error e => (.sent status headers data.bytes (streamFailure e), w)

/-- The part of `handleGetObject` from the opened reader on. -/
def answerObject (bucket key : Bytes) (m : ObjectMetadata)
    (opened : Opened) : Reply × World κ :=
  let rangeHeader := r.headerGet (str "Range")
  let fallback := if opened.fallback then [(str "x-amz-decryption-fallback", str "true")] else []
  let cacheStatus := if w.cache.isSome then str "MISS" else []
  if rangeHeader = [] then
    sendBody cachedLimit call w bucket key 200
      (fallback ++ objectHeaders call r m opened.contentLength cacheStatus [])
      opened.data (cacheable m rangeHeader)
  else
    match parseRangeHeader rangeHeader m.size with
    | .error e => (.error 416 (str "InvalidRange") e, w)
    | .ok (start, last) =>
      let contentRange := str "bytes " ++ str (toString start) ++ str "-" ++ str (toString last) ++ str "/" ++
        str (toString m.size)
      sendBody cachedLimit call w bucket key 206
        (fallback ++ objectHeaders call r m (last - start + 1) cacheStatus contentRange)
        (limited (last - start + 1) ⟨opened.data.bytes.drop start.toNat, opened.data.err⟩)
        (cacheable m rangeHeader)

/-- The object from its tier. -/
def fetchObject (bucket key userID : Bytes)
    (m : ObjectMetadata) : Reply × World κ :=
  match Storage.get g.tiers call.disk w.fs bucket key m.storageTier with
  | .error _ => (noSuchKey key, w)
  | .ok data =>
    match openObject g call w.keys r bucket key userID m data with
    | .error reply => (reply, w)
    | .ok opened => answerObject call w r bucket key m opened

/-- The object from the cache, if it may come from there and is there. -/
def cachedObject (bucket key : Bytes) (m : ObjectMetadata) :
    Option Bytes × World κ :=
  match w.cache, cacheable m (r.headerGet (str "Range")) with
  | some cache, true =>
    let (found, cache) := cache.get call.db.now (cacheKey bucket key)
    (found, { w with cache })
  | _, _ => (none, w)

/-- The part of `handleGetObject` that follows the access checks. -/
def serveObject (bucket key userID : Bytes) :
    Reply × World κ :=
  match getObject w.metadata bucket key with
  | .error _ => (noSuchKey key, w)
  | .ok m =>
    if m.deleteMarker then (.error 404 (str "NoSuchKey") (str "Object has been deleted"), w)
    else
      match precondition call r m with
      | some reply => (reply, w)
      | none =>
        match cachedObject call w r bucket key m with
        | (some data, w) => (.sent 200 (objectHeaders call r m data.length (str "HIT") []) data none, w)
        | (none, w) => fetchObject g call w r bucket key userID m

/-- A credential in the query counts as a presigned URL, of which only the
method is looked at. -/
def handleGetObject (bucket key : Bytes) :
    Option (Reply × World κ) :=
  let serve (w : World κ) := withUserID g call w r fun userID w => serveObject g call w r bucket key userID
  if r.method ≠ str "GET" then some (.refused (str "method not allowed"), w)
  else if r.queryGet (str "X-Amz-Credential") ≠ [] ∨ isBucketPublicRead g w bucket then some (serve w)
  else identified g call w r (str "read") bucket key accessDenied fun w => some (serve w)

/-- `writeObjectResponseHeaders` for a `HEAD`, which names the storage class
and leaves out what concerns a body. -/
def headHeaders : List (Bytes × Bytes) :=
  let keyMD5 := r.headerGet (str "x-amz-server-side-encryption-customer-key-MD5")
  let checksumMode := r.headerGet (str "x-amz-checksum-mode")
  [(str "Content-Type", m.contentType), (str "Content-Length", str (toString m.size)),
    (str "ETag", quoted m.etag), (str "Last-Modified", call.formatHTTPTime m.modifiedAt),
    (str "X-Amz-Storage-Class", Listing.tierName m.storageTier)] ++
    (if m.ssecUsed then
      (str "x-amz-server-side-encryption-customer-algorithm", str "AES256") ::
        (if keyMD5 ≠ [] then [(str "x-amz-server-side-encryption-customer-key-MD5", keyMD5)] else [])
    else if m.encrypted then [(str "x-amz-server-side-encryption", str "AES256")] else []) ++
    (m.userMetadata.map fun e => (str "X-Amz-Meta-" ++ e.1, e.2)) ++
    (if checksumMode ≠ str "ENABLED" ∧ (m.checksum = [] ∨ m.checksumType = []) then []
    else if m.checksumType = str "crc32c" ∨ m.checksumType = str "sha256" ∨ m.checksumType = str "md5" then
      [(str "x-amz-checksum-" ++ m.checksumType, m.checksum)]
    else [])

/-- The part of `handleHeadObject` that follows the access check. A delete
marker is described like any record. -/
def describeObject (s : Store) (r : Request) (bucket key : Bytes) : Reply :=
  match getObject s bucket key with
  | .error e => .refused (str "object not found: " ++ e.text)
  | .ok m =>
    match if m.ssecUsed then validateObjectSSECKey call r m else .ok [] with
    | .error reply => reply
    | .ok _ => .sent 200 (headHeaders call r m) [] none

def handleHeadObject (bucket key : Bytes) :
    Option (Reply × World κ) :=
  if r.method ≠ str "HEAD" then some (.refused (str "method not allowed"), w)
  else if isBucketPublicRead g w bucket then some (describeObject call w.metadata r bucket key, w)
  else
    identified g call w r (str "read") bucket key accessDenied fun w =>
      some (describeObject call w.metadata r bucket key, w)

/-! ### Copying -/

/-- The entries of the source, overridden by those of the request. -/
def mergeMetadata (source own : List (Bytes × Bytes)) : List (Bytes × Bytes) :=
  (source.filter fun e => (own.lookup e.1).isNone) ++ own

/-- The copy of an opened source. A copy of an encrypted object is marked as
encrypted and has no data key. -/
def copyPlan (bucket key : Bytes) (source : ObjectMetadata) (data : Answer) : Plan :=
  let contentType := r.headerGet (str "Content-Type")
  ⟨data, source.size, buildActiveObjectMetadata call bucket key
    ⟨source.size, if contentType = [] then source.contentType else contentType,
      mergeMetadata source.userMetadata (parseUserMetadata r), source.encrypted, [], none⟩⟩

def copyFrom (bucket key srcBucket srcKey : Bytes) :
    Reply × World κ :=
  match getObject w.metadata srcBucket srcKey with
  | .error _ =>
    (.error 404 (str "NoSuchKey") (str "Source object '" ++ srcBucket ++ str "/" ++ srcKey ++ str "' not found"), w)
  | .ok source =>
    if source.deleteMarker then (.error 404 (str "NoSuchKey") (str "Source object has been deleted"), w)
    else
      withUserID g call w r fun _ w =>
        match Storage.get g.tiers call.disk w.fs srcBucket srcKey source.storageTier with
        | .error e => (.refused (str "failed to read source object: " ++ e), w)
        | .ok data =>
          let plan := copyPlan call r bucket key source data
          match putStoredObjectWithMetadata g call w bucket key plan "failed to copy object" with
          | (.error e, w) => (.refused e, w)
          | (.ok (), w) =>
            (.sent 200 [(str "ETag", quoted call.etag), (str "x-amz-version-id", call.versionID),
              (str "x-amz-copy-source-version-id", source.versionID)] [] none, w)

def handleCopyObject (bucket key : Bytes) :
    Option (Reply × World κ) :=
  if r.method ≠ str "PUT" then some (.refused (str "method not allowed"), w)
  else
    identified g call w r (str "write") bucket key accessDenied fun w =>
      let copySource := r.headerGet (str "x-amz-copy-source")
      if copySource = [] then some (.refused (str "missing x-amz-copy-source header"), w)
      else
        match cut (trimPrefix copySource (str "/")) 47 with
        | (_, none) => some (.refused (str "invalid copy source format, expected /bucket/key"), w)
        | (srcBucket, some srcKey) =>
          identified g call w r (str "read") srcBucket srcKey
            (fun e => .refused (str "access denied on source: " ++ e)) fun w =>
              some (copyFrom g call w r bucket key srcBucket srcKey)

/-! ### Deleting -/

/-- The record of a deletion that keeps the versions. -/
def deleteMarkerOf (bucket key : Bytes) (m : ObjectMetadata) : ObjectMetadata :=
  { buildActiveObjectMetadata call bucket key ⟨0, str "application/octet-stream", [], false, [], none⟩ with
    storageTier := m.storageTier
    deleteMarker := true }

/-- The data, the cached body and the record, in this order. -/
def removeObject (bucket key : Bytes) (m : ObjectMetadata) :
    Except (Bytes × Bytes) Unit × World κ :=
  match Storage.delete g.tiers call.disk w.fs bucket key m.storageTier with
  | (.error e, fs) => (.error (str "data", e), { w with fs })
  | (.ok (), fs) =>
    let w := { w with fs, cache := w.cache.map fun cache => ObjectCache.delete cache (cacheKey bucket key) }
    match deleteObject call.db w.metadata bucket key with
    | (.error e, metadata) => (.error (str "metadata", e.text), { w with metadata })
    | (.ok (), metadata) => (.ok (), { w with metadata })

def retained : Bool :=
  r.headerGet (str "x-amz-bypass-governance-retention") ≠ str "true" &&
    m.retainUntil.any fun time => time > call.db.now

def isVersioned (bucket : Bytes) : Bool :=
  (w.metadata.buckets.get bucket).any (·.versioning)

/-- The last lines of `handleDeleteObject`: the user is looked up for the audit
log, which can still end in a panic. -/
def deletedReply (headers : List (Bytes × Bytes)) (w : World κ) :
    Reply × World κ :=
  withUserID g call w r fun _ w => (.sent 204 headers [] none, w)

def deleteExisting (bucket key : Bytes)
    (m : ObjectMetadata) : Reply × World κ :=
  if retained call r m then
    (.error 403 (str "ObjectLocked") (str "Object is under retention lock"), w)
  else if r.headerGet (str "x-amz-delete-marker") ≠ str "false" ∧ isVersioned w bucket then
    let marker := deleteMarkerOf call bucket key m
    match putObject call.db w.metadata bucket key marker with
    | (.error e, metadata) =>
      (.refused (str "failed to create delete marker: " ++ e.text), { w with metadata })
    | (.ok (), metadata) =>
      deletedReply g call r [(str "x-amz-delete-marker", str "true"), (str "x-amz-version-id", marker.versionID)]
        { w with metadata }
  else
    match removeObject g call w bucket key m with
    | (.error (part, e), w) => (.refused (str "failed to delete object " ++ part ++ str ": " ++ e), w)
    | (.ok (), w) => deletedReply g call r [] w

def handleDeleteObject (bucket key : Bytes) :
    Option (Reply × World κ) :=
  if r.method ≠ str "DELETE" then some (.refused (str "method not allowed"), w)
  else
    identified g call w r (str "delete") bucket key accessDenied fun w =>
      match getObject w.metadata bucket key with
      | .error _ => some (.sent 204 [] [] none, w)
      | .ok m => some (deleteExisting g call w r bucket key m)

/-- The loop of `handleDeleteObjects`: the keys deleted with their versions,
and those that were not, with a code and a message. -/
def deleteEach (g : Config) (call : Call κ) (bucket : Bytes) : List Bytes → World κ →
    (List (Bytes × Bytes) × List (Bytes × Bytes × Bytes)) × World κ
  | [], w => (([], []), w)
  | key :: rest, w =>
    match getObject w.metadata bucket key with
    | .error _ =>
      let ((gone, failed), w) := deleteEach g call bucket rest w
      ((gone, (key, str "NoSuchKey", str "Object '" ++ key ++ str "' not found") :: failed), w)
    | .ok m =>
      match removeObject g call w bucket key m with
      | (.error (part, e), w) =>
        let ((gone, failed), w) := deleteEach g call bucket rest w
        ((gone, (key, str "InternalError", str "Failed to delete object " ++ part ++ str ": " ++ e) :: failed), w)
      | (.ok (), w) =>
        let ((gone, failed), w) := deleteEach g call bucket rest w
        (((key, m.versionID) :: gone, failed), w)

def maxRequestBodyBytes : Int := 50 * 1024 * 1024

/-- The batch deletion. `parse` decodes the document of the request: the keys,
and whether the deleted ones are left out of the answer. The identity is asked
for on the way to the handler. -/
def handleDeleteObjects (parse : Bytes → Except Bytes (List Bytes × Bool))
    (w : World κ) (r : Request) (bucket : Bytes) : Reply × World κ :=
  if r.method ≠ str "POST" then (.refused (str "method not allowed"), w)
  else
    match readAll (limited maxRequestBodyBytes r.body) with
    | .error e => (.refused (str "failed to read request body: " ++ e), w)
    | .ok body =>
      match parse body with
      | .error e => (.refused (str "failed to parse delete request: " ++ e), w)
      | .ok (keys, quiet) =>
        withUserID g call w r fun _ w =>
          let ((gone, failed), w) := deleteEach g call bucket keys w
          (.deleted (if quiet then [] else gone) failed, w)

/-- The `POST` branch of `handleBucketOperations`. -/
def postBucket (parse : Bytes → Except Bytes (List Bytes × Bool)) (w : World κ)
    (r : Request) (bucket : Bytes) : Option (Reply × World κ) :=
  if r.queryHas (str "delete") then
    identified g call w r (str "delete") bucket [] accessDenied fun w =>
      some (handleDeleteObjects g call parse w r bucket)
  else some (.refused (str "unsupported POST operation on bucket"), w)

/-! ### What an answer depends on -/

section
variable {g : Config} {call : Call κ} {w w' : World κ} {r : Request} {bucket key userID : Bytes} {m : ObjectMetadata}

theorem sendBody_answer (limit : Int) (call : Call κ) (w : World κ) (bucket key : Bytes) (status : Nat)
    (headers : List (Bytes × Bytes)) (data : Answer) (caching : Bool) :
    (sendBody limit call w bucket key status headers data caching).1 =
      if w.cache.isSome && caching then
        match readAll (limited limit data) with
        | .ok body => .sent status headers body none
        | .error e => .sent status headers [] (streamFailure e)
      else
        match readAll data with
        | .ok body => .sent status headers body none
        | .error e => .sent status headers data.bytes (streamFailure e) := by
  unfold sendBody
  cases w.cache with
  | none => cases readAll data <;> rfl
  | some cache =>
    cases caching with
    | false => cases readAll data <;> rfl
    | true => cases readAll (limited limit data) <;> rfl

/-- What is sent depends on the presence of a cache alone. -/
theorem answerObject_congr (caches : w'.cache.isSome = w.cache.isSome) (opened : Opened) :
    (answerObject call w' r bucket key m opened).1 = (answerObject call w r bucket key m opened).1 := by
  unfold answerObject
  by_cases whole : r.headerGet (str "Range") = []
  · simp only [if_pos whole, sendBody_answer, caches]
  · simp only [if_neg whole]
    cases parseRangeHeader (r.headerGet (str "Range")) m.size with
    | error e => rfl
    | ok bounds => simp only [sendBody_answer, caches]

/-- What is fetched depends on the keys and the one file besides. -/
theorem fetchObject_congr (keys : w'.keys = w.keys) (caches : w'.cache.isSome = w.cache.isSome)
    (data : Storage.get g.tiers call.disk w'.fs bucket key m.storageTier =
      Storage.get g.tiers call.disk w.fs bucket key m.storageTier) :
    (fetchObject g call w' r bucket key userID m).1 = (fetchObject g call w r bucket key userID m).1 := by
  unfold fetchObject
  rw [data, keys]
  cases Storage.get g.tiers call.disk w.fs bucket key m.storageTier with
  | error e => rfl
  | ok data =>
    simp only
    cases openObject g call w.keys r bucket key userID m data with
    | error reply => rfl
    | ok opened => exact answerObject_congr caches opened

/-- A look into the cache may move or drop what it looked for. -/
theorem cachedObject_world (call : Call κ) (w : World κ) (r : Request) (bucket key : Bytes) (m : ObjectMetadata) :
    ∃ cache, (cachedObject call w r bucket key m).2 = { w with cache } ∧ cache.isSome = w.cache.isSome := by
  unfold cachedObject
  split
  · next cache held caching => exact ⟨_, rfl, by rw [held]; rfl⟩
  · exact ⟨w.cache, rfl, rfl⟩

theorem cachedObject_congr (caches : w'.cache = w.cache) :
    (cachedObject call w' r bucket key m).1 = (cachedObject call w r bucket key m).1 := by
  unfold cachedObject
  rw [caches]
  split <;> rfl

/-- A read looks at the record, what is cached, the keys and the one file. -/
theorem serveObject_congr (record : getObject w'.metadata bucket key = getObject w.metadata bucket key)
    (cached : ∀ m, (cachedObject call w' r bucket key m).1 = (cachedObject call w r bucket key m).1)
    (keys : w'.keys = w.keys) (caches : w'.cache.isSome = w.cache.isSome)
    (data : ∀ m, getObject w.metadata bucket key = .ok m →
      Storage.get g.tiers call.disk w'.fs bucket key m.storageTier =
        Storage.get g.tiers call.disk w.fs bucket key m.storageTier) :
    (serveObject g call w' r bucket key userID).1 = (serveObject g call w r bucket key userID).1 := by
  unfold serveObject
  rw [record]
  cases found : getObject w.metadata bucket key with
  | error e => rfl
  | ok m =>
    simp only
    by_cases marked : m.deleteMarker = true
    · rw [if_pos marked, if_pos marked]
    rw [if_neg marked, if_neg marked]
    cases precondition call r m with
    | some reply => rfl
    | none =>
      obtain ⟨_, here, kept⟩ := cachedObject_world call w r bucket key m
      obtain ⟨_, there, kept'⟩ := cachedObject_world call w' r bucket key m
      have same := cached m
      rcases looked : cachedObject call w r bucket key m with ⟨_, _⟩
      rcases looked' : cachedObject call w' r bucket key m with ⟨hit', _⟩
      rw [looked, looked'] at same
      rw [looked] at here
      rw [looked'] at there
      subst same here there
      cases hit' with
      | some body => rfl
      | none =>
        refine fetchObject_congr ?_ ?_ (data m found)
        · exact keys
        · rw [kept', kept]
          exact caches

end

end CipherLake.Gateway
