import CipherLake.Iam
import CipherLake.SigV4

/-! Who sent a request, and what they may do: the legacy user store, the bridge
to IAM, and the provider that puts one before the other. A request is handled
at one instant. An IAM lookup that finds nobody is reported without an error
and dereferences a nil user, so authentication can also end in a panic. -/
namespace CipherLake.AccessControl
open Lib Http Iam SigV4

structure User where
  (id name passwordHash secretKey role : Bytes)
  permissions : List Bytes
  bucketPermissions : List (Bytes × List Bytes)
  deriving DecidableEq, Repr

structure Claims where
  (userID role : Bytes)
  perms : List Bytes
  deriving DecidableEq, Repr

structure Identity where
  (id name role : Bytes)
  permissions : List Bytes
  bucketPerms : List (Bytes × List Bytes)
  isIAM : Bool
  (iamUserID source : Bytes)
  deriving DecidableEq, Repr

/-- Base64, bcrypt, the check of a token against the configured secret, and the
decryption of a stored secret key. -/
structure Env where
  library : Library
  digests : Digests
  clock : Clock
  base64Decode : Bytes → Except Bytes Bytes
  comparePassword (hash password : Bytes) : Bool
  parseToken : Bytes → Except Bytes Claims
  decryptSecretKey : Bytes → Option Bytes

inductive Failure where
  | refused (message : Bytes)
  | panicked
  deriving DecidableEq, Repr

/-! ### Legacy users -/

/-- `failedLoginTracker`; the times are unset until a login fails. -/
structure Tracker where
  count : Nat
  (firstFail blockedUntil : Option Int)
  deriving DecidableEq, Repr

abbrev Logins := List (Bytes × Tracker)

/-- The users in the order the map is walked in. -/
structure AuthHandler where
  users : List User
  (requireAuth anonymousRead : Bool)
  deriving DecidableEq, Repr

variable (env : Env) (iamUser : IAMUser) (p : Provider) (a : AuthHandler) (s : IAMStore) (logins : Logins)
  (r : Request)

def isBlocked (key : Bytes) : Bool :=
  match logins.lookup key with
  | some ⟨_, _, some blockedUntil⟩ => env.clock.now < blockedUntil
  | _ => false

def recordFailedLogin (key : Bytes) : Logins :=
  let tracker := (logins.lookup key).getD ⟨0, none, none⟩
  let stale :=
    match tracker.firstFail with
    | none => true
    | some firstFail => decide (env.clock.now - firstFail > window)
  let tracker := if stale then { tracker with count := 0, firstFail := some env.clock.now } else tracker
  let tracker := { tracker with count := tracker.count + 1 }
  let tracker :=
    if tracker.count ≥ 5 then { tracker with blockedUntil := some (env.clock.now + window) } else tracker
  (key, tracker) :: logins.filter fun entry => entry.1 ≠ key

def resetFailedLogins (key : Bytes) : Logins := logins.filter fun entry => entry.1 ≠ key

def decodeBasicAuth (encoded : Bytes) : Except Bytes (Bytes × Bytes) :=
  match env.base64Decode encoded with
  | .error e => .error (str "invalid basic auth encoding: " ++ e)
  | .ok decoded =>
    match cut decoded 58 with
    | (_, none) => .error (str "invalid basic auth format")
    | (username, some password) => .ok (username, password)

def validateBasicAuth (encoded : Bytes) : Except Failure User × Logins :=
  match decodeBasicAuth env encoded with
  | .error e => (.error (.refused e), logins)
  | .ok (accessKey, secretKey) =>
    if isBlocked env logins accessKey then
      (.error (.refused (str "account temporarily locked due to too many failed attempts")), logins)
    else
      match a.users.find? fun user => user.name = accessKey && env.comparePassword user.passwordHash secretKey with
      | some user => (.ok user, resetFailedLogins logins accessKey)
      | none => (.error (.refused (str "invalid credentials")), recordFailedLogin env logins accessKey)

def validateJWT (token : Bytes) : Except Failure User :=
  match env.parseToken token with
  | .error e => .error (.refused (str "failed to parse JWT: " ++ e))
  | .ok claims => .ok ⟨claims.userID, claims.userID, [], [], claims.role, claims.perms, []⟩

def extractAWSAccessKey (auth : Bytes) : Bytes :=
  match index auth (str "Credential=") with
  | none => []
  | some i =>
    let credPart := (cut (auth.drop (i + (str "Credential=").length)) 44).1
    trimSpace (cut credPart 47).1

/-- The legacy user an access key names, if its signature verifies. -/
def signedBy (accessKey failure : Bytes) (verify : Bytes → Except Bytes Unit) : Except Failure User :=
  match a.users.find? fun user => user.name = accessKey with
  | none => .error (.refused (str "invalid AWS credentials"))
  | some user =>
    if user.secretKey = [] then .error (.refused (str "user has no secret key configured for SigV4 signing"))
    else
      match verify user.secretKey with
      | .error _ => .error (.refused failure)
      | .ok () => .ok user

/-- The access key of the credential in the query. -/
def presignedAccessKey : Bytes := (cut (r.queryGet (str "X-Amz-Credential")) 47).1

def validateAWSSignature : Except Failure User :=
  let authorization := r.headerGet (str "Authorization")
  if authorization ≠ [] then
    if ¬ hasPrefix authorization (str "AWS4-HMAC-SHA256") then
      .error (.refused (str "invalid AWS signature version"))
    else
      let accessKey := extractAWSAccessKey authorization
      if accessKey = [] then .error (.refused (str "missing access key in AWS signature"))
      else
        signedBy a accessKey (str "AWS signature verification failed")
          (verifySigV4Header env.digests env.clock r)
  else if presignedAccessKey r = [] then
    .error (.refused (str "missing authorization header or presigned URL parameters"))
  else
    signedBy a (presignedAccessKey r) (str "presigned URL signature verification failed")
      (verifySigV4PresignedURL env.digests env.clock r)

/-- `AuthHandler.Authenticate`. -/
def authenticateLegacy : Except Failure User × Logins :=
  let authHeader := r.headerGet (str "Authorization")
  if authHeader = [] then
    if a.requireAuth then (.error (.refused (str "authentication required")), logins)
    else (.ok ⟨str "anonymous", str "anonymous", [], [], str "anonymous",
      [str "read", str "write", str "delete"], []⟩, logins)
  else
    match cut authHeader 32 with
    | (_, none) => (.error (.refused (str "invalid authorization header format")), logins)
    | (scheme, some credentials) =>
      let lower := env.library.toLower scheme
      if lower = str "basic" then validateBasicAuth env a logins credentials
      else if lower = str "bearer" then (validateJWT env credentials, logins)
      else if lower = str "aws4-hmac-sha256" then (validateAWSSignature env a r, logins)
      else (.error (.refused (str "unsupported authorization type: " ++ scheme)), logins)

/-! ### The bridge to IAM -/

/-- `GetUserByAccessKeyID`. When no user holds the key, active, the store
returns a nil user and a nil error. -/
def getUserByAccessKeyID (accessKeyID : Bytes) : Except Failure (IAMUser × AccessKey) :=
  match s.users.entries.find? fun entry =>
      entry.2.accessKeys.any fun ak => ak.accessKeyID = accessKeyID && ak.status = str "Active" with
  | none => .error .panicked
  | some (_, user) =>
    match user.accessKeys.find? fun ak => ak.accessKeyID = accessKeyID with
    | some ak => .ok (user, ak)
    | none => .error (.refused (str "access key " ++ accessKeyID ++ str " not found"))

/-- `GetTempCredentialByAccessKeyID`. -/
def getTempCredential (accessKeyID : Bytes) : Except Bytes TemporaryCredential :=
  match s.tempCredentials.get accessKeyID with
  | none => .error (str "temp credential " ++ accessKeyID ++ str " not found")
  | some cred =>
    if env.clock.now > cred.expiration then .error (str "temp credential expired") else .ok cred

def iamUserToLegacy : User :=
  let role := if iamUser.name = str "admin" then str "admin" else str "user"
  let perms :=
    if str "AdministratorAccess" ∈ iamUser.attachedPolicies then
      [str "read", str "write", str "delete", str "admin"]
    else [str "read", str "write"]
  ⟨iamUser.id, iamUser.name, [], [], role, perms, []⟩

/-- The synthetic user of a temporary credential. -/
def stsUser (accessKey : Bytes) : User :=
  ⟨accessKey, str "sts:" ++ accessKey, [], [], str "user", [str "read", str "write", str "delete"], []⟩

/-- The user behind an access key, if the request is signed with its secret; a
key that cannot be found is left to the legacy users. -/
def iamSigned (accessKey failure : Bytes) (verify : Bytes → Except Bytes Unit)
    (legacy : Except Failure (User × Option IAMUser)) : Except Failure (User × Option IAMUser) :=
  match getUserByAccessKeyID s accessKey with
  | .error .panicked => .error .panicked
  | .error (.refused _) => legacy
  | .ok (iamUser, ak) =>
    match env.decryptSecretKey ak.secretKeyEnc with
    | none => .error (.refused (str "failed to decrypt secret key"))
    | some secretKey =>
      match verify secretKey with
      | .error _ => .error (.refused failure)
      | .ok () => .ok (iamUserToLegacy iamUser, some iamUser)

/-- The temporary credential behind an access key, if the session token is its
own and the request is signed with its secret. -/
def stsSigned (accessKey sessionToken failure : Bytes)
    (verify : Bytes → Except Bytes Unit) : Except Failure (User × Option IAMUser) :=
  match getTempCredential env s accessKey with
  | .error _ => .error (.refused (str "invalid temporary credentials"))
  | .ok cred =>
    if sessionToken ≠ cred.sessionToken then .error (.refused (str "invalid session token"))
    else
      match verify cred.secretAccessKey with
      | .error _ => .error (.refused failure)
      | .ok () => .ok (stsUser accessKey, none)

def validateBasicAuthIAM (encoded : Bytes) : Except Failure (User × Option IAMUser) × Logins :=
  match decodeBasicAuth env encoded with
  | .error e => (.error (.refused e), logins)
  | .ok (accessKey, secretKey) =>
    if hasPrefix accessKey (str "AKIA") then
      match getUserByAccessKeyID s accessKey with
      | .error .panicked => (.error .panicked, logins)
      | .error (.refused _) => (.error (.refused (str "invalid credentials")), logins)
      | .ok (iamUser, ak) =>
        if env.decryptSecretKey ak.secretKeyEnc = some secretKey then
          (.ok (iamUserToLegacy iamUser, some iamUser), logins)
        else (.error (.refused (str "invalid credentials")), logins)
    else if hasPrefix accessKey (str "ASIA") then
      match getTempCredential env s accessKey with
      | .error _ => (.error (.refused (str "invalid credentials")), logins)
      | .ok cred =>
        if secretKey = cred.secretAccessKey then (.ok (stsUser accessKey, none), logins)
        else (.error (.refused (str "invalid credentials")), logins)
    else
      let (result, logins) := validateBasicAuth env a logins encoded
      (result.map fun user => (user, none), logins)

def validatePresignedURLIAM : Except Failure (User × Option IAMUser) :=
  let accessKey := presignedAccessKey r
  let verify := verifySigV4PresignedURL env.digests env.clock r
  let failure := str "presigned URL signature verification failed"
  let legacy := (validateAWSSignature env a r).map fun user => (user, none)
  if r.queryGet (str "X-Amz-Credential") = [] then
    .error (.refused (str "missing authorization header or presigned URL parameters"))
  else if hasPrefix accessKey (str "AKIA") then iamSigned env s accessKey failure verify legacy
  else if hasPrefix accessKey (str "ASIA") then
    stsSigned env s accessKey (r.queryGet (str "X-Amz-Security-Token")) failure verify
  else legacy

def validateAWSSignatureIAM : Except Failure (User × Option IAMUser) :=
  let authorization := r.headerGet (str "Authorization")
  if authorization = [] then validatePresignedURLIAM env a s r
  else if ¬ hasPrefix authorization (str "AWS4-HMAC-SHA256") then
    .error (.refused (str "invalid AWS signature version"))
  else
    let accessKey := extractAWSAccessKey authorization
    let verify := verifySigV4Header env.digests env.clock r
    let legacy := (validateAWSSignature env a r).map fun user => (user, none)
    if accessKey = [] then .error (.refused (str "missing access key in AWS signature"))
    else if hasPrefix accessKey (str "AKIA") then
      iamSigned env s accessKey (str "AWS signature verification failed") verify legacy
    else if hasPrefix accessKey (str "ASIA") then
      let inHeader := r.headerGet (str "X-Amz-Security-Token")
      let sessionToken := if inHeader = [] then r.queryGet (str "X-Amz-Security-Token") else inHeader
      stsSigned env s accessKey sessionToken (str "AWS signature verification failed") verify
    else legacy

/-- `AuthenticateWithIAM`. Without an `Authorization` header nothing else is
looked at, a presigned URL included. -/
def authenticateWithIAM : Except Failure (User × Option IAMUser) × Logins :=
  let authHeader := r.headerGet (str "Authorization")
  if authHeader = [] then
    if a.requireAuth then (.error (.refused (str "authentication required")), logins)
    else (.ok (⟨str "anonymous", str "anonymous", [], [], str "anonymous", [str "read"], []⟩, none), logins)
  else
    match cut authHeader 32 with
    | (_, none) => (.error (.refused (str "invalid authorization header format")), logins)
    | (scheme, some credentials) =>
      let lower := env.library.toLower scheme
      if lower = str "basic" then validateBasicAuthIAM env a s logins credentials
      else if lower = str "bearer" then ((validateJWT env credentials).map fun user => (user, none), logins)
      else if lower = str "aws4-hmac-sha256" then (validateAWSSignatureIAM env a s r, logins)
      else (.error (.refused (str "unsupported authorization type: " ++ scheme)), logins)

/-- The evaluation context of `CheckIAMAccess`. -/
def accessContext (action bucket key : Bytes) (r : Request) : EvalContext where
  principal := makeUserARN iamUser.name
  action := action
  resource := if key ≠ [] then makeObjectARN bucket key else makeBucketARN bucket
  conditions := []
  sourceIP := extractClientIP r
  time := env.clock.now.toNat
  userAgent := []
  principalType := []
  resourceTags := []
  principalTags := []
  requestTags := []
  s3Prefix := []
  s3ACL := []

def checkIAMAccess (fuel : Nat) (s : IAMStore) (iamUser : IAMUser) (action bucket key : Bytes)
    (r : Request) : Option (Except Bytes Unit) :=
  if iamUser.name = str "admin" then some (.ok ())
  else
    let ctx := accessContext env iamUser action bucket key r
    (evaluate env.library fuel s ctx).map fun result =>
      if result.decision = .allow then .ok ()
      else .error (str "access denied: " ++ action ++ str " on " ++ ctx.resource ++ str " (policy: " ++
        result.matchedBy ++ str ")")

/-! ### The provider -/

/-- `gatewayAuthProvider`, with the IAM store if a bridge is configured. -/
structure Provider where
  authHandler : AuthHandler
  iamBridge : Option IAMStore

def isIAMAccessKey (accessKey : Bytes) : Bool :=
  hasPrefix accessKey (str "AKIA") || hasPrefix accessKey (str "ASIA")

def containsAKIAOrASIA (s : Bytes) : Bool :=
  (index s (str "AKIA")).isSome || (index s (str "ASIA")).isSome

def looksLikeIAMRequest : Bool :=
  let authHeader := r.headerGet (str "Authorization")
  if authHeader ≠ [] then
    match cut authHeader 32 with
    | (_, none) => false
    | (scheme, some credentials) =>
      let lower := env.library.toLower scheme
      if lower = str "aws4-hmac-sha256" then true
      else if lower = str "basic" then
        match decodeBasicAuth env credentials with
        | .error _ => false
        | .ok (username, _) => isIAMAccessKey username
      else containsAKIAOrASIA authHeader
  else if r.queryGet (str "X-Amz-Credential") = [] then false
  else isIAMAccessKey (presignedAccessKey r)

def toAuthIdentity (u : User) (iamUser : Option IAMUser) : Identity :=
  let identity : Identity := ⟨u.id, u.name, u.role, u.permissions, u.bucketPermissions, false, [], str "legacy"⟩
  match iamUser with
  | some iamUser => { identity with isIAM := true, iamUserID := iamUser.id, source := str "iam" }
  | none =>
    if hasPrefix u.name (str "sts:") then { identity with isIAM := true, source := str "sts" } else identity

def anonymousIdentity (anonymousRead : Bool) : Identity :=
  let perms := if anonymousRead then [str "read", str "write", str "delete"] else [str "read"]
  ⟨str "anonymous", str "anonymous", str "anonymous", perms, [], false, [], str "legacy"⟩

/-- The legacy attempt of `Authenticate`. -/
def authenticateFallback : Except Failure Identity × Logins :=
  match authenticateLegacy env p.authHandler logins r with
  | (.ok user, logins) => (.ok (toAuthIdentity user none), logins)
  | (.error .panicked, logins) => (.error .panicked, logins)
  | (.error (.refused e), logins) =>
    if p.authHandler.requireAuth then (.error (.refused e), logins)
    else (.ok (anonymousIdentity p.authHandler.anonymousRead), logins)

/-- `gatewayAuthProvider.Authenticate`. -/
def authenticate : Except Failure Identity × Logins :=
  match p.iamBridge with
  | none => authenticateFallback env p logins r
  | some s =>
    if looksLikeIAMRequest env r then
      match authenticateWithIAM env p.authHandler s logins r with
      | (.ok (user, iamUser), logins) => (.ok (toAuthIdentity user iamUser), logins)
      | (.error .panicked, logins) => (.error .panicked, logins)
      | (.error (.refused _), logins) => authenticateFallback env p logins r
    else authenticateFallback env p logins r

/-- `legacyPermissionChecker.Check`. -/
def checkLegacy (identity : Identity) (action bucket : Bytes) : Except Bytes Unit :=
  let bucketPerms :=
    if bucket = [] then []
    else ((identity.bucketPerms.lookup bucket).or (identity.bucketPerms.lookup (str "*"))).getD []
  if bucketPerms ≠ [] then
    if bucketPerms.any fun perm => perm = action || perm = str "*" then .ok ()
    else .error (str "permission denied: requires " ++ action ++ str " on bucket " ++ bucket)
  else if identity.permissions.any fun perm => perm = action || perm = str "admin" then .ok ()
  else .error (str "permission denied: requires " ++ action)

def mapActionToIAM (action : Bytes) : Bytes :=
  if action = str "read" then str "s3:GetObject"
  else if action = str "write" then str "s3:PutObject"
  else if action = str "delete" then str "s3:DeleteObject"
  else if action = str "admin" then str "s3:*"
  else action

/-- `gatewayAuthProvider.Check` for an identity. -/
def check (fuel : Nat) (p : Provider) (identity : Identity) (action bucket key : Bytes)
    (r : Request) : Option (Except Bytes Unit) :=
  if identity.role = str "admin" then some (.ok ())
  else
    match p.iamBridge with
    | none => some (checkLegacy identity action bucket)
    | some s =>
      if identity.isIAM then
        match s.users.get identity.name with
        | some iamUser => checkIAMAccess env fuel s iamUser (mapActionToIAM action) bucket key r
        | none => some (checkLegacy identity action bucket)
      else some (checkLegacy identity action bucket)

/-- `requireIdentity`, with the provider as the permission checker. -/
def requireIdentity (fuel : Nat) (p : Provider) (logins : Logins) (r : Request)
    (action bucket key : Bytes) : Option (Except Failure Identity × Logins) :=
  match authenticate env p logins r with
  | (.error e, logins) => some (.error e, logins)
  | (.ok identity, logins) =>
    (check env fuel p identity action bucket key r).map fun checked =>
      match checked with
      | .error e => (.error (.refused e), logins)
      | .ok () => (.ok identity, logins)

/-- `requestUserID`: a failed authentication counts as anonymous. -/
def requestUserID : Except Failure Bytes × Logins :=
  match authenticate env p logins r with
  | (.error .panicked, logins) => (.error .panicked, logins)
  | (.error (.refused _), logins) => (.ok (str "anonymous"), logins)
  | (.ok identity, logins) => (.ok (if identity.id = [] then str "anonymous" else identity.id), logins)

end CipherLake.AccessControl
