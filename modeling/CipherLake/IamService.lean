import CipherLake.Iam
import CipherLake.Lib.Program
import CipherLake.Lib.Utf8

/-! The IAM service: the operations of the bolt-backed store, each a transaction
of its own, and the service's operations on users, groups, policies, roles and
temporary credentials as programs over them. Records are kept as JSON, so their
strings come back in the form a JSON encoder gives them; the statements of a
document come from JSON already. -/
namespace CipherLake.IamService
open Lib Iam

/-! ### Records -/

structure IAMGroup where
  name : Bytes
  (users attachedPolicies : List Bytes)
  deriving DecidableEq, Repr

structure IAMRole where
  name : Bytes
  trustPolicy : PolicyDocument
  permissionPolicies : List Bytes
  maxSessionDuration : Int
  deriving DecidableEq, Repr

/-- The bolt buckets of the store, and the organisation's control policy. -/
structure Records where
  users : Table Bytes IAMUser
  groups : Table Bytes IAMGroup
  policies : Table Bytes PolicyDocument
  roles : Table Bytes IAMRole
  bucketPolicies : Table Bytes PolicyDocument
  tempCredentials : Table Bytes TemporaryCredential
  scp : Option PolicyDocument

def Records.empty : Records := ⟨Table.empty, Table.empty, Table.empty, Table.empty, Table.empty, Table.empty, none⟩

/-- What the evaluator reads of the records. -/
def Records.evaluated (r : Records) : IAMStore where
  users := r.users
  groups := r.groups.map (·.attachedPolicies)
  policies := r.policies
  bucketPolicies := r.bucketPolicies
  tempCredentials := r.tempCredentials
  scp := r.scp

def decodedKey (k : AccessKey) : AccessKey :=
  { k with accessKeyID := jsonString k.accessKeyID, status := jsonString k.status }

def decodedDocument (d : PolicyDocument) : PolicyDocument := { d with id := jsonString d.id }

/-- A user after a JSON encoding and decoding. -/
def decodedUser (u : IAMUser) : IAMUser where
  id := jsonString u.id
  name := jsonString u.name
  accessKeys := u.accessKeys.map decodedKey
  groups := u.groups.map jsonString
  attachedPolicies := u.attachedPolicies.map jsonString
  inlinePolicies := u.inlinePolicies.map decodedDocument
  permissionBoundary := jsonString u.permissionBoundary

def decodedGroup (g : IAMGroup) : IAMGroup where
  name := jsonString g.name
  users := g.users.map jsonString
  attachedPolicies := g.attachedPolicies.map jsonString

def decodedRole (r : IAMRole) : IAMRole where
  name := jsonString r.name
  trustPolicy := decodedDocument r.trustPolicy
  permissionPolicies := r.permissionPolicies.map jsonString
  maxSessionDuration := r.maxSessionDuration

/-! ### The store -/

/-- The keys bolt does not take. -/
def keyFault (key : Bytes) : Option Bytes :=
  if key = [] then some (str "key required")
  else if key.length > 32768 then some (str "key too large")
  else none

/-- The operations of the store, one transaction each. -/
inductive Op where
  | getUser (name : Bytes)
  | putUser (user : IAMUser)
  | deleteUser (name : Bytes)
  | listUsers
  | getGroup (name : Bytes)
  | putGroup (group : IAMGroup)
  | deleteGroup (name : Bytes)
  | listGroups
  | getPolicy (name : Bytes)
  | putPolicy (name : Bytes) (document : PolicyDocument)
  | deletePolicy (name : Bytes)
  | getRole (name : Bytes)
  | putRole (role : IAMRole)
  | deleteRole (name : Bytes)
  | listRoles
  | putBucketPolicy (bucket : Bytes) (document : PolicyDocument)
  | deleteBucketPolicy (bucket : Bytes)
  | putTempCredential (cred : TemporaryCredential)

/-- What an operation answers: a record or an error, whether a write failed,
or all records in key order. -/
abbrev Answer : Op → Type
  | .getUser _ => Except Bytes IAMUser
  | .getGroup _ => Except Bytes IAMGroup
  | .getPolicy _ => Except Bytes PolicyDocument
  | .getRole _ => Except Bytes IAMRole
  | .listUsers => List IAMUser
  | .listGroups => List IAMGroup
  | .listRoles => List IAMRole
  | .deleteUser _ => Unit
  | .deleteGroup _ => Unit
  | .deletePolicy _ => Unit
  | .deleteRole _ => Unit
  | .deleteBucketPolicy _ => Unit
  | .putUser _ => Except Bytes Unit
  | .putGroup _ => Except Bytes Unit
  | .putPolicy _ _ => Except Bytes Unit
  | .putRole _ => Except Bytes Unit
  | .putBucketPolicy _ _ => Except Bytes Unit
  | .putTempCredential _ => Except Bytes Unit

def lookedUp (kind name : Bytes) (found : Option β) : Except Bytes β :=
  match found with
  | some record => .ok record
  | none => .error (kind ++ str " " ++ name ++ str " not found")

/-- A write under a key: refused by bolt, or made. -/
def written (key : Bytes) (r after : Records) : Except Bytes Unit × Records :=
  match keyFault key with
  | some e => (.error e, r)
  | none => (.ok (), after)

def exec : (op : Op) → Records → Answer op × Records
  | .getUser name, r => (lookedUp (str "user") name (r.users.get name), r)
  | .getGroup name, r => (lookedUp (str "group") name (r.groups.get name), r)
  | .getPolicy name, r => (lookedUp (str "policy") name (r.policies.get name), r)
  | .getRole name, r => (lookedUp (str "role") name (r.roles.get name), r)
  | .listUsers, r => (r.users.entries.map (·.2), r)
  | .listGroups, r => (r.groups.entries.map (·.2), r)
  | .listRoles, r => (r.roles.entries.map (·.2), r)
  | .deleteUser name, r => ((), { r with users := r.users.delete name })
  | .deleteGroup name, r => ((), { r with groups := r.groups.delete name })
  | .deletePolicy name, r => ((), { r with policies := r.policies.delete name })
  | .deleteRole name, r => ((), { r with roles := r.roles.delete name })
  | .deleteBucketPolicy name, r => ((), { r with bucketPolicies := r.bucketPolicies.delete name })
  | .putUser u, r => written u.name r { r with users := r.users.put u.name (decodedUser u) }
  | .putGroup g, r => written g.name r { r with groups := r.groups.put g.name (decodedGroup g) }
  | .putPolicy name d, r => written name r { r with policies := r.policies.put name (decodedDocument d) }
  | .putRole role, r => written role.name r { r with roles := r.roles.put role.name (decodedRole role) }
  | .putBucketPolicy bucket d, r =>
    written bucket r { r with bucketPolicies := r.bucketPolicies.put bucket (decodedDocument d) }
  | .putTempCredential cred, r =>
    written cred.accessKeyID r { r with tempCredentials := r.tempCredentials.put cred.accessKeyID cred }

abbrev Service := Program Op Answer

def getUser (name : Bytes) : Service (Except Bytes IAMUser) := Program.perform (Op.getUser name)
def putUser (user : IAMUser) : Service (Except Bytes Unit) := Program.perform (Op.putUser user)
def deleteUserRecord (name : Bytes) : Service Unit := Program.perform (Op.deleteUser name)
def getGroup (name : Bytes) : Service (Except Bytes IAMGroup) := Program.perform (Op.getGroup name)
def putGroup (group : IAMGroup) : Service (Except Bytes Unit) := Program.perform (Op.putGroup group)
def deleteGroupRecord (name : Bytes) : Service Unit := Program.perform (Op.deleteGroup name)
def getPolicy (name : Bytes) : Service (Except Bytes PolicyDocument) := Program.perform (Op.getPolicy name)
def getRole (name : Bytes) : Service (Except Bytes IAMRole) := Program.perform (Op.getRole name)
def putRole (role : IAMRole) : Service (Except Bytes Unit) := Program.perform (Op.putRole role)

/-! ### Users and access keys -/

/-- `CreateUser`, with the id drawn for the user. -/
def createUser (name id : Bytes) : Service (Except Bytes Unit) := do
  match ← getUser name with
  | .ok _ => return .error (str "user " ++ name ++ str " already exists")
  | .error _ =>
    match ← putUser ⟨id, name, [], [], [], [], []⟩ with
    | .error e => return .error (str "failed to save user: " ++ e)
    | .ok () => return .ok ()

/-- The update of a user's record that most operations consist of: read it,
change it, write it back, with the error text if there is no such user. -/
def updateUser (name : Bytes) (missing : Bytes → Bytes) (change : IAMUser → Except Bytes IAMUser) :
    Service (Except Bytes Unit) := do
  match ← getUser name with
  | .error e => return .error (missing e)
  | .ok user =>
    match change user with
    | .error e => return .error e
    | .ok user => putUser user

def userMissing (name : Bytes) : Bytes → Bytes := fun _ => str "user " ++ name ++ str " not found"

def akid : Bytes := str "AKIA"
def accessKeyActive : Bytes := str "Active"
def accessKeyInactive : Bytes := str "Inactive"

/-- `CreateAccessKey`, with the characters drawn for the id and what the master
key makes of the secret. -/
def createAccessKey (userName drawn : Bytes) (encrypted : Except Bytes Bytes) : Service (Except Bytes Unit) := do
  match ← getUser userName with
  | .error _ => return .error (userMissing userName [])
  | .ok user =>
    match encrypted with
    | .error e => return .error (str "failed to encrypt secret key: " ++ e)
    | .ok secretKeyEnc =>
      match ← putUser { user with accessKeys := user.accessKeys ++ [⟨akid ++ drawn, secretKeyEnc, accessKeyActive⟩] } with
      | .error e => return .error (str "failed to save user: " ++ e)
      | .ok () => return .ok ()

/-- `DeleteAccessKey`: the first key with that id. -/
def deleteAccessKey (userName accessKeyID : Bytes) : Service (Except Bytes Unit) :=
  updateUser userName (userMissing userName) fun user =>
    if user.accessKeys.any (·.accessKeyID = accessKeyID) then
      .ok { user with accessKeys := user.accessKeys.eraseP (·.accessKeyID = accessKeyID) }
    else .error (str "access key " ++ accessKeyID ++ str " not found for user " ++ userName)

/-- The first item that passes is changed. -/
def changeFirst (test : α → Bool) (change : α → α) : List α → List α
  | [] => []
  | x :: rest => if test x then change x :: rest else x :: changeFirst test change rest

def setAccessKeyStatus (userName accessKeyID status : Bytes) : Service (Except Bytes Unit) :=
  updateUser userName id fun user =>
    if user.accessKeys.any (·.accessKeyID = accessKeyID) then
      .ok { user with
        accessKeys := changeFirst (·.accessKeyID = accessKeyID) (fun k => { k with status := status }) user.accessKeys }
    else .error (str "access key " ++ accessKeyID ++ str " not found")

def activateAccessKey (userName accessKeyID : Bytes) : Service (Except Bytes Unit) :=
  setAccessKeyStatus userName accessKeyID accessKeyActive
def deactivateAccessKey (userName accessKeyID : Bytes) : Service (Except Bytes Unit) :=
  setAccessKeyStatus userName accessKeyID accessKeyInactive

/-! ### Groups -/

def createGroup (name : Bytes) : Service (Except Bytes Unit) := do
  match ← getGroup name with
  | .ok _ => return .error (str "group " ++ name ++ str " already exists")
  | .error _ => putGroup ⟨name, [], []⟩

/-- The group is taken off each member's record, as far as there is one. -/
def leaveGroup (name userName : Bytes) : Service Unit := do
  match ← getUser userName with
  | .error _ => return ()
  | .ok user =>
    let _ ← putUser { user with groups := user.groups.erase name }
    return ()

def deleteGroup (name : Bytes) : Service (Except Bytes Unit) := do
  match ← getGroup name with
  | .error e => return .error e
  | .ok group =>
    Program.forEach group.users (leaveGroup name)
    deleteGroupRecord name
    return .ok ()

/-- The second half of `AddUserToGroup`. -/
def joinGroup (userName : Bytes) (group : IAMGroup) : Service (Except Bytes Unit) :=
  if userName ∈ group.users then return .ok ()
  else putGroup { group with users := group.users ++ [userName] }

def addUserToGroup (userName groupName : Bytes) : Service (Except Bytes Unit) := do
  match ← getUser userName with
  | .error _ => return .error (userMissing userName [])
  | .ok user =>
    match ← getGroup groupName with
    | .error _ => return .error (str "group " ++ groupName ++ str " not found")
    | .ok group =>
      if groupName ∈ user.groups then joinGroup userName group
      else
        match ← putUser { user with groups := user.groups ++ [groupName] } with
        | .error e => return .error e
        | .ok () => joinGroup userName group

def removeUserFromGroup (userName groupName : Bytes) : Service (Except Bytes Unit) := do
  match ← getUser userName with
  | .error e => return .error e
  | .ok user =>
    match ← getGroup groupName with
    | .error e => return .error e
    | .ok group =>
      match ← putUser { user with groups := user.groups.erase groupName } with
      | .error e => return .error e
      | .ok () => putGroup { group with users := group.users.erase userName }

/-- `DeleteUser`: errors of leaving the groups are ignored. -/
def deleteUser (name : Bytes) : Service (Except Bytes Unit) := do
  match ← getUser name with
  | .error _ => return .error (userMissing name [])
  | .ok user =>
    Program.forEach user.groups fun groupName => do
      let _ ← removeUserFromGroup name groupName
      return ()
    deleteUserRecord name
    return .ok ()

/-! ### Policies -/

def makePolicyARN (policyName : Bytes) : Bytes := makeARN (str "iam") (str "policy/" ++ policyName)

def createPolicy (name : Bytes) (document : PolicyDocument) : Service (Except Bytes Unit) := do
  match ← getPolicy name with
  | .ok _ => return .error (str "policy " ++ name ++ str " already exists")
  | .error _ => Program.perform (Op.putPolicy name document)

def hasPolicyRef (name : Bytes) (refs : List Bytes) : Bool :=
  refs.any fun ref => ref = name || ref = makePolicyARN name

/-- The first user, group or role that a policy is attached to. -/
def userOf (name : Bytes) (users : List IAMUser) : Option Bytes :=
  users.findSome? fun user =>
    if hasPolicyRef name user.attachedPolicies then
      some (str "policy " ++ name ++ str " is attached to user " ++ user.name)
    else if hasPolicyRef name [user.permissionBoundary] then
      some (str "policy " ++ name ++ str " is used as permission boundary by user " ++ user.name)
    else none
def groupOf (name : Bytes) (groups : List IAMGroup) : Option Bytes :=
  groups.findSome? fun group =>
    if hasPolicyRef name group.attachedPolicies then
      some (str "policy " ++ name ++ str " is attached to group " ++ group.name)
    else none
def roleOf (name : Bytes) (roles : List IAMRole) : Option Bytes :=
  roles.findSome? fun role =>
    if hasPolicyRef name role.permissionPolicies then
      some (str "policy " ++ name ++ str " is attached to role " ++ role.name)
    else none

def ensurePolicyNotAttached (name : Bytes) : Service (Except Bytes Unit) := do
  match userOf name (← Program.perform Op.listUsers) with
  | some e => return .error e
  | none =>
    match groupOf name (← Program.perform Op.listGroups) with
    | some e => return .error e
    | none =>
      match roleOf name (← Program.perform Op.listRoles) with
      | some e => return .error e
      | none => return .ok ()

def deletePolicy (name : Bytes) : Service (Except Bytes Unit) := do
  match ← ensurePolicyNotAttached name with
  | .error e => return .error e
  | .ok () =>
    Program.perform (Op.deletePolicy name)
    return .ok ()

def policyMissing (name : Bytes) : Bytes := str "policy " ++ name ++ str " not found"

def attachUserPolicy (userName policyName : Bytes) : Service (Except Bytes Unit) := do
  match ← getUser userName with
  | .error e => return .error e
  | .ok user =>
    match ← getPolicy policyName with
    | .error _ => return .error (policyMissing policyName)
    | .ok _ =>
      if policyName ∈ user.attachedPolicies then return .ok ()
      else putUser { user with attachedPolicies := user.attachedPolicies ++ [policyName] }

def detachUserPolicy (userName policyName : Bytes) : Service (Except Bytes Unit) :=
  updateUser userName id fun user =>
    .ok { user with attachedPolicies := user.attachedPolicies.erase policyName }

def attachGroupPolicy (groupName policyName : Bytes) : Service (Except Bytes Unit) := do
  match ← getGroup groupName with
  | .error e => return .error e
  | .ok group =>
    match ← getPolicy policyName with
    | .error _ => return .error (policyMissing policyName)
    | .ok _ =>
      if policyName ∈ group.attachedPolicies then return .ok ()
      else putGroup { group with attachedPolicies := group.attachedPolicies ++ [policyName] }

def detachGroupPolicy (groupName policyName : Bytes) : Service (Except Bytes Unit) := do
  match ← getGroup groupName with
  | .error e => return .error e
  | .ok group => putGroup { group with attachedPolicies := group.attachedPolicies.erase policyName }

/-- `PutUserInlinePolicy`: the first inline policy of that name is replaced. -/
def putUserInlinePolicy (userName policyName : Bytes) (document : PolicyDocument) : Service (Except Bytes Unit) :=
  updateUser userName id fun user =>
    let document := { document with id := policyName }
    .ok { user with
      inlinePolicies :=
        if user.inlinePolicies.any (·.id = policyName) then
          changeFirst (·.id = policyName) (fun _ => document) user.inlinePolicies
        else user.inlinePolicies ++ [document] }

def deleteUserInlinePolicy (userName policyName : Bytes) : Service (Except Bytes Unit) :=
  updateUser userName id fun user =>
    if user.inlinePolicies.any (·.id = policyName) then
      .ok { user with inlinePolicies := user.inlinePolicies.eraseP (·.id = policyName) }
    else .error (str "inline policy " ++ policyName ++ str " not found")

def setPermissionBoundary (userName policyName : Bytes) : Service (Except Bytes Unit) := do
  match ← getUser userName with
  | .error _ => return .error (userMissing userName [])
  | .ok user =>
    match ← getPolicy policyName with
    | .error _ => return .error (str "boundary policy " ++ policyName ++ str " not found")
    | .ok _ => putUser { user with permissionBoundary := policyName }

def removePermissionBoundary (userName : Bytes) : Service (Except Bytes Unit) :=
  updateUser userName (userMissing userName) fun user => .ok { user with permissionBoundary := [] }

/-! ### Roles and bucket policies -/

def createRole (name : Bytes) (trustPolicy : PolicyDocument) (maxSessionDuration : Int) :
    Service (Except Bytes Unit) := do
  match ← getRole name with
  | .ok _ => return .error (str "role " ++ name ++ str " already exists")
  | .error _ => putRole ⟨name, trustPolicy, [], if maxSessionDuration ≤ 0 then 3600 else maxSessionDuration⟩

def deleteRole (name : Bytes) : Service (Except Bytes Unit) := do
  Program.perform (Op.deleteRole name)
  return .ok ()

def attachRolePolicy (roleName policyName : Bytes) : Service (Except Bytes Unit) := do
  match ← getRole roleName with
  | .error e => return .error e
  | .ok role =>
    match ← getPolicy policyName with
    | .error _ => return .error (policyMissing policyName)
    | .ok _ =>
      if policyName ∈ role.permissionPolicies then return .ok ()
      else putRole { role with permissionPolicies := role.permissionPolicies ++ [policyName] }

def detachRolePolicy (roleName policyName : Bytes) : Service (Except Bytes Unit) := do
  match ← getRole roleName with
  | .error e => return .error e
  | .ok role => putRole { role with permissionPolicies := role.permissionPolicies.erase policyName }

def putBucketPolicy (bucket : Bytes) (document : PolicyDocument) : Service (Except Bytes Unit) :=
  Program.perform (Op.putBucketPolicy bucket document)

def deleteBucketPolicy (bucket : Bytes) : Service (Except Bytes Unit) := do
  Program.perform (Op.deleteBucketPolicy bucket)
  return .ok ()

/-! ### Temporary credentials -/

/-- What is drawn for a credential: the rest of its id, its secret, its token. -/
structure Drawn where
  (id secret token : Bytes)
  id_length : id.length = 16

/-- The credential, with `time.Duration(seconds) * time.Second` in 64 bits. -/
def credential (drawn : Drawn) (now seconds : Int) : TemporaryCredential :=
  ⟨str "ASIA" ++ drawn.id, drawn.secret, drawn.token, (now + (seconds * 1000000000).bmod (2 ^ 64)).toNat⟩

def storeCredential (cred : TemporaryCredential) : Service (Except Bytes TemporaryCredential) := do
  match ← Program.perform (Op.putTempCredential cred) with
  | .error e => return .error (str "failed to store temp credential: " ++ e)
  | .ok () => return .ok cred

/-- A duration of one hour by default, and at most the given one. -/
def sessionSeconds (durationSeconds limit : Int) : Int :=
  let seconds := if durationSeconds ≤ 0 then 3600 else durationSeconds
  if seconds > limit then limit else seconds

def getSessionToken (drawn : Drawn) (now durationSeconds : Int) : Service (Except Bytes TemporaryCredential) :=
  storeCredential (credential drawn now (sessionSeconds durationSeconds 129600))

def getFederationToken (drawn : Drawn) (now durationSeconds : Int) : Service (Except Bytes TemporaryCredential) :=
  storeCredential (credential drawn now (sessionSeconds durationSeconds 43200))

def extractRoleNameFromARN (arn : Bytes) : Bytes :=
  if ¬ hasPrefix arn arnPrefix then []
  else
    let parts := arn.splitOn 47
    if parts.length < 2 then [] else parts.getLastD []

/-- The context a role's trust is evaluated in. -/
def trustContext (callerARN roleARN : Bytes) (now : Int) : EvalContext :=
  ⟨callerARN, str "sts:AssumeRole", roleARN, [], [], now.toNat, [], [], [], [], [], [], []⟩

/-- The decision about a caller: what `Evaluate` says, unless the role's trust
policy has an Allow that matches. -/
def trustDecision (test : Test) (evaluated : Decision) (trustPolicy : PolicyDocument) : Option Decision :=
  match firstMatch test (str "Allow") trustPolicy.statement with
  | none => none
  | some (some _) => some .allow
  | some none => some evaluated

/-- `AssumeRole`; a result `none` is an evaluation that is not over. -/
def assumeRole (L : Library) (fuel : Nat) (drawn : Drawn) (now : Int) (r : Records) (roleARN : Bytes)
    (durationSeconds : Int) (callerARN : Bytes) : Option (Except Bytes TemporaryCredential × Records) :=
  let roleName := extractRoleNameFromARN roleARN
  if roleName = [] then some (.error (str "invalid role ARN: " ++ roleARN), r)
  else
    match r.roles.get roleName with
    | none => some (.error (str "role " ++ roleName ++ str " not found"), r)
    | some role =>
      let ctx := trustContext callerARN roleARN now
      match evaluate L fuel r.evaluated ctx with
      | none => none
      | some result =>
        match trustDecision (fun stmt => statementMatches L fuel stmt ctx) result.decision role.trustPolicy with
        | none => none
        | some .allow =>
          let seconds := if durationSeconds > 0 ∧ durationSeconds ≤ role.maxSessionDuration then durationSeconds
            else role.maxSessionDuration
          some ((storeCredential (credential drawn now seconds)).run exec r)
        | some _ => some (.error (str "access denied: caller " ++ callerARN ++
            str " is not authorized to assume role " ++ roleName), r)

/-! ### The administrator -/

def adminPolicy : PolicyDocument := ⟨[], [⟨[], str "Allow", [str "*"], [], [str "*"], [], none, []⟩]⟩

/-- `InitializeAdmin`; a policy that is there already or cannot be attached is
only logged. -/
def initializeAdmin (id drawn : Bytes) (encrypted : Except Bytes Bytes) : Service (Except Bytes Unit) := do
  let found ← getUser (str "admin")
  match found with
  | .ok ⟨_, _, _ :: _, _, _, _, _⟩ => return .ok ()
  | _ =>
    let created ← match found with
      | .ok _ => pure (.ok ())
      | .error _ => createUser (str "admin") id
    match created with
    | .error e => return .error (str "failed to create admin user: " ++ e)
    | .ok () =>
      match ← createAccessKey (str "admin") drawn encrypted with
      | .error e => return .error (str "failed to create admin access key: " ++ e)
      | .ok () =>
        let _ ← createPolicy (str "AdministratorAccess") adminPolicy
        let _ ← attachUserPolicy (str "admin") (str "AdministratorAccess")
        return .ok ()

/-- What `initializeAdmin` does once the user is there. -/
def equipAdmin (drawn : Bytes) (encrypted : Except Bytes Bytes) : Service (Except Bytes Unit) := do
  match ← createAccessKey (str "admin") drawn encrypted with
  | .error e => return .error (str "failed to create admin access key: " ++ e)
  | .ok () =>
    let _ ← createPolicy (str "AdministratorAccess") adminPolicy
    let _ ← attachUserPolicy (str "admin") (str "AdministratorAccess")
    return .ok ()

/-! ### All operations -/

/-- A call of the service that writes to the store, `AssumeRole` apart. -/
inductive Operation where
  | createUser (name id : Bytes)
  | deleteUser (name : Bytes)
  | createAccessKey (userName drawn : Bytes) (encrypted : Except Bytes Bytes)
  | deleteAccessKey (userName accessKeyID : Bytes)
  | activateAccessKey (userName accessKeyID : Bytes)
  | deactivateAccessKey (userName accessKeyID : Bytes)
  | createGroup (name : Bytes)
  | deleteGroup (name : Bytes)
  | addUserToGroup (userName groupName : Bytes)
  | removeUserFromGroup (userName groupName : Bytes)
  | createPolicy (name : Bytes) (document : PolicyDocument)
  | deletePolicy (name : Bytes)
  | attachUserPolicy (userName policyName : Bytes)
  | detachUserPolicy (userName policyName : Bytes)
  | attachGroupPolicy (groupName policyName : Bytes)
  | detachGroupPolicy (groupName policyName : Bytes)
  | putUserInlinePolicy (userName policyName : Bytes) (document : PolicyDocument)
  | deleteUserInlinePolicy (userName policyName : Bytes)
  | setPermissionBoundary (userName policyName : Bytes)
  | removePermissionBoundary (userName : Bytes)
  | createRole (name : Bytes) (trustPolicy : PolicyDocument) (maxSessionDuration : Int)
  | deleteRole (name : Bytes)
  | attachRolePolicy (roleName policyName : Bytes)
  | detachRolePolicy (roleName policyName : Bytes)
  | putBucketPolicy (bucket : Bytes) (document : PolicyDocument)
  | deleteBucketPolicy (bucket : Bytes)
  | getSessionToken (drawn : Drawn) (now durationSeconds : Int)
  | getFederationToken (drawn : Drawn) (now durationSeconds : Int)
  | initializeAdmin (id drawn : Bytes) (encrypted : Except Bytes Bytes)

/-- The result of a call without what it returns. -/
def ended (call : Service (Except Bytes α)) : Service (Except Bytes Unit) := do
  match ← call with
  | .error e => return .error e
  | .ok _ => return .ok ()

def perform : Operation → Service (Except Bytes Unit)
  | .createUser name id => createUser name id
  | .deleteUser name => deleteUser name
  | .createAccessKey userName drawn encrypted => createAccessKey userName drawn encrypted
  | .deleteAccessKey userName accessKeyID => deleteAccessKey userName accessKeyID
  | .activateAccessKey userName accessKeyID => activateAccessKey userName accessKeyID
  | .deactivateAccessKey userName accessKeyID => deactivateAccessKey userName accessKeyID
  | .createGroup name => createGroup name
  | .deleteGroup name => deleteGroup name
  | .addUserToGroup userName groupName => addUserToGroup userName groupName
  | .removeUserFromGroup userName groupName => removeUserFromGroup userName groupName
  | .createPolicy name document => createPolicy name document
  | .deletePolicy name => deletePolicy name
  | .attachUserPolicy userName policyName => attachUserPolicy userName policyName
  | .detachUserPolicy userName policyName => detachUserPolicy userName policyName
  | .attachGroupPolicy groupName policyName => attachGroupPolicy groupName policyName
  | .detachGroupPolicy groupName policyName => detachGroupPolicy groupName policyName
  | .putUserInlinePolicy userName policyName document => putUserInlinePolicy userName policyName document
  | .deleteUserInlinePolicy userName policyName => deleteUserInlinePolicy userName policyName
  | .setPermissionBoundary userName policyName => setPermissionBoundary userName policyName
  | .removePermissionBoundary userName => removePermissionBoundary userName
  | .createRole name trustPolicy maxSessionDuration => createRole name trustPolicy maxSessionDuration
  | .deleteRole name => deleteRole name
  | .attachRolePolicy roleName policyName => attachRolePolicy roleName policyName
  | .detachRolePolicy roleName policyName => detachRolePolicy roleName policyName
  | .putBucketPolicy bucket document => putBucketPolicy bucket document
  | .deleteBucketPolicy bucket => deleteBucketPolicy bucket
  | .getSessionToken drawn now durationSeconds => ended (getSessionToken drawn now durationSeconds)
  | .getFederationToken drawn now durationSeconds => ended (getFederationToken drawn now durationSeconds)
  | .initializeAdmin id drawn encrypted => initializeAdmin id drawn encrypted

end CipherLake.IamService
