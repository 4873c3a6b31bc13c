import CipherLake.IdentityPolicies
import CipherLake.Lib.Runs
import CipherLake.Lib.Utf8
import Mathlib.Logic.Encodable.Basic
import Mathlib.Logic.Equiv.List

/-! Bearer tokens of the legacy users: how they are issued, read back and
exchanged for new ones, while users are added, changed and removed. A token
generator that does not find a user makes one up, so the token of a removed user
is exchanged for one that grants reading and writing. -/
namespace CipherLake.TokenRefresh
open Lib SigV4 AccessControl

/-- The claims of a token, with the registered ones; times are in nanoseconds. -/
structure TokenClaims extends Claims where
  (expiresAt notBefore issuedAt : Option Int)
  issuer : Bytes
  deriving DecidableEq, Repr

/-- Claims as they come back from the JSON text in a token. -/
def TokenClaims.decoded (claims : TokenClaims) : TokenClaims :=
  { claims with
    userID := jsonString claims.userID
    role := jsonString claims.role
    perms := claims.perms.map jsonString
    issuer := jsonString claims.issuer }

/-- The token library: signing with HMAC, and what a token says that is well
formed and signed with the secret. -/
structure Jwt where
  signedString (secret : Bytes) (claims : TokenClaims) : Bytes
  verified (secret token : Bytes) : Except Bytes TokenClaims

/-- A signed token says what was signed. -/
def Jwt.Lawful (jwt : Jwt) : Prop :=
  ∀ secret claims, jwt.verified secret (jwt.signedString secret claims) = .ok claims.decoded

/-- `jwt.NewNumericDate`: whole seconds. -/
def numericDate (time : Int) : Int := time / 10 ^ 9 * 10 ^ 9

/-- `jwt.ParseWithClaims`. Of the registered claims the times of validity are
looked at. -/
def parseWithClaims (jwt : Jwt) (secret : Bytes) (now : Int) (token : Bytes) : Except Bytes TokenClaims :=
  match jwt.verified secret token with
  | .error e => .error e
  | .ok claims =>
    let expired := if claims.expiresAt.any (· ≤ now) then [str "token is expired"] else []
    let early := if claims.notBefore.any (now < ·) then [str "token is not valid yet"] else []
    if expired ++ early = [] then .ok claims
    else .error (str "token has invalid claims: " ++ (str ", ").intercalate (expired ++ early))

structure Config where
  secretKey : Bytes
  (requireAuth anonymousRead : Bool)
  (tokenExpiry refreshExpiry : Int)

/-- The users by their names, and the failed logins. -/
structure State where
  users : Table Bytes User
  logins : Logins

/-- What the surroundings contribute to one call. -/
structure Call where
  env : Env
  hashPassword : Bytes → Except Bytes Bytes
  generatedKey : Bytes
  saving : Except Bytes Unit

/-! ### Tokens -/

/-- Who stands in for a user that is not found. -/
def standIn (userID : Bytes) : User := ⟨userID, userID, [], [], str "user", [str "read", str "write"], []⟩

section
variable (jwt : Jwt) (c : Config) (call : Call) (users : Table Bytes User)

def generateTokenWithExpiry (userID : Bytes) (expiry : Int) : Bytes :=
  let user := (users.get userID).getD (standIn userID)
  jwt.signedString c.secretKey
    ⟨⟨userID, user.role, user.permissions⟩, some (numericDate (call.env.clock.now + expiry)), none,
      some (numericDate call.env.clock.now), str "cipherlake"⟩

def generateToken (userID : Bytes) : Bytes := generateTokenWithExpiry jwt c call users userID c.tokenExpiry

def generateRefreshToken (userID : Bytes) : Bytes := generateTokenWithExpiry jwt c call users userID c.refreshExpiry

def refreshToken (token : Bytes) : Except Bytes Bytes :=
  match parseWithClaims jwt c.secretKey call.env.clock.now token with
  | .error e => .error (str "invalid refresh token: " ++ e)
  | .ok claims => .ok (generateToken jwt c call users claims.userID)

/-- Authentication with the tokens of this library. -/
def tokenEnv : Env :=
  { call.env with
    parseToken := fun token => (parseWithClaims jwt c.secretKey call.env.clock.now token).map (·.toClaims) }

end

/-! ### Users -/

section
variable (call : Call) (users : Table Bytes User)

def notFound (name : Bytes) : Bytes := str "user " ++ name ++ str " not found"

/-- A user is added even if the table cannot be saved. -/
def addUser (id name password secretKey role : Bytes) (permissions : List Bytes)
    (bucketPermissions : List (Bytes × List Bytes)) : Except Bytes Unit × Table Bytes User :=
  match call.hashPassword password with
  | .error e => (.error (str "failed to hash password: " ++ e), users)
  | .ok hashed =>
    let secretKey := if secretKey = [] then call.generatedKey else secretKey
    match users.get name with
    | some _ => (.error (str "user " ++ name ++ str " already exists"), users)
    | none => (call.saving, users.put name ⟨id, name, hashed, secretKey, role, permissions, bucketPermissions⟩)

def removeUser (name : Bytes) : Except Bytes Unit × Table Bytes User :=
  if name = str "admin" then (.error (str "cannot remove admin user"), users)
  else
    match users.get name with
    | none => (.error (notFound name), users)
    | some _ => (call.saving, users.delete name)

/-- An empty role and absent permissions stay as they are. -/
def updateUser (name role : Bytes) (permissions : Option (List Bytes))
    (bucketPermissions : Option (List (Bytes × List Bytes))) : Except Bytes Unit × Table Bytes User :=
  match users.get name with
  | none => (.error (notFound name), users)
  | some user =>
    (call.saving, users.put name
      { user with
        role := if role ≠ [] then role else user.role
        permissions := permissions.getD user.permissions
        bucketPermissions := bucketPermissions.getD user.bucketPermissions })

end

/-! ### Runs -/

inductive Op where
  | addUser (id name password secretKey role : Bytes) (permissions : List Bytes)
      (bucketPermissions : List (Bytes × List Bytes))
  | removeUser (name : Bytes)
  | updateUser (name role : Bytes) (permissions : Option (List Bytes))
      (bucketPermissions : Option (List (Bytes × List Bytes)))
  | login (encoded : Bytes)
  | generateToken (userID : Bytes)
  | generateRefreshToken (userID : Bytes)
  | refreshToken (token : Bytes)
  | validateToken (token : Bytes)

inductive Outcome where
  | done (result : Except Bytes Unit)
  | token (result : Except Bytes Bytes)
  | user (result : Except Failure User)
  deriving DecidableEq

section
variable (jwt : Jwt) (c : Config)

def perform (s : State) (call : Call) : Op → Outcome × State
  | .addUser id name password secretKey role permissions bucketPermissions =>
    let (result, users) := addUser call s.users id name password secretKey role permissions bucketPermissions
    (.done result, { s with users })
  | .removeUser name =>
    let (result, users) := removeUser call s.users name
    (.done result, { s with users })
  | .updateUser name role permissions bucketPermissions =>
    let (result, users) := updateUser call s.users name role permissions bucketPermissions
    (.done result, { s with users })
  | .login encoded =>
    let handler := ⟨s.users.entries.map (·.2), c.requireAuth, c.anonymousRead⟩
    let (result, logins) := validateBasicAuth call.env handler s.logins encoded
    (.user result, { s with logins })
  | .generateToken userID => (.token (.ok (generateToken jwt c call s.users userID)), s)
  | .generateRefreshToken userID => (.token (.ok (generateRefreshToken jwt c call s.users userID)), s)
  | .refreshToken token => (.token (refreshToken jwt c call s.users token), s)
  | .validateToken token => (.user (validateJWT (tokenEnv jwt c call) token), s)

def next (s : State) (input : Call × Op) : Option State := some (perform jwt c s input.1 input.2).2

/-- What a refresh returns says no more than the table says of the user the token
names. Where there is no such user it returns nothing. -/
def Within (s : State) : Call × Op → Prop
  | (call, .refreshToken token) =>
    ∀ claims fresh, parseWithClaims jwt c.secretKey call.env.clock.now token = .ok claims →
      (perform jwt c s call (.refreshToken token)).1 = .token (.ok fresh) →
      ∃ user, s.users.get claims.userID = some user ∧ ∀ granted, jwt.verified c.secretKey fresh = .ok granted →
        granted.role = user.role ∧ granted.perms ⊆ user.permissions
  | _ => True

/-- A token that is accepted for a refresh names a user in the table, whose role
and permissions JSON leaves as they are. -/
def Standing (s : State) : Call × Op → Prop
  | (call, .refreshToken token) =>
    ∀ claims, parseWithClaims jwt c.secretKey call.env.clock.now token = .ok claims →
      ∃ user, s.users.get claims.userID = some user ∧ jsonString user.role = user.role ∧
        user.permissions.map jsonString ⊆ user.permissions
  | _ => True

end

section
variable {jwt : Jwt} {c : Config}

theorem refreshToken_eq_ok {call : Call} {users : Table Bytes User} {token : Bytes} {claims : TokenClaims}
    (accepted : parseWithClaims jwt c.secretKey call.env.clock.now token = .ok claims) :
    refreshToken jwt c call users token = .ok (generateToken jwt c call users claims.userID) := by
  rw [refreshToken, accepted]

/-- A generated token says what the table says of the user, or of who stands in. -/
theorem verified_generateToken (lawful : jwt.Lawful) (call : Call) {users : Table Bytes User} {userID : Bytes}
    {user : User} (found : (users.get userID).getD (standIn userID) = user) :
    ∃ granted, jwt.verified c.secretKey (generateToken jwt c call users userID) = .ok granted ∧
      granted.role = jsonString user.role ∧ granted.perms = user.permissions.map jsonString := by
  refine ⟨_, lawful _ _, ?_⟩
  rw [found]
  exact ⟨rfl, rfl⟩

theorem within_iff_standing (lawful : jwt.Lawful) (s : State) (input : Call × Op) :
    Within jwt c s input ↔ Standing jwt c s input := by
  obtain ⟨call, op⟩ := input
  cases op with
  | refreshToken token =>
    constructor
    · intro within claims accepted
      obtain ⟨user, found, bounded⟩ := within claims _ accepted (by rw [perform, refreshToken_eq_ok accepted])
      obtain ⟨granted, verified, role, perms⟩ := verified_generateToken lawful call
        (congrArg (Option.getD · (standIn claims.userID)) found)
      obtain ⟨sameRole, fewer⟩ := bounded granted verified
      exact ⟨user, found, role.symm.trans sameRole, perms ▸ fewer⟩
    · intro standing claims fresh accepted returned
      obtain ⟨user, found, role, perms⟩ := standing claims accepted
      rw [perform, refreshToken_eq_ok accepted] at returned
      cases Outcome.token.inj returned
      obtain ⟨granted, verified, grantedRole, grantedPerms⟩ := verified_generateToken lawful call
        (congrArg (Option.getD · (standIn claims.userID)) found)
      refine ⟨user, found, fun granted' verified' => ?_⟩
      cases verified.symm.trans verified'
      exact ⟨grantedRole.trans role, grantedPerms ▸ perms⟩
  | _ => exact Iff.rfl

end

/-- Over every sequence of calls, refreshing keeps within the user table exactly
if every accepted token names a user who is in it at that time. -/
theorem refreshes_within_iff (jwt : Jwt) (c : Config) (lawful : jwt.Lawful) (s : State) (inputs : List (Call × Op)) :
    Runs.Throughout (next jwt c) (Within jwt c) s inputs ↔ Runs.Throughout (next jwt c) (Standing jwt c) s inputs := by
  have same : Within jwt c = Standing jwt c := by
    funext s input
    exact propext (within_iff_standing lawful s input)
  rw [same]

/-! ### A removed user -/

namespace Sample

abbrev Fields := (Bytes × Bytes × List Bytes) × Option Int × Option Int × Option Int × Bytes

def fields (claims : TokenClaims) : Fields :=
  ((claims.userID, claims.role, claims.perms), claims.expiresAt, claims.notBefore, claims.issuedAt, claims.issuer)

def ofFields : Fields → TokenClaims
  | ((userID, role, perms), expiresAt, notBefore, issuedAt, issuer) =>
    ⟨⟨userID, role, perms⟩, expiresAt, notBefore, issuedAt, issuer⟩

instance encodableByte : Encodable UInt8 := Encodable.ofLeftInverse UInt8.toFin UInt8.ofFin fun _ => rfl

/-- Tokens that are numbers, written in unary. -/
def jwt : Jwt where
  signedString secret claims := secret ++ List.replicate (Encodable.encode (fields claims)) 49
  verified secret token :=
    match (Encodable.decode (token.length - secret.length) : Option Fields) with
    | none => .error (str "token is malformed")
    | some found => .ok (ofFields found).decoded

def config : Config := ⟨str "secret", true, false, 10 ^ 11, 10 ^ 12⟩

def call : Call where
  env := IdentityPolicies.Sample.env
  hashPassword := .ok
  generatedKey := str "k"
  saving := .ok ()

def initial : State := ⟨Table.empty.put (str "admin") ⟨str "user-001", str "admin", str "h", [], str "admin",
  [str "read", str "write", str "delete", str "admin"], []⟩, []⟩

/-- Bob may read. -/
def claims : TokenClaims :=
  ⟨⟨str "bob", str "user", [str "read"]⟩, some (10 ^ 12), none, some 0, str "cipherlake"⟩

def token : Bytes := jwt.signedString config.secretKey claims

/-- Bob is added, is given a token and shows it. -/
def showing : List (Call × Op) :=
  [(call, .addUser (str "user-002") (str "bob") (str "pw") [] (str "user") [str "read"] []),
    (call, .generateRefreshToken (str "bob")), (call, .refreshToken token)]

/-- In between the user is removed. -/
def removed : List (Call × Op) :=
  [(call, .addUser (str "user-002") (str "bob") (str "pw") [] (str "user") [str "read"] []),
    (call, .generateRefreshToken (str "bob")), (call, .removeUser (str "bob")), (call, .refreshToken token)]

end Sample

open Sample

theorem sample_lawful : jwt.Lawful := by
  intro secret claims
  simp only [jwt, List.length_append, List.length_replicate, Nat.add_sub_cancel_left, Encodable.encodek]
  rfl

theorem sample_accepted : parseWithClaims jwt config.secretKey call.env.clock.now token = .ok claims := by
  rw [parseWithClaims, token, sample_lawful]
  decide +kernel

/-- A user who is in the table gets a token with the permissions in it. -/
theorem present_user_refreshed : Runs.Throughout (next jwt config) (Within jwt config) initial showing := by
  apply (refreshes_within_iff jwt config sample_lawful initial showing).mpr
  rintro - ⟨⟩
  refine ⟨trivial, ?_⟩
  rintro - ⟨⟩
  refine ⟨trivial, ?_⟩
  rintro - ⟨⟩
  refine ⟨?_, trivial⟩
  intro claims accepted
  cases sample_accepted.symm.trans accepted
  refine ⟨⟨str "user-002", str "bob", str "pw", str "k", str "user", [str "read"], []⟩, ?_, ?_, ?_⟩
  · decide +kernel
  · decide +kernel
  · decide +kernel

/-- A user who may read is given a token and is removed. The token is exchanged for
one that grants reading and writing. -/
theorem removed_user_refreshed : ∃ s₁ s₂ fresh granted, perform jwt config initial call
        (.addUser (str "user-002") (str "bob") (str "pw") [] (str "user") [str "read"] []) = (.done (.ok ()), s₁) ∧
      perform jwt config s₁ call (.generateRefreshToken (str "bob")) = (.token (.ok token), s₁) ∧
      perform jwt config s₁ call (.removeUser (str "bob")) = (.done (.ok ()), s₂) ∧
      s₂.users.get (str "bob") = none ∧
      perform jwt config s₂ call (.refreshToken token) = (.token (.ok fresh), s₂) ∧
      jwt.verified config.secretKey fresh = .ok granted ∧
      granted.role = str "user" ∧ granted.perms = [str "read", str "write"] ∧
      ¬ Runs.Throughout (next jwt config) (Within jwt config) initial removed := by
  have gone : ((initial.users.put (str "bob") ⟨str "user-002", str "bob", str "pw", str "k", str "user",
      [str "read"], []⟩).delete (str "bob")).get (str "bob") = none := Table.get_delete_same _ _
  obtain ⟨granted, verified, role, perms⟩ := verified_generateToken sample_lawful call
    (c := config) (congrArg (Option.getD · (standIn (str "bob"))) gone)
  refine ⟨_, _, _, granted, rfl, ?_, rfl, gone, ?_, verified, ?_, ?_, ?_⟩
  · have said : (⟨⟨str "bob", str "user", [str "read"]⟩, some (numericDate (0 + 10 ^ 12)), none, some (numericDate 0),
        str "cipherlake"⟩ : TokenClaims) = claims := by decide +kernel
    rw [perform, generateRefreshToken, generateTokenWithExpiry, token, ← said]
    rfl
  · rw [perform, refreshToken_eq_ok sample_accepted]
    rfl
  · rw [role]
    decide +kernel
  · rw [perms]
    decide +kernel
  · intro throughout
    obtain ⟨-, throughout⟩ := throughout _ rfl
    obtain ⟨-, throughout⟩ := throughout _ rfl
    obtain ⟨-, throughout⟩ := throughout _ rfl
    obtain ⟨within, -⟩ := throughout _ rfl
    obtain ⟨user, found, -⟩ := (within_iff_standing sample_lawful _ _).mp within _ sample_accepted
    exact Option.some_ne_none user (found.symm.trans gone)

end CipherLake.TokenRefresh
