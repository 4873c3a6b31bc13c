import CipherLake.ControlPolicy
import CipherLake.IdentityPolicies

/-! What a temporary credential of a role lets its holder do. The record of a
credential does not name the role it was issued for. Whoever presents it is a
synthetic user who may read, write and delete, and the policies of the role are
never looked at. -/
namespace CipherLake.RoleCredentials
open Lib Http Iam IamProofs AccessControl PolicyDecisions PolicySpecification IamService List

/-- A credential that `AssumeRole` issued. -/
structure Session (L : Library) where
  fuel : Nat
  drawn : Drawn
  now : Int
  before : Records
  roleARN : Bytes
  durationSeconds : Int
  callerARN : Bytes
  credential : TemporaryCredential
  after : Records
  issued : assumeRole L fuel drawn now before roleARN durationSeconds callerARN = some (.ok credential, after)

def Session.roleName {L : Library} (session : Session L) : Bytes := extractRoleNameFromARN session.roleARN

/-- Whom a request is made by if it is made with the credential. -/
def credentialIdentity (cred : TemporaryCredential) : Identity := toAuthIdentity (stsUser cred.accessKeyID) none

/-- The permission policies of a role; a role that is gone has none. -/
def permissionPolicies (r : Records) (roleName : Bytes) : List Bytes :=
  ((r.roles.get roleName).map (·.permissionPolicies)).getD []

/-- The context a request is evaluated in, for any name of the principal. -/
def requestContext (env : Env) (principal action bucket key : Bytes) (req : Request) : EvalContext where
  principal := principal
  action := mapActionToIAM action
  resource := if key ≠ [] then makeObjectARN bucket key else makeBucketARN bucket
  conditions := []
  sourceIP := extractClientIP req
  time := env.clock.now.toNat
  userAgent := []
  principalType := []
  resourceTags := []
  principalTags := []
  requestTags := []
  s3Prefix := []
  s3ACL := []

/-- The statements that apply to the sessions of a role: those of its permission
policies and those of the bucket's policy. -/
def sessionStatements (r : Records) (roleName : Bytes) (ctx : EvalContext) : List Statement :=
  (sessionPolicies r.evaluated (permissionPolicies r roleName) none ++ resourcePolicies r.evaluated ctx).flatMap
    (·.statement)

/-- The policies allow the request: an Allow matches, and no Deny does. -/
def RoleGrants (L : Library) (r : Records) (roleName : Bytes) (ctx : EvalContext) : Prop :=
  AnyMatch (Matches L ctx) (str "Allow") (sessionStatements r roleName ctx) ∧
    ¬ AnyMatch (Matches L ctx) (str "Deny") (sessionStatements r roleName ctx)

section
variable (env : Env) (a : AuthHandler) (logins : Logins) (r : Records) (req : Request) (action bucket key : Bytes)

/-- The request is authenticated, and `Check` allows it. -/
def Admitted : Prop :=
  ∃ fuel identity logins', requireIdentity env fuel ⟨a, some r.evaluated⟩ logins req action bucket key =
    some (.ok identity, logins')

/-- What is let through without the role: the three permissions of the synthetic
user or, if there is an IAM user of that name, what this user may do. -/
def LetThrough (cred : TemporaryCredential) : Prop :=
  match r.users.get (str "sts:" ++ cred.accessKeyID) with
  | none => action ∈ [str "read", str "write", str "delete"]
  | some u => u.name = str "admin" ∨
    let ctx := requestContext env (makeUserARN u.name) action bucket key req
    (∀ scp ∈ r.scp, DocumentPasses (verdict env.library ctx) scp) ∧
      Permits (verdict env.library ctx) r.evaluated ctx (r.users.get ctx.principal)

end

section
variable {env : Env} {a : AuthHandler} {logins logins' : Logins} {r : Records} {req : Request}
  {action bucket key : Bytes} {cred : TemporaryCredential}

theorem checkLegacy_credential : checkLegacy (credentialIdentity cred) action bucket = .ok () ↔
      action ∈ [str "read", str "write", str "delete"] := by
  have permissions : (credentialIdentity cred).permissions = [str "read", str "write", str "delete"] := by
    simp [credentialIdentity, toAuthIdentity, stsUser]
  have bucketPerms : (credentialIdentity cred).bucketPerms = [] := by
    simp [credentialIdentity, toAuthIdentity, stsUser]
  have plain : str "read" ≠ str "admin" ∧ str "write" ≠ str "admin" ∧ str "delete" ≠ str "admin" := by decide
  have listed : ([str "read", str "write", str "delete"].any fun perm => perm = action || perm = str "admin") = true ↔
      action ∈ [str "read", str "write", str "delete"] := by
    simp [plain.1, plain.2.1, plain.2.2, @eq_comm Bytes action]
  simp only [checkLegacy, permissions, bucketPerms, lookup_nil, Option.or_none, Option.getD_none, ite_self,
    ne_eq, not_true_eq_false, if_false]
  rw [← listed]
  split
  · next found => simp only [found]
  · next missing => simp [missing]

/-- Some number of rounds makes `CheckIAMAccess` allow a request. -/
theorem checkIAMAccess_iff {u : IAMUser} :
    (∃ fuel, checkIAMAccess env fuel r.evaluated u (mapActionToIAM action) bucket key req = some (.ok ())) ↔
      u.name = str "admin" ∨
      EvaluatesAllow env.library r.evaluated (requestContext env (makeUserARN u.name) action bucket key req) := by
  unfold checkIAMAccess
  by_cases admin : u.name = str "admin"
  · simp [admin]
  simp only [admin, if_false, false_or, EvaluatesAllow, Allows]
  refine exists_congr fun fuel => ?_
  change ((evaluate env.library fuel r.evaluated (requestContext env (makeUserARN u.name) action bucket key req)).map
    _ = _) ↔ _
  cases evaluate env.library fuel r.evaluated (requestContext env (makeUserARN u.name) action bucket key req) with
  | none => simp
  | some result =>
    by_cases allowed : result.decision = .allow <;> simp [allowed]

theorem check_credential :
    (∃ fuel, check env fuel ⟨a, some r.evaluated⟩ (credentialIdentity cred) action bucket key req = some (.ok ())) ↔
      LetThrough env r req action bucket key cred := by
  have role : (credentialIdentity cred).role ≠ str "admin" := by
    have user : (credentialIdentity cred).role = str "user" := by simp [credentialIdentity, toAuthIdentity, stsUser]
    rw [user]
    decide
  have isIAM : (credentialIdentity cred).isIAM = true := by simp [credentialIdentity, toAuthIdentity, stsUser]
  have name : (credentialIdentity cred).name = str "sts:" ++ cred.accessKeyID := by
    simp [credentialIdentity, toAuthIdentity, stsUser]
  have users : r.evaluated.users = r.users := rfl
  simp only [check, role, if_false, isIAM, if_true, name, users, LetThrough]
  cases r.users.get (str "sts:" ++ cred.accessKeyID) with
  | none =>
    simp only [Option.some.injEq, exists_const]
    exact checkLegacy_credential
  | some u =>
    rw [checkIAMAccess_iff, evaluatesAllow_iff, evaluateBy_allows]
    exact Iff.rfl

theorem admitted_iff
    (authenticated : authenticate env ⟨a, some r.evaluated⟩ logins req = (.ok (credentialIdentity cred), logins')) :
    Admitted env a logins r req action bucket key ↔ LetThrough env r req action bucket key cred := by
  rw [← @check_credential env a]
  unfold Admitted requireIdentity
  simp only [authenticated]
  refine exists_congr fun fuel => ?_
  cases check env fuel ⟨a, some r.evaluated⟩ (credentialIdentity cred) action bucket key req with
  | none => simp
  | some checked =>
    cases checked with
    | error e => simp
    | ok _ => simp

end

/-- A request with a role's credential stays within the role's policies and the
bucket's, whatever name they know the session by, exactly if they allow it
anyway or it asks for something that the synthetic user may not do. -/
theorem within_role_iff (env : Env) (session : Session env.library) (a : AuthHandler) (logins logins' : Logins)
    (r : Records) (req : Request) (action bucket key principal : Bytes)
    (authenticated : authenticate env ⟨a, some r.evaluated⟩ logins req =
      (.ok (credentialIdentity session.credential), logins')) :
    (Admitted env a logins r req action bucket key →
      RoleGrants env.library r session.roleName (requestContext env principal action bucket key req)) ↔
      (¬ LetThrough env r req action bucket key session.credential ∨
        RoleGrants env.library r session.roleName (requestContext env principal action bucket key req)) := by
  rw [admitted_iff authenticated]
  exact imp_iff_not_or

namespace Sample
open IdentityPolicies.Sample (env handler)
open ControlPolicy.Sample (document roleARN callerARN)

theorem id_length : (str "0123456789abcdef").length = 16 := rfl

def drawn : Drawn := ⟨str "0123456789abcdef", str "secret", str "token", id_length⟩

/-- A role that everybody may assume, with these permission policies. -/
def records (policies : List Bytes) : Records :=
  { Records.empty with
    policies := Table.empty.put (str "Everything") (document (str "Allow"))
    roles := Table.empty.put (str "ops") ⟨str "ops", document (str "Allow"), policies, 3600⟩ }

def cred : TemporaryCredential := credential drawn 0 3600

def after (policies : List Bytes) : Records :=
  { records policies with tempCredentials := Table.empty.put cred.accessKeyID cred }

def session (policies : List Bytes) : Session env.library where
  fuel := 1
  drawn := drawn
  now := 0
  before := records policies
  roleARN := roleARN
  durationSeconds := 0
  callerARN := callerARN
  credential := cred
  after := after policies
  issued := rfl

/-- The credential, presented as a user name and a password. -/
def request : Request :=
  { IdentityPolicies.Sample.request with header := [(str "authorization", str "Basic ASIA0123456789abcdef:secret")] }

theorem request_authenticated (policies : List Bytes) :
    authenticate env ⟨handler, some (after policies).evaluated⟩ [] request = (.ok (credentialIdentity cred), []) := by
  have closed : authenticate env ⟨handler, some (after []).evaluated⟩ [] request =
      (.ok (credentialIdentity cred), []) := by decide +kernel
  exact closed

end Sample

open Sample

open IdentityPolicies.Sample (env handler) in
/-- With a credential of a role that has no policies at all, an object is read. -/
theorem powerless_role_reads : authenticate env ⟨handler, some (after []).evaluated⟩ [] request =
        (.ok (credentialIdentity (session []).credential), []) ∧
      Admitted env handler [] (after []) request (str "read") (str "photos") (str "cat.jpg") ∧
      ∀ principal, ¬ RoleGrants env.library (after []) (session []).roleName
        (requestContext env principal (str "read") (str "photos") (str "cat.jpg") request) := by
  have authenticated := request_authenticated []
  refine ⟨authenticated, (admitted_iff authenticated).mpr ?_, fun principal granted => ?_⟩
  · exact mem_cons_self
  · obtain ⟨⟨_, listed, -⟩, -⟩ := granted
    exact not_mem_nil listed

open IdentityPolicies.Sample (env handler) in
/-- A role that may do everything is not exceeded. -/
theorem mighty_role_reads : Admitted env handler [] (after [str "Everything"]) request (str "read") (str "photos")
        (str "cat.jpg") ∧
      RoleGrants env.library (after [str "Everything"]) (session [str "Everything"]).roleName
        (requestContext env [] (str "read") (str "photos") (str "cat.jpg") request) := by
  have authenticated := request_authenticated [str "Everything"]
  have admitted : Admitted env handler [] (after [str "Everything"]) request (str "read")
      (str "photos") (str "cat.jpg") := (admitted_iff authenticated).mpr mem_cons_self
  refine ⟨admitted, (within_role_iff env (session [str "Everything"]) handler [] []
    (after [str "Everything"]) request (str "read") (str "photos") (str "cat.jpg") [] authenticated).mpr
      (Or.inr ?_) admitted⟩
  constructor
  · exact ⟨ControlPolicy.Sample.everything (str "Allow"), mem_cons_self, rfl, 1, by decide +kernel⟩
  · rintro ⟨_, listed, denies, -⟩
    obtain rfl := mem_singleton.mp listed
    exact absurd denies (by decide)

end CipherLake.RoleCredentials
