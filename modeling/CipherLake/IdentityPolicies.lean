import CipherLake.AccessControl
import CipherLake.PolicySpecification

/-! Whose policies decide about an IAM user's requests. The bridge names the
user by an ARN, and the evaluator takes that ARN for the name the user is
stored under, so the policies it applies are those of whoever is stored under
the ARN. -/
namespace CipherLake.IdentityPolicies
open Lib Http Iam IamProofs PolicySpecification AccessControl

/-- The identity an IAM user authenticates as. -/
def identityOf (u : IAMUser) : Identity := toAuthIdentity (iamUserToLegacy u) (some u)

/-- Of a request only the client address and the time can be referred to. -/
theorem accessContext_braceFree (env : Env) (u : IAMUser) (action bucket key : Bytes) {r : Request}
    (address : 125 ∉ extractClientIP r) : BraceFree env.library (accessContext env u action bucket key r) := by
  intro name
  unfold resolveConditionKey accessContext mapGet
  simp only [List.lookup_nil, Option.getD_none]
  repeat' split
  all_goals first
    | exact List.not_mem_nil
    | exact address
    | exact env.library.formatRFC3339_plain _

section

variable (env : Env) (fuel : Nat) (s : IAMStore) (a : AuthHandler) (u : IAMUser) (action bucket key : Bytes)
  (r : Request)

/-- The context the requests of a user are evaluated in. -/
abbrev context : EvalContext := accessContext env u (mapActionToIAM action) bucket key r

/-- A statement matches the user's request. -/
abbrev Hit : Statement → Prop := Matches env.library (context env u action bucket key r)

/-- What is decided about the request. -/
abbrev checked : Option (Except Bytes Unit) :=
  check env fuel ⟨a, some s⟩ (identityOf u) action bucket key r

/-- The request is granted by the policies stored under the user's ARN. -/
theorem checked_spec {env : Env} {fuel : Nat} {s : IAMStore} {u : IAMUser} {r : Request}
    (stored : s.users.get u.name = some u) (notAdmin : u.name ≠ str "admin")
    (address : 125 ∉ extractClientIP r) (enough : ∀ stmt ∈ storedStatements s, Enough fuel stmt) :
    ∃ answer, checked env fuel s a u action bucket key r = some answer ∧
      (answer = .ok () ↔ Granted (Hit env u action bucket key r) s (context env u action bucket key r)
        (s.users.get (makeUserARN u.name))) := by
  have plain := accessContext_braceFree env u (mapActionToIAM action) bucket key address
  obtain ⟨_, evaluated, meaning⟩ := evaluate_spec plain enough
  have role : (identityOf u).role ≠ str "admin" := by
    simp only [identityOf, toAuthIdentity, iamUserToLegacy, notAdmin, if_false]
    decide
  have name : (identityOf u).name = u.name := rfl
  have isIAM : (identityOf u).isIAM = true := rfl
  unfold checked check
  simp only [role, if_false, isIAM, if_true, name, stored, checkIAMAccess, notAdmin, evaluated, Option.map_some]
  refine ⟨_, rfl, Iff.trans ?_ meaning⟩
  split
  · next isAllow => simp [isAllow]
  · next refused => simp [refused]

end

namespace Sample

theorem unprinted (_ : Nat) : (125 : UInt8) ∉ ([] : Bytes) := List.not_mem_nil

def library : Library where
  toLower := lowerASCII
  equalFold a b := lowerASCII a = lowerASCII b
  Number := Nat
  parseFloat _ := none
  numberEq a b := a = b
  numberLt a b := a < b
  parseRFC3339 _ := none
  formatRFC3339 _ := []
  parseAddr _ := none
  parsePrefix _ := none
  formatRFC3339_plain := unprinted

def env : Env where
  library := library
  digests := ⟨fun _ => List.replicate 32 0, fun _ _ => List.replicate 32 0, fun _ => rfl, fun _ _ => rfl⟩
  clock := ⟨0, fun _ => none, fun _ => none⟩
  base64Decode s := .ok s
  comparePassword _ _ := false
  parseToken _ := .error []
  decryptSecretKey s := some s

def handler : AuthHandler := ⟨[], true, false⟩

/-- Everything in S3, for whomever the policy is attached to. -/
def statement (effect : Bytes) (principal : Option Principal) : Statement :=
  ⟨str "All", effect, [str "s3:*"], [], [str "*"], [], principal, []⟩

def alice (effect : Bytes) : IAMUser :=
  ⟨str "AIDA1", str "alice", [], [], [], [⟨str "own", [statement effect none]⟩], []⟩

def everyone : Principal := ⟨[str "*"], [], []⟩

/-- One user with an inline policy, and the policies of the buckets. -/
def store (effect : Bytes) (bucketPolicies : Table Bytes PolicyDocument) : IAMStore where
  users := Table.empty.put (str "alice") (alice effect)
  groups := Table.empty
  policies := Table.empty
  bucketPolicies := bucketPolicies
  tempCredentials := Table.empty
  scp := none

def request : Request where
  method := str "GET"
  host := str "localhost:9000"
  path := str "/photos/cat.jpg"
  rawQuery := []
  header := []
  remoteAddr := str "10.0.0.7:40000"
  contentLength := 0
  body := ⟨[], some .eof⟩

/-- The answer to a read of `photos/cat.jpg` by the user with that policy. -/
abbrev answer (effect : Bytes) (bucketPolicies : Table Bytes PolicyDocument) : Option (Except Bytes Unit) :=
  checked env 1 (store effect bucketPolicies) handler (alice effect) (str "read") (str "photos") (str "cat.jpg")
    request

end Sample

open Sample

end CipherLake.IdentityPolicies
