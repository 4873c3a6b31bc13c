import CipherLake.ControlPolicy

/-! Permissions that are handed on. A session policy is meant to narrow what a
role may do, but `EvaluateWithTempCreds` lists it beside the role's policies, so
its statements are one more source of permissions. A role is meant to be assumed
by whom its trust policy names, but `AssumeRole` finds the role by the last
segment of the ARN, reads only the Allow statements of the trust policy, and
takes an Allow of the caller's own policies instead. -/
namespace CipherLake.Delegation
open Lib Iam IamProofs PolicyDecisions PolicySpecification IamService ControlPolicy List

section Searches

variable {test : Test} {effect : Bytes} {stmts more : List Statement}

theorem clear_append : Clear test effect (stmts ++ more) ↔ Clear test effect stmts ∧ Clear test effect more := by
  unfold Clear
  rw [firstMatch_append]
  cases firstMatch test effect stmts with
  | none => simp
  | some hit => cases hit <;> simp

theorem found_append : Found test effect (stmts ++ more) ↔
    Found test effect stmts ∨ (Clear test effect stmts ∧ Found test effect more) := by
  unfold Found Clear
  rw [firstMatch_append]
  cases firstMatch test effect stmts with
  | none => simp
  | some hit => cases hit <;> simp

end Searches

/-! ### Session policies -/

section Sessions

variable {L : Library} {s : IAMStore} {ctx : EvalContext} {rolePolicies : List Bytes}

/-- The statements of the role's policies that are stored. -/
def roleStatements (s : IAMStore) (rolePolicies : List Bytes) : List Statement :=
  ((managedPolicies s rolePolicies).map (·.2)).flatMap (·.statement)

theorem scopedAllow_iff {session : PolicyDocument} : TempCredsAllow L s ctx rolePolicies (some session) ↔
    (Clear (verdict L ctx) (str "Deny") (roleStatements s rolePolicies) ∧
      Clear (verdict L ctx) (str "Deny") session.statement ∧
      Clear (verdict L ctx) (str "Deny") (bucketStatements s ctx)) ∧
    (Found (verdict L ctx) (str "Allow") (roleStatements s rolePolicies) ∨
      (Clear (verdict L ctx) (str "Allow") (roleStatements s rolePolicies) ∧
        (Found (verdict L ctx) (str "Allow") session.statement ∨
          (Clear (verdict L ctx) (str "Allow") session.statement ∧
            Found (verdict L ctx) (str "Allow") (bucketStatements s ctx))))) := by
  rw [tempCredsAllow_iff, SessionPermits]
  simp only [sessionPolicies, Option.toList_some, flatMap_append, flatMap_cons, flatMap_nil,
    append_nil, clear_append, found_append]
  tauto

theorem unscopedAllow_iff : TempCredsAllow L s ctx rolePolicies none ↔
    (Clear (verdict L ctx) (str "Deny") (roleStatements s rolePolicies) ∧
      Clear (verdict L ctx) (str "Deny") (bucketStatements s ctx)) ∧
    (Found (verdict L ctx) (str "Allow") (roleStatements s rolePolicies) ∨
      (Clear (verdict L ctx) (str "Allow") (roleStatements s rolePolicies) ∧
        Found (verdict L ctx) (str "Allow") (bucketStatements s ctx))) := by
  rw [tempCredsAllow_iff, SessionPermits]
  simp only [sessionPolicies, Option.toList_none, append_nil, flatMap_append, clear_append]
  rfl

/-- A session policy only takes permissions away: what is allowed with it is
allowed without it, and by the policy on its own. -/
def ScopesDown (L : Library) (s : IAMStore) (ctx : EvalContext) (rolePolicies : List Bytes)
    (session : PolicyDocument) : Prop :=
  TempCredsAllow L s ctx rolePolicies (some session) →
    TempCredsAllow L s ctx rolePolicies none ∧ DocumentAllows (Matches L ctx) session

/-- Where no Deny is found, the three sources of an Allow agree as far as they
are asked: the role grants nothing that the session does not, and where the role
grants nothing, the session and the bucket grant the same. -/
structure Agreed (test : Test) (role session bucket : List Statement) : Prop where
  ofRole : Found test (str "Allow") role → AnyMatch (Hits test) (str "Allow") session
  ofSession : Clear test (str "Allow") role → Found test (str "Allow") session → Found test (str "Allow") bucket
  ofBucket : Clear test (str "Allow") role → Clear test (str "Allow") session → ¬ Found test (str "Allow") bucket

/-- A session policy narrows exactly where the role, the session and the bucket
agree, or a Deny stops the request anyway. -/
theorem scopes_down_iff (L : Library) (s : IAMStore) (ctx : EvalContext) (rolePolicies : List Bytes)
    (session : PolicyDocument) :
    ScopesDown L s ctx rolePolicies session ↔ (Clear (verdict L ctx) (str "Deny")
          (roleStatements s rolePolicies ++ session.statement ++ bucketStatements s ctx) →
        Agreed (verdict L ctx) (roleStatements s rolePolicies) session.statement (bucketStatements s ctx)) := by
  unfold ScopesDown
  rw [scopedAllow_iff, unscopedAllow_iff, DocumentAllows, ← hits_verdict, clear_append, clear_append]
  constructor
  · rintro narrows ⟨⟨roleDeny, sessionDeny⟩, bucketDeny⟩
    have quiet := And.intro roleDeny (And.intro sessionDeny bucketDeny)
    refine ⟨fun granted => ?_, fun none granted => ?_, fun none nothing granted => ?_⟩
    · exact (narrows ⟨quiet, .inl granted⟩).2.2
    · rcases (narrows ⟨quiet, .inr ⟨none, .inl granted⟩⟩).1.2 with role | ⟨-, bucket⟩
      · exact absurd role (not_found_of_clear none)
      · exact bucket
    · have allows := (narrows ⟨quiet, .inr ⟨none, .inr ⟨nothing, granted⟩⟩⟩).2.2
      exact (clear_iff.mp nothing).2 allows
  · rintro agreed ⟨⟨roleDeny, sessionDeny, bucketDeny⟩, granted⟩
    have consent := agreed ⟨⟨roleDeny, sessionDeny⟩, bucketDeny⟩
    have undenied := (clear_iff.mp sessionDeny).2
    rcases granted with role | ⟨none, session | ⟨nothing, bucket⟩⟩
    · exact ⟨⟨⟨roleDeny, bucketDeny⟩, .inl role⟩, undenied, consent.ofRole role⟩
    · exact ⟨⟨⟨roleDeny, bucketDeny⟩, .inr ⟨none, consent.ofSession none session⟩⟩, undenied,
        (found_iff.mp session).2⟩
    · exact absurd bucket (consent.ofBucket none nothing)

open ControlPolicy.Sample

open PolicySpecification.Sample (library read) in
/-- A role without policies and without a bucket policy: the session's own
policy is what allows the read. -/
theorem session_policy_adds : TempCredsAllow library records.evaluated read [] (some (document (str "Allow"))) ∧
      ¬ TempCredsAllow library records.evaluated read [] none := by
  refine ⟨⟨1, allows_of_decision (by decide +kernel)⟩, ?_⟩
  rw [unscopedAllow_iff]
  rintro ⟨-, ⟨stmt, found⟩ | ⟨-, ⟨stmt, found⟩⟩⟩
  · cases found
  · cases found

end Sessions

/-! ### Trust policies -/

section Trust

variable {L : Library} {r : Records} {roleARN callerARN : Bytes} {durationSeconds now : Int} {drawn : Drawn}

def makeRoleARN (roleName : Bytes) : Bytes := makeARN (str "iam") (str "role/" ++ roleName)

/-- The last segment of a role's ARN is its name, unless the name has segments
of its own. -/
theorem extractRoleNameFromARN_makeRoleARN {name : Bytes} (plain : 47 ∉ name) :
    extractRoleNameFromARN (makeRoleARN name) = name := by
  have split : (makeRoleARN name).splitOn 47 = [str "arn:cipherlake:iam:::role", name] := by
    have joined : makeRoleARN name = [47].intercalate [str "arn:cipherlake:iam:::role", name] := by
      rw [intercalate_cons_cons, intercalate_singleton]
      rfl
    rw [joined]
    apply splitOn_intercalate
    · intro part listed
      rcases mem_pair.mp listed with rfl | rfl
      · decide
      · exact plain
    · exact cons_ne_nil _ _
  have prefixed : hasPrefix (makeRoleARN name) arnPrefix := by
    change hasPrefix (arnPrefix ++ str "iam" ++ str ":::" ++ _) arnPrefix = true
    rw [append_assoc, append_assoc]
    exact hasPrefix_append _ _
  unfold extractRoleNameFromARN
  simp only [prefixed, split]
  rfl

/-- The caller is entitled to the role by its own trust policy: the ARN is that
of a stored role, an Allow of its trust policy matches, and no Deny does. -/
def Entitled (L : Library) (r : Records) (roleARN callerARN : Bytes) (now : Int) (name : Bytes) : Prop :=
  ∃ role, r.roles.get name = some role ∧ roleARN = makeRoleARN name ∧
    DocumentAllows (Matches L (trustContext callerARN roleARN now)) role.trustPolicy

/-- The evaluation of the caller's own policies comes to an end. -/
def EvaluationEnds (L : Library) (s : IAMStore) (ctx : EvalContext) : Prop :=
  ∃ fuel result, evaluate L fuel s ctx = some result

theorem evaluationEnds_iff {s : IAMStore} {ctx : EvalContext} :
    EvaluationEnds L s ctx ↔ ∃ result, evaluateBy (verdict L ctx) s ctx = some result := by
  have settled : (∃ fuel, ∃ result, evaluate L fuel s ctx = some result ∧ True) ↔
    ∃ result, evaluateBy (verdict L ctx) s ctx = some result ∧ True := evaluate_returns fun _ => True
  simpa only [EvaluationEnds, and_true] using settled

/-- A caller is let in by an Allow of the trust policy, once the evaluation of
their own policies has ended, or else by an Allow of that evaluation. -/
theorem callerDecision_allow_iff {test : Test} {s : IAMStore} {ctx : EvalContext} {trustPolicy : PolicyDocument} :
    callerDecision test s ctx trustPolicy = some .allow ↔
      (Found test (str "Allow") trustPolicy.statement ∧ ∃ result, evaluateBy test s ctx = some result) ∨
        (Clear test (str "Allow") trustPolicy.statement ∧ Allows (evaluateBy test s ctx)) := by
  unfold callerDecision trustDecision Found Clear Allows
  cases evaluateBy test s ctx with
  | none => simp
  | some result =>
    cases firstMatch test (str "Allow") trustPolicy.statement with
    | none => simp
    | some hit => cases hit <;> simp

/-- `AssumeRole` issues a credential only to a caller who is entitled to a role
of exactly that ARN. -/
def IssuesByTrust (L : Library) (drawn : Drawn) (now : Int) (r : Records) (roleARN : Bytes)
    (durationSeconds : Int) (callerARN : Bytes) : Prop :=
  IssuesCredential L drawn now r roleARN durationSeconds callerARN →
    ∃ name, Entitled L r roleARN callerARN now name

/-- The caller is entitled to a role with segments in its name, whose ARN ends
in the name of another role. -/
def EntitledElsewhere (L : Library) (r : Records) (roleARN callerARN : Bytes) (now : Int) : Prop :=
  ∃ name, 47 ∈ name ∧ Entitled L r roleARN callerARN now name

theorem entitled_iff {role : IAMRole} (found : r.roles.get (extractRoleNameFromARN roleARN) = some role) :
    (∃ name, Entitled L r roleARN callerARN now name) ↔ (roleARN = makeRoleARN (extractRoleNameFromARN roleARN) ∧
        DocumentAllows (Matches L (trustContext callerARN roleARN now)) role.trustPolicy) ∨
      EntitledElsewhere L r roleARN callerARN now := by
  constructor
  · rintro ⟨name, other, stored, own, allows⟩
    by_cases segmented : 47 ∈ name
    · exact .inr ⟨name, segmented, other, stored, own, allows⟩
    · have named : extractRoleNameFromARN roleARN = name := by
        rw [own, extractRoleNameFromARN_makeRoleARN segmented]
      rw [named, stored] at found
      cases found
      exact .inl ⟨by rw [named, ← own], allows⟩
  · rintro (⟨own, allows⟩ | ⟨name, -, entitled⟩)
    · exact ⟨_, role, found, own, allows⟩
    · exact ⟨name, entitled⟩

/-- The decision about a caller follows the trust policy of the role that the
last segment of the ARN names. Where an Allow of it matches, the ARN is the
role's own and no Deny matches; where none does, the caller's own policies do
not allow the request. A role with a segmented name and this very ARN may
entitle the caller instead. -/
structure FollowsTrust (L : Library) (r : Records) (roleARN callerARN : Bytes) (now : Int) (role : IAMRole) :
    Prop where
  trusted : Found (verdict L (trustContext callerARN roleARN now)) (str "Allow") role.trustPolicy.statement →
    EvaluationEnds L r.evaluated (trustContext callerARN roleARN now) →
    (roleARN = makeRoleARN (extractRoleNameFromARN roleARN) ∧
      ¬ AnyMatch (Matches L (trustContext callerARN roleARN now)) (str "Deny") role.trustPolicy.statement) ∨
    EntitledElsewhere L r roleARN callerARN now
  untrusted : Clear (verdict L (trustContext callerARN roleARN now)) (str "Allow") role.trustPolicy.statement →
    EvaluatesAllow L r.evaluated (trustContext callerARN roleARN now) →
    EntitledElsewhere L r roleARN callerARN now

theorem followsTrust_iff {role : IAMRole} (found : r.roles.get (extractRoleNameFromARN roleARN) = some role) :
    FollowsTrust L r roleARN callerARN now role ↔
      (callerDecision (verdict L (trustContext callerARN roleARN now)) r.evaluated
        (trustContext callerARN roleARN now) role.trustPolicy = some .allow →
        ∃ name, Entitled L r roleARN callerARN now name) := by
  rw [callerDecision_allow_iff, ← evaluationEnds_iff, ← evaluatesAllow_iff, entitled_iff found, DocumentAllows]
  constructor
  · rintro ⟨trusted, untrusted⟩ (⟨allow, ends⟩ | ⟨none, allowed⟩)
    · have matched := (found_iff.mp allow).2
      rw [hits_verdict] at matched
      rcases trusted allow ends with ⟨own, undenied⟩ | elsewhere
      · exact .inl ⟨own, undenied, matched⟩
      · exact .inr elsewhere
    · exact .inr (untrusted none allowed)
  · intro entitles
    refine ⟨fun allow ends => ?_, fun none allowed => ?_⟩
    · rcases entitles (.inl ⟨allow, ends⟩) with ⟨own, undenied, -⟩ | elsewhere
      · exact .inl ⟨own, undenied⟩
      · exact .inr elsewhere
    · have unmatched := (clear_iff.mp none).2
      rw [hits_verdict] at unmatched
      rcases entitles (.inr ⟨none, allowed⟩) with ⟨-, -, matched⟩ | elsewhere
      · exact absurd matched unmatched
      · exact elsewhere

/-- Credentials are issued by trust exactly where the decision about the caller
follows the trust policy of the role that is looked up. -/
theorem issues_by_trust_iff (L : Library) (drawn : Drawn) (now : Int) (r : Records) (roleARN : Bytes)
    (durationSeconds : Int) (callerARN : Bytes) :
    IssuesByTrust L drawn now r roleARN durationSeconds callerARN ↔
      ∀ role, extractRoleNameFromARN roleARN ≠ [] → r.roles.get (extractRoleNameFromARN roleARN) = some role →
        FollowsTrust L r roleARN callerARN now role := by
  unfold IssuesByTrust
  rw [issuesCredential_iff]
  constructor
  · intro issued role named found
    exact (followsTrust_iff found).mpr fun decided => issued ⟨role, named, found, decided⟩
  · rintro follows ⟨role, named, found, decided⟩
    exact (followsTrust_iff found).mp (follows role named found) decided

end Trust
namespace Sample

open ControlPolicy.Sample (everything drawn callerARN)

def ops : IAMRole :=
  ⟨str "ops", ⟨str "trust", [everything (str "Allow"), everything (str "Deny")]⟩, [], 3600⟩

/-- A role that trusts nobody: its trust policy denies everything it allows. -/
def records : Records := { Records.empty with roles := Table.empty.put (str "ops") ops }

/-- An ARN that is no role's, and ends in the name of one. -/
def bucketARN : Bytes := str "arn:cipherlake:s3:::photos/ops"

end Sample

open PolicySpecification.Sample (library) in
open ControlPolicy.Sample (everything drawn callerARN) in
/-- The role is assumed under an ARN of an object that ends in its name, although
a Deny of its trust policy matches the caller. -/
theorem role_assumed_without_trust : IssuesCredential library drawn 0 Sample.records Sample.bucketARN 0 callerARN ∧
      Matches library (trustContext callerARN Sample.bucketARN 0) (everything (str "Deny")) ∧
      ¬ ∃ name, Entitled library Sample.records Sample.bucketARN callerARN 0 name := by
  refine ⟨?_, ⟨1, by decide +kernel⟩, ?_⟩
  · rw [issuesCredential_iff]
    refine ⟨Sample.ops, by decide, by decide, ?_⟩
    have decided : callerDecision (rounds library (trustContext callerARN Sample.bucketARN 0) 1)
        Sample.records.evaluated (trustContext callerARN Sample.bucketARN 0) Sample.ops.trustPolicy =
        some .allow := by decide +kernel
    exact (callerDecision_settles fun stmt _ b said => verdict_iff.mpr ⟨1, said⟩).returns decided
  · rintro ⟨name, -, -, own, -⟩
    have fifteenth := congrArg (fun arn : Bytes => arn.drop 15 |>.take 2) own
    change str "s3" = str "ia" at fifteenth
    revert fifteenth
    decide

end CipherLake.Delegation
