import CipherLake.PolicyGrants
import CipherLake.IamService

/-! Where the organisation's control policy is a gate. `Evaluate` asks it first.
The evaluation with a given boundary and the one for temporary credentials
never do, and a role's trust policy overrides what `Evaluate` said about the
caller. -/
namespace CipherLake.ControlPolicy
open Lib Iam IamProofs PolicyDecisions PolicySpecification PolicyGrants IamService

section

variable {L : Library} {s : IAMStore} {ctx : EvalContext}

/-- `Evaluate` allows nothing that a control policy does not. -/
theorem evaluate_gated {scp : PolicyDocument} (set : s.scp = some scp)
    (refused : ¬ DocumentAllows (Matches L ctx) scp) : ¬ EvaluatesAllow L s ctx := by
  intro allowed
  obtain ⟨passes, -⟩ := evaluateBy_allows.mp (evaluatesAllow_iff.mp allowed)
  have allows := (documentPasses_iff.mp (passes scp set)).1
  rw [hits_verdict] at allows
  exact refused allows

/-- Some number of rounds makes `EvaluateWithBoundary` return Allow. -/
def WithBoundaryAllows (L : Library) (s : IAMStore) (ctx : EvalContext) (user : Option IAMUser) : Prop :=
  ∃ fuel, Allows (evaluateWithBoundary L fuel s ctx user)

theorem withBoundaryAllows_iff {user : Option IAMUser} :
    WithBoundaryAllows L s ctx user ↔ Permits (verdict L ctx) s ctx user := by
  rw [← evaluatePolicies_allows]
  refine returns_iff L ctx (ownStatements s user ++ storedStatements s)
    (f := fun test => evaluatePolicies test s ctx user) ?_ fun result => result.decision = .allow
  intro test later kept
  have stored : storedStatements s ⊆ ownStatements s user ++ storedStatements s := List.subset_append_right _ _
  exact evaluatePolicies_settles kept (List.subset_append_left _ _) (List.Subset.trans bucketStatements_stored stored)
    fun doc held => List.Subset.trans (boundary_stored held) stored

/-- Some number of rounds makes `EvaluateWithTempCreds` return Allow. -/
def TempCredsAllow (L : Library) (s : IAMStore) (ctx : EvalContext) (rolePolicies : List Bytes)
    (inlinePolicy : Option PolicyDocument) : Prop :=
  ∃ fuel, Allows (evaluateWithTempCreds L fuel s ctx rolePolicies inlinePolicy)

/-- The documents of a session and of the bucket grant a request: no Deny is
found, and an Allow is, first among those of the session. -/
def SessionPermits (test : Test) (identity resource : List PolicyDocument) : Prop :=
  Clear test (str "Deny") ((identity ++ resource).flatMap (·.statement)) ∧
    (Found test (str "Allow") (identity.flatMap (·.statement)) ∨
      (Clear test (str "Allow") (identity.flatMap (·.statement)) ∧
        Found test (str "Allow") (resource.flatMap (·.statement))))

theorem tempCredsAllow_iff {rolePolicies : List Bytes} {inlinePolicy : Option PolicyDocument} :
    TempCredsAllow L s ctx rolePolicies inlinePolicy ↔
      SessionPermits (verdict L ctx) (sessionPolicies s rolePolicies inlinePolicy) (resourcePolicies s ctx) := by
  rw [SessionPermits, ← evaluateSession_allows]
  exact returns_iff L ctx _ (f := fun test => evaluateSession test (sessionPolicies s rolePolicies inlinePolicy)
    (resourcePolicies s ctx)) (evaluateSession_settles · (List.Subset.refl _)) fun result => result.decision = .allow

end

section

variable {L : Library} {r : Records} {roleARN callerARN : Bytes} {durationSeconds now : Int} {drawn : Drawn}

/-- Some number of rounds makes `AssumeRole` issue a credential. -/
def IssuesCredential (L : Library) (drawn : Drawn) (now : Int) (r : Records) (roleARN : Bytes)
    (durationSeconds : Int) (callerARN : Bytes) : Prop :=
  ∃ fuel cred after, assumeRole L fuel drawn now r roleARN durationSeconds callerARN = some (.ok cred, after)

theorem storeCredential_ok (drawn : Drawn) (now seconds : Int) (r : Records) :
    ∃ after, (storeCredential (credential drawn now seconds)).run exec r =
      (.ok (credential drawn now seconds), after) := by
  have accepted : keyFault (str "ASIA" ++ drawn.id) = none := by
    have long := drawn.id_length
    simp [keyFault, str, long]
  simp only [storeCredential, Program.run_bind, Program.run_perform, exec, credential, written, accepted]
  exact ⟨_, rfl⟩

/-- What is decided about a caller, for any test of a statement. -/
def callerDecision (test : Test) (s : IAMStore) (ctx : EvalContext) (trustPolicy : PolicyDocument) :
    Option Decision :=
  (evaluateBy test s ctx).bind fun result => trustDecision test result.decision trustPolicy

theorem callerDecision_settles {test later : Test} {s : IAMStore} {ctx : EvalContext}
    {trustPolicy : PolicyDocument} (kept : Settles test later (storedStatements s ++ trustPolicy.statement)) :
    Carries test (storedStatements s ++ trustPolicy.statement) (callerDecision test s ctx trustPolicy)
      (callerDecision later s ctx trustPolicy) := by
  unfold callerDecision
  refine (evaluateBy_settles kept (List.subset_append_left _ _)).elim .waits fun result => ?_
  simp only [Option.bind_some, trustDecision]
  refine (firstMatch_settles kept (str "Allow") (List.subset_append_right _ _)).elim .waits fun hit => ?_
  cases hit <;> exact .same _

/-- A credential is issued to a caller who is decided to be trusted. -/
theorem issuesCredential_iff : IssuesCredential L drawn now r roleARN durationSeconds callerARN ↔
    ∃ role, extractRoleNameFromARN roleARN ≠ [] ∧ r.roles.get (extractRoleNameFromARN roleARN) = some role ∧
      callerDecision (verdict L (trustContext callerARN roleARN now)) r.evaluated
        (trustContext callerARN roleARN now) role.trustPolicy = some .allow := by
  let ctx := trustContext callerARN roleARN now
  have reached : ∀ role : IAMRole, (∃ fuel, callerDecision (rounds L ctx fuel)
      r.evaluated ctx role.trustPolicy = some .allow) ↔
      callerDecision (verdict L ctx) r.evaluated
        ctx role.trustPolicy = some .allow := by
    intro role
    have settled := returns_iff L ctx _ (f := fun test => callerDecision test
      r.evaluated ctx role.trustPolicy) callerDecision_settles (· = .allow)
    simpa using settled
  unfold IssuesCredential assumeRole
  simp only
  by_cases unnamed : extractRoleNameFromARN roleARN = []
  · simp [unnamed]
  · cases found : r.roles.get (extractRoleNameFromARN roleARN) with
    | none => simp [unnamed]
    | some role =>
      simp only [Option.some.injEq, exists_eq_left', ne_eq, not_false_eq_true, true_and, unnamed]
      rw [← reached role]
      refine exists_congr fun fuel => ?_
      change _ ↔ (evaluate L fuel r.evaluated ctx).bind _ = some Decision.allow
      cases evaluate L fuel r.evaluated ctx with
      | none => simp
      | some result =>
        simp only [Option.bind_some]
        change _ ↔ trustDecision (fun stmt => statementMatches L fuel stmt ctx)
          result.decision role.trustPolicy = some .allow
        cases trustDecision (fun stmt => statementMatches L fuel stmt ctx)
            result.decision role.trustPolicy with
        | none => simp
        | some decision =>
          cases decision with
          | allow =>
            obtain ⟨_, stored⟩ := storeCredential_ok drawn now (if durationSeconds > 0 ∧
              durationSeconds ≤ role.maxSessionDuration then durationSeconds else role.maxSessionDuration) r
            simp only [stored, iff_true]
            exact ⟨_, _, rfl⟩
          | deny => simp
          | implicitDeny => simp

/-- A control policy that does not allow a request makes `Evaluate` refuse it,
if its own tests end. -/
theorem evaluateBy_refused {test : Test} {s : IAMStore} {ctx : EvalContext} {scp : PolicyDocument}
    (set : s.scp = some scp) (refused : ¬ DocumentPasses test scp) (P : Decision → Prop) :
    (∃ result, evaluateBy test s ctx = some result ∧ P result.decision) ↔ DocumentRefuses test scp ∧ P .deny := by
  unfold evaluateBy evaluateSCP
  rw [set, ← evaluateDocument_refuses]
  cases evaluated : evaluateDocument test scp with
  | none => simp [evaluated]
  | some outcome =>
    obtain ⟨decision, sid⟩ := outcome
    cases decision with
    | deny => simp [evaluated]
    | allow => exact absurd (evaluateDocument_passes.mp ⟨_, evaluated, rfl⟩) refused
    | implicitDeny => simp [evaluated]

/-- The caller is named by the trust policy of a role that exists, and the
tests of the control policy end. -/
def Trusted (L : Library) (ctx : EvalContext) (r : Records) (scp : PolicyDocument) : Prop :=
  ∃ role, extractRoleNameFromARN ctx.resource ≠ [] ∧ r.roles.get (extractRoleNameFromARN ctx.resource) = some role ∧
    DocumentRefuses (verdict L ctx) scp ∧ Found (verdict L ctx) (str "Allow") role.trustPolicy.statement

theorem issuesCredential_refused {scp : PolicyDocument} (set : r.scp = some scp)
    (refused : ¬ DocumentAllows (Matches L (trustContext callerARN roleARN now)) scp) :
    IssuesCredential L drawn now r roleARN durationSeconds callerARN ↔
      Trusted L (trustContext callerARN roleARN now) r scp := by
  have fails : ¬ DocumentPasses (verdict L (trustContext callerARN roleARN now)) scp := by
    rw [documentPasses_iff, hits_verdict]
    exact fun passes => refused passes.1
  rw [issuesCredential_iff]
  refine exists_congr fun role => and_congr Iff.rfl (and_congr Iff.rfl ?_)
  rw [callerDecision, Option.bind_eq_some_iff, evaluateBy_refused (s := r.evaluated) set fails
      fun decision => trustDecision _ decision role.trustPolicy = some .allow]
  refine and_congr Iff.rfl ?_
  unfold trustDecision Found
  cases firstMatch (verdict L (trustContext callerARN roleARN now)) (str "Allow") role.trustPolicy.statement with
  | none => simp
  | some hit => cases hit <;> simp

/-- The control policy is a gate: a request it does not allow is allowed by no
evaluation, and a caller it does not allow to assume a role gets no credential. -/
structure Gated (L : Library) (r : Records) (scp : PolicyDocument) (ctx : EvalContext) (user : Option IAMUser)
    (rolePolicies : List Bytes) (inlinePolicy : Option PolicyDocument) (drawn : Drawn) (now : Int)
    (roleARN : Bytes) (durationSeconds : Int) (callerARN : Bytes) : Prop where
  evaluate : ¬ DocumentAllows (Matches L ctx) scp → ¬ EvaluatesAllow L r.evaluated ctx
  withBoundary : ¬ DocumentAllows (Matches L ctx) scp → ¬ WithBoundaryAllows L r.evaluated ctx user
  withTempCreds : ¬ DocumentAllows (Matches L ctx) scp →
    ¬ TempCredsAllow L r.evaluated ctx rolePolicies inlinePolicy
  assumeRole : ¬ DocumentAllows (Matches L (trustContext callerARN roleARN now)) scp →
    ¬ IssuesCredential L drawn now r roleARN durationSeconds callerARN

/-- The gate holds exactly where nothing would pass but for the control policy:
neither the policies of the user or of the session grant the request, nor does
the role's trust policy name the caller. -/
theorem gated_iff {scp : PolicyDocument} (set : r.scp = some scp) (ctx : EvalContext) (user : Option IAMUser)
    (rolePolicies : List Bytes) (inlinePolicy : Option PolicyDocument) :
    Gated L r scp ctx user rolePolicies inlinePolicy drawn now roleARN durationSeconds callerARN ↔
      (¬ DocumentAllows (Matches L ctx) scp → ¬ Permits (verdict L ctx) r.evaluated ctx user ∧
        ¬ SessionPermits (verdict L ctx) (sessionPolicies r.evaluated rolePolicies inlinePolicy)
          (resourcePolicies r.evaluated ctx)) ∧
      (¬ DocumentAllows (Matches L (trustContext callerARN roleARN now)) scp →
        ¬ Trusted L (trustContext callerARN roleARN now) r scp) := by
  constructor
  · rintro ⟨-, withBoundary, withTempCreds, assumeRole⟩
    refine ⟨fun refused => ⟨?_, ?_⟩, fun refused => ?_⟩
    · exact fun permits => withBoundary refused (withBoundaryAllows_iff.mpr permits)
    · exact fun permits => withTempCreds refused (tempCredsAllow_iff.mpr permits)
    · exact fun trusted => assumeRole refused ((issuesCredential_refused set refused).mpr trusted)
  · rintro ⟨policies, trust⟩
    refine ⟨evaluate_gated set, fun refused allowed => ?_, fun refused allowed => ?_, fun refused issued => ?_⟩
    · exact (policies refused).1 (withBoundaryAllows_iff.mp allowed)
    · exact (policies refused).2 (tempCredsAllow_iff.mp allowed)
    · exact trust refused ((issuesCredential_refused set refused).mp issued)

end
namespace Sample

open PolicySpecification.Sample (library read)

/-- Everything, for everyone. -/
def everything (effect : Bytes) : Statement := ⟨str "All", effect, [str "*"], [], [str "*"], [], none, []⟩

def document (effect : Bytes) : PolicyDocument := ⟨str "all", [everything effect]⟩

def alice : IAMUser := ⟨str "AIDA1", str "alice", [], [], [], [document (str "Allow")], []⟩

/-- A user and a role that may do everything, under a control policy that
denies everything. -/
def records : Records :=
  { Records.empty with
    users := Table.empty.put (str "alice") alice
    roles := Table.empty.put (str "ops") ⟨str "ops", document (str "Allow"), [], 3600⟩
    scp := some (document (str "Deny")) }

def roleARN : Bytes := str "arn:cipherlake:iam:::role/ops"
def callerARN : Bytes := str "arn:cipherlake:iam:::user/alice"
def drawn : Drawn := ⟨str "0123456789abcdef", [], [], rfl⟩

theorem denied (ctx : EvalContext) (matched : statementMatches library 1 (everything (str "Deny")) ctx = some true) :
    ¬ DocumentAllows (Matches library ctx) (document (str "Deny")) := by
  rintro ⟨undenied, -⟩
  exact undenied ⟨everything (str "Deny"), List.mem_cons_self, rfl, 1, matched⟩

end Sample

open PolicySpecification.Sample (library read) in
/-- Under a control policy that denies everything, a read is allowed to a user
with a boundary check and to a session, and a role is assumed. -/
theorem control_policy_bypassed : ¬ DocumentAllows (Matches library read) (Sample.document (str "Deny")) ∧
      WithBoundaryAllows library Sample.records.evaluated read (some Sample.alice) ∧
      TempCredsAllow library Sample.records.evaluated read [] (some (Sample.document (str "Allow"))) ∧
      ¬ DocumentAllows (Matches library (trustContext Sample.callerARN Sample.roleARN 0))
        (Sample.document (str "Deny")) ∧
      IssuesCredential library Sample.drawn 0 Sample.records Sample.roleARN 0 Sample.callerARN := by
  refine ⟨Sample.denied _ (by decide +kernel), ⟨1, allows_of_decision (by decide +kernel)⟩,
    ⟨1, allows_of_decision (by decide +kernel)⟩, Sample.denied _ (by decide +kernel), ?_⟩
  rw [issuesCredential_iff]
  refine ⟨⟨str "ops", Sample.document (str "Allow"), [], 3600⟩, by decide, by decide, ?_⟩
  have decided : callerDecision (rounds library (trustContext Sample.callerARN Sample.roleARN 0) 1)
      Sample.records.evaluated (trustContext Sample.callerARN Sample.roleARN 0) (Sample.document (str "Allow")) =
      some .allow := by decide +kernel
  exact (callerDecision_settles fun stmt _ b said => verdict_iff.mpr ⟨1, said⟩).returns decided

/-- With nobody's policies and no role there is nothing to be stopped. -/
theorem gated_for_nobody : Gated PolicySpecification.Sample.library Sample.records (Sample.document (str "Deny"))
      PolicySpecification.Sample.read none [] none Sample.drawn 0 [] 0 Sample.callerARN := by
  have nothing : ∀ test : Test, ¬ Found test (str "Allow") [] := by
    rintro test ⟨_, found⟩
    cases found
  refine (gated_iff rfl _ _ _ _).mpr ⟨fun _ => ⟨?_, ?_⟩, fun _ => ?_⟩
  · rintro ⟨-, ⟨found, -⟩ | ⟨-, found⟩⟩
    · exact nothing _ found
    · exact nothing _ found
  · rintro ⟨-, found | ⟨-, found⟩⟩
    · exact nothing _ found
    · exact nothing _ found
  · rintro ⟨_, named, -⟩
    exact named (by decide)

end CipherLake.ControlPolicy
