import CipherLake.PolicySpecification

/-! Adding an Allow statement to one of a user's policies. A request that the
bucket's policy allows is then decided by the user's own policies, and with
that comes the permission boundary, which the bucket's policy is not subject
to; so the added grant can take the request away. -/
namespace CipherLake.PolicyGrants
open Lib Iam IamProofs PolicyDecisions PolicySpecification List Table

/-! ### Refusals -/

/-- An evaluation returns Deny or ImplicitDeny. -/
def Refuses (evaluation : Option EvalResult) : Prop := ∃ result, evaluation = some result ∧ result.decision ≠ .allow

section Refusals

variable {test : Test} {s : IAMStore} {ctx : EvalContext} {user : Option IAMUser}

/-- A Deny of a document is found, or neither a Deny nor an Allow. -/
def DocumentRefuses (test : Test) (doc : PolicyDocument) : Prop :=
  Found test (str "Deny") doc.statement ∨
    (Clear test (str "Deny") doc.statement ∧ Clear test (str "Allow") doc.statement)

theorem evaluateDocument_refuses {doc : PolicyDocument} :
    (∃ result, evaluateDocument test doc = some result ∧ result.1 ≠ .allow) ↔ DocumentRefuses test doc := by
  rw [evaluateDocument_returns (· ≠ .allow), DocumentRefuses]
  simp

/-- Once no Deny is found, a refusal comes from the boundary of what the user's
own policies allow, or from nothing being allowed at all. -/
theorem evaluatePolicies_refuses (undenied : Clear test (str "Deny") (ownStatements s user ++ bucketStatements s ctx)) :
    Refuses (evaluatePolicies test s ctx user) ↔
      (Found test (str "Allow") (ownStatements s user) ∧ ∃ doc ∈ boundary s user, DocumentRefuses test doc) ∨
        (Clear test (str "Allow") (ownStatements s user) ∧ Clear test (str "Allow") (bucketStatements s ctx)) := by
  rw [Refuses, evaluatePolicies_returns (· ≠ .allow)]
  simp only [evaluateDocument_refuses]
  simp [undenied, not_found_of_clear undenied]

end Refusals

/-! ### Added grants -/

/-- One statement is added to a document, once. -/
def Extends (stmt : Statement) (old new : PolicyDocument) : Prop :=
  ∃ before after, old.statement = before ++ after ∧ new.statement = before ++ stmt :: after

/-- A policy is attached to a user or to one of the user's groups. -/
def Attached (s : IAMStore) (user : IAMUser) (name : Bytes) : Prop :=
  name ∈ user.attachedPolicies ∨
    ∃ group ∈ user.groups, ∃ attached, s.groups.get group = some attached ∧ name ∈ attached

/-- An Allow statement is added to an inline policy of a user, or to a policy
that is attached to the user or to one of the user's groups. -/
inductive GrantAdded (s : IAMStore) (principal : Bytes) (stmt : Statement) : IAMStore → Prop where
  | inline {user : IAMUser} {before after : List PolicyDocument} {old new : PolicyDocument} :
      s.users.get principal = some user → user.inlinePolicies = before ++ old :: after →
      stmt.effect = str "Allow" → Extends stmt old new →
      GrantAdded s principal stmt
        { s with users := s.users.put principal { user with inlinePolicies := before ++ new :: after } }
  | managed {user : IAMUser} {name : Bytes} {old new : PolicyDocument} :
      s.users.get principal = some user → Attached s user name → s.policies.get name = some old →
      stmt.effect = str "Allow" → Extends stmt old new →
      GrantAdded s principal stmt { s with policies := s.policies.put name new }

section Grants

variable {s s' : IAMStore} {ctx : EvalContext} {stmt : Statement} {test : Test} {principal : Bytes}

theorem allow_not_deny (isAllow : stmt.effect = str "Allow") : ∀ x, x = stmt → x.effect ≠ str "Deny" := by
  rintro x rfl
  rw [isAllow]
  decide

variable {old new : PolicyDocument}

theorem Extends.inserted (extended : Extends stmt old new) : Inserted (· = stmt) old.statement new.statement := by
  obtain ⟨before, after, was, becomes⟩ := extended
  rw [was, becomes]
  exact (Inserted.refl before).append (.add stmt rfl (Inserted.refl after))

theorem Extends.mem (extended : Extends stmt old new) : stmt ∈ new.statement := by
  obtain ⟨_, _, -, becomes⟩ := extended
  rw [becomes]
  exact mem_append_right _ mem_cons_self

/-- A stored policy is what it was, or has the statement added. -/
theorem policy_inserted {name : Bytes} (stored : s.policies.get name = some old)
    (extended : Extends stmt old new) (other : Bytes) :
    Inserted (· = stmt) (statementsOf (s.policies.get other)) (statementsOf ((s.policies.put name new).get other)) := by
  by_cases same : name = other
  · subst same
    rw [stored, get_put_same]
    exact extended.inserted
  · rw [get_put_ne _ _ same]
    exact Inserted.refl _

/-- What a grant that is added to one of a user's policies changes: the user's
own statements, and the boundary if that is the policy it is added to. -/
structure Enlarged (s s' : IAMStore) (principal : Bytes) (stmt : Statement) : Prop where
  isAllow : stmt.effect = str "Allow"
  scp : s'.scp = s.scp
  bucket : ∀ ctx, bucketStatements s' ctx = bucketStatements s ctx
  own : Inserted (· = stmt) (ownStatements s (s.users.get principal)) (ownStatements s' (s'.users.get principal))
  gained : stmt ∈ ownStatements s' (s'.users.get principal)
  boundary : ∀ doc' ∈ boundary s' (s'.users.get principal), ∃ doc ∈ boundary s (s.users.get principal),
    Inserted (· = stmt) doc.statement doc'.statement

theorem GrantAdded.enlarged (added : GrantAdded s principal stmt s') : Enlarged s s' principal stmt := by
  cases added with
  | @inline user before after old new stored split isAllow extended =>
    refine ⟨isAllow, rfl, fun _ => rfl, ?_, ?_, ?_⟩
    · rw [stored, get_put_same, ownStatements_eq, ownStatements_eq]
      refine (Inserted.append ?_ (Inserted.refl _)).append (Inserted.refl _)
      simp only [split, flatMap_append, flatMap_cons]
      exact (Inserted.refl _).append (extended.inserted.append (Inserted.refl _))
    · rw [get_put_same, ownStatements_eq]
      simp only [flatMap_append, flatMap_cons, mem_append]
      exact .inl (.inl (.inr (.inl extended.mem)))
    · intro doc held
      rw [get_put_same] at held
      rw [stored]
      exact ⟨doc, held, Inserted.refl _⟩
  | @managed user name old new stored attached policy isAllow extended =>
    refine ⟨isAllow, rfl, fun _ => rfl, ?_, ?_, ?_⟩
    · rw [stored, ownStatements_eq, ownStatements_eq]
      refine ((Inserted.refl _).append ?_).append ?_
      · exact Inserted.flatMap (policy_inserted policy extended) _
      · exact Inserted.flatMap (fun group => Inserted.flatMap (policy_inserted policy extended) _) _
    · have here : stmt ∈ statementsOf ((s.policies.put name new).get name) := by
        rw [get_put_same]
        exact extended.mem
      rw [stored, ownStatements_eq]
      simp only [mem_append, mem_flatMap]
      rcases attached with direct | ⟨group, member, names, found, listed⟩
      · exact .inl (.inr ⟨name, direct, here⟩)
      · exact .inr ⟨group, member, name, by rwa [found], here⟩
    · intro doc' held
      rw [stored] at held ⊢
      simp only [IamProofs.boundary, Option.bind_some] at held ⊢
      split at held
      · cases held
      rename_i named
      rw [if_neg named]
      by_cases same : name = user.permissionBoundary
      · subst same
        rw [get_put_same] at held
        cases held
        exact ⟨old, policy, extended.inserted⟩
      · rw [get_put_ne _ _ same] at held
        exact ⟨doc', held, Inserted.refl _⟩

/-- A document that passes is not refused for an Allow that is added to it. -/
theorem not_refuses_of_passes {doc doc' : PolicyDocument} (isAllow : stmt.effect = str "Allow")
    (inserted : Inserted (· = stmt) doc.statement doc'.statement) (passes : DocumentPasses test doc) :
    ¬ DocumentRefuses test doc' := by
  obtain ⟨undenied, allowed⟩ := passes
  have kept : firstMatch test (str "Deny") doc'.statement = some none :=
    (inserted.other_effect (allow_not_deny isAllow)).trans undenied
  rintro (denied | ⟨-, clear⟩)
  · exact not_found_of_clear kept denied
  · exact not_found_of_clear (inserted.clear clear) allowed

/-- A request that was allowed is refused after the grant exactly if only the
bucket's policy allowed it, the grant matches it, and the boundary refuses it. -/
theorem enlarged_refuses_iff (enlarged : Enlarged s s' ctx.principal stmt) (allowed : Allows (evaluateBy test s ctx)) :
    Refuses (evaluateBy test s' ctx) ↔
      ¬ AnyMatch (Hits test) (str "Allow") (ownStatements s (s.users.get ctx.principal)) ∧ Hits test stmt ∧
        ∃ doc ∈ boundary s' (s'.users.get ctx.principal), DocumentRefuses test doc := by
  obtain ⟨scp, undenied, granted⟩ := evaluateBy_allows.mp allowed
  have opened : evaluateBy test s' ctx = evaluatePolicies test s' ctx (s'.users.get ctx.principal) := by
    unfold evaluateBy
    rw [enlarged.scp]
    obtain ⟨_, checked, passes⟩ := evaluateSCP_allows.mpr scp
    simp [checked, passes]
  have stillUndenied : Clear test (str "Deny")
      (ownStatements s' (s'.users.get ctx.principal) ++ bucketStatements s' ctx) := by
    rw [Clear, enlarged.bucket, (enlarged.own.append (Inserted.refl _)).other_effect (allow_not_deny enlarged.isAllow)]
    exact undenied
  rw [opened, evaluatePolicies_refuses stillUndenied, enlarged.bucket]
  constructor
  · rintro (⟨found, doc', held, refused⟩ | ⟨clear, closed⟩)
    · have unmatched : ¬ AnyMatch (Hits test) (str "Allow") (ownStatements s (s.users.get ctx.principal)) := by
        intro matched
        rcases granted with ⟨-, bounds⟩ | ⟨clear, -⟩
        · obtain ⟨doc, bounding, inserted⟩ := enlarged.boundary doc' held
          exact not_refuses_of_passes enlarged.isAllow inserted (bounds doc bounding) refused
        · exact (clear_iff.mp clear).2 matched
      obtain ⟨-, hit, listed, isAllow, matches_⟩ := found_iff.mp found
      refine ⟨unmatched, ?_, doc', held, refused⟩
      rcases enlarged.own.mem_new hit listed with rfl | before
      · exact matches_
      · exact absurd ⟨hit, before, isAllow, matches_⟩ unmatched
    · rcases granted with ⟨found, -⟩ | ⟨-, found⟩
      · exact absurd found (not_found_of_clear (enlarged.own.clear clear))
      · exact absurd found (not_found_of_clear closed)
  · rintro ⟨unmatched, matches_, bounds⟩
    rcases granted with ⟨found, -⟩ | ⟨clear, -⟩
    · exact absurd (found_iff.mp found).2 unmatched
    refine .inl ⟨found_iff.mpr ⟨?_, stmt, enlarged.gained, enlarged.isAllow, matches_⟩, bounds⟩
    intro before other after split isAllow _ endless
    have listed : other ∈ ownStatements s' (s'.users.get ctx.principal) := by
      rw [split]
      exact mem_append_right _ mem_cons_self
    rcases enlarged.own.mem_new other listed with rfl | old
    · exact absurd (endless.symm.trans matches_) (by simp)
    · exact absurd (endless.symm.trans (clear_mem clear other old isAllow)) (by simp)

end Grants

/-- Some number of rounds makes `Evaluate` return Deny or ImplicitDeny. -/
def EvaluatesRefusal (L : Library) (s : IAMStore) (ctx : EvalContext) : Prop :=
  ∃ fuel, Refuses (evaluate L fuel s ctx)

theorem evaluatesRefusal_iff {L : Library} {s : IAMStore} {ctx : EvalContext} :
    EvaluatesRefusal L s ctx ↔ Refuses (evaluateBy (verdict L ctx) s ctx) :=
  evaluate_returns fun result => result.decision ≠ .allow

/-- A request that is allowed stays so after an Allow statement is added to
one of the user's policies exactly if one of them allowed it before, the
statement does not match it, or no boundary refuses it. -/
theorem grant_kept_iff {L : Library} {s s' : IAMStore} {ctx : EvalContext} {stmt : Statement}
    (added : GrantAdded s ctx.principal stmt s') (allowed : EvaluatesAllow L s ctx) :
    ¬ EvaluatesRefusal L s' ctx ↔
      AnyMatch (Matches L ctx) (str "Allow") (ownStatements s (s.users.get ctx.principal)) ∨ ¬ Matches L ctx stmt ∨
        ∀ doc ∈ boundary s' (s'.users.get ctx.principal), ¬ DocumentRefuses (verdict L ctx) doc := by
  have refused := enlarged_refuses_iff added.enlarged (evaluatesAllow_iff.mp allowed)
  rw [hits_verdict] at refused
  rw [evaluatesRefusal_iff, refused, not_and_or, not_and_or, not_not]
  simp [not_exists]
open PolicySpecification.Sample

namespace Sample

open PolicySpecification.Sample (library statement)

/-- A user with an inline policy that may have a boundary. -/
def bob (inline : List Statement) (boundary : Bytes) : IAMUser :=
  ⟨str "AIDA2", str "bob", [], [], [], [⟨str "own", inline⟩], boundary⟩

/-- The bucket is open to everyone, and the policy `limit` says nothing. -/
def store (user : IAMUser) : IAMStore where
  users := Table.empty.put (str "bob") user
  groups := Table.empty
  policies := Table.empty.put (str "limit") ⟨[], []⟩
  bucketPolicies := Table.empty.put (str "photos") ⟨str "open", [statement (str "Allow") []]⟩
  tempCredentials := Table.empty
  scp := none

def read : EvalContext := { PolicySpecification.Sample.read with principal := str "bob", userAgent := [] }

/-- The store after everything is allowed by the inline policy. -/
def granted (boundary : Bytes) : IAMStore :=
  { store (bob [] boundary) with
    users := (store (bob [] boundary)).users.put read.principal (bob [statement (str "Allow") []] boundary) }

theorem grant_added (boundary : Bytes) :
    GrantAdded (store (bob [] boundary)) read.principal (statement (str "Allow") []) (granted boundary) :=
  @GrantAdded.inline _ _ _ (bob [] boundary) [] [] ⟨str "own", []⟩ ⟨str "own", [statement (str "Allow") []]⟩
    rfl rfl rfl ⟨[], [], rfl, rfl⟩

theorem allowed_before (boundary : Bytes) (unread : boundary = [] ∨ boundary = str "limit") :
    EvaluatesAllow library (store (bob [] boundary)) read := by
  rcases unread with rfl | rfl <;> exact ⟨1, allows_of_decision (by decide +kernel)⟩

end Sample

/-- A user with an empty boundary reads from an open bucket, and is denied it
once the user's own policy allows everything. -/
theorem added_grant_denies : EvaluatesAllow library (Sample.store (Sample.bob [] (str "limit"))) Sample.read ∧
      GrantAdded (Sample.store (Sample.bob [] (str "limit"))) Sample.read.principal
        (statement (str "Allow") []) (Sample.granted (str "limit")) ∧
      (evaluate library 1 (Sample.granted (str "limit")) Sample.read).map (·.decision) = some .deny := by
  refine ⟨Sample.allowed_before _ (.inr rfl), Sample.grant_added _, ?_⟩
  decide +kernel

/-- Without a boundary the same grant takes nothing away. -/
theorem grant_kept_without_boundary : ¬ EvaluatesRefusal library (Sample.granted []) Sample.read := by
  refine (grant_kept_iff (Sample.grant_added []) (Sample.allowed_before [] (.inl rfl))).mpr (.inr (.inr ?_))
  rintro - ⟨⟩

end CipherLake.PolicyGrants
