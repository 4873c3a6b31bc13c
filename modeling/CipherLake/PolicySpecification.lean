import CipherLake.PolicyDecisions
import Mathlib.Algebra.Order.BigOperators.Group.List

/-! What `PolicyEvaluator.Evaluate` is specified to decide, in terms of the
statements that match, and where it does so. It never allows more than that,
and more to deny never allows more; it allows less where the test of a
statement goes on for ever. -/
namespace CipherLake.PolicySpecification
open Lib Iam IamProofs PolicyDecisions List

/-! ### What is granted -/

section Granted

variable {test : Test} {s : IAMStore} {ctx : EvalContext} {user : Option IAMUser} {L : Library}

theorem documentPasses_iff {doc : PolicyDocument} : DocumentPasses test doc ↔
    DocumentAllows (Hits test) doc ∧ Ended test (str "Deny") doc.statement ∧
      Ended test (str "Allow") doc.statement := by
  unfold DocumentPasses DocumentAllows
  rw [clear_iff, found_iff]
  tauto

/-- The tests that are made on the way to a grant end: those of the control
policy, those for a Deny and for an Allow of the user's, and then those of the
boundary or those for an Allow of the bucket's policy. -/
structure Tested (test : Test) (s : IAMStore) (ctx : EvalContext) (user : Option IAMUser) : Prop where
  scp : ∀ doc ∈ s.scp, Ended test (str "Deny") doc.statement ∧ Ended test (str "Allow") doc.statement
  deny : Ended test (str "Deny") (ownStatements s user ++ bucketStatements s ctx)
  own : Ended test (str "Allow") (ownStatements s user)
  boundary : AnyMatch (Hits test) (str "Allow") (ownStatements s user) →
    ∀ doc ∈ IamProofs.boundary s user, Ended test (str "Deny") doc.statement ∧ Ended test (str "Allow") doc.statement
  bucket : ¬ AnyMatch (Hits test) (str "Allow") (ownStatements s user) →
    Ended test (str "Allow") (bucketStatements s ctx)

theorem evaluateBy_granted : Allows (evaluateBy test s ctx) ↔
    Granted (Hits test) s ctx (s.users.get ctx.principal) ∧ Tested test s ctx (s.users.get ctx.principal) := by
  rw [evaluateBy_allows, Permits, clear_iff, clear_iff, found_iff, found_iff]
  simp only [documentPasses_iff]
  constructor
  · rintro ⟨scp, ⟨denyEnds, undenied⟩, ⟨⟨ownEnds, allowed⟩, bounds⟩ | ⟨⟨ownEnds, missed⟩, bucketEnds, opened⟩⟩
    · exact ⟨⟨fun doc stored => (scp doc stored).1, undenied, .inl ⟨allowed, fun doc held => (bounds doc held).1⟩⟩,
        ⟨fun doc stored => (scp doc stored).2, denyEnds, ownEnds, fun _ doc held => (bounds doc held).2,
          fun missed => absurd allowed missed⟩⟩
    · exact ⟨⟨fun doc stored => (scp doc stored).1, undenied, .inr ⟨missed, opened⟩⟩,
        ⟨fun doc stored => (scp doc stored).2, denyEnds, ownEnds, fun allowed => absurd allowed missed,
          fun _ => bucketEnds⟩⟩
  · rintro ⟨⟨scp, undenied, granted⟩, ⟨scpEnds, denyEnds, ownEnds, boundEnds, bucketEnds⟩⟩
    refine ⟨fun doc stored => ⟨scp doc stored, scpEnds doc stored⟩, ⟨denyEnds, undenied⟩, ?_⟩
    rcases granted with ⟨allowed, bounds⟩ | ⟨missed, opened⟩
    · exact .inl ⟨⟨ownEnds, allowed⟩, fun doc held => ⟨bounds doc held, boundEnds allowed doc held⟩⟩
    · exact .inr ⟨⟨ownEnds, missed⟩, bucketEnds missed, opened⟩

theorem hits_verdict : Hits (verdict L ctx) = Matches L ctx := by
  funext stmt
  exact propext verdict_iff

/-- Some number of rounds makes `Evaluate` return Allow. -/
def EvaluatesAllow (L : Library) (s : IAMStore) (ctx : EvalContext) : Prop :=
  ∃ fuel, Allows (evaluate L fuel s ctx)

theorem evaluatesAllow_iff : EvaluatesAllow L s ctx ↔ Allows (evaluateBy (verdict L ctx) s ctx) :=
  evaluate_returns fun result => result.decision = .allow

/-- An evaluation that is given enough rounds ends, and grants a request by the
policies of whoever is stored under the principal. -/
theorem evaluate_spec {fuel : Nat} (plain : BraceFree L ctx) (enough : ∀ stmt ∈ storedStatements s, Enough fuel stmt) :
    ∃ result, evaluate L fuel s ctx = some result ∧
      (result.decision = .allow ↔ Granted (Matches L ctx) s ctx (s.users.get ctx.principal)) := by
  have ended : ∀ effect {stmts : List Statement}, stmts ⊆ storedStatements s →
      Ended (verdict L ctx) effect stmts := by
    rintro effect stmts listed _ stmt _ rfl - -
    obtain ⟨b, decided⟩ := statementMatches_ends plain (enough stmt (listed (by simp)))
    simp [verdict_iff.mpr ⟨fuel, decided⟩]
  have settled : Carries _ _ (evaluate L fuel s ctx) (evaluateBy (verdict L ctx) s ctx) :=
    evaluateBy_settles (fun stmt _ b said => verdict_iff.mpr ⟨fuel, said⟩) (List.Subset.refl _)
  rcases settled with ⟨-, stmt, listed, endless⟩ | ⟨result, evaluated, same⟩
  · obtain ⟨b, decided⟩ := statementMatches_ends plain (enough stmt listed)
    cases decided.symm.trans endless
  · refine ⟨result, evaluated, ?_⟩
    have own := ownStatements_stored (s := s) ctx.principal
    have bucket : bucketStatements s ctx ⊆ storedStatements s := bucketStatements_stored
    rw [← allows_some, ← same, evaluateBy_granted, hits_verdict]
    exact and_iff_left ⟨fun doc stored => ⟨ended _ (scp_stored stored), ended _ (scp_stored stored)⟩,
      ended _ (append_subset.mpr ⟨own, bucket⟩), ended _ own,
      fun _ doc held => ⟨ended _ (boundary_stored held), ended _ (boundary_stored held)⟩, fun _ => ended _ bucket⟩

end Granted

/-- The statements of a document that may be missing. -/
def statementsOf (doc : Option PolicyDocument) : List Statement := (doc.map (·.statement)).getD []

theorem managedPolicies_statements (s : IAMStore) (names : List Bytes) :
    (managedPolicies s names).flatMap (·.2.statement) =
      names.flatMap fun name => statementsOf (s.policies.get name) := by
  induction names with
  | nil => rfl
  | cons name names ih =>
    unfold managedPolicies at ih ⊢
    rw [filterMap_cons, flatMap_cons]
    cases s.policies.get name with
    | none => exact ih
    | some doc =>
      simp only [Option.map_some, flatMap_cons, ih]
      rfl

/-- A user's own statements, by the documents they come from. -/
theorem ownStatements_eq (s : IAMStore) (user : IAMUser) :
    ownStatements s (some user) = user.inlinePolicies.flatMap (·.statement) ++
      (user.attachedPolicies.flatMap fun name => statementsOf (s.policies.get name)) ++
      user.groups.flatMap fun group => ((s.groups.get group).getD []).flatMap fun name =>
        statementsOf (s.policies.get name) := by
  unfold ownStatements identityPolicies
  simp only [Option.map_some, Option.getD_some, flatMap_append, flatMap_map,
    managedPolicies_statements, flatMap_assoc]
  congr 2
  funext group
  cases s.groups.get group with
  | none => rfl
  | some attached => exact managedPolicies_statements s attached

theorem bucketStatements_eq (s : IAMStore) (ctx : EvalContext) :
    bucketStatements s ctx = if extractBucketFromResource ctx.resource = [] then []
      else statementsOf (s.bucketPolicies.get (extractBucketFromResource ctx.resource)) := by
  unfold bucketStatements resourcePolicies
  simp only
  split
  · rfl
  · cases s.bucketPolicies.get (extractBucketFromResource ctx.resource) <;> simp [statementsOf]

/-! ### Added statements -/

/-- Statements of one kind are added anywhere among others. -/
inductive Inserted (added : Statement → Prop) : List Statement → List Statement → Prop where
  | nil : Inserted added [] []
  | keep (stmt : Statement) {old new : List Statement} :
      Inserted added old new → Inserted added (stmt :: old) (stmt :: new)
  | add (stmt : Statement) {old new : List Statement} :
      added stmt → Inserted added old new → Inserted added old (stmt :: new)

namespace Inserted

variable {added : Statement → Prop} {old new : List Statement} {test : Test} {effect : Bytes}

theorem refl (stmts : List Statement) : Inserted added stmts stmts := by
  induction stmts with
  | nil => exact .nil
  | cons stmt rest ih => exact .keep stmt ih

theorem append {a a' b b' : List Statement} (first : Inserted added a a') (second : Inserted added b b') :
    Inserted added (a ++ b) (a' ++ b') := by
  induction first with
  | nil => exact second
  | keep stmt _ ih => exact .keep stmt ih
  | add stmt isAdded _ ih => exact .add stmt isAdded ih

theorem flatMap {α : Type} {f g : α → List Statement} (each : ∀ x, Inserted added (f x) (g x)) (items : List α) :
    Inserted added (items.flatMap f) (items.flatMap g) := by
  induction items with
  | nil => exact .nil
  | cons x items ih =>
    rw [flatMap_cons, flatMap_cons]
    exact (each x).append ih

variable (inserted : Inserted added old new)

include inserted

theorem mem_new : ∀ x ∈ new, added x ∨ x ∈ old := by
  induction inserted with
  | nil => exact fun x listed => .inr listed
  | keep stmt _ ih =>
    intro x listed
    rcases mem_cons.mp listed with rfl | later
    · exact .inr mem_cons_self
    · exact (ih x later).imp_right (mem_cons_of_mem _)
  | add stmt isAdded _ ih =>
    intro x listed
    rcases mem_cons.mp listed with rfl | later
    · exact .inl isAdded
    · exact ih x later

/-- A search for another effect does not meet what is added. -/
theorem other_effect (apart : ∀ stmt, added stmt → stmt.effect ≠ effect) :
    firstMatch test effect new = firstMatch test effect old := by
  induction inserted with
  | nil => rfl
  | keep stmt _ ih => rw [firstMatch, firstMatch, ih]
  | add stmt isAdded _ ih => rw [firstMatch, if_neg (apart stmt isAdded), ih]

theorem found_other (apart : ∀ stmt, added stmt → stmt.effect ≠ effect) :
    Found test effect new ↔ Found test effect old := by
  rw [Found, inserted.other_effect apart, Found]

/-- A search that passes over everything passed over what was there before. -/
theorem clear (clear : Clear test effect new) : Clear test effect old := by
  induction inserted with
  | nil => exact clear
  | keep stmt _ ih =>
    obtain ⟨here, rest⟩ := clear_cons.mp clear
    exact clear_cons.mpr ⟨here, ih rest⟩
  | add stmt _ _ ih => exact ih (clear_cons.mp clear).2

end Inserted

/-! ### More to deny -/

def IsDeny (stmt : Statement) : Prop := stmt.effect = str "Deny"

theorem IsDeny.not_allow {stmt : Statement} (isDeny : IsDeny stmt) : stmt.effect ≠ str "Allow" := by
  rw [isDeny]
  decide

/-- A document that gets more to deny, or one made up of denials only. -/
structure DocumentGrown (old new : Option PolicyDocument) : Prop where
  stored : old.isSome → new.isSome
  statements : Inserted IsDeny (statementsOf old) (statementsOf new)

/-- A user whose inline policies get more to deny. -/
inductive UserGrown : Option IAMUser → Option IAMUser → Prop where
  | absent : UserGrown none none
  | stored {old new : IAMUser} : new.attachedPolicies = old.attachedPolicies → new.groups = old.groups →
      new.permissionBoundary = old.permissionBoundary →
      Inserted IsDeny (old.inlinePolicies.flatMap (·.statement)) (new.inlinePolicies.flatMap (·.statement)) →
      UserGrown (some old) (some new)

/-- Deny statements are added to the documents of a store. -/
structure DenyAdded (s s' : IAMStore) : Prop where
  users : ∀ name, UserGrown (s.users.get name) (s'.users.get name)
  groups : ∀ name, s'.groups.get name = s.groups.get name
  policies : ∀ name, DocumentGrown (s.policies.get name) (s'.policies.get name)
  bucketPolicies : ∀ name, DocumentGrown (s.bucketPolicies.get name) (s'.bucketPolicies.get name)
  scp : DocumentGrown s.scp s'.scp

section Denials

variable {test : Test} {s s' : IAMStore} {ctx : EvalContext} {L : Library}

/-- A document that passes with more to deny passed without it. -/
theorem DocumentGrown.passes {old new : Option PolicyDocument} (grown : DocumentGrown old new)
    (passes : ∀ doc ∈ new, DocumentPasses test doc) : ∀ doc ∈ old, DocumentPasses test doc := by
  obtain ⟨stored, statements⟩ := grown
  rintro doc ⟨⟩
  obtain ⟨doc', rfl⟩ := Option.isSome_iff_exists.mp (stored rfl)
  obtain ⟨clear, found⟩ := passes doc' rfl
  exact ⟨statements.clear clear, (statements.found_other fun _ => IsDeny.not_allow).mp found⟩

theorem DenyAdded.own (added : DenyAdded s s') (name : Bytes) :
    Inserted IsDeny (ownStatements s (s.users.get name)) (ownStatements s' (s'.users.get name)) := by
  have grown := added.users name
  generalize s.users.get name = old at grown ⊢
  generalize s'.users.get name = new at grown ⊢
  cases grown with
  | absent => exact .nil
  | stored attached groups bounded inline =>
    rw [ownStatements_eq, ownStatements_eq, attached, groups]
    refine (inline.append ?_).append ?_
    · exact Inserted.flatMap (fun name => (added.policies name).statements) _
    · refine Inserted.flatMap (fun group => ?_) _
      rw [added.groups group]
      exact Inserted.flatMap (fun name => (added.policies name).statements) _

theorem DenyAdded.bucket (added : DenyAdded s s') (ctx : EvalContext) :
    Inserted IsDeny (bucketStatements s ctx) (bucketStatements s' ctx) := by
  rw [bucketStatements_eq, bucketStatements_eq]
  split
  · exact .nil
  · exact (added.bucketPolicies _).statements

theorem DenyAdded.boundary (added : DenyAdded s s') (name : Bytes)
    (passes : ∀ doc ∈ IamProofs.boundary s' (s'.users.get name), DocumentPasses test doc) :
    ∀ doc ∈ IamProofs.boundary s (s.users.get name), DocumentPasses test doc := by
  have grown := added.users name
  generalize s.users.get name = old at grown ⊢
  generalize s'.users.get name = new at grown passes
  cases grown with
  | absent => exact passes
  | stored attached groups bounded inline =>
    simp only [IamProofs.boundary, Option.bind_some, bounded] at passes ⊢
    split
    · rintro doc ⟨⟩
    · next named =>
      rw [if_neg named] at passes
      exact (added.policies _).passes passes

theorem DenyAdded.allows (added : DenyAdded s s') (allowed : Allows (evaluateBy test s' ctx)) :
    Allows (evaluateBy test s ctx) := by
  rw [evaluateBy_allows] at allowed ⊢
  obtain ⟨scp, undenied, granted⟩ := allowed
  have own := added.own ctx.principal
  have bucket := added.bucket ctx
  refine ⟨added.scp.passes scp, (own.append bucket).clear undenied, ?_⟩
  rcases granted with ⟨found, bounds⟩ | ⟨clear, found⟩
  · exact .inl ⟨(own.found_other fun _ => IsDeny.not_allow).mp found, added.boundary ctx.principal bounds⟩
  · exact .inr ⟨own.clear clear, (bucket.found_other fun _ => IsDeny.not_allow).mp found⟩

/-- `Evaluate` returns Allow for what the policies grant and for nothing else,
and a request that it does not allow stays so when there is more to deny. -/
structure DecidedAsSpecified (L : Library) (s : IAMStore) (ctx : EvalContext) : Prop where
  allow : EvaluatesAllow L s ctx ↔ Granted (Matches L ctx) s ctx (s.users.get ctx.principal)
  deny : ∀ s', DenyAdded s s' → EvaluatesAllow L s' ctx → EvaluatesAllow L s ctx

/-- Decisions are as specified except where the policies grant a request and
a test on the way to that decision does not end. -/
theorem decidedAsSpecified_iff (L : Library) (s : IAMStore) (ctx : EvalContext) : DecidedAsSpecified L s ctx ↔
      (Granted (Matches L ctx) s ctx (s.users.get ctx.principal) →
        Tested (verdict L ctx) s ctx (s.users.get ctx.principal)) := by
  have meaning : EvaluatesAllow L s ctx ↔ _ := evaluatesAllow_iff.trans evaluateBy_granted
  rw [hits_verdict] at meaning
  constructor
  · intro decided granted
    exact (meaning.mp (decided.allow.mpr granted)).2
  · intro tested
    refine ⟨⟨fun allowed => (meaning.mp allowed).1, fun granted => meaning.mpr ⟨granted, tested granted⟩⟩, ?_⟩
    intro s' added allowed
    exact evaluatesAllow_iff.mpr (added.allows (evaluatesAllow_iff.mp allowed))

end Denials

namespace Sample

def library : Library where
  toLower := lowerASCII
  equalFold a b := lowerASCII a = lowerASCII b
  Number := Nat
  parseFloat _ := none
  numberEq a b := a = b
  numberLt a b := a < b
  parseRFC3339 _ := none
  formatRFC3339 _ := []
  parseAddr _ := none
  parsePrefix _ := none
  formatRFC3339_plain _ := not_mem_nil

/-- A reference to the client's own description of itself. -/
def reference : Bytes := str "$\x7baws:UserAgent\x7d"

/-- Everything in S3, for whomever the policy is attached to. -/
def statement (effect : Bytes) (condition : List (Bytes × List (Bytes × Operand))) : Statement :=
  ⟨str "All", effect, [str "s3:*"], [], [str "*"], [], none, condition⟩

def denial : Statement :=
  statement (str "Deny") [(str "StringEquals", [(str "aws:PrincipalType", .text reference)])]

/-- A user who may do everything, unless a condition on the client holds. -/
def alice : IAMUser :=
  ⟨str "AIDA1", str "alice", [], [], [], [⟨str "own", [denial, statement (str "Allow") []]⟩], []⟩

def store : IAMStore where
  users := Table.empty.put (str "alice") alice
  groups := Table.empty
  policies := Table.empty
  bucketPolicies := Table.empty
  tempCredentials := Table.empty
  scp := none

/-- A read by a client whose description of itself is a reference to it. -/
def read : EvalContext where
  principal := str "alice"
  action := str "s3:GetObject"
  resource := str "arn:cipherlake:s3:::photos/cat.jpg"
  conditions := []
  sourceIP := str "10.0.0.7"
  time := 0
  userAgent := reference
  principalType := str "User"
  resourceTags := []
  principalTags := []
  requestTags := []
  s3Prefix := []
  s3ACL := []

theorem reference_endless (fuel : Nat) : resolveVariableSubstitution library read fuel reference = none := by
  induction fuel with
  | zero => rfl
  | succ fuel ih =>
    have opened : index reference (str "$\x7b") = some 0 := by decide
    have again : reference.take 0 ++ resolveConditionKey library ((reference.drop 2).take 13) read ++
        reference.drop 16 = reference := by decide
    rw [resolveVariableSubstitution, opened]
    rw [← ih]
    exact congrArg _ again

theorem denial_endless (fuel : Nat) : statementMatches library fuel denial read = none := by
  have inScope : applies library denial read = true := by decide +kernel
  have compared : conditionMatches library fuel (str "StringEquals") (str "aws:PrincipalType") (.text reference)
      read = none := by
    have ordinary : library.toLower (str "StringEquals") ≠ str "null" := by decide
    simp [conditionMatches, ordinary, reference_endless]
  rw [statementMatches, if_pos inScope]
  simp only [denial, statement, conditionsMatch, allMatch, compared]

theorem own_statements : ownStatements store (some alice) = [denial, statement (str "Allow") []] := rfl

end Sample

open Sample

/-- A user who is allowed everything reads an object with a client whose
`User-Agent` is a reference to itself: a Deny on the client is never done
substituting it, and no answer is given. -/
theorem self_reference_never_decided : Granted (Matches library read) store read (store.users.get read.principal) ∧
      (∀ fuel, evaluate library fuel store read = none) ∧
      ¬ DecidedAsSpecified library store read := by
  have user : store.users.get read.principal = some alice := by decide
  have unmatched : ¬ Matches library read denial := by
    rintro ⟨fuel, found⟩
    rw [denial_endless] at found
    cases found
  have bucket : bucketStatements store read = [] := rfl
  have granted : Granted (Matches library read) store read (store.users.get read.principal) := by
    rw [user]
    refine ⟨by rintro doc ⟨⟩, ?_, .inl ⟨?_, by rintro doc ⟨⟩⟩⟩
    · rw [bucket, own_statements]
      rintro ⟨stmt, listed, isDeny, matched⟩
      rcases mem_cons.mp listed with rfl | other
      · exact unmatched matched
      · obtain rfl := mem_singleton.mp other
        revert isDeny
        decide
    · exact ⟨statement (str "Allow") [], mem_cons_of_mem _ mem_cons_self, rfl, 1, by decide +kernel⟩
  have endless : ∀ fuel, evaluate library fuel store read = none := by
    intro fuel
    have searching : firstMatch (fun stmt => statementMatches library fuel stmt read) (str "Deny")
        [denial, statement (str "Allow") []] = none := by
      have isDeny : denial.effect = str "Deny" := rfl
      rw [firstMatch, if_pos isDeny, denial_endless]
    unfold evaluate evaluatePolicies
    simp only [user, listed_statements, bucket, own_statements, append_nil, searching]
    rfl
  refine ⟨granted, endless, fun decided => ?_⟩
  obtain ⟨fuel, allowed⟩ := decided.allow.mpr granted
  rw [endless fuel] at allowed
  exact not_allows_none allowed

end CipherLake.PolicySpecification
