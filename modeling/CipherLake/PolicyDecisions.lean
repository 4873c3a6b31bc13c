import CipherLake.IamProofs

/-! What the evaluator decides when the test of a statement need not end. Given
ever more rounds the test of a statement settles on a verdict or never does,
and an evaluation returns what the same evaluation by verdicts gives. Of the
statements of one effect only those up to the first match are tested, so it is
their tests that have to end. -/
namespace CipherLake.PolicyDecisions
open Lib Iam IamProofs List

/-! ### Verdicts -/

/-- Whatever one test says about the listed statements, the other says too. -/
def Settles (test later : Test) (stmts : List Statement) : Prop :=
  ∀ stmt ∈ stmts, ∀ b, test stmt = some b → later stmt = some b

/-- What is computed now waits for the test of a listed statement that does not
end, or is what is computed later. -/
def Carries (test : Test) (stmts : List Statement) {α : Type} (now later : Option α) : Prop :=
  (now = none ∧ ∃ stmt ∈ stmts, test stmt = none) ∨ ∃ result, now = some result ∧ later = some result

variable {stmts : List Statement} {effect : Bytes} {result : EvalResult} {stmt : Statement}

section Settles

variable {test later : Test} {α : Type}

theorem Carries.returns {result : α} {now later : Option α} (carries : Carries test stmts now later)
    (returned : now = some result) : later = some result := by
  rcases carries with ⟨endless, -⟩ | ⟨_, first, second⟩
  · cases endless.symm.trans returned
  · rw [second, ← first, returned]

theorem Carries.waits {later : Option α} (stuck : ∃ stmt ∈ stmts, test stmt = none) :
    Carries test stmts none later := .inl ⟨rfl, stuck⟩

theorem Carries.same (result : α) : Carries test stmts (some result) (some result) :=
  .inr ⟨result, rfl, rfl⟩

@[elab_as_elim] theorem Carries.elim {now later : Option α} {motive : Option α → Option α → Prop}
    (carries : Carries test stmts now later) (waits : (∃ stmt ∈ stmts, test stmt = none) → motive none later)
    (same : ∀ result, motive (some result) (some result)) : motive now later := by
  rcases carries with ⟨rfl, stuck⟩ | ⟨result, rfl, rfl⟩
  · exact waits stuck
  · exact same result

variable {s : IAMStore} {ctx : EvalContext} {user : Option IAMUser} (kept : Settles test later stmts)

include kept

theorem firstMatch_settles (effect : Bytes) {searched : List Statement} (listed : searched ⊆ stmts) :
    Carries test stmts (firstMatch test effect searched) (firstMatch later effect searched) := by
  induction searched with
  | nil => exact .same none
  | cons stmt rest ih =>
    obtain ⟨here, others⟩ := cons_subset.mp listed
    rw [firstMatch, firstMatch]
    split
    · cases said : test stmt with
      | none => exact .inl ⟨rfl, stmt, here, said⟩
      | some b =>
        rw [kept stmt here b said]
        cases b with
        | true => exact .same (some stmt)
        | false => exact ih others
    · exact ih others

theorem firstAllow_settles {policies : List (Bytes × PolicyDocument)}
    (listed : policies.flatMap (·.2.statement) ⊆ stmts) :
    Carries test stmts (firstAllow test policies) (firstAllow later policies) := by
  induction policies with
  | nil => exact .same none
  | cons policy rest ih =>
    obtain ⟨here, others⟩ := append_subset.mp listed
    rw [firstAllow, firstAllow]
    refine (firstMatch_settles kept (str "Allow") here).elim .waits fun hit => ?_
    cases hit with
    | some stmt => exact .same _
    | none => exact ih others

theorem evaluateDocument_settles {doc : PolicyDocument} (listed : doc.statement ⊆ stmts) :
    Carries test stmts (evaluateDocument test doc) (evaluateDocument later doc) := by
  unfold evaluateDocument
  refine (firstMatch_settles kept (str "Deny") listed).elim .waits fun deny => ?_
  cases deny with
  | some stmt => exact .same _
  | none =>
    refine (firstMatch_settles kept (str "Allow") listed).elim .waits fun allow => ?_
    cases allow <;> exact .same _

theorem withinBoundary_settles (allowed : EvalResult) (listed : ∀ doc ∈ boundary s user, doc.statement ⊆ stmts) :
    Carries test stmts (withinBoundary test s user allowed) (withinBoundary later s user allowed) := by
  unfold withinBoundary
  cases user with
  | none => exact .same allowed
  | some user =>
    simp only [boundary, Option.bind_some] at listed ⊢
    split
    · exact .same allowed
    rename_i bounded
    rw [if_neg bounded] at listed
    cases stored : s.policies.get user.permissionBoundary with
    | none => exact .same allowed
    | some doc =>
      simp only [evaluateBoundary]
      refine (evaluateDocument_settles kept (listed doc stored)).elim .waits fun outcome => ?_
      obtain ⟨decision, -⟩ := outcome
      cases decision <;> exact .same _

theorem evaluatePolicies_settles (own : ownStatements s user ⊆ stmts) (bucket : bucketStatements s ctx ⊆ stmts)
    (bounds : ∀ doc ∈ boundary s user, doc.statement ⊆ stmts) :
    Carries test stmts (evaluatePolicies test s ctx user) (evaluatePolicies later s ctx user) := by
  unfold evaluatePolicies
  simp only [listed_statements]
  refine (firstMatch_settles kept (str "Deny") (append_subset.mpr ⟨own, bucket⟩)).elim .waits fun deny => ?_
  cases deny with
  | some stmt => exact .same _
  | none =>
    refine (firstAllow_settles kept own).elim .waits fun allow => ?_
    cases allow with
    | some found => exact withinBoundary_settles kept _ bounds
    | none =>
      refine (firstMatch_settles kept (str "Allow") bucket).elim .waits fun grant => ?_
      cases grant <;> exact .same _

theorem evaluateSession_settles {identity resource : List PolicyDocument}
    (listed : (identity ++ resource).flatMap (·.statement) ⊆ stmts) :
    Carries test stmts (evaluateSession test identity resource) (evaluateSession later identity resource) := by
  unfold evaluateSession
  refine (firstMatch_settles kept (str "Deny") listed).elim .waits fun deny => ?_
  rw [flatMap_append] at listed
  obtain ⟨own, bucket⟩ := append_subset.mp listed
  cases deny with
  | some stmt => exact .same _
  | none =>
    refine (firstMatch_settles kept (str "Allow") own).elim .waits fun allow => ?_
    cases allow with
    | some stmt => exact .same _
    | none =>
      refine (firstMatch_settles kept (str "Allow") bucket).elim .waits fun grant => ?_
      cases grant <;> exact .same _

omit kept in
/-- `Evaluate` for any test of a statement. -/
def evaluateBy (test : Test) (s : IAMStore) (ctx : EvalContext) : Option EvalResult :=
  match evaluateSCP test s.scp with
  | none => none
  | some scp =>
    if scp.decision = .allow then evaluatePolicies test s ctx (s.users.get ctx.principal) else some scp

theorem evaluateSCP_settles {scp : Option PolicyDocument} (listed : ∀ doc ∈ scp, doc.statement ⊆ stmts) :
    Carries test stmts (evaluateSCP test scp) (evaluateSCP later scp) := by
  unfold evaluateSCP
  cases scp with
  | none => exact .same _
  | some doc =>
    simp only
    refine (evaluateDocument_settles kept (listed doc rfl)).elim .waits fun outcome => ?_
    obtain ⟨decision, -⟩ := outcome
    cases decision <;> exact .same _

theorem evaluateBy_settles (listed : storedStatements s ⊆ stmts) :
    Carries test stmts (evaluateBy test s ctx) (evaluateBy later s ctx) := by
  unfold evaluateBy
  refine (evaluateSCP_settles kept fun doc stored => List.Subset.trans (scp_stored stored) listed).elim .waits
    fun scp => ?_
  by_cases passes : scp.decision = .allow
  · simp only [passes, if_true]
    exact evaluatePolicies_settles kept (List.Subset.trans (ownStatements_stored ctx.principal) listed)
      (List.Subset.trans bucketStatements_stored listed) fun doc held => List.Subset.trans (boundary_stored held) listed
  · simp only [passes, if_false]
    exact .same scp

end Settles

section Verdicts

variable (L : Library) (ctx : EvalContext)

/-- The test of statements that is given so many rounds. -/
def rounds (fuel : Nat) : Test := fun stmt => statementMatches L fuel stmt ctx

open Classical in
/-- What the test of a statement says however long it takes; nothing if it
never ends. -/
noncomputable def verdict : Test := fun stmt =>
  if ∃ fuel, rounds L ctx fuel stmt = some true then some true
  else if ∃ fuel, rounds L ctx fuel stmt = some false then some false
  else none

variable {L ctx}

theorem verdict_iff {b : Bool} : verdict L ctx stmt = some b ↔ ∃ fuel, rounds L ctx fuel stmt = some b := by
  have agree : (∃ fuel, rounds L ctx fuel stmt = some true) → ¬ ∃ fuel, rounds L ctx fuel stmt = some false := by
    rintro ⟨fuel, yes⟩ ⟨other, no⟩
    have here := statementMatches_mono (Nat.le_max_left fuel other) yes
    rw [statementMatches_mono (Nat.le_max_right fuel other) no] at here
    cases here
  unfold verdict
  split
  · next yes =>
    cases b with
    | true => simp [yes]
    | false => simp [agree yes]
  · next missed =>
    split
    · next no =>
      cases b with
      | true => simp [missed]
      | false => simp [no]
    · next endless =>
      cases b with
      | true => simp [missed]
      | false => simp [endless]

/-- Some number of rounds is enough for all the listed statements whose test
ends at all. -/
theorem verdict_reached (L : Library) (ctx : EvalContext) (stmts : List Statement) :
    ∃ fuel, Settles (verdict L ctx) (rounds L ctx fuel) stmts := by
  induction stmts with
  | nil => exact ⟨0, fun stmt listed => absurd listed not_mem_nil⟩
  | cons stmt rest ih =>
    obtain ⟨fuel, enough⟩ := ih
    have first : ∃ more, ∀ b, verdict L ctx stmt = some b → rounds L ctx more stmt = some b := by
      cases said : verdict L ctx stmt with
      | none => exact ⟨0, by simp⟩
      | some b =>
        obtain ⟨more, ends⟩ := verdict_iff.mp said
        exact ⟨more, by rintro _ ⟨⟩; exact ends⟩
    obtain ⟨more, here⟩ := first
    refine ⟨max fuel more, forall_mem_cons.mpr ⟨?_, ?_⟩⟩
    · intro b said
      exact statementMatches_mono (Nat.le_max_right fuel more) (here b said)
    · intro other listed b said
      exact statementMatches_mono (Nat.le_max_left fuel more) (enough other listed b said)

/-- What is computed from the tests of finitely many statements is returned in
some number of rounds exactly if the verdicts give it. -/
theorem returns_iff {α : Type} (L : Library) (ctx : EvalContext) (stmts : List Statement) {f : Test → Option α}
    (settles : ∀ {test later : Test}, Settles test later stmts → Carries test stmts (f test) (f later)) (P : α → Prop) :
    (∃ fuel, ∃ result, f (rounds L ctx fuel) = some result ∧ P result) ↔
      ∃ result, f (verdict L ctx) = some result ∧ P result := by
  constructor
  · rintro ⟨fuel, result, returned, holds⟩
    exact ⟨result, (settles fun stmt _ b said => verdict_iff.mpr ⟨fuel, said⟩).returns returned, holds⟩
  · rintro ⟨result, returned, holds⟩
    obtain ⟨fuel, enough⟩ := verdict_reached L ctx stmts
    exact ⟨fuel, result, (settles enough).returns returned, holds⟩

theorem evaluate_returns {s : IAMStore} (P : EvalResult → Prop) :
    (∃ fuel, ∃ result, evaluate L fuel s ctx = some result ∧ P result) ↔
      ∃ result, evaluateBy (verdict L ctx) s ctx = some result ∧ P result :=
  returns_iff L ctx (storedStatements s) (f := fun test => evaluateBy test s ctx)
    (evaluateBy_settles · (List.Subset.refl _)) P

end Verdicts
/-! ### Searches

A search for a statement of one effect ends with a match, ends without one, or
never ends. -/

section Searches

variable {test : Test} {rest : List Statement}

/-- The search passes over every statement. -/
def Clear (test : Test) (effect : Bytes) (stmts : List Statement) : Prop :=
  firstMatch test effect stmts = some none

/-- The search stops at a statement that matches. -/
def Found (test : Test) (effect : Bytes) (stmts : List Statement) : Prop :=
  ∃ stmt, firstMatch test effect stmts = some (some stmt)

/-- The test of a statement says that it matches. -/
def Hits (test : Test) (stmt : Statement) : Prop := test stmt = some true

/-- The tests of the statements of one effect end, up to the first that
matches. -/
def Ended (test : Test) (effect : Bytes) (stmts : List Statement) : Prop :=
  ∀ before stmt after, stmts = before ++ stmt :: after → stmt.effect = effect →
    ¬ AnyMatch (Hits test) effect before → test stmt ≠ none

theorem anyMatch_cons {M : Statement → Prop} :
    AnyMatch M effect (stmt :: rest) ↔ (stmt.effect = effect ∧ M stmt) ∨ AnyMatch M effect rest := by
  simp [AnyMatch, exists_eq_or_imp]

theorem ended_cons : Ended test effect (stmt :: rest) ↔ (stmt.effect = effect → test stmt ≠ none) ∧
      (¬ (stmt.effect = effect ∧ Hits test stmt) → Ended test effect rest) := by
  constructor
  · intro ended
    constructor
    · intro same
      exact ended [] stmt rest rfl same (by simp [AnyMatch])
    · intro missed before other after split sameEffect unmatched
      refine ended (stmt :: before) other after (by rw [split, cons_append]) sameEffect ?_
      rw [anyMatch_cons]
      exact not_or.mpr ⟨missed, unmatched⟩
  · rintro ⟨first, others⟩ before other after split sameEffect unmatched
    cases before with
    | nil =>
      obtain ⟨rfl, -⟩ := cons.inj split
      exact first sameEffect
    | cons head before =>
      obtain ⟨rfl, rfl⟩ := cons.inj split
      rw [anyMatch_cons, not_or] at unmatched
      exact others unmatched.1 before other after rfl sameEffect unmatched.2

/-- How a search comes out, by the statements that match and the tests that end. -/
theorem firstMatch_outcome (test : Test) (effect : Bytes) (stmts : List Statement) :
    (firstMatch test effect stmts = none ∧ ¬ Ended test effect stmts) ∨
      (Clear test effect stmts ∧ Ended test effect stmts ∧ ¬ AnyMatch (Hits test) effect stmts) ∨
      (Found test effect stmts ∧ Ended test effect stmts ∧ AnyMatch (Hits test) effect stmts) := by
  unfold Clear Found
  induction stmts with
  | nil => exact .inr (.inl ⟨rfl, by simp [Ended], by simp [AnyMatch]⟩)
  | cons stmt rest ih =>
    rw [firstMatch, ended_cons, anyMatch_cons]
    by_cases same : stmt.effect = effect
    · cases said : test stmt with
      | none => exact .inl ⟨by simp [same], by simp [same]⟩
      | some b =>
        cases b with
        | true => exact .inr (.inr ⟨⟨stmt, by simp [same]⟩, by simp [same, Hits, said], by simp [same, Hits, said]⟩)
        | false => simpa [same, Hits, said] using ih
    · simpa [same] using ih

theorem firstMatch_append (test : Test) (effect : Bytes) (stmts more : List Statement) :
    firstMatch test effect (stmts ++ more) =
      match firstMatch test effect stmts with
      | none => none
      | some (some stmt) => some (some stmt)
      | some none => firstMatch test effect more := by
  induction stmts with
  | nil => rfl
  | cons stmt rest ih =>
    rw [cons_append, firstMatch, firstMatch]
    split
    · cases test stmt with
      | none => rfl
      | some b =>
        cases b with
        | true => rfl
        | false => exact ih
    · exact ih

theorem clear_iff : Clear test effect stmts ↔ Ended test effect stmts ∧ ¬ AnyMatch (Hits test) effect stmts := by
  rcases firstMatch_outcome test effect stmts with ⟨endless, open_⟩ | ⟨clear, facts⟩ | ⟨⟨_, found⟩, -, matched⟩
  · simp [Clear, endless, open_]
  · exact iff_of_true clear facts
  · simp [Clear, found, matched]

theorem found_iff : Found test effect stmts ↔ Ended test effect stmts ∧ AnyMatch (Hits test) effect stmts := by
  rcases firstMatch_outcome test effect stmts with ⟨endless, open_⟩ | ⟨clear, -, missed⟩ | ⟨found, facts⟩
  · simp [Found, endless, open_]
  · rw [Clear] at clear
    simp [Found, clear, missed]
  · exact iff_of_true found facts

theorem clear_cons :
    Clear test effect (stmt :: rest) ↔ (stmt.effect = effect → test stmt = some false) ∧ Clear test effect rest := by
  unfold Clear
  rw [firstMatch]
  by_cases same : stmt.effect = effect
  · cases said : test stmt with
    | none => simp [same]
    | some b => cases b <;> simp [same]
  · simp [same]

theorem clear_mem (clear : Clear test effect stmts) :
    ∀ stmt ∈ stmts, stmt.effect = effect → test stmt = some false := by
  induction stmts with
  | nil => exact fun stmt listed => absurd listed not_mem_nil
  | cons head rest ih =>
    obtain ⟨here, others⟩ := clear_cons.mp clear
    exact forall_mem_cons.mpr ⟨here, ih others⟩

theorem not_found_of_clear (clear : Clear test effect stmts) : ¬ Found test effect stmts := by
  rintro ⟨_, found⟩
  cases clear.symm.trans found

theorem firstAllow_outcome (test : Test) (policies : List (Bytes × PolicyDocument)) :
    (firstAllow test policies = none ∧ firstMatch test (str "Allow") (policies.flatMap (·.2.statement)) = none) ∨
      (firstAllow test policies = some none ∧ Clear test (str "Allow") (policies.flatMap (·.2.statement))) ∨
      ((∃ hit, firstAllow test policies = some (some hit)) ∧
        Found test (str "Allow") (policies.flatMap (·.2.statement))) := by
  unfold Clear Found
  induction policies with
  | nil => exact .inr (.inl ⟨rfl, rfl⟩)
  | cons policy rest ih =>
    obtain ⟨_, doc⟩ := policy
    rw [firstAllow, flatMap_cons, firstMatch_append]
    cases searched : firstMatch test (str "Allow") doc.statement with
    | none => exact .inl ⟨rfl, rfl⟩
    | some hit =>
      cases hit with
      | none => exact ih
      | some stmt => exact .inr (.inr ⟨⟨_, rfl⟩, _, rfl⟩)

end Searches

/-! ### Evaluations -/

/-- An evaluation returns Allow. -/
def Allows (evaluation : Option EvalResult) : Prop := ∃ result, evaluation = some result ∧ result.decision = .allow

@[simp] theorem not_allows_none : ¬ Allows none := by
  rintro ⟨_, returned, -⟩
  cases returned

@[simp] theorem allows_some : Allows (some result) ↔ result.decision = .allow := by
  simp [Allows]

theorem allows_of_decision {evaluation : Option EvalResult}
    (decided : evaluation.map (·.decision) = some .allow) : Allows evaluation :=
  Option.map_eq_some_iff.mp decided

section Evaluations

variable {test : Test} {s : IAMStore} {ctx : EvalContext} {user : Option IAMUser}

/-- No Deny of a document is found, and an Allow is. -/
def DocumentPasses (test : Test) (doc : PolicyDocument) : Prop :=
  Clear test (str "Deny") doc.statement ∧ Found test (str "Allow") doc.statement

variable {doc : PolicyDocument} (P : Decision → Prop)

theorem evaluateDocument_returns : (∃ result, evaluateDocument test doc = some result ∧ P result.1) ↔
      (Found test (str "Deny") doc.statement ∧ P .deny) ∨ (Clear test (str "Deny") doc.statement ∧
        ((Found test (str "Allow") doc.statement ∧ P .allow) ∨
          (Clear test (str "Allow") doc.statement ∧ P .implicitDeny))) := by
  unfold evaluateDocument Clear Found
  cases firstMatch test (str "Deny") doc.statement with
  | none => simp
  | some deny =>
    cases deny with
    | some stmt => simp
    | none =>
      cases firstMatch test (str "Allow") doc.statement with
      | none => simp
      | some allow => cases allow <;> simp

theorem evaluateDocument_passes :
    (∃ result, evaluateDocument test doc = some result ∧ result.1 = .allow) ↔ DocumentPasses test doc := by
  rw [evaluateDocument_returns (· = .allow), DocumentPasses]
  simp

theorem evaluateSCP_allows {scp : Option PolicyDocument} :
    Allows (evaluateSCP test scp) ↔ ∀ doc ∈ scp, DocumentPasses test doc := by
  unfold evaluateSCP
  cases scp with
  | none => simp
  | some doc =>
    simp only [Option.mem_some_iff, forall_eq', ← evaluateDocument_passes]
    cases evaluateDocument test doc with
    | none => simp
    | some outcome =>
      obtain ⟨decision, -⟩ := outcome
      cases decision <;> simp

/-- What is allowed stays so if the boundary passes it, and is denied if the
boundary is evaluated to something else. -/
theorem withinBoundary_returns (allowed : EvalResult) :
    (∃ result, withinBoundary test s user allowed = some result ∧ P result.decision) ↔
      ((∀ doc ∈ boundary s user, DocumentPasses test doc) ∧ P allowed.decision) ∨
        ((∃ doc ∈ boundary s user, ∃ result, evaluateDocument test doc = some result ∧ result.1 ≠ .allow) ∧
          P .deny) := by
  unfold withinBoundary
  cases user with
  | none => simp [boundary]
  | some user =>
    simp only [boundary, Option.bind_some]
    split
    · simp
    · cases s.policies.get user.permissionBoundary with
      | none => simp
      | some doc =>
        simp only [Option.mem_some_iff, forall_eq', exists_eq_left', evaluateBoundary, ← evaluateDocument_passes]
        cases evaluateDocument test doc with
        | none => simp
        | some outcome =>
          obtain ⟨decision, -⟩ := outcome
          cases decision <;> simp

/-- Phases 1 to 5 find no Deny, and an Allow of the user's own policies within
the boundary, or none there and one in the policy of the bucket. -/
def Permits (test : Test) (s : IAMStore) (ctx : EvalContext) (user : Option IAMUser) : Prop :=
  Clear test (str "Deny") (ownStatements s user ++ bucketStatements s ctx) ∧
    ((Found test (str "Allow") (ownStatements s user) ∧ ∀ doc ∈ boundary s user, DocumentPasses test doc) ∨
      (Clear test (str "Allow") (ownStatements s user) ∧ Found test (str "Allow") (bucketStatements s ctx)))

theorem evaluatePolicies_returns (P : Decision → Prop) :
    (∃ result, evaluatePolicies test s ctx user = some result ∧ P result.decision) ↔
      (Found test (str "Deny") (ownStatements s user ++ bucketStatements s ctx) ∧ P .deny) ∨
        (Clear test (str "Deny") (ownStatements s user ++ bucketStatements s ctx) ∧
          ((Found test (str "Allow") (ownStatements s user) ∧
              (((∀ doc ∈ boundary s user, DocumentPasses test doc) ∧ P .allow) ∨
                ((∃ doc ∈ boundary s user, ∃ result, evaluateDocument test doc = some result ∧ result.1 ≠ .allow) ∧
                  P .deny))) ∨
            (Clear test (str "Allow") (ownStatements s user) ∧
              ((Found test (str "Allow") (bucketStatements s ctx) ∧ P .allow) ∨
                (Clear test (str "Allow") (bucketStatements s ctx) ∧ P .implicitDeny))))) := by
  have own := firstAllow_outcome test ((user.map (identityPolicies s)).getD [])
  change _ ∨ (_ ∧ Clear test (str "Allow") (ownStatements s user)) ∨
    (_ ∧ Found test (str "Allow") (ownStatements s user)) at own
  unfold evaluatePolicies
  simp only [listed_statements]
  by_cases undenied : Clear test (str "Deny") (ownStatements s user ++ bucketStatements s ctx)
  · simp only [undenied, not_found_of_clear undenied, false_and, false_or, true_and]
    rw [undenied]
    rcases own with ⟨endless, searching⟩ | ⟨missed, clear⟩ | ⟨⟨⟨_, stmt⟩, hit⟩, found⟩
    · change firstMatch test (str "Allow") (ownStatements s user) = none at searching
      simp [endless, Clear, Found, searching]
    · simp only [missed, clear, not_found_of_clear clear, true_and, false_and, false_or]
      unfold Clear Found bucketStatements
      cases firstMatch test (str "Allow") ((resourcePolicies s ctx).flatMap (·.statement)) with
      | none => simp
      | some grant => cases grant <;> simp
    · have unclear : ¬ Clear test (str "Allow") (ownStatements s user) :=
        fun clear => not_found_of_clear clear found
      simp only [hit, found, unclear, true_and, false_and, or_false]
      exact withinBoundary_returns P _
  · simp only [undenied, false_and, or_false]
    unfold Found
    cases searched : firstMatch test (str "Deny") (ownStatements s user ++ bucketStatements s ctx) with
    | none => simp
    | some deny =>
      cases deny with
      | some stmt => simp
      | none => exact absurd searched undenied

theorem evaluatePolicies_allows : Allows (evaluatePolicies test s ctx user) ↔ Permits test s ctx user := by
  rw [Allows, evaluatePolicies_returns (· = .allow), Permits]
  simp

theorem evaluateBy_allows : Allows (evaluateBy test s ctx) ↔
    (∀ doc ∈ s.scp, DocumentPasses test doc) ∧ Permits test s ctx (s.users.get ctx.principal) := by
  rw [evaluateBy, ← evaluateSCP_allows, ← evaluatePolicies_allows]
  cases evaluateSCP test s.scp with
  | none => simp
  | some gate => by_cases passes : gate.decision = .allow <;> simp [passes]

theorem evaluateSession_allows {identity resource : List PolicyDocument} :
    Allows (evaluateSession test identity resource) ↔
      Clear test (str "Deny") ((identity ++ resource).flatMap (·.statement)) ∧
        (Found test (str "Allow") (identity.flatMap (·.statement)) ∨
          (Clear test (str "Allow") (identity.flatMap (·.statement)) ∧
            Found test (str "Allow") (resource.flatMap (·.statement)))) := by
  unfold evaluateSession Clear Found
  cases firstMatch test (str "Deny") ((identity ++ resource).flatMap (·.statement)) with
  | none => simp
  | some deny =>
    cases deny with
    | some stmt => simp
    | none =>
      cases firstMatch test (str "Allow") (identity.flatMap (·.statement)) with
      | none => simp
      | some own =>
        cases own with
        | some stmt => simp
        | none =>
          cases firstMatch test (str "Allow") (resource.flatMap (·.statement)) with
          | none => simp
          | some grant => cases grant <;> simp

end Evaluations

end CipherLake.PolicyDecisions
