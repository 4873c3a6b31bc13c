import CipherLake.Iam

/-! Matching the statements `PolicyEvaluator.Evaluate` decides by. Matching a
statement ends when no value it refers to brings a closing brace with it, and
what it says does not depend on how long it is given. -/
namespace CipherLake.IamProofs
open Lib Iam List Option

variable {L : Library} {ctx : EvalContext} {fuel : Nat} {op : Bytes} {b : Bool} {stmt : Statement}

/-! ### Variable references -/

theorem resolve_succ {value out : Bytes} (resolved : resolveVariableSubstitution L ctx fuel value = some out) :
    resolveVariableSubstitution L ctx (fuel + 1) value = some out := by
  induction fuel generalizing value with
  | zero => cases resolved
  | succ fuel ih =>
    rw [resolveVariableSubstitution] at resolved ⊢
    cases opened : index value (str "$\x7b") with
    | none => simpa [opened] using resolved
    | some start =>
      simp only [opened] at resolved ⊢
      cases closed : index (value.drop start) (str "\x7d") with
      | none => simpa [closed] using resolved
      | some offset =>
        simp only [closed] at resolved ⊢
        exact ih resolved

/-- No reference is replaced by text with a closing brace. -/
def BraceFree (L : Library) (ctx : EvalContext) : Prop := ∀ key, 125 ∉ resolveConditionKey L key ctx

/-- Every round consumes a closing brace. -/
theorem resolve_ends (plain : BraceFree L ctx) {value : Bytes} (enough : value.count 125 < fuel) :
    ∃ out, resolveVariableSubstitution L ctx fuel value = some out := by
  induction fuel generalizing value with
  | zero => exact absurd enough (Nat.not_lt_zero _)
  | succ fuel ih =>
    rw [resolveVariableSubstitution]
    cases opened : index value (str "$\x7b") with
    | none => exact ⟨value, rfl⟩
    | some start =>
      cases closed : index (value.drop start) (str "\x7d") with
      | none => exact ⟨value, by simp [closed]⟩
      | some offset =>
        simp only [closed]
        apply ih
        obtain ⟨within, after, split, rfl⟩ := index_some closed
        obtain ⟨before, _, whole, rfl⟩ := index_some opened
        have tail : value.drop (before.length + within.length + 1) = after := by
          rw [Nat.add_assoc, ← drop_drop, split]
          simp [str]
        have counted : value.count 125 = before.count 125 + (within.count 125 + (1 + after.count 125)) := by
          rw [← take_append_drop before.length value, count_append, split]
          simp [whole, str]
          omega
        have absent := count_eq_zero.mpr (plain ((value.drop (before.length + 2)).take (within.length - 2)))
        have front : value.take before.length = before := by simp [whole]
        rw [count_append, count_append, absent, tail, front]
        omega

/-! ### Statements -/

/-- The closing braces of an operand, which bound the rounds it takes. -/
def braces : Operand → Nat
  | .text value => value.count 125
  | .many items => (items.map fun item => (item.getD []).count 125).sum
  | _ => 0

/-- The rounds are enough for every operand of a statement. -/
def Enough (fuel : Nat) (stmt : Statement) : Prop :=
  ∀ block ∈ stmt.condition, ∀ c ∈ block.2, braces c.2 < fuel

theorem anyMatches_succ {actual : Bytes} {items : List (Option Bytes)}
    (decided : anyMatches L fuel ctx op actual items = some b) :
    anyMatches L (fuel + 1) ctx op actual items = some b := by
  induction items with
  | nil => exact decided
  | cons item items ih =>
    cases item with
    | none => exact ih decided
    | some item =>
      rw [anyMatches] at decided ⊢
      cases resolved : resolveVariableSubstitution L ctx fuel item with
      | none => simp [resolved] at decided
      | some out =>
        simp only [resolved, resolve_succ resolved] at decided ⊢
        split at decided
        · next found => rw [if_pos found, decided]
        · next missed =>
          rw [if_neg missed]
          exact ih decided

theorem anyMatches_ends (plain : BraceFree L ctx) {actual : Bytes} {items : List (Option Bytes)}
    (enough : braces (.many items) < fuel) : ∃ b, anyMatches L fuel ctx op actual items = some b := by
  induction items with
  | nil => exact ⟨false, rfl⟩
  | cons item items ih =>
    simp only [braces, map_cons, sum_cons] at enough ih
    have rest := ih (by omega)
    cases item with
    | none => exact rest
    | some item =>
      have itemEnough : item.count 125 < fuel := by
        simp only [getD_some] at enough
        omega
      obtain ⟨_, resolved⟩ := resolve_ends plain itemEnough
      rw [anyMatches, resolved]
      simp only
      split
      · exact ⟨true, rfl⟩
      · exact rest

theorem conditionMatches_succ {key : Bytes} {expected : Operand}
    (decided : conditionMatches L fuel op key expected ctx = some b) :
    conditionMatches L (fuel + 1) op key expected ctx = some b := by
  unfold conditionMatches at decided ⊢
  simp only at decided ⊢
  split at decided
  · next isNull => rw [if_pos isNull, decided]
  rename_i ordinary
  rw [if_neg ordinary]
  cases expected with
  | text value =>
    obtain ⟨_, resolved, compared⟩ := map_eq_some_iff.mp decided
    simp [resolve_succ resolved, compared]
  | many items => exact anyMatches_succ decided
  | flag value => exact decided
  | other printed => exact decided

theorem conditionMatches_ends (plain : BraceFree L ctx) {key : Bytes} {expected : Operand}
    (enough : braces expected < fuel) : ∃ b, conditionMatches L fuel op key expected ctx = some b := by
  unfold conditionMatches
  simp only
  split
  · exact ⟨_, rfl⟩
  · cases expected with
    | text value =>
      obtain ⟨_, resolved⟩ := resolve_ends plain enough
      simp only [resolved, map_some]
      exact ⟨_, rfl⟩
    | many items => exact anyMatches_ends plain enough
    | flag value => exact ⟨_, rfl⟩
    | other printed => exact ⟨_, rfl⟩

theorem allMatch_mono {α : Type} {test later : α → Option Bool} {items : List α}
    (kept : ∀ x ∈ items, ∀ b, test x = some b → later x = some b) (decided : allMatch test items = some b) :
    allMatch later items = some b := by
  induction items with
  | nil => exact decided
  | cons x items ih =>
    rw [forall_mem_cons] at kept
    rw [allMatch] at decided ⊢
    cases first : test x with
    | none => simp [first] at decided
    | some found =>
      simp only [first, kept.1 found first] at decided ⊢
      cases found with
      | false => exact decided
      | true => exact ih kept.2 decided

theorem allMatch_ends {α : Type} {test : α → Option Bool} {items : List α}
    (each : ∀ x ∈ items, ∃ b, test x = some b) : ∃ b, allMatch test items = some b := by
  induction items with
  | nil => exact ⟨true, rfl⟩
  | cons x items ih =>
    rw [forall_mem_cons] at each
    obtain ⟨found, first⟩ := each.1
    rw [allMatch, first]
    cases found with
    | false => exact ⟨false, rfl⟩
    | true => exact ih each.2

theorem statementMatches_succ (decided : statementMatches L fuel stmt ctx = some b) :
    statementMatches L (fuel + 1) stmt ctx = some b := by
  unfold statementMatches at decided ⊢
  split at decided
  · next inScope =>
    rw [if_pos inScope]
    exact allMatch_mono (fun block _ b => allMatch_mono fun c _ b => conditionMatches_succ) decided
  · next outside => rw [if_neg outside, decided]

theorem statementMatches_mono {more : Nat} (longer : fuel ≤ more)
    (decided : statementMatches L fuel stmt ctx = some b) : statementMatches L more stmt ctx = some b := by
  induction longer with
  | refl => exact decided
  | step _ ih => exact statementMatches_succ ih

theorem statementMatches_ends (plain : BraceFree L ctx) (enough : Enough fuel stmt) :
    ∃ b, statementMatches L fuel stmt ctx = some b := by
  unfold statementMatches
  split
  · apply allMatch_ends
    intro block listed
    apply allMatch_ends
    intro c inBlock
    exact conditionMatches_ends plain (enough block listed c inBlock)
  · exact ⟨false, rfl⟩

/-- A statement matches a request. -/
def Matches (L : Library) (ctx : EvalContext) (stmt : Statement) : Prop :=
  ∃ fuel, statementMatches L fuel stmt ctx = some true

/-! ### Decisions -/

section Decisions

variable {M : Statement → Prop} {doc : PolicyDocument} {s : IAMStore} {user : Option IAMUser}

/-- A statement of the given effect matches. -/
def AnyMatch (M : Statement → Prop) (effect : Bytes) (stmts : List Statement) : Prop :=
  ∃ stmt ∈ stmts, stmt.effect = effect ∧ M stmt

/-- A document on its own allows: no Deny of it matches, and an Allow does. -/
def DocumentAllows (M : Statement → Prop) (doc : PolicyDocument) : Prop :=
  ¬ AnyMatch M (str "Deny") doc.statement ∧ AnyMatch M (str "Allow") doc.statement

def ScpAllows (M : Statement → Prop) (s : IAMStore) : Prop := ∀ doc ∈ s.scp, DocumentAllows M doc

/-- The boundary of a user, which restricts only if its policy is stored. -/
def boundary (s : IAMStore) (user : Option IAMUser) : Option PolicyDocument :=
  user.bind fun user => if user.permissionBoundary = [] then none else s.policies.get user.permissionBoundary

def BoundaryAllows (M : Statement → Prop) (s : IAMStore) (user : Option IAMUser) : Prop :=
  ∀ doc ∈ boundary s user, DocumentAllows M doc

/-- The statements of a user's inline, attached and group policies. -/
def ownStatements (s : IAMStore) (user : Option IAMUser) : List Statement :=
  ((user.map (identityPolicies s)).getD []).flatMap (·.2.statement)

/-- The statements of the policy of the bucket a request is about. -/
def bucketStatements (s : IAMStore) (ctx : EvalContext) : List Statement :=
  (resourcePolicies s ctx).flatMap (·.statement)

/-- Every statement stored. -/
def storedStatements (s : IAMStore) : List Statement :=
  s.users.entries.flatMap (fun e => e.2.inlinePolicies.flatMap (·.statement)) ++
    s.policies.entries.flatMap (·.2.statement) ++ s.bucketPolicies.entries.flatMap (·.2.statement) ++
      s.scp.toList.flatMap (·.statement)

/-- The stored policies grant a request to the holder of a user's policies. -/
structure Granted (M : Statement → Prop) (s : IAMStore) (ctx : EvalContext) (user : Option IAMUser) : Prop where
  scp : ScpAllows M s
  undenied : ¬ AnyMatch M (str "Deny") (ownStatements s user ++ bucketStatements s ctx)
  allowed : (AnyMatch M (str "Allow") (ownStatements s user) ∧ BoundaryAllows M s user) ∨
    (¬ AnyMatch M (str "Allow") (ownStatements s user) ∧ AnyMatch M (str "Allow") (bucketStatements s ctx))

/-- The statements searched for a Deny. -/
theorem listed_statements (s : IAMStore) (ctx : EvalContext) (user : Option IAMUser) :
    ((((user.map (identityPolicies s)).getD []).map (·.2)) ++ resourcePolicies s ctx).flatMap (·.statement) =
      ownStatements s user ++ bucketStatements s ctx := by
  simp [ownStatements, bucketStatements, flatMap_map]

theorem policies_stored {name : Bytes} (found : s.policies.get name = some doc) :
    ∀ stmt ∈ doc.statement, stmt ∈ storedStatements s := by
  intro stmt listed
  have entry := Table.mem_of_get found
  simp only [storedStatements, mem_append, mem_flatMap]
  exact .inl (.inl (.inr ⟨_, entry, listed⟩))

private theorem managed_stored {names : List Bytes} {policy : Bytes × PolicyDocument}
    (held : policy ∈ managedPolicies s names) : ∀ stmt ∈ policy.2.statement, stmt ∈ storedStatements s := by
  obtain ⟨_, -, found⟩ := mem_filterMap.mp held
  obtain ⟨_, stored, rfl⟩ := map_eq_some_iff.mp found
  exact policies_stored stored

theorem ownStatements_stored (key : Bytes) : ∀ stmt ∈ ownStatements s (s.users.get key), stmt ∈ storedStatements s := by
  intro stmt listed
  cases found : s.users.get key with
  | none => simp [ownStatements, found] at listed
  | some user =>
    simp only [ownStatements, found, map_some, getD_some] at listed
    obtain ⟨_, held, inPolicy⟩ := mem_flatMap.mp listed
    simp only [identityPolicies, mem_append] at held
    rcases held with (inline | attached) | grouped
    · obtain ⟨doc, inUser, rfl⟩ := mem_map.mp inline
      simp only [storedStatements, mem_append, mem_flatMap]
      exact .inl (.inl (.inl ⟨_, Table.mem_of_get found, doc, inUser, inPolicy⟩))
    · exact managed_stored attached stmt inPolicy
    · obtain ⟨_, -, inGroup⟩ := mem_flatMap.mp grouped
      split at inGroup
      · cases inGroup
      · exact managed_stored inGroup stmt inPolicy

theorem bucketStatements_stored : ∀ stmt ∈ bucketStatements s ctx, stmt ∈ storedStatements s := by
  intro stmt listed
  obtain ⟨_, held, inDoc⟩ := mem_flatMap.mp listed
  unfold resourcePolicies at held
  simp only at held
  split at held
  · cases held
  · simp only [storedStatements, mem_append, mem_flatMap]
    exact .inl (.inr ⟨_, Table.mem_of_get (mem_toList.mp held), inDoc⟩)

theorem scp_stored (stored : s.scp = some doc) : ∀ stmt ∈ doc.statement, stmt ∈ storedStatements s := by
  intro stmt listed
  simp only [storedStatements, mem_append, mem_flatMap]
  exact .inr ⟨doc, mem_toList.mpr stored, listed⟩

theorem boundary_stored (held : doc ∈ boundary s user) : ∀ stmt ∈ doc.statement, stmt ∈ storedStatements s := by
  obtain ⟨user, -, bounded⟩ := bind_eq_some_iff.mp held
  split at bounded
  · cases bounded
  · exact policies_stored bounded

end Decisions

end CipherLake.IamProofs
