import CipherLake.GroupMembership

/-! References to policies. The names of managed policies stand in the records of
users, groups and roles; a policy is attached only if it is stored and deleted
only if no record names it. Records are kept as JSON, so a name that is not
valid UTF-8 is not the name that is written down. -/
namespace CipherLake.PolicyReferences
open Lib Iam IamService IamInvariants GroupMembership List Table Program

/-! ### References -/

/-- A policy that is stored, under a name that JSON leaves as it is. -/
def Stored (policies : Table Bytes PolicyDocument) (ref : Bytes) : Prop :=
  jsonString ref = ref ∧ policies.get ref ≠ none

/-- Every reference of every record is to one of the given policies. -/
structure Within (policies : Table Bytes PolicyDocument) (r : Records) : Prop where
  users : ∀ u user, r.users.get u = some user → ∀ ref ∈ userRefs user, Stored policies ref
  groups : ∀ g group, r.groups.get g = some group → ∀ ref ∈ group.attachedPolicies, Stored policies ref
  roles : ∀ n role, r.roles.get n = some role → ∀ ref ∈ role.permissionPolicies, Stored policies ref

def Referenced (r : Records) : Prop := Within r.policies r

/-! ### Operations of the store -/

variable {refs : List Bytes} {name : Bytes}

section Operations

variable {policies : Table Bytes PolicyDocument} {r : Records}

theorem map_stored (stored : ∀ ref ∈ refs, Stored policies ref) : refs.map jsonString = refs := by
  conv_rhs => rw [← map_id refs]
  exact map_congr_left fun ref listed => (stored ref listed).1

/-- JSON leaves references to stored policies as they are. -/
theorem userRefs_decoded {user : IAMUser} (stored : ∀ ref ∈ userRefs user, Stored policies ref) :
    ∀ ref ∈ userRefs (decodedUser user), Stored policies ref := by
  obtain ⟨attached, boundary⟩ := forall_mem_append.mp stored
  refine forall_mem_append.mpr ⟨?_, ?_⟩
  · change ∀ ref ∈ user.attachedPolicies.map jsonString, Stored policies ref
    rw [map_stored attached]
    exact attached
  · change ∀ ref ∈ (if jsonString user.permissionBoundary = [] then [] else [jsonString user.permissionBoundary]),
      Stored policies ref
    by_cases unbounded : user.permissionBoundary = []
    · rw [unbounded, if_pos (by decide)]
      exact fun ref listed => absurd listed not_mem_nil
    · rw [if_neg unbounded] at boundary
      have bound := boundary _ mem_cons_self
      rw [bound.1, if_neg unbounded]
      exact boundary

/-- The records have just the given policies, and name no others. -/
def Holds (policies : Table Bytes PolicyDocument) (r : Records) : Prop := r.policies = policies ∧ Within policies r

/-- Records are written with references to the given policies only, and these
are left alone. -/
def asked (policies : Table Bytes PolicyDocument) : Op → Prop
  | .putUser user => ∀ ref ∈ userRefs user, Stored policies ref
  | .putGroup group => ∀ ref ∈ group.attachedPolicies, Stored policies ref
  | .putRole role => ∀ ref ∈ role.permissionPolicies, Stored policies ref
  | .putPolicy _ _ => False
  | .deletePolicy _ => False
  | _ => True

theorem written_holds {key : Bytes} {after : Records} (holds : Holds policies r) (holdsAfter : Holds policies after) :
    Holds policies (written key r after).2 := by
  unfold written
  split
  · exact holds
  · exact holdsAfter

theorem exec_holds (op : Op) (meets : asked policies op) (holds : Holds policies r) : Holds policies (exec op r).2 := by
  obtain ⟨same, within⟩ := holds
  have holds : Holds policies r := ⟨same, within⟩
  cases op with
  | getUser | getGroup | getRole | getPolicy | listUsers | listGroups | listRoles => exact holds
  | deleteUser name => exact ⟨same, forall_get_delete within.users, within.groups, within.roles⟩
  | deleteGroup name => exact ⟨same, within.users, forall_get_delete within.groups, within.roles⟩
  | deleteRole name => exact ⟨same, within.users, within.groups, forall_get_delete within.roles⟩
  | deleteBucketPolicy name => exact ⟨same, within.users, within.groups, within.roles⟩
  | deletePolicy | putPolicy => exact meets.elim
  | putUser user =>
    refine written_holds holds ⟨same, ?_, within.groups, within.roles⟩
    exact forall_get_put within.users (userRefs_decoded meets)
  | putGroup group =>
    refine written_holds holds ⟨same, within.users, ?_, within.roles⟩
    refine forall_get_put within.groups ?_
    change ∀ ref ∈ group.attachedPolicies.map jsonString, Stored policies ref
    rw [map_stored meets]
    exact meets
  | putRole role =>
    refine written_holds holds ⟨same, within.users, within.groups, ?_⟩
    refine forall_get_put within.roles ?_
    change ∀ ref ∈ role.permissionPolicies.map jsonString, Stored policies ref
    rw [map_stored meets]
    exact meets
  | putBucketPolicy | putTempCredential =>
    exact written_holds holds ⟨same, within.users, within.groups, within.roles⟩

theorem putUser_holds {user : IAMUser} (holds : Holds policies r) (stored : ∀ ref ∈ userRefs user, Stored policies ref) :
    Holds policies ((putUser user).run exec r).2 := exec_holds (.putUser user) stored holds

theorem putGroup_holds {group : IAMGroup} (holds : Holds policies r)
    (stored : ∀ ref ∈ group.attachedPolicies, Stored policies ref) :
    Holds policies ((putGroup group).run exec r).2 := exec_holds (.putGroup group) stored holds

/-- What holds after a call with the policies as they are. -/
theorem referenced_of {after : Records} (holds : Holds policies after) : Referenced after := by
  obtain ⟨same, _⟩ := holds
  unfold Referenced
  rwa [same]

end Operations

/-! ### The calls that leave the policies alone

They write only references that they have read. -/

section Calls

variable {policies : Table Bytes PolicyDocument} (userName groupName : Bytes)

theorem createUser_holds (name id : Bytes) : Keeps (Holds policies) (createUser name id) := by
  intro r holds
  refine holds_lookup (run_getUser name) (fun _ => ?_) fun _ _ => holds
  refine holds_bind (putUser_holds holds fun ref listed => absurd listed not_mem_nil) fun saved => ?_
  cases saved <;> exact keeps_pure _

theorem createGroup_holds (name : Bytes) : Keeps (Holds policies) (createGroup name) := by
  intro r holds
  refine holds_lookup (run_getGroup name) (fun _ => ?_) fun _ _ => holds
  exact putGroup_holds holds fun ref listed => absurd listed not_mem_nil

theorem deleteGroup_holds (name : Bytes) : Keeps (Holds policies) (deleteGroup name) := by
  have leaves : ∀ userName, Keeps (Holds policies) (leaveGroup name userName) := by
    intro userName r holds
    refine holds_lookup (run_getUser userName) (fun _ => holds) fun user found => ?_
    exact holds_bind (putUser_holds holds (holds.2.users userName user found)) fun _ => keeps_pure _
  intro r holds
  refine holds_lookup (run_getGroup name) (fun _ => holds) fun group _ => ?_
  refine holds_bind (keeps_forEach leaves r holds) fun _ r holds => ?_
  exact exec_holds (.deleteGroup name) trivial holds

theorem addUserToGroup_holds : Keeps (Holds policies) (addUserToGroup userName groupName) := by
  intro r holds
  refine holds_lookup (run_getUser userName) (fun _ => holds) fun user found => ?_
  refine holds_lookup (run_getGroup groupName) (fun _ => holds) fun group held => ?_
  have stored := holds.2.groups groupName group held
  have joins : Keeps (Holds policies) (joinGroup userName group) := by
    intro r holds
    unfold joinGroup
    split
    · exact holds
    · exact putGroup_holds holds stored
  simp only
  split
  · exact joins r holds
  · refine holds_bind (putUser_holds holds (holds.2.users userName user found)) fun saved => ?_
    cases saved with
    | error e => exact keeps_pure _
    | ok _ => exact joins

theorem removeUserFromGroup_holds : Keeps (Holds policies) (removeUserFromGroup userName groupName) := by
  intro r holds
  refine holds_lookup (run_getUser userName) (fun _ => holds) fun user found => ?_
  refine holds_lookup (run_getGroup groupName) (fun _ => holds) fun group held => ?_
  have stored := holds.2.groups groupName group held
  refine holds_bind (putUser_holds holds (holds.2.users userName user found)) fun saved => ?_
  cases saved with
  | error e => exact keeps_pure _
  | ok _ => exact fun r holds => putGroup_holds holds stored

theorem deleteUser_holds (name : Bytes) : Keeps (Holds policies) (deleteUser name) := by
  intro r holds
  refine holds_lookup (run_getUser name) (fun _ => holds) fun user _ => ?_
  refine holds_bind (keeps_forEach (fun groupName => ?_) r holds) fun _ r holds => ?_
  · exact keeps_bind (removeUserFromGroup_holds name groupName) fun _ => keeps_pure _
  · exact exec_holds (.deleteUser name) trivial holds

end Calls

/-! ### The calls that change the policies -/

section Policies

variable {r : Records}

/-- A change of the policies that keeps those mentioned. -/
theorem Referenced.changed (sound : Referenced r) {policies : Table Bytes PolicyDocument}
    (kept : ∀ ref, r.policies.get ref ≠ none → Mentioned r ref → policies.get ref ≠ none) :
    Referenced { r with policies := policies } := by
  refine ⟨fun u user found ref listed => ?_, fun g group found ref listed => ?_, fun n role found ref listed => ?_⟩
  · obtain ⟨text, stored⟩ := sound.users u user found ref listed
    exact ⟨text, kept ref stored (.inl ⟨u, user, found, listed⟩)⟩
  · obtain ⟨text, stored⟩ := sound.groups g group found ref listed
    exact ⟨text, kept ref stored (.inr (.inl ⟨g, group, found, listed⟩))⟩
  · obtain ⟨text, stored⟩ := sound.roles n role found ref listed
    exact ⟨text, kept ref stored (.inr (.inr ⟨n, role, found, listed⟩))⟩

theorem createPolicy_referenced (name : Bytes) (document : PolicyDocument) (sound : Referenced r) :
    Referenced ((createPolicy name document).run exec r).2 := by
  unfold createPolicy
  rw [run_bind, run_getPolicy]
  cases r.policies.get name with
  | some stored => exact sound
  | none =>
    simp only [lookedUp, run_perform, exec, written]
    split
    · exact sound
    · refine sound.changed fun ref found _ => ?_
      by_cases same : name = ref
      · rw [same, get_put_same]
        exact Option.some_ne_none _
      · rwa [get_put_ne _ _ same]

/-- A record has the policy's name or its ARN in its list of policies, or as its
permission boundary. -/
def InUse (r : Records) (name : Bytes) : Prop :=
  ∃ ref, (ref = name ∨ ref = makePolicyARN name) ∧
    ((∃ u user, r.users.get u = some user ∧ (ref ∈ user.attachedPolicies ∨ ref = user.permissionBoundary)) ∨
      (∃ g group, r.groups.get g = some group ∧ ref ∈ group.attachedPolicies) ∨
      ∃ n role, r.roles.get n = some role ∧ ref ∈ role.permissionPolicies)

theorem hasPolicyRef_iff :
    hasPolicyRef name refs = true ↔ ∃ ref, (ref = name ∨ ref = makePolicyARN name) ∧ ref ∈ refs := by
  simp [hasPolicyRef, any_eq_true, and_comm]

/-- A search through a table finds nothing exactly if no record has the policy
in the list that is tested. -/
theorem search_none {β : Type} {t : Table Bytes β} {hit : β → Option Bytes} {refs : β → List Bytes}
    (tests : ∀ v, hit v = none ↔ ¬ hasPolicyRef name (refs v) = true) :
    (t.entries.map (·.2)).findSome? hit = none ↔
      ∀ ref, ref = name ∨ ref = makePolicyARN name → ∀ k v, t.get k = some v → ref ∉ refs v := by
  rw [List.findSome?_eq_none_iff]
  constructor
  · intro none ref named k v found listed
    have missed := (tests v).mp (none v (mem_map.mpr ⟨(k, v), mem_of_get found, rfl⟩))
    exact missed (hasPolicyRef_iff.mpr ⟨ref, named, listed⟩)
  · intro unused v listed
    obtain ⟨e, member, rfl⟩ := mem_map.mp listed
    rw [tests, hasPolicyRef_iff]
    rintro ⟨ref, named, mentioned⟩
    exact unused ref named e.1 e.2 (get_of_mem member) mentioned

theorem userOf_none : userOf name (r.users.entries.map (·.2)) = none ↔
    ∀ ref, ref = name ∨ ref = makePolicyARN name → ∀ u user, r.users.get u = some user →
      ref ∉ user.attachedPolicies ++ [user.permissionBoundary] := by
  refine search_none fun user => ?_
  have both : hasPolicyRef name (user.attachedPolicies ++ [user.permissionBoundary]) =
      (hasPolicyRef name user.attachedPolicies || hasPolicyRef name [user.permissionBoundary]) := any_append
  rw [both, Bool.or_eq_true, not_or]
  split
  · next attached => simp [attached]
  · next detached =>
    split
    · next bound => simp [bound]
    · next unbounded => simp [detached, unbounded]

theorem groupOf_none : groupOf name (r.groups.entries.map (·.2)) = none ↔
    ∀ ref, ref = name ∨ ref = makePolicyARN name → ∀ g group, r.groups.get g = some group →
      ref ∉ group.attachedPolicies :=
  search_none fun group => by simp

theorem roleOf_none : roleOf name (r.roles.entries.map (·.2)) = none ↔
    ∀ ref, ref = name ∨ ref = makePolicyARN name → ∀ n role, r.roles.get n = some role →
      ref ∉ role.permissionPolicies :=
  search_none fun role => by simp

/-- The policy is not in use exactly if none of the three searches finds it. -/
theorem not_inUse_iff : ¬ InUse r name ↔ userOf name (r.users.entries.map (·.2)) = none ∧
    groupOf name (r.groups.entries.map (·.2)) = none ∧ roleOf name (r.roles.entries.map (·.2)) = none := by
  rw [userOf_none, groupOf_none, roleOf_none]
  constructor
  · intro unused
    refine ⟨fun ref named u user found listed => ?_, fun ref named g group found listed => ?_,
      fun ref named n role found listed => ?_⟩
    · exact unused ⟨ref, named, .inl ⟨u, user, found, by simpa using listed⟩⟩
    · exact unused ⟨ref, named, .inr (.inl ⟨g, group, found, listed⟩)⟩
    · exact unused ⟨ref, named, .inr (.inr ⟨n, role, found, listed⟩)⟩
  · rintro ⟨users, groups, roles⟩
      ⟨ref, named, ⟨u, user, found, listed⟩ | ⟨g, group, found, listed⟩ | ⟨n, role, found, listed⟩⟩
    · exact users ref named u user found (by simpa using listed)
    · exact groups ref named g group found listed
    · exact roles ref named n role found listed

/-- A policy in use is not deleted, and one that is not in use is. -/
theorem deletePolicy_cases (name : Bytes) (r : Records) :
    (InUse r name ∧ ∃ e, (deletePolicy name).run exec r = (.error e, r)) ∨
      (¬ InUse r name ∧ (deletePolicy name).run exec r = (.ok (), { r with policies := r.policies.delete name })) := by
  have used : ¬ InUse r name ↔ _ := not_inUse_iff
  unfold deletePolicy ensurePolicyNotAttached
  simp only [run_bind, run_perform, exec]
  cases users : userOf name (r.users.entries.map (·.2)) with
  | some e => exact .inl ⟨by simpa [users] using used, e, rfl⟩
  | none =>
    simp only [run_bind, run_perform, exec]
    cases groups : groupOf name (r.groups.entries.map (·.2)) with
    | some e => exact .inl ⟨by simpa [users, groups] using used, e, rfl⟩
    | none =>
      simp only [run_bind, run_perform, exec]
      cases roles : roleOf name (r.roles.entries.map (·.2)) with
      | some e => exact .inl ⟨by simpa [users, groups, roles] using used, e, rfl⟩
      | none => exact .inr ⟨used.mpr ⟨users, groups, roles⟩, rfl⟩

theorem deletePolicy_referenced (name : Bytes) (sound : Referenced r) :
    Referenced ((deletePolicy name).run exec r).2 := by
  rcases deletePolicy_cases name r with ⟨-, _, refused⟩ | ⟨unused, deleted⟩
  · rw [refused]
    exact sound
  rw [deleted]
  refine sound.changed fun ref stored mentioned => ?_
  by_cases same : name = ref
  · subst same
    refine absurd ⟨name, .inl rfl, ?_⟩ unused
    rcases mentioned with ⟨u, user, found, listed⟩ | ⟨g, group, found, listed⟩ | ⟨n, role, found, listed⟩
    · refine .inl ⟨u, user, found, ?_⟩
      rcases mem_append.mp listed with attached | bound
      · exact .inl attached
      · split at bound
        · cases bound
        · exact .inr (mem_singleton.mp bound)
    · exact .inr (.inl ⟨g, group, found, listed⟩)
    · exact .inr (.inr ⟨n, role, found, listed⟩)
  · rwa [get_delete_ne _ same]

end Policies

/-! ### Runs -/

/-- Policies are attached, or made a boundary, under names that are valid UTF-8. -/
def WellReferenced : Operation → Prop
  | .attachUserPolicy _ policyName => jsonString policyName = policyName
  | .attachGroupPolicy _ policyName => jsonString policyName = policyName
  | .attachRolePolicy _ policyName => jsonString policyName = policyName
  | .setPermissionBoundary _ policyName => jsonString policyName = policyName
  | _ => True

/-- References that are known are to stored policies. -/
theorem Referenced.stored {r : Records} (sound : Referenced r) {ref : Bytes}
    (known : Known (fun name => jsonString name = name) r ref) : Stored r.policies ref := by
  rcases known with (⟨u, user, found, listed⟩ | ⟨g, group, found, listed⟩ | ⟨n, role, found, listed⟩) | fits
  · exact sound.users u user found ref listed
  · exact sound.groups g group found ref listed
  · exact sound.roles n role found ref listed
  · exact fits

theorem invariant : Invariant (fun name => jsonString name = name) WellReferenced Referenced where
  user sound _ _ _ known := referenced_of (putUser_holds ⟨rfl, sound⟩ fun ref listed => sound.stored (known ref listed))
  group sound _ _ _ known := referenced_of (putGroup_holds ⟨rfl, sound⟩ fun ref listed => sound.stored (known ref listed))
  role sound known := referenced_of (exec_holds (.putRole _) (fun ref listed => sound.stored (known ref listed)) ⟨rfl, sound⟩)
  beside op beside r sound := by
    refine referenced_of (exec_holds op ?_ ⟨rfl, sound⟩)
    cases op <;> trivial
  major op isMajor _ := by
    intro r sound
    cases op with
    | createUser name id => exact referenced_of (createUser_holds name id r ⟨rfl, sound⟩)
    | deleteUser name => exact referenced_of (deleteUser_holds name r ⟨rfl, sound⟩)
    | createGroup name => exact referenced_of (createGroup_holds name r ⟨rfl, sound⟩)
    | deleteGroup name => exact referenced_of (deleteGroup_holds name r ⟨rfl, sound⟩)
    | addUserToGroup userName groupName => exact referenced_of (addUserToGroup_holds userName groupName r ⟨rfl, sound⟩)
    | removeUserFromGroup userName groupName => exact referenced_of (removeUserFromGroup_holds userName groupName r ⟨rfl, sound⟩)
    | createPolicy name document => exact createPolicy_referenced name document sound
    | deletePolicy name => exact deletePolicy_referenced name sound
    | _ => exact isMajor.elim
  attaches op well := by cases op <;> trivial
  admin _ := trivial
  policy := trivial
  fits := by decide

theorem empty_referenced : Referenced Records.empty := by
  refine ⟨fun u user found => ?_, fun g group found => ?_, fun n role found => ?_⟩ <;> cases found

/-- Every policy that a record names is stored, and a policy is refused to be
deleted exactly if a record names it or its ARN. -/
structure Linked (r : Records) : Prop where
  users : ∀ u user, r.users.get u = some user → ∀ p ∈ user.attachedPolicies, (r.policies.get p).isSome
  boundaries : ∀ u user, r.users.get u = some user → user.permissionBoundary ≠ [] →
    (r.policies.get user.permissionBoundary).isSome
  groups : ∀ g group, r.groups.get g = some group → ∀ p ∈ group.attachedPolicies, (r.policies.get p).isSome
  roles : ∀ n role, r.roles.get n = some role → ∀ p ∈ role.permissionPolicies, (r.policies.get p).isSome
  deletion : ∀ p, (∃ e, ((deletePolicy p).run exec r).1 = .error e) ↔ InUse r p

/-- In every run in which policies are attached under valid UTF-8 names, no
reference dangles at any point. -/
theorem references_linked {r : Records} (reachable : Reachable WellReferenced r) : Linked r := by
  have sound := reachable_holds invariant empty_referenced reachable
  have present : ∀ {ref}, Stored r.policies ref → (r.policies.get ref).isSome :=
    fun stored => Option.isSome_iff_ne_none.mpr stored.2
  refine ⟨fun u user found p listed => ?_, fun u user found bounded => ?_, fun g group found p listed => ?_,
    fun n role found p listed => ?_, fun p => ?_⟩
  · exact present (sound.users u user found p (mem_append_left _ listed))
  · refine present (sound.users u user found _ (mem_append_right _ ?_))
    rw [if_neg bounded]
    exact mem_cons_self
  · exact present (sound.groups g group found p listed)
  · exact present (sound.roles n role found p listed)
  · rcases deletePolicy_cases p r with ⟨used, e, refused⟩ | ⟨unused, deleted⟩
    · rw [refused]
      exact iff_of_true ⟨e, rfl⟩ used
    · rw [deleted]
      refine iff_of_false ?_ unused
      rintro ⟨e, failed⟩
      cases failed

namespace Sample

/-- A policy is created and attached to a user. -/
def attaches (name : Bytes) : List Operation :=
  [.createUser (str "alice") (str "u_1"), .createPolicy name adminPolicy, .attachUserPolicy (str "alice") name]

end Sample

open Sample

open GroupMembership.Sample (after reachable_after) in
/-- A policy whose name is the byte FF is attached: the user's record names
another policy, which is not stored. -/
theorem reference_dangles : Reachable (fun _ => True) (after (attaches [0xFF])) ∧
      ((after (attaches [0xFF])).users.get (str "alice")).map (·.attachedPolicies) = some [[0xEF, 0xBF, 0xBD]] ∧
      (after (attaches [0xFF])).policies.get [0xEF, 0xBF, 0xBD] = none ∧
      ¬ Linked (after (attaches [0xFF])) := by
  refine ⟨reachable_after _ fun _ _ => trivial, ?_⟩
  refine (fun named missing => ⟨named, missing, fun linked => ?_⟩) (by decide +kernel) (by decide +kernel)
  obtain ⟨user, found, refs⟩ := Option.map_eq_some_iff.mp named
  have stored := linked.users (str "alice") user found [0xEF, 0xBF, 0xBD] (refs ▸ mem_cons_self)
  cases stored

open GroupMembership.Sample (after reachable_after) in
/-- A policy with a plain name is found again. -/
theorem reference_found : Linked (after (attaches (str "read"))) := by
  refine references_linked (reachable_after _ ?_)
  intro op listed
  simp only [attaches, mem_cons, not_mem_nil, or_false] at listed
  rcases listed with rfl | rfl | rfl
  · trivial
  · trivial
  · change jsonString (str "read") = str "read"
    decide

end CipherLake.PolicyReferences
