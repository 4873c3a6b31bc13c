import CipherLake.IamService

/-! What the calls of the service keep. Most of them read a record, change it in
something that matters little and write it back; an invariant that survives such
a write, and the few calls that do more, survives every call. -/
namespace CipherLake.IamInvariants
open Lib Iam IamService List

/-- The policies a user's record names. -/
def userRefs (user : IAMUser) : List Bytes :=
  user.attachedPolicies ++ if user.permissionBoundary = [] then [] else [user.permissionBoundary]

/-- A record names the policy. -/
def Mentioned (r : Records) (ref : Bytes) : Prop :=
  (∃ u user, r.users.get u = some user ∧ ref ∈ userRefs user) ∨
    (∃ g group, r.groups.get g = some group ∧ ref ∈ group.attachedPolicies) ∨
    ∃ n role, r.roles.get n = some role ∧ ref ∈ role.permissionPolicies

/-- A policy that a record names already, or that is stored under a name that
fits. -/
def Known (fit : Bytes → Prop) (r : Records) (ref : Bytes) : Prop :=
  Mentioned r ref ∨ fit ref ∧ r.policies.get ref ≠ none

/-- A call keeps what holds of the records. -/
def Keeps (I : Records → Prop) (call : Service α) : Prop := ∀ r, I r → I (call.run exec r).2

/-- The operations of the store that write no user, group, role or policy. -/
def Beside : Op → Prop
  | .putUser _ => False
  | .deleteUser _ => False
  | .putGroup _ => False
  | .deleteGroup _ => False
  | .putPolicy _ _ => False
  | .deletePolicy _ => False
  | .putRole _ => False
  | _ => True

/-- The calls that create or delete users, groups and policies, and those that
change who belongs to a group. -/
def Major : Operation → Prop
  | .createUser _ _ => True
  | .deleteUser _ => True
  | .createGroup _ => True
  | .deleteGroup _ => True
  | .addUserToGroup _ _ => True
  | .removeUserFromGroup _ _ => True
  | .createPolicy _ _ => True
  | .deletePolicy _ => True
  | _ => False

/-- The policy the call attaches, or makes a boundary, has a name that fits. -/
def Attaches (fit : Bytes → Prop) : Operation → Prop
  | .attachUserPolicy _ policyName => fit policyName
  | .attachGroupPolicy _ policyName => fit policyName
  | .attachRolePolicy _ policyName => fit policyName
  | .setPermissionBoundary _ policyName => fit policyName
  | _ => True

/-- An invariant that survives the writes of records with references that are
known, and calls of one kind. -/
structure Invariant (fit : Bytes → Prop) (kind : Operation → Prop) (I : Records → Prop) : Prop where
  user : ∀ {r u user user'}, I r → r.users.get u = some user → user'.name = user.name → user'.groups = user.groups →
    (∀ ref ∈ userRefs user', Known fit r ref) → I ((putUser user').run exec r).2
  group : ∀ {r g group group'}, I r → r.groups.get g = some group → group'.name = group.name →
    group'.users = group.users → (∀ ref ∈ group'.attachedPolicies, Known fit r ref) →
    I ((putGroup group').run exec r).2
  role : ∀ {r role}, I r → (∀ ref ∈ role.permissionPolicies, Known fit r ref) → I ((putRole role).run exec r).2
  beside : ∀ op, Beside op → ∀ r, I r → I (exec op r).2
  major : ∀ op, Major op → kind op → Keeps I (perform op)
  attaches : ∀ op, kind op → Attaches fit op
  admin : ∀ id, kind (.createUser (str "admin") id)
  policy : kind (.createPolicy (str "AdministratorAccess") adminPolicy)
  fits : fit (str "AdministratorAccess")

variable (name : Bytes)

@[simp] theorem run_getUser (r : Records) :
    (getUser name).run exec r = (lookedUp (str "user") name (r.users.get name), r) := rfl

@[simp] theorem run_getGroup (r : Records) :
    (getGroup name).run exec r = (lookedUp (str "group") name (r.groups.get name), r) := rfl

@[simp] theorem run_getPolicy (r : Records) :
    (getPolicy name).run exec r = (lookedUp (str "policy") name (r.policies.get name), r) := rfl

@[simp] theorem run_getRole (r : Records) :
    (getRole name).run exec r = (lookedUp (str "role") name (r.roles.get name), r) := rfl

section
variable {I : Records → Prop} {fit : Bytes → Prop} {kind : Operation → Prop} {r : Records}

theorem keeps_pure (result : α) : Keeps I (pure result : Service α) := fun _ holds => holds

theorem holds_bind {call : Service α} {next : α → Service β} (first : I (call.run exec r).2)
    (later : ∀ result, Keeps I (next result)) : I ((call >>= next).run exec r).2 := by
  rw [Program.run_bind]
  exact later _ _ first

theorem keeps_bind {call : Service α} {next : α → Service β} (first : Keeps I call)
    (later : ∀ result, Keeps I (next result)) : Keeps I (call >>= next) :=
  fun r holds => holds_bind (first r holds) later

theorem keeps_forEach {items : List β} {body : β → Service Unit} (each : ∀ x, Keeps I (body x)) :
    Keeps I (Program.forEach items body) := by
  induction items with
  | nil => exact keeps_pure ()
  | cons x rest ih => exact keeps_bind (each x) fun _ => ih

/-- A record is looked up, and what is done then is judged with what was found. -/
theorem holds_lookup {T : Records → Table Bytes β} {text name : Bytes} {get : Service (Except Bytes β)}
    {next : Except Bytes β → Service α} (reads : ∀ r, get.run exec r = (lookedUp text name ((T r).get name), r))
    (missing : ∀ e, I ((next (.error e)).run exec r).2)
    (present : ∀ v, (T r).get name = some v → I ((next (.ok v)).run exec r).2) : I ((get >>= next).run exec r).2 := by
  rw [Program.run_bind, reads]
  cases found : (T r).get name with
  | none => exact missing _
  | some v => exact present v found

/-- A policy that was found is added to references that are there. -/
theorem known_cons {refs refs' : List Bytes} {name : Bytes} {document : PolicyDocument}
    (known : ∀ ref ∈ refs, Mentioned r ref) (fits : fit name) (stored : r.policies.get name = some document)
    (added : refs' ⊆ name :: refs) : ∀ ref ∈ refs', Known fit r ref := by
  intro ref listed
  rcases mem_cons.mp (added listed) with rfl | old
  · exact .inr ⟨fits, stored ▸ Option.some_ne_none document⟩
  · exact .inl (known ref old)

theorem mentioned_user {u : Bytes} {user : IAMUser} (found : r.users.get u = some user) :
    ∀ ref ∈ userRefs user, Mentioned r ref := fun _ listed => .inl ⟨u, user, found, listed⟩

theorem mentioned_group {g : Bytes} {group : IAMGroup} (found : r.groups.get g = some group) :
    ∀ ref ∈ group.attachedPolicies, Mentioned r ref := fun _ listed => .inr (.inl ⟨g, group, found, listed⟩)

theorem mentioned_role {n : Bytes} {role : IAMRole} (found : r.roles.get n = some role) :
    ∀ ref ∈ role.permissionPolicies, Mentioned r ref := fun _ listed => .inr (.inr ⟨n, role, found, listed⟩)

namespace Invariant
variable (inv : Invariant fit kind I)
include inv

theorem keeps {op : Op} (beside : Beside op) : Keeps I (Program.perform op : Service _) := inv.beside op beside

/-- A user that is read, changed in neither name, groups nor further references,
and written. -/
theorem updateUser {name : Bytes} {missing : Bytes → Bytes} {change : IAMUser → Except Bytes IAMUser}
    (minor : ∀ user user', change user = .ok user' →
      user'.name = user.name ∧ user'.groups = user.groups ∧ userRefs user' ⊆ userRefs user) :
    Keeps I (updateUser name missing change) := by
  intro r holds
  refine holds_lookup (run_getUser name) (fun _ => holds) fun user found => ?_
  simp only
  cases changed : change user with
  | error e => exact holds
  | ok user' =>
    obtain ⟨sameName, sameGroups, fewer⟩ := minor user user' changed
    exact inv.user holds found sameName sameGroups fun ref listed => .inl (mentioned_user found ref (fewer listed))

/-- Something that is no reference is changed, in users that pass a test. -/
theorem updateUserIf {name : Bytes} {missing : Bytes → Bytes} {e : Bytes} {test : IAMUser → Bool}
    {changed : IAMUser → IAMUser} (minor : ∀ user, (changed user).name = user.name ∧
      (changed user).groups = user.groups ∧ userRefs (changed user) = userRefs user) :
    Keeps I (IamService.updateUser name missing fun user =>
      if test user = true then .ok (changed user) else .error e) := by
  refine inv.updateUser fun user user' made => ?_
  obtain ⟨sameName, sameGroups, sameRefs⟩ := minor user
  split at made
  · cases made
    exact ⟨sameName, sameGroups, sameRefs ▸ List.Subset.refl _⟩
  · cases made

theorem createAccessKey (userName drawn : Bytes) (encrypted : Except Bytes Bytes) :
    Keeps I (createAccessKey userName drawn encrypted) := by
  intro r holds
  refine holds_lookup (run_getUser userName) (fun _ => holds) fun user found => ?_
  cases encrypted with
  | error e => exact holds
  | ok secretKeyEnc =>
    simp only [Program.run_bind]
    split <;> exact inv.user holds found rfl rfl fun ref listed => .inl (mentioned_user found ref listed)

variable {policyName : Bytes}

theorem attachUserPolicy (userName : Bytes) (fits : fit policyName) :
    Keeps I (attachUserPolicy userName policyName) := by
  intro r holds
  refine holds_lookup (run_getUser userName) (fun _ => holds) fun user found => ?_
  refine holds_lookup (run_getPolicy policyName) (fun _ => holds) fun document stored => ?_
  simp only
  split
  · exact holds
  · refine inv.user holds found rfl rfl (known_cons (mentioned_user found) fits stored fun ref => ?_)
    simp only [userRefs, mem_append, mem_cons, not_mem_nil]
    tauto

theorem setPermissionBoundary (userName : Bytes) (fits : fit policyName) :
    Keeps I (setPermissionBoundary userName policyName) := by
  intro r holds
  refine holds_lookup (run_getUser userName) (fun _ => holds) fun user found => ?_
  refine holds_lookup (run_getPolicy policyName) (fun _ => holds) fun document stored => ?_
  refine inv.user holds found rfl rfl (known_cons (mentioned_user found) fits stored fun ref => ?_)
  by_cases unbounded : policyName = []
  · simp only [userRefs, unbounded, if_true, mem_append, mem_cons, not_mem_nil]
    tauto
  · simp only [userRefs, if_neg unbounded, mem_append, mem_cons, not_mem_nil]
    tauto

theorem attachGroupPolicy (groupName : Bytes) (fits : fit policyName) :
    Keeps I (attachGroupPolicy groupName policyName) := by
  intro r holds
  refine holds_lookup (run_getGroup groupName) (fun _ => holds) fun group found => ?_
  refine holds_lookup (run_getPolicy policyName) (fun _ => holds) fun document stored => ?_
  simp only
  split
  · exact holds
  · exact inv.group holds found rfl rfl (known_cons (mentioned_group found) fits stored (by simp))

theorem attachRolePolicy (roleName : Bytes) (fits : fit policyName) :
    Keeps I (attachRolePolicy roleName policyName) := by
  intro r holds
  refine holds_lookup (run_getRole roleName) (fun _ => holds) fun role found => ?_
  refine holds_lookup (run_getPolicy policyName) (fun _ => holds) fun document stored => ?_
  simp only
  split
  · exact holds
  · exact inv.role holds (known_cons (mentioned_role found) fits stored (by simp))

theorem storeCredential (cred : TemporaryCredential) : Keeps I (storeCredential cred) := by
  refine keeps_bind (inv.keeps trivial) fun saved => ?_
  cases saved <;> exact keeps_pure _

theorem equipAdmin (drawn : Bytes) (encrypted : Except Bytes Bytes) : Keeps I (equipAdmin drawn encrypted) := by
  refine keeps_bind (inv.createAccessKey _ _ _) fun result => ?_
  cases result with
  | error e => exact keeps_pure _
  | ok _ =>
    refine keeps_bind (inv.major (.createPolicy _ _) trivial inv.policy) fun _ => ?_
    exact keeps_bind (inv.attachUserPolicy _ inv.fits) fun _ => keeps_pure _

theorem initializeAdmin (id drawn : Bytes) (encrypted : Except Bytes Bytes) :
    Keeps I (initializeAdmin id drawn encrypted) := by
  refine keeps_bind (inv.keeps trivial) fun found => ?_
  cases found with
  | error e =>
    refine keeps_bind (inv.major (.createUser _ _) trivial (inv.admin id)) fun created => ?_
    cases created with
    | error e => exact keeps_pure _
    | ok _ => exact inv.equipAdmin drawn encrypted
  | ok user =>
    obtain ⟨_, _, keys, _, _, _, _⟩ := user
    cases keys with
    | cons _ _ => exact keeps_pure _
    | nil => exact inv.equipAdmin drawn encrypted

omit inv in
theorem ended {call : Service (Except Bytes α)} (keeps : Keeps I call) : Keeps I (ended call) := by
  refine keeps_bind keeps fun result => ?_
  cases result <;> exact keeps_pure _

theorem perform (op : Operation) (ofKind : kind op) : Keeps I (perform op) := by
  have fits := inv.attaches op ofKind
  cases op with
  | createUser | deleteUser | createGroup | deleteGroup | addUserToGroup | removeUserFromGroup | createPolicy
  | deletePolicy => exact inv.major _ trivial ofKind
  | createAccessKey userName drawn encrypted => exact inv.createAccessKey userName drawn encrypted
  | deleteAccessKey | activateAccessKey | deactivateAccessKey | deleteUserInlinePolicy =>
    exact inv.updateUserIf fun user => ⟨rfl, rfl, rfl⟩
  | attachUserPolicy userName policyName => exact inv.attachUserPolicy userName fits
  | detachUserPolicy userName policyName =>
    unfold IamService.perform detachUserPolicy
    refine inv.updateUser fun user user' changed => ?_
    cases changed
    refine ⟨rfl, rfl, append_subset.mpr ⟨fun ref listed => ?_, subset_append_right _ _⟩⟩
    exact mem_append_left _ (erase_subset listed)
  | attachGroupPolicy groupName policyName => exact inv.attachGroupPolicy groupName fits
  | detachGroupPolicy groupName policyName =>
    intro r holds
    refine holds_lookup (run_getGroup groupName) (fun _ => holds) fun group found => ?_
    exact inv.group holds found rfl rfl fun ref listed => .inl (mentioned_group found ref (erase_subset listed))
  | putUserInlinePolicy userName policyName document =>
    unfold IamService.perform putUserInlinePolicy
    refine inv.updateUser fun user user' changed => ?_
    cases changed
    exact ⟨rfl, rfl, List.Subset.refl _⟩
  | setPermissionBoundary userName policyName => exact inv.setPermissionBoundary userName fits
  | removePermissionBoundary userName =>
    unfold IamService.perform removePermissionBoundary
    refine inv.updateUser fun user user' changed => ?_
    cases changed
    exact ⟨rfl, rfl, append_subset.mpr ⟨subset_append_left _ _, nil_subset _⟩⟩
  | createRole name trustPolicy maxSessionDuration =>
    intro r holds
    refine holds_lookup (run_getRole name) (fun _ => ?_) fun role found => holds
    exact inv.role holds fun ref listed => absurd listed not_mem_nil
  | deleteRole | deleteBucketPolicy => exact keeps_bind (inv.keeps trivial) fun _ => keeps_pure _
  | attachRolePolicy roleName policyName => exact inv.attachRolePolicy roleName fits
  | detachRolePolicy roleName policyName =>
    intro r holds
    refine holds_lookup (run_getRole roleName) (fun _ => holds) fun role found => ?_
    exact inv.role holds fun ref listed => .inl (mentioned_role found ref (erase_subset listed))
  | putBucketPolicy bucket document => exact inv.keeps trivial
  | getSessionToken | getFederationToken => exact ended (inv.storeCredential _)
  | initializeAdmin id drawn encrypted => exact inv.initializeAdmin id drawn encrypted

end Invariant
end

end CipherLake.IamInvariants
