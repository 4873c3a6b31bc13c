import CipherLake.IamInvariants
import CipherLake.Lib.Links

/-! Who belongs to which group is stored twice, with the user and with the
group. Each call of the service leaves the two copies in agreement, provided
that the names under which users and groups are created are valid UTF-8: a
record with another name is read back with a name that is not its own. -/
namespace CipherLake.GroupMembership
open Lib Iam IamService IamInvariants List Table Function Option

/-! ### The two copies -/

def groupsOf (r : Records) (u : Bytes) : Option (List Bytes) := (r.users.get u).map (·.groups)
def membersOf (r : Records) (g : Bytes) : Option (List Bytes) := (r.groups.get g).map (·.users)

/-- A key that bolt takes and that JSON leaves as it is. -/
structure Plain (name : Bytes) : Prop where
  text : jsonString name = name
  key : keyFault name = none

/-- Every user and group is stored under its own name. -/
structure Named (r : Records) : Prop where
  users : ∀ u user, r.users.get u = some user → user.name = u ∧ Plain u
  groups : ∀ g group, r.groups.get g = some group → group.name = g ∧ Plain g

structure Sound (r : Records) : Prop where
  named : Named r
  linked : Linked (groupsOf r) (membersOf r)

variable (name userName groupName : Bytes)

section Views

variable {r : Records}

theorem groupsOf_eq {u : Bytes} {user : IAMUser} (found : r.users.get u = some user) :
    groupsOf r u = some user.groups := by
  rw [groupsOf, found, map_some]

theorem membersOf_eq {g : Bytes} {group : IAMGroup} (found : r.groups.get g = some group) :
    membersOf r g = some group.users := by
  rw [membersOf, found, map_some]

theorem Sound.congr {r' : Records} (sound : Sound r) (users : r'.users = r.users) (groups : r'.groups = r.groups) :
    Sound r' := by
  obtain ⟨named, linked⟩ := sound
  have sameGroups : groupsOf r' = groupsOf r := by
    unfold groupsOf
    rw [users]
  have sameMembers : membersOf r' = membersOf r := by
    unfold membersOf
    rw [groups]
  refine ⟨⟨?_, ?_⟩, ?_⟩
  · rw [users]
    exact named.users
  · rw [groups]
    exact named.groups
  · rw [sameGroups, sameMembers]
    exact linked

/-- The records after a user is written. -/
def saveUser (r : Records) (user : IAMUser) : Records :=
  { r with users := r.users.put user.name (decodedUser user) }

def saveGroup (r : Records) (group : IAMGroup) : Records :=
  { r with groups := r.groups.put group.name (decodedGroup group) }

theorem run_putUser {user : IAMUser} (plain : Plain user.name) :
    (putUser user).run exec r = (.ok (), saveUser r user) := by
  change written user.name r (saveUser r user) = _
  rw [written, plain.key]

variable {group : IAMGroup}

theorem run_putGroup (plain : Plain group.name) : (putGroup group).run exec r = (.ok (), saveGroup r group) := by
  change written group.name r (saveGroup r group) = _
  rw [written, plain.key]

theorem map_jsonString {names : List Bytes} (plain : ∀ x ∈ names, Plain x) : names.map jsonString = names := by
  induction names with
  | nil => rfl
  | cons x names ih =>
    obtain ⟨here, others⟩ := forall_mem_cons.mp plain
    rw [map_cons, here.text, ih others]

variable {user : IAMUser}

/-- A view of a table after one of its keys has changed. -/
theorem view_set {β : Type} (f : β → List Bytes) (t : Table Bytes β) (key : Bytes) (value : Option β) :
    (fun k => ((t.set key value).get k).map f) = Function.update (fun k => (t.get k).map f) key (value.map f) := by
  funext k
  by_cases same : key = k
  · simp [get_set, same]
  · simp [get_set, same, Ne.symm same]

theorem groupsOf_saveUser (plain : ∀ g ∈ user.groups, Plain g) :
    groupsOf (saveUser r user) = Function.update (groupsOf r) user.name (some user.groups) := by
  have same : (decodedUser user).groups = user.groups := map_jsonString plain
  rw [← same]
  exact view_set IAMUser.groups r.users user.name (some (decodedUser user))

theorem membersOf_saveGroup (plain : ∀ u ∈ group.users, Plain u) :
    membersOf (saveGroup r group) = Function.update (membersOf r) group.name (some group.users) := by
  have same : (decodedGroup group).users = group.users := map_jsonString plain
  rw [← same]
  exact view_set IAMGroup.users r.groups group.name (some (decodedGroup group))

theorem Named.afterUser (named : Named r) (plain : Plain user.name) : Named (saveUser r user) := by
  exact ⟨forall_get_put named.users ⟨plain.text, plain⟩, named.groups⟩

theorem Named.afterGroup (named : Named r) (plain : Plain group.name) : Named (saveGroup r group) := by
  exact ⟨named.users, forall_get_put named.groups ⟨plain.text, plain⟩⟩

/-- The groups a stored user is listed with are stored. -/
theorem Sound.groups_plain (sound : Sound r) {u : Bytes} (found : r.users.get u = some user) :
    ∀ g ∈ user.groups, Plain g := by
  intro g listed
  obtain ⟨_, stored, -⟩ := (sound.linked.agree u g).mp ⟨user.groups, groupsOf_eq found, listed⟩
  obtain ⟨group, held, -⟩ := map_eq_some_iff.mp stored
  exact (sound.named.groups g group held).2

theorem Sound.members_plain (sound : Sound r) {g : Bytes} (found : r.groups.get g = some group) :
    ∀ u ∈ group.users, Plain u := by
  intro u listed
  obtain ⟨_, stored, -⟩ := (sound.linked.agree u g).mpr ⟨group.users, membersOf_eq found, listed⟩
  obtain ⟨user, held, -⟩ := map_eq_some_iff.mp stored
  exact (sound.named.users u user held).2

/-- A user written back with the same groups. -/
theorem Sound.putUser_same (sound : Sound r) {u : Bytes} {user user' : IAMUser} (found : r.users.get u = some user)
    (name : user'.name = user.name) (groups : user'.groups = user.groups) : Sound ((putUser user').run exec r).2 := by
  obtain ⟨own, plain⟩ := sound.named.users u user found
  have key : user'.name = u := name.trans own
  rw [run_putUser (key ▸ plain)]
  refine ⟨sound.named.afterUser (key ▸ plain), ?_⟩
  have view : groupsOf r u = some user'.groups := groups ▸ groupsOf_eq found
  rw [groupsOf_saveUser (groups ▸ sound.groups_plain found), key, ← view, update_eq_self]
  exact sound.linked

/-- A group written back with the same members. -/
theorem Sound.putGroup_same (sound : Sound r) {g : Bytes} {group group' : IAMGroup}
    (found : r.groups.get g = some group) (name : group'.name = group.name) (users : group'.users = group.users) :
    Sound ((putGroup group').run exec r).2 := by
  obtain ⟨own, plain⟩ := sound.named.groups g group found
  have key : group'.name = g := name.trans own
  rw [run_putGroup (key ▸ plain)]
  refine ⟨sound.named.afterGroup (key ▸ plain), ?_⟩
  have view : membersOf r g = some group'.users := users ▸ membersOf_eq found
  rw [membersOf_saveGroup (users ▸ sound.members_plain found), key, ← view, update_eq_self]
  exact sound.linked

end Views

/-! ### The calls -/

/-- The operations of the store on anything but users and groups, and the
reads of those. -/
def Elsewhere : Op → Prop
  | .putUser _ => False
  | .deleteUser _ => False
  | .putGroup _ => False
  | .deleteGroup _ => False
  | _ => True

theorem written_sound {key : Bytes} {r after : Records} (sound : Sound r) (users : after.users = r.users)
    (groups : after.groups = r.groups) : Sound (written key r after).2 := by
  unfold written
  split
  · exact sound
  · exact sound.congr users groups

theorem exec_elsewhere (op : Op) (elsewhere : Elsewhere op) (r : Records) (sound : Sound r) : Sound (exec op r).2 := by
  cases op with
  | putUser | deleteUser | putGroup | deleteGroup => exact elsewhere.elim
  | getUser | getGroup | getPolicy | getRole | listUsers | listGroups | listRoles => exact sound
  | deletePolicy | deleteRole | deleteBucketPolicy => exact sound.congr rfl rfl
  | putPolicy | putRole | putBucketPolicy | putTempCredential => exact written_sound sound rfl rfl

theorem Only.keeps {call : Service α} (only : Program.Only Elsewhere call) : Keeps Sound call :=
  only.preserves exec_elsewhere

section Calls

theorem createUser_keeps {name : Bytes} (id : Bytes) (text : jsonString name = name) : Keeps Sound (createUser name id) := by
  intro r sound
  unfold createUser
  rw [Program.run_bind, run_getUser]
  cases absent : r.users.get name with
  | some user => exact sound
  | none =>
    simp only [lookedUp, Program.run_bind]
    cases fault : keyFault name with
    | some e =>
      have refused : (putUser ⟨id, name, [], [], [], [], []⟩).run exec r = (.error e, r) := by
        change written name r _ = _
        rw [written, fault]
      rw [refused]
      exact sound
    | none =>
      rw [run_putUser ⟨text, fault⟩]
      refine ⟨sound.named.afterUser ⟨text, fault⟩, ?_⟩
      rw [Program.run_pure, groupsOf_saveUser (by simp)]
      exact sound.linked.create (by simp [groupsOf, absent])

theorem createGroup_keeps {name : Bytes} (text : jsonString name = name) : Keeps Sound (createGroup name) := by
  intro r sound
  unfold createGroup
  rw [Program.run_bind, run_getGroup]
  cases absent : r.groups.get name with
  | some group => exact sound
  | none =>
    simp only [lookedUp]
    cases fault : keyFault name with
    | some e =>
      have refused : (putGroup ⟨name, [], []⟩).run exec r = (.error e, r) := by
        change written name r _ = _
        rw [written, fault]
      rw [refused]
      exact sound
    | none =>
      rw [run_putGroup ⟨text, fault⟩]
      refine ⟨sound.named.afterGroup ⟨text, fault⟩, ?_⟩
      rw [membersOf_saveGroup (by simp)]
      exact (sound.linked.swap.create (by simp [membersOf, absent])).swap

theorem createPolicy_keeps (document : PolicyDocument) : Keeps Sound (createPolicy name document) := by
  refine keeps_bind (Only.keeps (Program.only_perform trivial)) fun found => ?_
  cases found with
  | ok _ => exact keeps_pure _
  | error _ => exact Only.keeps (Program.only_perform trivial)

end Calls

/-! ### Joining and leaving -/

section Members

variable {r : Records} {u g : Bytes} {user : IAMUser} {group : IAMGroup}

/-- A stored user and a stored group list each other or neither does. -/
theorem Sound.mem_iff (sound : Sound r) (found : r.users.get u = some user) (held : r.groups.get g = some group) :
    g ∈ user.groups ↔ u ∈ group.users := by
  have agree := sound.linked.agree u g
  simpa [LinkedTo, groupsOf, membersOf, found, held] using agree

/-- Both records are written with new lists. -/
theorem saveBoth_spec (named : Named r) (found : r.users.get u = some user) (held : r.groups.get g = some group)
    (groups users : List Bytes) (plainGroups : ∀ g ∈ groups, Plain g) (plainUsers : ∀ u ∈ users, Plain u) :
    Named (saveGroup (saveUser r { user with groups := groups }) { group with users := users }) ∧
      groupsOf (saveGroup (saveUser r { user with groups := groups }) { group with users := users }) =
        Function.update (groupsOf r) u (some groups) ∧
      membersOf (saveGroup (saveUser r { user with groups := groups }) { group with users := users }) =
        Function.update (membersOf r) g (some users) := by
  obtain ⟨ownUser, plainUser⟩ := named.users u user found
  obtain ⟨ownGroup, plainGroup⟩ := named.groups g group held
  refine ⟨(named.afterUser (ownUser ▸ plainUser)).afterGroup (ownGroup ▸ plainGroup), ?_, ?_⟩
  · rw [← ownUser]
    exact groupsOf_saveUser plainGroups
  · rw [← ownGroup]
    exact membersOf_saveGroup plainUsers

theorem addUserToGroup_keeps : Keeps Sound (addUserToGroup userName groupName) := by
  intro r sound
  refine holds_lookup (run_getUser _) (fun _ => sound) fun user found => ?_
  simp only [Program.run_bind, run_getGroup]
  cases held : r.groups.get groupName with
  | none => exact sound
  | some group =>
    obtain ⟨ownUser, plainUser⟩ := sound.named.users userName user found
    obtain ⟨ownGroup, plainGroup⟩ := sound.named.groups groupName group held
    simp only [lookedUp]
    by_cases member : groupName ∈ user.groups
    · have listed := (sound.mem_iff found held).mp member
      rw [if_pos member, joinGroup, if_pos listed]
      exact sound
    have unlisted : userName ∉ group.users := fun listed => member ((sound.mem_iff found held).mpr listed)
    rw [if_neg member, Program.run_bind, run_putUser (by rwa [ownUser])]
    simp only [joinGroup, if_neg unlisted]
    rw [run_putGroup (by rwa [ownGroup])]
    obtain ⟨named, groups, members⟩ := saveBoth_spec sound.named found held (user.groups ++ [groupName])
      (group.users ++ [userName])
      (forall_mem_append.mpr ⟨sound.groups_plain found, by simpa using plainGroup⟩)
      (forall_mem_append.mpr ⟨sound.members_plain held, by simpa using plainUser⟩)
    refine ⟨named, ?_⟩
    rw [groups, members]
    exact sound.linked.join (groupsOf_eq found) (membersOf_eq held) member

/-- Leaving a group takes it off the user's list, and the user off the group's. -/
theorem removeUserFromGroup_spec (sound : Sound r) (found : r.users.get u = some user)
    (held : r.groups.get g = some group) :
    Sound ((removeUserFromGroup u g).run exec r).2 ∧
      groupsOf ((removeUserFromGroup u g).run exec r).2 u = some (user.groups.erase g) := by
  obtain ⟨ownUser, plainUser⟩ := sound.named.users u user found
  obtain ⟨ownGroup, plainGroup⟩ := sound.named.groups g group held
  have after : ((removeUserFromGroup u g).run exec r).2 =
      saveGroup (saveUser r { user with groups := user.groups.erase g }) { group with users := group.users.erase u } := by
    unfold removeUserFromGroup
    simp only [Program.run_bind, run_getUser, found, lookedUp, run_getGroup, held]
    rw [run_putUser (by rwa [ownUser])]
    rw [run_putGroup (by rwa [ownGroup])]
  obtain ⟨named, groups, members⟩ := saveBoth_spec sound.named found held (user.groups.erase g) (group.users.erase u)
    (fun x listed => sound.groups_plain found x (mem_of_mem_erase listed))
    (fun x listed => sound.members_plain held x (mem_of_mem_erase listed))
  rw [after]
  refine ⟨⟨named, ?_⟩, ?_⟩
  · rw [groups, members]
    exact sound.linked.leave (groupsOf_eq found) (membersOf_eq held)
  · rw [groups, update_self]

theorem removeUserFromGroup_keeps : Keeps Sound (removeUserFromGroup userName groupName) := by
  intro r sound
  cases found : r.users.get userName with
  | none =>
    simp only [removeUserFromGroup, Program.run_bind, run_getUser, found, lookedUp]
    exact sound
  | some user =>
    cases held : r.groups.get groupName with
    | none =>
      simp only [removeUserFromGroup, Program.run_bind, run_getUser, found, lookedUp, run_getGroup, held]
      exact sound
    | some group => exact (removeUserFromGroup_spec sound found held).1

/-- A user leaves all groups, one after the other. -/
theorem leaveAll_spec (groups : List Bytes) {r : Records} (sound : Sound r) (listed : groupsOf r u = some groups) :
    Sound ((Program.forEach groups fun groupName => do
        let _ ← removeUserFromGroup u groupName
        return ()).run exec r).2 ∧
      groupsOf ((Program.forEach groups fun groupName => do
        let _ ← removeUserFromGroup u groupName
        return ()).run exec r).2 u = some [] := by
  induction groups generalizing r with
  | nil => exact ⟨sound, listed⟩
  | cons g rest ih =>
    obtain ⟨_, found, same⟩ := map_eq_some_iff.mp listed
    obtain ⟨_, stored, -⟩ := (sound.linked.agree u g).mp ⟨_, listed, mem_cons_self⟩
    obtain ⟨_, held, -⟩ := map_eq_some_iff.mp stored
    obtain ⟨kept, left⟩ := removeUserFromGroup_spec sound found held
    rw [same, erase_cons_head] at left
    rw [Program.run_forEach_cons, Program.run_bind, Program.run_pure]
    exact ih kept left

theorem Sound.deleteUser (sound : Sound r) (alone : groupsOf r u = some []) :
    Sound { r with users := r.users.delete u } := by
  have groups : groupsOf { r with users := r.users.delete u } = Function.update (groupsOf r) u none :=
    view_set IAMUser.groups r.users u none
  refine ⟨⟨forall_get_delete sound.named.users, sound.named.groups⟩, ?_⟩
  rw [groups]
  exact sound.linked.remove alone

theorem deleteUser_keeps : Keeps Sound (deleteUser name) := by
  intro r sound
  refine holds_lookup (run_getUser _) (fun _ => sound) fun user found => ?_
  obtain ⟨kept, alone⟩ := leaveAll_spec user.groups sound (groupsOf_eq found)
  simp only [Program.run_bind]
  exact kept.deleteUser alone

/-- The group is taken off the records of those still to be told. Its own
record lists all of them until it is deleted. -/
theorem leaveGroup_spec (remaining : List Bytes) {r : Records} (named : Named r) (held : r.groups.get g = some group)
    (linked : Linked (groupsOf r) (Function.update (membersOf r) g (some remaining))) :
    Named ((Program.forEach remaining (leaveGroup g)).run exec r).2 ∧
      ((Program.forEach remaining (leaveGroup g)).run exec r).2.groups = r.groups ∧
      Linked (groupsOf ((Program.forEach remaining (leaveGroup g)).run exec r).2)
        (Function.update (membersOf r) g (some [])) := by
  induction remaining generalizing r with
  | nil => exact ⟨named, rfl, linked⟩
  | cons u rest ih =>
    have member : LinkedTo (Function.update (membersOf r) g (some (u :: rest))) g u :=
      ⟨u :: rest, update_self g _ _, mem_cons_self⟩
    obtain ⟨groups, listed, -⟩ := (linked.agree u g).mpr member
    obtain ⟨user, found, rfl⟩ := map_eq_some_iff.mp listed
    obtain ⟨own, plain⟩ := named.users u user found
    have plainGroups : ∀ x ∈ user.groups.erase g, Plain x := by
      intro x left
      obtain ⟨members, stored, -⟩ := (linked.agree u x).mp ⟨_, groupsOf_eq found, mem_of_mem_erase left⟩
      by_cases same : x = g
      · subst same
        exact (named.groups x group held).2
      · rw [update_of_ne same] at stored
        obtain ⟨other, kept, -⟩ := map_eq_some_iff.mp stored
        exact (named.groups x other kept).2
    have after : ((leaveGroup g u).run exec r).2 = saveUser r { user with groups := user.groups.erase g } := by
      unfold leaveGroup
      simp only [Program.run_bind, run_getUser, found, lookedUp]
      rw [run_putUser (by rwa [own])]
      rfl
    have view : groupsOf (saveUser r { user with groups := user.groups.erase g }) =
        Function.update (groupsOf r) u (some (user.groups.erase g)) := by
      rw [← own]
      exact groupsOf_saveUser plainGroups
    have left := linked.leave (groupsOf_eq found) (update_self g (some (u :: rest)) (membersOf r))
    rw [update_idem, erase_cons_head, ← view] at left
    rw [Program.run_forEach_cons, after]
    exact ih (named.afterUser (by rwa [own])) held left

theorem deleteGroup_keeps : Keeps Sound (deleteGroup name) := by
  intro r sound
  refine holds_lookup (run_getGroup _) (fun _ => sound) fun group held => ?_
  have all : Linked (groupsOf r) (Function.update (membersOf r) name (some group.users)) := by
    rw [← membersOf_eq held, update_eq_self]
    exact sound.linked
  obtain ⟨named, groups, alone⟩ := leaveGroup_spec group.users sound.named held all
  simp only [Program.run_bind]
  generalize ((Program.forEach group.users (leaveGroup name)).run exec r).2 = after at named groups alone
  have gone := alone.swap.remove (update_self name (some []) (membersOf r))
  rw [update_idem] at gone
  have members : membersOf { after with groups := after.groups.delete name } =
      Function.update (membersOf r) name none := by
    have same : membersOf after = membersOf r := funext fun g => by rw [membersOf, groups, membersOf]
    rw [← same]
    exact view_set IAMGroup.users after.groups name none
  have kept : Sound { after with groups := after.groups.delete name } := by
    refine ⟨⟨named.users, forall_get_delete named.groups⟩, ?_⟩
    rw [members]
    exact gone.swap
  exact kept

end Members

/-! ### Runs -/

theorem deletePolicy_keeps : Keeps Sound (deletePolicy name) := by
  apply Only.keeps
  refine Program.only_bind ?_ fun attached => ?_
  · refine Program.only_bind (Program.only_perform trivial) fun users => ?_
    split
    · trivial
    refine Program.only_bind (Program.only_perform trivial) fun groups => ?_
    split
    · trivial
    · refine Program.only_bind (Program.only_perform trivial) fun roles => ?_
      split <;> trivial
  · cases attached with
    | error e => trivial
    | ok _ => exact Program.only_bind (Program.only_perform trivial) fun _ => trivial

/-- Users and groups are created under names that are valid UTF-8. -/
def WellNamed : Operation → Prop
  | .createUser name _ => jsonString name = name
  | .createGroup name => jsonString name = name
  | _ => True

theorem invariant : Invariant (fun _ => True) WellNamed Sound where
  user sound found sameName sameGroups _ := sound.putUser_same found sameName sameGroups
  group sound found sameName sameUsers _ := sound.putGroup_same found sameName sameUsers
  role sound _ := exec_elsewhere (.putRole _) trivial _ sound
  beside op beside r sound := by
    refine exec_elsewhere op ?_ r sound
    cases op <;> trivial
  major op isMajor wellNamed := by
    cases op with
    | createUser name id => exact createUser_keeps id wellNamed
    | deleteUser name => exact deleteUser_keeps name
    | createGroup name => exact createGroup_keeps wellNamed
    | deleteGroup name => exact deleteGroup_keeps name
    | addUserToGroup userName groupName => exact addUserToGroup_keeps userName groupName
    | removeUserFromGroup userName groupName => exact removeUserFromGroup_keeps userName groupName
    | createPolicy name document => exact createPolicy_keeps name document
    | deletePolicy name => exact deletePolicy_keeps name
    | _ => exact isMajor.elim
  attaches op _ := by cases op <;> trivial
  admin _ := by
    change jsonString (str "admin") = str "admin"
    decide
  policy := trivial
  fits := trivial

/-- `AssumeRole` leaves the records as they are, or stores a credential. -/
theorem assumeRole_state {L : Library} {fuel : Nat} {drawn : Drawn} {now durationSeconds : Int} {r after : Records}
    {roleARN callerARN : Bytes} {out : Except Bytes TemporaryCredential}
    (returned : assumeRole L fuel drawn now r roleARN durationSeconds callerARN = some (out, after)) :
    after = r ∨ ∃ cred, after = ((storeCredential cred).run exec r).2 := by
  unfold assumeRole at returned
  simp only at returned
  split at returned
  · cases returned
    exact .inl rfl
  split at returned
  · cases returned
    exact .inl rfl
  split at returned
  · cases returned
  · split at returned
    · cases returned
    · exact .inr ⟨_, (congrArg Prod.snd (some.inj returned)).symm⟩
    · cases returned
      exact .inl rfl

/-- The records after calls of the service, one after the other, from an empty
store on, with calls of one kind only. -/
inductive Reachable (kind : Operation → Prop) : Records → Prop where
  | empty : Reachable kind Records.empty
  | operation {r : Records} (op : Operation) : kind op → Reachable kind r →
      Reachable kind ((perform op).run exec r).2
  | assumeRole {L : Library} {fuel : Nat} {drawn : Drawn} {now durationSeconds : Int} {r after : Records}
      {roleARN callerARN : Bytes} {out : Except Bytes TemporaryCredential} : Reachable kind r →
      assumeRole L fuel drawn now r roleARN durationSeconds callerARN = some (out, after) → Reachable kind after

/-- What holds of an empty store and survives every call holds in every run. -/
theorem reachable_holds {fit : Bytes → Prop} {kind : Operation → Prop} {I : Records → Prop}
    (inv : Invariant fit kind I) (empty : I Records.empty) {r : Records} (reachable : Reachable kind r) : I r := by
  induction reachable with
  | empty => exact empty
  | operation op ofKind _ ih => exact inv.perform op ofKind _ ih
  | assumeRole _ returned ih =>
    rcases assumeRole_state returned with rfl | ⟨cred, rfl⟩
    · exact ih
    · exact inv.storeCredential cred _ ih

theorem empty_sound : Sound Records.empty := by
  refine ⟨⟨fun u user found => ?_, fun g group found => ?_⟩, ⟨fun u g => ?_, ?_, ?_⟩⟩
  · simp [Records.empty] at found
  · simp [Records.empty] at found
  · simp [LinkedTo, groupsOf, membersOf, Records.empty]
  · simp [groupsOf, Records.empty]
  · simp [membersOf, Records.empty]

/-- Group membership is symmetric, without repetition, and names nobody who is
not stored. -/
structure Consistent (r : Records) : Prop where
  symmetric : ∀ u user g group, r.users.get u = some user → r.groups.get g = some group →
    (g ∈ user.groups ↔ u ∈ group.users)
  groups_once : ∀ u user, r.users.get u = some user → user.groups.Nodup
  users_once : ∀ g group, r.groups.get g = some group → group.users.Nodup
  groups_stored : ∀ u user, r.users.get u = some user → ∀ g ∈ user.groups, (r.groups.get g).isSome
  users_stored : ∀ g group, r.groups.get g = some group → ∀ u ∈ group.users, (r.users.get u).isSome

/-- In every run whose users and groups are created under valid UTF-8 names,
membership is consistent at every point. -/
theorem membership_consistent {r : Records} (reachable : Reachable WellNamed r) : Consistent r := by
  have sound := reachable_holds invariant empty_sound reachable
  refine ⟨fun u user g group found held => sound.mem_iff found held, ?_, ?_, ?_, ?_⟩
  · intro u user found
    exact sound.linked.left_nodup u _ (groupsOf_eq found)
  · intro g group held
    exact sound.linked.right_nodup g _ (membersOf_eq held)
  · intro u user found g listed
    obtain ⟨_, stored, -⟩ := (sound.linked.agree u g).mp ⟨_, groupsOf_eq found, listed⟩
    obtain ⟨group, held, -⟩ := map_eq_some_iff.mp stored
    exact isSome_iff_exists.mpr ⟨group, held⟩
  · intro g group held u listed
    obtain ⟨_, stored, -⟩ := (sound.linked.agree u g).mpr ⟨_, membersOf_eq held, listed⟩
    obtain ⟨user, found, -⟩ := map_eq_some_iff.mp stored
    exact isSome_iff_exists.mpr ⟨user, found⟩

namespace Sample

/-- The records after a list of calls. -/
def after (ops : List Operation) : Records := ops.foldl (fun r op => ((perform op).run exec r).2) Records.empty

theorem reachable_after {kind : Operation → Prop} (ops : List Operation) (all : ∀ op ∈ ops, kind op) :
    Reachable kind (after ops) := by
  have general : ∀ r, Reachable kind r → Reachable kind (ops.foldl (fun r op => ((perform op).run exec r).2) r) := by
    induction ops with
    | nil => exact fun r reached => reached
    | cons op ops ih =>
      obtain ⟨here, others⟩ := forall_mem_cons.mp all
      exact fun r reached => ih others _ (.operation op here reached)
  exact general _ .empty

/-- A user is created and joins a group twice. -/
def joins (name : Bytes) : List Operation :=
  [.createUser name (str "u_1"), .createGroup (str "ops"), .addUserToGroup name (str "ops"),
    .addUserToGroup name (str "ops")]

end Sample

open Sample

/-- A user whose name is the byte FF joins a group twice, and is listed twice
under the name that JSON makes of it. -/
theorem member_listed_twice : Reachable (fun _ => True) (after (joins [0xFF])) ∧
      ((after (joins [0xFF])).groups.get (str "ops")).map (·.users) = some [[0xEF, 0xBF, 0xBD], [0xEF, 0xBF, 0xBD]] ∧
      ¬ Consistent (after (joins [0xFF])) := by
  refine ⟨reachable_after _ fun _ _ => trivial, (fun listed => ⟨listed, fun consistent => ?_⟩) (by decide +kernel)⟩
  obtain ⟨group, held, users⟩ := map_eq_some_iff.mp listed
  have once := consistent.users_once (str "ops") group held
  rw [users] at once
  revert once
  decide

/-- A user with a plain name joins twice and is listed once. -/
theorem member_listed_once : Consistent (after (joins (str "alice"))) := by
  refine membership_consistent (reachable_after _ ?_)
  intro op listed
  simp only [joins, mem_cons, not_mem_nil, or_false] at listed
  rcases listed with rfl | rfl | rfl | rfl
  · change jsonString (str "alice") = str "alice"
    decide
  · change jsonString (str "ops") = str "ops"
    decide
  · trivial
  · trivial

end CipherLake.GroupMembership
