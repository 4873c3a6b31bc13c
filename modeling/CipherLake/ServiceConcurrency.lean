import CipherLake.IamService

/-! Two calls of the IAM service at the same time. Every call reads whole
records and writes them back in later transactions, so what the other call
wrote in between is lost. Two calls whose operations on one record do not
overlap leave the store as one after the other does. -/
namespace CipherLake.ServiceConcurrency
open Lib Iam IamService

/-! ### What an operation reads and writes -/

/-- One record of the store. -/
inductive Cell where
  | user (name : Bytes)
  | group (name : Bytes)
  | policy (name : Bytes)
  | role (name : Bytes)
  | bucketPolicy (bucket : Bytes)
  | tempCredential (accessKeyID : Bytes)
  deriving DecidableEq, Repr

def reads : Op → Cell → Bool
  | .getUser name, c => c = .user name
  | .getGroup name, c => c = .group name
  | .getPolicy name, c => c = .policy name
  | .getRole name, c => c = .role name
  | .listUsers, .user _ => true
  | .listGroups, .group _ => true
  | .listRoles, .role _ => true
  | _, _ => false

/-- The new contents of a record, `none` for a record that is removed. -/
inductive Write where
  | user (name : Bytes) (value : Option IAMUser)
  | group (name : Bytes) (value : Option IAMGroup)
  | policy (name : Bytes) (value : Option PolicyDocument)
  | role (name : Bytes) (value : Option IAMRole)
  | bucketPolicy (bucket : Bytes) (value : Option PolicyDocument)
  | tempCredential (accessKeyID : Bytes) (value : Option TemporaryCredential)

def Write.cell : Write → Cell
  | .user name _ => .user name
  | .group name _ => .group name
  | .policy name _ => .policy name
  | .role name _ => .role name
  | .bucketPolicy bucket _ => .bucketPolicy bucket
  | .tempCredential accessKeyID _ => .tempCredential accessKeyID

def Write.apply : Write → Records → Records
  | .user name value, r => { r with users := r.users.set name value }
  | .group name value, r => { r with groups := r.groups.set name value }
  | .policy name value, r => { r with policies := r.policies.set name value }
  | .role name value, r => { r with roles := r.roles.set name value }
  | .bucketPolicy bucket value, r => { r with bucketPolicies := r.bucketPolicies.set bucket value }
  | .tempCredential accessKeyID value, r => { r with tempCredentials := r.tempCredentials.set accessKeyID value }

/-- A write that bolt refuses is none. -/
def accepted (key : Bytes) (write : Write) : Option Write :=
  match keyFault key with
  | some _ => none
  | none => some write

def writes : Op → Option Write
  | .putUser u => accepted u.name (.user u.name (some (decodedUser u)))
  | .putGroup g => accepted g.name (.group g.name (some (decodedGroup g)))
  | .putPolicy name d => accepted name (.policy name (some (decodedDocument d)))
  | .putRole role => accepted role.name (.role role.name (some (decodedRole role)))
  | .putBucketPolicy bucket d => accepted bucket (.bucketPolicy bucket (some (decodedDocument d)))
  | .putTempCredential cred => accepted cred.accessKeyID (.tempCredential cred.accessKeyID (some cred))
  | .deleteUser name => some (.user name none)
  | .deleteGroup name => some (.group name none)
  | .deletePolicy name => some (.policy name none)
  | .deleteRole name => some (.role name none)
  | .deleteBucketPolicy bucket => some (.bucketPolicy bucket none)
  | _ => none

/-- One operation writes a record that the other reads or writes. -/
def Conflict (a b : Op) : Prop :=
  (∃ w ∈ writes a, reads b w.cell) ∨ (∃ w ∈ writes b, reads a w.cell) ∨
    ∃ w ∈ writes a, ∃ w' ∈ writes b, w.cell = w'.cell

instance : DecidableRel Conflict := fun _ _ => inferInstanceAs (Decidable (_ ∨ _ ∨ _))

theorem written_state {key : Bytes} {r after : Records} {write : Write} (same : write.apply r = after) :
    (written key r after).2 = ((accepted key write).map fun w => w.apply r).getD r := by
  unfold written accepted
  cases keyFault key with
  | some e => rfl
  | none => exact same.symm

/-- An operation changes the record that it writes. -/
theorem exec_state (op : Op) (r : Records) : (exec op r).2 = ((writes op).map fun w => w.apply r).getD r := by
  cases op with
  | putUser u => exact written_state rfl
  | putGroup g => exact written_state rfl
  | putPolicy name d => exact written_state rfl
  | putRole role => exact written_state rfl
  | putBucketPolicy bucket d => exact written_state rfl
  | putTempCredential cred => exact written_state rfl
  | _ => rfl

/-! ### Operations that commute -/

theorem written_answer (key : Bytes) (r r' after after' : Records) :
    (written key r after).1 = (written key r' after').1 := by
  unfold written
  cases keyFault key with
  | some e => rfl
  | none => rfl

variable {w : Write} {name : Bytes}

theorem user_frame (r : Records) (apart : w.cell ≠ .user name) : (w.apply r).users.get name = r.users.get name := by
  cases w with
  | user other value =>
    have keys : other ≠ name := fun same => apart (congrArg Cell.user same)
    exact (r.users.get_set other name value).trans (if_neg keys)
  | _ => rfl

theorem group_frame (r : Records) (apart : w.cell ≠ .group name) : (w.apply r).groups.get name = r.groups.get name := by
  cases w with
  | group other value =>
    have keys : other ≠ name := fun same => apart (congrArg Cell.group same)
    exact (r.groups.get_set other name value).trans (if_neg keys)
  | _ => rfl

theorem policy_frame (r : Records) (apart : w.cell ≠ .policy name) :
    (w.apply r).policies.get name = r.policies.get name := by
  cases w with
  | policy other value =>
    have keys : other ≠ name := fun same => apart (congrArg Cell.policy same)
    exact (r.policies.get_set other name value).trans (if_neg keys)
  | _ => rfl

theorem role_frame (r : Records) (apart : w.cell ≠ .role name) : (w.apply r).roles.get name = r.roles.get name := by
  cases w with
  | role other value =>
    have keys : other ≠ name := fun same => apart (congrArg Cell.role same)
    exact (r.roles.get_set other name value).trans (if_neg keys)
  | _ => rfl

/-- A write of a record that an operation does not read leaves its answer. -/
theorem answer_frame (op : Op) (r : Records) (apart : ¬ reads op w.cell) : (exec op (w.apply r)).1 = (exec op r).1 := by
  cases op with
  | getUser name => exact congrArg (lookedUp (str "user") name) (user_frame r fun here => apart (decide_eq_true here))
  | getGroup name =>
    exact congrArg (lookedUp (str "group") name) (group_frame r fun here => apart (decide_eq_true here))
  | getPolicy name =>
    exact congrArg (lookedUp (str "policy") name) (policy_frame r fun here => apart (decide_eq_true here))
  | getRole name => exact congrArg (lookedUp (str "role") name) (role_frame r fun here => apart (decide_eq_true here))
  | listUsers =>
    have same : (w.apply r).users = r.users := Table.ext_get fun name =>
      user_frame r fun here => apart (here ▸ rfl)
    exact congrArg (fun users : Table Bytes IAMUser => users.entries.map (·.2)) same
  | listGroups =>
    have same : (w.apply r).groups = r.groups := Table.ext_get fun name =>
      group_frame r fun here => apart (here ▸ rfl)
    exact congrArg (fun groups : Table Bytes IAMGroup => groups.entries.map (·.2)) same
  | listRoles =>
    have same : (w.apply r).roles = r.roles := Table.ext_get fun name =>
      role_frame r fun here => apart (here ▸ rfl)
    exact congrArg (fun roles : Table Bytes IAMRole => roles.entries.map (·.2)) same
  | deleteUser name => rfl
  | deleteGroup name => rfl
  | deletePolicy name => rfl
  | deleteRole name => rfl
  | deleteBucketPolicy bucket => rfl
  | _ => exact written_answer _ _ _ _ _

/-- Writes of two records commute: those of one table by the keys, those of two
tables because neither touches the other's. -/
theorem apply_comm {w w' : Write} (r : Records) (apart : w.cell ≠ w'.cell) :
    w.apply (w'.apply r) = w'.apply (w.apply r) := by
  cases w with
  | user name value =>
    cases w' with
    | user name' value' =>
      have keys : name' ≠ name := fun same => apart (congrArg Cell.user same.symm)
      exact congrArg (fun users => { r with users }) (r.users.set_comm keys value' value)
    | _ => rfl
  | group name value =>
    cases w' with
    | group name' value' =>
      have keys : name' ≠ name := fun same => apart (congrArg Cell.group same.symm)
      exact congrArg (fun groups => { r with groups }) (r.groups.set_comm keys value' value)
    | _ => rfl
  | policy name value =>
    cases w' with
    | policy name' value' =>
      have keys : name' ≠ name := fun same => apart (congrArg Cell.policy same.symm)
      exact congrArg (fun policies => { r with policies }) (r.policies.set_comm keys value' value)
    | _ => rfl
  | role name value =>
    cases w' with
    | role name' value' =>
      have keys : name' ≠ name := fun same => apart (congrArg Cell.role same.symm)
      exact congrArg (fun roles => { r with roles }) (r.roles.set_comm keys value' value)
    | _ => rfl
  | bucketPolicy bucket value =>
    cases w' with
    | bucketPolicy bucket' value' =>
      have keys : bucket' ≠ bucket := fun same => apart (congrArg Cell.bucketPolicy same.symm)
      exact congrArg (fun bucketPolicies => { r with bucketPolicies }) (r.bucketPolicies.set_comm keys value' value)
    | _ => rfl
  | tempCredential accessKeyID value =>
    cases w' with
    | tempCredential accessKeyID' value' =>
      have keys : accessKeyID' ≠ accessKeyID := fun same => apart (congrArg Cell.tempCredential same.symm)
      exact congrArg (fun tempCredentials => { r with tempCredentials }) (r.tempCredentials.set_comm keys value' value)
    | _ => rfl

/-- What another operation writes leaves the answer of one that does not read it. -/
theorem answer_apart {a b : Op} (apart : ∀ w ∈ writes b, ¬ reads a w.cell) (r : Records) :
    (exec a (exec b r).2).1 = (exec a r).1 := by
  rw [exec_state b r]
  cases writing : writes b with
  | none => rfl
  | some w => exact answer_frame a r (apart w writing)

theorem commutes_of_not_conflict (a b : Op) (apart : ¬ Conflict a b) : Program.Commutes exec a b := by
  obtain ⟨unread, rest⟩ := not_or.mp apart
  obtain ⟨unread', cells⟩ := not_or.mp rest
  refine ⟨answer_apart fun w writing here => unread' ⟨w, writing, here⟩,
    answer_apart fun w writing here => unread ⟨w, writing, here⟩, fun r => ?_⟩
  rw [exec_state b, exec_state a, exec_state a, exec_state b]
  cases writing : writes a with
  | none => rfl
  | some w =>
    cases writing' : writes b with
    | none => rfl
    | some w' =>
      exact apply_comm r fun same => cells ⟨w, writing, w', writing', same.symm⟩

/-! ### Two calls -/

/-- Two calls that have both returned left the store as one of the two orders
leaves it. -/
def Serializable (a b : Operation) (turns : List Program.Turn) (r : Records) : Prop :=
  let pair := Program.interleave exec turns (Program.start (perform a) (perform b) r)
  Program.IsDone pair.first → Program.IsDone pair.second →
    pair.state = ((perform b).run exec ((perform a).run exec r).2).2 ∨
      pair.state = ((perform a).run exec ((perform b).run exec r).2).2

/-- In every run of two calls in which no operation touches a record that the
other call, not yet returned, has read or written, one of them writing it, the
store is in the end what one of the two orders makes of it. -/
theorem calls_serializable (a b : Operation) (turns : List Program.Turn) (r : Records)
    (isolated : Program.Isolated exec Conflict turns (Program.start (perform a) (perform b) r)) :
    Serializable a b turns r :=
  fun firstDone secondDone =>
    Program.isolated_serializable commutes_of_not_conflict turns isolated firstDone secondDone

namespace Sample

/-- Alice with one access key, Bob, and a policy that grants nothing. -/
def records : Records :=
  let ops : List Operation :=
    [.createUser (str "alice") (str "u_1"), .createAccessKey (str "alice") (str "1") (.ok [7]),
      .createUser (str "bob") (str "u_2"), .createPolicy (str "none") ⟨[], []⟩]
  ops.foldl (fun r op => ((perform op).run exec r).2) Records.empty

def deactivation : Operation := .deactivateAccessKey (str "alice") (str "AKIA1")

/-- The states of a user's access keys. -/
def keyStates (name : Bytes) (r : Records) : Option (List Bytes) :=
  (r.users.get name).map fun user => user.accessKeys.map (·.status)

/-- Both calls read the user before either writes it. -/
def turns : List Program.Turn := [.first, .second, .first, .second, .second]

/-- The two calls under way, taking those turns. -/
def underWay (userName : Bytes) : Program.Pair Op Answer (Except Bytes Unit) (Except Bytes Unit) Records :=
  Program.interleave exec turns
    (Program.start (perform deactivation) (perform (.attachUserPolicy userName (str "none"))) records)

end Sample

open Sample

/-- While Alice's key is deactivated a policy is attached to her: the record
that the second call read before is written back, and the key is active. -/
theorem deactivation_lost :
    keyStates (str "alice") (underWay (str "alice")).state = some [accessKeyActive] ∧
      ¬ Serializable deactivation (.attachUserPolicy (str "alice") (str "none")) turns records := by
  refine (fun lost => ⟨lost, fun serializable => ?_⟩) (by decide +kernel)
  rcases serializable trivial trivial with same | same
  · have states := lost.symm.trans (congrArg (keyStates (str "alice")) same)
    revert states
    decide +kernel
  · have states := lost.symm.trans (congrArg (keyStates (str "alice")) same)
    revert states
    decide +kernel

/-- A policy attached to Bob in the same turns leaves what one order leaves. -/
theorem other_user_serializable :
    Serializable deactivation (.attachUserPolicy (str "bob") (str "none")) turns records :=
  calls_serializable _ _ _ _ (by decide +kernel)

end CipherLake.ServiceConcurrency
