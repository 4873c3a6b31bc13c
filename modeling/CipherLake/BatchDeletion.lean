import CipherLake.Lib.Runs
import CipherLake.ReadAccess

/-! Batches of deletions. The permission to delete is asked for once, for the
bucket and before the keys are known, and the loop over the keys asks nobody.
So a batch respects the permissions exactly if no key of it strikes an object
that the requester may not delete. -/
namespace CipherLake.BatchDeletion
open Lib Http AccessControl Metadata Storage Gateway Option

variable {κ : Type}

section
variable (g : Config) (call : Call κ) (bucket : Bytes)

/-- One round of the loop. -/
def removeNext (w : World κ) (key : Bytes) : World κ :=
  match getObject w.metadata bucket key with
  | .error _ => w
  | .ok m => (removeObject g call w bucket key m).2

/-- An object has the record it had, and the same data lies where the record
says. -/
structure Left (home key : Bytes) (w w' : World κ) : Prop where
  record : w'.metadata.objects.get (objectKey home key) = w.metadata.objects.get (objectKey home key)
  data : ∀ m root, getObject w.metadata home key = .ok m → g.tiers m.storageTier = some root →
    w'.fs.entry (objectPath root home key) = w.fs.entry (objectPath root home key)

/-- The round for one key takes away the record or the data of an object: the
data of the key can be removed, and it is the object's record that goes with it,
or the data lies where the object's does. -/
def Strikes (head home key : Bytes) (w : World κ) : Prop :=
  ∃ m root, getObject w.metadata bucket head = .ok m ∧ g.tiers m.storageTier = some root ∧
    Removable call.disk w.fs (objectPath root bucket head) ∧
    ((objectKey bucket head = objectKey home key ∧ call.db.dbFault = none) ∨
      ∃ m' root', getObject w.metadata home key = .ok m' ∧ g.tiers m'.storageTier = some root' ∧
        objectPath root' home key = objectPath root bucket head ∧
        w.fs.entry (objectPath root bucket head) ≠ none)

/-- No round strikes an object. -/
def Passed (home key : Bytes) (w : World κ) (keys : List Bytes) : Prop :=
  Runs.Throughout (fun w head => some (removeNext g call bucket w head))
    (fun w head => ¬ Strikes g call bucket head home key w) w keys

end

section
variable {g : Config} {call : Call κ} {bucket home key : Bytes} {w w₁ w₂ : World κ}

variable (keys : List Bytes)

theorem deleteEach_world (w : World κ) :
    (deleteEach g call bucket keys w).2 = keys.foldl (removeNext g call bucket) w := by
  induction keys generalizing w with
  | nil => rfl
  | cons head rest ih =>
    rw [List.foldl_cons, deleteEach, removeNext]
    cases getObject w.metadata bucket head with
    | error e => exact ih w
    | ok m =>
      simp only
      rcases removeObject g call w bucket head m with ⟨⟨_, e⟩ | -, w'⟩ <;> exact ih w'

theorem deleteObject_spec {env : Metadata.Env} {s : Store} {m : ObjectMetadata} (found : getObject s bucket key = .ok m) :
    (deleteObject env s bucket key).2.objects =
      if env.dbFault = none then s.objects.delete (objectKey bucket key) else s.objects := by
  unfold getObject at found
  unfold deleteObject
  cases env.dbFault with
  | some e => rfl
  | none =>
    split at found
    · cases found
    · next held =>
      rfl

/-- Everything a round can do. -/
theorem removeNext_spec (g : Config) (call : Call κ) (bucket : Bytes) (w : World κ) (head : Bytes) :
    (∃ m root, getObject w.metadata bucket head = .ok m ∧ g.tiers m.storageTier = some root ∧
        Removable call.disk w.fs (objectPath root bucket head) ∧
        (removeNext g call bucket w head).metadata.objects =
          (if call.db.dbFault = none then w.metadata.objects.delete (objectKey bucket head)
            else w.metadata.objects) ∧
        ∀ other, (removeNext g call bucket w head).fs.entry other =
          if other = objectPath root bucket head then none else w.fs.entry other) ∨
      (∀ m root, getObject w.metadata bucket head = .ok m → g.tiers m.storageTier = some root →
        ¬ Removable call.disk w.fs (objectPath root bucket head)) ∧ removeNext g call bucket w head = w := by
  unfold removeNext
  cases found : getObject w.metadata bucket head with
  | error e => exact .inr ⟨nofun, rfl⟩
  | ok m =>
    have gone := @deleteObject_spec bucket head call.db w.metadata m found
    unfold removeObject
    rcases delete_spec g.tiers call.disk w.fs bucket head m.storageTier with
      ⟨root, fs', registered, removable, deleted, entries⟩ | ⟨stuck, e, refused⟩
    · refine .inl ⟨m, root, rfl, registered, removable, ?_⟩
      simp only [deleted]
      rcases deleting : deleteObject call.db w.metadata bucket head with ⟨e | ⟨⟩, metadata⟩
      · rw [deleting] at gone
        exact ⟨gone, entries⟩
      · rw [deleting] at gone
        exact ⟨gone, entries⟩
    · refine .inr ⟨fun _ root same => Except.ok.inj same ▸ stuck root, ?_⟩
      simp only [refused]

theorem getObject_record {s s' : Store}
    (same : s'.objects.get (objectKey bucket key) = s.objects.get (objectKey bucket key)) :
    getObject s' bucket key = getObject s bucket key := by
  unfold getObject
  rw [same]

theorem Left.refl (w : World κ) : Left g home key w w := ⟨rfl, fun _ _ _ _ => rfl⟩

/-- What is left from the first world to the second can be traced from either. -/
theorem Left.iff_right (first : Left g home key w w₁) : Left g home key w w₂ ↔ Left g home key w₁ w₂ := by
  have records := getObject_record first.record
  constructor
  · rintro ⟨record, data⟩
    refine ⟨record.trans first.record.symm, fun m root found registered => ?_⟩
    rw [records] at found
    exact (data m root found registered).trans (first.data m root found registered).symm
  · rintro ⟨record, data⟩
    refine ⟨record.trans first.record, fun m root found registered => ?_⟩
    exact (data m root (records.trans found) registered).trans (first.data m root found registered)

/-- One round leaves an object unless it strikes it. -/
theorem removeNext_left (head : Bytes) :
    Left g home key w (removeNext g call bucket w head) ↔ ¬ Strikes g call bucket head home key w := by
  rcases removeNext_spec g call bucket w head with
    ⟨m, root, found, registered, removable, objects, entries⟩ | ⟨stuck, same⟩
  · constructor
    · rintro ⟨record, data⟩ ⟨_, _, found₁, registered₁, -, struck⟩
      cases found.symm.trans found₁
      cases registered.symm.trans registered₁
      rcases struck with ⟨own, sound⟩ | ⟨m', root', found', registered', shared, present⟩
      · rw [objects, if_pos sound, ← own, Table.get_delete_same] at record
        rw [getObject, ← record] at found
        cases found
      · have kept := data m' root' found' registered'
        rw [shared, entries, if_pos rfl] at kept
        exact present kept.symm
    · intro spared
      have apart := fun struck => spared ⟨m, root, found, registered, removable, struck⟩
      rw [imp_false, not_or] at apart
      refine ⟨?_, fun m' root' found' registered' => ?_⟩
      · rw [objects]
        split
        · next sound =>
          rw [Table.get_delete_ne]
          exact fun same => apart.1 ⟨same, sound⟩
        · rfl
      · rw [entries]
        split
        · next shared =>
          by_contra present
          refine apart.2 ⟨m', root', found', registered', shared, fun absent => present ?_⟩
          rw [shared, absent]
        · rfl
  · rw [same]
    refine ⟨?_, fun _ => Left.refl w⟩
    rintro - ⟨m, root, found, registered, removable, -⟩
    exact stuck m root found registered removable

/-- What is there in the second world was there in the first. -/
structure Shrunk (w w' : World κ) : Prop where
  records : ∀ k m, w'.metadata.objects.get k = some m → w.metadata.objects.get k = some m
  entries : ∀ path e, w'.fs.entry path = some e → w.fs.entry path = some e

theorem removeNext_shrunk (g : Config) (call : Call κ) (bucket : Bytes) (w : World κ) (head : Bytes) :
    Shrunk w (removeNext g call bucket w head) := by
  rcases removeNext_spec g call bucket w head with ⟨_, _, -, -, -, objects, entries⟩ | ⟨-, same⟩
  · constructor
    · intro k m there
      rw [objects] at there
      split at there
      · exact (Table.forall_get_delete (fun _ _ held => held)) k m there
      · exact there
    · intro path e there
      rw [entries] at there
      split at there
      · cases there
      · exact there
  · rw [same]
    exact ⟨fun _ _ => id, fun _ _ => id⟩

theorem foldl_shrunk (w : World κ) : Shrunk w (keys.foldl (removeNext g call bucket) w) := by
  induction keys generalizing w with
  | nil => exact ⟨fun _ _ => id, fun _ _ => id⟩
  | cons head rest ih =>
    have first := removeNext_shrunk g call bucket w head
    have later := ih (removeNext g call bucket w head)
    exact ⟨fun k m => first.records k m ∘ later.records k m, fun path e => first.entries path e ∘ later.entries path e⟩

/-- What is there at the end was there all along. -/
theorem Left.of_shrunk (first : Shrunk w w₁) (second : Shrunk w₁ w₂) (left : Left g home key w w₂) :
    Left g home key w w₁ := by
  constructor
  · ext m
    exact ⟨first.records _ m, fun there => second.records _ m (left.record.trans there)⟩
  · intro m root found registered
    ext e
    exact ⟨first.entries _ e, fun there => second.entries _ e ((left.data m root found registered).trans there)⟩

/-- The loop leaves an object exactly if no round strikes it. -/
theorem foldl_left (w : World κ) :
    Left g home key w (keys.foldl (removeNext g call bucket) w) ↔ Passed g call bucket home key w keys := by
  induction keys generalizing w with
  | nil => exact ⟨fun _ => trivial, fun _ => Left.refl w⟩
  | cons head rest ih =>
    simp only [Passed, Runs.Throughout, some.injEq, forall_eq', List.foldl_cons]
    rw [← removeNext_left]
    constructor
    · intro left
      have first := Left.of_shrunk (removeNext_shrunk g call bucket w head) (foldl_shrunk rest _) left
      exact ⟨first, (ih _).mp (first.iff_right.mp left)⟩
    · rintro ⟨first, later⟩
      exact first.iff_right.mpr ((ih _).mpr later)

end

section
variable (g : Config) (call : Call κ) (parse : Bytes → Except Bytes (List Bytes × Bool)) (w : World κ) (r : Request)
  (bucket : Bytes)

/-- `Check` allows an identity to delete an object. -/
def MayDelete (identity : Identity) (key : Bytes) : Prop :=
  ∃ fuel, check call.auth fuel g.provider identity (str "delete") bucket key r = some (.ok ())

/-- The objects that are not as they were are ones the requester may delete. -/
def Respected (w' : World κ) : Prop :=
  ∀ key, Left g bucket key w w' ∨
    ∃ identity logins, authenticate call.auth g.provider w.logins r = (.ok identity, logins) ∧
      MayDelete g call r bucket identity key

/-- A batch of keys gets to the loop: the requester may delete in the bucket, and
the document is read. -/
structure Reaches (identity : Identity) (logins : Logins) (keys : List Bytes) : Prop where
  routed : r.queryHas (str "delete") = true ∧ r.method = str "POST"
  identified : ∃ logins', requireIdentity call.auth call.fuel g.provider w.logins r (str "delete") bucket [] =
    some (.ok identity, logins') ∧ ∃ userID, requestUserID call.auth g.provider logins' r = (.ok userID, logins)
  parsed : ∃ body quiet, readAll (limited maxRequestBodyBytes r.body) = .ok body ∧ parse body = .ok (keys, quiet)

end

section
variable {g : Config} {call : Call κ} {parse : Bytes → Except Bytes (List Bytes × Bool)} {w : World κ} {r : Request}
  {bucket : Bytes}

/-- A request changes nothing but the failed logins, or it runs the loop. -/
theorem postBucket_cases {reply : Reply} {w' : World κ}
    (answered : postBucket g call parse w r bucket = some (reply, w')) :
    ((∀ identity logins keys, ¬ Reaches g call parse w r bucket identity logins keys) ∧
        ∃ logins, w' = { w with logins }) ∨
      ∃ identity logins keys, Reaches g call parse w r bucket identity logins keys ∧
        w' = keys.foldl (removeNext g call bucket) { w with logins } := by
  unfold postBucket at answered
  split at answered
  · next routed =>
    obtain ⟨⟨result, logins⟩, checked, outcome⟩ := bind_eq_some_iff.mp answered
    have unreached (refused : ∀ identity, result ≠ .ok identity) identity logins' keys :
        ¬ Reaches g call parse w r bucket identity logins' keys := by
      rintro ⟨-, ⟨_, passed, -⟩, -⟩
      rw [checked] at passed
      exact refused identity (Prod.mk.inj (some.inj passed)).1
    rcases result with (e | -) | identity
    · cases outcome
      exact .inl ⟨unreached nofun, logins, rfl⟩
    · cases outcome
      exact .inl ⟨unreached nofun, logins, rfl⟩
    have handled := some.inj outcome
    unfold handleDeleteObjects at handled
    split at handled
    · next other =>
      cases handled
      exact .inl ⟨fun _ _ _ reaches => other reaches.routed.2, logins, rfl⟩
    rename_i method
    split at handled
    · next unread =>
      cases handled
      refine .inl ⟨?_, logins, rfl⟩
      rintro _ _ _ ⟨-, -, _, _, read, -⟩
      rw [unread] at read
      cases read
    · next body read =>
      split at handled
      · next unparsed =>
        cases handled
        refine .inl ⟨?_, logins, rfl⟩
        rintro _ _ _ ⟨-, -, _, _, read', parsed⟩
        cases read.symm.trans read'
        rw [unparsed] at parsed
        cases parsed
      · next keys quiet parsed =>
        unfold withUserID at handled
        rcases user : requestUserID call.auth g.provider logins r with ⟨e | userID, logins'⟩
        · simp only [user] at handled
          cases handled
          refine .inl ⟨?_, logins', rfl⟩
          rintro _ _ _ ⟨-, ⟨_, passed, _, user'⟩, -⟩
          obtain rfl := (Prod.mk.inj (some.inj (checked.symm.trans passed))).2
          rw [user] at user'
          cases user'
        · simp only [user] at handled
          refine .inr ⟨identity, logins', keys, ⟨⟨routed, not_not.mp method⟩, ⟨logins, checked, userID, user⟩,
            body, quiet, read, parsed⟩, ?_⟩
          rw [← deleteEach_world]
          exact (Prod.mk.inj handled).2.symm
  · next unrouted =>
    cases answered
    exact .inl ⟨fun _ _ _ reaches => unrouted reaches.routed.1, w.logins, rfl⟩

variable {identity : Identity} {logins : Logins} {keys : List Bytes}

/-- Whoever gets to the loop is the requester. -/
theorem Reaches.authenticated (reaches : Reaches g call parse w r bucket identity logins keys) :
    ∃ logins', authenticate call.auth g.provider w.logins r = (.ok identity, logins') := by
  obtain ⟨logins', checked, -⟩ := reaches.identified
  unfold requireIdentity at checked
  split at checked
  · cases checked
  rename_i identity' logins₁ authenticated
  obtain ⟨decision, -, outcome⟩ := map_eq_some_iff.mp checked
  cases decision with
  | error e => cases outcome
  | ok _ =>
    cases outcome
    exact ⟨logins', authenticated⟩

/-- A request gets to the loop in one way only. -/
theorem Reaches.unique {identity' : Identity} {logins logins' : Logins} {keys keys' : List Bytes}
    (reaches : Reaches g call parse w r bucket identity logins keys)
    (reaches' : Reaches g call parse w r bucket identity' logins' keys') :
    identity' = identity ∧ logins' = logins ∧ keys' = keys := by
  obtain ⟨-, ⟨logins₁, checked, userID, user⟩, body, quiet, read, parsed⟩ := reaches
  obtain ⟨-, ⟨logins₂, checked', userID', user'⟩, body', quiet', read', parsed'⟩ := reaches'
  obtain ⟨sameIdentity, rfl⟩ := Prod.mk.inj (some.inj (checked.symm.trans checked'))
  cases read.symm.trans read'
  exact ⟨(Except.ok.inj sameIdentity).symm, (Prod.mk.inj (user.symm.trans user')).2.symm,
    (Prod.mk.inj (Except.ok.inj (parsed.symm.trans parsed'))).1.symm⟩

/-- Without IAM the permission to delete is one for the whole bucket. -/
theorem Reaches.mayDelete (legacy : g.provider.iamBridge = none)
    (reaches : Reaches g call parse w r bucket identity logins keys) (key : Bytes) :
    MayDelete g call r bucket identity key := by
  obtain ⟨_, checked, -⟩ := reaches.identified
  have keyless : check call.auth call.fuel g.provider identity (str "delete") bucket key r =
      check call.auth call.fuel g.provider identity (str "delete") bucket [] r := by
    simp only [check, legacy]
  refine ⟨call.fuel, keyless.trans ?_⟩
  unfold requireIdentity at checked
  split at checked
  · cases checked
  obtain ⟨decision, decided, outcome⟩ := map_eq_some_iff.mp checked
  cases decision with
  | error e => cases outcome
  | ok _ =>
    cases outcome
    exact decided

end

/-- A batch respects the permissions exactly if every object that a round of the
loop strikes is one that the requester may delete. -/
theorem respected_iff (g : Config) (call : Call κ) (parse : Bytes → Except Bytes (List Bytes × Bool)) (w w' : World κ)
    (r : Request) (bucket : Bytes) (reply : Reply)
    (answered : postBucket g call parse w r bucket = some (reply, w')) :
    Respected g call w r bucket w' ↔ ∀ identity logins keys, Reaches g call parse w r bucket identity logins keys →
        ∀ key, MayDelete g call r bucket identity key ∨ Passed g call bucket bucket key { w with logins } keys := by
  rcases postBucket_cases answered with ⟨unreached, logins, rfl⟩ | ⟨identity, logins, keys, reaches, rfl⟩
  · refine ⟨fun _ identity logins keys reaches => absurd reaches (unreached identity logins keys), fun _ key => ?_⟩
    exact .inl ⟨rfl, fun _ _ _ _ => rfl⟩
  obtain ⟨logins', authenticated⟩ := reaches.authenticated
  have same (key : Bytes) : Left g bucket key w { w with logins } := ⟨rfl, fun _ _ _ _ => rfl⟩
  constructor
  · intro respected identity₁ logins₁ keys₁ reaches₁ key
    obtain ⟨rfl, rfl, rfl⟩ := reaches.unique reaches₁
    rcases respected key with left | ⟨_, _, authenticated₂, allowed⟩
    · exact .inr ((foldl_left keys₁ _).mp ((same key).iff_right.mp left))
    · obtain rfl := Except.ok.inj (Prod.mk.inj (authenticated.symm.trans authenticated₂)).1
      exact .inl allowed
  · intro condition key
    rcases condition identity logins keys reaches key with allowed | passed
    · exact .inr ⟨identity, logins', authenticated, allowed⟩
    · exact .inl ((same key).iff_right.mpr ((foldl_left keys _).mpr passed))

open Gateway.Sample

open IdentityPolicies.Sample

namespace Sample
open Iam IamProofs IdentityPolicies

def alice : IAMUser := ⟨str "AIDA1", str "alice", [⟨str "AKIA1", str "secret", str "Active"⟩], [], [], [], []⟩

/-- Everything is allowed, but this one object may not be deleted. -/
def policy : PolicyDocument :=
  ⟨str "guard", [statement (str "Allow") (some everyone),
    ⟨str "Keep", str "Deny", [str "s3:DeleteObject"], [], [str "arn:cipherlake:s3:::photos/cat.jpg"], [],
      some everyone, []⟩]⟩

def store : IAMStore where
  users := Table.empty.put (str "alice") alice
  groups := Table.empty
  policies := Table.empty
  bucketPolicies := Table.empty.put (str "photos") policy
  tempCredentials := Table.empty
  scp := none

def config : Config := { Gateway.Sample.config with provider := ⟨handler, some store⟩ }

/-- The same without IAM, for everybody. -/
def openConfig : Config := { Gateway.Sample.config with provider := ⟨⟨[], false, true⟩, none⟩ }

def request : Request :=
  { Gateway.Sample.request (str "delete") with
    method := str "POST"
    header := [(str "authorization", str "Basic AKIA1:secret")]
    body := ⟨str "cat.jpg", some .eof⟩ }

/-- A document is the one key it lists. -/
def parse (body : Bytes) : Except Bytes (List Bytes × Bool) := .ok ([body], false)

theorem undeletable :
    ¬ MayDelete config Gateway.Sample.call request (str "photos") (identityOf alice) (str "cat.jpg") := by
  have enough (fuel : Nat) : ∀ stmt ∈ storedStatements store, Enough fuel stmt := by
    have unconditional : ∀ stmt ∈ storedStatements store, stmt.condition = [] := by decide +kernel
    intro stmt listed block inCondition
    rw [unconditional stmt listed] at inCondition
    cases inCondition
  have spec (fuel : Nat) := @checked_spec handler (str "delete") (str "photos") (str "cat.jpg")
    Gateway.Sample.call.auth fuel store alice request (by decide +kernel) (by decide) (by decide +kernel) (enough fuel)
  rintro ⟨fuel, allowed⟩
  obtain ⟨_, decided, meaning⟩ := spec fuel
  obtain ⟨_, decided', meaning'⟩ := spec 1
  have granted := meaning.mp (some.inj (decided.symm.trans allowed))
  have refused : (checked Gateway.Sample.call.auth 1 store handler alice (str "delete")
      (str "photos") (str "cat.jpg") request) ≠ some (.ok ()) := by decide +kernel
  rw [decided', meaning'.mpr granted] at refused
  exact refused rfl

end Sample

open Sample

/-- An object that a policy protects from being deleted is deleted in a batch. -/
theorem protected_object_deleted :
    ∃ w', postBucket Sample.config Gateway.Sample.call Sample.parse world Sample.request
        (str "photos") = some (.deleted [(str "cat.jpg", str "v1")] [], w') ∧
      ¬ MayDelete Sample.config Gateway.Sample.call Sample.request (str "photos")
        (IdentityPolicies.identityOf Sample.alice) (str "cat.jpg") ∧
      (world.metadata.objects.get (objectKey (str "photos") (str "cat.jpg"))).isSome = true ∧
      w'.metadata.objects.get (objectKey (str "photos") (str "cat.jpg")) = none ∧
      ¬ Respected Sample.config Gateway.Sample.call world Sample.request (str "photos") w' := by
  have ran : (postBucket Sample.config Gateway.Sample.call Sample.parse world Sample.request
      (str "photos")).map (fun out => (out.1, out.2.metadata.objects.get (objectKey (str "photos") (str "cat.jpg")))) =
      some (.deleted [(str "cat.jpg", str "v1")] [], none) := by decide +kernel
  have requester : (authenticate Gateway.Sample.call.auth Sample.config.provider world.logins
      Sample.request).1 = .ok (IdentityPolicies.identityOf Sample.alice) := by decide +kernel
  obtain ⟨⟨_, w'⟩, answered, seen⟩ := map_eq_some_iff.mp ran
  obtain ⟨rfl, gone⟩ := Prod.mk.inj seen
  refine ⟨w', answered, undeletable, (fun present => ⟨present, gone, fun respected => ?_⟩) (by decide +kernel)⟩
  rcases respected (str "cat.jpg") with left | ⟨_, _, authenticated, allowed⟩
  · have kept := left.record
    rw [gone] at kept
    rw [← kept] at present
    cases present
  · rw [authenticated] at requester
    cases requester
    exact undeletable allowed

/-- Where there is no IAM, a batch deletes what may be deleted. -/
theorem legacy_batch_respected :
    ∃ reply w', postBucket openConfig Gateway.Sample.call Sample.parse world Sample.request
        (str "photos") = some (reply, w') ∧
      Respected openConfig Gateway.Sample.call world Sample.request (str "photos") w' := by
  have ran : (postBucket openConfig Gateway.Sample.call Sample.parse world Sample.request
      (str "photos")).isSome = true := by decide +kernel
  obtain ⟨⟨reply, w'⟩, answered⟩ := isSome_iff_exists.mp ran
  refine ⟨reply, w', answered, ?_⟩
  refine (respected_iff openConfig Gateway.Sample.call Sample.parse world w' Sample.request
    (str "photos") reply answered).mpr ?_
  intro identity logins keys reaches key
  exact .inl (reaches.mayDelete rfl key)

end CipherLake.BatchDeletion
