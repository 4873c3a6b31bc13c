import CipherLake.AccessControl

/-! The user of an access key. For a key that nobody holds the store returns no user and
no error, and the service looks into the user. -/
namespace CipherLake.AccessControl
open Lib Iam List

variable (s : IAMStore) (accessKeyID : Bytes)

/-- The user is stored and has the key, active. -/
def Holds (user : IAMUser) (ak : AccessKey) : Prop :=
  (∃ name, (name, user) ∈ s.users.entries) ∧ ak ∈ user.accessKeys ∧ ak.accessKeyID = accessKeyID ∧
    ak.status = str "Active"

/-- The lookup finds exactly who holds the key, and who names a key that nobody holds is refused. -/
structure LookedUp : Prop where
  found : ∀ user ak, getUserByAccessKeyID s accessKeyID = .ok (user, ak) ↔ Holds s accessKeyID user ak
  answered : getUserByAccessKeyID s accessKeyID ≠ .error .panicked
  refused : hasPrefix accessKeyID (str "AKIA") = true → (∀ user ak, ¬ Holds s accessKeyID user ak) → ∀ env a,
    (∀ logins encoded secret, decodeBasicAuth env encoded = .ok (accessKeyID, secret) →
      ∃ e, (validateBasicAuthIAM env a s logins encoded).1 = .error (.refused e)) ∧
    ∀ r, (if r.headerGet (str "Authorization") = [] then presignedAccessKey r
        else extractAWSAccessKey (r.headerGet (str "Authorization"))) = accessKeyID →
      ∃ e, validateAWSSignatureIAM env a s r = .error (.refused e)

/-- Either nobody holds the key, or of a user who does the first key with the id is returned. -/
theorem getUserByAccessKeyID_cases :
    ((∀ user ak, ¬ Holds s accessKeyID user ak) ∧ getUserByAccessKeyID s accessKeyID = .error .panicked) ∨
      ∃ user held ak, Holds s accessKeyID user held ∧ user.accessKeys.find? (·.accessKeyID = accessKeyID) = some ak ∧
        getUserByAccessKeyID s accessKeyID = .ok (user, ak) := by
  unfold getUserByAccessKeyID
  split
  · next missing =>
    refine .inl ⟨fun user ak => ?_, rfl⟩
    rintro ⟨⟨name, stored⟩, member, id, active⟩
    have inactive := find?_eq_none.mp missing _ stored
    simp only [any_eq_true, not_exists, not_and] at inactive
    exact inactive ak member (by simp [id, active])
  · next name user found =>
    have holding := List.find?_some found
    obtain ⟨held, member, active⟩ := any_eq_true.mp holding
    simp only [Bool.and_eq_true, decide_eq_true_eq] at active
    obtain ⟨ak, first⟩ : ∃ ak, user.accessKeys.find? (·.accessKeyID = accessKeyID) = some ak := by
      rw [← Option.isSome_iff_exists, find?_isSome]
      exact ⟨held, member, decide_eq_true active.1⟩
    refine .inr ⟨user, held, ak, ⟨⟨name, mem_of_find?_eq_some found⟩, member, active⟩, first, ?_⟩
    rw [first]

/-- The lookup is right exactly for a key that one user holds in one place, and there first
of all keys with the id. -/
theorem lookedUp_iff : LookedUp s accessKeyID ↔
    ∃ user ak, (∀ user' ak', Holds s accessKeyID user' ak' ↔ user' = user ∧ ak' = ak) ∧
      user.accessKeys.find? (·.accessKeyID = accessKeyID) = some ak := by
  rcases getUserByAccessKeyID_cases s accessKeyID with ⟨nobody, panicked⟩ | ⟨user, held, ak, holds, first, found⟩
  · refine iff_of_false (fun right => right.answered panicked) ?_
    rintro ⟨user, ak, only, -⟩
    exact nobody user ak ((only user ak).mpr ⟨rfl, rfl⟩)
  constructor
  · intro right
    refine ⟨user, ak, fun user' ak' => (right.found user' ak').symm.trans ?_, first⟩
    simp [found, eq_comm]
  · rintro ⟨user', ak', only, first'⟩
    obtain ⟨rfl, -⟩ := (only user held).mp holds
    obtain rfl := Option.some.inj (first.symm.trans first')
    refine ⟨fun user' ak' => ?_, by simp [found], fun _ nobody => absurd holds (nobody user held)⟩
    rw [only]
    simp [found, eq_comm]

/-- In a store without users. -/
theorem unknown_key_panics :
    getUserByAccessKeyID ⟨.empty, .empty, .empty, .empty, .empty, none⟩ (str "AKIA0") = .error .panicked := rfl

end CipherLake.AccessControl
