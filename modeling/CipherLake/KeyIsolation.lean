import CipherLake.Routing
import CipherLake.Storage
import Mathlib.Data.Set.Finite.Basic

/-! Two keys of one bucket in the file-backed tiers. Keys are told apart as byte
strings everywhere but in the file system, where a key becomes the list of its
names. Two keys are out of each other's way exactly if neither list continues
the other. -/
namespace CipherLake.KeyIsolation
open Lib Metadata Storage Routing List

/-- A request that changes the store, by what reaches the tier. -/
inductive Operation where
  | put (data : Answer) (size : Int) (tier : Int) (random : Bytes)
  | delete (tier : Int)

section
variable (tiers : Tiers) (bucket : Bytes)

/-- One request; no call of the operating system fails. -/
def perform (key : Bytes) (fs : FileTree) : Operation → FileTree
  | .put data size tier random => (put tiers (Disk.sound random) fs bucket key data size tier).2
  | .delete tier => (delete tiers (Disk.sound []) fs bucket key tier).2

/-- A sequence of requests, each for a key. -/
def run (fs : FileTree) (requests : List (Bytes × Operation)) : FileTree :=
  requests.foldl (fun fs request => perform tiers bucket request.1 fs request.2) fs

/-- A `GET` of the key returns these bytes. -/
def Returns (fs : FileTree) (key : Bytes) (tier : Int) (data : Bytes) : Prop :=
  get tiers (Disk.sound []) fs bucket key tier = .ok ⟨data, some .eof⟩

/-- A `PUT` of the key succeeds, under a temporary name that is free. -/
def Accepts (fs : FileTree) (key : Bytes) (tier : Int) : Prop :=
  ∀ data : Bytes, ∃ random,
    (put tiers (Disk.sound random) fs bucket key ⟨data, some .eof⟩ data.length tier).1 = .ok ()

/-- What somebody who works with the key can tell is the same, except that a
`PUT` may have become possible. -/
structure Unaffected (key : Bytes) (fs fs' : FileTree) : Prop where
  bytes : ∀ tier data, Returns tiers bucket fs' key tier data ↔ Returns tiers bucket fs key tier data
  accepts : ∀ tier, Accepts tiers bucket fs key tier → Accepts tiers bucket fs' key tier

/-- Whatever happened to the two keys before, a request for one of them does not
affect the other. -/
def Isolated (k₁ k₂ : Bytes) : Prop :=
  ∀ fs requests, (∀ request ∈ requests, request.1 = k₁ ∨ request.1 = k₂) → ∀ operation,
    Unaffected tiers bucket k₂ (run tiers bucket fs requests)
      (perform tiers bucket k₁ (run tiers bucket fs requests) operation) ∧
    Unaffected tiers bucket k₁ (run tiers bucket fs requests)
      (perform tiers bucket k₂ (run tiers bucket fs requests) operation)

end

/-- One path continues the other, or they are the same. -/
def Nested (p q : Path) : Prop := p <+: q ∨ q <+: p

theorem Nested.symm {p q : Path} (nested : Nested p q) : Nested q p := Or.symm nested

/-! ### Free temporary names -/

theorem tempName_injective (pattern : Bytes) : Function.Injective (tempName pattern) := by
  intro a b same
  unfold tempName at same
  generalize pattern.reverse.span (· ≠ 42) = cut at same
  obtain ⟨_, - | ⟨_, _⟩⟩ := cut
  · exact append_cancel_left same
  · exact append_cancel_left (append_cancel_right same)

/-- A tree is finite, so there is a name for one more temporary file. -/
theorem exists_free_temp (fs : FileTree) (path : Path) : ∃ random, fs.entry (tempPath random path) = none := by
  have endless : (Set.range fun random => tempPath random path).Infinite := by
    refine Set.infinite_range_of_injective fun a b same => ?_
    have last : [tempName (str ".tmp-" ++ path.getLastD []) a] = [tempName (str ".tmp-" ++ path.getLastD []) b] :=
      append_cancel_left same
    exact tempName_injective _ (singleton_inj.mp last)
  obtain ⟨_, ⟨random, rfl⟩, unlisted⟩ := endless.exists_notMem_finset (fs.nodes.entries.map Prod.fst).toFinset
  refine ⟨random, ?_⟩
  rw [FileTree.entry, entryIn, if_neg (tempPath_ne_nil random path)]
  by_contra held
  obtain ⟨_, found⟩ := Option.ne_none_iff_exists'.mp held
  exact unlisted (mem_toFinset.mpr (mem_map_of_mem (Table.mem_of_get found)))

/-! ### What the tree decides -/

/-- Nothing stands in the way of a file at this path. -/
def Unobstructed (fs : FileTree) (path : Path) : Prop :=
  path ≠ [] ∧ fs.entry path ≠ some .dir ∧ ∀ above, above <+: path.dropLast → ∀ data, fs.entry above ≠ some (.file data)

variable {key : Bytes} {fs : FileTree} {tier : Int} {root : Path}

theorem accepts_iff {tiers : Tiers} {bucket : Bytes} : Accepts tiers bucket fs key tier ↔
      ∃ root, tiers tier = some root ∧ Unobstructed fs (objectPath root bucket key) := by
  constructor
  · intro accepted
    obtain ⟨random, done⟩ := accepted []
    obtain ⟨root, -, registered, writable, -⟩ := put_ok (Prod.ext done rfl)
    exact ⟨root, registered, writable.named, writable.open_, fun above onWay => (writable.passable above onWay).1⟩
  · rintro ⟨root, registered, named, open_, clear⟩ data
    obtain ⟨random, fresh⟩ := exists_free_temp fs (objectPath root bucket key)
    refine ⟨random, ?_⟩
    have writable : Writable (Disk.sound random) fs (objectPath root bucket key) ⟨data, some .eof⟩ data.length :=
      ⟨⟨named, open_, fresh, rfl, ⟨rfl, .inr rfl, by simp, rfl, rfl⟩, rfl⟩, fun above onWay =>
        ⟨clear above onWay, fun _ => rfl⟩⟩
    unfold put
    simp only [registered]
    rcases FileBackend.put_cases (Disk.sound random) fs root (makePath bucket key) ⟨data, some .eof⟩ data.length with
      ⟨fs', -, done, -⟩ | ⟨_, fs', _, -, blocked, -⟩
    · rw [done]
    · exact absurd writable blocked

/-- Nothing changes but the file at the path and the directories above it that
were not there. -/
def Confined (fs fs' : FileTree) (path : Path) : Prop :=
  ∀ other, other ≠ path → fs'.entry other = fs.entry other ∨ fs.entry other = none ∧ fs'.entry other = some .dir ∧
    other <+: path.dropLast

theorem put_confined {tiers : Tiers} {bucket random : Bytes} {data : Answer} {size : Int}
    (registered : tiers tier = some root) :
    Confined fs (put tiers (Disk.sound random) fs bucket key data size tier).2 (objectPath root bucket key) := by
  unfold put
  simp only [registered]
  rcases FileBackend.put_cases (Disk.sound random) fs root (makePath bucket key) data size with
    ⟨fs', made, done, -, grown, entries⟩ | ⟨_, fs', made, failed, -, grown, ⟨-, kept⟩ | ⟨spills, -⟩⟩
  · rw [done]
    intro other apart
    rw [entries, if_neg (show ¬ other = Path.join root (makePath bucket key) from apart)]
    exact grown other
  · rw [failed]
    exact fun other _ => kept other ▸ grown other
  · exact absurd rfl spills.stuck

theorem delete_confined {tiers : Tiers} {bucket : Bytes} {disk : Disk} (registered : tiers tier = some root) :
    Confined fs (delete tiers disk fs bucket key tier).2 (objectPath root bucket key) := by
  unfold delete
  simp only [registered]
  rcases FileBackend.delete_spec disk fs root (makePath bucket key) with ⟨-, _, removed, entries⟩ | ⟨-, _, refused⟩
  · rw [removed]
    intro other apart
    rw [entries, if_neg (show ¬ other = Path.join root (makePath bucket key) from apart)]
    exact .inl rfl
  · rw [refused]
    exact fun _ _ => .inl rfl

/-- Everything a request can do: nothing, or something at its own path. -/
theorem perform_confined (tiers : Tiers) (bucket key : Bytes) (fs : FileTree) (operation : Operation) :
    perform tiers bucket key fs operation = fs ∨ ∃ tier root, tiers tier = some root ∧
      Confined fs (perform tiers bucket key fs operation) (objectPath root bucket key) := by
  cases operation with
  | put data size tier random =>
    cases registered : tiers tier with
    | none => exact .inl (by simp [perform, put, registered])
    | some root => exact .inr ⟨tier, root, registered, put_confined registered⟩
  | delete tier =>
    cases registered : tiers tier with
    | none => exact .inl (by simp [perform, delete, registered])
    | some root => exact .inr ⟨tier, root, registered, delete_confined registered⟩

/-! ### Keys as paths -/

theorem validBucket_names {bucket : Bytes} (valid : validateBucketName bucket = true) :
    str ".." ∉ bucket.splitOn 47 ∧ Path.names bucket = [bucket] := by
  simp only [validateBucketName, matchesBucketName, Bool.and_eq_true, decide_eq_true_eq, all_eq_true] at valid
  obtain ⟨⟨⟨⟨⟨⟨_, -⟩, chars⟩, _⟩, -⟩, -⟩, -⟩ := valid
  have plain : (47 : UInt8) ∉ bucket := fun slash => absurd (chars 47 slash) (by decide)
  have whole : bucket.splitOn 47 = [bucket] := splitOn_eq_singleton plain
  have short (name : Bytes) (few : name.length < 3) : name ≠ bucket := by
    rintro rfl
    omega
  refine ⟨?_, ?_⟩
  · rw [whole, mem_singleton]
    exact short _ (by decide)
  · rw [Path.names, whole, filter_cons_of_pos, filter_nil]
    simp only [ne_eq, decide_eq_true_eq]
    exact ⟨(short [] (by decide)).symm, (short (str ".") (by decide)).symm⟩

theorem objectPath_accepted {bucket : Bytes} (valid : validateBucketName bucket = true)
    (accepted : validateObjectKey key = true) (root : Path) :
    objectPath root bucket key = root ++ bucket :: Path.names key := by
  obtain ⟨plain, names⟩ := validBucket_names valid
  have traversalFree : str ".." ∉ key.splitOn 47 := by
    intro member
    have traversal : pathTraversal key = true := any_eq_true.mpr ⟨_, member, by simp⟩
    simp [validateObjectKey, traversal] at accepted
  have slash : makePath bucket key = bucket ++ 47 :: key := by simp [makePath, str]
  have whole : str ".." ∉ (makePath bucket key).splitOn 47 := by
    rw [slash, splitOn_append_cons_self, mem_append, not_or]
    exact ⟨plain, traversalFree⟩
  rw [objectPath, Path.join_plain root _ whole, makePath, Path.names_append, names]
  rfl

/-! ### Isolation -/

section
variable {tiers : Tiers} {bucket : Bytes} {path : Path}

theorem unaffected_of_confined {fs' : FileTree} (confined : Confined fs fs' path)
    (apart : ∀ tier root, tiers tier = some root → ¬ Nested path (objectPath root bucket key)) :
    Unaffected tiers bucket key fs fs' := by
  refine ⟨fun tier data => ?_, fun tier accepted => ?_⟩
  · rw [Returns, Returns, get_eq_iff, get_eq_iff]
    refine exists_congr fun root => and_congr_right fun registered => ?_
    have elsewhere : objectPath root bucket key ≠ path := fun same =>
      apart tier root registered (.inl (same ▸ prefix_refl _))
    rcases confined _ elsewhere with kept | ⟨absent, dir, -⟩
    · rw [kept]
    · simp [absent, dir]
  · obtain ⟨root, registered, named, open_, clear⟩ := accepts_iff.mp accepted
    have separate := apart tier root registered
    refine accepts_iff.mpr ⟨root, registered, named, fun dir => ?_, fun above onWay data held => ?_⟩
    · have elsewhere : objectPath root bucket key ≠ path := fun same =>
        separate (.inl (same ▸ prefix_refl _))
      rcases confined _ elsewhere with kept | ⟨-, -, above⟩
      · exact open_ (kept ▸ dir)
      · exact separate (.inr (above.trans ( dropLast_prefix path)))
    · by_cases own : above = path
      · exact separate (.inl (own ▸ onWay.trans ( dropLast_prefix _)))
      · rcases confined above own with kept | ⟨-, dir, -⟩
        · exact clear above onWay data (kept ▸ held)
        · rw [dir] at held
          cases held

/-- A request for one key does not affect another whose paths are apart. -/
theorem perform_unaffected {own : Bytes}
    (apart : ∀ tier tier' root root', tiers tier = some root → tiers tier' = some root' →
      ¬ Nested (objectPath root bucket own) (objectPath root' bucket key)) (fs : FileTree) (operation : Operation) :
    Unaffected tiers bucket key fs (perform tiers bucket own fs operation) := by
  rcases perform_confined tiers bucket own fs operation with unchanged | ⟨tier, root, registered, confined⟩
  · rw [unchanged]
    exact ⟨fun _ _ => Iff.rfl, fun _ => id⟩
  · exact unaffected_of_confined confined fun tier' root' => apart tier tier' root root' registered

theorem entry_empty (named : path ≠ []) : FileTree.empty.entry path = none := by
  simp [FileTree.empty, FileTree.entry, entryIn, named]

theorem unobstructed_empty (named : path ≠ []) : Unobstructed .empty path := by
  refine ⟨named, by simp [entry_empty named], fun above _ data held => ?_⟩
  by_cases root : above = []
  · simp [root] at held
  · simp [entry_empty root] at held

/-- A file that is put where another key goes through or ends is noticed there. -/
theorem put_affects {k₁ k₂ : Bytes} {tier' : Int} {root' : Path} (registered : tiers tier = some root)
    (registered' : tiers tier' = some root') (named : objectPath root bucket k₁ ≠ [])
    (leads : objectPath root bucket k₁ <+: objectPath root' bucket k₂) :
    ∃ operation, ¬ Unaffected tiers bucket k₂ .empty (perform tiers bucket k₁ .empty operation) := by
  have named' : objectPath root' bucket k₂ ≠ [] := fun empty => named (prefix_nil.mp (empty ▸ leads))
  obtain ⟨random, done⟩ := accepts_iff.mpr ⟨root, registered, unobstructed_empty named⟩ (str "x")
  refine ⟨.put ⟨str "x", some .eof⟩ (str "x").length tier random, fun unaffected => ?_⟩
  obtain ⟨_, _, registered'', -, -, entries⟩ := put_ok (Prod.ext done rfl)
  cases registered.symm.trans registered''
  have stored : (perform tiers bucket k₁ .empty (.put ⟨str "x", some .eof⟩ (str "x").length tier random)).entry
      (objectPath root bucket k₁) = some (.file (str "x")) := by
    rw [perform, entries, if_pos rfl]
  by_cases same : objectPath root bucket k₁ = objectPath root' bucket k₂
  · have returned := (unaffected.bytes tier' (str "x")).mp ((get_eq_iff ..).mpr ⟨root', registered', same ▸ stored⟩)
    obtain ⟨_, registered'', held⟩ := (get_eq_iff ..).mp returned
    cases registered'.symm.trans registered''
    rw [entry_empty named'] at held
    cases held
  · obtain ⟨_, registered'', -, -, clear⟩ := accepts_iff.mp
      (unaffected.accepts tier' (accepts_iff.mpr ⟨root', registered', unobstructed_empty named'⟩))
    cases registered'.symm.trans registered''
    refine clear _ ?_ _ stored
    obtain ⟨rest, continued⟩ := leads
    have more : rest ≠ [] := by
      rintro rfl
      exact same (by rw [← continued, append_nil])
    rw [← continued, dropLast_append_of_ne_nil more]
    exact prefix_append _ _

end

/-- Two keys the gateway accepts are isolated exactly if, below any two tiers,
the names of neither are the beginning of the names of the other. -/
theorem isolated_iff (tiers : Tiers) (bucket k₁ k₂ : Bytes) (valid : validateBucketName bucket = true)
    (accepted₁ : validateObjectKey k₁ = true) (accepted₂ : validateObjectKey k₂ = true) :
    Isolated tiers bucket k₁ k₂ ↔ ∀ tier tier' root root', tiers tier = some root → tiers tier' = some root' →
        ¬ Nested (root ++ bucket :: Path.names k₁) (root' ++ bucket :: Path.names k₂) := by
  have path₁ := objectPath_accepted valid accepted₁
  have path₂ := objectPath_accepted valid accepted₂
  constructor
  · rintro isolated tier tier' root root' registered registered' (leads | leads)
    · rw [← path₁, ← path₂] at leads
      obtain ⟨operation, affected⟩ := put_affects registered registered' (by simp [path₁]) leads
      exact affected (isolated .empty [] (by simp) operation).1
    · rw [← path₁, ← path₂] at leads
      obtain ⟨operation, affected⟩ := put_affects registered' registered (by simp [path₂]) leads
      exact affected (isolated .empty [] (by simp) operation).2
  · intro apart fs requests _ operation
    refine ⟨perform_unaffected (fun tier tier' root root' registered registered' => ?_) _ operation,
      perform_unaffected (fun tier tier' root root' registered registered' nested => ?_) _ operation⟩
    · rw [path₁, path₂]
      exact apart tier tier' root root' registered registered'
    · rw [path₁, path₂] at nested
      exact apart tier' tier root' root registered' registered nested.symm

namespace Sample

def tiers : Tiers := fun tier => if tier = tierHot then some [str "hot"] else none

def write (data random : Bytes) : Operation := .put ⟨data, some .eof⟩ data.length tierHot random

/-- The object `photos/a` is stored. -/
def requests : List (Bytes × Operation) := [(str "a", write (str "one") (str "1"))]

end Sample

open Sample

/-- A `PUT` of `a/` replaces the bytes of `a`, and a `PUT` of `a/b` fails as long
as `a` is stored. -/
theorem slash_overwrites : [str "a", str "a/", str "a/b"].all validateObjectKey = true ∧
    Returns tiers (str "photos") (run tiers (str "photos") .empty requests) (str "a") tierHot (str "one") ∧
    Returns tiers (str "photos") (perform tiers (str "photos") (str "a/")
      (run tiers (str "photos") .empty requests) (write (str "two") (str "2"))) (str "a") tierHot
      (str "two") ∧
    ¬ Accepts tiers (str "photos") (run tiers (str "photos") .empty requests) (str "a/b") tierHot ∧
    ¬ Isolated tiers (str "photos") (str "a/") (str "a") := by
  have stored : (run tiers (str "photos") .empty requests).entry [str "hot", str "photos", str "a"] =
      some (.file (str "one")) := by decide +kernel
  unfold Returns
  refine ⟨by decide +kernel, ?_⟩
  refine (fun before after => ⟨before, after, fun accepted => ?_, fun isolated => ?_⟩) (by decide +kernel) (by decide +kernel)
  · obtain ⟨_, registered, -, -, clear⟩ := accepts_iff.mp accepted
    cases registered
    exact clear [str "hot", str "photos", str "a"] (prefix_refl _) _ stored
  · have unaffected := (isolated .empty requests (by simp [requests]) (write (str "two") (str "2"))).1
    have kept := (unaffected.bytes tierHot (str "one")).mpr before
    rw [kept] at after
    revert after
    decide +kernel

/-- Two names in one directory. -/
theorem siblings_isolated : validateBucketName (str "photos") = true ∧ validateObjectKey (str "a") = true ∧
      validateObjectKey (str "b/c") = true ∧ Isolated tiers (str "photos") (str "a") (str "b/c") := by
  have valid : validateBucketName (str "photos") = true := by decide +kernel
  have first : validateObjectKey (str "a") = true := by decide +kernel
  have second : validateObjectKey (str "b/c") = true := by decide +kernel
  refine ⟨valid, first, second, (isolated_iff tiers (str "photos") (str "a") (str "b/c") valid first second).mpr
    fun tier tier' root root' registered registered' => ?_⟩
  have only (tier : Int) (root : Path) (registered : tiers tier = some root) : root = [str "hot"] := by
    unfold tiers at registered
    split at registered
    · exact (Option.some.inj registered).symm
    · cases registered
  rw [only tier root registered, only tier' root' registered', Nested, ← isPrefixOf_iff_prefix,
    ← isPrefixOf_iff_prefix]
  decide +kernel

end CipherLake.KeyIsolation
