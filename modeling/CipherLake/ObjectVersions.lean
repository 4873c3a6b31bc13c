import CipherLake.MetadataInterface

/-! The version records of an object are kept under `bucket/key/versionID` and are
found by a scan under `bucket/key/`. So the bytes of the names alone decide whose
records a removal and a listing of versions meet. -/
namespace CipherLake.Metadata
open Lib List

section
variable (s : Store) (bucket key : Bytes)

/-- What a scan for the versions of an object starts with. -/
def versionsOf : Bytes := objectKey bucket key ++ str "/"

theorem versionsOf_isPrefixOf (other versionID : Bytes) :
    (versionsOf bucket key).isPrefixOf (versionKey bucket other versionID) = true ↔
      key ++ str "/" <+: other ++ str "/" ++ versionID := by
  simp [versionsOf, versionKey, objectKey, isPrefixOf_iff_prefix, prefix_append_right_inj]

/-- A removal that finds the object takes away all that is under its name. -/
theorem deleteObject_versions (env : Env) (k : Bytes) : (deleteObject env s bucket key).2.versions.get k =
      if env.dbFault = none ∧ s.objects.get (objectKey bucket key) ≠ none ∧ (versionsOf bucket key).isPrefixOf k = true
      then none else s.versions.get k := by
  unfold deleteObject
  cases env.dbFault with
  | some e => simp
  | none =>
    cases s.objects.get (objectKey bucket key) with
    | none => simp
    | some m =>
      have gone := congrArg (Table.get · k) (Buckets.foldl_keysUnder (versionsOf bucket key) s.versions)
      simp only [Buckets.keysUnder, foldl_map, Table.get_restrict, hasPrefix] at gone
      simp only [ Table.seek_prefix]
      refine gone.trans ?_
      cases (versionsOf bucket key).isPrefixOf k <;> simp

theorem listObjectVersions_eq (maxVersions : Int) : listObjectVersions s bucket key maxVersions =
      ((s.versions.restrict (versionsOf bucket key).isPrefixOf).entries.map (·.2)).take maxVersions.toNat :=
  congrArg (fun visited => (visited.map (·.2)).take maxVersions.toNat) ( Table.seek_prefix s.versions _)

/-- A record that a listing passes over is missed there when it is gone. -/
theorem listObjectVersions_without {k : Bytes} {record : ObjectMetadata} (held : s.versions.get k = some record) :
    (∀ maxVersions, listObjectVersions s bucket key maxVersions =
        listObjectVersions { s with versions := s.versions.delete k } bucket key maxVersions) ↔
      ¬ (versionsOf bucket key).isPrefixOf k = true := by
  have without : (s.versions.delete k).restrict (versionsOf bucket key).isPrefixOf =
      (s.versions.restrict (versionsOf bucket key).isPrefixOf).delete k := by
    simp only [Table.delete, Table.restrict, filter_filter, Bool.and_comm]
  have passed := Table.get_restrict (versionsOf bucket key).isPrefixOf s.versions k
  simp only [listObjectVersions_eq, without]
  generalize s.versions.restrict (versionsOf bucket key).isPrefixOf = visited at passed ⊢
  constructor
  · intro same under
    rw [if_pos under, held] at passed
    have shorter : (visited.delete k).entries.length < visited.entries.length :=
      length_filter_lt_length_iff_exists.mpr ⟨_, Table.mem_of_get passed, by simp⟩
    have lengths := congrArg length (same visited.entries.length)
    simp only [length_take, length_map, Int.toNat_natCast] at lengths
    omega
  · intro apart maxVersions
    rw [if_neg apart] at passed
    have unchanged : visited.delete k = visited := Table.ext_get fun other => by
      by_cases same : k = other
      · rw [← same, Table.get_delete_same, passed]
      · exact Table.get_delete_ne visited same
    rw [unchanged]

end

/-- A version record of one object outlives the removal of another object, and takes
no part in the listings of its versions, exactly if the name of the record is not under
the name of that object: no key that continues it with a slash, and no version id that
does so. -/
theorem versions_apart_iff (env : Env) (s : Store) {bucket key other versionID : Bytes} {record : ObjectMetadata}
    (written : getObjectVersion s bucket other versionID = .ok record) :
    (getObjectVersion (deleteObject env s bucket key).2 bucket other versionID = .ok record ↔
      env.dbFault ≠ none ∨ s.objects.get (objectKey bucket key) = none ∨
        ¬ key ++ str "/" <+: other ++ str "/" ++ versionID) ∧
    ((∀ maxVersions, listObjectVersions s bucket key maxVersions =
        listObjectVersions { s with versions := s.versions.delete (versionKey bucket other versionID) } bucket key
          maxVersions) ↔
      ¬ key ++ str "/" <+: other ++ str "/" ++ versionID) := by
  have held : s.versions.get (versionKey bucket other versionID) = some record := by
    unfold getObjectVersion at written
    split at written
    · cases written
    · next m found =>
      rw [found, Except.ok.inj written]
  rw [← versionsOf_isPrefixOf bucket]
  refine ⟨?_, listObjectVersions_without s bucket key held⟩
  rw [getObjectVersion, deleteObject_versions, held]
  split_ifs with removed
  · simpa using removed
  · simp only [true_iff]
    tauto

namespace Sample

def env : Env := ⟨str "v1", 1, none, none⟩

def record : ObjectMetadata :=
  ⟨[], [], 0, [], [], [], [], [], 0, 0, 0, false, [], [], true, false, false, [], [], none⟩

/-- An object `a`, and a version of the object `other`. -/
def store (other : Bytes) : Store :=
  (putObjectVersion env (putObject env ⟨.empty, .empty, .empty⟩ (str "b") (str "a") record).2 (str "b") other record).2

end Sample

open Sample

/-- The removal of `a` takes a version of `a/b` with it. -/
theorem nested_version_removed :
    (getObjectVersion (store (str "a/b")) (str "b") (str "a/b") (str "v1")).toOption.isSome = true ∧
    getObjectVersion (deleteObject env (store (str "a/b")) (str "b") (str "a")).2 (str "b") (str "a/b")
      (str "v1") = .error (.failed (str "version not found")) ∧
    (listObjectVersions (store (str "a/b")) (str "b") (str "a") 1).length = 1 := by
  decide +kernel

theorem sibling_version_kept :
    ∃ record, getObjectVersion (deleteObject env (store (str "ab")) (str "b") (str "a")).2 (str "b")
      (str "ab") (str "v1") = .ok record :=
  ⟨_, (versions_apart_iff env (store (str "ab")) rfl).1.mpr (.inr (.inr (by decide +kernel)))⟩

end CipherLake.Metadata
