import CipherLake.Buckets
import CipherLake.Multipart

/-! What the deletion of a bucket removes. Five tables are purged, each by the
text of its keys or by a field of its records, and the parts by the ids found in
another table. With names that hold no slash, a key begins with a bucket's name
and a slash exactly if it is that bucket's, so nothing of any other bucket is
touched. -/
namespace CipherLake.BucketDeletion
open Lib Metadata Gateway Buckets Multipart List Table

/-- The keys of the tables are laid out as the store writes them: names of
buckets and ids of uploads hold no slash, and no two uploads share an id. -/
structure LaidOut (d : Database) : Prop where
  objects : ∀ e ∈ d.store.objects.entries, ∃ bucket key, (47 : UInt8) ∉ bucket ∧ e.1 = objectKey bucket key
  versions : ∀ e ∈ d.store.versions.entries, ∃ bucket rest, (47 : UInt8) ∉ bucket ∧ e.1 = objectKey bucket rest
  uploads : ∀ e ∈ d.uploads.uploads.entries, (47 : UInt8) ∉ e.2.bucket ∧
    ∃ key, e.1 = uploadKey e.2.bucket key e.2.uploadID
  ids : ∀ e ∈ d.uploads.uploads.entries, e.2.uploadID ≠ [] ∧ (47 : UInt8) ∉ e.2.uploadID
  distinct : ∀ e ∈ d.uploads.uploads.entries, ∀ e' ∈ d.uploads.uploads.entries,
    e.2.uploadID = e'.2.uploadID → e = e'
  parts : ∀ e ∈ d.uploads.parts.entries, ∃ uploadID number, (47 : UInt8) ∉ uploadID ∧
    e.1 = uploadID ++ str "/" ++ number

/-- The bucket that a part is uploaded to. -/
def partBucket (d : Database) (key : Bytes) : Option Bytes :=
  (d.uploads.uploads.entries.find? fun e => e.2.uploadID = home key).map (·.2.bucket)

/-- Exactly what belongs to a bucket is gone. -/
structure Purged (bucket : Bytes) (d after : Database) : Prop where
  buckets : after.store.buckets = d.store.buckets.delete bucket
  objects : ∀ k, after.store.objects.get k = if home k = bucket then none else d.store.objects.get k
  versions : ∀ k, after.store.versions.get k = if home k = bucket then none else d.store.versions.get k
  uploads : ∀ k, after.uploads.uploads.get k = (d.uploads.uploads.get k).filter fun upload => upload.bucket ≠ bucket
  parts : ∀ k, after.uploads.parts.get k = if partBucket d k = some bucket then none else d.uploads.parts.get k
  sessions : ∀ id, after.sessions.get id = (d.sessions.get id).filter fun session => session.bucket ≠ bucket

section

variable {d : Database} {bucket : Bytes}

theorem home_isPrefix (a b : Bytes) : home (a ++ str "/" ++ b) ++ str "/" <+: a ++ str "/" ++ b := by
  rw [home_append]
  have slash : str "/" = [47] := by decide
  rw [slash]
  induction a with
  | nil => exact prefix_append _ _
  | cons c a ih =>
    unfold home at ih ⊢
    by_cases cuts : c = 47
    · simp [cuts]
    · simpa [cuts] using ih

/-- Among the keys that hold a slash, those of a name without one are those that
begin with it and a slash. -/
theorem under_iff {name k : Bytes} (plain : (47 : UInt8) ∉ name) (segmented : ∃ a b, k = a ++ str "/" ++ b) :
    hasPrefix k (name ++ str "/") = true ↔ home k = name := by
  constructor
  · intro under
    rw [home_under under, home_plain plain]
  · rintro rfl
    obtain ⟨a, b, rfl⟩ := segmented
    exact isPrefixOf_iff_prefix.mpr (home_isPrefix a b)

/-- A table loses the keys under a name exactly if it loses those of the name. -/
theorem get_purged {t : Table Bytes β} {name : Bytes} (plain : (47 : UInt8) ∉ name)
    (laidOut : ∀ e ∈ t.entries, ∃ a b, e.1 = a ++ str "/" ++ b) (k : Bytes) :
    ((keysUnder (name ++ str "/") t).foldl Table.delete t).get k = if home k = name then none else t.get k := by
  rw [foldl_keysUnder, get_restrict]
  cases held : t.get k with
  | none => simp
  | some value =>
    have under := under_iff plain (laidOut _ (mem_of_get held))
    by_cases own : home k = name
    · simp [own, under.mpr own]
    · have apart : hasPrefix k (name ++ str "/") = false := by
        rw [Bool.eq_false_iff]
        exact fun has => own (under.mp has)
      simp [own, apart]

theorem get_deleteParts {ids : List Bytes} (plain : ∀ id ∈ ids, (47 : UInt8) ∉ id)
    {parts : Table Bytes UploadPart} (laidOut : ∀ e ∈ parts.entries, ∃ a b, e.1 = a ++ str "/" ++ b) (k : Bytes) :
    (deleteParts ids parts).get k = if home k ∈ ids then none else parts.get k := by
  unfold deleteParts
  induction ids generalizing parts with
  | nil => simp
  | cons id rest ih =>
    obtain ⟨here, others⟩ := forall_mem_cons.mp plain
    have scanned : ((parts.seek (id ++ str "/")).takeWhile fun e => hasPrefix e.1 (id ++ str "/")).map (·.1) =
        keysUnder (id ++ str "/") parts := congrArg (List.map (·.1)) ( seek_prefix parts _)
    rw [foldl_cons, scanned, ih others, get_purged here laidOut]
    · by_cases later : home k ∈ rest
      · simp [later]
      · by_cases first : home k = id
        · simp [first]
        · simp [later, first]
    · intro e member
      rw [foldl_keysUnder] at member
      exact laidOut e (mem_filter.mp member).1

/-- The entries found by a field of their records are the ones deleted. -/
theorem get_deleted {t : Table Bytes β} (chosen : β → Bool) (k : Bytes) :
    (((t.entries.filter fun e => chosen e.2).map (·.1)).foldl Table.delete t).get k =
      (t.get k).filter fun value => !chosen value := by
  rw [foldl_delete, get_restrict]
  cases held : t.get k with
  | none => simp
  | some value =>
    have listed : k ∈ (t.entries.filter fun e => chosen e.2).map (·.1) ↔ chosen value = true := by
      simp only [mem_map, mem_filter]
      constructor
      · rintro ⟨e, ⟨member, has⟩, rfl⟩
        rw [Table.get_of_mem member] at held
        exact Option.some.inj held ▸ has
      · intro has
        exact ⟨_, ⟨mem_of_get held, has⟩, rfl⟩
    cases has : chosen value <;> simp [listed, has, Option.filter]

/-- An upload's key is its bucket's exactly if its record names the bucket. -/
theorem upload_under (laidOut : LaidOut d) (plain : (47 : UInt8) ∉ bucket) {e : Bytes × MultipartUpload}
    (member : e ∈ d.uploads.uploads.entries) : hasPrefix e.1 (bucket ++ str "/") = true ↔ e.2.bucket = bucket := by
  obtain ⟨named, key, laid⟩ := laidOut.uploads e member
  have nested : e.1 = e.2.bucket ++ str "/" ++ (key ++ str "/" ++ e.2.uploadID) := by
    rw [laid, uploadKey]
    simp
  rw [under_iff plain ⟨_, _, nested⟩, nested, home_append, home_plain named]

theorem partBucket_eq_some (laidOut : LaidOut d) {k : Bytes} :
    partBucket d k = some bucket ↔ ∃ e ∈ d.uploads.uploads.entries, e.2.uploadID = home k ∧ e.2.bucket = bucket := by
  unfold partBucket
  rw [Option.map_eq_some_iff]
  constructor
  · rintro ⟨e, found, own⟩
    exact ⟨e, mem_of_find?_eq_some found, by simpa using List.find?_some found, own⟩
  · rintro ⟨e, member, named, own⟩
    cases found : d.uploads.uploads.entries.find? fun e => e.2.uploadID = home k with
    | none => exact absurd named (by simpa using List.find?_eq_none.mp found e member)
    | some other =>
      have same : other.2.uploadID = home k := by simpa using List.find?_some found
      have one := laidOut.distinct other (mem_of_find?_eq_some found) e member (same.trans named.symm)
      exact ⟨other, rfl, one ▸ own⟩

/-- The ids collected from a bucket's uploads are those of its parts. -/
theorem mem_uploadIDs (laidOut : LaidOut d) (plain : (47 : UInt8) ∉ bucket) (k : Bytes) :
    home k ∈ ((d.uploads.uploads.entries.filter fun e => hasPrefix e.1 (bucket ++ str "/")).map
        (·.2.uploadID)).filter (· ≠ []) ↔ partBucket d k = some bucket := by
  rw [partBucket_eq_some laidOut]
  simp only [mem_filter, mem_map, decide_eq_true_eq]
  constructor
  · rintro ⟨⟨e, ⟨member, under⟩, named⟩, -⟩
    exact ⟨e, member, named, (upload_under laidOut plain member).mp under⟩
  · rintro ⟨e, member, named, own⟩
    exact ⟨⟨e, ⟨member, (upload_under laidOut plain member).mpr own⟩, named⟩, named ▸ (laidOut.ids e member).1⟩

theorem get_uploads (laidOut : LaidOut d) (plain : (47 : UInt8) ∉ bucket) (k : Bytes) :
    ((keysUnder (bucket ++ str "/") d.uploads.uploads).foldl Table.delete d.uploads.uploads).get k =
      (d.uploads.uploads.get k).filter fun upload => upload.bucket ≠ bucket := by
  rw [foldl_keysUnder, get_restrict]
  cases held : d.uploads.uploads.get k with
  | none => simp
  | some upload =>
    have under := upload_under laidOut plain (mem_of_get held)
    by_cases own : upload.bucket = bucket
    · simp [own, under.mpr own, Option.filter]
    · have apart : hasPrefix k (bucket ++ str "/") = false := by
        rw [Bool.eq_false_iff]
        exact fun has => own (under.mp has)
      simp [own, apart, Option.filter]

end

/-- A deletion that fails changes nothing, and one that succeeds removes the
bucket and exactly what belongs to it. -/
theorem deleteBucket_exact (env : Env) {d : Database} (laidOut : LaidOut d) {bucket : Bytes}
    (plain : (47 : UInt8) ∉ bucket) :
    (∀ e, env.dbFault = some e → deleteBucket env d bucket = (.error (.failed e), d)) ∧
      (env.dbFault = none → (deleteBucket env d bucket).1 = .ok () ∧
        Purged bucket d (deleteBucket env d bucket).2) := by
  unfold deleteBucket
  constructor
  · intro e failing
    simp only [failing]
  · intro working
    simp only [working]
    refine ⟨trivial, rfl, ?_, ?_, get_uploads laidOut plain, ?_, ?_⟩
    · apply get_purged plain
      intro e member
      obtain ⟨owner, key, -, laid⟩ := laidOut.objects e member
      exact ⟨owner, key, laid⟩
    · apply get_purged plain
      intro e member
      obtain ⟨owner, rest, -, laid⟩ := laidOut.versions e member
      exact ⟨owner, rest, laid⟩
    · intro k
      rw [get_deleteParts]
      · simp only [mem_uploadIDs laidOut plain]
      · intro id listed
        obtain ⟨e, chosen, rfl⟩ := mem_map.mp (mem_filter.mp listed).1
        exact (laidOut.ids e (mem_filter.mp chosen).1).2
      · intro e member
        obtain ⟨uploadID, number, -, laid⟩ := laidOut.parts e member
        exact ⟨uploadID, number, laid⟩
    · intro id
      have deleted := get_deleted (t := d.sessions) (fun session => decide (session.bucket = bucket)) id
      simpa only [ne_eq, decide_not] using deleted

namespace Sample

def record (key : Bytes) : ObjectMetadata :=
  ⟨key, [], 0, [], [], [], [], [], 0, 0, 0, false, [], [], true, false, false, [], [], none⟩

def upload (bucket uploadID : Bytes) : MultipartUpload := ⟨uploadID, bucket, str "photos", 0, 0, [], [], false⟩

/-- Two buckets, the name of one a beginning of the other's, with an object and
an upload with one part each. The key of both uploads is the first one's name. -/
def database : Database where
  store := {
    objects := ⟨[(str "photos/a", record (str "a")), (str "photos2/a", record (str "a"))], by decide⟩
    buckets := ⟨[(str "photos", blankInfo), (str "photos2", blankInfo)], by decide⟩
    versions := Table.empty }
  uploads := {
    uploads := ⟨[(str "photos/photos/41", upload (str "photos") (str "41")),
      (str "photos2/photos/42", upload (str "photos2") (str "42"))], by decide⟩
    parts := ⟨[(str "41/1", ⟨1, [], 0, [], 0⟩), (str "42/1", ⟨1, [], 0, [], 0⟩)], by decide⟩ }
  sessions := Table.empty

theorem laidOut : LaidOut database where
  objects := by
    intro e member
    rcases mem_pair.mp member with rfl | rfl
    · exact ⟨str "photos", str "a", by decide, by decide⟩
    · exact ⟨str "photos2", str "a", by decide, by decide⟩
  versions := fun e member => absurd member not_mem_nil
  uploads := by
    intro e member
    rcases mem_pair.mp member with rfl | rfl <;> exact ⟨by decide, str "photos", by decide⟩
  ids := by decide
  distinct := by decide
  parts := by
    intro e member
    rcases mem_pair.mp member with rfl | rfl
    · exact ⟨str "41", str "1", by decide, by decide⟩
    · exact ⟨str "42", str "1", by decide, by decide⟩

end Sample

theorem photos_purged : Purged (str "photos") Sample.database
    (deleteBucket ⟨[], 0, none, none⟩ Sample.database (str "photos")).2 :=
  ((deleteBucket_exact ⟨[], 0, none, none⟩ Sample.laidOut (by decide)).2 rfl).2

end CipherLake.BucketDeletion
