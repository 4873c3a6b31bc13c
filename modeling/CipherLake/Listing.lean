import CipherLake.Metadata
import CipherLake.Lib.GoStrings

/-! `ListObjectsV2`, and the enumeration a client makes of it by following
continuation tokens. Every page is cut out of the same first entries under the
prefix, so what the pages add up to depends on one fetch. -/
namespace CipherLake.Listing
open Lib Metadata List

/-- `StorageTier.String`. -/
def tierName (tier : Int) : Bytes :=
  if tier = 0 then str "HOT" else if tier = 1 then str "WARM" else if tier = 2 then str "COLD"
  else if tier = 3 then str "ARCHIVE" else str "UNKNOWN"

structure Content where
  key : Bytes
  lastModified : Time
  etag : Bytes
  size : Int
  (storageClass ownerID ownerDisplayName : Bytes)
  deriving DecidableEq, Repr

def objectListContent (obj : ObjectMetadata) : Content :=
  { key := obj.key
    lastModified := obj.modifiedAt
    etag := obj.etag
    size := obj.size
    storageClass := tierName obj.storageTier
    ownerID := str "cipherlake-owner"
    ownerDisplayName := str "cipherlake-owner" }

def commonPrefixForObject (key pre delimiter : Bytes) : Option Bytes :=
  if delimiter = [] ∨ ¬ hasPrefix key pre then none
  else (index (key.drop pre.length) delimiter).map fun idx =>
    key.take (pre.length + idx + delimiter.length)

structure ListObjectsV2Output where
  (name keyPrefix startAfter continuationToken : Bytes)
  keyCount : Nat
  maxKeys : Int
  delimiter : Bytes
  isTruncated : Bool
  nextContinuationToken : Bytes
  contents : List Content
  commonPrefixes : List Bytes
  deriving DecidableEq, Repr

/-- The loop that keeps what follows the object named `mark`. -/
def keepAfter (mark : Bytes) : (passed : Bool) → List ObjectMetadata → List ObjectMetadata
  | _, [] => []
  | passed, obj :: rest =>
    if obj.key = mark then keepAfter mark true rest
    else if passed then obj :: keepAfter mark passed rest
    else keepAfter mark passed rest

def handleListObjectsV2 (s : Store) (bucket pre delimiter : Bytes) (maxKeys : Int)
    (startAfter continuationToken : Bytes) : ListObjectsV2Output :=
  let objects := listObjects s bucket pre (int64 (maxKeys + 1))
  let objects :=
    if startAfter ≠ [] then keepAfter startAfter false objects
    else if continuationToken ≠ [] then keepAfter continuationToken false objects
    else objects
  let isTruncated := decide ((objects.length : Int) > maxKeys)
  let objects := if isTruncated then objects.take maxKeys.toNat else objects
  let grouped := objects.map fun obj => (obj, commonPrefixForObject obj.key pre delimiter)
  let contents := grouped.filterMap fun g => if g.2.isNone then some (objectListContent g.1) else none
  { name := bucket
    keyPrefix := pre
    startAfter
    continuationToken
    keyCount := objects.length
    maxKeys
    delimiter
    isTruncated
    nextContinuationToken :=
      if isTruncated then ((contents.getLast?).map (·.key)).getD [] else []
    contents
    commonPrefixes := grouped.filterMap (·.2) }

/-- The live entries of a bucket whose keys start with the prefix, in key
order. -/
def liveEntries (s : Store) (bucket pre : Bytes) : List (Bytes × ObjectMetadata) :=
  s.objects.entries.filter fun e => (objectKey bucket pre).isPrefixOf e.1 && live e.2

/-- Every record lies under a bucket name without a slash and carries its own,
nonempty key, as JSON gives it back. -/
def Keyed (s : Store) : Prop :=
  ∀ e ∈ s.objects.entries, ∃ bucket key, (47 : UInt8) ∉ bucket ∧ key ≠ [] ∧ e.1 = objectKey bucket key ∧
    e.2.key = jsonString key

variable {s : Store} {bucket key pre : Bytes} {maxKeys : Int} {kept : List ObjectMetadata} {last : ObjectMetadata}
  {keys : List Bytes}

theorem collect_eq (searchPrefix : Bytes) (maxKeys count : Int) (entries : List (Bytes × ObjectMetadata)) :
    collect searchPrefix maxKeys count entries =
      (((entries.takeWhile fun e => searchPrefix.isPrefixOf e.1).filter (live ·.2)).map (·.2)).take
        (maxKeys - count).toNat := by
  induction entries generalizing count with
  | nil => simp [collect]
  | cons entry rest ih =>
    obtain ⟨k, m⟩ := entry
    unfold collect
    by_cases full : count < maxKeys
    · by_cases has : searchPrefix.isPrefixOf k = true
      · by_cases alive : live m = true
        · have room : (maxKeys - count).toNat = (maxKeys - (count + 1)).toNat + 1 := by omega
          simp [full, has, alive, ih, room]
        · simp [full, has, alive, ih]
      · simp [full, has]
    · have none_left : (maxKeys - count).toNat = 0 := by omega
      simp [full, none_left]

/-- One fetch is the first live records under the prefix. -/
theorem listObjects_eq (s : Store) (bucket pre : Bytes) (maxKeys : Int) :
    listObjects s bucket pre maxKeys = ((liveEntries s bucket pre).map (·.2)).take maxKeys.toNat := by
  rw [listObjects, collect_eq, Table.seek_prefix, filter_filter, Int.sub_zero, liveEntries]
  simp only [Bool.and_comm]

variable (fuel : Nat) {token : Bytes} {extra : ObjectMetadata} (mark : Bytes) (objects : List ObjectMetadata)

namespace Sample

/-- An object as the gateway records it, with only its name set. -/
def named (key : Bytes) : ObjectMetadata :=
  { key, bucket := str "b", size := 1, contentType := [], etag := [], checksum := [], checksumType := []
    userMetadata := [], storageTier := 0, createdAt := 0, modifiedAt := 0, encrypted := false
    encryptedDEK := [], versionID := [], isLatest := false, deleteMarker := false, ssecUsed := false
    ssecKeySHA256 := [], ssecAlgorithm := [], retainUntil := none }

/-- The store after writes of the given keys into one bucket. -/
def stored (keys : List Bytes) : Store :=
  keys.foldl (fun s key => (putObject ⟨str "v", 1, none, none⟩ s (str "b") key (named key)).2)
    ⟨Table.empty, Table.empty, Table.empty⟩

end Sample

end CipherLake.Listing
