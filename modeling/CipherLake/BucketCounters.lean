import CipherLake.Buckets
import CipherLake.Lib.Runs

/-! The counters of a bucket against the records in the objects table. A record
belongs to every bucket whose name and a slash begin its key, and a write is
counted in the one bucket it names. The counters are right as long as these are
the same. -/
namespace CipherLake.BucketCounters
open Lib Metadata Buckets Table Option

/-! ### Runs -/

/-- A bucket's record with both counters at zero. -/
structure NewBucket where
  info : BucketInfo
  noObjects : info.objectCount = 0
  noSize : info.totalSize = 0

inductive Operation where
  | createBucket (env : Env) (bucket : Bytes) (info : Option NewBucket)
  | putObject (env : Env) (bucket key : Bytes) (m : ObjectMetadata)
  | deleteObject (env : Env) (bucket key : Bytes)
  | deleteBucket (env : Env) (bucket : Bytes)

def perform (d : Database) : Operation → Database
  | .createBucket env bucket info =>
    { d with store := (createBucket env d.store bucket (info.map (·.info))).2 }
  | .putObject env bucket key m => { d with store := (putObject env d.store bucket key m).2 }
  | .deleteObject env bucket key => { d with store := (deleteObject env d.store bucket key).2 }
  | .deleteBucket env bucket => (deleteBucket env d bucket).2

def next (d : Database) (operation : Operation) : Option Database := some (perform d operation)

/-- A new database. -/
def empty : Database := ⟨⟨.empty, .empty, .empty⟩, ⟨.empty, .empty⟩, .empty⟩

/-- The keys of a bucket's records. -/
def belongs (bucket : Bytes) (at_ : Bytes) : Bool := hasPrefix at_ (bucket ++ str "/")

def entriesOf (objects : Table Bytes ObjectMetadata) (bucket : Bytes) : List (Bytes × ObjectMetadata) :=
  objects.entries.filter fun e => belongs bucket e.1

def sizeOf (objects : Table Bytes ObjectMetadata) (bucket : Bytes) : Int :=
  ((entriesOf objects bucket).map (·.2.size)).sum

/-- The counters of one bucket are right. -/
structure Exact (objects : Table Bytes ObjectMetadata) (bucket : Bytes) (info : BucketInfo) : Prop where
  count : info.objectCount = (entriesOf objects bucket).length
  size : info.totalSize = sizeOf objects bucket

def Accounted (d : Database) : Prop :=
  ∀ bucket info, d.store.buckets.get bucket = some info → Exact d.store.objects bucket info

/-- With the record in place the bucket would hold more than it may. -/
def OverQuota (s : Store) (bucket key : Bytes) (m : ObjectMetadata) : Prop :=
  ∃ info quota, s.buckets.get bucket = some info ∧ info.quota = some quota ∧
    (0 < quota.maxObjects ∧
        quota.maxObjects < (entriesOf (s.objects.put (objectKey bucket key) m) bucket).length ∨
      0 < quota.maxSizeBytes ∧
        quota.maxSizeBytes < sizeOf (s.objects.put (objectKey bucket key) m) bucket)

/-- What exceeds a quota is not written. -/
def QuotaKept (d : Database) : Operation → Prop
  | .putObject env bucket key m => OverQuota d.store bucket key m →
      (perform d (.putObject env bucket key m)).store.objects = d.store.objects ∧
        (perform d (.putObject env bucket key m)).store.buckets = d.store.buckets
  | _ => True

/-- A number the source can hold in an `int64`. -/
def Representable (n : Int) : Prop := -2 ^ 63 ≤ n ∧ n < 2 ^ 63

/-- The condition on one operation. A bucket is made before its records are, a
record belongs to no other bucket than the one named, unless it replaces one of
the same size, and the totals are numbers that are neither negative after a
removal nor too large. -/
def Attributed (d : Database) : Operation → Prop
  | .createBucket env bucket _ =>
    bucket ≠ [] → env.dbFault = none → d.store.buckets.get bucket = none → entriesOf d.store.objects bucket = []
  | .putObject env bucket key m => ¬ Refused env d.store bucket key m →
    (d.store.buckets.get bucket ≠ none →
      Representable (entriesOf (d.store.objects.put (objectKey bucket key) m) bucket).length ∧
        Representable (sizeOf (d.store.objects.put (objectKey bucket key) m) bucket)) ∧
    ∀ other, other ≠ bucket → d.store.buckets.get other ≠ none → belongs other (objectKey bucket key) = true →
      (d.store.objects.get (objectKey bucket key)).map (·.size) = some m.size
  | .deleteObject env bucket key => ∀ m, env.dbFault = none →
    d.store.objects.get (objectKey bucket key) = some m →
    (d.store.buckets.get bucket ≠ none →
      0 ≤ sizeOf d.store.objects bucket - m.size ∧ Representable (sizeOf d.store.objects bucket - m.size)) ∧
    ∀ other, other ≠ bucket → d.store.buckets.get other ≠ none → belongs other (objectKey bucket key) = false
  | .deleteBucket env bucket => env.dbFault = none →
    ∀ other, other ≠ bucket → d.store.buckets.get other ≠ none →
      ∀ e ∈ entriesOf d.store.objects bucket, belongs other e.1 = false

/-! ### Counting -/

theorem int64_eq_iff (n : Int) : int64 n = n ↔ Representable n := by
  constructor
  · intro same
    have low := @Int.le_bmod n (2 ^ 64) (by decide)
    have high := @Int.bmod_lt n (2 ^ 64) (by decide)
    rw [int64] at same
    exact ⟨by omega, by omega⟩
  · rintro ⟨low, high⟩
    exact int64_of_small low high

theorem representable_int64 (n : Int) : Representable (int64 n) := by
  have low := @Int.le_bmod n (2 ^ 64) (by decide)
  have high := @Int.bmod_lt n (2 ^ 64) (by decide)
  exact ⟨by unfold int64; omega, by unfold int64; omega⟩

theorem belongs_objectKey (bucket key : Bytes) : belongs bucket (objectKey bucket key) = true :=
  hasPrefix_append _ _

theorem length_entriesOf (objects : Table Bytes ObjectMetadata) (bucket : Bytes) :
    ((entriesOf objects bucket).length : Int) = objects.tally (belongs bucket) fun _ => 1 := by
  simp [entriesOf, Table.tally]

theorem sizeOf_eq (objects : Table Bytes ObjectMetadata) (bucket : Bytes) :
    sizeOf objects bucket = objects.tally (belongs bucket) (·.size) := rfl

section
variable {objects : Table Bytes ObjectMetadata} {bucket other at_ : Bytes} {info : BucketInfo}
  {record m : ObjectMetadata}

/-- A write leaves another bucket's counters right if it does not reach it, or
replaces a record of the same size. -/
theorem exact_put_other (exact_ : Exact objects other info) : Exact (objects.put at_ record) other info ↔
      (belongs other at_ = true → (objects.get at_).map (·.size) = some record.size) := by
  obtain ⟨count, size⟩ := exact_
  rw [length_entriesOf] at count
  rw [sizeOf_eq] at size
  constructor
  · rintro ⟨count', size'⟩ reached
    rw [length_entriesOf, tally_put, if_pos reached] at count'
    rw [sizeOf_eq, tally_put, if_pos reached] at size'
    cases previous : objects.get at_ with
    | none =>
      simp only [previous, map_none, getD_none] at count'
      omega
    | some old =>
      simp only [previous, map_some, getD_some] at size' ⊢
      congr 1
      omega
  · intro replaced
    refine ⟨?_, ?_⟩
    · rw [length_entriesOf, tally_put, count]
      split
      · next reached =>
        obtain ⟨old, previous, -⟩ := map_eq_some_iff.mp (replaced reached)
        simp [previous]
      · omega
    · rw [sizeOf_eq, tally_put, size]
      split
      · next reached =>
        obtain ⟨old, previous, same⟩ := map_eq_some_iff.mp (replaced reached)
        simp [previous, same]
      · omega

/-- A write is counted right in its own bucket if the numbers can be held. -/
theorem exact_put_own (exact_ : Exact objects bucket info) (ranged : Representable info.objectCount) (key : Bytes)
    (same : record.size = m.size) :
    Exact (objects.put (objectKey bucket key) record) bucket (counted info (objects.get (objectKey bucket key)) m) ↔
      Representable (entriesOf (objects.put (objectKey bucket key) m) bucket).length ∧
        Representable (sizeOf (objects.put (objectKey bucket key) m) bucket) := by
  obtain ⟨count, size⟩ := exact_
  have own := belongs_objectKey bucket key
  generalize objectKey bucket key = place at own ⊢
  have countAfter (value : ObjectMetadata) :
      ((entriesOf (objects.put place value) bucket).length : Int) =
        info.objectCount + if (objects.get place).isNone then 1 else 0 := by
    rw [length_entriesOf, tally_put, if_pos own, count, length_entriesOf]
    cases objects.get place <;> simp
  have sizeAfter (value : ObjectMetadata) : sizeOf (objects.put place value) bucket =
      info.totalSize + (value.size - ((objects.get place).map (·.size)).getD 0) := by
    rw [sizeOf_eq, tally_put, if_pos own, size, sizeOf_eq]
  have countRight : (counted info (objects.get place) m).objectCount =
      (entriesOf (objects.put place record) bucket).length ↔
        Representable (entriesOf (objects.put place m) bucket).length := by
    rw [countAfter, countAfter, counted]
    cases objects.get place with
    | none => exact int64_eq_iff _
    | some old => simp [ranged]
  have sizeRight : (counted info (objects.get place) m).totalSize =
      sizeOf (objects.put place record) bucket ↔
        Representable (sizeOf (objects.put place m) bucket) := by
    rw [sizeAfter, sizeAfter, same, counted]
    simp only [int64, Int.add_bmod_bmod]
    exact int64_eq_iff _
  rw [← countRight, ← sizeRight]
  exact ⟨fun ⟨countHeld, sizeHeld⟩ => ⟨countHeld, sizeHeld⟩, fun ⟨countHeld, sizeHeld⟩ => ⟨countHeld, sizeHeld⟩⟩

theorem exact_delete_other (exact_ : Exact objects other info) (present : objects.get at_ = some m) :
    Exact (objects.delete at_) other info ↔ belongs other at_ = false := by
  obtain ⟨count, size⟩ := exact_
  rw [length_entriesOf] at count
  rw [sizeOf_eq] at size
  constructor
  · rintro ⟨count', -⟩
    rw [length_entriesOf, tally_delete, present] at count'
    by_contra reached
    rw [Bool.not_eq_false] at reached
    simp only [reached, if_true, map_some, getD_some] at count'
    omega
  · intro apart
    refine ⟨?_, ?_⟩
    · rw [length_entriesOf, tally_delete, apart, count]
      simp
    · rw [sizeOf_eq, tally_delete, apart, size]
      simp

theorem exact_delete_own (exact_ : Exact objects bucket info) (ranged : Representable info.objectCount) (key : Bytes)
    (present : objects.get (objectKey bucket key) = some m) :
    Exact (objects.delete (objectKey bucket key)) bucket (discounted info m) ↔
      0 ≤ sizeOf objects bucket - m.size ∧ Representable (sizeOf objects bucket - m.size) := by
  obtain ⟨count, size⟩ := exact_
  have own := belongs_objectKey bucket key
  generalize objectKey bucket key = place at own present ⊢
  have counts : ((entriesOf (objects.delete place) bucket).length : Int) = info.objectCount - 1 := by
    rw [length_entriesOf, tally_delete, if_pos own, present, count, length_entriesOf]
    rfl
  have sizes : sizeOf (objects.delete place) bucket = info.totalSize - m.size := by
    rw [sizeOf_eq, tally_delete, if_pos own, present, size, sizeOf_eq]
    rfl
  have countRight : (discounted info m).objectCount =
      (entriesOf (objects.delete place) bucket).length := by
    have within : Representable (info.objectCount - 1) := by
      obtain ⟨-, _⟩ := ranged
      exact ⟨by omega, by omega⟩
    rw [counts, discounted, (int64_eq_iff _).mpr within]
    simp only
    omega
  have sizeRight : (discounted info m).totalSize = sizeOf (objects.delete place) bucket ↔
      0 ≤ sizeOf objects bucket - m.size ∧ Representable (sizeOf objects bucket - m.size) := by
    rw [sizes, ← size, ← int64_eq_iff, discounted]
    simp only
    generalize info.totalSize - m.size = left
    constructor
    · intro clamped
      refine ⟨by omega, ?_⟩
      by_cases nothing : left = 0
      · rw [nothing]
        rfl
      · omega
    · rintro ⟨_, _⟩
      omega
  rw [← sizeRight]
  exact ⟨fun ⟨_, sizeHeld⟩ => sizeHeld, fun sizeHeld => ⟨countRight, sizeHeld⟩⟩

/-- Clearing one bucket leaves another's counters right if they share no
record. -/
theorem exact_restrict (bucket : Bytes) (exact_ : Exact objects other info) :
    Exact (objects.restrict fun k => !belongs bucket k) other info ↔
      ∀ e ∈ entriesOf objects bucket, belongs other e.1 = false := by
  have left : entriesOf (objects.restrict fun k => !belongs bucket k) other =
      (entriesOf objects other).filter fun e => !belongs bucket e.1 := by
    simp only [entriesOf, Table.restrict, List.filter_filter, Bool.and_comm]
  have unshared : (∀ e ∈ entriesOf objects bucket, belongs other e.1 = false) ↔
      ∀ e ∈ entriesOf objects other, (!belongs bucket e.1) = true := by
    simp only [entriesOf, List.mem_filter]
    constructor
    · rintro apart e ⟨member, here⟩
      by_contra both
      rw [Bool.not_eq_true, Bool.not_eq_false'] at both
      exact Bool.false_ne_true ((apart e ⟨member, both⟩).symm.trans here)
    · rintro apart e ⟨member, here⟩
      by_contra both
      rw [Bool.not_eq_false] at both
      simpa [here] using apart e ⟨member, both⟩
  rw [unshared]
  constructor
  · rintro ⟨count, -⟩
    rw [exact_.count, left] at count
    exact List.length_filter_eq_length_iff.mp (Int.ofNat_inj.mp count.symm)
  · intro apart
    have whole := List.filter_eq_self.mpr apart
    refine ⟨?_, ?_⟩
    · rw [left, whole, exact_.count]
    · rw [sizeOf, left, whole, exact_.size, sizeOf]

end

/-! ### One operation -/

/-- The number of objects fits its counter. -/
def Ranged (d : Database) : Prop :=
  ∀ bucket info, d.store.buckets.get bucket = some info → Representable info.objectCount

variable {d : Database} {versions : Table Bytes ObjectMetadata}

/-- The counters after one bucket's record was written. -/
theorem accounted_put_iff {objects : Table Bytes ObjectMetadata} {bucket : Bytes} {info : BucketInfo} :
    Accounted { d with store := ⟨objects, d.store.buckets.put bucket info, versions⟩ } ↔ Exact objects bucket info ∧
        ∀ other found, other ≠ bucket → d.store.buckets.get other = some found → Exact objects other found := by
  constructor
  · intro accounted
    refine ⟨accounted bucket info (get_put_same _ _ _), fun other found apart held => ?_⟩
    exact accounted other found ((get_put_ne _ _ (Ne.symm apart)).trans held)
  · rintro ⟨own, others⟩ other found held
    by_cases same : other = bucket
    · subst same
      cases (get_put_same _ _ _).symm.trans held
      exact own
    · exact others other found same ((get_put_ne _ _ (Ne.symm same)).symm.trans held)

section
variable (accounted : Accounted d)
include accounted

theorem createBucket_accounted_iff (env : Env) (bucket : Bytes) (info : Option NewBucket) :
    Accounted (perform d (.createBucket env bucket info)) ↔ Attributed d (.createBucket env bucket info) := by
  simp only [perform, Attributed]
  rcases createBucket_cases env d.store bucket (info.map (·.info)) with ⟨_, refused, reason⟩ | ⟨made, named, open_, new⟩
  · rw [refused]
    refine ⟨fun _ named open_ new => ?_, fun _ => accounted⟩
    rcases reason with unnamed | failing | present
    · exact absurd unnamed named
    · exact absurd open_ failing
    · exact absurd new present
  · rw [made, accounted_put_iff]
    have zero : ((info.map (·.info)).getD blankInfo).decoded.objectCount = 0 ∧
        ((info.map (·.info)).getD blankInfo).decoded.totalSize = 0 := by
      cases info with
      | none => exact ⟨rfl, rfl⟩
      | some given => exact ⟨given.noObjects, given.noSize⟩
    constructor
    · rintro ⟨own, -⟩ - - -
      have none_ := own.count
      exact List.length_eq_zero_iff.mp (by omega)
    · intro clear
      refine ⟨⟨?_, ?_⟩, fun other found _ held => accounted other found held⟩
      · rw [zero.1, clear named open_ new]
        rfl
      · rw [zero.2, sizeOf, clear named open_ new]
        rfl

/-- Where another bucket exists, the state of its counters can be read off its
record. -/
private theorem others_iff {objects : Table Bytes ObjectMetadata} {bucket : Bytes} {reaches : Bytes → Prop}
    (each : ∀ other found, Exact d.store.objects other found → (Exact objects other found ↔ reaches other)) :
    (∀ other found, other ≠ bucket → d.store.buckets.get other = some found → Exact objects other found) ↔
      ∀ other, other ≠ bucket → d.store.buckets.get other ≠ none → reaches other := by
  constructor
  · intro others other apart present
    obtain ⟨found, held⟩ := ne_none_iff_exists'.mp present
    exact (each other found (accounted other found held)).mp (others other found apart held)
  · intro others other found apart held
    exact (each other found (accounted other found held)).mpr (others other apart (by simp [held]))

/-- The counters where a bucket may or may not be there. -/
private theorem accounted_update_iff {objects : Table Bytes ObjectMetadata} {bucket : Bytes}
    {update : BucketInfo → BucketInfo} {own : Prop} {reaches : Bytes → Prop}
    (ownRight : ∀ info, d.store.buckets.get bucket = some info → (Exact objects bucket (update info) ↔ own))
    (each : ∀ other found, Exact d.store.objects other found → (Exact objects other found ↔ reaches other)) :
    Accounted { d with store := ⟨objects, match d.store.buckets.get bucket with
        | none => d.store.buckets
        | some info => d.store.buckets.put bucket (update info), versions⟩ } ↔
      (d.store.buckets.get bucket ≠ none → own) ∧
        ∀ other, other ≠ bucket → d.store.buckets.get other ≠ none → reaches other := by
  rw [← others_iff accounted each]
  cases held : d.store.buckets.get bucket with
  | some info =>
    rw [accounted_put_iff, ownRight info held]
    simp
  | none =>
    constructor
    · intro after
      exact ⟨fun present => absurd rfl present, fun other found _ present => after other found present⟩
    · rintro ⟨-, others⟩ other found present
      refine others other found ?_ present
      rintro rfl
      exact some_ne_none _ (present.symm.trans held)

theorem putObject_accounted_iff (ranged : Ranged d) (env : Env) (bucket key : Bytes) (m : ObjectMetadata) :
    Accounted (perform d (.putObject env bucket key m)) ↔ Attributed d (.putObject env bucket key m) := by
  simp only [perform, Attributed]
  rcases putObject_spec env d.store bucket key m with ⟨refused, _, eq⟩ | ⟨granted, eq⟩
  · rw [eq]
    exact ⟨fun _ granted => absurd refused granted, fun _ => accounted⟩
  · rw [eq]
    simp only [granted, not_false_eq_true, true_imp_iff, countedBuckets]
    exact accounted_update_iff accounted
      (fun info held => exact_put_own (accounted bucket info held) (ranged bucket info held) key rfl)
      (fun other found exact_ => exact_put_other exact_)

theorem deleteObject_accounted_iff (ranged : Ranged d) (env : Env) (bucket key : Bytes) :
    Accounted (perform d (.deleteObject env bucket key)) ↔ Attributed d (.deleteObject env bucket key) := by
  simp only [perform, Attributed, deleteObject]
  cases env.dbFault with
  | some e => simp [accounted]
  | none =>
    cases present : d.store.objects.get (objectKey bucket key) with
    | none => simp [accounted]
    | some m =>
      simp only [true_imp_iff, some.injEq, forall_eq']
      exact accounted_update_iff accounted
        (fun info held => exact_delete_own (accounted bucket info held) (ranged bucket info held) key present)
        (fun other found exact_ => exact_delete_other exact_ present)

theorem deleteBucket_accounted_iff (env : Env) (bucket : Bytes) :
    Accounted (perform d (.deleteBucket env bucket)) ↔ Attributed d (.deleteBucket env bucket) := by
  simp only [perform, Attributed, deleteBucket]
  cases env.dbFault with
  | some e => simp [accounted]
  | none =>
    simp only [true_imp_iff, foldl_keysUnder]
    rw [← others_iff accounted fun other found exact_ => exact_restrict bucket exact_]
    constructor
    · intro after other found apart held
      exact after other found ((get_delete_ne _ (Ne.symm apart)).trans held)
    · intro others other found held
      by_cases same : other = bucket
      · subst same
        exact absurd ((get_delete_same _ _).symm.trans held) (some_ne_none _).symm
      · exact others other found same ((get_delete_ne _ (Ne.symm same)).symm.trans held)

theorem perform_accounted_iff (ranged : Ranged d) (operation : Operation) :
    Accounted (perform d operation) ↔ Attributed d operation := by
  cases operation with
  | createBucket env bucket info => exact createBucket_accounted_iff accounted env bucket info
  | putObject env bucket key m => exact putObject_accounted_iff accounted ranged env bucket key m
  | deleteObject env bucket key => exact deleteObject_accounted_iff accounted ranged env bucket key
  | deleteBucket env bucket => exact deleteBucket_accounted_iff accounted env bucket

end

private theorem ranged_put (ranged : Ranged d) {objects : Table Bytes ObjectMetadata} {bucket : Bytes}
    {info : BucketInfo} (fits : Representable info.objectCount) :
    Ranged { d with store := ⟨objects, d.store.buckets.put bucket info, versions⟩ } :=
  forall_get_put ranged fits

theorem perform_ranged (ranged : Ranged d) (operation : Operation) : Ranged (perform d operation) := by
  cases operation with
  | createBucket env bucket info =>
    simp only [perform]
    rcases createBucket_cases env d.store bucket (info.map (·.info)) with ⟨e, refused, -⟩ | ⟨made, -⟩
    · rw [refused]
      exact ranged
    rw [made]
    refine ranged_put ranged ?_
    cases info with
    | none => exact ⟨by decide, by decide⟩
    | some given =>
      have none_ : given.info.decoded.objectCount = 0 := given.noObjects
      rw [map_some, getD_some, none_]
      exact ⟨by decide, by decide⟩
  | putObject env bucket key m =>
    simp only [perform]
    rcases putObject_spec env d.store bucket key m with ⟨-, e, eq⟩ | ⟨-, eq⟩
    · rw [eq]
      exact ranged
    rw [eq]
    simp only [countedBuckets]
    cases held : d.store.buckets.get bucket with
    | none => exact ranged
    | some info =>
      refine ranged_put ranged ?_
      simp only [counted]
      split
      · exact representable_int64 _
      · exact ranged bucket info held
  | deleteObject env bucket key =>
    simp only [perform, deleteObject]
    split
    · exact ranged
    split
    · exact ranged
    · cases held : d.store.buckets.get bucket with
      | none => exact ranged
      | some info =>
        refine ranged_put ranged ?_
        obtain ⟨_, _⟩ := representable_int64 (info.objectCount - 1)
        simp only [discounted]
        exact ⟨by omega, by omega⟩
  | deleteBucket env bucket =>
    simp only [perform, deleteBucket]
    split
    · exact ranged
    · exact forall_get_delete ranged

/-! ### Quotas -/

/-- A write beyond the quota is seen to be one if it would be counted right. -/
theorem quotaKept_of_attributed (accounted : Accounted d) (ranged : Ranged d) {operation : Operation}
    (attributed : Attributed d operation) : QuotaKept d operation := by
  cases operation with
  | putObject env bucket key m =>
    rintro ⟨info, quota, held, limited, exceeded⟩
    simp only [perform]
    rcases putObject_spec env d.store bucket key m with ⟨-, _, eq⟩ | ⟨granted, -⟩
    · rw [eq]
      exact ⟨rfl, rfl⟩
    have fits := (attributed granted).1 (by simp [held])
    have right : Exact (d.store.objects.put (objectKey bucket key) m) bucket
        (counted info (d.store.objects.get (objectKey bucket key)) m) :=
      (exact_put_own (accounted bucket info held) (ranged bucket info held) key rfl).mpr fits
    have seen : exceeds (counted info (d.store.objects.get (objectKey bucket key)) m) = true := by
      have limited' : (counted info (d.store.objects.get (objectKey bucket key)) m).quota = some quota := limited
      simp only [exceeds, limited', Bool.or_eq_true, Bool.and_eq_true, decide_eq_true_eq, right.count, right.size]
      exact exceeded
    exact absurd (.inr (.inr (.inr (.inr ⟨info, held, seen⟩)))) granted
  | _ => trivial

/-! ### Whole runs -/

/-- In a run from a new database every bucket's counters are right in every
state, and what exceeds a quota changes nothing, exactly if every operation is
attributed to the buckets its records belong to. -/
theorem counters_exact_iff (operations : List Operation) :
    Runs.Always next Accounted empty operations ∧ Runs.Throughout next QuotaKept empty operations ↔
      Runs.Throughout next Attributed empty operations := by
  have nothing : Accounted empty := fun _ _ held => by cases held
  have few : Ranged empty := fun _ _ held => by cases held
  have always : Runs.Always next Accounted empty operations ↔ Runs.Throughout next Attributed empty operations := by
    refine Runs.always_iff_throughout Ranged ?_ ?_ few nothing
    · rintro d operation _ ⟨⟩ ranged
      exact perform_ranged ranged operation
    · rintro d operation _ ⟨⟩ ranged accounted
      exact perform_accounted_iff accounted ranged operation
  constructor
  · rintro ⟨accounted, -⟩
    exact always.mp accounted
  · intro attributed
    refine ⟨always.mpr attributed, ?_⟩
    refine Runs.Throughout.mono (fun d => Accounted d ∧ Ranged d) ?_ ?_ ⟨nothing, few⟩ attributed
    · rintro d operation _ ⟨⟩ ⟨accounted, ranged⟩ met
      exact ⟨(perform_accounted_iff accounted ranged operation).mpr met, perform_ranged ranged operation⟩
    · rintro d operation _ - ⟨accounted, ranged⟩ met
      exact quotaKept_of_attributed accounted ranged met

namespace Sample

def env : Env := ⟨str "v1", 1, none, none⟩

def record : ObjectMetadata :=
  ⟨str "today", str "logs", 5, [], [], [], [], [], 0, 1, 1, false, [], str "v1", true, false, false, [], [], none⟩

/-- The bucket is made after its first record. -/
def operations : List Operation :=
  [.putObject env (str "logs") (str "today") record, .createBucket env (str "logs") none]

def after : Database := operations.foldl perform empty

end Sample

open Sample

/-- A record that is written before its bucket is made is never counted. -/
theorem waiting_record_uncounted : (after.store.buckets.get (str "logs")).map (·.objectCount) = some 0 ∧
      (entriesOf after.store.objects (str "logs")).length = 1 ∧
      ¬ (Runs.Always next Accounted empty operations ∧ Runs.Throughout next QuotaKept empty operations) := by
  refine (fun counter records => ⟨counter, records, ?_⟩) (by decide +kernel) (by decide +kernel)
  rintro ⟨always, -⟩
  have accounted : Accounted after := (always.2 _ rfl).2 _ rfl
  obtain ⟨info, held, zero⟩ := map_eq_some_iff.mp counter
  have count := (accounted (str "logs") info held).count
  rw [zero, records] at count
  cases count

end CipherLake.BucketCounters
