import CipherLake.ErasureBackend

/-! What is read back from an erasure-coded backend. A read returns bytes
exactly if the shards it got are shards of one codeword that frames them. -/
namespace CipherLake.ErasureBackend
open Lib List

variable {k m : Nat}

/-- The bytes of the data shards. -/
def joined (data : Fin k → Bytes) : Bytes := (ofFn data).flatten

/-! ### Shard sizes -/

variable {n size : Nat} {shards : Fin n → Bytes}

theorem shardSize_eq (sizes : Partial size shards) {i : Fin n}
    (there : shards i ≠ []) : shardSize shards = size := by
  have listed : shards i ∈ ofFn shards := mem_ofFn.mpr ⟨i, rfl⟩
  cases found : (ofFn shards).find? (· ≠ []) with
  | none =>
    have empty := List.find?_eq_none.mp found (shards i) listed
    simp [there] at empty
  | some shard =>
    obtain ⟨j, rfl⟩ := mem_ofFn.mp (mem_of_find?_eq_some found)
    have nonempty : shards j ≠ [] := by simpa using List.find?_some found
    rw [shardSize, found]
    exact (sizes j).resolve_left nonempty

theorem checkShards_given (positive : 0 < size)
    (sizes : Partial size shards) {i : Fin n} (there : shards i ≠ []) : checkShards true shards = .ok () := by
  unfold checkShards
  rw [shardSize_eq sizes there, if_neg (Nat.pos_iff_ne_zero.mp positive), if_neg]
  rintro ⟨j, other, complete⟩
  rcases sizes j with empty | same
  · exact complete ⟨rfl, empty⟩
  · exact other same

theorem checkShards_full :
    checkShards false shards = .ok () ↔ 0 < shardSize shards ∧ ∀ i, (shards i).length = shardSize shards := by
  unfold checkShards
  by_cases empty : shardSize shards = 0
  · simp [empty]
  rw [if_neg empty]
  by_cases mixed : ∃ i, (shards i).length ≠ shardSize shards ∧ ¬ (false = true ∧ shards i = [])
  · rw [if_pos mixed]
    obtain ⟨i, other, -⟩ := mixed
    simp only [reduceCtorEq, false_iff, not_and, not_forall]
    exact fun _ => ⟨i, other⟩
  · rw [if_neg mixed]
    simp only [true_iff]
    refine ⟨Nat.pos_of_ne_zero empty, fun i => ?_⟩
    by_contra other
    exact mixed ⟨i, other, by simp⟩

theorem Encoder.positive (E : Encoder k m) : 0 < k := by
  by_contra none
  obtain rfl : k = 0 := Nat.eq_zero_of_not_pos none
  have fits := E.fits 1
  rw [Nat.zero_mul] at fits
  exact absurd fits (by decide)

/-! ### A complete set of shards -/

/-- Data shards of one size. -/
def Equal (size : Nat) (data : Fin k → Bytes) : Prop := 0 < size ∧ ∀ i, (data i).length = size

theorem verify_true_iff (E : Encoder k m) (shards : Fin (k + m) → Bytes) :
    (E.verify shards).1 = true ↔ ∃ size data, Equal size data ∧ shards = E.codeword data := by
  unfold Encoder.verify
  cases checked : checkShards false shards with
  | error e =>
    simp only [Bool.false_eq_true, false_iff]
    rintro ⟨size, data, ⟨positive, sizes⟩, rfl⟩
    have whole : ∀ i, (E.codeword data i).length = size := E.codeword_size sizes
    have there : E.codeword data (Fin.castAdd m ⟨0, E.positive⟩) ≠ [] := by
      rw [← length_pos_iff, whole]
      exact positive
    have sized := shardSize_eq (fun i => .inr (whole i)) there
    rw [checkShards_full.mpr ⟨by rw [sized]; exact positive, fun i => by rw [sized, whole]⟩] at checked
    cases checked
  | ok done =>
    obtain ⟨positive, sizes⟩ := checkShards_full.mp checked
    simp only [decide_eq_true_eq, E.verified_iff]
    constructor
    · exact fun isCodeword => ⟨shardSize shards, _, ⟨positive, fun i => sizes _⟩, isCodeword⟩
    · rintro ⟨size, data, -, rfl⟩
      simp only [ErasureCode.codeword_data]

theorem joined_length {data : Fin k → Bytes} (sizes : ∀ i, (data i).length = size) :
    (joined data).length = size * k := by
  have each : ((ofFn data).map length) = replicate k size := by
    rw [map_ofFn, ← ofFn_const]
    exact congrArg ofFn (funext sizes)
  rw [joined, length_flatten, each, sum_replicate_nat, Nat.mul_comm]

theorem join_codeword (E : Encoder k m) {size : Nat} {data : Fin k → Bytes} (sizes : ∀ i, (data i).length = size) :
    E.join (E.codeword data) (((ofFn (E.codeword data)).headD []).length * k) = .ok (joined data) := by
  have first : ((ofFn (E.codeword data)).headD []).length = size := by
    cases listed : ofFn (E.codeword data) with
    | nil =>
      have none : k + m = 0 := by rw [← length_ofFn (f := E.codeword data), listed, length_nil]
      exact absurd none (Nat.ne_of_gt (Nat.add_pos_left E.positive m))
    | cons shard rest =>
      obtain ⟨i, rfl⟩ := mem_ofFn.mp (listed ▸ mem_cons_self : shard ∈ ofFn (E.codeword data))
      exact E.codeword_size sizes i
  have own : (ofFn fun i : Fin k => E.codeword data (Fin.castAdd m i)).flatten = joined data := by
    simp only [ErasureCode.codeword_data, joined]
  rw [Encoder.join, own, first, joined_length sizes, if_neg (Nat.lt_irrefl _)]
  rw [take_of_length_le (Nat.le_of_eq (joined_length sizes))]

/-- A complete set of shards is opened exactly if it is a codeword. -/
theorem opened_iff (E : Encoder k m) (shards : Fin (k + m) → Bytes) (bytes : Bytes) : opened E shards = .ok bytes ↔
      ∃ size data, Equal size data ∧ shards = E.codeword data ∧ unframe (joined data) = .ok bytes := by
  have verified := verify_true_iff E shards
  unfold opened
  generalize E.verify shards = out at verified
  rcases out with ⟨_ | _, _⟩
  · simp only [reduceCtorEq, Bool.false_eq_true, false_iff] at verified ⊢
    rintro ⟨size, data, sizes, same, -⟩
    exact verified ⟨size, data, sizes, same⟩
  obtain ⟨size, data, sizes, rfl⟩ := verified.mp rfl
  simp only [join_codeword E sizes.2]
  constructor
  · exact fun framed => ⟨size, data, sizes, rfl, framed⟩
  · rintro ⟨_, data', -, same, framed⟩
    have own : data = data' := by
      funext i
      rw [← E.codeword_data data i, same, E.codeword_data]
    rw [own]
    exact framed

/-- An object that begins with the length of the bytes and the bytes. -/
def Frames (object bytes : Bytes) : Prop :=
  8 ≤ object.length ∧ (uint64 (object.take 8)).toNat = bytes.length ∧ bytes <+: object.drop 8

theorem unframe_iff (object bytes : Bytes) : unframe object = .ok bytes ↔ Frames object bytes := by
  unfold unframe Frames
  by_cases short : object.length < 8
  · rw [if_pos short]
    simp only [reduceCtorEq, false_iff]
    exact fun framed => absurd framed.1 (Nat.not_le.mpr short)
  rw [if_neg short]
  simp only [Nat.not_lt.mp short, true_and]
  by_cases tooShort : object.length - 8 < (uint64 (object.take 8)).toNat
  · rw [if_pos tooShort]
    simp only [reduceCtorEq, false_iff]
    rintro ⟨length, begins⟩
    have within := begins.length_le
    rw [length_drop] at within
    omega
  · rw [if_neg tooShort, Except.ok.injEq]
    constructor
    · rintro rfl
      refine ⟨?_, take_prefix _ _⟩
      rw [length_take, length_drop]
      omega
    · rintro ⟨length, begins⟩
      rw [length]
      exact (prefix_iff_eq_take.mp begins).symm

/-! ### The shards that were read -/

/-- The answers are shards of the codeword of some data. -/
def Consistent (E : Encoder k m) (answers : Fin (k + m) → Except Bytes Bytes) (data : Fin k → Bytes) : Prop :=
  ∀ i shard, answers i = .ok shard → shard = E.codeword data i

variable {answers : Fin (k + m) → Except Bytes Bytes}

theorem received_ok {i : Fin (k + m)} {shard : Bytes} (answer : answers i = .ok shard) :
    received answers i = shard := by
  unfold received
  rw [answer]

theorem mem_answered {i : Fin (k + m)} : i ∈ answered answers ↔ ∃ shard, answers i = .ok shard := by
  simp only [answered, Finset.mem_filter_univ]
  cases answers i with
  | error e => simp [Except.isOk, Except.toBool]
  | ok shard => simp [Except.isOk, Except.toBool]

theorem present_received (nonempty : ∀ i shard, answers i = .ok shard → shard ≠ []) :
    present (received answers) = answered answers := by
  ext i
  rw [mem_present, mem_answered]
  constructor
  · intro there
    cases answer : answers i with
    | error e => exact absurd (by rw [received, answer]) there
    | ok shard => exact ⟨shard, rfl⟩
  · rintro ⟨shard, answer⟩
    rw [received_ok answer]
    exact nonempty i shard answer

theorem agree_received (nonempty : ∀ i shard, answers i = .ok shard → shard ≠ []) (E : Encoder k m)
    (data : Fin k → Bytes) : E.Agree (received answers) data ↔ Consistent E answers data := by
  constructor
  · intro agree i shard answer
    have own := agree i
    rw [received_ok answer] at own
    exact own (nonempty i shard answer)
  · intro consistent i there
    unfold received at there ⊢
    cases answer : answers i with
    | error e =>
      rw [answer] at there
      exact absurd rfl there
    | ok shard => exact consistent i shard answer

theorem present_subset_answered : present (received answers) ⊆ answered answers := by
  intro i there
  rw [mem_present] at there
  rw [mem_answered]
  cases answer : answers i with
  | error e => exact absurd (by rw [received, answer]) there
  | ok shard => exact ⟨shard, rfl⟩

/-- A read returns bytes exactly if at least `k` of the shards it got are not
empty, none is if all answered, and they are shards of one codeword that frames
these bytes. -/
theorem decode_iff (E : Encoder k m) (bytes : Bytes) : decode E answers = .ok bytes ↔
      ∃ size data, Equal size data ∧ k ≤ (present (received answers)).card ∧
        (answered answers = Finset.univ → present (received answers) = Finset.univ) ∧
        E.Agree (received answers) data ∧ unframe (joined data) = .ok bytes := by
  have fewer : (present (received answers)).card ≤ (answered answers).card :=
    Finset.card_le_card present_subset_answered
  unfold decode
  by_cases few : (answered answers).card < k
  · rw [if_pos few]
    constructor
    · intro read
      cases read
    · rintro ⟨size, data, -, enough, -⟩
      omega
  · rw [if_neg few]
    by_cases short : (answered answers).card < k + m
    · have some_failed : answered answers ≠ Finset.univ := by
        intro all
        rw [all, Finset.card_univ, Fintype.card_fin] at short
        exact Nat.lt_irrefl _ short
      simp only [if_pos short, Encoder.reconstruct, some_failed, false_implies, true_and]
      rw [if_neg (by omega)]
      constructor
      · intro read
        cases checked : checkShards true (received answers) with
        | error e =>
          rw [checked] at read
          cases read
        | ok done =>
          rw [checked] at read
          by_cases tooFew : (present (received answers)).card < k
          · simp only [if_pos tooFew, reduceCtorEq] at read
          · simp only [if_neg tooFew] at read
            obtain ⟨size, data, sizes, whole, framed⟩ := (opened_iff E _ bytes).mp read
            refine ⟨size, data, sizes, Nat.not_lt.mp tooFew, fun i given => ?_, framed⟩
            rw [← whole, E.rebuild_keeps given]
      · rintro ⟨size, data, sizes, enough, agree, framed⟩
        have part : Partial size (received answers) := fun i => by
          by_cases given : received answers i = []
          · exact .inl given
          · exact .inr (agree i given ▸ E.codeword_size sizes.2 i)
        obtain ⟨i, listed⟩ := Finset.card_pos.mp (Nat.lt_of_lt_of_le E.positive enough)
        rw [checkShards_given sizes.1 part (mem_present.mp listed), if_neg (Nat.not_lt.mpr enough)]
        exact (opened_iff E _ bytes).mpr ⟨size, data, sizes, E.rebuild_agree sizes.1 sizes.2 enough agree, framed⟩
    · have all : answered answers = Finset.univ :=
        Finset.eq_univ_of_card _ (Nat.le_antisymm (Finset.card_le_univ _) (by simpa using short))
      simp only [if_neg short]
      rw [opened_iff]
      constructor
      · rintro ⟨size, data, sizes, whole, framed⟩
        have complete : present (received answers) = Finset.univ := by
          ext i
          simp only [mem_present, Finset.mem_univ, iff_true]
          rw [whole, ← length_pos_iff, E.codeword_size sizes.2]
          exact sizes.1
        refine ⟨size, data, sizes, ?_, fun _ => complete, fun i _ => by rw [whole], framed⟩
        rw [complete, Finset.card_univ, Fintype.card_fin]
        omega
      · rintro ⟨size, data, sizes, -, complete, agree, framed⟩
        refine ⟨size, data, sizes, funext fun i => ?_, framed⟩
        exact agree i (mem_present.mp (complete all ▸ Finset.mem_univ i))

/-- A read that got no empty shards returns bytes exactly if it got at least `k`
shards, all of one codeword that frames these bytes. -/
theorem decode_ok_iff (nonempty : ∀ i shard, answers i = .ok shard → shard ≠ []) (E : Encoder k m) (bytes : Bytes) :
    decode E answers = .ok bytes ↔
      ∃ size data, Equal size data ∧ k ≤ (answered answers).card ∧ Consistent E answers data ∧
        unframe (joined data) = .ok bytes := by
  rw [decode_iff]
  simp [present_received nonempty, agree_received nonempty, imp_self]

/-! ### What is written -/

/-- The data shards of an object. -/
def pieces (E : Encoder k m) (data : Bytes) (i : Fin k) : Bytes :=
  let perShard := E.perShard data.length
  ((data ++ replicate (k * perShard - data.length) 0).drop (i * perShard)).take perShard

/-- All shards of an object. -/
def shardsOf (E : Encoder k m) (data : Bytes) : Fin (k + m) → Bytes := E.codeword (pieces E (prefixed data))

section Pieces

variable (E : Encoder k m) {data : Bytes}

theorem padded_length (data : Bytes) :
    (data ++ replicate (k * E.perShard data.length - data.length) (0 : UInt8)).length =
      k * E.perShard data.length := by
  have fits := E.fits data.length
  rw [length_append, length_replicate]
  omega

theorem pieces_equal (some_data : data ≠ []) : Equal (E.perShard data.length) (pieces E data) := by
  have fits := E.fits data.length
  have positive := length_pos_iff.mpr some_data
  refine ⟨Nat.pos_of_mul_pos_left (Nat.lt_of_lt_of_le positive fits), fun i => ?_⟩
  have within : i * E.perShard data.length + E.perShard data.length ≤ k * E.perShard data.length := by
    rw [← Nat.succ_mul]
    exact Nat.mul_le_mul_right _ i.isLt
  rw [pieces, length_take, length_drop, padded_length]
  omega

theorem joined_pieces : joined (pieces E data) = data ++ replicate (k * E.perShard data.length - data.length) 0 := by
  refine (flatten_chunks k (E.perShard data.length) _).trans (take_of_length_le ?_)
  exact Nat.le_of_eq (padded_length E data)

theorem prefixed_ne_nil (data : Bytes) : prefixed data ≠ [] := by simp [prefixed, putUint64]

theorem splitAndEncode_prefixed (e : ErasureCodedBackend k m) (data : Bytes) :
    splitAndEncode e (prefixed data) = .ok (shardsOf e.enc data) := by
  have split : e.enc.split (prefixed data) = .ok (pieces e.enc (prefixed data)) := by
    unfold Encoder.split
    exact if_neg (prefixed_ne_nil data)
  obtain ⟨positive, sizes⟩ := pieces_equal e.enc (prefixed_ne_nil data)
  have there : pieces e.enc (prefixed data) ⟨0, e.enc.positive⟩ ≠ [] := by
    rw [← length_pos_iff, sizes]
    exact positive
  have size := shardSize_eq (fun i => .inr (sizes i)) there
  have checked : checkShards false (pieces e.enc (prefixed data)) = .ok () :=
    checkShards_full.mpr ⟨by rw [size]; exact positive, fun i => by rw [size, sizes]⟩
  simp only [splitAndEncode, split, Encoder.encode, checked, shardsOf]

theorem shardsOf_ne_nil (data : Bytes) (i : Fin (k + m)) : shardsOf E data i ≠ [] := by
  obtain ⟨positive, sizes⟩ := pieces_equal E (prefixed_ne_nil data)
  rw [← length_pos_iff, shardsOf, E.codeword_size sizes]
  exact positive

/-- The length in front of the data finds its end again. -/
theorem unframe_prefixed (data padding : Bytes) (fits : data.length < 2 ^ 64) :
    unframe (prefixed data ++ padding) = .ok data := by
  have width : (putUint64 (UInt64.ofNat data.length)).length = 8 := rfl
  have length : (uint64 ((prefixed data ++ padding).take 8)).toNat = data.length := by
    rw [prefixed, append_assoc, take_left' width, uint64_putUint64]
    exact Nat.mod_eq_of_lt fits
  have body : (prefixed data ++ padding).drop 8 = data ++ padding := by
    rw [prefixed, append_assoc, drop_left' width]
  have total : (prefixed data ++ padding).length = 8 + (data.length + padding.length) := by
    rw [prefixed, append_assoc, length_append, length_append, width]
  unfold unframe
  simp only [length, body, total]
  rw [if_neg (by omega), if_neg (by omega), take_left' rfl]

theorem unframe_joined (data : Bytes) (fits : data.length < 2 ^ 64) :
    unframe (joined (pieces E (prefixed data))) = .ok data := by
  rw [joined_pieces]
  exact unframe_prefixed data _ fits

end Pieces

end CipherLake.ErasureBackend
