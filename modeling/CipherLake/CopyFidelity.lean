import CipherLake.CacheCoherence
import CipherLake.FailedOverwrites

/-! Copies of objects. A copy takes the stored bytes and the recorded size, but
neither the data key nor what is known of the client's key, so the copy of an
encrypted object announces a wrong size or is read as its ciphertext. Copying is
faithful exactly for objects that are stored as they are read. -/
namespace CipherLake.CopyFidelity
open Lib Http AccessControl Metadata Storage Gateway ObjectWrites CacheCoherence FailedOverwrites

variable {κ : Type}

section
variable (g : Config) (call : Call κ) (w : World κ) (r : Request) (bucket key srcBucket srcKey : Bytes)

/-- Nothing but the size stands in the way of a copy: it is permitted, the source
can be read, the destination can be written, and the record is accepted. -/
structure Feasible (source : ObjectMetadata) (raw : Bytes) : Prop where
  put : r.method = str "PUT"
  names : r.headerGet (str "x-amz-copy-source") ≠ [] ∧
    cut (trimPrefix (r.headerGet (str "x-amz-copy-source")) (str "/")) 47 = (srcBucket, some srcKey)
  permitted : ∃ identity identity' userID logins₁ logins₂ logins₃,
    requireIdentity call.auth call.fuel g.provider w.logins r (str "write") bucket key =
        some (.ok identity, logins₁) ∧
      requireIdentity call.auth call.fuel g.provider logins₁ r (str "read") srcBucket srcKey =
        some (.ok identity', logins₂) ∧
      requestUserID call.auth g.provider logins₂ r = (.ok userID, logins₃)
  live : source.deleteMarker = false
  readable : call.disk.opening = none ∧ call.disk.reading = none
  writable : ∃ hot, g.tiers tierHot = some hot ∧
    Writable call.disk w.fs (objectPath hot bucket key) ⟨raw, some .eof⟩ raw.length
  accepted : ¬ Refused call.db w.metadata bucket key (copyPlan call r bucket key source ⟨raw, some .eof⟩).record

/-- A full read that is let through is answered with these bytes. -/
def Returns (userID plain : Bytes) : Prop :=
  ∃ headers, (serveObject g call w r bucket key userID).1 = .sent 200 headers plain none

/-- The copy is made, every full read of it from then on returns these bytes, and
its recorded size is theirs. -/
def Faithful (plain : Bytes) : Prop :=
  ∃ headers w', handleCopyObject g call w r bucket key = some (.sent 200 headers [] none, w') ∧
    (∀ (reader : Call κ) r' userID, FullGet reader r' → call.db.now ≤ reader.db.now →
      Returns g reader w' r' bucket key userID plain) ∧
    ∃ m, getObject w'.metadata bucket key = .ok m ∧ m.size = plain.length

/-- No other bytes are in the cache under the key, or they have expired. -/
def Unshadowed (plain : Bytes) : Prop :=
  cachedLimit ≤ (plain.length : Int) ∨ ∀ cache item, w.cache = some cache →
    cache.items (cacheKey bucket key) = some item → (call.db.now : Int) - item.createdAt ≤ cache.ttl →
    item.value = plain

end

/-! ### Making the copy -/

section
variable {g : Config} {call : Call κ} {w : World κ} {r : Request} {bucket key srcBucket srcKey : Bytes}
  {source : ObjectMetadata} {root : Path} {raw : Bytes}

/-- The record of a copy, as it is stored. -/
def copyRecord (call : Call κ) (r : Request) (bucket key : Bytes) (source : ObjectMetadata) (raw : Bytes) :
    ObjectMetadata :=
  (stamped call.db (copyPlan call r bucket key source ⟨raw, some .eof⟩).record).decoded

section
variable (feasible : Feasible g call w r bucket key srcBucket srcKey source raw)
include feasible

section
variable (held : Held g srcBucket srcKey w source root raw)
include held

theorem handleCopyObject_feasible : ∃ logins, handleCopyObject g call w r bucket key =
      match putStoredObjectWithMetadata g call { w with logins } bucket key
        (copyPlan call r bucket key source ⟨raw, some .eof⟩) "failed to copy object" with
      | (.error e, w) => some (.refused e, w)
      | (.ok (), w) => some (.sent 200 [(str "ETag", quoted call.etag), (str "x-amz-version-id", call.versionID),
          (str "x-amz-copy-source-version-id", source.versionID)] [] none, w) := by
  obtain ⟨_, _, _, _, _, logins₃, writes, reads, user⟩ := feasible.permitted
  have got : Storage.get g.tiers call.disk w.fs srcBucket srcKey source.storageTier = .ok ⟨raw, some .eof⟩ := by
    rw [get_held held, feasible.readable.1]
    simp only [contents, feasible.readable.2]
  refine ⟨logins₃, ?_⟩
  unfold handleCopyObject identified copyFrom withUserID
  simp only [feasible.put, writes, reads, feasible.names.1, feasible.names.2, Option.bind_some, held.record,
    feasible.live, user, got, ne_eq, not_true_eq_false, if_false, Bool.false_eq_true]
  rcases putStoredObjectWithMetadata g call { w with logins := logins₃ } bucket key
    (copyPlan call r bucket key source ⟨raw, some .eof⟩) "failed to copy object" with ⟨e | ⟨⟩, w'⟩
  · rfl
  · rfl

/-- A copy is made if the recorded size is that of the stored bytes, or is taken
for unknown. -/
theorem copy_made (fits : source.size ≤ 0 ∨ source.size = raw.length) :
    ∃ headers w' hot, handleCopyObject g call w r bucket key = some (.sent 200 headers [] none, w') ∧
      w'.cache = w.cache ∧ Held g bucket key w' (copyRecord call r bucket key source raw) hot raw := by
  obtain ⟨_, copied⟩ := handleCopyObject_feasible feasible held
  obtain ⟨hot, registered, writable⟩ := feasible.writable
  have writes : Writable call.disk w.fs (objectPath hot bucket key) ⟨raw, some .eof⟩ source.size := by
    obtain ⟨written, ended, -, synced, closed⟩ := writable.written
    refine ⟨⟨writable.named, writable.open_, writable.fresh, writable.created, ?_, writable.renamed⟩, writable.passable⟩
    refine ⟨written, ended, ?_, synced, closed⟩
    rintro ⟨_, misfits⟩
    simp only at misfits
    omega
  have recorded := (putObject_ok_iff _ _ _ _ _).mpr feasible.accepted
  have found := getObject_putObject recorded
  unfold putStoredObjectWithMetadata at copied
  rcases put : Storage.put g.tiers call.disk w.fs bucket key (copyPlan call r bucket key source ⟨raw, some .eof⟩).data
    (copyPlan call r bucket key source ⟨raw, some .eof⟩).size tierHot with ⟨e | ⟨⟩, _⟩
  · exact absurd writes ((put_error put).1 hot registered)
  obtain ⟨_, _, registered', -, -, entries⟩ := put_ok put
  cases registered.symm.trans registered'
  rcases putting : putObject call.db w.metadata bucket key
    (copyPlan call r bucket key source ⟨raw, some .eof⟩).record with ⟨e | ⟨⟩, _⟩
  · rw [putting] at recorded
    cases recorded
  rw [putting] at found
  simp only [put, putObjectMetadataAfterStore, putting] at copied
  refine ⟨_, _, hot, copied, ?_, found, registered, ?_⟩
  · rfl
  · rw [entries, if_pos rfl]
    rfl

theorem copy_refused (misfits : 0 < source.size ∧ source.size ≠ raw.length) :
    ∃ e w', handleCopyObject g call w r bucket key = some (.refused e, w') := by
  obtain ⟨logins, copied⟩ := handleCopyObject_feasible feasible held
  unfold putStoredObjectWithMetadata at copied
  rcases put : Storage.put g.tiers call.disk w.fs bucket key (copyPlan call r bucket key source ⟨raw, some .eof⟩).data
    (copyPlan call r bucket key source ⟨raw, some .eof⟩).size tierHot with ⟨e | ⟨⟩, fs⟩
  · simp only [put] at copied
    exact ⟨_, _, copied⟩
  · obtain ⟨_, _, _, writable, _⟩ := put_ok put
    obtain ⟨-, -, complete, -⟩ := writable.written
    exact absurd ⟨misfits.1, misfits.2.symm⟩ complete

end

end

/-! ### Reading it -/

/-- What a full read of a copy returns: what is in the cache, or the stored bytes,
of which a read that fills the cache takes no more than the limit. -/
def copyBody (reader : Call κ) (w : World κ) (r : Request) (bucket key : Bytes) (m : ObjectMetadata) (raw : Bytes) :
    Bytes :=
  match (cachedObject reader w r bucket key m).1 with
  | some value => value
  | none =>
    if w.cache.isSome ∧ cacheable m [] = true then (limited cachedLimit ⟨raw, some .eof⟩).bytes else raw

/-- The transfer of stored bytes. -/
theorem sendBody_stored (limit : Int) (reader : Call κ) (w : World κ) (bucket key : Bytes)
    (headers : List (Bytes × Bytes)) (raw : Bytes) (caching : Bool) :
    (sendBody limit reader w bucket key 200 headers ⟨raw, some .eof⟩ caching).1 = .sent 200 headers
        (if w.cache.isSome ∧ caching = true then (limited limit ⟨raw, some .eof⟩).bytes else raw) none := by
  have ended : (limited limit ⟨raw, some .eof⟩).err = some .eof := by
    unfold limited
    split <;> rfl
  rw [sendBody_answer]
  simp only [readAll, ended, Bool.and_eq_true]
  split <;> rfl

variable {m : ObjectMetadata}

/-- A record without a data key, of the server or of a client, is read as it is
stored. -/
theorem returns_copyBody {reader : Call κ} (held : Held g bucket key w m root raw)
    (live : m.deleteMarker = false) (ownKey : m.ssecUsed = false) (keyless : m.encryptedDEK = [])
    (full : FullGet reader r) (userID plain : Bytes) :
    Returns g reader w r bucket key userID plain ↔ plain = copyBody reader w r bucket key m raw := by
  unfold Returns serveObject copyBody
  simp only [held.record, live, Bool.false_eq_true, if_false, precondition_none full]
  obtain ⟨cache, left, has⟩ := cachedObject_world reader w r bucket key m
  rcases looked : cachedObject reader w r bucket key m with ⟨- | _, w₁⟩
  · rw [looked] at left
    obtain rfl : w₁ = { w with cache } := left
    have got : Storage.get g.tiers reader.disk w.fs bucket key m.storageTier = .ok ⟨raw, some .eof⟩ := by
      rw [get_held held, full.opens]
      simp only [contents, full.reads]
    unfold fetchObject answerObject
    simp only [got, openObject_plain ownKey (Or.inr keyless), full.whole, if_true, sendBody_stored, has]
    constructor
    · rintro ⟨_, sent⟩
      exact (Reply.sent.inj sent).2.2.1.symm
    · rintro rfl
      exact ⟨_, rfl⟩
  · simp [eq_comm]

/-- Bytes within the limit are taken as a whole. -/
theorem limited_within {limit : Int} {data : Answer} (within : (data.bytes.length : Int) < limit) :
    limited limit data = data := if_pos within

/-- A read at a given time, of the whole object. -/
theorem exists_reader (call : Call κ) (now : Nat) :
    ∃ reader : Call κ, reader.db.now = now ∧ FullGet reader bareRequest :=
  ⟨{ call with disk := Disk.sound [], db := { call.db with now } }, rfl, rfl, rfl, rfl, rfl, rfl, rfl⟩

theorem unshadowed_congr {w' : World κ} {plain : Bytes} (same : w'.cache = w.cache) :
    Unshadowed call w' bucket key plain ↔ Unshadowed call w bucket key plain := by
  unfold Unshadowed
  rw [same]

/-- Every full read from then on returns the stored bytes exactly if no other ones
are in the cache. -/
theorem returns_raw_iff (held : Held g bucket key w m root raw)
    (live : m.deleteMarker = false) (ownKey : m.ssecUsed = false) (keyless : m.encryptedDEK = [])
    (size : m.size = raw.length) :
    (∀ (reader : Call κ) r' userID, FullGet reader r' → call.db.now ≤ reader.db.now →
        Returns g reader w r' bucket key userID raw) ↔ m.encrypted = true ∨ Unshadowed call w bucket key raw := by
  constructor
  · intro returns
    by_contra shadowed
    simp only [Unshadowed, not_or, not_forall, Bool.not_eq_true, Int.not_le] at shadowed
    obtain ⟨plain, small, cache, item, has, stored, alive, other⟩ := shadowed
    obtain ⟨reader, now, full⟩ := exists_reader call call.db.now
    have read := (returns_copyBody held live ownKey keyless full [] raw).mp
      (returns reader bareRequest [] full (Nat.le_of_eq now.symm))
    have hit : (cachedObject reader w bareRequest bucket key m).1 = some item.value :=
      (cachedObject_some full).mpr ⟨by omega, plain, cache, item, has, stored, by rw [now]; exact alive, rfl⟩
    rw [copyBody, hit] at read
    exact other read.symm
  · intro fresh reader r' userID full later
    rw [returns_copyBody held live ownKey keyless full, copyBody]
    cases looked : (cachedObject reader w r' bucket key m).1 with
    | some value =>
      obtain ⟨small, plain, cache, item, has, stored, alive, rfl⟩ := (cachedObject_some full).mp looked
      rcases fresh with sealed_ | _ | right
      · rw [plain] at sealed_
        cases sealed_
      · omega
      · have now := Int.ofNat_le.mpr later
        exact (right cache item has stored (by omega)).symm
    | none =>
      simp only
      split
      · next caching =>
        have small : m.size < cachedLimit := by
          simp only [cacheable, Bool.and_eq_true, decide_eq_true_eq] at caching
          exact caching.2.1.1
        rw [limited_within (by simp only; omega)]
      · rfl

/-- What is in the cache has expired at some time. -/
theorem exists_miss (call : Call κ) (w : World κ) (bucket key : Bytes) (m : ObjectMetadata) :
    ∃ reader : Call κ, call.db.now ≤ reader.db.now ∧ FullGet reader bareRequest ∧
      (cachedObject reader w bareRequest bucket key m).1 = none := by
  have expires : ∃ time : Nat, ∀ cache item, w.cache = some cache →
      cache.items (cacheKey bucket key) = some item → cache.ttl < (time : Int) - item.createdAt := by
    cases w.cache with
    | none => exact ⟨0, by simp⟩
    | some cache =>
      refine ⟨((cache.items (cacheKey bucket key)).elim 0 (·.createdAt)) + cache.ttl.toNat + 1, ?_⟩
      rintro _ item ⟨⟩ stored
      rw [stored, Option.elim_some]
      omega
  obtain ⟨time, expired⟩ := expires
  obtain ⟨reader, now, full⟩ := exists_reader call (call.db.now + time)
  refine ⟨reader, by rw [now]; exact Nat.le_add_right _ _, full, ?_⟩
  cases looked : (cachedObject reader w bareRequest bucket key m).1 with
  | none => rfl
  | some value =>
    obtain ⟨-, -, cache, item, has, stored, alive, -⟩ := (cachedObject_some full).mp looked
    have old := expired cache item has stored
    rw [now] at alive
    push_cast at alive
    omega

/-- What a read that fills the cache takes is all there is, if there is less than
the limit of it. -/
theorem limited_whole {limit size : Int} (positive : 0 < limit) (small : size < limit)
    (length : size = (limited limit ⟨raw, some .eof⟩).bytes.length) : (limited limit ⟨raw, some .eof⟩).bytes = raw := by
  by_cases within : (raw.length : Int) < limit
  · rw [limited_within within]
  · simp only [limited, if_neg within, List.length_take] at length
    omega

/-- A copy that is made and read back as the source was has stored what was read. -/
theorem stored_of_returns {plain : Bytes} (held : Held g bucket key w m root raw)
    (live : m.deleteMarker = false) (ownKey : m.ssecUsed = false) (keyless : m.encryptedDEK = [])
    (size : m.size = plain.length)
    (returns : ∀ (reader : Call κ) r' userID, FullGet reader r' → call.db.now ≤ reader.db.now →
      Returns g reader w r' bucket key userID plain) : raw = plain := by
  obtain ⟨reader, later, full, missed⟩ := exists_miss call w bucket key m
  have read := (returns_copyBody held live ownKey keyless full [] plain).mp (returns reader bareRequest [] full later)
  rw [copyBody, missed] at read
  simp only at read
  split at read
  · next caching =>
    have small : m.size < cachedLimit := by
      simp only [cacheable, Bool.and_eq_true, decide_eq_true_eq] at caching
      exact caching.2.1.1
    rw [read] at size ⊢
    exact (limited_whole (by decide) small size).symm
  · exact read.symm

end

/-- Where nothing else stands in its way, a copy is faithful exactly if the source
is stored as it is read, its recorded size is right, and no other bytes are in the
cache for the destination. -/
theorem copy_faithful_iff (g : Config) (call before : Call κ) (w : World κ) (r read : Request)
    (bucket key srcBucket srcKey userID plain raw : Bytes) (source : ObjectMetadata) (root : Path)
    (held : Held g srcBucket srcKey w source root raw)
    (feasible : Feasible g call w r bucket key srcBucket srcKey source raw)
    (returned : Returns g before w read srcBucket srcKey userID plain) :
    Faithful g call w r bucket key plain ↔ raw = plain ∧ source.size = raw.length ∧
        (source.encrypted = true ∨ Unshadowed call w bucket key raw) := by
  have made := copy_made feasible held
  constructor
  · rintro ⟨headers, w', handled, returns, _, found, size⟩
    have fits : source.size ≤ 0 ∨ source.size = raw.length := by
      by_contra misfits
      obtain ⟨_, _, refused⟩ := copy_refused feasible held (by omega)
      rw [refused] at handled
      cases handled
    obtain ⟨_, _, hot, copied, cache, copy⟩ := made fits
    obtain ⟨-, rfl⟩ := Prod.mk.inj (Option.some.inj (handled.symm.trans copied))
    cases copy.record.symm.trans found
    obtain rfl := stored_of_returns copy rfl rfl rfl size returns
    refine ⟨rfl, size, ?_⟩
    rw [← unshadowed_congr cache]
    exact (returns_raw_iff copy rfl rfl rfl size).mp returns
  · rintro ⟨rfl, size, fresh⟩
    obtain ⟨headers, w', hot, copied, cache, copy⟩ := made (.inr size)
    refine ⟨headers, w', copied, ?_, _, copy.record, size⟩
    refine (returns_raw_iff copy rfl rfl rfl size).mpr ?_
    rw [unshadowed_congr cache]
    exact fresh

open Gateway.Sample

namespace Sample

/-- Encryption that puts a mark in front of the data. -/
def marking : Crypto Unit where
  encryptOperation keys _ _ _ data _ := (.ok ⟨⟨33 :: data.bytes, data.err⟩, str "dek", 5⟩, keys)
  decryptOperation _ _ _ _ data _ := .ok ⟨data.bytes.tail, data.err⟩
  encryptWithClientKey data _ size := .ok ⟨data, str "dek", size⟩
  decryptWithClientKey data _ _ _ := .ok data

def config : Config := { FailedOverwrites.Sample.config with cryptoEnabled := true }

def call : Call Unit := { Gateway.Sample.call with crypto := some marking }

/-- A copy of `photos/cat.jpg` to `photos/dog.jpg`. -/
def copy : Request :=
  { request [] with
    method := str "PUT"
    path := str "/photos/dog.jpg"
    header := [(str "x-amz-copy-source", str "/photos/cat.jpg")] }

def put : Option (Reply × World Unit) :=
  handlePutObject config call Gateway.Sample.world (FailedOverwrites.Sample.overwrite []) (str "photos") (str "cat.jpg")

/-- After an encrypted `PUT` of `photos/cat.jpg`. -/
def world : World Unit := (put.map (·.2)).getD Gateway.Sample.world

def record : ObjectMetadata :=
  ((getObject world.metadata (str "photos") (str "cat.jpg")).toOption).getD photo

end Sample

/-- A plain object is copied. -/
theorem plain_copy_faithful :
    Faithful FailedOverwrites.Sample.config Gateway.Sample.call Gateway.Sample.world Sample.copy (str "photos")
      (str "dog.jpg") (str "meow") := by
  have feasible : Feasible FailedOverwrites.Sample.config Gateway.Sample.call Gateway.Sample.world Sample.copy
      (str "photos") (str "dog.jpg") (str "photos") (str "cat.jpg") photo (str "meow") :=
    { put := rfl
      names := by decide +kernel
      permitted := ⟨_, _, _, _, _, _, rfl, rfl, rfl⟩
      live := rfl
      readable := ⟨rfl, rfl⟩
      writable := writable_of_put (by decide +kernel)
      accepted := (putObject_ok_iff _ _ _ _ _).mp (by decide +kernel) }
  apply (copy_faithful_iff _ Gateway.Sample.call Gateway.Sample.call Gateway.Sample.world Sample.copy
    (request []) _ _ (str "photos") (str "cat.jpg") [] (str "meow") (str "meow") photo
    [str "hot"] sample_held feasible ⟨_, rfl⟩).mpr
  exact ⟨rfl, rfl, .inr (.inr (by rintro _ _ ⟨⟩))⟩

/-- An object is stored encrypted and can be read. Nothing stands in the way of a
copy of it, but the copy is refused: the recorded size is not that of the stored
bytes. -/
theorem encrypted_copy_refused :
    ∃ reply w', Sample.put = some (reply, Sample.world) ∧ reply.Succeeded ∧
      Held Sample.config (str "photos") (str "cat.jpg") Sample.world Sample.record [str "hot"] (str "!woof") ∧
      Feasible Sample.config Sample.call Sample.world Sample.copy (str "photos") (str "dog.jpg") (str "photos")
        (str "cat.jpg") Sample.record (str "!woof") ∧
      Returns Sample.config Sample.call Sample.world (request []) (str "photos") (str "cat.jpg") []
        (str "woof") ∧
      handleCopyObject Sample.config Sample.call Sample.world Sample.copy (str "photos") (str "dog.jpg") =
        some (.refused (str "failed to copy object: failed to put object: incomplete write: expected 4, got 5"), w') ∧
      ¬ Faithful Sample.config Sample.call Sample.world Sample.copy (str "photos") (str "dog.jpg") (str "woof") := by
  have stored : Sample.put.map (fun out => decide out.1.Succeeded) = some true := by decide +kernel
  have copied : (handleCopyObject Sample.config Sample.call Sample.world Sample.copy (str "photos")
      (str "dog.jpg")).map (·.1) = some (.refused
        (str "failed to copy object: failed to put object: incomplete write: expected 4, got 5")) := by
    decide +kernel
  obtain ⟨⟨reply, w⟩, put, succeeded⟩ := Option.map_eq_some_iff.mp stored
  obtain ⟨⟨_, w'⟩, refused, rfl⟩ := Option.map_eq_some_iff.mp copied
  have after : w = Sample.world := by
    rw [Sample.world, put]
    rfl
  rw [after] at put
  refine ⟨reply, w', put, of_decide_eq_true succeeded, ⟨?_, ?_, ?_⟩, ?_, ?_, refused, ?_⟩
  · decide +kernel
  · decide +kernel
  · decide +kernel
  · exact
      { put := rfl
        names := by decide +kernel
        permitted := ⟨_, _, _, _, _, _, rfl, rfl, rfl⟩
        live := by decide +kernel
        readable := ⟨rfl, rfl⟩
        writable := writable_of_put (by decide +kernel)
        accepted := (putObject_ok_iff _ _ _ _ _).mp (by decide +kernel) }
  · exact ⟨_, rfl⟩
  · rintro ⟨_, _, handled, _⟩
    cases handled

end CipherLake.CopyFidelity
