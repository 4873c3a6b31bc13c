import CipherLake.ObjectWrites
import CipherLake.ResumableRuns
import CipherLake.UploadAborts

/-! The object cache over runs of requests for one key. No write looks at the
cache, so after a write the cache has to be right already: a full read returns
what was written last exactly as long as no write finds other bytes of the key
in the cache, unless it writes too many to be looked up there. -/
namespace CipherLake.CacheCoherence
open Lib Http AccessControl Metadata Storage Gateway Multipart Resumable ObjectWrites Option

variable {κ : Type} {reply : Reply}

/-! ### Runs -/

inductive Event (κ : Type) where
  | write (write : Write κ)
  | delete (call : Call κ) (r : Request)
  | deleteMany (call : Call κ) (parse : Bytes → Except Bytes (List Bytes × Bool)) (r : Request)
  | get (call : Call κ) (r : Request)

section
variable (g : Config) (bucket key : Bytes)

def answer (w : World κ) : Event κ → Option (Reply × World κ)
  | .write write => write.handle g bucket key w
  | .delete call r => handleDeleteObject g call w r bucket key
  | .deleteMany call parse r => some (handleDeleteObjects g call parse w r bucket)
  | .get call r => handleGetObject g call w r bucket key

/-- The bytes a write is about: the body, the data of the source, the parts in
their order, or the temporary file. -/
def written (w : World κ) : Write κ → Bytes
  | .put _ r => r.body.bytes
  | .copy call r =>
    match cut (trimPrefix (r.headerGet (str "x-amz-copy-source")) (str "/")) 47 with
    | (srcBucket, some srcKey) =>
      match getObject w.metadata srcBucket srcKey with
      | .ok source =>
        match Storage.get g.tiers call.disk w.fs srcBucket srcKey source.storageTier with
        | .ok data => data.bytes
        | .error _ => []
      | .error _ => []
    | (_, none) => []
  | .complete _ faults r =>
    let uploadID := r.queryGet (str "uploadId")
    let parts := getParts w.uploads uploadID
    (mergeParts faults w.fs g.uploadsDir uploadID (totalSize parts) parts []).bytes
  | .finalize _ _ r =>
    match w.fs.entry (getTempFilePath g (r.queryGet (str "uploadId"))) with
    | some (.file data) => data
    | _ => []

/-- A world, and what was last done to the key: nothing yet, or the bytes that
were written if it was not deleted. -/
structure State (κ : Type) where
  world : World κ
  last : Option (Option Bytes)

/-- What an event that succeeds makes of the key. -/
def effect (w : World κ) : Event κ → Option (Option Bytes)
  | .write write => some (some (written g w write))
  | .delete _ _ | .deleteMany _ _ _ => some none
  | .get _ _ => none

/-- Reads may end in any way, and the other requests succeed. -/
def Counts (reply : Reply) : Event κ → Prop
  | .get _ _ => True
  | _ => reply.Succeeded

instance (reply : Reply) (event : Event κ) : Decidable (Counts reply event) :=
  match event with
  | .get _ _ => isTrue trivial
  | .write _ => inferInstanceAs (Decidable reply.Succeeded)
  | .delete _ _ => inferInstanceAs (Decidable reply.Succeeded)
  | .deleteMany _ _ _ => inferInstanceAs (Decidable reply.Succeeded)

def step (s : State κ) (event : Event κ) : Option (State κ) :=
  match answer g bucket key s.world event with
  | none => none
  | some (reply, w) => if Counts reply event then some ⟨w, (effect g s.world event).or s.last⟩ else none

def follow (s : State κ) : List (Event κ) → Option (State κ)
  | [] => some s
  | event :: later => (step g bucket key s event).bind (follow · later)

/-- A property of every state of a run. -/
def Always (holds : State κ → Prop) : State κ → List (Event κ) → Prop
  | s, [] => holds s
  | s, event :: later => holds s ∧ ∀ s', step g bucket key s event = some s' → Always holds s' later

/-- A property of every event of a run, in the state it meets. -/
def Throughout (holds : World κ → Event κ → Prop) : State κ → List (Event κ) → Prop
  | _, [] => True
  | s, event :: later =>
    ∀ s', step g bucket key s event = some s' → holds s.world event ∧ Throughout holds s' later

/-- A request for the whole object, on a disk that can be read. -/
structure FullGet (call : Call κ) (r : Request) : Prop where
  whole : r.headerGet (str "Range") = []
  anyEtag : r.headerGet (str "If-None-Match") = []
  anyMatch : r.headerGet (str "If-Match") = []
  anyTime : r.headerGet (str "If-Modified-Since") = []
  opens : call.disk.opening = none
  reads : call.disk.reading = none

/-- A full read that is let through returns what was last written, and nothing
if that was deleted. -/
def Shown (s : State κ) : Prop :=
  ∀ (call : Call κ) (r : Request) (userID : Bytes), FullGet call r →
    match s.last with
    | none => True
    | some none => ∃ message, (serveObject g call s.world r bucket key userID).1 = .error 404 (str "NoSuchKey") message
    | some (some data) => ∃ headers, (serveObject g call s.world r bucket key userID).1 = .sent 200 headers data none

/-- No envelope is made around new objects. -/
def Plain (call : Call κ) : Prop := call.crypto = none ∨ g.cryptoEnabled = false

variable (w : World κ)

/-- The requests a run is made of. What is written is not encrypted, is as long
as it is said to be, and does not lie where the request cleans up. A batch of
deletions names the key. -/
def Regular : Event κ → Prop
  | .write (.put call r) => Plain g call ∧ parseSSECHeaders call r = .ok none ∧
      (r.contentLength < 0 ∨ r.contentLength = r.body.bytes.length)
  | .write (.copy call r) => ∀ srcBucket srcKey source data,
      cut (trimPrefix (r.headerGet (str "x-amz-copy-source")) (str "/")) 47 = (srcBucket, some srcKey) →
      getObject w.metadata srcBucket srcKey = .ok source →
      Storage.get g.tiers call.disk w.fs srcBucket srcKey source.storageTier = .ok data →
      source.encrypted = false ∧ source.size = data.bytes.length
  | .write (.complete _ _ r) =>
      (∀ upload, getUpload w.uploads bucket key (r.queryGet (str "uploadId")) = .ok upload →
        upload.encrypted = false) ∧
      ∀ root, g.tiers tierHot = some root →
        ¬ getUploadDir g.uploadsDir (r.queryGet (str "uploadId")) <+: objectPath root bucket key
  | .write (.finalize call _ r) => Plain g call ∧ ∀ root, g.tiers tierHot = some root →
      objectPath root bucket key ≠ getTempFilePath g (r.queryGet (str "uploadId"))
  | .deleteMany _ parse r => ∀ body keys quiet, readAll (limited maxRequestBodyBytes r.body) = .ok body →
      parse body = .ok (keys, quiet) → key ∈ keys
  | .delete _ _ | .get _ _ => True

/-- The cache holds nothing under the key but these bytes, or is not asked for
so many. -/
def Agrees (data : Bytes) : Prop :=
  cachedLimit ≤ (data.length : Int) ∨ ∀ cache item, w.cache = some cache →
    cache.items (cacheKey bucket key) = some item → item.value = data

/-- A write that finds the cache right for what it writes. -/
def Fresh : Event κ → Prop
  | .write write => Agrees bucket key w (written g w write)
  | _ => True

/-! ### What a run keeps -/

/-- The data is in its place, and recorded as it is. -/
structure Stored (w : World κ) (data : Bytes) : Prop where
  record : ∃ m, getObject w.metadata bucket key = .ok m ∧ m.deleteMarker = false ∧ m.size = data.length ∧
    m.encrypted = false ∧ m.ssecUsed = false ∧ m.storageTier = tierHot
  file : ∃ root, g.tiers tierHot = some root ∧ w.fs.entry (objectPath root bucket key) = some (.file data)

def Gone : Prop := ∀ m, getObject w.metadata bucket key = .ok m → m.deleteMarker = true

/-- There is a cache whose items can live. -/
def Cached : Prop := ∃ cache, w.cache = some cache ∧ 0 ≤ cache.ttl

/-- The cache apart, everything is as the last request for the key left it. -/
structure Kept (s : State κ) : Prop where
  cached : Cached s.world
  placed : match s.last with
    | none => True
    | some none => Gone bucket key s.world
    | some (some data) => Stored g bucket key s.world data

end

/-! ### Reading -/

section
variable {g : Config} {bucket key : Bytes} {call : Call κ} {w : World κ} {r : Request} {userID data : Bytes}

/-- Nothing came into the cache under the key but, possibly, these bytes. -/
def Fills (bucket key : Bytes) (cache cache' : ObjectCache) (value : Bytes → Prop) : Prop :=
  cache'.ttl = cache.ttl ∧ ∀ item', cache'.items (cacheKey bucket key) = some item' →
    (∃ item, cache.items (cacheKey bucket key) = some item ∧ item.value = item'.value) ∨ value item'.value

theorem Fills.refl (cache : ObjectCache) (value : Bytes → Prop) : Fills bucket key cache cache value :=
  ⟨rfl, fun item held => .inl ⟨item, held, rfl⟩⟩

theorem Fills.trans {cache₁ cache₂ cache₃ : ObjectCache} {value : Bytes → Prop}
    (first : Fills bucket key cache₁ cache₂ value) (second : Fills bucket key cache₂ cache₃ value) :
    Fills bucket key cache₁ cache₃ value := by
  refine ⟨second.1.trans first.1, fun item held => ?_⟩
  rcases second.2 item held with ⟨item', held', same⟩ | new
  · rw [← same]
    exact first.2 item' held'
  · exact .inr new

variable {limit : Int} {headers : List (Bytes × Bytes)} {body : Answer} {cache : ObjectCache} {m : ObjectMetadata}
  {w₁ w' : World κ} {p : Prepared κ} {write : Write κ} {s : State κ}

/-- A body is sent as it is read, unless it is cut off at the limit. -/
theorem sendBody_reply {status : Nat} {caching : Bool} (fits : caching = true → (data.length : Int) < limit) :
    (sendBody limit call w bucket key status headers ⟨data, some .eof⟩ caching).1 = .sent status headers data none := by
  unfold sendBody
  split
  · rw [limited, if_pos (fits rfl)]
    rfl
  · rfl

theorem sendBody_fills {status : Nat} {caching : Bool} (has : w.cache = some cache) :
    ∃ cache', (sendBody limit call w bucket key status headers body caching).2 = { w with cache := some cache' } ∧
      Fills bucket key cache cache' fun value => caching = true ∧ readAll (limited limit body) = .ok value := by
  have same : w = { w with cache := some cache } := by rw [← has]
  unfold sendBody
  rw [has]
  cases caching with
  | false =>
    simp only
    refine ⟨cache, ?_, .refl cache _⟩
    split <;> exact same
  | true =>
    simp only
    cases read : readAll (limited limit body) with
    | error e => exact ⟨cache, same, .refl cache _⟩
    | ok value =>
      refine ⟨cache.set call.db.now (cacheKey bucket key) value, rfl, rfl, fun item held => .inr ⟨trivial, ?_⟩⟩
      rw [ObjectCache.items_set] at held
      cases held
      rfl

theorem openObject_plain (ownKey : m.ssecUsed = false) (plain : m.encrypted = false ∨ m.encryptedDEK = [])
    (body : Answer) : openObject g call w.keys r bucket key userID m body = .ok ⟨body, m.size, false⟩ := by
  unfold openObject
  simp only [ownKey]
  cases call.crypto with
  | none => rfl
  | some crypto => simp [plain]

/-- An object that is cacheable, from its tier. -/
theorem fetchObject_reply (stored : Stored g bucket key w data) (full : FullGet call r)
    (found : getObject w.metadata bucket key = .ok m) :
    ∃ headers, (fetchObject g call w r bucket key userID m).1 = .sent 200 headers data none := by
  obtain ⟨_, found', -, size, plain, ownKey, tier⟩ := stored.record
  cases found.symm.trans found'
  obtain ⟨_, registered, file⟩ := stored.file
  have got : Storage.get g.tiers call.disk w.fs bucket key m.storageTier = .ok ⟨data, some .eof⟩ := by
    rw [objectPath] at file
    simp [Storage.get, FileBackend.get, tier, registered, full.opens, file, contents, full.reads]
  unfold fetchObject
  simp only [got, openObject_plain ownKey (.inl plain)]
  unfold answerObject
  simp only [full.whole, if_true]
  refine ⟨_, sendBody_reply fun caching => ?_⟩
  simp only [cacheable, Bool.and_eq_true, decide_eq_true_eq] at caching
  rw [← size]
  exact caching.1.1

theorem fetchObject_fills (g : Config) (call : Call κ) (r : Request) (userID : Bytes) (m : ObjectMetadata)
    (has : w.cache = some cache) :
    ∃ cache', (fetchObject g call w r bucket key userID m).2 = { w with cache := some cache' } ∧
      Fills bucket key cache cache' fun value => cacheable m (r.headerGet (str "Range")) = true ∧
        ∃ body opened, Storage.get g.tiers call.disk w.fs bucket key m.storageTier = .ok body ∧
          openObject g call w.keys r bucket key userID m body = .ok opened ∧
          readAll (limited cachedLimit opened.data) = .ok value := by
  have same : w = { w with cache := some cache } := by rw [← has]
  unfold fetchObject
  cases got : Storage.get g.tiers call.disk w.fs bucket key m.storageTier with
  | error e => exact ⟨cache, same, .refl cache _⟩
  | ok body =>
    simp only
    cases opens : openObject g call w.keys r bucket key userID m body with
    | error reply => exact ⟨cache, same, .refl cache _⟩
    | ok opened =>
      unfold answerObject
      simp only
      by_cases whole : r.headerGet (str "Range") = []
      · rw [if_pos whole]
        refine (sendBody_fills has).imp fun cache' ⟨left, keeps, fills⟩ => ⟨left, keeps, fun item held => ?_⟩
        exact (fills item held).imp_right fun ⟨caching, read⟩ => ⟨caching, body, opened, rfl, opens, read⟩
      rw [if_neg whole]
      split
      · exact ⟨cache, same, .refl cache _⟩
      · refine (sendBody_fills has).imp fun cache' ⟨left, keeps, fills⟩ => ⟨left, keeps, fun item held => ?_⟩
        refine (fills item held).imp_right fun ⟨caching, _⟩ => ?_
        simp [cacheable, whole] at caching

theorem cachedObject_fills (call : Call κ) (r : Request) (m : ObjectMetadata) (value : Bytes → Prop)
    (has : w.cache = some cache) : ∃ cache', (cachedObject call w r bucket key m).2 = { w with cache := some cache' } ∧
      Fills bucket key cache cache' value := by
  have same : w = { w with cache := some cache } := by rw [← has]
  unfold cachedObject
  rw [has]
  cases cacheable m (r.headerGet (str "Range")) with
  | false => exact ⟨cache, same, .refl cache _⟩
  | true =>
    obtain ⟨lives, keeps⟩ := ObjectCache.get_keeps call.db.now cache (cacheKey bucket key)
    exact ⟨_, rfl, lives, fun item held => .inl (keeps item held)⟩

/-- What a read brings into the cache is what it read from the tier. -/
theorem serveObject_fills (g : Config) (call : Call κ) (r : Request) (bucket key userID : Bytes)
    (has : w.cache = some cache) :
    ∃ cache', (serveObject g call w r bucket key userID).2 = { w with cache := some cache' } ∧
      Fills bucket key cache cache' fun value => ∃ m, getObject w.metadata bucket key = .ok m ∧
        cacheable m (r.headerGet (str "Range")) = true ∧
        ∃ body opened, Storage.get g.tiers call.disk w.fs bucket key m.storageTier = .ok body ∧
          openObject g call w.keys r bucket key userID m body = .ok opened ∧
          readAll (limited cachedLimit opened.data) = .ok value := by
  have same : w = { w with cache := some cache } := by rw [← has]
  unfold serveObject
  cases found : getObject w.metadata bucket key with
  | error e => exact ⟨cache, same, .refl cache _⟩
  | ok m =>
    simp only
    split
    · exact ⟨cache, same, .refl cache _⟩
    split
    · exact ⟨cache, same, .refl cache _⟩
    obtain ⟨cache₁, left, looked⟩ := cachedObject_fills call r m _ has
    split
    · next hit =>
      rw [hit] at left
      exact ⟨cache₁, left, looked⟩
    rename_i w₁ miss
    rw [miss] at left
    obtain rfl : w₁ = { w with cache := some cache₁ } := left
    have has₁ : { w with cache := some cache₁ }.cache = some cache₁ := rfl
    obtain ⟨cache₂, left₂, lives₂, fills⟩ := fetchObject_fills g call r userID m has₁
    refine ⟨cache₂, left₂, looked.trans ⟨lives₂, fun item held => (fills item held).imp_right ?_⟩⟩
    exact fun ⟨caching, body, opened, got, opens, read⟩ =>
      ⟨m, rfl, caching, body, opened, got, opens, read⟩

/-- An object below the limit is read as a whole or not at all. -/
theorem stored_fill (stored : Stored g bucket key w data) {opened : Opened} {value : Bytes}
    (found : getObject w.metadata bucket key = .ok m) (small : m.size < limit)
    (got : Storage.get g.tiers call.disk w.fs bucket key m.storageTier = .ok body)
    (opens : openObject g call w.keys r bucket key userID m body = .ok opened)
    (read : readAll (limited limit opened.data) = .ok value) : value = data := by
  obtain ⟨_, found', -, size, plain, ownKey, tier⟩ := stored.record
  cases found.symm.trans found'
  rw [openObject_plain ownKey (.inl plain)] at opens
  cases opens
  obtain ⟨_, registered, file⟩ := stored.file
  rw [objectPath] at file
  rw [size] at small
  simp only [Storage.get, tier, registered, FileBackend.get, file] at got
  cases opening : call.disk.opening with
  | some e => simp [opening] at got
  | none =>
    simp only [opening, Except.ok.injEq] at got
    subst got
    unfold contents at read
    cases reading : call.disk.reading with
    | none =>
      simp only [reading, limited, if_pos small, readAll] at read
      exact (Except.ok.inj read).symm
    | some fault =>
      have shorter : ((data.take fault.1).length : Int) < limit := by
        rw [List.length_take]
        omega
      simp only [reading, limited, if_pos shorter, readAll] at read
      cases read

/-- A read leaves the cache right. -/
theorem serveObject_agrees (call : Call κ) (r : Request) (userID : Bytes) (has : w.cache = some cache)
    (stored : Stored g bucket key w data) (agrees : Agrees bucket key w data) :
    Agrees bucket key (serveObject g call w r bucket key userID).2 data := by
  obtain ⟨cache', left, -, fills⟩ := serveObject_fills g call r bucket key userID has
  rw [left]
  refine agrees.imp_right fun right cache'' item has' held => ?_
  cases has'
  rcases fills item held with ⟨item', held', same⟩ | ⟨m, found, caching, body, opened, got, opens, read⟩
  · rw [← same]
    exact right cache item' has held'
  · simp only [cacheable, Bool.and_eq_true, decide_eq_true_eq] at caching
    exact stored_fill stored found caching.1.1 got opens read

theorem precondition_none (full : FullGet call r) (m : ObjectMetadata) : precondition call r m = none := by
  unfold precondition
  simp [full.anyEtag, full.anyMatch, full.anyTime]

/-- A full read is answered from the cache with a live item of a cacheable object. -/
theorem cachedObject_some {value : Bytes} (full : FullGet call r) :
    (cachedObject call w r bucket key m).1 = some value ↔ m.size < cachedLimit ∧ m.encrypted = false ∧
      ∃ cache item, w.cache = some cache ∧ cache.items (cacheKey bucket key) = some item ∧
        (call.db.now : Int) - item.createdAt ≤ cache.ttl ∧ item.value = value := by
  unfold cachedObject
  rw [full.whole]
  cases w.cache with
  | none => simp
  | some cache =>
    cases caching : cacheable m [] with
    | true =>
      have small : m.size < cachedLimit ∧ m.encrypted = false := by
        simpa [cacheable] using caching
      simp only [some.injEq, small, true_and]
      rw [ObjectCache.get_eq_some_iff]
      constructor
      · rintro ⟨item, found⟩
        exact ⟨cache, item, rfl, found⟩
      · rintro ⟨_, item, rfl, found⟩
        exact ⟨item, found⟩
    | false =>
      have big : ¬ (m.size < cachedLimit ∧ m.encrypted = false) := by
        intro both
        simp [cacheable, both] at caching
      simp only [reduceCtorEq, false_iff]
      rintro ⟨small, plain, -⟩
      exact big ⟨small, plain⟩

/-- A stored object is shown if the cache agrees. -/
theorem shown_of_agrees (cached : Cached w) (stored : Stored g bucket key w data) (agrees : Agrees bucket key w data) :
    Shown g bucket key ⟨w, some (some data)⟩ := by
  intro call r userID full
  obtain ⟨m, found, live, _, -⟩ := stored.record
  obtain ⟨cache, has, -⟩ := cached
  obtain ⟨cache', left, -⟩ := cachedObject_fills call r m (fun _ => True) has
  unfold serveObject
  simp only [found, live, Bool.false_eq_true, if_false, precondition_none full]
  rcases looked : cachedObject call w r bucket key m with ⟨- | _, w₁⟩
  · rw [looked] at left
    obtain rfl : w₁ = { w with cache := some cache' } := left
    exact fetchObject_reply ⟨stored.record, stored.file⟩ full found
  · obtain ⟨_, -, cache, item, has, held, -, rfl⟩ := (cachedObject_some full).mp (congrArg Prod.fst looked)
    rcases agrees with _ | right
    · omega
    · rw [← right cache item has held]
      exact ⟨_, rfl⟩

/-- A request for an object that says nothing more. -/
def bareRequest : Request where
  method := str "GET"
  host := []
  path := []
  rawQuery := []
  header := []
  remoteAddr := []
  contentLength := 0
  body := ⟨[], some .eof⟩

/-- The read that shows whether the cache is right: at the moment the item came
into it. -/
theorem agrees_of_shown (call : Call κ) (cached : Cached w) (stored : Stored g bucket key w data)
    (shown : Shown g bucket key ⟨w, some (some data)⟩) : Agrees bucket key w data := by
  by_contra stale
  simp only [Agrees, not_or, not_forall] at stale
  obtain ⟨_, cache, item, has, held, other⟩ := stale
  obtain ⟨m, found, live, _, plain, -⟩ := stored.record
  obtain ⟨_, has', _⟩ := cached
  cases has.symm.trans has'
  obtain ⟨reader, now, sound⟩ : ∃ reader : Call κ, reader.db.now = item.createdAt ∧ reader.disk = Disk.sound [] :=
    ⟨{ call with disk := Disk.sound [], db := { call.db with now := item.createdAt } }, rfl, rfl⟩
  have reading : FullGet reader bareRequest := ⟨rfl, rfl, rfl, rfl, by rw [sound]; rfl, by rw [sound]; rfl⟩
  obtain ⟨_, sent⟩ := shown reader bareRequest [] reading
  have alive : (reader.db.now : Int) - item.createdAt ≤ cache.ttl := by
    rw [now]
    omega
  have hit := (cachedObject_some reading).mpr ⟨by omega, plain, cache, item, has, held, alive, rfl⟩
  rcases looked : cachedObject reader w bareRequest bucket key m with ⟨found, _⟩
  obtain rfl : found = some item.value := by rwa [looked] at hit
  unfold serveObject at sent
  simp only [found, live, Bool.false_eq_true, if_false, precondition_none reading, looked] at sent
  obtain ⟨-, -, same, -⟩ := Reply.sent.inj sent
  exact other same

/-! ### Writing -/

/-- A plan for these bytes, unencrypted and with the right size, if its reader
gets to the end. -/
structure PlanFor (plan : Plan) (data : Bytes) : Prop where
  bytes : plan.data.err = none ∨ plan.data.err = some .eof → plan.data.bytes = data ∧ plan.size = data.length
  size : plan.record.size = plan.size
  plain : plan.record.encrypted = false
  ownKey : plan.record.ssecUsed = false
  live : plan.record.deleteMarker = false
  tier : plan.record.storageTier = tierHot

theorem resolved_body {contentLength : Int} (honest : r.contentLength < 0 ∨ r.contentLength = r.body.bytes.length)
    (resolved : resolveUploadContentLength g r = .ok (contentLength, body)) :
    body.bytes = r.body.bytes ∧ contentLength = r.body.bytes.length := by
  have whole := resolved_bytes resolved
  refine ⟨whole, ?_⟩
  unfold resolveUploadContentLength at resolved
  simp only at resolved
  split at resolved
  · split at resolved
    · cases resolved
    · rw [← (Prod.mk.inj (Except.ok.inj resolved)).1]
      exact honest.resolve_left (by omega)
  · split at resolved
    · cases resolved
    · split at resolved
      · cases resolved
      · obtain ⟨rfl, rfl⟩ := Prod.mk.inj (Except.ok.inj resolved)
        rw [← whole]

theorem mergeParts_length (faults : Completion) (t : FileTree) (uploadsDir : Path) (uploadID : Bytes) (total : Int)
    (parts : List UploadPart) (merged : Bytes)
    (ended : (mergeParts faults t uploadsDir uploadID total parts merged).err = none ∨
      (mergeParts faults t uploadsDir uploadID total parts merged).err = some .eof) :
    total = (mergeParts faults t uploadsDir uploadID total parts merged).bytes.length := by
  induction parts generalizing merged with
  | nil =>
    unfold mergeParts at ended ⊢
    by_cases short : (merged.length : Int) ≠ total
    · rw [if_pos short] at ended
      rcases ended with ended | ended <;> cases ended
    · rw [if_neg short]
      exact (not_not.mp short).symm
  | cons part rest ih =>
    unfold mergeParts at ended ⊢
    simp only at ended ⊢
    split at ended
    · rcases ended with ended | ended <;> cases ended
    · split at ended
      · rcases ended with ended | ended <;> cases ended
      · next read => simpa only [read] using ih _ ended

theorem planFor_put (regular : Regular g bucket key w (.write (.put call r)))
    (prepared : preparedPut g call r bucket key w = some (.ok (w₁, p))) :
    PlanFor p.plan (written g w (.put call r)) := by
  obtain ⟨plain, keyless, honest⟩ := regular
  obtain ⟨_, _, contentLength, body, plan, resolved, planned, rfl⟩ := preparedPut_spec.ok prepared
  obtain ⟨same, length⟩ := resolved_body honest resolved
  have unsealed : plan = ⟨body, contentLength, buildActiveObjectMetadata call bucket key
      ⟨contentLength, objectContentType r, parseUserMetadata r, false, [], none⟩⟩ := by
    unfold preparePut at planned
    simp only [keyless] at planned
    split at planned
    · next crypto enabled =>
      rcases plain with absent | disabled
      · rw [absent] at crypto
        cases crypto
      · rw [disabled] at enabled
        cases enabled
    · exact (Except.ok.inj (Prod.mk.inj planned).1).symm
  subst unsealed
  exact ⟨fun _ => ⟨same, length⟩, rfl, rfl, rfl, rfl, rfl⟩

theorem planFor_copy (regular : Regular g bucket key w (.write (.copy call r)))
    (prepared : preparedCopy g call r bucket key w = some (.ok (w₁, p))) :
    PlanFor p.plan (written g w (.copy call r)) := by
  obtain ⟨_, srcBucket, srcKey, source, data, named_, found, got, rfl, rfl⟩ := preparedCopy_spec.ok prepared
  obtain ⟨plain, size⟩ := regular srcBucket srcKey source data named_ found got
  have same : written g w (.copy call r) = data.bytes := by simp only [written, named_, found, got]
  rw [same]
  exact ⟨fun _ => ⟨rfl, size⟩, rfl, plain, rfl, rfl, rfl⟩

theorem planFor_finalize {faults : Finalization} (regular : Regular g bucket key w (.write (.finalize call faults r)))
    (prepared : preparedFinalize g call faults r bucket key w = some (.ok (w₁, p))) :
    PlanFor p.plan (written g w (.finalize call faults r)) := by
  obtain ⟨_, _, _, contentLength, data, _, _, -, opened, planned, rfl⟩ :=
    preparedFinalize_spec.ok prepared
  have whole : data.err = none ∨ data.err = some .eof → data.bytes = written g w (.finalize call faults r) ∧
        contentLength = (written g w (.finalize call faults r)).length := by
    unfold openTemp at opened
    unfold written
    split at opened
    · cases opened
    split at opened
    · next content file =>
      split at opened
      · cases opened
      · split at opened
        · obtain ⟨rfl, rfl⟩ := Prod.mk.inj (Except.ok.inj opened)
          simp [file]
        · obtain ⟨rfl, rfl⟩ := Prod.mk.inj (Except.ok.inj opened)
          rintro (ended | ended) <;> cases ended
    · obtain ⟨rfl, rfl⟩ := Prod.mk.inj (Except.ok.inj opened)
      rintro (ended | ended) <;> cases ended
    · cases opened
  unfold prepareFinalize at planned
  split at planned
  · next crypto enabled =>
    rcases regular.1 with absent | disabled
    · rw [absent] at crypto
      cases crypto
    · rw [disabled] at enabled
      cases enabled
  · obtain rfl := Except.ok.inj (Prod.mk.inj planned).1
    exact ⟨whole, rfl, rfl, rfl, rfl, rfl⟩

theorem planFor_write (regular : Regular g bucket key w (.write write))
    (prepared : write.prepare g bucket key w = some (.ok (w₁, p))) : PlanFor p.plan (written g w write) := by
  cases write with
  | put call r => exact planFor_put regular prepared
  | copy call r => exact planFor_copy regular prepared
  | complete call faults r =>
    obtain ⟨_, upload, found, rfl, rfl⟩ := preparedComplete_spec.ok prepared
    exact ⟨fun ended => ⟨rfl, mergeParts_length _ _ _ _ _ _ _ ended⟩, rfl, regular.1 upload found, rfl, rfl, rfl⟩
  | finalize call faults r => exact planFor_finalize regular prepared

/-- The clean-up after a write that succeeds may remove this file. -/
def Sweeps (g : Config) (path : Path) : Write κ → Prop
  | .put _ _ | .copy _ _ => False
  | .complete _ _ r => getUploadDir g.uploadsDir (r.queryGet (str "uploadId")) <+: path
  | .finalize _ _ r => path = getTempFilePath g (r.queryGet (str "uploadId"))

/-- Once an object is recorded, its request touches neither the records nor the
cache nor the keys any more, and leaves every other file. -/
theorem conclude_shape (prepared : write.prepare g bucket key w = some (.ok (w₁, p))) (w₂ : World κ)
    (record : ObjectMetadata) :
    ∃ fs uploads sessions, (p.conclude w₂ record).2 = { w₂ with fs, uploads, sessions } ∧
      ∀ path, ¬ Sweeps g path write → fs.entry path = w₂.fs.entry path := by
  cases write with
  | put call r =>
    obtain ⟨-, -, -, -, -, -, -, rfl⟩ := preparedPut_spec.ok prepared
    exact ⟨w₂.fs, w₂.uploads, w₂.sessions, rfl, fun _ _ => rfl⟩
  | copy call r =>
    obtain ⟨-, -, -, -, -, -, -, -, -, rfl⟩ := preparedCopy_spec.ok prepared
    exact ⟨w₂.fs, w₂.uploads, w₂.sessions, rfl, fun _ _ => rfl⟩
  | complete call faults r =>
    obtain ⟨-, -, -, -, rfl⟩ := preparedComplete_spec.ok prepared
    have kept (path : Path) (unswept : ¬ getUploadDir g.uploadsDir (r.queryGet (str "uploadId")) <+: path) :
        (cleanupParts faults.cleanup w₂.fs g.uploadsDir (r.queryGet (str "uploadId"))).2.entry path =
          w₂.fs.entry path := by
      by_contra changed
      rcases cleanupParts_frame _ _ _ _ _ changed with ⟨_, -, below⟩ | ⟨own, -⟩
      · exact unswept below
      · exact unswept (own ▸ List.prefix_refl _)
    simp only [Prepared.settled, concludeComplete]
    split <;> exact ⟨_, _, w₂.sessions, rfl, kept⟩
  | finalize call faults r =>
    obtain ⟨-, -, session, -, -, -, -, -, -, -, rfl⟩ := preparedFinalize_spec.ok prepared
    obtain ⟨fs, sessions, shape, kept⟩ := concludeFinalize_shape faults w₂ session (r.queryGet (str "uploadId"))
      record.encrypted
    exact ⟨fs, w₂.uploads, sessions, shape, kept⟩

/-- A write that succeeds records what it planned, and the bytes are in place
unless its own clean-up reaches them. -/
theorem write_placed (done : write.handle g bucket key w = some (reply, w')) (succeeded : reply.Succeeded) :
    ∃ w₁ p checksum root, write.prepare g bucket key w = some (.ok (w₁, p)) ∧
      (p.plan.data.err = none ∨ p.plan.data.err = some .eof) ∧
      getObject w'.metadata bucket key = .ok (stamped write.call.db (p.record checksum)).decoded ∧
      w'.cache = w.cache ∧ g.tiers tierHot = some root ∧
      (¬ Sweeps g (objectPath root bucket key) write →
        w'.fs.entry (objectPath root bucket key) = some (.file p.plan.data.bytes)) := by
  obtain ⟨w₁, p, fs, checksum, metadata, prepared, put, recorded, concluded⟩ := handle_succeeded done succeeded
  obtain ⟨logins, keys, rfl⟩ := prepare_untouched prepared
  obtain ⟨root, _, registered, writable, -, entries⟩ := put_ok put
  obtain ⟨_, _, _, shape, kept⟩ := conclude_shape prepared
    { w with logins, keys, fs, metadata } (p.record checksum)
  have found := getObject_putObject (congrArg Prod.fst recorded)
  rw [concluded] at shape
  obtain rfl : w' = _ := shape
  rw [recorded] at found
  refine ⟨_, p, checksum, root, prepared, writable.written.2.1, found, rfl, registered, fun unswept => ?_⟩
  exact (kept _ unswept).trans ((entries _).trans (if_pos rfl))

theorem unswept_of_regular (regular : Regular g bucket key w (.write write)) {root : Path}
    (registered : g.tiers tierHot = some root) : ¬ Sweeps g (objectPath root bucket key) write := by
  cases write with
  | put call r => exact id
  | copy call r => exact id
  | complete call faults r => exact regular.2 root registered
  | finalize call faults r => exact regular.2 root registered

/-- A write that succeeds stores what it is about, and leaves the cache. -/
theorem write_stored (regular : Regular g bucket key w (.write write))
    (done : write.handle g bucket key w = some (reply, w')) (succeeded : reply.Succeeded) :
    w'.cache = w.cache ∧ Stored g bucket key w' (written g w write) := by
  obtain ⟨_, p, checksum, root, prepared, ended, found, cache, registered, file⟩ := write_placed done succeeded
  have plan := planFor_write regular prepared
  obtain ⟨same, size⟩ := plan.bytes ended
  have placed := file (unswept_of_regular regular registered)
  rw [same] at placed
  exact ⟨cache, ⟨(stamped write.call.db (p.record checksum)).decoded, found, plan.live, plan.size.trans size,
    plan.plain, plan.ownKey, plan.tier⟩, root, registered, placed⟩

/-! ### Deleting -/

/-- There is no record. -/
def Absent (bucket key : Bytes) (w : World κ) : Prop := w.metadata.objects.get (objectKey bucket key) = none

theorem Absent.gone (absent : Absent bucket key w) : Gone bucket key w := by
  intro m found
  rw [getObject, absent] at found
  cases found

theorem deleteObject_absent {env : Metadata.Env} {s s' : Store}
    (done : deleteObject env s bucket key = (.ok (), s')) : s'.objects.get (objectKey bucket key) = none := by
  unfold deleteObject at done
  split at done
  · cases done
  split at done
  · next absent =>
    obtain rfl := (Prod.mk.inj done).2
    exact absent
  · obtain rfl := (Prod.mk.inj done).2
    exact Table.get_delete_same _ _

/-- A removal leaves a cache, brings back no record and, if it succeeds, takes
its own away. -/
theorem removeObject_keeps (g : Config) (call : Call κ) (w : World κ) (bucket key other : Bytes) (m : ObjectMetadata) :
    (Cached w → Cached (removeObject g call w bucket other m).2) ∧
      (Absent bucket key w → Absent bucket key (removeObject g call w bucket other m).2) ∧
      ((removeObject g call w bucket other m).1 = .ok () →
        Absent bucket other (removeObject g call w bucket other m).2) := by
  have emptied (fs : FileTree) (metadata : Store) (cached : Cached w) : Cached { w with
        fs, metadata, cache := w.cache.map fun cache => ObjectCache.delete cache (cacheKey bucket other) } := by
    obtain ⟨cache, has, live⟩ := cached
    exact ⟨cache.delete (cacheKey bucket other), by rw [has]; rfl, live⟩
  have dropped (absent : Absent bucket key w) :
      (deleteObject call.db w.metadata bucket other).2.objects.get (objectKey bucket key) = none := by
    rcases deleteObject_objects call.db w.metadata bucket other with same | less
    · rw [same]
      exact absent
    rw [less]
    by_cases own : objectKey bucket other = objectKey bucket key
    · rw [own]
      exact Table.get_delete_same _ _
    · rw [Table.get_delete_ne _ own]
      exact absent
  unfold removeObject
  split
  · exact ⟨fun cached => cached, fun absent => absent, nofun⟩
  simp only
  rcases deleting : deleteObject call.db w.metadata bucket other with ⟨_ | ⟨⟩, metadata⟩
  · rw [deleting] at dropped
    exact ⟨emptied _ _, dropped, nofun⟩
  · rw [deleting] at dropped
    exact ⟨emptied _ _, dropped, fun _ => deleteObject_absent deleting⟩

theorem deletedReply_world {call : Call κ} {r : Request} (done : deletedReply g call r headers w = (reply, w')) :
    ∃ logins, w' = { w with logins } := by
  unfold deletedReply at done
  rcases withUserID_cases g call w r fun _ w => (.sent 204 headers [] none, w) with
    ⟨logins, panicked⟩ | ⟨_, logins, answered⟩
  · rw [panicked] at done
    exact ⟨logins, (Prod.mk.inj done).2.symm⟩
  · rw [answered] at done
    exact ⟨logins, (Prod.mk.inj done).2.symm⟩

/-- A deletion that succeeds leaves no object to be read. -/
theorem handleDeleteObject_gone (cached : Cached w)
    (done : handleDeleteObject g call w r bucket key = some (reply, w')) (succeeded : reply.Succeeded) :
    Cached w' ∧ Gone bucket key w' := by
  unfold handleDeleteObject at done
  split at done
  · cases done
    exact succeeded.elim
  rcases identified_cases done with ⟨_, -, panicked | ⟨_, denied⟩⟩ | ⟨_, logins, -, goesOn⟩
  · obtain rfl := panicked
    exact succeeded.elim
  · obtain rfl := denied
    exact succeeded.elim
  split at goesOn
  · next missing =>
    cases goesOn
    refine ⟨cached, fun m found => ?_⟩
    rw [found] at missing
    cases missing
  · next m found =>
    have answered := some.inj goesOn
    unfold deleteExisting at answered
    simp only at answered
    split at answered
    · cases answered
      exact succeeded.elim
    split at answered
    · split at answered
      · cases answered
        exact succeeded.elim
      rename_i metadata marked
      obtain ⟨logins', rfl⟩ := deletedReply_world answered
      refine ⟨cached, fun m' found' => ?_⟩
      have marker := getObject_putObject (congrArg Prod.fst marked)
      rw [marked] at marker
      cases marker.symm.trans found'
      rfl
    · split at answered
      · cases answered
        exact succeeded.elim
      rename_i w₁ removed
      obtain ⟨logins', rfl⟩ := deletedReply_world answered
      obtain ⟨keeps, -, absent⟩ := removeObject_keeps g call { w with logins } bucket key key m
      rw [removed] at keeps absent
      exact ⟨keeps cached, (absent rfl).gone⟩

/-- In a batch without failures every key that is named loses its record. -/
theorem deleteEach_absent (keys : List Bytes) {gone : List (Bytes × Bytes)}
    (done : deleteEach g call bucket keys w = ((gone, []), w')) :
    (Cached w → Cached w') ∧ (Absent bucket key w ∨ key ∈ keys → Absent bucket key w') := by
  induction keys generalizing w gone with
  | nil =>
    cases done
    exact ⟨id, fun absent => absent.resolve_right List.not_mem_nil⟩
  | cons head rest ih =>
    unfold deleteEach at done
    split at done
    · cases done
    rename_i m found
    obtain ⟨keeps, stays, absent⟩ := removeObject_keeps g call w bucket key head m
    split at done
    · cases done
    rename_i w₁ removed
    rw [removed] at keeps stays absent
    rcases later : deleteEach g call bucket rest w₁ with ⟨⟨gone', failed⟩, w₂⟩
    simp only [later] at done
    cases done
    obtain ⟨keeps', stays'⟩ := ih later
    refine ⟨fun cached => keeps' (keeps cached), ?_⟩
    rintro (before | named)
    · exact stays' (.inl (stays before))
    · rcases List.mem_cons.mp named with rfl | named
      · exact stays' (.inl (absent rfl))
      · exact stays' (.inr named)

theorem handleDeleteObjects_gone {parse : Bytes → Except Bytes (List Bytes × Bool)} (cached : Cached w)
    (regular : Regular g bucket key w (.deleteMany call parse r))
    (done : handleDeleteObjects g call parse w r bucket = (reply, w')) (succeeded : reply.Succeeded) :
    Cached w' ∧ Gone bucket key w' := by
  unfold handleDeleteObjects at done
  split at done
  · cases done
    exact succeeded.elim
  split at done
  · cases done
    exact succeeded.elim
  rename_i body read
  split at done
  · cases done
    exact succeeded.elim
  rename_i keys quiet parsed
  have named_ := regular body keys quiet read parsed
  rcases withUserID_cases g call w r _ with ⟨logins, panicked⟩ | ⟨_, logins, answered⟩
  · rw [panicked] at done
    cases done
    exact succeeded.elim
  rw [answered] at done
  rcases each : deleteEach g call bucket keys { w with logins } with ⟨⟨gone, failed⟩, w₁⟩
  simp only [each] at done
  cases done
  obtain rfl : failed = [] := succeeded
  obtain ⟨keeps, absent⟩ := deleteEach_absent keys each
  exact ⟨keeps cached, (absent (.inr named_)).gone⟩

theorem shown_of_gone (gone : Gone bucket key w) : Shown g bucket key ⟨w, some none⟩ := by
  intro call r userID _
  simp only [serveObject]
  cases found : getObject w.metadata bucket key with
  | error e => exact ⟨_, rfl⟩
  | ok m =>
    simp only [gone m found, if_true]
    exact ⟨_, rfl⟩

/-! ### Runs keep this -/

/-- A read is turned away, or served in a world that differs in the failed
logins. -/
theorem handleGetObject_cases (done : handleGetObject g call w r bucket key = some (reply, w')) :
    (∃ logins, w' = { w with logins }) ∨
      ∃ userID logins, (serveObject g call { w with logins } r bucket key userID) = (reply, w') := by
  have served (w : World κ) (answered : (withUserID g call w r fun userID w =>
      serveObject g call w r bucket key userID) = (reply, w')) : (∃ logins, w' = { w with logins }) ∨
      ∃ userID logins, (serveObject g call { w with logins } r bucket key userID) = (reply, w') := by
    rcases withUserID_cases g call w r fun userID w => serveObject g call w r bucket key userID with
      ⟨logins, panicked⟩ | ⟨userID, logins, goesOn⟩
    · rw [panicked] at answered
      exact .inl ⟨logins, (Prod.mk.inj answered).2.symm⟩
    · rw [goesOn] at answered
      exact .inr ⟨userID, logins, answered⟩
  unfold handleGetObject at done
  split at done
  · cases done
    exact .inl ⟨w.logins, rfl⟩
  · split at done
    · exact served w (some.inj done)
    · rcases identified_cases done with ⟨logins, same, -⟩ | ⟨_, logins, -, goesOn⟩
      · exact .inl ⟨logins, same⟩
      · exact served { w with logins } (some.inj goesOn)

/-- A read changes nothing but the failed logins and the cache, which it leaves
right. -/
theorem handleGetObject_keeps (cached : Cached w) (done : handleGetObject g call w r bucket key = some (reply, w')) :
    Cached w' ∧ (Gone bucket key w → Gone bucket key w') ∧
      ∀ data, Stored g bucket key w data → Stored g bucket key w' data ∧
        (Agrees bucket key w data → Agrees bucket key w' data) := by
  obtain ⟨cache, has, live⟩ := cached
  rcases handleGetObject_cases done with ⟨logins, rfl⟩ | ⟨userID, logins, served⟩
  · exact ⟨⟨cache, has, live⟩, id, fun data stored => ⟨⟨stored.record, stored.file⟩, id⟩⟩
  have has' : { w with logins }.cache = some cache := has
  obtain ⟨cache', left, lives, -⟩ := serveObject_fills g call r bucket key userID has'
  have right (data : Bytes) (stored : Stored g bucket key w data) (agrees : Agrees bucket key w data) :
      Agrees bucket key (serveObject g call { w with logins } r bucket key userID).2 data :=
    serveObject_agrees call r userID has' ⟨stored.record, stored.file⟩ agrees
  rw [served] at left right
  obtain rfl : w' = { w with logins, cache := some cache' } := left
  exact ⟨⟨cache', rfl, lives ▸ live⟩, id, fun data stored => ⟨⟨stored.record, stored.file⟩, right data stored⟩⟩

/-- What a step leaves, and when it shows. -/
theorem step_shown_iff {s' : State κ} {event : Event κ} (kept : Kept g bucket key s)
    (regular : Regular g bucket key s.world event) (stepped : step g bucket key s event = some s') :
    Kept g bucket key s' ∧ (Shown g bucket key s → (Shown g bucket key s' ↔ Fresh g bucket key s.world event)) := by
  obtain ⟨w, last⟩ := s
  have cached : Cached w := kept.cached
  unfold step at stepped
  rcases answered : answer g bucket key w event with - | ⟨_, w'⟩
  · rw [answered] at stepped
    cases stepped
  simp only [answered] at stepped
  split at stepped
  swap
  · cases stepped
  next counts =>
  cases stepped
  cases event with
  | write write =>
    obtain ⟨same, stored⟩ := write_stored regular answered counts
    have cached' : Cached w' := by
      rw [Cached, same]
      exact cached
    refine ⟨⟨cached', stored⟩, fun _ => ?_⟩
    have agrees_iff : Agrees bucket key w' (written g w write) ↔ Agrees bucket key w (written g w write) := by
      rw [Agrees, Agrees, same]
    rw [Fresh, ← agrees_iff]
    exact ⟨agrees_of_shown write.call cached' stored, shown_of_agrees cached' stored⟩
  | delete call r =>
    obtain ⟨cached', gone⟩ := handleDeleteObject_gone cached answered counts
    exact ⟨⟨cached', gone⟩, fun _ => iff_of_true (shown_of_gone gone) trivial⟩
  | deleteMany call parse r =>
    obtain ⟨cached', gone⟩ := handleDeleteObjects_gone cached regular (some.inj answered) counts
    exact ⟨⟨cached', gone⟩, fun _ => iff_of_true (shown_of_gone gone) trivial⟩
  | get call r =>
    obtain ⟨cached', gone, stored⟩ := handleGetObject_keeps cached answered
    have placed := kept.placed
    rcases last with - | - | data
    · exact ⟨⟨cached', trivial⟩, fun _ => iff_of_true (fun _ _ _ _ => trivial) trivial⟩
    · exact ⟨⟨cached', gone placed⟩, fun _ => iff_of_true (shown_of_gone (gone placed)) trivial⟩
    · obtain ⟨stored', agrees⟩ := stored data placed
      refine ⟨⟨cached', stored'⟩, fun shown => iff_of_true ?_ trivial⟩
      exact shown_of_agrees cached' stored' (agrees (agrees_of_shown call cached placed shown))

theorem run_shown_iff (events : List (Event κ)) (kept : Kept g bucket key s) (shown : Shown g bucket key s)
    (regular : Throughout g bucket key (Regular g bucket key) s events) :
    Always g bucket key (Shown g bucket key) s events ↔ Throughout g bucket key (Fresh g bucket key) s events := by
  induction events generalizing s with
  | nil => exact iff_of_true shown trivial
  | cons event later ih =>
    have next (s' : State κ) (stepped : step g bucket key s event = some s') :
        Always g bucket key (Shown g bucket key) s' later ↔
          Fresh g bucket key s.world event ∧ Throughout g bucket key (Fresh g bucket key) s' later := by
      obtain ⟨regular, regularLater⟩ := regular s' stepped
      obtain ⟨kept', shown_iff⟩ := step_shown_iff kept regular stepped
      rw [← shown_iff shown]
      by_cases shown' : Shown g bucket key s'
      · rw [ih kept' shown' regularLater, and_iff_right shown']
      · refine iff_of_false (fun always => shown' ?_) fun both => shown' both.1
        cases later with
        | nil => exact always
        | cons _ _ => exact always.1
    constructor
    · exact fun always s' stepped => (next s' stepped).mp (always.2 s' stepped)
    · exact fun fresh => ⟨shown, fun s' stepped => (next s' stepped).mpr (fresh s' stepped)⟩

theorem Always.at_end {holds : State κ → Prop} {s' : State κ} {events : List (Event κ)}
    (always : Always g bucket key holds s events) (followed : follow g bucket key s events = some s') : holds s' := by
  induction events generalizing s with
  | nil =>
    cases followed
    exact always
  | cons event later ih =>
    obtain ⟨s₁, stepped, followed⟩ := bind_eq_some_iff.mp followed
    exact ih (always.2 s₁ stepped) followed

end

/-- With a cache, full reads return what was last written throughout a run
exactly if every write of the run finds the cache right for what it writes. -/
theorem coherent_iff (g : Config) (bucket key : Bytes) (w : World κ) (events : List (Event κ)) (cached : Cached w)
    (regular : Throughout g bucket key (Regular g bucket key) ⟨w, none⟩ events) :
    Always g bucket key (Shown g bucket key) ⟨w, none⟩ events ↔
      Throughout g bucket key (Fresh g bucket key) ⟨w, none⟩ events :=
  run_shown_iff events ⟨cached, trivial⟩ (fun _ _ _ _ => trivial) regular

open Resumable.Sample

namespace Sample

open Resumable.Sample (config call request)

theorem nothing_distinct : ([] : List CacheItem).Pairwise (·.key ≠ ·.key) := List.Pairwise.nil

/-- Nothing stored and nothing cached. -/
def world : World Unit := { Resumable.Sample.world with cache := some ⟨[], 1000, 1000, nothing_distinct⟩ }

def put (body : Bytes) : Event Unit := .write (.put call (request (str "PUT") [] [] ⟨body, some .eof⟩))

def read : Request := request (str "GET") [] [] ⟨[], some .eof⟩

def get : Event Unit := .get call read

def followed (events : List (Event Unit)) : Option (State Unit) :=
  follow config (str "b") (str "k") ⟨world, none⟩ events

/-- The bytes that come with a status 200. -/
def body : Reply → Option Bytes
  | .sent 200 _ body none => some body
  | _ => none

theorem body_eq {bytes : Bytes} (has : body reply = some bytes) : ∃ headers, reply = .sent 200 headers bytes none := by
  unfold body at has
  split at has
  · cases has
    exact ⟨_, rfl⟩
  · cases has

end Sample

open CacheCoherence.Sample

/-- Written, read, overwritten: the next read returns the old bytes. -/
theorem overwrite_hidden :
    ∃ s, Sample.followed [Sample.put (str "one"), Sample.get, Sample.put (str "two")] = some s ∧
      s.last = some (some (str "two")) ∧
      (∃ headers, (serveObject config Resumable.Sample.call s.world read (str "b") (str "k")
        []).1 = .sent 200 headers (str "one") none) ∧
      ¬ Always config (str "b") (str "k") (Shown config (str "b") (str "k")) ⟨Sample.world, none⟩
        [Sample.put (str "one"), Sample.get, Sample.put (str "two")] := by
  have ran : (Sample.followed [Sample.put (str "one"), Sample.get, Sample.put (str "two")]).map (fun s =>
      (s.last, body (serveObject config Resumable.Sample.call s.world read (str "b")
        (str "k") []).1)) = some (some (some (str "two")), some (str "one")) := by decide +kernel
  obtain ⟨s, followed, seen⟩ := map_eq_some_iff.mp ran
  obtain ⟨last, seen⟩ := Prod.mk.inj seen
  have sent := body_eq seen
  refine ⟨s, followed, last, sent, fun always => ?_⟩
  have shown := always.at_end followed Resumable.Sample.call read [] ⟨rfl, rfl, rfl, rfl, rfl, rfl⟩
  rw [last] at shown
  obtain ⟨headers, old⟩ := sent
  obtain ⟨_, new⟩ := shown
  rw [old] at new
  obtain ⟨-, -, same, -⟩ := Reply.sent.inj new
  exact absurd same (by decide)

/-- Written, read and read again. -/
theorem read_back_shown : Always config (str "b") (str "k") (Shown config (str "b") (str "k"))
      ⟨Sample.world, none⟩ [Sample.put (str "one"), Sample.get, Sample.get] := by
  have cached : Cached Sample.world := ⟨_, rfl, by decide⟩
  have regular : Regular config (str "b") (str "k") Sample.world (Sample.put (str "one")) :=
    ⟨.inl rfl, by decide +kernel, .inr rfl⟩
  refine (coherent_iff config (str "b") (str "k") Sample.world _ cached ?_).mpr ?_
  · exact fun _ _ => ⟨regular, fun _ _ => ⟨trivial, fun _ _ => ⟨trivial, trivial⟩⟩⟩
  · refine fun _ _ => ⟨.inr fun cache item has held => ?_, fun _ _ => ⟨trivial, fun _ _ => ⟨trivial, trivial⟩⟩⟩
    cases has
    cases held

end CipherLake.CacheCoherence
