import CipherLake.IdentityPolicies
import CipherLake.ObjectService

/-! Who gets to read an object. A request with a credential in its query is
taken for a presigned URL and served without a look at the signature, so the
data is guarded exactly for the requests that name no credential. -/
namespace CipherLake.Gateway
open Lib Http AccessControl Metadata Storage

variable {κ : Type}

/-- The answer carries the object. -/
def Reply.WritesData : Reply → Prop
  | .sent status _ _ _ => status = 200 ∨ status = 206
  | _ => False

/-- The bucket is open to everybody. -/
def PublicACL (w : World κ) (bucket : Bytes) : Prop :=
  ∃ info, w.metadata.buckets.get bucket = some info ∧
    (info.acl = str "public-read" ∨ info.acl = str "public-read-write")

/-- The bucket is open, or the request is made in the name of somebody who may
read the object. -/
def Entitled (g : Config) (call : Call κ) (w : World κ) (r : Request) (bucket key : Bytes) : Prop :=
  PublicACL w bucket ∨ ∃ identity logins,
    requireIdentity call.auth call.fuel g.provider w.logins r (str "read") bucket key = some (.ok identity, logins)

/-- The secret keys that belong to an access key: of a legacy user, of an IAM
user, or of a temporary credential. -/
def HasSecret (env : AccessControl.Env) (p : Provider) (accessKey secret : Bytes) : Prop :=
  (∃ user ∈ p.authHandler.users, user.name = accessKey ∧ user.secretKey = secret) ∨
    ∃ s, p.iamBridge = some s ∧
      ((∃ iamUser ak, getUserByAccessKeyID s accessKey = .ok (iamUser, ak) ∧
        env.decryptSecretKey ak.secretKeyEnc = some secret) ∨
      ∃ cred, getTempCredential env s accessKey = .ok cred ∧ cred.secretAccessKey = secret)

/-- The query is signed with the secret key of the credential it names. -/
def Verified (g : Config) (call : Call κ) (r : Request) : Prop :=
  ∃ secret, HasSecret call.auth g.provider (presignedAccessKey r) secret ∧
    SigV4.verifySigV4PresignedURL call.auth.digests call.auth.clock r secret = .ok ()

/-- Data is written only to those entitled to it, and for a presigned URL only
if the signature verifies. -/
def Guarded (g : Config) (call : Call κ) (w : World κ) (r : Request) (bucket key : Bytes) : Prop :=
  ∀ reply w', handleGetObject g call w r bucket key = some (reply, w') → reply.WritesData →
    Entitled g call w r bucket key ∧ (r.queryGet (str "X-Amz-Credential") ≠ [] → Verified g call r)

/-- The object is there to be served, from the cache or from its tier. -/
def Served (g : Config) (call : Call κ) (w : World κ) (r : Request) (bucket key userID : Bytes) : Prop :=
  ∃ m, getObject w.metadata bucket key = .ok m ∧ m.deleteMarker = false ∧ precondition call r m = none ∧
    ((cachedObject call w r bucket key m).1 ≠ none ∨
      ∃ data opened, Storage.get g.tiers call.disk w.fs bucket key m.storageTier = .ok data ∧
        openObject g call w.keys r bucket key userID m data = .ok opened ∧
        (r.headerGet (str "Range") = [] ∨
          ∃ bounds, parseRangeHeader (r.headerGet (str "Range")) m.size = .ok bounds))

/-- A request for an object that is there to be served. -/
def Servable (g : Config) (call : Call κ) (w : World κ) (r : Request) (bucket key : Bytes) : Prop :=
  r.method = str "GET" ∧ ∃ userID logins,
    requestUserID call.auth g.provider w.logins r = (.ok userID, logins) ∧ Served g call w r bucket key userID

section
variable {g : Config} {call : Call κ} {w : World κ} {r : Request} {bucket key userID : Bytes} {m : ObjectMetadata}

theorem sendBody_writes {limit : Int} {status : Nat} {headers : List (Bytes × Bytes)} {data : Answer}
    {caching : Bool} (full : status = 200 ∨ status = 206) :
    (sendBody limit call w bucket key status headers data caching).1.WritesData := by
  rw [sendBody_answer]
  split
  · cases readAll (limited limit data) with
    | error e => exact full
    | ok body => exact full
  · cases readAll data with
    | error e => exact full
    | ok body => exact full

theorem answerObject_writes_iff (opened : Opened) : (answerObject call w r bucket key m opened).1.WritesData ↔
      r.headerGet (str "Range") = [] ∨ ∃ bounds, parseRangeHeader (r.headerGet (str "Range")) m.size = .ok bounds := by
  unfold answerObject
  by_cases whole : r.headerGet (str "Range") = []
  · rw [if_pos whole]
    exact iff_of_true (sendBody_writes (.inl rfl)) (.inl whole)
  · rw [if_neg whole]
    cases parsed : parseRangeHeader (r.headerGet (str "Range")) m.size with
    | error e => exact iff_of_false id fun served => served.elim whole (fun ⟨_, ok⟩ => nomatch ok)
    | ok bounds => exact iff_of_true (sendBody_writes (.inr rfl)) (.inr ⟨bounds, rfl⟩)

variable {reply : Reply}

theorem precondition_writes (decided : precondition call r m = some reply) : ¬ reply.WritesData := by
  unfold precondition at decided
  simp only at decided
  split at decided
  · cases decided
    simp [Reply.WritesData]
  split at decided
  · cases decided
    exact id
  split at decided
  · cases decided
  split at decided
  · cases decided
  · split at decided
    · cases decided
    · cases decided
      simp [Reply.WritesData]

theorem openObject_writes {data : Answer}
    (failed : openObject g call w.keys r bucket key userID m data = .error reply) : ¬ reply.WritesData := by
  have internal : ¬ internalError.WritesData := id
  unfold openObject at failed
  split at failed
  · cases checked : validateObjectSSECKey call r m with
    | error reply' =>
      simp only [checked, Except.error.injEq] at failed
      obtain rfl := failed
      unfold validateObjectSSECKey at checked
      split at checked
      · cases checked
        exact id
      · cases checked
        exact id
      · split at checked
        · cases checked
          exact id
        · cases checked
    | ok clientKey =>
      simp only [checked] at failed
      split at failed
      · cases failed
      · split at failed
        · cases failed
        · split at failed
          · exact Except.error.inj failed ▸ internal
          · cases failed
  · split at failed
    · cases failed
    split at failed
    · cases failed
    split at failed
    · split at failed
      · exact Except.error.inj failed ▸ internal
      · split at failed <;> cases failed
    · split at failed
      · exact Except.error.inj failed ▸ internal
      · cases failed

theorem fetchObject_writes_iff : (fetchObject g call w r bucket key userID m).1.WritesData ↔
      ∃ data opened, Storage.get g.tiers call.disk w.fs bucket key m.storageTier = .ok data ∧
        openObject g call w.keys r bucket key userID m data = .ok opened ∧
        (r.headerGet (str "Range") = [] ∨
          ∃ bounds, parseRangeHeader (r.headerGet (str "Range")) m.size = .ok bounds) := by
  unfold fetchObject
  cases got : Storage.get g.tiers call.disk w.fs bucket key m.storageTier with
  | error e => exact iff_of_false id fun ⟨_, _, held, _⟩ => nomatch held
  | ok data =>
    simp only [Except.ok.injEq]
    cases opening : openObject g call w.keys r bucket key userID m data with
    | error reply =>
      refine iff_of_false (openObject_writes opening) ?_
      rintro ⟨_, opened, rfl, opens, -⟩
      rw [opening] at opens
      cases opens
    | ok opened =>
      rw [answerObject_writes_iff]
      constructor
      · exact fun fits => ⟨data, opened, rfl, opening, fits⟩
      · rintro ⟨_, _, rfl, -, fits⟩
        exact fits

theorem serveObject_writes_iff :
    (serveObject g call w r bucket key userID).1.WritesData ↔ Served g call w r bucket key userID := by
  unfold serveObject Served
  cases found : getObject w.metadata bucket key with
  | error e => exact iff_of_false id fun ⟨_, held, _⟩ => nomatch held
  | ok m =>
    simp only [Except.ok.injEq]
    by_cases marker : m.deleteMarker = true
    · rw [if_pos marker]
      refine iff_of_false id ?_
      rintro ⟨_, rfl, live, -⟩
      rw [marker] at live
      cases live
    · rw [if_neg marker]
      rw [Bool.not_eq_true] at marker
      cases decided : precondition call r m with
      | some reply =>
        refine iff_of_false (precondition_writes decided) ?_
        rintro ⟨_, rfl, -, undecided, -⟩
        rw [decided] at undecided
        cases undecided
      | none =>
        obtain ⟨cache, kept, -⟩ := cachedObject_world call w r bucket key m
        rcases looked : cachedObject call w r bucket key m with ⟨hit | data, w'⟩
        · simp only [looked] at kept ⊢
          subst kept
          rw [fetchObject_writes_iff]
          constructor
          · exact fun fetched => ⟨m, rfl, marker, decided, .inr fetched⟩
          · rintro ⟨_, rfl, -, -, cached | fetched⟩
            · rw [looked] at cached
              exact absurd rfl cached
            · exact fetched
        · refine iff_of_true (.inl rfl) ⟨m, rfl, marker, decided, .inl ?_⟩
          rw [looked]
          exact Option.some_ne_none data

theorem served_logins (logins) : Served g call { w with logins } r bucket key userID ↔
    Served g call w r bucket key userID := by
  have cached (m : ObjectMetadata) : (cachedObject call { w with logins } r bucket key m).1 =
      (cachedObject call w r bucket key m).1 := cachedObject_congr rfl
  unfold Served
  simp only [cached]

theorem withUserID_writes_iff :
    (withUserID g call w r fun userID w => serveObject g call w r bucket key userID).1.WritesData ↔
      ∃ userID logins, requestUserID call.auth g.provider w.logins r = (.ok userID, logins) ∧
        Served g call w r bucket key userID := by
  unfold withUserID
  rcases requestUserID call.auth g.provider w.logins r with ⟨_ | userID, logins⟩
  · exact iff_of_false id fun ⟨_, _, named, _⟩ => nomatch named
  rw [serveObject_writes_iff, served_logins]
  constructor
  · exact fun served => ⟨userID, logins, rfl, served⟩
  · rintro ⟨_, _, named, served⟩
    cases named
    exact served

theorem publicRead_iff (closed : g.provider.authHandler.anonymousRead = false) :
    isBucketPublicRead g w bucket = true ↔ PublicACL w bucket := by
  unfold isBucketPublicRead PublicACL
  cases w.metadata.buckets.get bucket with
  | none => simp [closed]
  | some info => simp [closed]

/-- Without a credential in the query, data goes to nobody but the entitled. -/
theorem entitled_of_writes (closed : g.provider.authHandler.anonymousRead = false)
    (named : r.queryGet (str "X-Amz-Credential") = []) {w' : World κ}
    (answered : handleGetObject g call w r bucket key = some (reply, w')) (writes : reply.WritesData) :
    Entitled g call w r bucket key := by
  unfold handleGetObject at answered
  simp only [named, ne_eq, not_true_eq_false, false_or] at answered
  split at answered
  · cases answered
    exact writes.elim
  split at answered
  next isPublic => exact .inl ((publicRead_iff closed).mp isPublic)
  next =>
    rcases identified_cases answered with ⟨_, -, panicked | ⟨_, denied⟩⟩ | ⟨identity, logins, checked, -⟩
    · obtain rfl := panicked
      exact writes.elim
    · obtain rfl := denied
      exact writes.elim
    · exact .inr ⟨identity, logins, checked⟩

/-- With a credential in the query, data goes to everybody. -/
theorem presigned_writes_iff (named : r.queryGet (str "X-Amz-Credential") ≠ []) :
    (∃ reply w', handleGetObject g call w r bucket key = some (reply, w') ∧ reply.WritesData) ↔
      Servable g call w r bucket key := by
  unfold handleGetObject Servable
  simp only [ne_eq, named, not_false_eq_true, true_or, if_true]
  by_cases get : r.method = str "GET"
  · rw [if_neg (not_not_intro get), ← withUserID_writes_iff]
    constructor
    · rintro ⟨reply, w', answered, writes⟩
      rw [Option.some.inj answered]
      exact ⟨get, writes⟩
    · exact fun ⟨_, writes⟩ => ⟨_, _, rfl, writes⟩
  · rw [if_pos get]
    refine iff_of_false ?_ fun ⟨is, _⟩ => get is
    rintro ⟨reply, w', answered, writes⟩
    cases answered
    exact writes

end

/-- Where nobody reads anonymously, an object is guarded against a request
exactly if the request names no credential in its query, or there is nothing to
serve, or it is entitled and its signature happens to verify. -/
theorem guarded_iff (g : Config) (call : Call κ) (w : World κ) (r : Request) (bucket key : Bytes)
    (closed : g.provider.authHandler.anonymousRead = false) :
    Guarded g call w r bucket key ↔ r.queryGet (str "X-Amz-Credential") = [] ∨ ¬ Servable g call w r bucket key ∨
        (Entitled g call w r bucket key ∧ Verified g call r) := by
  by_cases named : r.queryGet (str "X-Amz-Credential") = []
  · refine iff_of_true ?_ (.inl named)
    exact fun reply w' answered writes =>
      ⟨entitled_of_writes closed named answered writes, fun credential => absurd named credential⟩
  simp only [named, false_or]
  rw [← presigned_writes_iff named]
  constructor
  · intro guarded
    rw [or_iff_not_imp_left, not_not]
    rintro ⟨reply, w', answered, writes⟩
    have ⟨entitled, verified⟩ := guarded reply w' answered writes
    exact ⟨entitled, verified named⟩
  · rintro (unserved | ⟨entitled, verified⟩) reply w' answered writes
    · exact absurd ⟨reply, w', answered, writes⟩ unserved
    · exact ⟨entitled, fun _ => verified⟩

namespace Sample

/-- Every request has to authenticate, and there is nobody who could. -/
def config : Config where
  provider := ⟨IdentityPolicies.Sample.handler, none⟩
  tiers := fun tier => if tier = tierHot then some [str "hot"] else none
  uploadsDir := [str "uploads"]
  resumableDir := [str "uploads"]
  resumableExpiry := 86400
  maxUploadBytes := 0
  cryptoEnabled := false

def call : Call Unit where
  auth := IdentityPolicies.Sample.env
  fuel := 0
  disk := Disk.sound (str "1")
  db := ⟨str "v2", 7, none, none⟩
  crypto := none
  etag := str "e2"
  versionID := str "v2"
  crc32c data := data
  md5 data := data
  base64 data := data
  parseHTTPTime _ := none
  formatHTTPTime _ := []

def photo : ObjectMetadata where
  key := str "cat.jpg"
  bucket := str "photos"
  size := 4
  contentType := str "image/jpeg"
  etag := str "e1"
  checksum := []
  checksumType := []
  userMetadata := []
  storageTier := tierHot
  createdAt := 1
  modifiedAt := 1
  encrypted := false
  encryptedDEK := []
  versionID := str "v1"
  isLatest := true
  deleteMarker := false
  ssecUsed := false
  ssecKeySHA256 := []
  ssecAlgorithm := []
  retainUntil := none

/-- One object in a private bucket. -/
def world : World Unit where
  logins := []
  fs := [([str "hot"], Entry.dir), ([str "hot", str "photos"], .dir),
    ([str "hot", str "photos", str "cat.jpg"], .file (str "meow"))].foldl (fun t e => t.set e.1 e.2) .empty
  metadata := ⟨Table.empty.put (objectKey (str "photos") (str "cat.jpg")) photo,
    Table.empty.put (str "photos") ⟨str "private", none, 1, 4, false, str "admin", str "admin", str "us-east-1"⟩, Table.empty⟩
  cache := none
  keys := ()
  uploads := ⟨Table.empty, Table.empty⟩
  sessions := Table.empty

def request (rawQuery : Bytes) : Request := { IdentityPolicies.Sample.request with rawQuery }

end Sample

open Sample

/-- Whoever puts a credential into the query, of any kind, gets the object of a
private bucket. -/
theorem unsigned_request_served : ∃ headers w', handleGetObject config call world
        (request (str "X-Amz-Credential=x")) (str "photos") (str "cat.jpg") =
      some (.sent 200 headers (str "meow") none, w') ∧
    ¬ Entitled config call world (request (str "X-Amz-Credential=x")) (str "photos") (str "cat.jpg") ∧
    ¬ Guarded config call world (request (str "X-Amz-Credential=x")) (str "photos") (str "cat.jpg") := by
  have answered : (handleGetObject config call world
      (request (str "X-Amz-Credential=x")) (str "photos") (str "cat.jpg")).map (fun out =>
        match out.1 with
        | .sent status _ body failure => some (status, body, failure)
        | _ => none) = some (some (200, str "meow", none)) := by decide +kernel
  obtain ⟨⟨reply, w'⟩, ran, seen⟩ := Option.map_eq_some_iff.mp answered
  cases reply with
  | sent status headers body failure =>
    obtain ⟨rfl, rfl, rfl⟩ := seen
    have unentitled : ¬ Entitled config call world
        (request (str "X-Amz-Credential=x")) (str "photos") (str "cat.jpg") := by
      rintro (⟨_, held, isPublic⟩ | ⟨_, _, checked⟩)
      · have private_ : world.metadata.buckets.get (str "photos") =
            some ⟨str "private", none, 1, 4, false, str "admin", str "admin", str "us-east-1"⟩ := by decide +kernel
        cases held
        exact absurd isPublic (by decide +kernel)
      · have refused : (requireIdentity call.auth call.fuel config.provider
            world.logins (request (str "X-Amz-Credential=x")) (str "read") (str "photos")
            (str "cat.jpg")).all (fun out => out.1.isOk = false) = true := by decide +kernel
        rw [checked] at refused
        cases refused
    exact ⟨headers, w', ran, unentitled, fun guarded => unentitled (guarded _ _ ran (.inl rfl)).1⟩
  | _ => cases seen

/-- Without a credential in the query, the same request gets nothing. -/
theorem unnamed_request_guarded : config.provider.authHandler.anonymousRead = false ∧
      Guarded config call world (request []) (str "photos") (str "cat.jpg") :=
  ⟨rfl, (guarded_iff config call world (request []) (str "photos") (str "cat.jpg")
    rfl).mpr (.inl (by decide +kernel))⟩

end CipherLake.Gateway
