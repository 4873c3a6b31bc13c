import CipherLake.Dispatch
import CipherLake.ReadAccess

/-! What somebody without credentials can learn about the contents of private
buckets. Two worlds that differ in nothing else are told apart by exactly three
kinds of requests: the listing of uploads, the listing of parts, and a read that
names a credential in its query. Every other request is answered from what the
two worlds share. -/
namespace CipherLake.Confidentiality
open Lib Http AccessControl Metadata Storage Gateway Multipart Resumable List Table Option

variable {κ : Type}

/-! ### What belongs to whom -/

/-- The upload is one to a bucket that is open to everybody. -/
def PublicUpload (w : World κ) (uploadID : Bytes) : Prop :=
  ∃ k upload, PublicACL w (home k) ∧ w.uploads.uploads.get k = some upload ∧ upload.uploadID = uploadID

/-- What is set up for a bucket, as opposed to what it holds. -/
def settings (info : BucketInfo) : BucketInfo := { info with objectCount := 0, totalSize := 0, versioning := false }

/-- Two worlds differ only in the contents of buckets that are not open: in
records, versions, uploads, parts, sessions, files and cached bodies, and in
the counters and the versioning of the buckets. -/
structure Alike (g : Config) (w w' : World κ) : Prop where
  logins : w'.logins = w.logins
  keys : w'.keys = w.keys
  settings : ∀ bucket, (w'.metadata.buckets.get bucket).map settings = (w.metadata.buckets.get bucket).map settings
  buckets : ∀ bucket, PublicACL w bucket → w'.metadata.buckets.get bucket = w.metadata.buckets.get bucket
  objects : ∀ k, PublicACL w (home k) → w'.metadata.objects.get k = w.metadata.objects.get k
  versions : ∀ k, PublicACL w (home k) → w'.metadata.versions.get k = w.metadata.versions.get k
  uploads : ∀ k, PublicACL w (home k) → w'.uploads.uploads.get k = w.uploads.uploads.get k
  parts : ∀ k, PublicUpload w (home k) → w'.uploads.parts.get k = w.uploads.parts.get k
  sessions : ∀ id session, PublicACL w session.bucket →
    (w'.sessions.get id = some session ↔ w.sessions.get id = some session)
  data : ∀ disk bucket key tier, PublicACL w bucket →
    Storage.get g.tiers disk w'.fs bucket key tier = Storage.get g.tiers disk w.fs bucket key tier
  budget : (w'.cache.map fun c => (c.maxBytes, c.ttl)) = w.cache.map fun c => (c.maxBytes, c.ttl)
  cached : ∀ k, PublicACL w (home k) → (w'.cache.bind fun c => c.items k) = w.cache.bind fun c => c.items k

/-- The numbers of the parts are machine integers. -/
def Representable (w : World κ) : Prop := ∀ e ∈ w.uploads.parts.entries, e.2.partNumber < 2 ^ 63

/-- A request without valid credentials, to a gateway that requires them: the
provider turns it away, and its query is not signed either. -/
structure Outsider (g : Config) (call : Call κ) (w : World κ) (r : Request) : Prop where
  required : g.provider.authHandler.requireAuth = true
  closed : g.provider.authHandler.anonymousRead = false
  rejected : ∃ e logins, authenticate call.auth g.provider w.logins r = (.error e, logins)
  unsigned : ¬ Verified g call r

/-! ### Requests that are turned away -/

section
variable {g : Config} {call : Call κ} {r : Request} {w w' : World κ} {β : Type}

/-- The answer of a handler is the same in both worlds. -/
def Agree (w w' : World κ) (handler : World κ → Option (β × World κ)) : Prop :=
  (handler w').map (·.1) = (handler w).map (·.1)

/-- The provider turns the request away in the same way in both worlds. -/
def Rejected (g : Config) (call : Call κ) (r : Request) (w w' : World κ) : Prop :=
  ∃ e logins, authenticate call.auth g.provider w.logins r = (.error e, logins) ∧
    authenticate call.auth g.provider w'.logins r = (.error e, logins)

theorem rejected_of (alike : Alike g w w') (outsider : Outsider g call w r) : Rejected g call r w w' := by
  obtain ⟨e, logins, rejected⟩ := outsider.rejected
  refine ⟨e, logins, rejected, ?_⟩
  rw [alike.logins]
  exact rejected

theorem requireIdentity_rejected {env : AccessControl.Env} {fuel : Nat} {p : Provider} {logins logins' : Logins}
    {e : Failure} (rejected : authenticate env p logins r = (.error e, logins')) (action bucket key : Bytes) :
    requireIdentity env fuel p logins r action bucket key = some (.error e, logins') := by
  unfold requireIdentity
  rw [rejected]

theorem agree_const (answer : β) : Agree w w' fun w => some (answer, w) := rfl

theorem agree_of_eq {f : World κ → β} (same : f w' = f w) : Agree w w' fun w => some (f w, w) :=
  congrArg some same

theorem agree_ite {c : Prop} [Decidable c] {first second : World κ → Option (β × World κ)}
    (yes : c → Agree w w' first) (no : ¬ c → Agree w w' second) :
    Agree w w' fun w => if c then first w else second w := by
  by_cases decided : c
  · simp only [if_pos decided]
    exact yes decided
  · simp only [if_neg decided]
    exact no decided

theorem agree_replied {handler : World κ → Option (Reply × World κ)} (agree : Agree w w' handler) :
    Agree w w' fun w => (handler w).map replied := by
  have through : ∀ out : Option (Reply × World κ), (out.map replied).map (·.1) = (out.map (·.1)).map Response.reply := by
    intro out
    rw [Option.map_map, Option.map_map]
    rfl
  unfold Agree
  rw [through, through]
  exact congrArg _ agree

section
variable (rejected : Rejected g call r w w')
include rejected

/-- A handler that begins with `requireIdentity` does not get to the stores. -/
theorem agree_identified (action bucket key : Bytes) (denied : Bytes → Reply)
    (next : World κ → Option (Reply × World κ)) :
    Agree w w' fun w => identified g call w r action bucket key denied next := by
  obtain ⟨e, logins, here, there⟩ := rejected
  simp only [Agree, identified, requireIdentity_rejected here, requireIdentity_rejected there]
  cases e with
  | panicked => rfl
  | refused message => rfl

/-- The usual head of a handler: the method, then the identity. -/
theorem agree_guarded (asked action bucket key : Bytes) (next : World κ → Option (Reply × World κ)) :
    Agree w w' fun w =>
      if r.method ≠ asked then some (Reply.refused (str "method not allowed"), w)
      else identified g call w r action bucket key accessDenied next :=
  agree_ite (fun _ => agree_const _) fun _ => agree_identified rejected _ _ _ _ _

theorem agree_permitted (action bucket key : Bytes) (denied : String)
    (next : World κ → Response × World κ) : Agree w w' fun w => permitted g call w r action bucket key denied next := by
  obtain ⟨e, logins, here, there⟩ := rejected
  simp only [Agree, permitted, requireIdentity_rejected here, requireIdentity_rejected there]
  cases e with
  | panicked => rfl
  | refused message => rfl

end

/-! ### What the two worlds share -/

section
variable (alike : Alike g w w')

include alike

/-- A bucket is set up in the same way, if it is there. -/
theorem Alike.info (bucket : Bytes) : (w.metadata.buckets.get bucket = none ∧ w'.metadata.buckets.get bucket = none) ∨
      ∃ info info', w.metadata.buckets.get bucket = some info ∧ w'.metadata.buckets.get bucket = some info' ∧
        Confidentiality.settings info' = Confidentiality.settings info := by
  have same := alike.settings bucket
  cases here : w.metadata.buckets.get bucket with
  | none =>
    rw [here, map_none, map_eq_none_iff] at same
    exact Or.inl ⟨rfl, same⟩
  | some info =>
    rw [here] at same
    obtain ⟨info', there, shared⟩ := map_eq_some_iff.mp same
    exact Or.inr ⟨info, info', rfl, there, shared⟩

theorem Alike.publicACL_iff (bucket : Bytes) : PublicACL w' bucket ↔ PublicACL w bucket := by
  unfold PublicACL
  rcases alike.info bucket with ⟨here, there⟩ | ⟨info, info', here, there, shared⟩
  · rw [here, there]
  · have acl : info'.acl = info.acl := by simpa [Confidentiality.settings] using congrArg BucketInfo.acl shared
    simp only [here, there, some.injEq, exists_eq_left', acl]

section
variable (closed : g.provider.authHandler.anonymousRead = false)
include closed

theorem Alike.isBucketPublicRead
    (bucket : Bytes) : isBucketPublicRead g w' bucket = isBucketPublicRead g w bucket := by
  rw [Bool.eq_iff_iff, publicRead_iff closed, publicRead_iff closed]
  exact alike.publicACL_iff bucket

/-- A handler that looks at the access list of the bucket first. -/
theorem agree_public {bucket : Bytes} {first second : World κ → Option (β × World κ)} (yes : PublicACL w bucket → Agree w w' first)
    (no : Agree w w' second) : Agree w w' fun w => if isBucketPublicRead g w bucket then first w else second w := by
  simp only [Agree, alike.isBucketPublicRead closed]
  by_cases isPublic : Gateway.isBucketPublicRead g w bucket = true
  · simp only [if_pos isPublic]
    exact yes ((publicRead_iff closed).mp isPublic)
  · simp only [if_neg isPublic]
    exact no

end

theorem Alike.withLogins (logins : Logins) :
    Alike g { w with logins } { w' with logins } := { alike with logins := rfl }

end

section
variable (alike : Alike g w w')
include alike

/-- Whether a bucket is there, and where, is no secret. -/
theorem Alike.location (bucket : Bytes) :
    handleGetBucketLocation w'.metadata bucket = handleGetBucketLocation w.metadata bucket := by
  unfold handleGetBucketLocation Buckets.getBucket
  rcases alike.info bucket with ⟨here, there⟩ | ⟨info, info', here, there, shared⟩
  · rw [here, there]
  · have region : info'.region = info.region := by
      simpa [Confidentiality.settings] using congrArg BucketInfo.region shared
    simp only [here, there, region]

theorem Alike.versioning (bucket : Bytes) :
    handleGetBucketVersioning w'.metadata bucket = handleGetBucketVersioning w.metadata bucket := by
  unfold handleGetBucketVersioning Buckets.getBucket
  rcases alike.info bucket with ⟨here, there⟩ | ⟨_, _, here, there, -⟩ <;> rw [here, there]

theorem Alike.recordedParts {uploadID : Bytes} (isOpen : PublicUpload w (home uploadID)) :
    recordedParts w'.uploads uploadID = recordedParts w.uploads uploadID := by
  have scan := seek_prefix_congr w'.uploads.parts w.uploads.parts (uploadID ++ str "/")
    fun k under => alike.parts k ?_
  · simp only [Multipart.recordedParts, hasPrefix, scan]
  · rw [home_under under]
    exact isOpen

theorem Alike.hasCache : w'.cache.isSome = w.cache.isSome := by
  simpa using congrArg isSome alike.budget

variable {bucket key userID : Bytes} {m : ObjectMetadata} (plain : (47 : UInt8) ∉ bucket) (isOpen : PublicACL w bucket)
include plain isOpen

theorem Alike.listObjects (pre : Bytes) (maxKeys : Int) :
    listObjects w'.metadata bucket pre maxKeys = listObjects w.metadata bucket pre maxKeys := by
  have scan := seek_prefix_congr w'.metadata.objects w.metadata.objects (objectKey bucket pre)
    fun k under => alike.objects k ?_
  · rw [Metadata.listObjects, Metadata.listObjects, Listing.collect_eq, Listing.collect_eq, scan]
  · obtain ⟨_, rfl⟩ := isPrefixOf_iff_prefix.mp under
    rw [objectKey, append_assoc, home_append, home_plain plain]
    exact isOpen

theorem Alike.handleListObjects (r : Request) :
    handleListObjects w'.metadata r bucket = handleListObjects w.metadata r bucket := by
  have first : ∀ pre delimiter marker maxKeys, listObjectsV1 w'.metadata bucket pre delimiter marker maxKeys =
      listObjectsV1 w.metadata bucket pre delimiter marker maxKeys := by
    intro pre delimiter marker maxKeys
    unfold listObjectsV1
    rw [alike.listObjects plain isOpen]
  have second : ∀ pre delimiter maxKeys startAfter token,
      Listing.handleListObjectsV2 w'.metadata bucket pre delimiter maxKeys startAfter token =
        Listing.handleListObjectsV2 w.metadata bucket pre delimiter maxKeys startAfter token := by
    intro pre delimiter maxKeys startAfter token
    unfold Listing.handleListObjectsV2
    rw [alike.listObjects plain isOpen]
  simp only [Gateway.handleListObjects, first, second]

theorem Alike.listUploads (now : Time) : listUploads now w'.uploads bucket = listUploads now w.uploads bucket := by
  have scan := seek_prefix_congr w'.uploads.uploads w.uploads.uploads (bucket ++ str "/")
    fun k under => alike.uploads k ?_
  · simp only [Multipart.listUploads, hasPrefix, scan]
  · rw [home_under under, home_plain plain]
    exact isOpen

theorem Alike.getObject (key : Bytes) : getObject w'.metadata bucket key = getObject w.metadata bucket key := by
  have same := alike.objects (objectKey bucket key) ?_
  · unfold Metadata.getObject
    rw [same]
  · rw [objectKey, home_append, home_plain plain]
    exact isOpen

theorem Alike.cachedObject : (cachedObject call w' r bucket key m).1 = (cachedObject call w r bucket key m).1 := by
  have item := alike.cached (cacheKey bucket key) ?_
  · unfold Gateway.cachedObject
    have budget := alike.budget
    cases here : w.cache with
    | none =>
      cases there : w'.cache with
      | none => rfl
      | some cache' => simp [here, there] at budget
    | some cache =>
      cases there : w'.cache with
      | none => simp [here, there] at budget
      | some cache' =>
        cases cacheable m (r.headerGet (str "Range")) with
        | false => rfl
        | true =>
          simp only [here, there, map_some, some.injEq, Prod.mk.injEq, bind_some] at budget item
          simp only [ObjectCache.get, item, budget.2]
          cases cache.items (cacheKey bucket key) with
          | none => rfl
          | some item =>
            simp only
            split <;> rfl
  · rw [cacheKey, home_append, home_plain plain]
    exact isOpen

theorem Alike.serveObject :
    (serveObject g call w' r bucket key userID).1 = (serveObject g call w r bucket key userID).1 :=
  serveObject_congr (alike.getObject plain isOpen key) (fun _ => alike.cachedObject plain isOpen) alike.keys
    alike.hasCache fun m _ => alike.data call.disk bucket key m.storageTier isOpen

end

theorem withUserID_reply (rejected : Rejected g call r w w') {next : Bytes → World κ → Reply × World κ}
    (agree : ∀ userID logins, (next userID { w' with logins }).1 = (next userID { w with logins }).1) :
    (withUserID g call w' r next).1 = (withUserID g call w r next).1 := by
  obtain ⟨e, logins, here, there⟩ := rejected
  cases e with
  | panicked => simp only [Gateway.withUserID, requestUserID, here, there]
  | refused message =>
    simp only [Gateway.withUserID, requestUserID, here, there]
    exact agree _ _

end

/-! ### The dispatchers -/

/-- The request asks for the uploads of a bucket. -/
structure ListsUploads (r : Request) (method : Bytes) : Prop where
  dispatched : method = str "GET"
  method : r.method = str "GET"
  location : r.queryHas (str "location") = false
  search : r.queryHas (str "fts_search") = false
  acl : r.queryHas (str "acl") = false
  versioning : r.queryHas (str "versioning") = false
  uploads : r.queryHas (str "uploads") = true

/-- The request asks for the parts of an upload. Behind the last machine
integer there is no part. -/
structure ListsParts (services : Services κ) (r : Request) (method : Bytes) : Prop where
  dispatched : method = str "GET"
  method : r.method = str "GET"
  upload : r.queryHas (str "uploadId") = true
  multipart : isResumable services r = false
  named : r.queryGet (str "uploadId") ≠ []
  marker : queryInt r "part-number-marker" 0 < 2 ^ 63 - 1

/-- The request reads an object and names a credential in its query, and the
attempt to authenticate it is survived. -/
structure ReadsPresigned (g : Config) (call : Call κ) (w : World κ) (r : Request) (method : Bytes) : Prop where
  dispatched : method = str "GET"
  method : r.method = str "GET"
  object : r.queryHas (str "uploadId") = false
  credential : r.queryGet (str "X-Amz-Credential") ≠ []
  refused : ∃ e logins, authenticate call.auth g.provider w.logins r = (.error (.refused e), logins)

section
variable {g : Config} {services : Services κ} {call : Call κ} {env : Surroundings} {r : Request} {w w' : World κ}
  {bucket key method : Bytes}

theorem resumableOperation_agree (rejected : Rejected g call r w w') :
    Agree w w' fun w => resumableOperation g call env w r bucket key method := by
  refine agree_ite (fun _ => ?_) fun _ => ?_
  · obtain ⟨e, logins, here, there⟩ := rejected
    simp only [Agree, handlePatch, admitPatch, requireIdentity_rejected here, requireIdentity_rejected there]
    cases e with
    | panicked => cases env.patch <;> rfl
    | refused message => cases env.patch <;> rfl
  refine agree_ite (fun _ => agree_identified rejected _ _ _ _ _) fun _ => ?_
  refine agree_ite (fun _ => ?_) fun _ => agree_const _
  exact agree_ite (fun _ => agree_identified rejected _ _ _ _ _) fun _ => agree_const _

/-- Nothing is numbered behind the last machine integer. -/
theorem behind_last (representable : Representable w) {marker : Int} (last : 2 ^ 63 - 1 ≤ marker) (uploadID : Bytes) :
    ((recordedParts w.uploads uploadID).filter fun part => marker < part.partNumber) = [] := by
  apply filter_eq_nil_iff.mpr
  intro part listed
  obtain ⟨e, scanned, rfl⟩ := mem_map.mp listed
  have member := ((takeWhile_sublist _).trans (dropWhile_sublist _)).mem scanned
  have below := representable e member
  rw [decide_eq_true_eq, not_lt]
  omega

theorem listParts_agree (alike : Alike g w w') (representable : Representable w) (representable' : Representable w')
    (isOpen : r.method = str "GET" → r.queryGet (str "uploadId") ≠ [] →
      queryInt r "part-number-marker" 0 < 2 ^ 63 - 1 → PublicUpload w (home (r.queryGet (str "uploadId")))) :
    handleListParts w'.uploads r bucket key = handleListParts w.uploads r bucket key := by
  unfold handleListParts
  by_cases get : r.method = str "GET"
  · by_cases unnamed : r.queryGet (str "uploadId") = []
    · simp only [unnamed, if_true]
    · by_cases marker : queryInt r "part-number-marker" 0 < 2 ^ 63 - 1
      · simp only [alike.recordedParts (isOpen get unnamed marker)]
      · simp only [behind_last representable (not_lt.mp marker), behind_last representable' (not_lt.mp marker)]
  · rw [if_pos get, if_pos get]

variable (alike : Alike g w w') (outsider : Outsider g call w r)
include alike outsider

theorem getBucketResource_agree (plain : (47 : UInt8) ∉ bucket) (isOpen : ListsUploads r (str "GET") → PublicACL w bucket) :
    Agree w w' fun w => getBucketResource g services call w r bucket := by
  have rejected := rejected_of alike outsider
  refine agree_ite (fun _ => agree_of_eq (alike.location bucket)) fun location => ?_
  refine agree_ite (fun _ => ?_) fun search => ?_
  · unfold handleFTSSearch
    cases services.fts with
    | none => exact agree_const _
    | some search => exact agree_permitted rejected _ _ _ _ _
  refine agree_ite (fun _ => agree_permitted rejected _ _ _ _ _) fun acl => ?_
  refine agree_ite (fun _ => agree_of_eq (alike.versioning bucket)) fun versioning => ?_
  refine agree_ite (fun uploads => ?_) fun _ => ?_
  · have same : handleListUploads call.db.now w'.uploads r bucket = handleListUploads call.db.now w.uploads r bucket := by
      unfold handleListUploads
      by_cases get : r.method = str "GET"
      · rw [alike.listUploads plain (isOpen ⟨rfl, get, by simpa using location, by simpa using search,
          by simpa using acl, by simpa using versioning, uploads⟩)]
      · rw [if_pos get, if_pos get]
    simp only [Agree, same]
    cases handleListUploads call.db.now w.uploads r bucket with
    | error e => rfl
    | ok listing => rfl
  · refine agree_public alike outsider.closed (fun isPublic => ?_) (agree_permitted rejected _ _ _ _ _)
    exact agree_of_eq (alike.handleListObjects plain isPublic r)

theorem handleBucketOperations_agree (plain : (47 : UInt8) ∉ bucket) (isOpen : ListsUploads r method → PublicACL w bucket) :
    Agree w w' fun w => handleBucketOperations g services call env w r bucket method := by
  have rejected := rejected_of alike outsider
  refine agree_ite (fun _ => ?_) fun _ => ?_
  · exact agree_ite (fun _ => agree_permitted rejected _ _ _ _ _) fun _ => agree_permitted rejected _ _ _ _ _
  refine agree_ite (fun _ => agree_permitted rejected _ _ _ _ _) fun _ => ?_
  refine agree_ite (fun _ => agree_permitted rejected _ _ _ _ _) fun _ => ?_
  refine agree_ite (fun _ => agree_replied ?_) fun _ => ?_
  · exact agree_ite (fun _ => agree_identified rejected _ _ _ _ _) fun _ => agree_const _
  refine agree_ite (fun get => ?_) fun _ => agree_const _
  subst get
  exact getBucketResource_agree alike outsider plain isOpen

theorem multipartOperation_agree (representable : Representable w) (representable' : Representable w') (upload : r.queryHas (str "uploadId") = true)
    (multipart : isResumable services r = false)
    (isOpen : ListsParts services r method → PublicUpload w (home (r.queryGet (str "uploadId")))) :
    Agree w w' fun w => multipartOperation g call env w r bucket key method := by
  have rejected := rejected_of alike outsider
  refine agree_ite (fun _ => agree_replied (agree_guarded rejected _ _ _ _ _)) fun _ => ?_
  refine agree_ite (fun _ => agree_replied (agree_guarded rejected _ _ _ _ _)) fun _ => ?_
  refine agree_ite (fun _ => ?_) fun _ => ?_
  · obtain ⟨e, logins, here, there⟩ := rejected
    simp only [Agree, handleAbortMultipartUpload, requireIdentity_rejected here, requireIdentity_rejected there]
    by_cases asked : r.method = str "DELETE"
    · cases e with
      | panicked => simp [asked]
      | refused message => simp [asked]
    · simp [asked]
  refine agree_ite (fun get => ?_) fun _ => agree_const _
  have same := @listParts_agree _ g r w w' bucket key alike representable representable' fun asked named marker =>
    isOpen ⟨get, asked, upload, multipart, named, marker⟩
  simp only [Agree, same]
  cases handleListParts w.uploads r bucket key with
  | error e => rfl
  | ok listing => rfl

section
variable (plain : (47 : UInt8) ∉ bucket)
include plain

theorem handleGetObject_agree (object : r.queryHas (str "uploadId") = false)
    (isOpen : ReadsPresigned g call w r (str "GET") → PublicACL w bucket) :
    Agree w w' fun w => handleGetObject g call w r bucket key := by
  have rejected := rejected_of alike outsider
  have served : PublicACL w bucket → Agree w w' fun w =>
      some (withUserID g call w r fun userID w => serveObject g call w r bucket key userID) := fun isPublic =>
    congrArg some (withUserID_reply rejected fun userID logins =>
      (alike.withLogins logins).serveObject plain isPublic)
  refine agree_ite (fun _ => agree_const _) fun get => ?_
  have get := not_not.mp get
  by_cases named : r.queryGet (str "X-Amz-Credential") = []
  · simp only [named, ne_eq, not_true_eq_false, false_or]
    exact agree_public alike outsider.closed served (agree_identified rejected _ _ _ _ _)
  · simp only [ne_eq, named, not_false_eq_true, true_or, if_true]
    obtain ⟨e, logins, here, there⟩ := rejected
    cases e with
    | panicked => simp only [Agree, withUserID, requestUserID, here, there, map_some]
    | refused message => exact served (isOpen ⟨rfl, get, object, named, message, logins, here⟩)

theorem objectOperation_agree (object : r.queryHas (str "uploadId") = false)
    (isOpen : ReadsPresigned g call w r method → PublicACL w bucket) :
    Agree w w' fun w => objectOperation g services call w r bucket key method := by
  have rejected := rejected_of alike outsider
  refine agree_ite (fun _ => ?_) fun _ => ?_
  · exact agree_ite (fun _ => agree_replied (agree_guarded rejected _ _ _ _ _))
      fun _ => agree_replied (agree_guarded rejected _ _ _ _ _)
  refine agree_ite (fun get => agree_replied ?_) fun _ => ?_
  · subst get
    exact handleGetObject_agree alike outsider plain object isOpen
  refine agree_ite (fun _ => agree_replied ?_) fun _ => ?_
  · refine agree_ite (fun _ => agree_const _) fun _ => ?_
    refine agree_public alike outsider.closed (fun isPublic => agree_of_eq ?_) (agree_identified rejected _ _ _ _ _)
    simp only [describeObject, alike.getObject plain isPublic]
  refine agree_ite (fun _ => agree_replied (agree_guarded rejected _ _ _ _ _)) fun _ => ?_
  refine agree_ite (fun _ => ?_) fun _ => agree_const _
  exact agree_ite (fun _ => agree_permitted rejected _ _ _ _ _) fun _ => agree_const _

theorem handleObjectOperations_agree (representable : Representable w) (representable' : Representable w')
    (parts : ListsParts services r method → PublicUpload w (home (r.queryGet (str "uploadId"))))
    (reads : ReadsPresigned g call w r method → PublicACL w bucket) :
    Agree w w' fun w => handleObjectOperations g services call env w r bucket key method := by
  refine agree_ite (fun upload => ?_) fun object => ?_
  · refine agree_ite (fun _ => agree_replied ?_) fun multipart => ?_
    · exact resumableOperation_agree (rejected_of alike outsider)
    · exact multipartOperation_agree alike outsider representable representable' upload (by simpa using multipart) parts
  · exact objectOperation_agree alike outsider plain (by simpa using object) reads

end

end

/-! ### Requests that tell worlds apart -/

section
variable {g : Config} {services : Services κ} {call : Call κ} {env : Surroundings} {r : Request} {w : World κ}
  {bucket key method : Bytes}

theorem Alike.refl (g : Config) (w : World κ) : Alike g w w where
  logins := rfl
  keys := rfl
  settings _ := rfl
  buckets _ _ := rfl
  objects _ _ := rfl
  versions _ _ := rfl
  uploads _ _ := rfl
  parts _ _ := rfl
  sessions _ _ _ := Iff.rfl
  data _ _ _ _ _ := rfl
  budget := rfl
  cached _ _ := rfl

/-- Two worlds that differ only in private contents are answered differently. -/
def Tells (g : Config) (w : World κ) (answer : World κ → β) : Prop :=
  ∃ w₁ w₂, (Representable w₁ ∧ Alike g w w₁) ∧ (Representable w₂ ∧ Alike g w w₂) ∧ answer w₁ ≠ answer w₂

theorem Tells.not_equal {answer : World κ → β} (tells : Tells g w answer)
    (equal : ∀ w', Alike g w w' → Representable w' → answer w' = answer w) : False := by
  obtain ⟨w₁, w₂, ⟨sound₁, alike₁⟩, ⟨sound₂, alike₂⟩, apart⟩ := tells
  exact apart ((equal w₁ alike₁ sound₁).trans (equal w₂ alike₂ sound₂).symm)

theorem get_emptied (t : Table Bytes β) {start k : Bytes} (apart : start.isPrefixOf k = false) :
    (t.restrict fun k => !start.isPrefixOf k).get k = t.get k :=
  (get_restrict _ _ _).trans (if_pos (by rw [apart]; rfl))

theorem get_put_apart (t : Table Bytes β) (value : β) {start k : Bytes} (apart : start.isPrefixOf k = false) :
    (t.put (start ++ []) value).get k = t.get k := by
  apply get_put_ne
  rintro rfl
  exact Bool.false_ne_true (apart.symm.trans ( isPrefixOf_iff_prefix.mpr (prefix_append _ _)))

theorem page_nil (limit : Int) : page limit ([] : List α) = ([], false) := by
  simp [page]

/-- A listing with something differs from one without, whatever the size of the
page. -/
theorem page_ne_nil {limit : Int} {entries : List α} (listed : entries ≠ []) (f : α → β)
    (first : (page limit entries).1.map f = []) : (page limit entries).2 = true := by
  apply decide_eq_true
  apply lt_of_not_ge
  intro short
  rw [map_eq_nil_iff] at first
  exact listed ((take_of_length_le short).symm.trans first)

theorem handleBucketOperations_uploads (lists : ListsUploads r method) (w : World κ) :
    (handleBucketOperations g services call env w r bucket method).map (·.1) =
      some (.uploads
        { bucket
          maxUploads := queryInt r "max-uploads" 1000
          isTruncated := (page (queryInt r "max-uploads" 1000) (listUploads call.db.now w.uploads bucket)).2
          uploads := (page (queryInt r "max-uploads" 1000) (listUploads call.db.now w.uploads bucket)).1.map
            fun u => ⟨u.key, u.uploadID, u.initiated⟩ }) := by
  have put : ¬ str "GET" = str "PUT" := by decide
  have delete : ¬ str "GET" = str "DELETE" := by decide
  have head : ¬ str "GET" = str "HEAD" := by decide
  have post : ¬ str "GET" = str "POST" := by decide
  unfold handleBucketOperations
  rw [lists.dispatched, if_neg put, if_neg delete, if_neg head, if_neg post, if_pos rfl]
  simp only [getBucketResource, lists.location, lists.search, lists.acl, lists.versioning, lists.uploads,
    handleListUploads, lists.method, ne_eq, not_true_eq_false, Bool.false_eq_true, if_false, if_true, map_some]

/-- Two worlds with and without an upload in a private bucket. -/
theorem uploads_told_apart (hidden : ¬ PublicACL w bucket) (plain : (47 : UInt8) ∉ bucket)
    (representable : Representable w) (lists : ListsUploads r method) :
    Tells g w fun w => (handleBucketOperations g services call env w r bucket method).map (·.1) := by
  let start := bucket ++ str "/"
  let pending : MultipartUpload := ⟨[], bucket, [], 0, call.db.now + 1, [], [], false⟩
  let none_ := w.uploads.uploads.restrict fun k => !start.isPrefixOf k
  let one := w.uploads.uploads.put (start ++ []) pending
  have private_ (k : Bytes) (isOpen : PublicACL w (home k)) : start.isPrefixOf k = false := by
    rw [Bool.eq_false_iff]
    intro under
    rw [home_under under, home_plain plain] at isOpen
    exact hidden isOpen
  refine ⟨{ w with uploads := ⟨none_, w.uploads.parts⟩ }, { w with uploads := ⟨one, w.uploads.parts⟩ },
    ⟨representable, { Alike.refl g w with uploads := ?_ }⟩, ⟨representable, { Alike.refl g w with uploads := ?_ }⟩, ?_⟩
  · exact fun k isOpen => get_emptied _ (private_ k isOpen)
  · exact fun k isOpen => get_put_apart _ _ (private_ k isOpen)
  · have blank : listUploads call.db.now ⟨none_, w.uploads.parts⟩ bucket = [] := by
      simp only [listUploads, hasPrefix]
      rw [scan_emptied]
      rfl
    have shown : listUploads call.db.now ⟨one, w.uploads.parts⟩ bucket ≠ [] := by
      apply ne_nil_of_mem
      apply mem_filter.mpr
      exact ⟨mem_map.mpr ⟨_, scan_put w.uploads.uploads start [] pending, rfl⟩, by simp [pending]⟩
    simp only [handleBucketOperations_uploads lists]
    intro same
    simp only [blank, page_nil, map_nil, some.injEq, Response.uploads.injEq, ListUploadsOutput.mk.injEq,
      true_and] at same
    exact Bool.false_ne_true (same.1.trans (page_ne_nil shown _ same.2.symm))

theorem handleObjectOperations_parts (lists : ListsParts services r method) (w : World κ) :
    (handleObjectOperations g services call env w r bucket key method).map (·.1) =
      (let shown := page (queryInt r "max-parts" 1000)
        ((recordedParts w.uploads (r.queryGet (str "uploadId"))).filter
          fun part => queryInt r "part-number-marker" 0 < part.partNumber)
      some (.parts
        { bucket
          key
          uploadID := r.queryGet (str "uploadId")
          storageClass := str "STANDARD"
          maxParts := queryInt r "max-parts" 1000
          isTruncated := shown.2
          parts := shown.1.map fun p => ⟨p.partNumber, quoted p.etag, p.uploadedAt, p.size, p.checksum⟩ })) := by
  have put : ¬ str "GET" = str "PUT" := by decide
  have post : ¬ str "GET" = str "POST" := by decide
  have delete : ¬ str "GET" = str "DELETE" := by decide
  unfold handleObjectOperations multipartOperation
  rw [lists.dispatched, if_neg put, if_neg post, if_neg delete, if_pos rfl]
  simp only [lists.upload, lists.multipart, handleListParts, lists.method, lists.named, ne_eq, not_true_eq_false,
    Bool.false_eq_true, if_false, if_true, map_some]

/-- Two worlds with and without a part of an upload to a private bucket. -/
theorem parts_told_apart (hidden : ¬ PublicUpload w (home (r.queryGet (str "uploadId"))))
    (representable : Representable w) (lists : ListsParts services r method) :
    Tells g w fun w => (handleObjectOperations g services call env w r bucket key method).map (·.1) := by
  let start := r.queryGet (str "uploadId") ++ str "/"
  let last : UploadPart := ⟨2 ^ 63 - 1, [], 0, [], 0⟩
  let none_ := w.uploads.parts.restrict fun k => !start.isPrefixOf k
  let one := w.uploads.parts.put (start ++ []) last
  have private_ (k : Bytes) (isOpen : PublicUpload w (home k)) : start.isPrefixOf k = false := by
    rw [Bool.eq_false_iff]
    intro under
    rw [home_under under] at isOpen
    exact hidden isOpen
  refine ⟨{ w with uploads := ⟨w.uploads.uploads, none_⟩ }, { w with uploads := ⟨w.uploads.uploads, one⟩ },
    ⟨?_, { Alike.refl g w with parts := ?_ }⟩, ⟨?_, { Alike.refl g w with parts := ?_ }⟩, ?_⟩
  · exact fun e member => representable e (mem_filter.mp member).1
  · exact fun k isOpen => get_emptied _ (private_ k isOpen)
  · intro e member
    rcases mem_put member with rfl | old
    · exact sub_one_lt _
    · exact representable e old
  · exact fun k isOpen => get_put_apart _ _ (private_ k isOpen)
  · have blank : recordedParts ⟨w.uploads.uploads, none_⟩ (r.queryGet (str "uploadId")) = [] := by
      simp only [recordedParts, hasPrefix]
      rw [scan_emptied]
      rfl
    have shown : ((recordedParts ⟨w.uploads.uploads, one⟩ (r.queryGet (str "uploadId"))).filter
        fun part => queryInt r "part-number-marker" 0 < part.partNumber) ≠ [] := by
      apply ne_nil_of_mem
      apply mem_filter.mpr
      exact ⟨mem_map.mpr ⟨_, scan_put w.uploads.parts start [] last, rfl⟩, decide_eq_true lists.marker⟩
    simp only [handleObjectOperations_parts lists]
    intro same
    simp only [blank, filter_nil, page_nil, map_nil, some.injEq, Response.parts.injEq,
      ListPartsOutput.mk.injEq, true_and] at same
    exact Bool.false_ne_true (same.1.trans (page_ne_nil shown _ same.2.symm))

/-- A read that names a credential is served without a further check. -/
theorem handleObjectOperations_read (reads : ReadsPresigned g call w r method) {objects : Table Bytes ObjectMetadata} :
    ∃ logins, (handleObjectOperations g services call env
        { w with metadata := { w.metadata with objects } } r bucket key method).map (·.1) =
      some (.reply (serveObject g call { w with logins, metadata := { w.metadata with objects } } r bucket key
        (str "anonymous")).1) := by
  have put : ¬ str "GET" = str "PUT" := by decide
  obtain ⟨_, logins, refused⟩ := reads.refused
  refine ⟨logins, ?_⟩
  unfold handleObjectOperations objectOperation
  rw [reads.dispatched, if_neg put, if_pos rfl]
  simp only [reads.object, handleGetObject, reads.method, reads.credential, withUserID, requestUserID, refused,
    ne_eq, not_true_eq_false, not_false_eq_true, true_or, Bool.false_eq_true, if_false, if_true, map_some,
    replied]

/-- Two worlds with and without a record in a private bucket. -/
theorem reads_told_apart (hidden : ¬ PublicACL w bucket) (plain : (47 : UInt8) ∉ bucket)
    (representable : Representable w) (reads : ReadsPresigned g call w r method) :
    Tells g w fun w => (handleObjectOperations g services call env w r bucket key method).map (·.1) := by
  let marker : ObjectMetadata :=
    { buildActiveObjectMetadata call bucket key ⟨0, [], [], false, [], none⟩ with deleteMarker := true }
  let none_ := w.metadata.objects.delete (objectKey bucket key)
  let one := w.metadata.objects.put (objectKey bucket key) marker
  have private_ : ∀ k, PublicACL w (home k) → objectKey bucket key ≠ k := by
    rintro k isOpen rfl
    rw [objectKey, home_append, home_plain plain] at isOpen
    exact hidden isOpen
  refine ⟨{ w with metadata := { w.metadata with objects := none_ } },
    { w with metadata := { w.metadata with objects := one } },
    ⟨representable, { Alike.refl g w with objects := ?_ }⟩,
    ⟨representable, { Alike.refl g w with objects := ?_ }⟩, ?_⟩
  · exact fun k isOpen => get_delete_ne _ (private_ k isOpen)
  · exact fun k isOpen => get_put_ne _ _ (private_ k isOpen)
  · obtain ⟨_, without⟩ := @handleObjectOperations_read _ g services call env r w bucket key method reads none_
    obtain ⟨_, with_⟩ := @handleObjectOperations_read _ g services call env r w bucket key method reads one
    simp only [without, with_]
    simp only [serveObject, getObject, none_, one, get_delete_same, get_put_same, marker, if_true,
      noSuchKey, ne_eq, some.injEq, Response.reply.injEq, Reply.error.injEq, true_and]
    -- the two texts part at the eighth byte
    intro same
    have eighth := congrArg (fun text : Bytes => text[7]?) same
    simp [str] at eighth

end

/-- Somebody without credentials learns nothing about the contents of private
buckets from a request exactly if it lists the uploads of an open bucket only,
lists the parts of uploads to an open bucket only, and reads with a credential
in the query from an open bucket only. -/
theorem responses_equal_iff (g : Config) (services : Services κ) (call : Call κ) (env : Surroundings) (r : Request)
    (bucket key method : Bytes) (w : World κ) (plain : (47 : UInt8) ∉ bucket) (representable : Representable w)
    (outsider : Outsider g call w r) :
    (∀ w', Alike g w w' → Representable w' →
      (handleBucketOperations g services call env w' r bucket method).map (·.1) =
        (handleBucketOperations g services call env w r bucket method).map (·.1) ∧
      (handleObjectOperations g services call env w' r bucket key method).map (·.1) =
        (handleObjectOperations g services call env w r bucket key method).map (·.1)) ↔
    (ListsUploads r method → PublicACL w bucket) ∧
      (ListsParts services r method → PublicUpload w (home (r.queryGet (str "uploadId")))) ∧
      (ReadsPresigned g call w r method → PublicACL w bucket) := by
  constructor
  · intro equal
    refine ⟨fun lists => ?_, fun lists => ?_, fun reads => ?_⟩
    · by_contra hidden
      exact (uploads_told_apart hidden plain representable lists).not_equal fun w' alike sound =>
        (equal w' alike sound).1
    · by_contra hidden
      exact (parts_told_apart hidden representable lists).not_equal fun w' alike sound => (equal w' alike sound).2
    · by_contra hidden
      exact (reads_told_apart hidden plain representable reads).not_equal fun w' alike sound =>
        (equal w' alike sound).2
  · rintro ⟨uploads, parts, reads⟩ w' alike representable'
    exact ⟨handleBucketOperations_agree alike outsider plain uploads,
      handleObjectOperations_agree alike outsider plain representable representable' parts reads⟩

open Gateway.Sample

namespace Sample

/-- No optional service. -/
def services : Services Unit := ⟨false, none, fun w _ => (.refused "vector search is off", w)⟩

/-- Nothing fails. -/
def env : Surroundings where
  documents := ⟨fun _ => none, fun _ => none, fun _ => .error []⟩
  requestID := str "q1"
  part := ⟨fun _ => none, none, none, none, none, none, none⟩
  completion := ⟨fun _ => none, fun _ => none, .none, none⟩
  abort := .none
  abortRecord := none
  patch := []
  finalization := ⟨none, none, none, none, none, none, none, none⟩

/-- The same world with an upload under way in the private bucket. -/
def uploading : World Unit :=
  { world with
    uploads := ⟨Table.empty.put (uploadKey (str "photos") (str "plan.pdf") (str "42"))
      ⟨str "42", str "photos", str "plan.pdf", 3, 86400, [], [], false⟩, Table.empty⟩ }

theorem closed (bucket : Bytes) : ¬ PublicACL world bucket := by
  rintro ⟨_, held, isPublic⟩
  by_cases same : str "photos" = bucket
  · subst same
    cases (get_put_same _ _ _).symm.trans held
    revert isPublic
    decide
  · have absent := (get_put_ne _ _ same).symm.trans held
    cases absent

theorem alike : Alike config world uploading :=
  { Alike.refl config world with
    uploads := fun k isOpen => absurd isOpen (closed (home k)) }

theorem outsider {r : Request} (bare : r.headerGet (str "Authorization") = []) : Outsider config call world r where
  required := rfl
  closed := rfl
  rejected := by
    refine ⟨.refused (str "authentication required"), [], ?_⟩
    simp only [authenticate, config, authenticateFallback, authenticateLegacy, bare,
      IdentityPolicies.Sample.handler, if_true, world]
  unsigned := by
    rintro ⟨_, ⟨_, member, -⟩ | ⟨_, bridged, -⟩, -⟩
    · cases member
    · cases bridged

end Sample

open Sample

/-- Anybody can ask which uploads are under way in a private bucket. -/
theorem uploads_listed_to_anybody : Outsider config call world (request (str "uploads")) ∧
      Alike config world uploading ∧
      (handleBucketOperations config services call env
        world (request (str "uploads")) (str "photos") (str "GET")).map (·.1) =
        some (.uploads ⟨str "photos", 1000, false, []⟩) ∧
      (handleBucketOperations config services call env
        uploading (request (str "uploads")) (str "photos") (str "GET")).map (·.1) =
        some (.uploads ⟨str "photos", 1000, false, [⟨str "plan.pdf", str "42", 3⟩]⟩) :=
  ⟨outsider (by decide), alike, by decide +kernel, by decide +kernel⟩

/-- A plain read of the object tells nothing. -/
theorem plain_read_tells_nothing : (47 : UInt8) ∉ str "photos" ∧ Representable world ∧
      Outsider config call world (request []) ∧
      ∀ w', Alike config world w' → Representable w' → (handleBucketOperations config services call env w'
            (request []) (str "photos") (str "GET")).map (·.1) =
          (handleBucketOperations config services call env world (request []) (str "photos") (str "GET")).map (·.1) ∧
        (handleObjectOperations config services call env w'
            (request []) (str "photos") (str "cat.jpg") (str "GET")).map (·.1) =
          (handleObjectOperations config services call env
            world (request []) (str "photos") (str "cat.jpg") (str "GET")).map (·.1) := by
  have plain : (47 : UInt8) ∉ str "photos" := by decide
  have representable : Representable world := nofun
  have outsider := @outsider (request []) (by decide)
  refine ⟨plain, representable, outsider, ?_⟩
  refine (responses_equal_iff config services call env
    (request []) (str "photos") (str "cat.jpg") (str "GET") world plain representable
    outsider).mpr ⟨fun lists => ?_, fun lists => ?_, fun reads => ?_⟩
  · exact absurd lists.uploads (by decide)
  · exact absurd lists.upload (by decide)
  · exact absurd (by decide) reads.credential

end CipherLake.Confidentiality
