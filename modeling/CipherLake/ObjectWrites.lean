import CipherLake.Resumable
import CipherLake.Multipart

/-! The four requests that write an object have one shape. Each makes its checks
and prepares what to store, then the data replaces what was there, then it is
recorded, and then the request is concluded in its own way. Here the handlers
are brought into this shape, so that a result about writing is proved once. -/
namespace CipherLake.ObjectWrites
open Lib Http AccessControl Metadata Storage Gateway Multipart Resumable

variable {κ α β : Type} {out : Reply × World κ}

inductive Write (κ : Type) where
  | put (call : Call κ) (r : Request)
  | copy (call : Call κ) (r : Request)
  | complete (call : Call κ) (faults : Completion) (r : Request)
  | finalize (call : Call κ) (faults : Finalization) (r : Request)

def Write.call : Write κ → Call κ
  | .put call _ | .copy call _ | .complete call _ _ | .finalize call _ _ => call

def Write.handle (g : Config) (bucket key : Bytes) (w : World κ) : Write κ → Option (Reply × World κ)
  | .put call r => handlePutObject g call w r bucket key
  | .copy call r => handleCopyObject g call w r bucket key
  | .complete call faults r => handleCompleteMultipartUpload g call faults w r bucket key
  | .finalize call faults r => handleFinalize g call faults w r bucket key

/-! ### Checks and preparation -/

/-- A step of the preparation, which may end the request. -/
abbrev Step (κ α : Type) := Option (Except (Reply × World κ) α)

def Step.andThen (step : Step κ α) (next : α → Step κ β) : Step κ β :=
  step.bind fun
    | .error out => some (.error out)
    | .ok a => next a

def Step.stop (reply : Reply) (w : World κ) : Step κ α := some (.error (reply, w))

/-- `requireIdentity`, as a step. -/
def permitted (g : Config) (call : Call κ) (w : World κ) (r : Request) (action bucket key : Bytes)
    (denied : Bytes → Reply) : Step κ (World κ) :=
  (requireIdentity call.auth call.fuel g.provider w.logins r action bucket key).map fun
    | (.error .panicked, logins) => .error (.panicked, { w with logins })
    | (.error (.refused e), logins) => .error (denied e, { w with logins })
    | (.ok _, logins) => .ok { w with logins }

/-- `requestUserID`, as a step. -/
def named (g : Config) (call : Call κ) (w : World κ) (r : Request) : Step κ (Bytes × World κ) :=
  match requestUserID call.auth g.provider w.logins r with
  | (.error _, logins) => Step.stop .panicked { w with logins }
  | (.ok userID, logins) => some (.ok (userID, { w with logins }))

/-- What a write has ready when it turns to the store: the plan, the verdict on
the checksum once the data is written, and what it does when all is recorded. -/
structure Prepared (κ : Type) where
  plan : Plan
  verdict : Except Bytes (Bytes × Bytes)
  conclude : World κ → ObjectMetadata → Reply × World κ

/-- A plan whose record has its checksum already. -/
def Prepared.settled (plan : Plan) (conclude : World κ → ObjectMetadata → Reply × World κ) : Prepared κ :=
  ⟨plan, .ok (plan.record.checksum, plan.record.checksumType), conclude⟩

variable (g : Config)

def preparedPut (call : Call κ) (r : Request) (bucket key : Bytes) (w : World κ) :
    Step κ (World κ × Prepared κ) :=
  if r.method ≠ str "PUT" then Step.stop (.refused (str "method not allowed")) w
  else
    (permitted g call w r (str "write") bucket key accessDenied).andThen fun w =>
      if ¬ validateContentType call (objectContentType r) then
        Step.stop (.refused (str "unsupported content type: " ++ objectContentType r)) w
      else
        match resolveUploadContentLength g r with
        | .error reply => Step.stop reply w
        | .ok (contentLength, body) =>
          (named g call w r).andThen fun (userID, w) =>
            match preparePut g call w r bucket key userID (objectContentType r) contentLength body with
            | (.error reply, w) => Step.stop reply w
            | (.ok plan, w) => some (.ok (w, ⟨plan, finalizeChecksum call r body.bytes,
                fun w record => (.sent 200 (putHeaders r record) [] none, w)⟩))

def concludeCopy (call : Call κ) (source : ObjectMetadata) (w : World κ) : Reply × World κ :=
  (.sent 200 [(str "ETag", quoted call.etag), (str "x-amz-version-id", call.versionID),
    (str "x-amz-copy-source-version-id", source.versionID)] [] none, w)

/-- The source of a copy, once both ends are permitted. -/
def copySource (call : Call κ) (r : Request) (bucket key srcBucket srcKey : Bytes) (w : World κ) :
    Step κ (World κ × Prepared κ) :=
  match getObject w.metadata srcBucket srcKey with
  | .error _ => Step.stop (.error 404 (str "NoSuchKey")
      (str "Source object '" ++ srcBucket ++ str "/" ++ srcKey ++ str "' not found")) w
  | .ok source =>
    if source.deleteMarker then Step.stop (.error 404 (str "NoSuchKey") (str "Source object has been deleted")) w
    else
      (named g call w r).andThen fun (_, w) =>
        match Storage.get g.tiers call.disk w.fs srcBucket srcKey source.storageTier with
        | .error e => Step.stop (.refused (str "failed to read source object: " ++ e)) w
        | .ok data => some (.ok (w, .settled (copyPlan call r bucket key source data) fun w _ =>
            concludeCopy call source w))

def preparedCopy (call : Call κ) (r : Request) (bucket key : Bytes) (w : World κ) :
    Step κ (World κ × Prepared κ) :=
  if r.method ≠ str "PUT" then Step.stop (.refused (str "method not allowed")) w
  else
    (permitted g call w r (str "write") bucket key accessDenied).andThen fun w =>
      if r.headerGet (str "x-amz-copy-source") = [] then
        Step.stop (.refused (str "missing x-amz-copy-source header")) w
      else
        match cut (trimPrefix (r.headerGet (str "x-amz-copy-source")) (str "/")) 47 with
        | (_, none) => Step.stop (.refused (str "invalid copy source format, expected /bucket/key")) w
        | (srcBucket, some srcKey) =>
          (permitted g call w r (str "read") srcBucket srcKey
            (fun e => .refused (str "access denied on source: " ++ e))).andThen
            (copySource g call r bucket key srcBucket srcKey)

/-- What follows a merged object that is in place. -/
def concludeComplete (call : Call κ) (faults : Completion) (bucket key uploadID : Bytes) (w : World κ) :
    Reply × World κ :=
  let fs := (cleanupParts faults.cleanup w.fs g.uploadsDir uploadID).2
  match deleteUpload faults.deleteUpload w.uploads bucket key uploadID with
  | (.error e, uploads) =>
    (.refused (str "failed to finalize upload metadata: " ++ e.text), { w with fs, uploads })
  | (.ok (), uploads) => (.sent 200 [(str "ETag", quoted call.etag)] [] none, { w with fs, uploads })

def preparedComplete (call : Call κ) (faults : Completion) (r : Request) (bucket key : Bytes)
    (w : World κ) : Step κ (World κ × Prepared κ) :=
  if r.method ≠ str "POST" then Step.stop (.refused (str "method not allowed")) w
  else
    (permitted g call w r (str "write") bucket key accessDenied).andThen fun w =>
      let uploadID := r.queryGet (str "uploadId")
      if uploadID = [] then Step.stop (.refused (str "uploadId is required")) w
      else
        match getUpload w.uploads bucket key uploadID with
        | .error e => Step.stop (.refused (str "upload not found: " ++ e.text)) w
        | .ok upload =>
          if call.db.now > upload.expiresAt then Step.stop (.refused (str "upload has expired")) w
          else if getParts w.uploads uploadID = [] then Step.stop (.refused (str "no parts uploaded")) w
          else some (.ok (w, .settled
            (completePlan g call faults w bucket key uploadID upload (getParts w.uploads uploadID))
            fun w _ => concludeComplete g call faults bucket key uploadID w))

def finalizeChecksumOf (call : Call κ) (faults : Finalization) (w : World κ) (path : Path)
    (session : ResumableSession) : Bytes :=
  if session.checksum ≠ [] then session.checksum
  else (computeFileChecksum call faults.hashing w.fs path).getD []

def preparedFinalize (call : Call κ) (faults : Finalization) (r : Request) (bucket key : Bytes)
    (w : World κ) : Step κ (World κ × Prepared κ) :=
  (permitted g call w r (str "write") bucket key unauthorized).andThen fun w =>
    match findSession call w r bucket key with
    | .error reply => Step.stop reply w
    | .ok session =>
      if session.finalized then Step.stop (invalidRequest "Upload session already finalized") w
      else
        let uploadID := r.queryGet (str "uploadId")
        let path := getTempFilePath g uploadID
        match openTemp faults w.fs path with
        | .error e => Step.stop (.refused e) w
        | .ok (contentLength, data) =>
          (named g call w r).andThen fun (userID, w) =>
            match prepareFinalize g call w bucket key userID (finalizeChecksumOf call faults w path session)
              session contentLength data with
            | (.error reply, w) => Step.stop reply w
            | (.ok plan, w) => some (.ok (w, .settled plan fun w record =>
                concludeFinalize g call faults w session uploadID record.encrypted))

def Write.prepare (bucket key : Bytes) (w : World κ) : Write κ → Step κ (World κ × Prepared κ)
  | .put call r => preparedPut g call r bucket key w
  | .copy call r => preparedCopy g call r bucket key w
  | .complete call faults r => preparedComplete g call faults r bucket key w
  | .finalize call faults r => preparedFinalize g call faults r bucket key w

/-! ### Storing -/

/-- How storing can fall short. -/
inductive Shortfall where
  | unwritten (e : Bytes)
  | mismatch (e : Bytes)
  | unrecorded (e : Bytes)

/-- The data, the verdict on the checksum, and the record, in this order. -/
def store (call : Call κ) (bucket key : Bytes) (w : World κ) (p : Prepared κ) :
    Except Shortfall ObjectMetadata × World κ :=
  match Storage.put g.tiers call.disk w.fs bucket key p.plan.data p.plan.size tierHot with
  | (.error e, fs) => (.error (.unwritten e), { w with fs })
  | (.ok (), fs) =>
    match p.verdict with
    | .error e => (.error (.mismatch e), takeBack g call { w with fs } bucket key)
    | .ok (checksum, checksumType) =>
      let record := { p.plan.record with checksum, checksumType }
      match putObjectMetadataAfterStore g call { w with fs } bucket key record with
      | (.error e, w) => (.error (.unrecorded e), w)
      | (.ok (), w) => (.ok record, w)

def storeErrMessage : Write κ → String
  | .put _ _ => "failed to store object"
  | .copy _ _ => "failed to copy object"
  | .complete _ _ _ => "failed to store merged object"
  | .finalize _ _ _ => "failed to store object"

def explain (write : Write κ) : Shortfall → Reply
  | .unwritten e => .refused (str (storeErrMessage write) ++ str ": " ++ e)
  | .mismatch e => .error 400 (str "BadDigest") e
  | .unrecorded e => .refused e

def finish (bucket key : Bytes) (write : Write κ) (w : World κ) (p : Prepared κ) : Reply × World κ :=
  match store g write.call bucket key w p with
  | (.error shortfall, w) => (explain write shortfall, w)
  | (.ok record, w) => p.conclude w record

/-- The whole of a write. -/
def Write.outcome (bucket key : Bytes) (w : World κ) (write : Write κ) : Option (Reply × World κ) :=
  (write.prepare g bucket key w).map fun
    | .error out => out
    | .ok (w, p) => finish g bucket key write w p

/-! ### The handlers have this shape -/

section
variable {g : Config} {call : Call κ} {w : World κ} {r : Request} {bucket key : Bytes}

/-- The rest of a request after one of its steps. -/
def Step.resume (step : Step κ α) (next : α → Option (Reply × World κ)) : Option (Reply × World κ) :=
  step.bind fun
    | .error out => some out
    | .ok a => next a

theorem identified_eq_resume (action : Bytes) (denied : Bytes → Reply) (next : World κ → Option (Reply × World κ)) :
    identified g call w r action bucket key denied next =
      (permitted g call w r action bucket key denied).resume next := by
  unfold identified permitted Step.resume
  rcases requireIdentity call.auth call.fuel g.provider w.logins r action bucket key with - | ⟨result, -⟩
  · rfl
  · rcases result with (- | -) | - <;> rfl

theorem withUserID_eq_resume (next : Bytes → World κ → Reply × World κ) :
    some (withUserID g call w r next) = (named g call w r).resume fun (userID, w) => some (next userID w) := by
  unfold withUserID named Step.resume
  rcases requestUserID call.auth g.provider w.logins r with ⟨_ | userID, -⟩ <;> rfl

theorem resume_andThen (step : Step κ α) (next : α → Step κ β) (last : β → Option (Reply × World κ)) :
    (step.andThen next).resume last = step.resume fun a => (next a).resume last := by
  rcases step with - | - | a <;> rfl

theorem outcome_eq_resume (write : Write κ) :
    write.outcome g bucket key w =
      (write.prepare g bucket key w).resume fun (w, p) => some (finish g bucket key write w p) := by
  unfold Write.outcome Step.resume
  rcases write.prepare g bucket key w with - | - | ⟨w, p⟩ <;> rfl

theorem commitPut_eq_store (body : Bytes) (plan : Plan) (conclude : World κ → ObjectMetadata → Reply × World κ) :
    (match commitPut g call w r bucket key body plan with
      | (.error reply, w) => (reply, w)
      | (.ok record, w) => conclude w record) =
    finish g bucket key (.put call r) w ⟨plan, finalizeChecksum call r body, conclude⟩ := by
  have text : str "failed to store object: " = str "failed to store object" ++ str ": " := by decide
  unfold commitPut finish store Write.call
  rcases Storage.put g.tiers call.disk w.fs bucket key plan.data plan.size tierHot with ⟨e | -, fs⟩
  · simp only [text]
    rfl
  rcases finalizeChecksum call r body with - | ⟨checksum, checksumType⟩
  · rfl
  · simp only
    rcases putObjectMetadataAfterStore g call { w with fs } bucket key
      { plan.record with checksum, checksumType } with ⟨e | -, w⟩ <;> rfl

theorem putStored_eq_store (g : Config) (bucket key : Bytes) (w : World κ) (write : Write κ) (plan : Plan)
    (conclude : World κ → ObjectMetadata → Reply × World κ) :
    (match putStoredObjectWithMetadata g write.call w bucket key plan (storeErrMessage write) with
      | (.error e, w) => (.refused e, w)
      | (.ok (), w) => conclude w plan.record) = finish g bucket key write w (.settled plan conclude) := by
  unfold putStoredObjectWithMetadata finish store Prepared.settled
  rcases Storage.put g.tiers write.call.disk w.fs bucket key plan.data plan.size tierHot with ⟨e | -, fs⟩
  · rfl
  · simp only
    rcases putObjectMetadataAfterStore g write.call { w with fs } bucket key plan.record with ⟨e | -, w⟩ <;> rfl

theorem handlePutObject_eq (call : Call κ) (r : Request) :
    handlePutObject g call w r bucket key = (Write.put call r).outcome g bucket key w := by
  rw [outcome_eq_resume, Write.prepare, handlePutObject, preparedPut]
  split
  · rfl
  rw [identified_eq_resume, resume_andThen]
  congr 1
  funext w
  simp only
  split
  · rfl
  rcases resolveUploadContentLength g r with reply | ⟨contentLength, body⟩
  · rfl
  simp only
  rw [withUserID_eq_resume, resume_andThen]
  congr 1
  funext named
  obtain ⟨userID, w⟩ := named
  simp only
  rcases preparePut g call w r bucket key userID (objectContentType r) contentLength body with
    ⟨reply | plan, w⟩
  · rfl
  · exact congrArg some (commitPut_eq_store body.bytes plan _)

theorem handleCopyObject_eq (call : Call κ) (r : Request) :
    handleCopyObject g call w r bucket key = (Write.copy call r).outcome g bucket key w := by
  rw [outcome_eq_resume, Write.prepare, handleCopyObject, preparedCopy]
  split
  · rfl
  rw [identified_eq_resume, resume_andThen]
  congr 1
  funext w
  simp only
  split
  · rfl
  rcases cut (trimPrefix (r.headerGet (str "x-amz-copy-source")) (str "/")) 47 with ⟨srcBucket, - | srcKey⟩
  · rfl
  simp only
  rw [identified_eq_resume, resume_andThen]
  congr 1
  funext w
  rw [copyFrom, copySource]
  rcases getObject w.metadata srcBucket srcKey with e | source
  · rfl
  simp only
  split
  · rfl
  rw [withUserID_eq_resume, resume_andThen]
  congr 1
  funext named
  obtain ⟨_, w⟩ := named
  simp only
  rcases Storage.get g.tiers call.disk w.fs srcBucket srcKey source.storageTier with e | data
  · rfl
  · exact congrArg some (putStored_eq_store g bucket key w (.copy call r)
      (copyPlan call r bucket key source data) fun w _ => concludeCopy call source w)

theorem handleComplete_eq (call : Call κ) (faults : Completion) (r : Request) :
    handleCompleteMultipartUpload g call faults w r bucket key =
      (Write.complete call faults r).outcome g bucket key w := by
  rw [outcome_eq_resume, Write.prepare, handleCompleteMultipartUpload, preparedComplete]
  split
  · rfl
  rw [identified_eq_resume, resume_andThen]
  congr 1
  funext w
  simp only
  split
  · rfl
  rcases getUpload w.uploads bucket key (r.queryGet (str "uploadId")) with e | upload
  · rfl
  simp only
  split
  · rfl
  split
  · rfl
  generalize completePlan g call faults w bucket key (r.queryGet (str "uploadId")) upload
    (getParts w.uploads (r.queryGet (str "uploadId"))) = plan
  refine Eq.trans ?_ (congrArg some (putStored_eq_store g bucket key w (.complete call faults r) plan
    fun w _ => concludeComplete g call faults bucket key (r.queryGet (str "uploadId")) w))
  simp only [Write.call, storeErrMessage]
  rcases putStoredObjectWithMetadata g call w bucket key plan "failed to store merged object" with
    ⟨e | -, w⟩
  · rfl
  · simp only [concludeComplete]
    rcases deleteUpload faults.deleteUpload w.uploads bucket key (r.queryGet (str "uploadId")) with
      ⟨e | -, -⟩ <;> rfl

theorem handleFinalize_eq (call : Call κ) (faults : Finalization) (r : Request) :
    handleFinalize g call faults w r bucket key = (Write.finalize call faults r).outcome g bucket key w := by
  rw [outcome_eq_resume, Write.prepare, handleFinalize, preparedFinalize]
  rw [identified_eq_resume, resume_andThen]
  congr 1
  funext w
  rcases findSession call w r bucket key with reply | session
  · rfl
  simp only
  split
  · rfl
  rcases openTemp faults w.fs (getTempFilePath g (r.queryGet (str "uploadId"))) with - | ⟨contentLength, data⟩
  · rfl
  simp only
  rw [storeUpload, withUserID_eq_resume, resume_andThen]
  congr 1
  funext named
  obtain ⟨userID, w⟩ := named
  simp only [finalizeChecksumOf]
  rcases prepareFinalize g call w bucket key userID _ session contentLength data with ⟨reply | plan, w⟩
  · rfl
  · exact congrArg some (putStored_eq_store g bucket key w (.finalize call faults r) plan fun w record =>
      concludeFinalize g call faults w session (r.queryGet (str "uploadId")) record.encrypted)

/-- Every write is prepared, stored and concluded. -/
theorem handle_eq_outcome (write : Write κ) : write.handle g bucket key w = write.outcome g bucket key w := by
  cases write with
  | put call r => exact handlePutObject_eq call r
  | copy call r => exact handleCopyObject_eq call r
  | complete call faults r => exact handleComplete_eq call faults r
  | finalize call faults r => exact handleFinalize_eq call faults r

end

/-! ### What a preparation leaves behind -/

/-- Nothing but the failed logins and the key store is changed. -/
def Untouched (w w' : World κ) : Prop := ∃ logins keys, w' = { w with logins, keys }

theorem Untouched.refl (w : World κ) : Untouched w w := ⟨w.logins, w.keys, rfl⟩

theorem Untouched.trans {w₁ w₂ w₃ : World κ} (first : Untouched w₁ w₂) (second : Untouched w₂ w₃) :
    Untouched w₁ w₃ := by
  obtain ⟨_, _, rfl⟩ := first
  obtain ⟨logins', keys', rfl⟩ := second
  exact ⟨logins', keys', rfl⟩

/-- A request that is turned away. -/
def TurnedAway (w : World κ) (out : Reply × World κ) : Prop := ¬ out.1.Succeeded ∧ Untouched w out.2

section
variable {g : Config} {call : Call κ} {w w₁ : World κ} {r : Request} {bucket key : Bytes} {p : Prepared κ}
  {action : Bytes} {denied : Bytes → Reply} {reply : Reply} {write : Write κ}

/-- The preparation of a `PUT` changes at most the key store. -/
theorem preparePut_untouched (g : Config) (call : Call κ) (w : World κ) (r : Request)
    (bucket key userID contentType : Bytes) (contentLength : Int) (body : Answer) :
    Untouched w (preparePut g call w r bucket key userID contentType contentLength body).2 ∧
      ∀ reply, (preparePut g call w r bucket key userID contentType contentLength body).1 = .error reply →
        ¬ reply.Succeeded := by
  unfold preparePut
  split
  · exact ⟨.refl w, fun _ same => Except.error.inj same ▸ id⟩
  · split
    · exact ⟨.refl w, fun _ same => Except.error.inj same ▸ id⟩
    · split
      · exact ⟨.refl w, fun _ same => Except.error.inj same ▸ id⟩
      · exact ⟨.refl w, nofun⟩
  · split
    · split
      · exact ⟨⟨w.logins, _, rfl⟩, fun _ same => Except.error.inj same ▸ id⟩
      · exact ⟨⟨w.logins, _, rfl⟩, nofun⟩
    · exact ⟨.refl w, nofun⟩

theorem prepareFinalize_untouched (g : Config) (call : Call κ) (w : World κ) (bucket key userID checksum : Bytes)
    (session : ResumableSession) (contentLength : Int) (data : Answer) :
    Untouched w (prepareFinalize g call w bucket key userID checksum session contentLength data).2 ∧
      ∀ reply, (prepareFinalize g call w bucket key userID checksum session contentLength data).1 = .error reply →
        ¬ reply.Succeeded := by
  unfold prepareFinalize
  split
  · split
    · exact ⟨⟨w.logins, _, rfl⟩, fun _ same => Except.error.inj same ▸ id⟩
    · exact ⟨⟨w.logins, _, rfl⟩, nofun⟩
  · exact ⟨.refl w, nofun⟩

theorem resolveUploadContentLength_error (failed : resolveUploadContentLength g r = .error reply) :
    ¬ reply.Succeeded := by
  unfold resolveUploadContentLength at failed
  simp only at failed
  split at failed
  · split at failed
    · cases failed
      exact id
    · cases failed
  · split at failed
    · cases failed
      exact id
    · split at failed
      · cases failed
        exact id
      · cases failed

/-- The body that is left to read is the whole body. -/
theorem resolved_bytes {contentLength : Int} {body : Answer}
    (resolved : resolveUploadContentLength g r = .ok (contentLength, body)) : body.bytes = r.body.bytes := by
  have all {bytes : Bytes} (data : Answer) (read : readAll data = .ok bytes) : bytes = data.bytes := by
    unfold readAll at read
    split at read
    · cases read
    · cases read
    · exact (Except.ok.inj read).symm
  unfold resolveUploadContentLength at resolved
  simp only at resolved
  split at resolved
  · split at resolved
    · cases resolved
    · rw [← (Prod.mk.inj (Except.ok.inj resolved)).2]
  split at resolved
  · cases resolved
  rename_i bytes read
  split at resolved
  · cases resolved
  rename_i fits
  rw [← (Prod.mk.inj (Except.ok.inj resolved)).2]
  rcases Int.lt_or_le 0 g.maxUploadBytes with bounded | _
  · rw [if_pos bounded] at read
    unfold limited at read
    split at read
    · exact all _ read
    have cut := all _ read
    refine absurd ⟨bounded, ?_⟩ fits
    rw [cut, List.length_take]
    omega
  · rw [if_neg (by omega)] at read
    exact all _ read

/-- A preparation turns the request away, or leaves the world and what is
prepared as stated. -/
structure Prepares (w : World κ) (step : Step κ (World κ × Prepared κ)) (post : World κ → Prepared κ → Prop) :
    Prop where
  away : ∀ {out}, step = some (.error out) → TurnedAway w out
  ok : ∀ {w₁ p}, step = some (.ok (w₁, p)) → post w₁ p

section
variable {post : World κ → Prepared κ → Prop}

theorem Prepares.stop (refuses : ¬ reply.Succeeded) (kept : Untouched w w₁) : Prepares w (Step.stop reply w₁) post := by
  refine ⟨fun ended => ?_, fun done => ?_⟩
  · cases ended
    exact ⟨refuses, kept⟩
  · cases done

theorem Prepares.done (holds : post w₁ p) : Prepares w (some (.ok (w₁, p))) post := by
  refine ⟨fun ended => ?_, fun done => ?_⟩
  · cases ended
  · cases done
    exact holds

/-- After a check that is passed, the rest of the preparation. -/
theorem Prepares.permitted {next : World κ → Step κ (World κ × Prepared κ)} (refuses : ∀ e, ¬ (denied e).Succeeded)
    (kept : Untouched w w₁) (rest : ∀ logins, Prepares w (next { w₁ with logins }) post) :
    Prepares w ((ObjectWrites.permitted g call w₁ r action bucket key denied).andThen next) post := by
  unfold ObjectWrites.permitted Step.andThen
  rcases requireIdentity call.auth call.fuel g.provider w₁.logins r action bucket key with
    - | ⟨(e | -) | -, logins⟩
  · refine ⟨fun ended => ?_, fun done => ?_⟩
    · cases ended
    · cases done
  · exact .stop (refuses e) (kept.trans ⟨logins, w₁.keys, rfl⟩)
  · exact .stop id (kept.trans ⟨logins, w₁.keys, rfl⟩)
  · exact rest logins

theorem Prepares.named {next : Bytes × World κ → Step κ (World κ × Prepared κ)} (kept : Untouched w w₁)
    (rest : ∀ userID logins, Prepares w (next (userID, { w₁ with logins })) post) :
    Prepares w ((ObjectWrites.named g call w₁ r).andThen next) post := by
  unfold ObjectWrites.named Step.andThen
  rcases requestUserID call.auth g.provider w₁.logins r with ⟨_ | userID, logins⟩
  · exact .stop id (kept.trans ⟨logins, w₁.keys, rfl⟩)
  · exact rest userID logins

end

theorem preparedPut_spec : Prepares w (preparedPut g call r bucket key w) fun w₁ p =>
    ∃ logins userID contentLength body plan, resolveUploadContentLength g r = .ok (contentLength, body) ∧
      preparePut g call { w with logins } r bucket key userID (objectContentType r) contentLength body =
        (.ok plan, w₁) ∧
      p = ⟨plan, finalizeChecksum call r body.bytes, fun w record => (.sent 200 (putHeaders r record) [] none, w)⟩ := by
  unfold preparedPut
  split
  · exact .stop id (.refl w)
  refine .permitted (fun _ => id) (.refl w) fun logins => ?_
  split
  · exact .stop id ⟨logins, w.keys, rfl⟩
  split
  · next failed => exact .stop (resolveUploadContentLength_error failed) ⟨logins, w.keys, rfl⟩
  rename_i contentLength body resolved
  refine .named ⟨logins, w.keys, rfl⟩ fun userID logins => ?_
  obtain ⟨kept, refuses⟩ := preparePut_untouched g call { w with logins } r bucket key userID (objectContentType r)
    contentLength body
  simp only
  split
  · next prepared =>
    rw [prepared] at kept refuses
    exact .stop (refuses _ rfl) (Untouched.trans ⟨logins, w.keys, rfl⟩ kept)
  · next plan w₁ prepared => exact .done ⟨logins, userID, contentLength, body, plan, resolved, prepared, rfl⟩

theorem preparedCopy_spec : Prepares w (preparedCopy g call r bucket key w) fun w₁ p =>
    ∃ logins srcBucket srcKey source data,
      cut (trimPrefix (r.headerGet (str "x-amz-copy-source")) (str "/")) 47 = (srcBucket, some srcKey) ∧
      getObject w.metadata srcBucket srcKey = .ok source ∧
      Storage.get g.tiers call.disk w.fs srcBucket srcKey source.storageTier = .ok data ∧
      w₁ = { w with logins } ∧
      p = .settled (copyPlan call r bucket key source data) fun w _ => concludeCopy call source w := by
  unfold preparedCopy
  split
  · exact .stop id (.refl w)
  refine .permitted (fun _ => id) (.refl w) fun logins => ?_
  split
  · exact .stop id ⟨logins, w.keys, rfl⟩
  split
  · exact .stop id ⟨logins, w.keys, rfl⟩
  rename_i srcBucket srcKey named_
  refine .permitted (fun _ => id) ⟨logins, w.keys, rfl⟩ fun logins => ?_
  unfold copySource
  split
  · exact .stop id ⟨logins, w.keys, rfl⟩
  rename_i source found
  split
  · exact .stop id ⟨logins, w.keys, rfl⟩
  refine .named ⟨logins, w.keys, rfl⟩ fun userID logins => ?_
  simp only
  split
  · exact .stop id ⟨logins, w.keys, rfl⟩
  · next data got => exact .done ⟨logins, srcBucket, srcKey, source, data, named_, found, got, rfl, rfl⟩

theorem preparedComplete_spec {faults : Completion} :
    Prepares w (preparedComplete g call faults r bucket key w) fun w₁ p =>
      ∃ logins upload, getUpload w.uploads bucket key (r.queryGet (str "uploadId")) = .ok upload ∧
        w₁ = { w with logins } ∧
        p = .settled (completePlan g call faults w bucket key (r.queryGet (str "uploadId")) upload
            (getParts w.uploads (r.queryGet (str "uploadId"))))
          fun w _ => concludeComplete g call faults bucket key (r.queryGet (str "uploadId")) w := by
  unfold preparedComplete
  split
  · exact .stop id (.refl w)
  refine .permitted (fun _ => id) (.refl w) fun logins => ?_
  simp only
  split
  · exact .stop id ⟨logins, w.keys, rfl⟩
  split
  · exact .stop id ⟨logins, w.keys, rfl⟩
  rename_i upload found
  split
  · exact .stop id ⟨logins, w.keys, rfl⟩
  split
  · exact .stop id ⟨logins, w.keys, rfl⟩
  · exact .done ⟨logins, upload, found, rfl, rfl⟩

theorem preparedFinalize_spec {faults : Finalization} :
    Prepares w (preparedFinalize g call faults r bucket key w) fun w₁ p =>
      ∃ logins userID session contentLength data plan checksum, findSession call w r bucket key = .ok session ∧
        openTemp faults w.fs (getTempFilePath g (r.queryGet (str "uploadId"))) = .ok (contentLength, data) ∧
        prepareFinalize g call { w with logins } bucket key userID checksum session contentLength data =
          (.ok plan, w₁) ∧
        p = .settled plan fun w record =>
          concludeFinalize g call faults w session (r.queryGet (str "uploadId")) record.encrypted := by
  refine .permitted (fun _ => id) (.refl w) fun logins => ?_
  split
  · next failed => exact .stop (findSession_failed failed) ⟨logins, w.keys, rfl⟩
  rename_i session found
  split
  · exact .stop id ⟨logins, w.keys, rfl⟩
  simp only
  split
  · exact .stop id ⟨logins, w.keys, rfl⟩
  rename_i contentLength data opened
  refine .named ⟨logins, w.keys, rfl⟩ fun userID logins => ?_
  obtain ⟨kept, refuses⟩ := prepareFinalize_untouched g call { w with logins } bucket key userID
    (finalizeChecksumOf call faults { w with logins } (getTempFilePath g (r.queryGet (str "uploadId"))) session) session
    contentLength data
  split
  · next prepared =>
    rw [prepared] at kept refuses
    exact .stop (refuses _ rfl) (Untouched.trans ⟨logins, w.keys, rfl⟩ kept)
  · next plan w₁ prepared =>
    exact .done ⟨logins, userID, session, contentLength, data, plan, _, found, opened, prepared, rfl⟩

theorem prepare_untouched (done : write.prepare g bucket key w = some (.ok (w₁, p))) : Untouched w w₁ := by
  cases write with
  | put call r =>
    obtain ⟨logins, userID, contentLength, body, plan, -, prepared, -⟩ := preparedPut_spec.ok done
    have kept := (preparePut_untouched g call { w with logins } r bucket key userID (objectContentType r)
      contentLength body).1
    rw [prepared] at kept
    exact Untouched.trans ⟨logins, w.keys, rfl⟩ kept
  | copy call r =>
    obtain ⟨logins, -, -, -, -, -, -, -, rfl, -⟩ := preparedCopy_spec.ok done
    exact ⟨logins, w.keys, rfl⟩
  | complete call faults r =>
    obtain ⟨logins, -, -, rfl, -⟩ := preparedComplete_spec.ok done
    exact ⟨logins, w.keys, rfl⟩
  | finalize call faults r =>
    obtain ⟨logins, userID, session, contentLength, data, plan, checksum, -, -, prepared, -⟩ := preparedFinalize_spec.ok done
    have kept := (prepareFinalize_untouched g call { w with logins } bucket key userID checksum session contentLength
      data).1
    rw [prepared] at kept
    exact Untouched.trans ⟨logins, w.keys, rfl⟩ kept

/-- A write that ends before it turns to the store is refused and has changed
nothing there. -/
theorem prepare_error (ended : write.prepare g bucket key w = some (.error out)) : TurnedAway w out := by
  cases write with
  | put call r => exact preparedPut_spec.away ended
  | copy call r => exact preparedCopy_spec.away ended
  | complete call faults r => exact preparedComplete_spec.away ended
  | finalize call faults r => exact preparedFinalize_spec.away ended

/-! ### What storing does -/

/-- The record as it is stored, once its checksum is known. -/
def Prepared.record (p : Prepared κ) (checksum : Bytes × Bytes) : ObjectMetadata :=
  { p.plan.record with checksum := checksum.1, checksumType := checksum.2 }

/-- What is written is not recorded: the checksum is wrong, or the record is
refused. -/
def Rejected (call : Call κ) (bucket key : Bytes) (w : World κ) (p : Prepared κ) : Prop :=
  ∀ checksum, p.verdict = .ok checksum → Refused call.db w.metadata bucket key (p.record checksum)

theorem explain_failed (write : Write κ) (shortfall : Shortfall) : ¬ (explain write shortfall).Succeeded := by
  cases shortfall <;> exact id

/-- Everything storing can do: the data is not written, or it is written and
taken back, or it is written and recorded, and the write is concluded. -/
def Stores (g : Config) (bucket key : Bytes) (write : Write κ) (w : World κ) (p : Prepared κ) (reply : Reply)
    (w' : World κ) : Prop :=
  (∃ e fs, ¬ reply.Succeeded ∧
    Storage.put g.tiers write.call.disk w.fs bucket key p.plan.data p.plan.size tierHot = (.error e, fs) ∧
    w' = { w with fs }) ∨
  ∃ fs, Storage.put g.tiers write.call.disk w.fs bucket key p.plan.data p.plan.size tierHot = (.ok (), fs) ∧
    (¬ reply.Succeeded ∧ Rejected write.call bucket key w p ∧ w' = takeBack g write.call { w with fs } bucket key ∨
    ∃ checksum metadata, ¬ Rejected write.call bucket key w p ∧
      putObject write.call.db w.metadata bucket key (p.record checksum) = (.ok (), metadata) ∧
      p.conclude { w with fs, metadata } (p.record checksum) = (reply, w'))

theorem finish_stores {w' : World κ} (done : finish g bucket key write w p = (reply, w')) :
    Stores g bucket key write w p reply w' := by
  have refuses := explain_failed write
  unfold finish store at done
  unfold Stores
  generalize Storage.put g.tiers write.call.disk w.fs bucket key p.plan.data p.plan.size tierHot = stored at done ⊢
  rcases stored with ⟨e | ⟨⟩, fs⟩
  · cases done
    exact .inl ⟨e, fs, refuses _, rfl, rfl⟩
  refine .inr ⟨fs, rfl, ?_⟩
  rcases judged : p.verdict with e | checksum
  · simp only [judged] at done
    cases done
    refine .inl ⟨refuses _, fun checksum right => ?_, rfl⟩
    rw [judged] at right
    cases right
  · have recorded_iff := putObject_ok_iff write.call.db w.metadata bucket key (p.record checksum)
    have unchanged (e : StoreErr) := @putObject_error write.call.db w.metadata bucket key (p.record checksum) e
    simp only [judged, putObjectMetadataAfterStore] at done
    rcases putting : putObject write.call.db w.metadata bucket key (p.record checksum) with ⟨e | ⟨⟩, metadata⟩
    · rw [putting] at recorded_iff unchanged
      obtain rfl : metadata = w.metadata := unchanged e rfl
      rw [Prepared.record] at putting
      simp only [putting] at done
      cases done
      refine .inl ⟨refuses _, fun checksum' right => ?_, rfl⟩
      rw [judged] at right
      cases right
      by_contra accepted
      exact nomatch recorded_iff.mpr accepted
    · rw [putting] at recorded_iff
      refine .inr ⟨checksum, metadata, fun rejected => recorded_iff.mp rfl (rejected checksum judged), putting, ?_⟩
      rw [Prepared.record] at putting
      simp only [putting] at done
      exact done

/-! ### What the conclusion does -/

theorem concludeFinalize_shape (faults : Finalization) (w : World κ) (session : ResumableSession) (uploadID : Bytes)
    (encrypted : Bool) :
    ∃ fs sessions, (concludeFinalize g call faults w session uploadID encrypted).2 = { w with fs, sessions } ∧
      ∀ path, path ≠ getTempFilePath g uploadID → fs.entry path = w.fs.entry path := by
  have marked : ∃ sessions, (putResumableSession faults.session w { session with finalized := true }).2 =
      { w with sessions } := by
    unfold putResumableSession
    split
    · exact ⟨w.sessions, rfl⟩
    · exact ⟨_, rfl⟩
  obtain ⟨sessions, marked⟩ := marked
  unfold concludeFinalize
  simp only [marked]
  split
  · exact ⟨w.fs, sessions, rfl, fun _ _ => rfl⟩
  have others (path : Path) (apart : path ≠ getTempFilePath g uploadID) :
      (w.fs.remove (getTempFilePath g uploadID)).2.entry path = w.fs.entry path := by
    rcases w.fs.remove_cases (getTempFilePath g uploadID) with ⟨e, refused⟩ | ⟨_, gone, -, entries⟩
    · rw [refused]
    · rw [gone, entries, if_neg apart]
  simp only [cleanupSession, deleteResumableSession]
  cases faults.remove with
  | some e => cases faults.forget <;> exact ⟨w.fs, _, rfl, fun _ _ => rfl⟩
  | none => cases faults.forget <;> exact ⟨_, _, rfl, others⟩

/-- A write is turned away, or it is prepared and stored. -/
theorem handle_cases {w' : World κ} (done : write.handle g bucket key w = some (reply, w')) :
    ¬ reply.Succeeded ∧ write.prepare g bucket key w = some (.error (reply, w')) ∧ Untouched w w' ∨
    ∃ w₁ p, write.prepare g bucket key w = some (.ok (w₁, p)) ∧ Untouched w w₁ ∧
      Stores g bucket key write w₁ p reply w' := by
  rw [handle_eq_outcome, Write.outcome] at done
  obtain ⟨result, prepared, outcome⟩ := Option.map_eq_some_iff.mp done
  rcases result with out | ⟨w₁, p⟩
  · obtain rfl : out = (reply, w') := outcome
    obtain ⟨failed, kept⟩ := prepare_error prepared
    exact .inl ⟨failed, prepared, kept⟩
  · exact .inr ⟨w₁, p, prepared, prepare_untouched prepared, finish_stores outcome⟩

/-- A write that succeeds was prepared, stored, recorded and concluded. -/
theorem handle_succeeded {w' : World κ} (done : write.handle g bucket key w = some (reply, w'))
    (succeeded : reply.Succeeded) :
    ∃ w₁ p fs checksum metadata, write.prepare g bucket key w = some (.ok (w₁, p)) ∧
      Storage.put g.tiers write.call.disk w₁.fs bucket key p.plan.data p.plan.size tierHot = (.ok (), fs) ∧
      putObject write.call.db w₁.metadata bucket key (p.record checksum) = (.ok (), metadata) ∧
      p.conclude { w₁ with fs, metadata } (p.record checksum) = (reply, w') := by
  rcases handle_cases done with ⟨failed, -⟩ | ⟨w₁, p, prepared, -, ⟨_, _, failed, -⟩ |
    ⟨fs, put, ⟨failed, -⟩ | ⟨checksum, metadata, -, recorded, concluded⟩⟩⟩
  · exact absurd succeeded failed
  · exact absurd succeeded failed
  · exact absurd succeeded failed
  · exact ⟨w₁, p, fs, checksum, metadata, prepared, put, recorded, concluded⟩

end

end CipherLake.ObjectWrites
