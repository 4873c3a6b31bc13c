import CipherLake.Coordinator
import CipherLake.CopyFidelity
import CipherLake.Lib.Runs

/-! Encryption at rest. Each of the four requests that write an object decides for
itself whether what it hands to the object store is encrypted. A `PUT` and the end
of a resumable upload ask the coordinator. The end of a multipart upload does not,
and stores the parts as they came. A copy hands over what is stored, but records it
without the wrapped key. -/
namespace CipherLake.EncryptionAtRest
open Lib Http Metadata Storage Gateway Multipart Resumable ObjectWrites Option

variable {κ : Type}

/-- What the coordinator seals comes with the data to open it again. -/
structure Labels (crypto : Crypto κ) : Prop where
  operation : ∀ {keys userID bucket key body size out keys'},
    crypto.encryptOperation keys userID bucket key body size = (.ok out, keys') → out.metadata ≠ []
  clientKey : ∀ {body clientKey size out}, crypto.encryptWithClientKey body clientKey size = .ok out → out.metadata ≠ []

/-! ### Requests -/

/-- A request that writes an object, with a coordinator in place. -/
structure WriteRequest (crypto : Crypto κ) where
  (bucket key : Bytes)
  write : Write κ
  armed : write.call.crypto = some crypto

/-- The stores, and the files that were written from a sealed stream. -/
structure History (κ : Type) where
  world : World κ
  isSealed : Path → Prop

variable {crypto : Crypto κ} {bucket key userID : Bytes}

/-- What a request hands to the object store, if it comes that far. -/
def handed (g : Config) (w : World κ) (request : WriteRequest crypto) : Option Plan :=
  match request.write.prepare g request.bucket request.key w with
  | some (.ok (_, p)) => some p.plan
  | _ => none

/-- A stream that came out of the coordinator, or out of a file that was written
from one. -/
inductive Sealed (crypto : Crypto κ) (h : History κ) : Answer → Prop where
  | operation {keys keys' : κ} {userID bucket key : Bytes} {body : Answer} {size : Int} {out : Gateway.Sealed}
      (encrypted : crypto.encryptOperation keys userID bucket key body size = (.ok out, keys')) : Sealed crypto h out.data
  | clientKey {body : Answer} {clientKey : Bytes} {size : Int} {out : Gateway.Sealed}
      (encrypted : crypto.encryptWithClientKey body clientKey size = .ok out) : Sealed crypto h out.data
  | copied {path : Path} {data : Bytes} (written : h.isSealed path) (held : h.world.fs.entry path = some (.file data))
      (disk : Disk) : Sealed crypto h (contents disk path (.file data))

variable (g : Config) (h : History κ) (request : WriteRequest crypto)

/-- The request replaces the file at a path. -/
def Replaces (path : Path) (plan : Plan) : Prop :=
  handed g h.world request = some plan ∧
    (∃ rootDir, g.tiers tierHot = some rootDir ∧ path = objectPath rootDir request.bucket request.key) ∧
    Writable request.write.call.disk h.world.fs path plan.data plan.size

/-- A request is handled, and a file that it replaces is sealed if the stream was. -/
def next : Option (History κ) :=
  (request.write.handle g request.bucket request.key h.world).map fun out =>
    ⟨out.2, fun path => (∃ plan, Replaces g h request path plan ∧ Sealed crypto h plan.data) ∨
      h.isSealed path ∧ ∀ plan, ¬ Replaces g h request path plan⟩

/-- What is handed to the object store is sealed, and its record says so and has
the data to open it. -/
def HandsOverSealed : Prop :=
  ∀ plan, handed g h.world request = some plan →
    Sealed crypto h plan.data ∧ plan.record.encrypted = true ∧ plan.record.encryptedDEK ≠ []

/-- The request is a `PUT` or the end of a resumable upload, or it does not come
to the object store. -/
def Encrypts : Prop :=
  match request.write with
  | .put _ _ => True
  | .finalize _ _ _ => True
  | .copy _ _ => handed g h.world request = none
  | .complete _ _ _ => handed g h.world request = none

section
variable {g : Config} {w : World κ} {h : History κ} {request : WriteRequest crypto} {plan : Plan}

/-- What is handed over was prepared. -/
theorem prepared_of_handed (hands : handed g w request = some plan) :
    ∃ w₁ p, request.write.prepare g request.bucket request.key w = some (.ok (w₁, p)) ∧ p.plan = plan := by
  unfold handed at hands
  split at hands
  · next w₁ p prepared => exact ⟨w₁, p, prepared, Option.some.inj hands⟩
  · cases hands

/-- The plan is what the one call of the object store gets. -/
theorem handle_of_handed (hands : handed g w request = some plan) :
    ∃ w₁ p, p.plan = plan ∧ Untouched w w₁ ∧ request.write.handle g request.bucket request.key w =
      some (finish g request.bucket request.key request.write w₁ p) := by
  obtain ⟨w₁, p, prepared, same⟩ := prepared_of_handed hands
  refine ⟨w₁, p, same, prepare_untouched prepared, ?_⟩
  rw [handle_eq_outcome, Write.outcome, prepared]
  rfl

variable {w' : World κ}

/-- A request that hands nothing over leaves all files. -/
theorem handle_of_not_handed {reply : Reply} (nothing : handed g w request = none)
    (ran : request.write.handle g request.bucket request.key w = some (reply, w')) : w'.fs = w.fs := by
  rw [handle_eq_outcome, Write.outcome] at ran
  obtain ⟨step, prepared, ended⟩ := map_eq_some_iff.mp ran
  cases step with
  | error out =>
    obtain ⟨-, _, _, same⟩ := prepare_error prepared
    subst ended
    exact congrArg (·.fs) same
  | ok out =>
    unfold handed at nothing
    rw [prepared] at nothing
    cases nothing

/-- A `PUT` asks the coordinator, with a key of the client or without. -/
theorem preparePut_sealed (labels : Labels crypto) (enabled : g.cryptoEnabled = true) {call : Call κ}
    (armed : call.crypto = some crypto) {r : Request} {contentType : Bytes} {contentLength : Int} {body : Answer}
    (planned : preparePut g call w r bucket key userID contentType contentLength body = (.ok plan, w')) :
    Sealed crypto h plan.data ∧ plan.record.encrypted = true ∧ plan.record.encryptedDEK ≠ [] := by
  unfold preparePut at planned
  simp only [armed, enabled] at planned
  split at planned
  · cases planned
  · split at planned
    · cases planned
    · next out encrypted =>
      cases planned
      exact ⟨.clientKey encrypted, rfl, labels.clientKey encrypted⟩
  · split at planned
    · cases planned
    · next out keys encrypted =>
      cases planned
      exact ⟨.operation encrypted, rfl, labels.operation encrypted⟩

theorem prepareFinalize_sealed (labels : Labels crypto) (enabled : g.cryptoEnabled = true) {call : Call κ}
    (armed : call.crypto = some crypto) {checksum : Bytes} {session : ResumableSession} {contentLength : Int}
    {data : Answer}
    (planned : prepareFinalize g call w bucket key userID checksum session contentLength data = (.ok plan, w')) :
    Sealed crypto h plan.data ∧ plan.record.encrypted = true ∧ plan.record.encryptedDEK ≠ [] := by
  unfold prepareFinalize at planned
  simp only [armed, enabled] at planned
  split at planned
  · cases planned
  · next out keys encrypted =>
    cases planned
    exact ⟨.operation encrypted, rfl, labels.operation encrypted⟩

/-- A request keeps to the rule exactly if it asks the coordinator or stores
nothing. -/
theorem handsOverSealed_iff (labels : Labels crypto) (enabled : g.cryptoEnabled = true) :
    HandsOverSealed g h request ↔ Encrypts g h request := by
  obtain ⟨bucket, key, write, armed⟩ := request
  -- a record without a wrapped key breaks the rule as soon as it is handed over
  have keyless (unlabelled : ∀ plan, handed g h.world ⟨bucket, key, write, armed⟩ = some plan →
      plan.record.encryptedDEK = []) :
      HandsOverSealed g h ⟨bucket, key, write, armed⟩ ↔ handed g h.world ⟨bucket, key, write, armed⟩ = none := by
    constructor
    · intro rule
      apply eq_none_iff_forall_ne_some.mpr
      intro plan hands
      exact (rule plan hands).2.2 (unlabelled plan hands)
    · intro nothing plan hands
      rw [nothing] at hands
      cases hands
  cases write with
  | put call r =>
    refine iff_of_true (fun plan hands => ?_) trivial
    obtain ⟨w₁, p, prepared, rfl⟩ := prepared_of_handed hands
    obtain ⟨logins, userID, contentLength, body, plan, -, planned, rfl⟩ := preparedPut_spec.ok prepared
    exact preparePut_sealed labels enabled armed planned
  | finalize call faults r =>
    refine iff_of_true (fun plan hands => ?_) trivial
    obtain ⟨w₁, p, prepared, rfl⟩ := prepared_of_handed hands
    obtain ⟨logins, userID, session, contentLength, data, plan, checksum, -, -, planned, rfl⟩ :=
      preparedFinalize_spec.ok prepared
    exact prepareFinalize_sealed labels enabled armed planned
  | copy call r =>
    apply keyless
    intro plan hands
    obtain ⟨w₁, p, prepared, rfl⟩ := prepared_of_handed hands
    obtain ⟨logins, srcBucket, srcKey, source, data, -, -, -, -, rfl⟩ := preparedCopy_spec.ok prepared
    rfl
  | complete call faults r =>
    apply keyless
    intro plan hands
    obtain ⟨w₁, p, prepared, rfl⟩ := prepared_of_handed hands
    obtain ⟨logins, upload, -, -, rfl⟩ := preparedComplete_spec.ok prepared
    rfl

end

/-- In a run, everything that is handed to the object store is sealed and recorded
as sealed exactly if no copy and no end of a multipart upload comes to the object
store. -/
theorem sealed_at_rest_iff (g : Config) (enabled : g.cryptoEnabled = true) {crypto : Crypto κ} (labels : Labels crypto)
    (h : History κ) (requests : List (WriteRequest crypto)) :
    Runs.Throughout (next g) (HandsOverSealed g) h requests ↔ Runs.Throughout (next g) (Encrypts g) h requests := by
  have same : @HandsOverSealed κ crypto g = Encrypts g := by
    funext h request
    exact propext (handsOverSealed_iff labels enabled)
  rw [same]

/-! ### The coordinator -/

section
variable (C : StreamCipher.Primitives) (A : Coordinator.Agreement) (S : Coordinator.Services κ)
  (draws : Coordinator.Draws) (heap : Heap)

/-- The coordinator as the gateway sees it. A reader is known by what it hands out;
the two ways back are not looked at here. -/
def coordinated (handsOut : StreamCipher.StreamingEncryptReader Answer → Heap → Answer)
    (decryptOperation : κ → Bytes → Bytes → Bytes → Answer → Bytes → Except Bytes Answer)
    (decryptWithClientKey : Answer → Bytes → Bytes → Int → Except Bytes Answer) : Crypto κ where
  encryptOperation keys userID bucket key plaintext size :=
    match Coordinator.encryptOperation C A S draws ⟨heap, keys⟩ userID bucket key plaintext size with
    | (.error e, w) => (.error e, w.keys)
    | (.ok out, w) => (.ok ⟨handsOut out.reader w.heap, out.metadata, out.ciphertextSize⟩, w.keys)
  decryptOperation := decryptOperation
  encryptWithClientKey plaintext clientKey size :=
    match Coordinator.putWithClientKey draws (⟨heap, ()⟩ : Coordinator.World Unit) plaintext clientKey size with
    | (.error e, _) => .error e
    | (.ok out, w) => .ok ⟨handsOut out.reader w.heap, out.metadata, out.ciphertextSize⟩
  decryptWithClientKey := decryptWithClientKey

variable {σ : Type} {w' : Coordinator.World κ} {plaintext : σ} {out : Coordinator.Encrypted σ} {w : Coordinator.World κ}

theorem streamUnderDEK_metadata {priv keyID : Bytes}
    {wrapped : Coordinator.ECDHEncryptedDEK} {servicePub : Coordinator.ECDHPublicKey} {objectSize : Int}
    (done : Coordinator.streamUnderDEK C A draws w priv keyID wrapped servicePub plaintext objectSize = (.ok out, w')) :
    out.metadata ≠ [] := by
  unfold Coordinator.streamUnderDEK at done
  split at done
  · cases done
  simp only at done
  split at done
  · cases done
  · split at done
    · cases done
    · cases done
      exact List.cons_ne_nil _ _

theorem encryptOperation_metadata {size : Int}
    (done : Coordinator.encryptOperation C A S draws w userID bucket key plaintext size = (.ok out, w')) :
    out.metadata ≠ [] := by
  unfold Coordinator.encryptOperation at done
  split at done
  · cases done
  split at done
  · cases done
  split at done
  · cases done
  split at done
  · cases done
  · simp only at done
    split at done
    · cases done
    · exact streamUnderDEK_metadata C A draws done

theorem putWithClientKey_metadata {keyBytes : Bytes} {size : Int}
    (done : Coordinator.putWithClientKey draws w plaintext keyBytes size = (.ok out, w')) : out.metadata ≠ [] := by
  unfold Coordinator.putWithClientKey Coordinator.encryptWithClientKey at done
  simp only at done
  split at done
  · cases done
  rename_i answered
  split at answered
  · cases answered
  · split at answered
    · cases answered
    · cases answered
      cases done
      simp [putUint64]

/-- The coordinator labels what it seals. -/
theorem coordinated_labels (handsOut : StreamCipher.StreamingEncryptReader Answer → Heap → Answer)
    (decryptOperation : κ → Bytes → Bytes → Bytes → Answer → Bytes → Except Bytes Answer)
    (decryptWithClientKey : Answer → Bytes → Bytes → Int → Except Bytes Answer) :
    Labels (coordinated C A S draws heap handsOut decryptOperation decryptWithClientKey) := by
  constructor
  · intro keys userID bucket key body size out keys' encrypted
    simp only [coordinated] at encrypted
    split at encrypted
    · cases encrypted
    · next done =>
      cases encrypted
      exact encryptOperation_metadata C A S draws done
  · intro body clientKey size out encrypted
    simp only [coordinated] at encrypted
    split at encrypted
    · cases encrypted
    · next done =>
      cases encrypted
      exact putWithClientKey_metadata draws done

end

namespace Sample

open CopyFidelity.Sample (marking config call)

theorem marking_labels : Labels marking := by
  have labelled : str "dek" ≠ [] := by decide
  constructor
  · rintro - - - - body size out - ⟨⟩
    exact labelled
  · rintro body - size out ⟨⟩
    exact labelled

/-- One part of an upload to `photos/dog.jpg`, of four bytes. -/
def world : World Unit :=
  { Gateway.Sample.world with
    fs := [([str "uploads"], Entry.dir), ([str "uploads", str "42"], .dir),
      (getPartPath [str "uploads"] (str "42") 1, .file (str "bark"))].foldl (fun t e => t.set e.1 e.2)
        Gateway.Sample.world.fs
    uploads := ⟨Table.empty.put (uploadKey (str "photos") (str "dog.jpg") (str "42"))
        ⟨str "42", str "photos", str "dog.jpg", 1, 86400, [], [], false⟩,
      Table.empty.put (str "42/1") ⟨1, [], 4, [], 1⟩⟩ }

def complete : WriteRequest marking where
  bucket := str "photos"
  key := str "dog.jpg"
  write := .complete call ⟨fun _ => none, fun _ => none, .none, none⟩
    { Gateway.Sample.request (str "uploadId=42") with method := str "POST" }
  armed := rfl

def put : WriteRequest marking where
  bucket := str "photos"
  key := str "cat.jpg"
  write := .put call (FailedOverwrites.Sample.overwrite [])
  armed := rfl

def before : History Unit := ⟨world, fun _ => False⟩

end Sample

open CopyFidelity.Sample

/-- With encryption enabled and a coordinator in place, the end of a multipart
upload is answered with 200 and the parts are stored as they came. -/
theorem multipart_stored_plain :
    (∃ out, Sample.complete.write.handle config (str "photos") (str "dog.jpg") Sample.world =
        some out ∧ FailedOverwrites.Sample.shape out.1 = some (200, []) ∧
        out.2.fs.entry [str "hot", str "photos", str "dog.jpg"] = some (.file (str "bark")) ∧
        (getObject out.2.metadata (str "photos") (str "dog.jpg")).toOption.map (fun m => (m.encrypted, m.encryptedDEK)) =
          some (false, [])) ∧
      ¬ Runs.Throughout (next config) (HandsOverSealed config) Sample.before [Sample.complete] := by
  have ran : (Sample.complete.write.handle config (str "photos") (str "dog.jpg") Sample.world).map
      (fun out => (FailedOverwrites.Sample.shape out.1, out.2.fs.entry [str "hot", str "photos", str "dog.jpg"],
        (getObject out.2.metadata (str "photos") (str "dog.jpg")).toOption.map fun m => (m.encrypted, m.encryptedDEK))) =
      some (some (200, []), some (.file (str "bark")), some (false, [])) := by decide +kernel
  have handsOver : (handed config Sample.world Sample.complete).map (·.record.encryptedDEK) =
      some [] := by decide +kernel
  obtain ⟨out, handled, seen⟩ := map_eq_some_iff.mp ran
  obtain ⟨status, seen⟩ := Prod.mk.inj seen
  obtain ⟨file, record⟩ := Prod.mk.inj seen
  refine ⟨⟨out, handled, status, file, record⟩, fun throughout => ?_⟩
  obtain ⟨plan, hands, unlabelled⟩ := map_eq_some_iff.mp handsOver
  have stepped : next config Sample.before Sample.complete = some _ :=
    congrArg (Option.map _) handled
  exact ((throughout _ stepped).1 plan hands).2.2 unlabelled

/-- A `PUT` is sealed. -/
theorem put_sealed_at_rest : Runs.Throughout (next config) (HandsOverSealed config) Sample.before [Sample.put] :=
  (sealed_at_rest_iff config rfl Sample.marking_labels Sample.before [Sample.put]).mpr fun _ _ => ⟨trivial, trivial⟩

end CipherLake.EncryptionAtRest
