import CipherLake.ObjectWrites
import CipherLake.ReadAccess
import CipherLake.SigV4Binding

/-! The digest that a signed upload declares for its body. The signature covers
the declared text, but nothing compares the text with the body. So the object
that is stored has the declared digest exactly if the body has arrived as it was
signed. -/
namespace CipherLake.PayloadBinding
open Lib Http SigV4 AccessControl Metadata Storage Gateway ObjectWrites

variable {κ : Type}

/-- How whoever has the keys reads the plaintext of an object: from the key
store, the object's record and its data. -/
abbrev Opening (κ : Type) := κ → ObjectMetadata → Bytes → Option Bytes

/-- Data that is not encrypted is its own plaintext, and whatever the coordinator
seals for this request can be opened again. -/
structure Recovers (call : Call κ) (r : Request) (bucket key : Bytes) (opening : Opening κ) : Prop where
  plain : ∀ keys m data, m.encrypted = false → opening keys m data = some data
  client : ∀ crypto clientKey body size sealed_ keys m, call.crypto = some crypto →
    parseSSECHeaders call r = .ok (some clientKey) → crypto.encryptWithClientKey body clientKey size = .ok sealed_ →
    m.ssecUsed = true → m.encryptedDEK = sealed_.metadata → opening keys m sealed_.data.bytes = some body.bytes
  envelope : ∀ crypto userID body size sealed_ keys keys' m, call.crypto = some crypto →
    crypto.encryptOperation keys userID bucket key body size = (.ok sealed_, keys') →
    m.encrypted = true → m.ssecUsed = false → m.encryptedDEK = sealed_.metadata →
    opening keys' m sealed_.data.bytes = some body.bytes

/-- The plaintext of the object that is stored. -/
def storedPlaintext (g : Config) (opening : Opening κ) (bucket key : Bytes) (w : World κ) : Option Bytes :=
  match getObject w.metadata bucket key with
  | .error _ => none
  | .ok m =>
    match Storage.get g.tiers (Disk.sound []) w.fs bucket key m.storageTier with
    | .error _ => none
    | .ok data => opening w.keys m data.bytes

/-- `x-amz-content-sha256`, in lower case. -/
def declaredDigest (r : Request) : Bytes := lowerASCII (r.headerGet (str "x-amz-content-sha256"))

section
variable {g : Config} {call : Call κ} {w w₁ : World κ} {r : Request} {bucket key : Bytes} {opening : Opening κ}

/-- What is prepared for a body is opened to this body. -/
theorem preparePut_recovered (recovers : Recovers call r bucket key opening) {userID contentType : Bytes}
    {contentLength : Int} {body : Answer} {plan : Plan}
    (prepared : preparePut g call w r bucket key userID contentType contentLength body = (.ok plan, w₁)) :
    plan.record.storageTier = tierHot ∧
      ∀ m : ObjectMetadata, m.encrypted = plan.record.encrypted → m.ssecUsed = plan.record.ssecUsed →
        m.encryptedDEK = plan.record.encryptedDEK → opening w₁.keys m plan.data.bytes = some body.bytes := by
  unfold preparePut at prepared
  split at prepared
  · cases prepared
  · next clientKey given =>
    split at prepared
    · cases prepared
    rename_i crypto present
    split at prepared
    · cases prepared
    · next sealed_ done =>
      cases prepared
      exact ⟨rfl, fun m _ own dek => recovers.client crypto clientKey body _ sealed_ _ m present given done own dek⟩
  · split at prepared
    · next crypto present _ =>
      split at prepared
      · cases prepared
      · next sealed_ keys done =>
        cases prepared
        exact ⟨rfl, fun m encrypted own dek =>
          recovers.envelope crypto userID body _ sealed_ _ _ m present done encrypted own dek⟩
    · cases prepared
      exact ⟨rfl, fun m encrypted _ _ => recovers.plain _ m _ encrypted⟩

/-- A `PUT` that is answered with 200 has stored its body. -/
theorem storedPlaintext_put {w' : World κ} {headers : List (Bytes × Bytes)}
    (recovers : Recovers call r bucket key opening)
    (answered : handlePutObject g call w r bucket key = some (.sent 200 headers [] none, w')) :
    storedPlaintext g opening bucket key w' = some r.body.bytes := by
  have succeeded : (Reply.sent 200 headers [] none).Succeeded := ⟨Nat.le_refl 200, by decide⟩
  obtain ⟨w₁, p, fs, checksum, metadata, prepared, put, recorded, concluded⟩ :=
    @handle_succeeded κ g w bucket key _ (.put call r) _ answered succeeded
  obtain ⟨logins, userID, contentLength, body, plan, resolved, planned, rfl⟩ := preparedPut_spec.ok prepared
  obtain ⟨hot, opens⟩ := preparePut_recovered recovers planned
  obtain ⟨root, made, registered, -, -, entries⟩ := put_ok put
  have found := getObject_putObject (congrArg Prod.fst recorded)
  rw [recorded] at found
  have got : Storage.get g.tiers (Disk.sound []) fs bucket key plan.record.storageTier =
      .ok ⟨plan.data.bytes, some .eof⟩ := by
    refine (get_eq_iff _ _ _ _ _ _ _).mpr ⟨root, hot ▸ registered, ?_⟩
    rw [entries, if_pos rfl]
  obtain rfl : w' = { w₁ with fs, metadata } := (Prod.mk.inj concluded).2.symm
  simp only [storedPlaintext, found]
  -- The stamps and the encoding of the record leave the tier as it was planned.
  change (match Storage.get g.tiers (Disk.sound []) fs bucket key plan.record.storageTier with
    | .error _ => none
    | .ok data => opening w₁.keys _ data.bytes) = _
  rw [got, ← resolved_bytes resolved]
  apply opens
  · rfl
  · rfl
  · rfl

end

/-- After a `PUT` that is answered with 200 the stored plaintext has the digest
which the request declares, if and only if the body that arrived has it. -/
theorem stored_digest_iff (g : Config) (call : Call κ) (w w' : World κ) (r : Request) (bucket key : Bytes)
    (opening : Opening κ) (headers : List (Bytes × Bytes)) (recovers : Recovers call r bucket key opening)
    (answered : handlePutObject g call w r bucket key = some (.sent 200 headers [] none, w')) :
    (∃ plain, storedPlaintext g opening bucket key w' = some plain ∧
      hexLower (call.auth.digests.sha256 plain) = declaredDigest r) ↔
      hexLower (call.auth.digests.sha256 r.body.bytes) = declaredDigest r := by
  simp [storedPlaintext_put recovers answered, exists_eq_left']

/-! ### A signed header names its user -/

section
open SigV4Completeness
variable {D : Digests} {secretKey : Bytes} {c : Signing}

/-- The header as a scheme and a credential. -/
theorem authorization_spelled : ∃ scope rest, 44 ∉ scope ∧
    c.authorization D secretKey =
      str "AWS4-HMAC-SHA256" ++ 32 :: (str "Credential=" ++ (c.accessKey ++ 47 :: scope ++ 44 :: rest)) := by
  refine ⟨c.scope, str " SignedHeaders=" ++ join 59 c.signed ++ str ", Signature=" ++
    c.sign D secretKey c.canonicalRequest, ?_, ?_⟩
  · have plain := fun part listed => (c.scopeText part listed).1
    simp [Signing.scope, join, str, plain]
  · have opening : str "AWS4-HMAC-SHA256 Credential=" = str "AWS4-HMAC-SHA256" ++ 32 :: str "Credential=" := by rfl
    have slash : str "/" = [47] := by rfl
    have comma : str ", SignedHeaders=" = 44 :: str " SignedHeaders=" := by rfl
    simp [Signing.authorization, opening, slash, comma]

theorem accessKey_extracted : extractAWSAccessKey (c.authorization D secretKey) = trimSpace c.accessKey := by
  obtain ⟨scope, rest, plain, spelled⟩ := @authorization_spelled D secretKey c
  have named := c.scopeText c.accessKey (by simp)
  have found : index (c.authorization D secretKey) (str "Credential=") = some 17 := by
    rw [spelled]
    simp [index, hasPrefix, str]
  have credential : 44 ∉ c.accessKey ++ 47 :: scope := by simp [named.1, plain]
  have after : (c.authorization D secretKey).drop (17 + (str "Credential=").length) =
      c.accessKey ++ 47 :: scope ++ 44 :: rest := by
    rw [spelled]
    rfl
  simp only [extractAWSAccessKey, found, after, cut_append credential, cut_append named.2]

/-- A request that the verifier accepts is made in the name of the user whose
key signed it. -/
theorem signed_authenticated {env : AccessControl.Env} {p : Provider} {logins : Logins} {user : User}
    (bridgeless : p.iamBridge = none) (lower : env.library.toLower (str "AWS4-HMAC-SHA256") = str "aws4-hmac-sha256")
    (visible : c.accessKey ≠ [] ∧ trimSpace c.accessKey = c.accessKey)
    (known : (p.authHandler.users.find? fun user => user.name = c.accessKey) = some user)
    (holds : user.secretKey = secretKey ∧ secretKey ≠ [])
    (verified : verifySigV4Header env.digests env.clock (c.parsed D secretKey) secretKey = .ok ()) :
    authenticate env p logins (c.parsed D secretKey) = (.ok (toAuthIdentity user none), logins) := by
  obtain ⟨scope, rest, -, spelled⟩ := @authorization_spelled D secretKey c
  have present : c.authorization D secretKey ≠ [] := by
    rw [spelled]
    exact List.append_ne_nil_of_right_ne_nil _ (List.cons_ne_nil _ _)
  have scheme : cut (c.authorization D secretKey) 32 =
      (str "AWS4-HMAC-SHA256", some (str "Credential=" ++ (c.accessKey ++ 47 :: scope ++ 44 :: rest))) := by
    rw [spelled, cut_append (by decide)]
  have version : hasPrefix (c.authorization D secretKey) (str "AWS4-HMAC-SHA256") = true := by
    rw [spelled, hasPrefix_append]
  have signed : validateAWSSignature env p.authHandler (c.parsed D secretKey) = .ok user := by
    simp only [validateAWSSignature, Signing.authorization_found, accessKey_extracted, visible.2]
    rw [if_pos present, if_neg (by simp [version]), if_neg visible.1]
    simp only [signedBy, known, holds.1]
    rw [if_neg holds.2, verified]
  have other : str "aws4-hmac-sha256" ≠ str "basic" ∧ str "aws4-hmac-sha256" ≠ str "bearer" := by decide
  simp only [authenticate, bridgeless, authenticateFallback, authenticateLegacy, Signing.authorization_found, scheme,
    lower, signed]
  rw [if_neg present, if_neg other.1, if_neg other.2, if_pos trivial]

end

open SigV4Completeness.Sample

open Gateway.Sample

namespace Sample
open SigV4Completeness Routing

/-- SHA-256 of `meow`. -/
def digest : Bytes := str "404cdd7bc109c432f8cc2443b45bcfe95980f5107215c645236e577929ac3e52"

def digests : Digests where
  sha256 message := bigEndian 32
    (([(str "meow", 0x404cdd7bc109c432f8cc2443b45bcfe95980f5107215c645236e577929ac3e52),
      (str "woof", 0x1811bdd29f2cfe95e6e23402e2390fa1012708fc52ef8b8a29ee540b1c481534)].lookup message).getD 0)
  hmac := SigV4Completeness.Sample.digests.hmac
  sha256_length _ := bigEndian_length _ _
  hmac_length := SigV4Completeness.Sample.digests.hmac_length

/-- A `PUT` of `photos/cat.jpg`, signed for the body `meow`, that arrives with
this body. -/
def signing (body : Bytes) : Signing :=
  { get [] noHost_text with
    method := str "PUT"
    fields := [(str "x-amz-content-sha256", digest), (str "x-amz-date", str "20240501T120000Z")]
    payloadHash := digest
    accessKey := str "alice"
    contentLength := 4
    body := ⟨body, some .eof⟩
    fieldsNamed := by decide
    fieldsText := by decide
    lengthOnce := by decide
    dated := by decide
    signsSent := by decide
    scopeText := by decide }

def received (body : Bytes) : Request := (signing body).parsed digests (str "secret")

def alice : User := ⟨str "u1", str "alice", [], str "secret", str "user", [str "read", str "write"], []⟩

def config : Config := { Gateway.Sample.config with provider := ⟨⟨[alice], true, false⟩, none⟩ }

def call : Call Unit :=
  { Gateway.Sample.call with
    auth := { Gateway.Sample.call.auth with digests, clock := clock } }

theorem received_accepted (body : Bytes) :
    verifySigV4Header digests clock (received body) (str "secret") = .ok () := by
  obtain ⟨hostless, path, safe, query, fields, hash⟩ : (signing []).Undisturbed digests :=
    ⟨rfl, Or.inl (by decide), by decide, by decide, by decide +kernel, by decide⟩
  have same : (signing body).derived digests (str "secret") [] = (signing body).canonicalRequest :=
    (Signing.derived_eq_iff digests (str "secret") []).mpr ⟨hostless, path, safe, query, fields, hash⟩
  have timely : (signing body).Timely clock := by
    have stamped : (signing body).timestamp = (get [] rfl).timestamp := rfl
    have dated : (signing body).date = (get [] rfl).date := rfl
    rw [Signing.Timely, stamped, dated]
    exact get_timely [] rfl
  have verified := @Signing.verify_wire digests (str "secret") (signing body) clock [] timely
  rw [same, if_neg (not_not.mpr rfl), verify, Signing.read_wire] at verified
  exact verified

theorem received_authenticated (body : Bytes) :
    authenticate call.auth config.provider [] (received body) = (.ok (toAuthIdentity alice none), []) := by
  have known : (config.provider.authHandler.users.find? fun user => user.name = (signing body).accessKey) =
      some alice := by
    change ([alice].find? fun user => user.name = str "alice") = some alice
    decide
  exact @signed_authenticated digests (str "secret") (signing body) call.auth config.provider [] alice rfl
    (by decide) ⟨List.cons_ne_nil _ _, by change trimSpace (str "alice") = str "alice"; decide⟩ known
    ⟨rfl, by decide⟩ (received_accepted body)

def plan (body : Bytes) : Plan where
  data := ⟨body, some .eof⟩
  size := 4
  record := buildActiveObjectMetadata call (str "photos") (str "cat.jpg")
    ⟨4, str "application/octet-stream", [], false, [], none⟩

theorem received_header (body : Bytes) : ∃ authorization, (received body).header =
    [(str "authorization", authorization), (str "x-amz-content-sha256", digest),
      (str "x-amz-date", str "20240501T120000Z")] := ⟨_, rfl⟩

theorem received_put {body : Bytes}
    (stored : (commitPut config call world (received body) (str "photos") (str "cat.jpg") body
      (plan body)).1.isOk = true) :
    ∃ headers w', handlePutObject config call world (received body) (str "photos") (str "cat.jpg") =
      some (.sent 200 headers [] none, w') := by
  have allowed : check call.auth call.fuel config.provider (toAuthIdentity alice none) (str "write") (str "photos")
      (str "cat.jpg") (received body) = some (.ok ()) := rfl
  have checked : requireIdentity call.auth call.fuel config.provider world.logins (received body)
      (str "write") (str "photos") (str "cat.jpg") =
      some (.ok (toAuthIdentity alice none), world.logins) := by
    rw [requireIdentity, show world.logins = [] from rfl, received_authenticated]
    simp [allowed]
  have user : requestUserID call.auth config.provider world.logins (received body) =
      (.ok (str "u1"), world.logins) := by
    rw [requestUserID, show world.logins = [] from rfl, received_authenticated]
    rfl
  have untyped : objectContentType (received body) = str "application/octet-stream" := rfl
  have prepared : preparePut config call world (received body) (str "photos") (str "cat.jpg")
      (str "u1") (objectContentType (received body)) 4 ⟨body, some .eof⟩ = (.ok (plan body), world) := rfl
  rcases committed : commitPut config call world (received body) (str "photos") (str "cat.jpg") body
    (plan body) with ⟨_ | record, w'⟩
  · rw [committed] at stored
    cases stored
  have typed : validateContentType call (objectContentType (received body)) = true := by
    rw [untyped]
    decide
  have resolved : resolveUploadContentLength config (received body) = .ok (4, ⟨body, some .eof⟩) := rfl
  have method : (received body).method = str "PUT" := rfl
  refine ⟨putHeaders (received body) record, w', ?_⟩
  unfold handlePutObject identified withUserID
  simp [method, checked, typed, resolved, user, prepared, committed]

/-- Nothing is encrypted, so the data is the plaintext. -/
def opening : Opening Unit := fun _ _ data => some data

theorem recovers (body : Bytes) : Recovers call (received body) (str "photos") (str "cat.jpg") opening where
  plain _ _ _ _ := rfl
  client _ _ _ _ _ _ _ present := nomatch present
  envelope _ _ _ _ _ _ _ _ present := nomatch present

theorem received_declared (body : Bytes) : (received body).headerGet (str "x-amz-content-sha256") = digest := by
  obtain ⟨authorization, header⟩ := received_header body
  have lower : lowerASCII (str "x-amz-content-sha256") = str "x-amz-content-sha256" := by decide
  have other : str "authorization" ≠ str "x-amz-content-sha256" := by decide
  simp [Request.headerGet, Request.headerValues, header, lower, other]

end Sample

open Sample

/-- A `PUT` that was signed for one body is accepted, and answered with 200, with
another one. -/
theorem replaced_body_stored :
    ∃ headers w', verifySigV4Header Sample.call.auth.digests Sample.call.auth.clock (Sample.received (str "woof"))
        Sample.alice.secretKey = .ok () ∧
      (Sample.received (str "woof")).headerGet (str "x-amz-content-sha256") = Sample.digest ∧
      Sample.digest.length = 64 ∧
      handlePutObject Sample.config Sample.call world (Sample.received (str "woof")) (str "photos")
        (str "cat.jpg") = some (.sent 200 headers [] none, w') ∧
      storedPlaintext Sample.config Sample.opening (str "photos") (str "cat.jpg") w' = some (str "woof") ∧
      hexLower (Sample.call.auth.digests.sha256 (str "meow")) = Sample.digest ∧
      hexLower (Sample.call.auth.digests.sha256 (str "woof")) ≠ Sample.digest := by
  obtain ⟨headers, w', answered⟩ := @received_put (str "woof") (by decide +kernel)
  exact ⟨headers, w', received_accepted _, received_declared _, by decide, answered,
    storedPlaintext_put (Sample.recovers _) answered, by decide, by decide⟩

/-- The body that was signed is stored with the digest that was declared. -/
theorem signed_body_stored :
    ∃ headers w', handlePutObject Sample.config Sample.call world (Sample.received (str "meow"))
        (str "photos") (str "cat.jpg") = some (.sent 200 headers [] none, w') ∧
      ∃ plain, storedPlaintext Sample.config Sample.opening (str "photos") (str "cat.jpg") w' = some plain ∧
        hexLower (Sample.call.auth.digests.sha256 plain) = declaredDigest (Sample.received (str "meow")) := by
  obtain ⟨headers, w', answered⟩ := @received_put (str "meow") (by decide +kernel)
  refine ⟨headers, w', answered, ?_⟩
  refine (stored_digest_iff Sample.config Sample.call world w' (Sample.received (str "meow"))
    (str "photos") (str "cat.jpg") Sample.opening headers (Sample.recovers _) answered).mpr ?_
  rw [declaredDigest, received_declared]
  decide

end CipherLake.PayloadBinding
