import CipherLake.KeyWrapping
import CipherLake.TokenLifetimes

/-! What the key services ask of a request before they release a data key. They
release one to every client whose key they can read; the token that a request
names is written to a log and is looked at by nobody. -/
namespace CipherLake.KeyServices
open Lib StreamCipher Coordinator

/-- The id is that of a token of the type that was issued for the same user, bucket
and object key, has not expired and is not revoked. -/
def Authorised (s : TokenService.Service) (now : Int) (required : TokenService.TokenType) (claimed : Claimed) : Prop :=
  ∃ record, s.issuedTokens.get claimed.tokenID = some record ∧ record.revoked = false ∧ now ≤ record.expiresAt ∧
    record.tokenType = required ∧ record.userID = claimed.userID ∧ record.bucket = claimed.bucket ∧
    record.objectKey = claimed.objectKey

/-! ### Requests -/

/-- A request to one of the services, with what the service draws for it. -/
inductive KeyRequest (E : Arithmetic) where
  | generate (service : KeyGenService E) (dek : Except Bytes Bytes) (wrapping : WrapDraws E) (session : SessionDraws)
      (clientECDHPub : ECDHPublicKey)
  | unwrap (service : KeyUnwrapService E) (session : SessionDraws) (encryptedDEK : EncryptedDEK)
      (clientECDHPub : ECDHPublicKey)

namespace KeyRequest

variable {E : Arithmetic}

/-- A data key is generated for a write and unwrapped for a read. -/
def required : KeyRequest E → TokenService.TokenType
  | .generate _ _ _ _ _ => .write
  | .unwrap _ _ _ _ => .read

/-- Whether the service answers with a data key. -/
def released (C : Primitives) (A : Agreement) (claimed : Claimed) : KeyRequest E → Bool
  | .generate service dek wrapping session clientECDHPub =>
    match generateDataKey C A service dek wrapping session claimed clientECDHPub with
    | some answer => answer.isOk
    | none => false
  | .unwrap service session encryptedDEK clientECDHPub =>
    (unwrapKey C A service session claimed encryptedDEK clientECDHPub).isOk

/-- The random source works, and the client's key is one. -/
def Reachable (A : Agreement) (session : SessionDraws) (clientECDHPub : ECDHPublicKey) : Prop :=
  ∃ priv clientPub secret nonce, session.priv = .ok priv ∧ A.newPublicKey clientECDHPub.publicKey = .ok clientPub ∧
    A.ecdh priv clientPub = .ok secret ∧ session.nonce = .ok nonce

/-- There is a data key to release: it can be drawn and wrapped, or it is in the
blob. -/
def Servable (C : Primitives) (A : Agreement) : KeyRequest E → Prop
  | .generate service dek wrapping session clientECDHPub =>
    (∃ key, dek = .ok key) ∧ (∃ d, wrapping.ephemeral service.curve = .ok d) ∧
      E.onCurve service.curve service.encryptPublicKey.point = true ∧ (∃ nonce, wrapping.nonce = .ok nonce) ∧
      Reachable A session clientECDHPub
  | .unwrap service session encryptedDEK clientECDHPub =>
    (∃ dek, decryptDEKWithPrivateKey C A service encryptedDEK.encryptedKey = .ok dek) ∧
      Reachable A session clientECDHPub

end KeyRequest

section Release

variable {E : Arithmetic} {C : Primitives} {A : Agreement}

theorem exists_bind_ok {answer : Except Bytes α} {next : α → Except Bytes β} :
    (∃ result, (answer >>= next) = .ok result) ↔ ∃ value, answer = .ok value ∧ ∃ result, next value = .ok result := by
  constructor
  · rintro ⟨result, success⟩
    obtain ⟨value, isValue, rest⟩ := bind_ok success
    exact ⟨value, isValue, result, rest⟩
  · rintro ⟨value, rfl, result, rest⟩
    exact ⟨result, rest⟩

theorem encryptForClient_ok (hkdf : ∀ secret info, (A.hkdf secret info).length = 32) (session : SessionDraws)
    (dek : Bytes) (clientECDHPub : ECDHPublicKey) :
    (∃ answer, encryptForClient C A session dek clientECDHPub = .ok answer) ↔
      KeyRequest.Reachable A session clientECDHPub := by
  simp only [encryptForClient, exists_bind_ok, wrap_ok]
  constructor
  · rintro ⟨priv, drawn, clientPub, parsed, secret, derived, wrapped, sealing, -⟩
    obtain ⟨-, -, sealing⟩ := bind_ok sealing
    obtain ⟨nonce, drewNonce, -⟩ := bind_ok sealing
    exact ⟨priv, clientPub, secret, nonce, drawn, parsed, derived, wrap_ok.mp drewNonce⟩
  · rintro ⟨priv, clientPub, secret, nonce, drawn, parsed, derived, drewNonce⟩
    refine ⟨priv, drawn, clientPub, parsed, secret, derived,
      ⟨C.gcmSeal (A.hkdf secret (A.publicKey priv ++ clientPub)) nonce dek, nonce⟩, ?_, _, rfl⟩
    rw [newCipher_ok (hkdf _ _), drewNonce]
    rfl

theorem encryptDEKWithPublicKey_ok (hkdf : ∀ secret info, (A.hkdf secret info).length = 32) (g : KeyGenService E)
    (draws : WrapDraws E) (dek : Bytes) :
    (∃ blob, encryptDEKWithPublicKey C A g draws dek = some (.ok blob)) ↔
      (∃ d, draws.ephemeral g.curve = .ok d) ∧ E.onCurve g.curve g.encryptPublicKey.point = true ∧
        ∃ nonce, draws.nonce = .ok nonce := by
  unfold encryptDEKWithPublicKey
  cases draws.ephemeral g.curve with
  | error e => simp
  | ok d =>
    cases E.onCurve g.curve g.encryptPublicKey.point with
    | false => simp
    | true =>
      simp only [Bool.true_eq_false, if_false, Option.some.injEq, deriveSymmetricKey, newCipher_ok (hkdf _ _),
        exists_bind_ok, wrap_ok, true_and]
      constructor
      · rintro ⟨-, nonce, drewNonce, -⟩
        exact ⟨⟨d, rfl⟩, nonce, drewNonce⟩
      · rintro ⟨-, nonce, drewNonce⟩
        exact ⟨(), nonce, drewNonce, _, rfl⟩

theorem isOk_iff {answer : Except Bytes α} : answer.isOk = true ↔ ∃ value, answer = .ok value := by
  cases answer with
  | error e => exact iff_of_false (by rintro ⟨⟩) (by rintro ⟨_, ⟨⟩⟩)
  | ok value => exact iff_of_true rfl ⟨value, rfl⟩

/-- What a request claims makes no difference to its answer. -/
theorem released_iff (hkdf : ∀ secret info, (A.hkdf secret info).length = 32) (claimed : Claimed)
    (request : KeyRequest E) : request.released C A claimed = true ↔ request.Servable C A := by
  cases request with
  | generate service dek wrapping session clientECDHPub =>
    simp only [KeyRequest.released, KeyRequest.Servable]
    cases dek with
    | error e => simp [generateDataKey, Except.isOk, Except.toBool]
    | ok dek =>
      rw [← encryptForClient_ok (C := C) hkdf session dek clientECDHPub]
      have wraps := encryptDEKWithPublicKey_ok (C := C) hkdf service wrapping dek
      simp only [generateDataKey]
      cases wrapped : encryptDEKWithPublicKey C A service wrapping dek with
      | none =>
        rw [wrapped] at wraps
        refine iff_of_false (by rintro ⟨⟩) ?_
        rintro ⟨-, drawn, valid, nonce, -⟩
        obtain ⟨blob, ⟨⟩⟩ := wraps.mpr ⟨drawn, valid, nonce⟩
      | some encrypted =>
        rw [wrapped] at wraps
        simp only [Option.map_some, isOk_iff, exists_bind_ok, wrap_ok]
        constructor
        · rintro ⟨blob, rfl, released, isReleased, -⟩
          obtain ⟨drawn, valid, nonce⟩ := wraps.mp ⟨blob, rfl⟩
          exact ⟨⟨dek, rfl⟩, drawn, valid, nonce, released, isReleased⟩
        · rintro ⟨-, drawn, valid, nonce, released, isReleased⟩
          obtain ⟨blob, isBlob⟩ := wraps.mpr ⟨drawn, valid, nonce⟩
          exact ⟨blob, Option.some.inj isBlob, released, isReleased, _, rfl⟩
  | unwrap service session encryptedDEK clientECDHPub =>
    simp only [KeyRequest.released, KeyRequest.Servable, unwrapKey, isOk_iff, exists_bind_ok, wrap_ok,
      encryptForClient_ok hkdf session _ clientECDHPub]
    constructor
    · rintro ⟨dek, decrypted, reachable⟩
      exact ⟨⟨dek, decrypted⟩, reachable⟩
    · rintro ⟨⟨dek, decrypted⟩, reachable⟩
      exact ⟨dek, decrypted, reachable⟩

end Release

/-! ### Runs -/

/-- A data key that was released, with the tokens as they were then. -/
structure Release where
  tokens : TokenService.Service
  now : Int
  required : TokenService.TokenType
  claimed : Claimed

structure World where
  tokens : TokenService.Service
  releases : List Release

/-- Tokens are issued and revoked. Key requests come from anybody, or from the
coordinator: `EncryptOperation` and `DecryptOperation` issue a token for half a
minute and send its id along. -/
inductive Event (E : Arithmetic) where
  | issue (request : TokenService.IssueRequest) (draws : TokenService.IssueDraws)
  | revoke (tokenID : Bytes)
  | request (request : KeyRequest E) (claimed : Claimed) (now : Int)
  | operation (userID bucket objectKey : Bytes) (draws : TokenService.IssueDraws) (request : KeyRequest E) (now : Int)

/-- The token that the coordinator asks for. -/
def KeyRequest.tokenRequest {E : Arithmetic} (userID bucket objectKey : Bytes) :
    KeyRequest E → TokenService.IssueRequest
  | .generate _ _ _ _ _ => .write userID bucket objectKey 30
  | .unwrap _ _ _ _ => .read userID bucket objectKey [] 30

section Runs

variable (S : TokenService.Ed25519) (L : TokenService.Library) {E : Arithmetic} (C : Primitives) (A : Agreement)

def World.answer (w : World) (request : KeyRequest E) (claimed : Claimed) (now : Int) : World :=
  if request.released C A claimed then
    { w with releases := ⟨w.tokens, now, request.required, claimed⟩ :: w.releases }
  else w

def step (w : World) : Event E → Option World
  | .issue request draws => some { w with tokens := (TokenService.issue S L w.tokens draws request).2 }
  | .revoke tokenID => some { w with tokens := (TokenService.revokeToken w.tokens tokenID).2 }
  | .request request claimed now => some (w.answer C A request claimed now)
  | .operation userID bucket objectKey draws request now =>
    match TokenService.issue S L w.tokens draws (request.tokenRequest userID bucket objectKey) with
    | (.error _, tokens) => some { w with tokens }
    | (.ok token, tokens) =>
      some (World.answer C A { w with tokens } request ⟨token.tokenID, userID, bucket, objectKey⟩ now)

/-- Every released key was asked for with a token for it. -/
def Guarded (w : World) : Prop := ∀ r ∈ w.releases, Authorised r.tokens r.now r.required r.claimed

/-- A request that the coordinator did not make is authorised or comes to nothing;
one of its own is made before its token expires, or comes to nothing. -/
def Trusted (w : World) : Event E → Prop
  | .request request claimed now => Authorised w.tokens now request.required claimed ∨ ¬ request.Servable C A
  | .operation _ _ _ draws request now =>
    now ≤ TokenService.expiryOf draws 30 ∨ ¬ TokenService.Printable L draws 30 ∨ ¬ request.Servable C A
  | _ => True

variable {S L C A}

theorem answer_guarded (hkdf : ∀ secret info, (A.hkdf secret info).length = 32) {w : World} (guarded : Guarded w)
    (request : KeyRequest E) (claimed : Claimed) (now : Int) :
    Guarded (w.answer C A request claimed now) ↔
      Authorised w.tokens now request.required claimed ∨ ¬ request.Servable C A := by
  have answers := released_iff (C := C) hkdf claimed request
  unfold World.answer
  split
  · next isReleased =>
    have servable := answers.mp isReleased
    simp only [Guarded, List.forall_mem_cons, servable, not_true_eq_false, or_false]
    exact ⟨fun both => both.1, fun authorised => ⟨authorised, guarded⟩⟩
  · next refused => exact iff_of_true guarded (.inr fun servable => refused (answers.mpr servable))

/-- The coordinator's token is for what it asks. -/
theorem operation_authorised {s : TokenService.Service} {draws : TokenService.IssueDraws} {request : KeyRequest E}
    {userID bucket objectKey : Bytes} {token : TokenService.DelegationToken}
    (made : TokenService.Issued S L s draws (request.tokenRequest userID bucket objectKey) token) (now : Int) :
    Authorised (TokenService.recordToken s token) now request.required ⟨token.tokenID, userID, bucket, objectKey⟩ ↔
      now ≤ TokenService.expiryOf draws 30 := by
  have record : (TokenService.recordToken s token).issuedTokens.get token.tokenID = some _ := Table.get_put_same _ _ _
  have expiry : token.expiry = TokenService.expiryOf draws 30 := by
    rw [made.expiry]
    cases request <;> rfl
  have tokenType : token.tokenType = request.required := by
    rw [made.tokenType]
    cases request <;> rfl
  have user : token.userID = userID := by
    rw [made.userID]
    cases request <;> rfl
  have sameBucket : token.bucket = bucket := by
    rw [made.bucket]
    cases request <;> rfl
  have sameKey : token.objectKey = objectKey := by
    rw [made.objectKey]
    cases request <;> rfl
  constructor
  · rintro ⟨_, held, -, inTime, -⟩
    cases record.symm.trans held
    exact expiry ▸ inTime
  · intro inTime
    exact ⟨_, record, rfl, expiry ▸ inTime, tokenType, user, sameBucket, sameKey⟩

/-- One step keeps the releases guarded exactly if it is to be trusted. -/
theorem guarded_step (hkdf : ∀ secret info, (A.hkdf secret info).length = 32) {w w' : World} {event : Event E}
    (stepped : step S L C A w event = some w') (guarded : Guarded w) : Guarded w' ↔ Trusted L C A w event := by
  cases event with
  | issue request draws =>
    cases stepped
    exact iff_of_true guarded trivial
  | revoke tokenID =>
    cases stepped
    exact iff_of_true guarded trivial
  | request request claimed now =>
    cases stepped
    exact answer_guarded hkdf guarded request claimed now
  | operation userID bucket objectKey draws request now =>
    have thirty : (request.tokenRequest userID bucket objectKey).ttlSeconds = 30 := by cases request <;> rfl
    rcases TokenService.issue_cases S L w.tokens draws (request.tokenRequest userID bucket objectKey) with
      ⟨unprintable, e, refused⟩ | ⟨printable, token, success, made⟩
    · rw [thirty] at unprintable
      simp only [step, refused] at stepped
      cases stepped
      exact iff_of_true guarded (.inr (.inl unprintable))
    · rw [thirty] at printable
      simp only [step, success] at stepped
      cases stepped
      have kept : Guarded { w with tokens := TokenService.recordToken w.tokens token } := guarded
      rw [answer_guarded hkdf kept, operation_authorised made]
      simp [Trusted, printable]

end Runs

/-- Over every history of tokens and requests, data keys are released to authorised
requests only exactly if every request that does not come from the coordinator is
authorised or comes to nothing, and the coordinator asks before its token
expires. -/
theorem released_keys_guarded_iff (S : TokenService.Ed25519) (L : TokenService.Library) (E : Arithmetic)
    (C : Primitives) (A : Agreement) (hkdf : ∀ secret info, (A.hkdf secret info).length = 32)
    (tokens : TokenService.Service) (events : List (Event E)) :
    Lib.Runs.Always (step S L C A) Guarded ⟨tokens, []⟩ events ↔
      Lib.Runs.Throughout (step S L C A) (Trusted L C A) ⟨tokens, []⟩ events := by
  refine Lib.Runs.always_iff_throughout (fun _ => True) (fun _ _ _ _ _ => trivial) ?_ trivial (by rintro _ ⟨⟩)
  exact fun w event w' stepped _ guarded => guarded_step hkdf stepped guarded

open TokenService.Sample

open Coordinator.Sample

namespace Sample

def keyGen : KeyGenService arithmetic := ⟨(privateKey .p256).publicKey, publicText .p256, str "id", .p256⟩

def keyUnwrap : KeyUnwrapService arithmetic := ⟨privateKey .p256, str "id"⟩

def session : SessionDraws := ⟨.ok sessionPriv, .ok sessionNonce⟩

def client : ECDHPublicKey := ⟨clientPub, str "P-256"⟩

/-- The data key of the coordinator's sample, wrapped. -/
def stored : EncryptedDEK :=
  ⟨marshalPoint .p256 (generator .p256) ++ wrapNonce ++
      bigEndian 48 0xe21e02fe6279ed7e4380e4adb2c86a599db153e5c8b813a44b84806198791f54889db0ed55119a505eecc2b73497ad93,
    str "ECIES-P256-AES-256-GCM", str "key", 1⟩

/-- A token that nobody issued. -/
def nobody : Claimed := ⟨str "no token", str "nobody", str "b", str "k"⟩

def intrusion : List (Event arithmetic) :=
  [.request (.unwrap keyUnwrap session stored client) nobody 0,
    .request (.generate keyGen (.ok firstDEK) wrapDraws session client) nobody 0]

/-- The coordinator reads within the half minute. -/
def reading : List (Event arithmetic) :=
  [.operation (str "u") (str "b") (str "k") wholeDraws (.unwrap keyUnwrap session stored client)
    (1767225600 * TokenService.nanosecond + 1)]

end Sample

/-- Both services release a data key for a token that was never issued. -/
theorem keys_released_without_token : ((Sample.intrusion.foldlM (step ed25519 library
        Sample.vectors.primitives Sample.agreement) ⟨service, []⟩).map
          fun w => w.releases.map fun r => (r.claimed.tokenID, (r.tokens.issuedTokens.get r.claimed.tokenID).isSome)) =
        some [(str "no token", false), (str "no token", false)] ∧
      ¬ Lib.Runs.Always (step ed25519 library Sample.vectors.primitives
        Sample.agreement) Guarded ⟨service, []⟩ Sample.intrusion := by
  refine Lib.Runs.seen_not_always _ (by decide +kernel) ?_
  intro w seen guarded
  obtain ⟨r, _, releases, seen, -⟩ := List.map_eq_cons_iff.mp seen
  obtain ⟨_, held, -⟩ := guarded r (releases ▸ List.mem_cons_self)
  rw [held] at seen
  cases (Prod.mk.inj seen).2

/-- The coordinator's own read is authorised. -/
theorem coordinator_read_guarded : Lib.Runs.Always (step ed25519 library Sample.vectors.primitives
      Sample.agreement) Guarded ⟨service, []⟩ Sample.reading := by
  refine (released_keys_guarded_iff ed25519 library Sample.arithmetic
    Sample.vectors.primitives Sample.agreement Sample.hkdf_length service Sample.reading).mpr ?_
  exact fun w _ => ⟨.inl (by decide +kernel), trivial⟩

end CipherLake.KeyServices
