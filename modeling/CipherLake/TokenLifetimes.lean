import CipherLake.Lib.Runs
import CipherLake.TokenService

/-! How long a token is good for. A token that goes through the gRPC server loses
the fractions of the seconds that were signed, so only whole seconds survive the
way there and back. A revocation is kept in memory alone, while the key is kept in
a file: a start of the service with the same key brings every revoked token
back. -/
namespace CipherLake.TokenService
open Lib Lib.Runs List Option

variable {E : Ed25519} {L : Library} {s s' : Service}

/-- A service whose keys were made by `GenerateKey`. -/
structure Service.Keyed (E : Ed25519) (s : Service) : Prop where
  seeded : ∃ seed, s.signingPrivKey = E.newKeyFromSeed seed
  paired : s.signingPubKey = s.signingPrivKey.drop 32

/-! ### What is signed and what is checked -/

/-- A token whose signature was made by this service. -/
def Signed (E : Ed25519) (L : Library) (s : Service) (token : DelegationToken) : Prop :=
  ∃ data, marshal L token = .ok data ∧ token.signature = some (E.sign s.signingPrivKey data)

/-- JSON has a form for both times of a token. -/
def Printable (L : Library) (draws : IssueDraws) (ttlSeconds : Int) : Prop :=
  (marshalTime L (expiryOf draws ttlSeconds)).isOk = true ∧ (marshalTime L draws.later).isOk = true

theorem marshal_isOk (L : Library) (token : DelegationToken) :
    (marshal L token).isOk = ((marshalTime L token.expiry).isOk && (marshalTime L token.createdAt).isOk) := by
  unfold marshal
  cases marshalTime L token.expiry with
  | error e => rfl
  | ok expiry => cases marshalTime L token.createdAt <;> rfl

/-- What is known of an issued token. -/
structure Issued (E : Ed25519) (L : Library) (s : Service) (draws : IssueDraws) (request : IssueRequest)
    (token : DelegationToken) : Prop where
  signed : Signed E L s token
  tokenID : token.tokenID = draws.tokenID
  tokenType : token.tokenType = request.tokenType
  userID : token.userID = request.userId
  bucket : token.bucket = request.bucket
  objectKey : token.objectKey = request.objectKey
  expiry : token.expiry = expiryOf draws request.ttlSeconds
  createdAt : token.createdAt = draws.later

theorem issueToken_cases (E : Ed25519) (L : Library) (s : Service) (tokenType : TokenType) (operation : String)
    (userID bucket objectKey contentHash : Bytes) (ttlSeconds : Int) (draws : IssueDraws) :
    (¬ Printable L draws ttlSeconds ∧ ∃ e, issueToken E L s tokenType operation userID bucket objectKey contentHash
        ttlSeconds draws = (.error e, s)) ∨
      (Printable L draws ttlSeconds ∧ ∃ token sig, issueToken E L s tokenType operation userID bucket objectKey
          contentHash ttlSeconds draws = (.ok token, recordToken s token) ∧ Signed E L s token ∧
        token = ⟨draws.tokenID, tokenType, userID, bucket, objectKey, expiryOf draws ttlSeconds, draws.later,
          some [str operation], contentHash, some sig⟩) := by
  have printable := marshal_isOk L ⟨draws.tokenID, tokenType, userID, bucket, objectKey, expiryOf draws ttlSeconds,
    draws.later, some [str operation], contentHash, none⟩
  unfold issueToken signToken Printable
  cases marshalled : marshal L ⟨draws.tokenID, tokenType, userID, bucket, objectKey, expiryOf draws ttlSeconds,
    draws.later, some [str operation], contentHash, none⟩ with
  | error e =>
    rw [marshalled] at printable
    refine .inl ⟨fun both => ?_, _, rfl⟩
    rw [both.1, both.2] at printable
    cases printable
  | ok data =>
    rw [marshalled] at printable
    exact .inr ⟨Bool.and_eq_true_iff.mp printable.symm, _, _, rfl, ⟨data, marshalled, rfl⟩, rfl⟩

/-- A token is issued, signed and recorded exactly if its times can be printed. -/
theorem issue_cases (E : Ed25519) (L : Library) (s : Service) (draws : IssueDraws) (request : IssueRequest) :
    (¬ Printable L draws request.ttlSeconds ∧ ∃ e, issue E L s draws request = (.error e, s)) ∨
      (Printable L draws request.ttlSeconds ∧ ∃ token, issue E L s draws request = (.ok token, recordToken s token) ∧
        Issued E L s draws request token) := by
  cases request with
  | write userId bucket objectKey ttlSeconds =>
    refine (issueToken_cases E L s .write "encrypt" userId bucket objectKey [] ttlSeconds draws).imp_right ?_
    rintro ⟨printable, token, sig, success, signed, rfl⟩
    exact ⟨printable, _, success, signed, rfl, rfl, rfl, rfl, rfl, rfl, rfl⟩
  | read userId bucket objectKey contentHash ttlSeconds =>
    refine (issueToken_cases E L s .read "decrypt" userId bucket objectKey contentHash ttlSeconds draws).imp_right ?_
    rintro ⟨printable, token, sig, success, signed, rfl⟩
    exact ⟨printable, _, success, signed, rfl, rfl, rfl, rfl, rfl, rfl, rfl⟩
  | delete userId bucket objectKey ttlSeconds =>
    refine (issueToken_cases E L s .delete "delete" userId bucket objectKey [] ttlSeconds draws).imp_right ?_
    rintro ⟨printable, token, sig, success, signed, rfl⟩
    exact ⟨printable, _, success, signed, rfl, rfl, rfl, rfl, rfl, rfl, rfl⟩

theorem Signed.verify {token : DelegationToken} (signed : Signed E L s token) (keyed : s.Keyed E) :
    verifyToken E L s token = .ok () := by
  obtain ⟨_, marshalled, signature⟩ := signed
  obtain ⟨_, made⟩ := keyed.seeded
  simp [verifyToken, signature, marshalled, keyed.paired, made, E.sign_verify]

/-- A token is accepted if it has not expired, verifies, is of the type and is not
known to be revoked. -/
theorem validateToken_ok {now : Int} {token : DelegationToken} {expectedType : TokenType} :
    validateToken E L s now token expectedType = .ok () ↔
      token.expiry ≥ now ∧ verifyToken E L s token = .ok () ∧ token.tokenType = expectedType ∧
        ∀ record, s.issuedTokens.get token.tokenID = some record → record.revoked = false := by
  by_cases expired : token.expiry < now
  · simp [validateToken, expired]
  have inTime : now ≤ token.expiry := not_lt.mp expired
  cases verified : verifyToken E L s token with
  | error e => simp [validateToken, expired, verified]
  | ok _ =>
    by_cases same : token.tokenType = expectedType
    · cases held : s.issuedTokens.get token.tokenID with
      | none => simp [validateToken, expired, verified, same, held, inTime]
      | some record =>
        cases revoked : record.revoked <;> simp [validateToken, expired, verified, same, held, inTime, revoked]
    · simp [validateToken, expired, verified, same]

/-! ### There and back through the gRPC server -/

theorem fraction_length (ns : Nat) : (fraction ns).length = 0 ↔ ns = 0 := by
  unfold fraction
  split
  · next zero => simp [zero]
  · next positive => simp [positive, str]

theorem marshalTime_whole {t : Int} {text : Bytes} (printed : marshalTime L t = .ok text) :
    ∃ whole, marshalTime L (t / nanosecond * nanosecond) = .ok whole ∧
      text.length = whole.length + (fraction (t % nanosecond).toNat).length ∧ (t % nanosecond = 0 → text = whole) := by
  have positive : (nanosecond : Int) ≠ 0 := by decide
  have second : t / nanosecond * nanosecond / nanosecond = t / nanosecond := Int.mul_ediv_cancel _ positive
  have exactly : t / nanosecond * nanosecond % nanosecond = 0 := Int.mul_emod_left _ _
  unfold marshalTime at printed ⊢
  rw [second, exactly]
  cases formed : L.dateTime (t / nanosecond) with
  | error e =>
    rw [formed] at printed
    cases printed
  | ok parts =>
    rw [formed] at printed
    cases printed
    refine ⟨_, rfl, ?_, ?_⟩
    · simp only [length_append, fraction, Int.toNat_zero, if_true, length_nil]
      omega
    · intro none
      rw [none]

theorem fraction_emod (t : Int) : (fraction (t % nanosecond).toNat).length = 0 ↔ t % nanosecond = 0 := by
  have low : 0 ≤ t % nanosecond := Int.emod_nonneg t (by decide)
  rw [fraction_length]
  omega

/-- The text of a token is the one without fractions exactly if it has none. -/
theorem marshal_whole {token : DelegationToken} {data : Bytes} (marshalled : marshal L token = .ok data) :
    ∃ whole, marshal L (protoToToken (tokenToProto token)) = .ok whole ∧
      (whole = data ↔ token.expiry % nanosecond = 0 ∧ token.createdAt % nanosecond = 0) := by
  unfold marshal at marshalled
  split at marshalled
  · cases marshalled
  rename_i expiry printed
  split at marshalled
  · cases marshalled
  rename_i createdAt printed'
  cases marshalled
  obtain ⟨_, whole, _, same⟩ := marshalTime_whole printed
  obtain ⟨_, whole', _, same'⟩ := marshalTime_whole printed'
  simp only [marshal, protoToToken, tokenToProto, whole, whole']
  refine ⟨_, rfl, ?_⟩
  constructor
  · intro equal
    have total := congrArg List.length equal
    have first : (fraction (token.expiry % nanosecond).toNat).length = 0 := by
      simp only [textBefore, textBehind, length_append] at total
      omega
    have second : (fraction (token.createdAt % nanosecond).toNat).length = 0 := by
      simp only [textBefore, textBehind, length_append] at total
      omega
    exact ⟨(fraction_emod _).mp first, (fraction_emod _).mp second⟩
  · rintro ⟨first, second⟩
    rw [same first, same' second]
    rfl

theorem grpcValidateToken_valid {now : Int} {p : ProtoToken} {expectedType : TokenType} :
    (∃ answer, grpcValidateToken E L s now (some p) expectedType = some answer ∧ answer.valid = true) ↔
      validateToken E L s now (protoToToken p) expectedType = .ok () := by
  simp only [grpcValidateToken, map_some]
  cases validateToken E L s now (protoToToken p) expectedType with
  | error e => simp
  | ok _ => simp

/-- A token that was issued through the gRPC server and is sent back before it
expires and unrevoked, to a service with the same key, is reported valid exactly if
it expires on a whole second and was created on one. -/
theorem returned_token_valid_iff (E : Ed25519) (L : Library) (binding : E.Binding) (s : Service) (keyed : s.Keyed E)
    (request : IssueRequest) (draws : IssueDraws) (p : ProtoToken)
    (issued : (grpcIssueToken E L s request draws).1.token = some p) (s' : Service)
    (sameKey : s'.signingPubKey = s.signingPubKey)
    (unrevoked : ∀ record, s'.issuedTokens.get p.tokenId = some record → record.revoked = false) (now : Int)
    (inTime : now < expiryOf draws request.ttlSeconds) :
    (∃ answer, grpcValidateToken E L s' now (some p) p.tokenType = some answer ∧ answer.valid = true) ↔
      expiryOf draws request.ttlSeconds % nanosecond = 0 ∧ draws.later % nanosecond = 0 := by
  rcases issue_cases E L s draws request with ⟨-, _, refused⟩ | ⟨-, token, success, made⟩
  · simp only [grpcIssueToken, refused] at issued
    cases issued
  simp only [grpcIssueToken, success, some.injEq] at issued
  subst issued
  obtain ⟨data, marshalled, signature⟩ := made.signed
  obtain ⟨whole, returned, same⟩ := marshal_whole marshalled
  obtain ⟨seed, seeded⟩ := keyed.seeded
  have verified : verifyToken E L s' (protoToToken (tokenToProto token)) = .ok () ↔ whole = data := by
    have kept : (protoToToken (tokenToProto token)).signature = token.signature := rfl
    simp only [verifyToken, kept, signature, returned, sameKey, keyed.paired, seeded]
    constructor
    · intro success
      split at success
      · next good => exact binding seed data whole good
      · cases success
    · rintro rfl
      rw [E.sign_verify, if_pos rfl]
  rw [grpcValidateToken_valid, validateToken_ok, verified, same, made.expiry, made.createdAt]
  constructor
  · exact fun accepted => accepted.2.1
  · rintro ⟨wholeExpiry, wholeCreated⟩
    have expiry : (protoToToken (tokenToProto token)).expiry = expiryOf draws request.ttlSeconds := by
      have split := Int.ediv_mul_add_emod (expiryOf draws request.ttlSeconds) nanosecond
      rw [wholeExpiry, add_zero] at split
      simp only [protoToToken, tokenToProto, made.expiry]
      exact split
    exact ⟨expiry ▸ le_of_lt inTime, ⟨wholeExpiry, wholeCreated⟩, rfl, unrevoked⟩

/-! ### A key and two signatures

Ed25519 at the points that two tokens reach, one issued on a whole second and one
half a second later. Elsewhere a signature shows the key and the message. -/

namespace Sample

def seed : Bytes := bigEndian 32 0x4ccd089b28ff96da9db6c346ec114e0f5b8a319f35aba624da8cf6ed4fb8a6fb
def pubKey : Bytes := bigEndian 32 0x3d4017c3e843895a92b70aa74d1b7ebc9c982ccf2ec4968cc0cd55f12af4660c

def wholeText : Bytes :=
  str "\x7b\"token_id\":\"AAAAAAAAAAAAAAAAAAAAAA==\",\"token_type\":0,\"user_id\":\"u\",\"bucket\":\"b\"," ++
    str "\"object_key\":\"k\",\"expiry\":\"2026-01-01T00:00:30Z\",\"created_at\":\"2026-01-01T00:00:00Z\"," ++
    str "\"operations\":[\"encrypt\"]\x7d"
def halfText : Bytes :=
  str "\x7b\"token_id\":\"AAAAAAAAAAAAAAAAAAAAAA==\",\"token_type\":0,\"user_id\":\"u\",\"bucket\":\"b\"," ++
    str "\"object_key\":\"k\",\"expiry\":\"2026-01-01T00:00:30.5Z\",\"created_at\":\"2026-01-01T00:00:00.5Z\"," ++
    str "\"operations\":[\"encrypt\"]\x7d"

def wholeSig : Bytes :=
  bigEndian 32 0x92bff09b7aa2e70c5a9557dcfd6f9cc98aca08436b0430ce887f6027977c8374 ++
    bigEndian 32 0x52ef7e7a4330da9bd2d72bbfa1c2abbf63cb283d8db757bcb757954b5c9bcd0c
def halfSig : Bytes :=
  bigEndian 32 0x486f6a87c59a95a0e32649324eaa8deefe62b256d3f64300d231466a028f436e ++
    bigEndian 32 0x8c840f76ec92f950b185b3f4e696fccc3d1a6870a127a953c9a6b3277ee58f0e

def newKeyFromSeed (given : Bytes) : Bytes :=
  if given = seed then seed ++ pubKey
  else (given ++ replicate 32 0).take 32 ++ (given ++ replicate 32 0).take 32

def signatureOf (message : Bytes) : Option Bytes :=
  if message = wholeText then some wholeSig else if message = halfText then some halfSig else none

def messageOf (sig : Bytes) : Option Bytes :=
  if sig = wholeSig then some wholeText else if sig = halfSig then some halfText else none

def sign (privKey message : Bytes) : Bytes :=
  match if privKey = seed ++ pubKey then signatureOf message else none with
  | some sig => sig
  | none => privKey ++ message

def verify (pub message sig : Bytes) : Bool :=
  match messageOf sig with
  | some signed => pub = pubKey && message = signed
  | none => sig.drop 64 = message && (sig.take 64).drop 32 = pub

theorem key_length (given : Bytes) : (newKeyFromSeed given).length = 64 := by
  unfold newKeyFromSeed
  split
  · rfl
  · simp

theorem messageOf_signature {message sig : Bytes} (signed : signatureOf message = some sig) :
    messageOf sig = some message := by
  have apart : halfSig ≠ wholeSig := by decide +kernel
  unfold signatureOf at signed
  split at signed
  · next same =>
    cases signed
    rw [messageOf, if_pos rfl, same]
  · split at signed
    · next same =>
      cases signed
      rw [messageOf, if_neg apart, if_pos rfl, same]
    · cases signed

/-- No key is the start of a signature. -/
theorem messageOf_key (given message : Bytes) : messageOf (newKeyFromSeed given ++ message) = none := by
  have apart : ∀ sig : Bytes, sig.take 32 ≠ seed → sig.take 32 ≠ (sig.drop 32).take 32 →
      newKeyFromSeed given ++ message ≠ sig := by
    rintro sig notSeed halves rfl
    unfold newKeyFromSeed at notSeed halves
    split at notSeed
    · have length : seed.length = 32 := bigEndian_length _ _
      refine notSeed ?_
      rw [append_assoc, take_left' length]
    rename_i other
    rw [if_neg other] at halves
    have half : ((given ++ replicate 32 0).take 32).length = 32 := by simp
    refine halves ?_
    rw [append_assoc, take_left' half, drop_left' half, take_left' half]
  unfold messageOf
  rw [if_neg (apart wholeSig (by decide +kernel) (by decide +kernel)), if_neg (apart halfSig (by decide +kernel) (by decide +kernel))]

theorem verify_sign {given message message' : Bytes} :
    verify ((newKeyFromSeed given).drop 32) message' (sign (newKeyFromSeed given) message) = true ↔
      message' = message := by
  have plain : ∀ m, verify ((newKeyFromSeed given).drop 32) m (newKeyFromSeed given ++ message) = true ↔
      m = message := by
    intro m
    rw [verify, messageOf_key, drop_left' (key_length given), take_left' (key_length given)]
    simp [eq_comm]
  by_cases own : newKeyFromSeed given = seed ++ pubKey
  · cases signed : signatureOf message with
    | some sig =>
      have signs : sign (newKeyFromSeed given) message = sig := by simp [sign, own, signed]
      have half : (seed ++ pubKey).drop 32 = pubKey := drop_left' (bigEndian_length _ _)
      rw [signs, verify, messageOf_signature signed, own, half]
      simp
    | none =>
      have signs : sign (newKeyFromSeed given) message = newKeyFromSeed given ++ message := by
        simp [sign, own, signed]
      rw [signs]
      exact plain message'
  · have signs : sign (newKeyFromSeed given) message = newKeyFromSeed given ++ message := by simp [sign, own]
    rw [signs]
    exact plain message'

def ed25519 : Ed25519 := ⟨newKeyFromSeed, sign, verify, key_length, fun _ _ => verify_sign.mpr rfl⟩

theorem ed25519_binding : ed25519.Binding := fun _ _ _ => verify_sign.mp

/-- Plain strings, and the first minute of a year. -/
def library : Library where
  quote s := str "\"" ++ s ++ str "\""
  dateTime second :=
    if second = 1767225600 then .ok (str "2026-01-01T00:00:00", str "Z")
    else if second = 1767225630 then .ok (str "2026-01-01T00:00:30", str "Z")
    else .error (str "Time.MarshalJSON: year outside of range [0,9999]")

def config : Config := ⟨str "token.key", str "id"⟩

def startup : Startup := ⟨false, .ok seed, none, none, []⟩

def service : Service := ⟨seed ++ pubKey, pubKey, str "id", Table.empty⟩

def request : IssueRequest := .write (str "u") (str "b") (str "k") 30

def tokenID : Bytes := str "AAAAAAAAAAAAAAAAAAAAAA=="

/-- On a whole second, and half a second later. -/
def wholeDraws : IssueDraws := ⟨tokenID, 1767225600 * nanosecond, 1767225600 * nanosecond⟩
def halfDraws : IssueDraws := ⟨tokenID, 1767225600500000000, 1767225600500000000⟩

def token (draws : IssueDraws) (sig : Bytes) : DelegationToken :=
  ⟨tokenID, .write, str "u", str "b", str "k", expiryOf draws 30, draws.later, some [str "encrypt"], [], some sig⟩

theorem service_keyed : service.Keyed ed25519 := ⟨⟨seed, by decide⟩, by decide⟩

end Sample

open Sample

/-- A token that was issued half a second past is refused a nanosecond later. -/
theorem returned_token_invalid : ∃ p, (grpcIssueToken ed25519 library service request halfDraws).1.token = some p ∧
      (grpcValidateToken ed25519 library (grpcIssueToken ed25519 library service request halfDraws).2
        1767225600500000001 (some p) p.tokenType).map (fun answer => (answer.valid, answer.error)) =
          some (false, some ⟨401, str "invalid signature: signature verification failed"⟩) := by
  refine ⟨tokenToProto (token halfDraws halfSig), ?_, ?_⟩ <;> decide +kernel

/-- A token that was issued on a whole second is accepted. -/
theorem returned_whole_token_valid : ∃ p, (grpcIssueToken ed25519 library service request wholeDraws).1.token =
        some p ∧
      ∃ answer, grpcValidateToken ed25519 library (grpcIssueToken ed25519 library service request wholeDraws).2
        (1767225600 * nanosecond + 1) (some p) p.tokenType = some answer ∧ answer.valid = true := by
  have issued : (grpcIssueToken ed25519 library service request wholeDraws).1.token =
      some (tokenToProto (token wholeDraws wholeSig)) := by decide +kernel
  refine ⟨_, issued, ?_⟩
  refine (returned_token_valid_iff ed25519 library ed25519_binding service
    service_keyed request wholeDraws _ issued _ (by decide +kernel) ?_ _ (by decide +kernel)).mpr (by decide +kernel)
  intro record held
  have recorded : ((grpcIssueToken ed25519 library service request
      wholeDraws).2.issuedTokens.get (tokenToProto (token wholeDraws wholeSig)).tokenId).map
        (·.revoked) = some false := by decide +kernel
  rw [held] at recorded
  exact some.inj recorded

/-! ### Revocation -/

/-- The service and its key file, and the ids that were revoked so far. -/
structure State where
  service : Service
  file : Option Bytes
  revoked : List Bytes

inductive Event where
  | issue (request : IssueRequest) (draws : IssueDraws)
  | validate (token : DelegationToken) (expectedType : TokenType) (now : Int)
  | revoke (tokenID : Bytes)
  | restart (startup : Startup)

/-- A restart reads the key file; `none` if it cannot, or does not come up. -/
def next (E : Ed25519) (L : Library) (cfg : Config) (w : State) : Event → Option State
  | .issue request draws => some { w with service := (issue E L w.service draws request).2 }
  | .validate _ _ _ => some w
  | .revoke tokenID =>
    match revokeToken w.service tokenID with
    | (.error _, service) => some { w with service }
    | (.ok (), service) => some { w with service, revoked := tokenID :: w.revoked }
  | .restart startup =>
    if startup.unreadable then none
    else
      match newTokenService E cfg startup w.file with
      | (.error _, _) => none
      | (.ok service, file) => some { w with service, file }

/-- No token with a revoked id is accepted, whatever else it says. -/
def Refused (E : Ed25519) (L : Library) (w : State) : Prop :=
  ∀ token : DelegationToken, token.tokenID ∈ w.revoked → ∀ expectedType now,
    validateToken E L w.service now token expectedType ≠ .ok ()

/-- No restart after a revocation, and no token with an id that was revoked. -/
def Remembers (L : Library) (w : State) : Event → Prop
  | .issue request draws => draws.tokenID ∉ w.revoked ∨ ¬ Printable L draws request.ttlSeconds
  | .restart _ => w.revoked = []
  | _ => True

/-- The key is the one in the file, and for every id that was recorded or revoked
there is a token that the key signed. -/
structure Backed (E : Ed25519) (L : Library) (cfg : Config) (w : State) : Prop where
  keyed : w.service.Keyed E
  path : cfg.keyPath ≠ []
  file : ∃ keyData, w.file = some keyData ∧ 64 ≤ keyData.length ∧ keyData.take 64 = w.service.signingPrivKey
  recorded : ∀ id record, w.service.issuedTokens.get id = some record →
    ∃ token, token.tokenID = id ∧ Signed E L w.service token
  revoked : ∀ id ∈ w.revoked, ∃ token, token.tokenID = id ∧ Signed E L w.service token

variable {cfg : Config} {w w' : State}

theorem validateToken_congr {token : DelegationToken} (sameKey : s'.signingPubKey = s.signingPubKey)
    (sameRecord : s'.issuedTokens.get token.tokenID = s.issuedTokens.get token.tokenID) (expectedType : TokenType)
    (now : Int) : validateToken E L s' now token expectedType = validateToken E L s now token expectedType := by
  simp only [validateToken, verifyToken, sameKey, sameRecord]

/-- A token of the service is accepted up to its last instant if nothing is known
against it. -/
theorem Signed.accepted {token : DelegationToken} (signed : Signed E L s token) (keyed : s.Keyed E)
    (clear : ∀ record, s.issuedTokens.get token.tokenID = some record → record.revoked = false) :
    validateToken E L s token.expiry token token.tokenType = .ok () :=
  validateToken_ok.mpr ⟨le_refl _, signed.verify keyed, rfl, clear⟩

/-- A restart loads the key and forgets all records. -/
theorem Backed.restart (backed : Backed E L cfg w) {startup : Startup} (readable : startup.unreadable = false) :
    ∃ keyID, newTokenService E cfg startup w.file =
      (.ok ⟨w.service.signingPrivKey, w.service.signingPubKey, keyID, Table.empty⟩, w.file) := by
  obtain ⟨keyData, stored, long, key⟩ := backed.file
  have loaded : loadKey cfg startup w.file = some w.service.signingPrivKey := by
    have present : ¬ (cfg.keyPath = [] ∨ startup.unreadable = true) := by simp [backed.path, readable]
    have enough : privateKeySize ≤ keyData.length := long
    simp only [loadKey, if_neg present, stored, if_pos enough]
    exact congrArg some key
  refine ⟨if cfg.keyID ≠ [] then cfg.keyID else startup.keyID, ?_⟩
  simp only [newTokenService, loaded, backed.keyed.paired]

theorem next_restart (backed : Backed E L cfg w) {startup : Startup}
    (stepped : next E L cfg w (.restart startup) = some w') :
    ∃ keyID, w' = { w with
      service := ⟨w.service.signingPrivKey, w.service.signingPubKey, keyID, Table.empty⟩ } := by
  simp only [next] at stepped
  split at stepped
  · cases stepped
  rename_i readable
  obtain ⟨keyID, started⟩ := backed.restart (Bool.not_eq_true _ |>.mp readable)
  rw [started] at stepped
  cases stepped
  exact ⟨keyID, rfl⟩

theorem next_revoke {tokenID : Bytes} (stepped : next E L cfg w (.revoke tokenID) = some w') :
    w' = w ∨ ∃ record, w.service.issuedTokens.get tokenID = some record ∧ w' = { w with
        service := { w.service with
          issuedTokens := w.service.issuedTokens.put tokenID { record with revoked := true } }
        revoked := tokenID :: w.revoked } := by
  simp only [next, revokeToken] at stepped
  cases held : w.service.issuedTokens.get tokenID with
  | none =>
    rw [held] at stepped
    cases stepped
    exact .inl rfl
  | some record =>
    rw [held] at stepped
    cases stepped
    exact .inr ⟨record, rfl, rfl⟩

theorem next_issue {request : IssueRequest} {draws : IssueDraws}
    (stepped : next E L cfg w (.issue request draws) = some w') :
    (¬ Printable L draws request.ttlSeconds ∧ w' = w) ∨
      (Printable L draws request.ttlSeconds ∧ ∃ token, Issued E L w.service draws request token ∧
        w' = { w with service := recordToken w.service token }) := by
  rcases issue_cases E L w.service draws request with ⟨unprintable, e, refused⟩ | ⟨printable, token, success, made⟩
  · simp only [next, refused] at stepped
    cases stepped
    exact .inl ⟨unprintable, rfl⟩
  · simp only [next, success] at stepped
    cases stepped
    exact .inr ⟨printable, token, made, rfl⟩

theorem Backed.step (backed : Backed E L cfg w) {event : Event} (stepped : next E L cfg w event = some w') :
    Backed E L cfg w' := by
  cases event with
  | validate token expectedType now =>
    cases stepped
    exact backed
  | issue request draws =>
    rcases next_issue stepped with ⟨-, rfl⟩ | ⟨-, token, made, rfl⟩
    · exact backed
    · refine { backed with recorded := ?_, keyed := ⟨backed.keyed.seeded, backed.keyed.paired⟩ }
      intro id record held
      by_cases same : token.tokenID = id
      · exact ⟨token, same, made.signed⟩
      · exact backed.recorded id record ((Table.get_put_ne _ _ same).symm.trans held)
  | revoke tokenID =>
    rcases next_revoke stepped with rfl | ⟨record, held, rfl⟩
    · exact backed
    refine { backed with recorded := ?_, revoked := ?_, keyed := ⟨backed.keyed.seeded, backed.keyed.paired⟩ }
    · intro id record' held'
      by_cases same : tokenID = id
      · exact backed.recorded id record (same ▸ held)
      · exact backed.recorded id record' ((Table.get_put_ne _ _ same).symm.trans held')
    · intro id listed
      rcases mem_cons.mp listed with rfl | earlier
      · exact backed.recorded id record held
      · exact backed.revoked id earlier
  | restart startup =>
    obtain ⟨_, rfl⟩ := next_restart backed stepped
    refine { backed with recorded := ?_, keyed := ⟨backed.keyed.seeded, backed.keyed.paired⟩ }
    rintro id record ⟨⟩

/-- One step keeps the revoked tokens out exactly if it forgets none. -/
theorem refused_step (backed : Backed E L cfg w) (refused : Refused E L w) {event : Event}
    (stepped : next E L cfg w event = some w') : Refused E L w' ↔ Remembers L w event := by
  cases event with
  | validate token expectedType now =>
    cases stepped
    exact iff_of_true refused trivial
  | issue request draws =>
    rcases next_issue stepped with ⟨unprintable, rfl⟩ | ⟨printable, token, made, rfl⟩
    · exact iff_of_true refused (.inr unprintable)
    by_cases drawn : draws.tokenID ∈ w.revoked
    · refine iff_of_false (fun stays => ?_) fun remembers => remembers.elim (· drawn) (· printable)
      have signed : Signed E L (recordToken w.service token) token := made.signed
      refine stays token (made.tokenID ▸ drawn) token.tokenType token.expiry (signed.accepted ?_ ?_)
      · exact ⟨backed.keyed.seeded, backed.keyed.paired⟩
      · intro record held
        cases (Table.get_put_same _ _ _).symm.trans held
        rfl
    · refine iff_of_true (fun other listed expectedType now => ?_) (.inl drawn)
      have apart : token.tokenID ≠ other.tokenID := by
        rw [made.tokenID]
        rintro same
        exact drawn (same ▸ listed)
      have sameRecord : (recordToken w.service token).issuedTokens.get other.tokenID =
          w.service.issuedTokens.get other.tokenID := Table.get_put_ne _ _ apart
      have sameKey : (recordToken w.service token).signingPubKey = w.service.signingPubKey := rfl
      rw [validateToken_congr sameKey sameRecord]
      exact refused other listed expectedType now
  | revoke tokenID =>
    rcases next_revoke stepped with rfl | ⟨record, held, rfl⟩
    · exact iff_of_true refused trivial
    refine iff_of_true (fun token listed expectedType now => ?_) trivial
    by_cases same : tokenID = token.tokenID
    · intro accepted
      have clear := (validateToken_ok.mp accepted).2.2.2 { record with revoked := true }
        (same ▸ Table.get_put_same _ _ _)
      cases clear
    · have earlier : token.tokenID ∈ w.revoked := (mem_cons.mp listed).resolve_left (Ne.symm same)
      have sameKey : (Service.signingPubKey { w.service with
        issuedTokens := w.service.issuedTokens.put tokenID { record with revoked := true } }) =
          w.service.signingPubKey := rfl
      have others := Table.get_put_ne w.service.issuedTokens { record with revoked := true } same
      rw [validateToken_congr sameKey others]
      exact refused token earlier expectedType now
  | restart startup =>
    obtain ⟨_, rfl⟩ := next_restart backed stepped
    constructor
    · intro stays
      refine eq_nil_iff_forall_not_mem.mpr fun id listed => ?_
      obtain ⟨token, rfl, signed⟩ := backed.revoked id listed
      refine stays token listed token.tokenType token.expiry (Signed.accepted signed ?_ (by rintro _ ⟨⟩))
      exact ⟨backed.keyed.seeded, backed.keyed.paired⟩
    · intro none token listed
      have empty : w.revoked = [] := none
      simp only [empty, not_mem_nil] at listed

/-- A key file that the service has written, if it is long enough to be read. -/
def OwnKey (E : Ed25519) (file : Option Bytes) : Prop :=
  ∀ keyData, file = some keyData → 64 ≤ keyData.length → ∃ seed, keyData.take 64 = E.newKeyFromSeed seed

theorem newTokenService_backed {startup : Startup} {file file' : Option Bytes} (path : cfg.keyPath ≠ [])
    (own : OwnKey E file) (started : newTokenService E cfg startup file = (.ok s, file')) :
    Backed E L cfg ⟨s, file', []⟩ := by
  unfold newTokenService at started
  cases loaded : loadKey cfg startup file with
  | some privKey =>
    rw [loaded] at started
    obtain ⟨rfl, rfl⟩ := started
    simp only [loadKey] at loaded
    split at loaded
    · cases loaded
    · cases stored : file with
      | none =>
        rw [stored] at loaded
        cases loaded
      | some keyData =>
        rw [stored] at loaded
        simp only [ite_none_right_eq_some, some.injEq] at loaded
        obtain ⟨long, rfl⟩ := loaded
        exact ⟨⟨own keyData stored long, rfl⟩, path, ⟨keyData, rfl, long, rfl⟩, by rintro _ _ ⟨⟩, by rintro _ ⟨⟩⟩
  | none =>
    rw [loaded] at started
    cases drawn : startup.seed with
    | error e =>
      rw [drawn] at started
      cases started
    | ok seed =>
      rw [drawn] at started
      simp only [saveKey, if_neg path] at started
      cases made : startup.mkdirAll with
      | some e =>
        rw [made] at started
        cases started
      | none =>
        rw [made] at started
        cases written : startup.writeFile with
        | some e =>
          rw [written] at started
          cases started
        | none =>
          rw [written] at started
          obtain ⟨rfl, rfl⟩ := started
          have long : 64 ≤ (E.newKeyFromSeed seed).length := (E.key_length seed).ge
          refine ⟨⟨⟨seed, rfl⟩, rfl⟩, path, ⟨_, rfl, long, ?_⟩, by rintro _ _ ⟨⟩, by rintro _ ⟨⟩⟩
          exact take_of_length_le (E.key_length seed).le

/-- In every run of a service with a key file, the tokens that were revoked are
refused ever after exactly if the service is not started again after a revocation
and issues no token with a revoked id. -/
theorem revoked_tokens_refused_iff (E : Ed25519) (L : Library) (cfg : Config) (path : cfg.keyPath ≠ [])
    (startup : Startup) (file file' : Option Bytes) (own : OwnKey E file) (s : Service)
    (started : newTokenService E cfg startup file = (.ok s, file')) (events : List Event) :
    Always (next E L cfg) (Refused E L) ⟨s, file', []⟩ events ↔
      Throughout (next E L cfg) (Remembers L) ⟨s, file', []⟩ events := by
  refine always_iff_throughout (Backed E L cfg) ?_ ?_ (newTokenService_backed path own started) ?_
  · exact fun w event w' stepped backed => backed.step stepped
  · exact fun w event w' stepped backed refused => refused_step backed refused stepped
  · rintro - ⟨⟩

namespace Sample

/-- A token is issued and revoked, and the service is started again. -/
def forgotten : List Event := [.issue request wholeDraws, .revoke tokenID, .restart startup]

def remembered : List Event := [.issue request wholeDraws, .revoke tokenID, .validate (token wholeDraws wholeSig) .write 0]

end Sample

/-- The revoked token is accepted after the restart. -/
theorem revoked_token_accepted : newTokenService ed25519 config startup none = (.ok service, some (seed ++ pubKey)) ∧
      ¬ Always (next ed25519 library config) (Refused ed25519 library)
        ⟨service, some (seed ++ pubKey), []⟩ forgotten := by
  refine ⟨rfl, fun always => ?_⟩
  have reached : (forgotten.foldlM (next ed25519 library config)
      ⟨service, some (seed ++ pubKey), []⟩).map (fun w => (w.revoked,
        validateToken ed25519 library w.service (1767225600 * nanosecond + 1)
          (token wholeDraws wholeSig) .write)) = some ([tokenID], .ok ()) := by decide +kernel
  obtain ⟨w, last, seen⟩ := map_eq_some_iff.mp reached
  obtain ⟨revoked, accepted⟩ := Prod.mk.inj seen
  refine always.last last (token wholeDraws wholeSig) ?_ _ _ accepted
  rw [revoked]
  exact mem_cons_self

/-- Without a restart the token stays refused. -/
theorem revoked_token_refused : newTokenService ed25519 config startup none = (.ok service, some (seed ++ pubKey)) ∧
      Always (next ed25519 library config) (Refused ed25519 library)
        ⟨service, some (seed ++ pubKey), []⟩ remembered := by
  have own : OwnKey ed25519 none := by rintro _ ⟨⟩
  refine ⟨rfl, (revoked_tokens_refused_iff ed25519 library config (by decide) startup none
    (some (seed ++ pubKey)) own service rfl remembered).mpr ?_⟩
  intro w first
  refine ⟨.inl not_mem_nil, ?_⟩
  exact fun _ _ => ⟨trivial, fun _ _ => ⟨trivial, trivial⟩⟩

end CipherLake.TokenService
