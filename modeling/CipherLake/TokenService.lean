import CipherLake.Lib.Table

/-! `TokenService` and its gRPC server: delegation tokens are signed over their
JSON form, sent as a protocol buffer, and sent back to be validated. Instants are
nanoseconds since 1970 and are printed in the local time zone. -/
namespace CipherLake.TokenService
open Lib

/-- A Go integer type with three named values. -/
structure TokenType where
  code : Int
  deriving DecidableEq, Repr

namespace TokenType

def write : TokenType := ⟨0⟩
def read : TokenType := ⟨1⟩
def delete : TokenType := ⟨2⟩

end TokenType

structure TokenRecord where
  tokenID : Bytes
  tokenType : TokenType
  (userID bucket objectKey : Bytes)
  (issuedAt expiresAt : Int)
  revoked : Bool
  deriving DecidableEq, Repr

/-- A slice that is nil is `none`. -/
structure DelegationToken where
  tokenID : Bytes
  tokenType : TokenType
  (userID bucket objectKey : Bytes)
  (expiry createdAt : Int)
  operations : Option (List Bytes)
  contentHash : Bytes
  signature : Option Bytes
  deriving DecidableEq, Repr

/-- Ed25519. A private key is the seed and the public key in a row. -/
structure Ed25519 where
  newKeyFromSeed (seed : Bytes) : Bytes
  sign (privKey message : Bytes) : Bytes
  verify (pubKey message sig : Bytes) : Bool
  key_length : ∀ seed, (newKeyFromSeed seed).length = 64
  sign_verify : ∀ seed message,
    verify ((newKeyFromSeed seed).drop 32) message (sign (newKeyFromSeed seed) message) = true

variable (E : Ed25519) (cfg : Config) (startup : Startup) (L : Library) (s : Service) (draws : IssueDraws)
  (token : DelegationToken)

/-- A signature is good for no other message. -/
def Ed25519.Binding : Prop :=
  ∀ seed message message',
    E.verify ((E.newKeyFromSeed seed).drop 32) message' (E.sign (E.newKeyFromSeed seed) message) = true →
      message' = message

/-- The JSON form of a string, and the date and the zone that a second is printed
with, for which there may be no form. -/
structure Library where
  quote : Bytes → Bytes
  dateTime (second : Int) : Except Bytes (Bytes × Bytes)

structure Service where
  (signingPrivKey signingPubKey keyID : Bytes)
  issuedTokens : Table Bytes TokenRecord

/-! ### The signing key -/

structure Config where
  (keyPath keyID : Bytes)

/-- What a start of the service meets: whether the key file can be read, the
random values, and the errors of the directory and of the file. -/
structure Startup where
  unreadable : Bool
  seed : Except Bytes Bytes
  (mkdirAll writeFile : Option Bytes)
  keyID : Bytes

def privateKeySize : Nat := 64

/-- The key that is loaded, if there is one. -/
def loadKey (file : Option Bytes) : Option Bytes :=
  if cfg.keyPath = [] ∨ startup.unreadable then none
  else
    match file with
    | none => none
    | some keyData => if privateKeySize ≤ keyData.length then some (keyData.take privateKeySize) else none

def saveKey (privKey : Bytes) (file : Option Bytes) : Except Bytes Unit × Option Bytes :=
  if cfg.keyPath = [] then (.ok (), file)
  else
    match startup.mkdirAll with
    | some e => (.error (str "failed to create key directory: " ++ e), file)
    | none =>
      match startup.writeFile with
      | some e => (.error (str "failed to save signing key: " ++ e), file)
      | none => (.ok (), some privKey)

/-- The service, and the key file afterwards. -/
def newTokenService (file : Option Bytes) : Except Bytes Service × Option Bytes :=
  let keyID := if cfg.keyID ≠ [] then cfg.keyID else startup.keyID
  match loadKey cfg startup file with
  | some privKey => (.ok ⟨privKey, privKey.drop 32, keyID, Table.empty⟩, file)
  | none =>
    match startup.seed with
    | .error e => (.error (str "failed to generate ed25519 key: " ++ e), file)
    | .ok seed =>
      let privKey := E.newKeyFromSeed seed
      match saveKey cfg startup privKey file with
      | (.error e, file) => (.error e, file)
      | (.ok (), file) => (.ok ⟨privKey, privKey.drop 32, keyID, Table.empty⟩, file)

/-! ### The signed text -/

def nanosecond : Int := 10 ^ 9

/-- The fraction of a second as `time.RFC3339Nano` prints it: nothing for a whole
second, else a point and up to nine digits without zeros at the end. -/
def fraction (ns : Nat) : Bytes :=
  if ns = 0 then []
  else
    let digits := (List.range 9).map fun i => (48 + ns / 10 ^ (8 - i) % 10).toUInt8
    str "." ++ (digits.reverse.dropWhile (· = 48)).reverse

def marshalTime (t : Int) : Except Bytes Bytes :=
  match L.dateTime (t / nanosecond) with
  | .error e => .error (str "json: error calling MarshalJSON for type time.Time: " ++ e)
  | .ok (dateTime, zone) =>
    .ok (str "\"" ++ dateTime ++ fraction (t % nanosecond).toNat ++ zone ++ str "\"")

/-- A field that is left out when it is empty. -/
def optionalField (name : String) (value : Bytes) : Bytes :=
  if value = [] then [] else str ",\"" ++ str name ++ str "\":" ++ L.quote value

def marshalOperations : Option (List Bytes) → Bytes
  | none => str "null"
  | some operations => str "[" ++ (str ",").intercalate (operations.map L.quote) ++ str "]"

/-- The text before the times, and the text behind them. -/
def textBefore : Bytes :=
  str "\x7b\"token_id\":" ++ L.quote token.tokenID ++ str ",\"token_type\":" ++ str (toString token.tokenType.code) ++
    str ",\"user_id\":" ++ L.quote token.userID ++ str ",\"bucket\":" ++ L.quote token.bucket ++
    optionalField L "object_key" token.objectKey

def textBehind : Bytes :=
  str ",\"operations\":" ++ marshalOperations L token.operations ++
    optionalField L "content_hash" token.contentHash ++ str "\x7d"

/-- `json.Marshal` of a token without its signature. -/
def marshal : Except Bytes Bytes :=
  match marshalTime L token.expiry with
  | .error e => .error e
  | .ok expiry =>
    match marshalTime L token.createdAt with
    | .error e => .error e
    | .ok createdAt =>
      .ok (textBefore L token ++ str ",\"expiry\":" ++ expiry ++ str ",\"created_at\":" ++ createdAt ++
        textBehind L token)

def signToken : Except Bytes DelegationToken :=
  match marshal L token with
  | .error e => .error (str "failed to marshal token: " ++ e)
  | .ok data => .ok { token with signature := some (E.sign s.signingPrivKey data) }

def verifyToken : Except Bytes Unit :=
  match token.signature with
  | none => .error (str "token has no signature")
  | some sig =>
    match marshal L token with
    | .error e => .error (str "failed to marshal token: " ++ e)
    | .ok data =>
      if E.verify s.signingPubKey data sig then .ok () else .error (str "signature verification failed")

/-! ### Operations -/

/-- The id that is drawn for a token, and the two times that the clock is read. -/
structure IssueDraws where
  tokenID : Bytes
  (now later : Int)

def recordToken : Service :=
  { s with
    issuedTokens := s.issuedTokens.put token.tokenID
      ⟨token.tokenID, token.tokenType, token.userID, token.bucket, token.objectKey, token.createdAt, token.expiry,
        false⟩ }

def ttlOrDefault (ttlSeconds : Int) : Int := if ttlSeconds ≤ 0 then 30 else ttlSeconds

/-- The instant at which a token expires; the duration is an `int64`. -/
def expiryOf (ttlSeconds : Int) : Int :=
  draws.now + int64 (ttlOrDefault ttlSeconds * nanosecond)

/-- The three functions that issue tokens differ in what they put in. -/
def issueToken (tokenType : TokenType) (operation : String)
    (userID bucket objectKey contentHash : Bytes) (ttlSeconds : Int) (draws : IssueDraws) :
    Except Bytes DelegationToken × Service :=
  match signToken E L s ⟨draws.tokenID, tokenType, userID, bucket, objectKey, expiryOf draws ttlSeconds, draws.later,
      some [str operation], contentHash, none⟩ with
  | .error e => (.error (str "failed to sign token: " ++ e), s)
  | .ok token => (.ok token, recordToken s token)

def issueWriteToken (userID bucket objectKey : Bytes) :=
  issueToken E L s .write "encrypt" userID bucket objectKey []

def issueReadToken (userID bucket objectKey contentHash : Bytes) :=
  issueToken E L s .read "decrypt" userID bucket objectKey contentHash

def issueDeleteToken (userID bucket objectKey : Bytes) :=
  issueToken E L s .delete "delete" userID bucket objectKey []

def validateToken (now : Int) (token : DelegationToken) (expectedType : TokenType) : Except Bytes Unit :=
  if token.expiry < now then .error (str "token expired")
  else
    match verifyToken E L s token with
    | .error e => .error (str "invalid signature: " ++ e)
    | .ok () =>
      if token.tokenType ≠ expectedType then
        .error (str "wrong token type: expected " ++ str (toString expectedType.code) ++ str ", got " ++
          str (toString token.tokenType.code))
      else
        match s.issuedTokens.get token.tokenID with
        | some record => if record.revoked then .error (str "token revoked") else .ok ()
        | none => .ok ()

def revokeToken (tokenID : Bytes) : Except Bytes Unit × Service :=
  match s.issuedTokens.get tokenID with
  | none => (.error (str "token not found"), s)
  | some record => (.ok (), { s with issuedTokens := s.issuedTokens.put tokenID { record with revoked := true } })

/-! ### The gRPC server -/

/-- `common.DelegationToken`: the times are in seconds. -/
structure ProtoToken where
  tokenId : Bytes
  tokenType : TokenType
  (userId bucket objectKey : Bytes)
  (expiry createdAt : Int)
  operations : Option (List Bytes)
  contentHash : Bytes
  signature : Option Bytes
  deriving DecidableEq, Repr

def tokenToProto : ProtoToken :=
  { tokenId := token.tokenID
    tokenType := token.tokenType
    userId := token.userID
    bucket := token.bucket
    objectKey := token.objectKey
    expiry := token.expiry / nanosecond
    createdAt := token.createdAt / nanosecond
    operations := token.operations
    contentHash := token.contentHash
    signature := token.signature }

def protoToToken (p : ProtoToken) : DelegationToken :=
  { tokenID := p.tokenId
    tokenType := p.tokenType
    userID := p.userId
    bucket := p.bucket
    objectKey := p.objectKey
    expiry := p.expiry * nanosecond
    createdAt := p.createdAt * nanosecond
    operations := p.operations
    contentHash := p.contentHash
    signature := p.signature }

structure ProtoError where
  code : Nat
  message : Bytes
  deriving DecidableEq, Repr

structure IssueTokenResponse where
  token : Option ProtoToken
  error : Option ProtoError
  deriving DecidableEq, Repr

structure ValidateTokenResponse where
  valid : Bool
  (userId bucket objectKey : Bytes)
  error : Option ProtoError
  deriving DecidableEq, Repr

/-- A request to issue a token. -/
inductive IssueRequest where
  | write (userId bucket objectKey : Bytes) (ttlSeconds : Int)
  | read (userId bucket objectKey contentHash : Bytes) (ttlSeconds : Int)
  | delete (userId bucket objectKey : Bytes) (ttlSeconds : Int)
  deriving DecidableEq, Repr

def IssueRequest.ttlSeconds : IssueRequest → Int
  | .write _ _ _ ttlSeconds => ttlSeconds
  | .read _ _ _ _ ttlSeconds => ttlSeconds
  | .delete _ _ _ ttlSeconds => ttlSeconds

/-- The type of the token, and whom and what it is for. -/
def IssueRequest.tokenType : IssueRequest → TokenType
  | .write _ _ _ _ => .write
  | .read _ _ _ _ _ => .read
  | .delete _ _ _ _ => .delete

def IssueRequest.userId : IssueRequest → Bytes
  | .write userId _ _ _ => userId
  | .read userId _ _ _ _ => userId
  | .delete userId _ _ _ => userId

def IssueRequest.bucket : IssueRequest → Bytes
  | .write _ bucket _ _ => bucket
  | .read _ bucket _ _ _ => bucket
  | .delete _ bucket _ _ => bucket

def IssueRequest.objectKey : IssueRequest → Bytes
  | .write _ _ objectKey _ => objectKey
  | .read _ _ objectKey _ _ => objectKey
  | .delete _ _ objectKey _ => objectKey

def issue :
    IssueRequest → Except Bytes DelegationToken × Service
  | .write userId bucket objectKey ttlSeconds => issueWriteToken E L s userId bucket objectKey ttlSeconds draws
  | .read userId bucket objectKey contentHash ttlSeconds =>
    issueReadToken E L s userId bucket objectKey contentHash ttlSeconds draws
  | .delete userId bucket objectKey ttlSeconds => issueDeleteToken E L s userId bucket objectKey ttlSeconds draws

def grpcIssueToken (request : IssueRequest) (draws : IssueDraws) : IssueTokenResponse × Service :=
  match issue E L s draws request with
  | (.error e, s) => (⟨none, some ⟨500, e⟩⟩, s)
  | (.ok token, s) => (⟨some (tokenToProto token), none⟩, s)

/-- `none` is a panic: there is no check that a token was sent. -/
def grpcValidateToken (now : Int) (token : Option ProtoToken)
    (expectedType : TokenType) : Option ValidateTokenResponse :=
  match token.map protoToToken with
  | none => none
  | some token =>
    match validateToken E L s now token expectedType with
    | .error e => some ⟨false, [], [], [], some ⟨401, e⟩⟩
    | .ok () => some ⟨true, token.userID, token.bucket, token.objectKey, none⟩

end CipherLake.TokenService
