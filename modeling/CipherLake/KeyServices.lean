import CipherLake.Coordinator

/-! `KeyGenService` and `KeyUnwrapService`. Each is constructed from the files of
one key path, where the other one may have left a key pair, and makes a pair
itself if it finds none. The first wraps data keys for the public key (ECIES), the
second unwraps them with the private key. -/
namespace CipherLake.KeyServices
open Lib StreamCipher Coordinator

inductive Curve where
  | p256
  | p384
  | p521
  deriving DecidableEq, Repr

/-- The bytes of a coordinate. -/
def Curve.byteLen : Curve → Nat
  | .p256 => 32
  | .p384 => 48
  | .p521 => 66

/-- The switch over `CurveName`. -/
def selectCurve (curveName : Bytes) : Curve :=
  if curveName = str "P-256" then .p256
  else if curveName = str "P-384" then .p384
  else if curveName = str "P-521" then .p521
  else .p256

/-- The arithmetic of the curves. A scalar that `GenerateKey` may draw is
`scalar`; the product with such a scalar depends on the two factors alone. -/
structure Arithmetic where
  onCurve (c : Curve) (point : Nat × Nat) : Bool
  scalar (c : Curve) (d : Nat) : Bool
  scalarBaseMult (c : Curve) (d : Nat) : Nat × Nat
  scalarMult (c : Curve) (point : Nat × Nat) (d : Nat) : Nat × Nat
  onCurve_small : ∀ c point, onCurve c point = true → point.1 < 256 ^ c.byteLen ∧ point.2 < 256 ^ c.byteLen
  base_onCurve : ∀ c d, scalar c d = true → onCurve c (scalarBaseMult c d) = true
  agreement : ∀ c d e, scalar c d = true → scalar c e = true →
    scalarMult c (scalarBaseMult c d) e = scalarMult c (scalarBaseMult c e) d

/-- A point on its curve. -/
structure PublicKey (E : Arithmetic) where
  curve : Curve
  point : Nat × Nat
  valid : E.onCurve curve point = true

structure PrivateKey (E : Arithmetic) where
  curve : Curve
  d : Nat
  valid : E.scalar curve d = true

def PrivateKey.publicKey {E : Arithmetic} (k : PrivateKey E) : PublicKey E :=
  ⟨k.curve, E.scalarBaseMult k.curve k.d, E.base_onCurve k.curve k.d k.valid⟩

/-- What `x509.ParsePKIXPublicKey` may find. -/
inductive ParsedKey (E : Arithmetic) where
  | ecdsa (key : PublicKey E)
  | other

/-- The encodings of keys. -/
structure X509 (E : Arithmetic) where
  marshalPKIXPublicKey : PublicKey E → Bytes
  parsePKIXPublicKey : Bytes → Option (ParsedKey E)
  marshalECPrivateKey : PrivateKey E → Bytes
  parseECPrivateKey : Bytes → Option (PrivateKey E)
  parse_public : ∀ key, parsePKIXPublicKey (marshalPKIXPublicKey key) = some (.ecdsa key)
  parse_private : ∀ key, parseECPrivateKey (marshalECPrivateKey key) = some key

/-- The files `KeyPath.pub` and `KeyPath.priv`. -/
structure KeyFiles where
  (pub priv : Option Bytes)
  deriving DecidableEq, Repr

structure Config where
  (keyPath keyID curveName : Bytes)

/-- What a start meets: whether the key file can be read, the key pair that
`GenerateKey` draws on each curve, the errors of the directory and of the two
files, and the random key id. -/
structure Startup (E : Arithmetic) where
  unreadable : Bool
  generateKey : Curve → Except Bytes Nat
  drawn : ∀ c d, generateKey c = .ok d → E.scalar c d = true
  (mkdirAll writePub writePriv : Option Bytes)
  keyID : Bytes

structure KeyGenService (E : Arithmetic) where
  encryptPublicKey : PublicKey E
  (encryptPublicKeyBytes keyID : Bytes)
  curve : Curve

structure KeyUnwrapService (E : Arithmetic) where
  decryptPrivKey : PrivateKey E
  keyID : Bytes

/-- The curve of the unwrapping service is the curve of its key. -/
def KeyUnwrapService.curve {E : Arithmetic} (k : KeyUnwrapService E) : Curve := k.decryptPrivKey.curve

section Construction

variable {E : Arithmetic} (X : X509 E) (cfg : Config) (startup : Startup E) (files : KeyFiles)

def configKeyID : Bytes := if cfg.keyID ≠ [] then cfg.keyID else startup.keyID

/-- The bytes of a key file, if they can be had. -/
def readKeyFile (file : Option Bytes) : Option Bytes := if cfg.keyPath = [] ∨ startup.unreadable then none else file

/-- `GenerateKey` on a curve. -/
def drawKey (c : Curve) : Except Bytes (PrivateKey E) :=
  match drawn : startup.generateKey c with
  | .error e => .error (str "failed to generate key pair: " ++ e)
  | .ok d => .ok ⟨c, d, startup.drawn c d drawn⟩

/-- The public key is saved before the private key. -/
def saveGenerated (key : PrivateKey E) : Except Bytes Unit × KeyFiles :=
  if cfg.keyPath = [] then (.ok (), files)
  else
    match startup.mkdirAll with
    | some e => (.error (str "failed to create key directory: " ++ e), files)
    | none =>
      match startup.writePub with
      | some e => (.error (str "failed to save public key: " ++ e), files)
      | none =>
        let files := { files with pub := some (X.marshalPKIXPublicKey key.publicKey) }
        match startup.writePriv with
        | some e => (.error (str "failed to save private key: " ++ e), files)
        | none => (.ok (), { files with priv := some (X.marshalECPrivateKey key) })

def newKeyGenService : Except Bytes (KeyGenService E) × KeyFiles :=
  let curve := selectCurve cfg.curveName
  let loaded := (readKeyFile cfg startup files.pub).bind fun keyData =>
    match X.parsePKIXPublicKey keyData with
    | some (.ecdsa key) => some (key, keyData)
    | _ => none
  match loaded with
  | some (key, keyData) => (.ok ⟨key, keyData, configKeyID cfg startup, curve⟩, files)
  | none =>
    match drawKey startup curve with
    | .error e => (.error e, files)
    | .ok key =>
      match saveGenerated X cfg startup files key with
      | (.error e, files) => (.error e, files)
      | (.ok (), files) =>
        (.ok ⟨key.publicKey, X.marshalPKIXPublicKey key.publicKey, configKeyID cfg startup, curve⟩, files)

/-- The private key is saved before the public key. -/
def saveForUnwrap (key : PrivateKey E) : Except Bytes Unit × KeyFiles :=
  if cfg.keyPath = [] then (.ok (), files)
  else
    match startup.mkdirAll with
    | some e => (.error (str "failed to create key directory: " ++ e), files)
    | none =>
      match startup.writePriv with
      | some e => (.error (str "failed to save private key: " ++ e), files)
      | none =>
        let files := { files with priv := some (X.marshalECPrivateKey key) }
        match startup.writePub with
        | some e => (.error (str "failed to save public key: " ++ e), files)
        | none => (.ok (), { files with pub := some (X.marshalPKIXPublicKey key.publicKey) })

/-- `none` is a panic: the key that is generated where none was loaded is another
variable of the same name, and the one that is read in the end is nil. -/
def newKeyUnwrapService : Option (Except Bytes (KeyUnwrapService E)) × KeyFiles :=
  match (readKeyFile cfg startup files.priv).bind X.parseECPrivateKey with
  | some key => (some (.ok ⟨key, configKeyID cfg startup⟩), files)
  | none =>
    match drawKey startup .p256 with
    | .error e => (some (.error e), files)
    | .ok key =>
      match saveForUnwrap X cfg startup files key with
      | (.error e, files) => (some (.error e), files)
      | (.ok (), files) => (none, files)

end Construction

/-! ### Wrapping and unwrapping -/

section Wrapping

variable {E : Arithmetic} (C : Primitives) (A : Agreement)

/-- `elliptic.Marshal`, of a point that is on the curve. -/
def marshalPoint (c : Curve) (point : Nat × Nat) : Bytes :=
  4 :: (bigEndian c.byteLen point.1 ++ bigEndian c.byteLen point.2)

/-- `elliptic.Unmarshal`. -/
def unmarshalPoint (E : Arithmetic) (c : Curve) (data : Bytes) : Option (Nat × Nat) :=
  match data with
  | [] => none
  | first :: coordinates =>
    let point := (ofBigEndian (coordinates.take c.byteLen), ofBigEndian (coordinates.drop c.byteLen))
    if first = 4 ∧ coordinates.length = 2 * c.byteLen ∧ E.onCurve c point then some point else none

/-- `big.Int.Bytes` of a coordinate: no zero bytes in front. -/
def coordinateBytes (c : Curve) (x : Nat) : Bytes := (bigEndian c.byteLen x).dropWhile (· = 0)

def deriveSymmetricKey (c : Curve) (sharedX : Nat) (ephemeralPub : Nat × Nat) : Bytes :=
  A.hkdf (coordinateBytes c sharedX) (marshalPoint c ephemeralPub)

/-- The random values of a wrapping. -/
structure WrapDraws (E : Arithmetic) where
  ephemeral : Curve → Except Bytes Nat
  drawn : ∀ c d, ephemeral c = .ok d → E.scalar c d = true
  nonce : Except Bytes Bytes
  keyID : Bytes

/-- ECIES on the curve of the service. `none` is a panic: `ScalarMult` takes no
point that is not on its curve. -/
def encryptDEKWithPublicKey (k : KeyGenService E) (draws : WrapDraws E) (dek : Bytes) :
    Option (Except Bytes EncryptedDEK) :=
  match draws.ephemeral k.curve with
  | .error e => some (.error (str "failed to generate ephemeral key: " ++ e))
  | .ok d =>
    if E.onCurve k.curve k.encryptPublicKey.point = false then none
    else
      let ephemeralPub := E.scalarBaseMult k.curve d
      let sharedX := (E.scalarMult k.curve k.encryptPublicKey.point d).1
      let symKey := deriveSymmetricKey A k.curve sharedX ephemeralPub
      some do
        wrap "failed to create cipher" (newCipher symKey)
        let nonce ← wrap "failed to generate nonce" draws.nonce
        return ⟨marshalPoint k.curve ephemeralPub ++ nonce ++ C.gcmSeal symKey nonce dek,
          str "ECIES-P256-AES-256-GCM", draws.keyID, 1⟩

/-- The length of a point of P-256. -/
def pubKeyLen : Nat := 65

def nonceLen : Nat := 12

def decryptDEKWithPrivateKey (k : KeyUnwrapService E) (encryptedKey : Bytes) : Except Bytes Bytes :=
  if encryptedKey.length < pubKeyLen then .error (str "invalid encrypted key format: too short")
  else
    match unmarshalPoint E k.curve (encryptedKey.take pubKeyLen) with
    | none => .error (str "failed to parse ephemeral public key")
    | some ephemeralPub =>
      let sharedX := (E.scalarMult k.curve ephemeralPub k.decryptPrivKey.d).1
      let symKey := deriveSymmetricKey A k.curve sharedX ephemeralPub
      if encryptedKey.length < pubKeyLen + nonceLen then .error (str "invalid encrypted key format: missing nonce")
      else do
        let nonce := (encryptedKey.drop pubKeyLen).take nonceLen
        let ciphertext := encryptedKey.drop (pubKeyLen + nonceLen)
        wrap "failed to create cipher" (newCipher symKey)
        match C.gcmOpen symKey nonce ciphertext with
        | some dek => return dek
        | none => .error (str "failed to decrypt DEK: cipher: message authentication failed")

end Wrapping

/-! ### Requests -/

/-- What a request says of itself. The services only write it to their logs. -/
structure Claimed where
  (tokenID userID bucket objectKey : Bytes)
  deriving DecidableEq, Repr

/-- The random values of the session with the client. -/
structure SessionDraws where
  (priv nonce : Except Bytes Bytes)

section Requests

variable {E : Arithmetic} (C : Primitives) (A : Agreement)

/-- The second half of both operations: the data key is encrypted for the
client. -/
def encryptForClient (draws : SessionDraws) (dek : Bytes) (clientECDHPub : ECDHPublicKey) :
    Except Bytes (ECDHEncryptedDEK × ECDHPublicKey) := do
  let ephemeralPriv ← wrap "failed to generate ephemeral ECDH key" draws.priv
  let clientPub ← wrap "failed to parse client ECDH public key" (A.newPublicKey clientECDHPub.publicKey)
  let sharedSecret ← wrap "failed to derive shared secret" (A.ecdh ephemeralPriv clientPub)
  let sessionKey := A.hkdf sharedSecret (A.publicKey ephemeralPriv ++ clientPub)
  let ecdhEncryptedDEK ← wrap "failed to encrypt DEK with session key" do
    wrap "failed to create cipher" (newCipher sessionKey)
    let nonce ← wrap "failed to generate nonce" draws.nonce
    return ⟨C.gcmSeal sessionKey nonce dek, nonce⟩
  return (ecdhEncryptedDEK, ⟨A.publicKey ephemeralPriv, str "P-256"⟩)

/-- `none` is a panic. -/
def generateDataKey (k : KeyGenService E) (dek : Except Bytes Bytes) (wrapping : WrapDraws E) (session : SessionDraws)
    (_claimed : Claimed) (clientECDHPub : ECDHPublicKey) :
    Option (Except Bytes (EncryptedDEK × ECDHEncryptedDEK × ECDHPublicKey)) :=
  match dek with
  | .error e => some (.error (str "failed to generate DEK: " ++ e))
  | .ok dek =>
    (encryptDEKWithPublicKey C A k wrapping dek).map fun encrypted => do
      let encryptedDEK ← wrap "failed to encrypt DEK with public key" encrypted
      let released ← encryptForClient C A session dek clientECDHPub
      return (encryptedDEK, released)

def unwrapKey (k : KeyUnwrapService E) (session : SessionDraws) (_claimed : Claimed) (encryptedDEK : EncryptedDEK)
    (clientECDHPub : ECDHPublicKey) : Except Bytes (ECDHEncryptedDEK × ECDHPublicKey) := do
  let dek ← wrap "failed to decrypt DEK" (decryptDEKWithPrivateKey C A k encryptedDEK.encryptedKey)
  encryptForClient C A session dek clientECDHPub

end Requests

end CipherLake.KeyServices
