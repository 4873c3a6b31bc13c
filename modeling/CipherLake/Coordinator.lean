import CipherLake.StreamCipher

/-! `EncryptionCoordinator`: the envelope and the client-key encryption of one
object. The services it calls are reached through interfaces, so they are
parameters here. Key material lives in the heap, because the coordinator hands
out readers that share its buffers and clears these buffers when it returns. -/
namespace CipherLake.Coordinator
open Lib StreamCipher

structure EncryptedDEK where
  (encryptedKey algorithm keyID : Bytes)
  keyVersion : Int
  deriving DecidableEq, Repr

structure ECDHEncryptedDEK where
  (ciphertext nonce : Bytes)
  deriving DecidableEq, Repr

structure ECDHPublicKey where
  (publicKey curve : Bytes)
  deriving DecidableEq, Repr

/-- What the policy service is asked. -/
structure AccessQuery where
  (userID bucket key : Bytes)
  size : Int
  (type operation : Bytes)
  deriving DecidableEq, Repr

/-- P-256 and HKDF-SHA256. A private key is known by its bytes. -/
structure Agreement where
  publicKey (priv : Bytes) : Bytes
  newPublicKey (encoded : Bytes) : Except Bytes Bytes
  ecdh (priv pub : Bytes) : Except Bytes Bytes
  hkdf (secret info : Bytes) : Bytes

/-- The services behind the coordinator, over a key-store state `κ`. The
policy client is optional. -/
structure Services (κ : Type) where
  opaClient : Option (AccessQuery → Except Bytes Bool)
  issueWriteToken (userID bucket objectKey : Bytes) (ttlSeconds : Nat) : Except Bytes Bytes
  issueReadToken (userID bucket objectKey contentHash : Bytes) (ttlSeconds : Nat) : Except Bytes Bytes
  generateDataKey (tokenID userID bucket objectKey : Bytes) (clientECDHPub : ECDHPublicKey) :
    Except Bytes (EncryptedDEK × ECDHEncryptedDEK × ECDHPublicKey)
  unwrapKey (tokenID userID bucket objectKey : Bytes) (encryptedDEK : EncryptedDEK)
    (clientECDHPub : ECDHPublicKey) : Except Bytes (ECDHEncryptedDEK × ECDHPublicKey)
  storeKey (store : κ) (bucket objectKey : Bytes) (encryptedDEK : EncryptedDEK) (objectSize : Int) :
    Except Bytes Bytes × κ
  getKey (store : κ) (bucket objectKey : Bytes) : Except Bytes EncryptedDEK

/-- The buffers and the key store. -/
structure World (κ : Type) where
  heap : Heap
  keys : κ
  deriving DecidableEq, Repr

/-- What the system's random source hands to one operation. -/
structure Draws where
  (clientECDHPriv nonce : Except Bytes Bytes)

/-- `fmt.Errorf("…: %w", err)`. -/
def wrap (text : String) : Except Bytes α → Except Bytes α
  | .ok value => .ok value
  | .error e => .error (str text ++ str ": " ++ e)

def evaluateAccess (S : Services κ) (query : AccessQuery) : Except Bytes Unit :=
  match S.opaClient with
  | none => .ok ()
  | some opa =>
    match wrap "policy evaluation failed" (opa query) with
    | .error e => .error e
    | .ok false => .error (str "access denied by policy")
    | .ok true => .ok ()

variable (C : Primitives) (A : Agreement)

def deriveSessionKey (clientECDHPriv : Bytes) (serviceECDHPub : ECDHPublicKey) : Except Bytes Bytes := do
  let servicePub ← wrap "failed to parse service ECDH public key"
    (A.newPublicKey serviceECDHPub.publicKey)
  let sharedSecret ← wrap "failed to derive shared secret" (A.ecdh clientECDHPriv servicePub)
  return A.hkdf sharedSecret (servicePub ++ A.publicKey clientECDHPriv)

def unwrapDEK (wrapped : ECDHEncryptedDEK) (sessionKey : Bytes) : Except Bytes Bytes := do
  wrap "failed to create cipher" (newCipher sessionKey)
  match C.gcmOpen sessionKey wrapped.nonce wrapped.ciphertext with
  | some dek => return dek
  | none => .error (str "failed to decrypt DEK: cipher: message authentication failed")

/-! ### The local key generation service -/

/-- The random values of one `GenerateDataKey`. -/
structure KeyGenDraws where
  (dek wrapPriv wrapNonce : Except Bytes Bytes)
  keyID : Bytes
  (sessionPriv sessionNonce : Except Bytes Bytes)

/-- ECIES: the ephemeral public key, the nonce and the sealed key in a row.
`sharedX` is the bare scalar multiplication with the long-term public key. -/
def encryptDEKWithPublicKey (sharedX : Bytes → Bytes)
    (draws : KeyGenDraws) (dek : Bytes) : Except Bytes EncryptedDEK := do
  let priv ← wrap "failed to generate ephemeral key" draws.wrapPriv
  let symKey := A.hkdf (sharedX priv) (A.publicKey priv)
  wrap "failed to create cipher" (newCipher symKey)
  let nonce ← wrap "failed to generate nonce" draws.wrapNonce
  return ⟨A.publicKey priv ++ nonce ++ C.gcmSeal symKey nonce dek, str "ECIES-P256-AES-256-GCM",
    draws.keyID, 1⟩

def encryptDEKWithSessionKey (draws : KeyGenDraws) (dek sessionKey : Bytes) : Except Bytes ECDHEncryptedDEK := do
  wrap "failed to create cipher" (newCipher sessionKey)
  let nonce ← wrap "failed to generate nonce" draws.sessionNonce
  return ⟨C.gcmSeal sessionKey nonce dek, nonce⟩

def generateDataKey (sharedX : Bytes → Bytes) (draws : KeyGenDraws) (clientECDHPub : ECDHPublicKey) :
    Except Bytes (EncryptedDEK × ECDHEncryptedDEK × ECDHPublicKey) := do
  let dek ← wrap "failed to generate DEK" draws.dek
  let encryptedDEK ← wrap "failed to encrypt DEK with public key"
    (encryptDEKWithPublicKey C A sharedX draws dek)
  let ephemeralPriv ← wrap "failed to generate ephemeral ECDH key" draws.sessionPriv
  let clientPub ← wrap "failed to parse client ECDH public key"
    (A.newPublicKey clientECDHPub.publicKey)
  let sharedSecret ← wrap "failed to derive shared secret" (A.ecdh ephemeralPriv clientPub)
  let sessionKey := A.hkdf sharedSecret (A.publicKey ephemeralPriv ++ clientPub)
  let ecdhEncryptedDEK ← wrap "failed to encrypt DEK with session key"
    (encryptDEKWithSessionKey C draws dek sessionKey)
  return (encryptedDEK, ecdhEncryptedDEK, ⟨A.publicKey ephemeralPriv, str "P-256"⟩)

/-! ### Announced sizes -/

/-- `EncryptOperation`: the chunk count is an `int64`. -/
def envelopeCiphertextSize (objectSize : Int) : Int :=
  let numChunks := if objectSize > 0 then
    (int64 (objectSize + ssecChunkSize - 1)).tdiv ssecChunkSize else 1
  int64 (objectSize + int64 (numChunks * (ssecCiphertextLenSize + ssecAuthTagSize)))

/-- `EncryptWithClientKey`: the chunk count is a `uint32`. -/
def clientKeyCiphertextSize (objectSize : Int) : Int :=
  let numChunks := if objectSize > 0 then
    (int64 (objectSize + ssecChunkSize - 1)).tdiv ssecChunkSize % 2 ^ 32 else 1
  int64 (objectSize + int64 (numChunks * (ssecCiphertextLenSize + ssecAuthTagSize)))

/-! ### Operations -/

/-- The answer of `EncryptOperation`; `EncryptWithClientKey` has no key id. -/
structure Encrypted (σ : Type) where
  reader : StreamingEncryptReader σ
  (keyID metadata : Bytes)
  ciphertextSize : Int
  deriving DecidableEq, Repr

/-- Step 6 of `EncryptOperation`. The two deferred `clearBytes` run on every
return that follows the buffers' allocation, after the reader is built. -/
def streamUnderDEK (C : Primitives) (A : Agreement) (draws : Draws) (w : World κ) (priv keyID : Bytes)
    (wrapped : ECDHEncryptedDEK) (servicePub : ECDHPublicKey) (plaintext : σ) (objectSize : Int) :
    Except Bytes (Encrypted σ) × World κ :=
  match wrap "failed to derive session key" (deriveSessionKey A priv servicePub) with
  | .error e => (.error e, w)
  | .ok sessionBytes =>
    let (sessionKey, heap) := w.heap.alloc sessionBytes
    match wrap "failed to unwrap DEK" (unwrapDEK C wrapped sessionBytes) with
    | .error e => (.error e, { w with heap := heap.zero sessionKey })
    | .ok dekBytes =>
      let (dek, heap) := heap.alloc dekBytes
      let cleared := (heap.zero dek).zero sessionKey
      match wrap "failed to generate nonce" draws.nonce with
      | .error e => (.error e, { w with heap := cleared })
      | .ok nonce =>
        (.ok
          { reader := newStreamingEncryptReader plaintext dek nonce
            keyID
            metadata := envelopeMetadataVersion :: nonce
            ciphertextSize := envelopeCiphertextSize objectSize },
          { w with heap := cleared })

def encryptOperation (C : Primitives) (A : Agreement) (S : Services κ) (draws : Draws) (w : World κ)
    (userID bucket objectKey : Bytes) (plaintext : σ) (objectSize : Int) :
    Except Bytes (Encrypted σ) × World κ :=
  match evaluateAccess S ⟨userID, bucket, objectKey, objectSize, str "write", str "encrypt_object"⟩ with
  | .error e => (.error e, w)
  | .ok () =>
  match wrap "failed to generate client ECDH key" draws.clientECDHPriv with
  | .error e => (.error e, w)
  | .ok priv =>
  match wrap "failed to issue write token" (S.issueWriteToken userID bucket objectKey 30) with
  | .error e => (.error e, w)
  | .ok tokenID =>
  match wrap "failed to generate data key"
      (S.generateDataKey tokenID userID bucket objectKey ⟨A.publicKey priv, str "P-256"⟩) with
  | .error e => (.error e, w)
  | .ok (encryptedDEK, wrapped, servicePub) =>
    let (stored, keys) := S.storeKey w.keys bucket objectKey encryptedDEK objectSize
    match wrap "failed to store key" stored with
    | .error e => (.error e, { w with keys })
    | .ok keyID =>
      streamUnderDEK C A draws { w with keys } priv keyID wrapped servicePub plaintext objectSize

/-- The client key is used as the data key, in the caller's buffer. -/
def encryptWithClientKey (draws : Draws) (heap : Heap) (plaintext : σ) (clientKey : Slice)
    (objectSize : Int) : Except Bytes (Encrypted σ) :=
  if (heap.load clientKey).length ≠ 32 then
    .error (str "invalid client key size: expected 32 bytes, got " ++
      decimal (heap.load clientKey).length)
  else
    match wrap "failed to generate nonce" draws.nonce with
    | .error e => .error e
    | .ok nonce => .ok
        { reader := newStreamingEncryptReader plaintext clientKey nonce
          keyID := []
          metadata := nonce.take ssecNonceSize ++ putUint64 (UInt64.ofInt objectSize)
          ciphertextSize := clientKeyCiphertextSize objectSize }

/-- The customer-key branch of `handlePutObject`: the key buffer is cleared as
soon as the encrypting reader exists, before the store reads from it. -/
def putWithClientKey (draws : Draws) (w : World κ) (plaintext : σ) (keyBytes : Bytes)
    (contentLength : Int) : Except Bytes (Encrypted σ) × World κ :=
  let (clientKey, heap) := w.heap.alloc keyBytes
  let answer := encryptWithClientKey draws heap plaintext clientKey contentLength
  let w := { w with heap := heap.zero clientKey }
  match answer with
  | .error _ => (.error (str "SSE-C encryption failed"), w)
  | .ok encrypted => (.ok encrypted, w)

end CipherLake.Coordinator
