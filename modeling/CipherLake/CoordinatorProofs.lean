import CipherLake.Coordinator
import CipherLake.StreamCipherProofs

/-! Which key the stored bytes are sealed under. The coordinator's readers are
consumed after the call that built them has returned, so what counts is the
content of the key buffer after that call's clean-up. -/
namespace CipherLake.Coordinator
open Lib StreamCipher List

/-- The data key that `EncryptOperation` unwraps from the answers of the
services. -/
def unwrappedDEK (C : Primitives) (A : Agreement) (S : Services κ) (draws : Draws)
    (userID bucket objectKey : Bytes) : Except Bytes Bytes := do
  let priv ← draws.clientECDHPriv
  let tokenID ← S.issueWriteToken userID bucket objectKey 30
  let (_, wrapped, servicePub) ←
    S.generateDataKey tokenID userID bucket objectKey ⟨A.publicKey priv, str "P-256"⟩
  let sessionKey ← deriveSessionKey A priv servicePub
  unwrapDEK C wrapped sessionKey

theorem wrap_ok {text : String} {answer : Except Bytes α} {value : α} :
    wrap text answer = .ok value ↔ answer = .ok value := by
  cases answer <;> simp [wrap]

theorem bind_ok {answer : Except Bytes α} {next : α → Except Bytes β} {result : β}
    (success : (answer >>= next) = .ok result) : ∃ value, answer = .ok value ∧ next value = .ok result := by
  cases answer with
  | error e => cases success
  | ok value => exact ⟨value, rfl, success⟩

section Streams

variable {κ σ : Type} {C : Primitives} {A : Agreement} {S : Services κ} {draws : Draws} {w w' : World κ}
  {plaintext : σ} {objectSize : Int} {enc : Encrypted σ} {key nonce : Bytes}

/-- A successful last step leaves the reader holding a cleared buffer. -/
theorem streamUnderDEK_ok {priv keyID : Bytes} {wrapped : ECDHEncryptedDEK} {servicePub : ECDHPublicKey}
    (success : streamUnderDEK C A draws w priv keyID wrapped servicePub plaintext objectSize = (.ok enc, w')) :
    ∃ sessionKey dek nonce slice, deriveSessionKey A priv servicePub = .ok sessionKey ∧
      unwrapDEK C wrapped sessionKey = .ok dek ∧ draws.nonce = .ok nonce ∧
      enc = ⟨newStreamingEncryptReader plaintext slice nonce, keyID,
        envelopeMetadataVersion :: nonce, envelopeCiphertextSize objectSize⟩ ∧
      w'.heap.load slice = replicate dek.length 0 := by
  unfold streamUnderDEK at success
  split at success
  · cases success
  rename_i sessionKey derived
  simp only at success
  split at success
  · cases success
  rename_i dek unwrapped
  split at success
  · cases success
  rename_i nonce drawn
  obtain ⟨rfl, rfl⟩ := success
  refine ⟨sessionKey, dek, nonce, _, wrap_ok.mp derived, wrap_ok.mp unwrapped, wrap_ok.mp drawn, rfl, ?_⟩
  -- the session key's buffer is the older of the two
  have apart : (w.heap.alloc sessionKey).1 ≠ ((w.heap.alloc sessionKey).2.alloc dek).1 := by
    simp [Heap.alloc]
  rw [Heap.load_zero_ne _ apart, Heap.load_zero, Heap.load_alloc]

/-- What a successful `EncryptOperation` hands out. -/
theorem encryptOperation_ok {userID bucket objectKey : Bytes}
    (success : encryptOperation C A S draws w userID bucket objectKey plaintext objectSize = (.ok enc, w')) :
    ∃ dek nonce slice, unwrappedDEK C A S draws userID bucket objectKey = .ok dek ∧
      draws.nonce = .ok nonce ∧ enc.reader = newStreamingEncryptReader plaintext slice nonce ∧
      enc.ciphertextSize = envelopeCiphertextSize objectSize ∧ w'.heap.load slice = replicate dek.length 0 := by
  unfold encryptOperation at success
  split at success
  · cases success
  split at success
  · cases success
  rename_i priv drawn
  split at success
  · cases success
  rename_i tokenID issued
  split at success
  · cases success
  rename_i encryptedDEK wrapped servicePub generated
  simp only at success
  split at success
  · cases success
  obtain ⟨_, dek, nonce, slice, derived, unwrapped, fresh, rfl, cleared⟩ :=
    streamUnderDEK_ok success
  refine ⟨dek, nonce, slice, ?_, fresh, rfl, rfl, cleared⟩
  rw [wrap_ok] at drawn issued generated
  simp [unwrappedDEK, drawn, issued, generated, derived, unwrapped, bind, Except.bind]

/-- What a successful upload under a customer key stores. -/
theorem putWithClientKey_ok {keyBytes : Bytes} {contentLength : Int}
    (success : putWithClientKey draws w plaintext keyBytes contentLength = (.ok enc, w')) :
    ∃ nonce slice, keyBytes.length = 32 ∧ draws.nonce = .ok nonce ∧
      enc.reader = newStreamingEncryptReader plaintext slice nonce ∧
      enc.ciphertextSize = clientKeyCiphertextSize contentLength ∧
      w'.heap.load slice = replicate keyBytes.length 0 := by
  simp only [putWithClientKey, encryptWithClientKey, Heap.load_alloc] at success
  by_cases size : keyBytes.length = 32
  · cases drawn : draws.nonce with
    | error e => simp [size, drawn, wrap] at success
    | ok nonce =>
      simp only [size, drawn, wrap, ne_eq, not_true, if_false, Prod.mk.injEq, Except.ok.injEq] at success
      obtain ⟨rfl, rfl⟩ := success
      exact ⟨nonce, _, size, rfl, rfl, rfl, by simp⟩
  · simp [size] at success

/-! ### The key of the stored bytes -/

/-- HMAC separates 32-byte keys. -/
def HmacInjective (C : Primitives) : Prop :=
  ∀ key key' message, key.length = 32 → key'.length = 32 →
    C.hmac key message = C.hmac key' message → key = key'

theorem deriveChunkKey_injective (ideal : HmacInjective C) {key' : Bytes} (nonce : Bytes) (chunkIdx : UInt32)
    (size : key.length = 32) (size' : key'.length = 32)
    (same : deriveChunkKey C key nonce chunkIdx = deriveChunkKey C key' nonce chunkIdx) : key = key' := by
  have extracted := ideal _ _ _ (C.hmac_length key nonce) (C.hmac_length key' nonce) same
  exact ideal _ _ _ size size' extracted

/-- Reads the returned stream after the call, with the buffers as the call
left them. -/
def consumed (C : Primitives) (R : Reader σ) (answer : Except Bytes (Encrypted σ) × World κ)
    (sizes : List Nat) : Option (Answer × StreamingEncryptReader σ) :=
  match answer.1 with
  | .error _ => none
  | .ok enc => some ((encryptReader C answer.2.heap R).reads enc.reader sizes)

/-- Enough reads, none of them empty, to reach the end of the stream. -/
def Exhausts (C : Primitives) (R : Reader σ) (plaintext : σ) (sizes : List Nat) : Prop :=
  (∀ n ∈ sizes, 0 < n) ∧
    (encryptReader C ⟨[]⟩ R).left (newStreamingEncryptReader plaintext 0 []) < sizes.length

/-- The stream is the complete framing of the plaintext, and every chunk of it
was sealed under the chunk key derived from `key`. -/
def SealedUnder (C : Primitives) (key nonce data : Bytes)
    (stream : Option (Answer × StreamingEncryptReader σ)) : Prop :=
  ∃ out, stream = some out ∧
    out.1 = ⟨framing C (sealsFrom C key nonce 0 data), some .eof⟩ ∧
    out.2.inner.sealed = (sealsFrom C key nonce 0 data).map Prod.fst

/-- The chunk keys a consumed stream was sealed under. -/
def chunkKeys (stream : Option (Answer × StreamingEncryptReader σ)) : List Bytes :=
  (stream.map fun out => out.2.inner.sealed.map SealCall.key).getD []

/-- The first chunk of every plaintext, also of the empty one, has the key
derived for index zero. -/
theorem sealsFrom_first (C : Primitives) (key nonce data : Bytes) :
    ∃ first rest, sealsFrom C key nonce 0 data = first :: rest ∧ first.1.key = deriveChunkKey C key nonce 0 := by
  rw [sealsFrom]
  split
  · exact ⟨_, _, rfl, rfl⟩
  · split <;> exact ⟨_, _, rfl, rfl⟩

theorem sealedUnder_iff (ideal : HmacInjective C) {key' data : Bytes} (size : key.length = 32)
    (size' : key'.length = 32) {stream : Option (Answer × StreamingEncryptReader σ)}
    (sealed : SealedUnder C key nonce data stream) : SealedUnder C key' nonce data stream ↔ key' = key := by
  constructor
  · rintro ⟨_, same, -, calls'⟩
    obtain ⟨_, rfl, -, calls⟩ := sealed
    cases same
    obtain ⟨_, _, shape, firstKey⟩ := sealsFrom_first C key nonce data
    obtain ⟨_, _, shape', firstKey'⟩ := sealsFrom_first C key' nonce data
    rw [calls, shape, shape', map_cons, map_cons, cons.injEq] at calls'
    apply deriveChunkKey_injective ideal nonce 0 size' size
    rw [← firstKey, ← firstKey', calls'.1]
  · rintro rfl
    exact sealed

variable {R : Reader σ} {I : σ → Bytes → Prop} {data : Bytes}

/-- Whatever was unwrapped, the stream is sealed under the zero key. -/
theorem envelope_stream (D : Reader.Delivers R I) (held : I plaintext data) {sizes : List Nat}
    (exhausts : Exhausts C R plaintext sizes) {userID bucket objectKey dek : Bytes} (drawn : draws.nonce = .ok nonce)
    (unwrapped : unwrappedDEK C A S draws userID bucket objectKey = .ok dek) (size : dek.length = 32)
    (success : (encryptOperation C A S draws w userID bucket objectKey plaintext objectSize).1 = .ok enc) :
    SealedUnder C (replicate 32 0) nonce data
      (consumed C R (encryptOperation C A S draws w userID bucket objectKey plaintext objectSize) sizes) := by
  generalize answer : encryptOperation C A S draws w userID bucket objectKey plaintext objectSize = out at *
  obtain ⟨_, w'⟩ := out
  subst success
  obtain ⟨_, _, slice, unwrapped', drawn', reader, -, cleared⟩ := encryptOperation_ok answer
  rw [unwrapped] at unwrapped'
  rw [drawn] at drawn'
  cases unwrapped'
  cases drawn'
  rw [size] at cleared
  have stream := encrypted_stream (C := C) (h := w'.heap) D held slice nonce sizes exhausts.1 exhausts.2
  rw [cleared] at stream
  exact ⟨_, rfl, by simpa only [consumed, reader] using stream⟩

/-- So is the stream stored under a customer key. -/
theorem client_key_stream (D : Reader.Delivers R I) (held : I plaintext data) {sizes : List Nat}
    (exhausts : Exhausts C R plaintext sizes) (w : World κ) {keyBytes : Bytes} (contentLength : Int)
    (drawn : draws.nonce = .ok nonce) (size : keyBytes.length = 32) :
    SealedUnder C (replicate 32 0) nonce data
      (consumed C R (putWithClientKey draws w plaintext keyBytes contentLength) sizes) := by
  generalize answer : putWithClientKey draws w plaintext keyBytes contentLength = out
  obtain ⟨result, w'⟩ := out
  cases result with
  | error e => simp [putWithClientKey, encryptWithClientKey, size, drawn, wrap] at answer
  | ok enc =>
    obtain ⟨_, slice, -, drawn', reader, -, cleared⟩ := putWithClientKey_ok answer
    rw [drawn] at drawn'
    cases drawn'
    rw [size] at cleared
    have stream := encrypted_stream (C := C) (h := w'.heap) D held slice nonce sizes exhausts.1 exhausts.2
    rw [cleared] at stream
    exact ⟨_, rfl, by simpa only [consumed, reader] using stream⟩

theorem chunkKeys_of_sealed {stream stream' : Option (Answer × StreamingEncryptReader σ)}
    (sealed : SealedUnder C key nonce data stream) (sealed' : SealedUnder C key nonce data stream') :
    chunkKeys stream = chunkKeys stream' := by
  obtain ⟨_, rfl, -, calls⟩ := sealed
  obtain ⟨_, rfl, -, calls'⟩ := sealed'
  simp [chunkKeys, calls, calls']

/-- The stream of `EncryptOperation` is sealed under the unwrapped data key
exactly when that key is all zero, and the stream stored for a customer key
exactly when the customer key is. Two uploads never differ in their chunk keys,
whatever their data keys or customer keys are. -/
theorem sealed_under_key_iff_zero (ideal : HmacInjective C) (D : Reader.Delivers R I) {plaintext : σ}
    (held : I plaintext data) {sizes : List Nat} (exhausts : Exhausts C R plaintext sizes)
    (S' : Services κ) (w w' : World κ) {userID bucket objectKey nonce dek dek' : Bytes} {objectSize : Int}
    {enc enc' : Encrypted σ} (drawn : draws.nonce = .ok nonce)
    (unwrapped : unwrappedDEK C A S draws userID bucket objectKey = .ok dek) (size : dek.length = 32)
    (success : (encryptOperation C A S draws w userID bucket objectKey plaintext objectSize).1 = .ok enc)
    (unwrapped' : unwrappedDEK C A S' draws userID bucket objectKey = .ok dek') (size' : dek'.length = 32)
    (success' : (encryptOperation C A S' draws w' userID bucket objectKey plaintext objectSize).1 = .ok enc')
    {clientKey clientKey' : Bytes} (clientSize : clientKey.length = 32)
    (clientSize' : clientKey'.length = 32) :
    let stream :=
      consumed C R (encryptOperation C A S draws w userID bucket objectKey plaintext objectSize) sizes
    let stream' :=
      consumed C R (encryptOperation C A S' draws w' userID bucket objectKey plaintext objectSize) sizes
    let stored := fun key => consumed C R (putWithClientKey draws w plaintext key objectSize) sizes
    (SealedUnder C dek nonce data stream ↔ dek = replicate 32 0) ∧
      (SealedUnder C clientKey nonce data (stored clientKey) ↔ clientKey = replicate 32 0) ∧
      chunkKeys stream = chunkKeys stream' ∧
      chunkKeys (stored clientKey) = chunkKeys (stored clientKey') := by
  intro stream stream' stored
  have zeroed := envelope_stream D held exhausts drawn unwrapped size success
  have zeroed' := envelope_stream D held exhausts drawn unwrapped' size' success'
  have keyed := client_key_stream D held exhausts w objectSize drawn clientSize
  have keyed' := client_key_stream D held exhausts w objectSize drawn clientSize'
  exact ⟨sealedUnder_iff ideal (by simp) size zeroed, sealedUnder_iff ideal (by simp) clientSize keyed,
    chunkKeys_of_sealed zeroed zeroed', chunkKeys_of_sealed keyed keyed'⟩

end Streams

/-! ### Real values for one upload

The curve, HKDF, HMAC-SHA256 and AES-256-GCM at the points that uploads of the
two bytes `hi` under two data keys and two customer keys reach. -/

namespace Sample

def clientPriv : Bytes :=
  bigEndian 32 0x948fe603f61dc036b5c596dc09fe3ce3f3d30dc90f024c85f3c82db2ccab679d
def clientPub : Bytes :=
  bigEndian 65 0x049ab6ac78e58ffb25f770c0de03372b995eb9f721a1c0124abedd5ef026154f0df2c71661a72601a6e887075bb9062cb2c2a6bd492b4e4e96ba58064fe7cda64e
def sessionPriv : Bytes :=
  bigEndian 32 0x3f3af1ecebbd1410ab417ec0d27bbfcb5d340e177ae159b59fc8626c2dfd9175
def sessionPub : Bytes :=
  bigEndian 65 0x04654df42935d26394da1c40d432378be4f2c1722ef6446894c2dac984e3db2a154eb35e1d06b9dbd15a8c1420d2d61c1265b5e5993eabab93829a052dbdb1b735
def wrapPriv : Bytes :=
  bigEndian 32 0xf0a289923ed634acec748941a7fab6a057e5d4a5cb29e5e2b6136d639897c74a
def wrapPub : Bytes :=
  bigEndian 65 0x04054be6e11b51e4fe21a400cdbdc73331007870214c568e0e215169ba0f85ab81df374f30b4ef3e64ada1bd05041e27bae8012fdcf9e91dedd02cbdaa4d8f4e55
def sharedSecret : Bytes :=
  bigEndian 32 0x436c0a31eb582f760a9d22bf3eb95ad91e51ec3b552f6b2c4b54c5ec6d5e84b8
def sessionKey : Bytes :=
  bigEndian 32 0x95bb97efb5a77b386a65be2595ae4137a6ec43db688eb78c78fa3d90928f18cb
def wrapSecret : Bytes :=
  bigEndian 32 0x1d3cf5f92e56362cbedd0aad8d7870c5fa806d380862ab273fea6e710a22053c
def wrapKey : Bytes :=
  bigEndian 32 0xaf9239886deb4d37c1cfc06c2268ef91d24e20604dde0cf1998f4d1572a04b23
def nonce : Bytes := bigEndian 12 0x78377b525757b494427f8901
def sessionNonce : Bytes := bigEndian 12 0x8320afe4786b1bdfe350c64a
def wrapNonce : Bytes := bigEndian 12 0xf40461f9df9bd2941906e0be
def firstDEK : Bytes :=
  bigEndian 32 0xd011012bfb6137c05d2d77dfdeefd026bc6a8155f6f1a414e87bfe627436021f
def secondDEK : Bytes :=
  bigEndian 32 0x39b6d638d1a568ba7b877aa4ab107afd1eb6348bf368d3601ef61d37d94bdb1d
def firstClientKey : Bytes :=
  bigEndian 32 0xf1f5152f0f35a24f27e323e32ea1b9f02ce2ed1a425d7ed5226e573604f99e5f
def secondClientKey : Bytes :=
  bigEndian 32 0xd3376321c0fa0e867fed3df351d8b9c3e146cc0894015cff03baedaa712c1211
def zeroKey : Bytes := replicate 32 0
def chunkKeyOfZero : Bytes :=
  bigEndian 32 0x82161b580028ab1aa4b9c435f2531360c6306dd23bf9bc312a7306299f29ffba

/-- The message of the second HMAC step for the first chunk. -/
def expandInfo : Bytes := nonce ++ [0, 0, 0, 0, 1]

def vectors : Vectors where
  hmacs := [
    (nonce, zeroKey,
      bigEndian 32 0x2e3de0172ce5cdd3709d9f57ef79e693a22e265f84382d8ebaf35f5c1bd8baab),
    (expandInfo, bigEndian 32 0x2e3de0172ce5cdd3709d9f57ef79e693a22e265f84382d8ebaf35f5c1bd8baab,
      chunkKeyOfZero),
    (nonce, firstDEK,
      bigEndian 32 0x9281c59a19efa28aa368944a1c88052a205d219c24469f010429305367499849),
    (expandInfo, bigEndian 32 0x9281c59a19efa28aa368944a1c88052a205d219c24469f010429305367499849,
      bigEndian 32 0xd343b76b855c889da872ac09147e8bdc804b59e27bc5a4f5baf8c8faccccdca7),
    (nonce, secondDEK,
      bigEndian 32 0xedf0e5ff4181c8f7a2cb9fea4f1dac9a7aebbbc568bb25dc98f5f4d5f38cdede),
    (expandInfo, bigEndian 32 0xedf0e5ff4181c8f7a2cb9fea4f1dac9a7aebbbc568bb25dc98f5f4d5f38cdede,
      bigEndian 32 0x33b55c044daf5d5d03e10f696f1aea9e26dda50ff1a3433be11606b516806a5f),
    (nonce, firstClientKey,
      bigEndian 32 0x461e1212e003ea79ac9a5049caaffde0c9e3db27eabca23b9557e8c02efa060c),
    (expandInfo, bigEndian 32 0x461e1212e003ea79ac9a5049caaffde0c9e3db27eabca23b9557e8c02efa060c,
      bigEndian 32 0x71a5745aa0725f12486ffcb7f141c7702ae26caa0537bc9a6fe10de3c29eaf04),
    (nonce, secondClientKey,
      bigEndian 32 0xc2ffcc69794be5a252deffb3c445593ca0d60e4157f7c9bc30842213fa9bdbb9),
    (expandInfo, bigEndian 32 0xc2ffcc69794be5a252deffb3c445593ca0d60e4157f7c9bc30842213fa9bdbb9,
      bigEndian 32 0x6ba03fdb47d7fa48b27ea2fdafab156d11b8193c9b04b41c58874f7b1429f1e8)]
  seals := [
    (sessionKey, sessionNonce, firstDEK,
      bigEndian 48 0xba3be220515fb8b469c77770aa8a1431dba3319fc65a102fc493b3e3d3b6c8aa759da66c6c2115d6eaa48b0e69d0224c),
    (wrapKey, wrapNonce, firstDEK,
      bigEndian 48 0x4b3cec1a641c9686bdbabc81d135be0b48ae4df0a7a1bef547941660b31faa9bce8a8f5bfa7638d7947592353c4c5b51),
    (sessionKey, sessionNonce, secondDEK,
      bigEndian 48 0x539c35337b9be7ce4f6d7a0bdf75beea797f8441c3c3675b321e50b67ecb11a806211271317988e3d1400c8d744513ea),
    (wrapKey, wrapNonce, secondDEK,
      bigEndian 48 0xa29b3b094ed8c9fc9b10b1faa4ca14d0ea72f82ea238c981b119f5351e6273996c584f1171c8d2a8b6b733d78f50754b),
    (chunkKeyOfZero, nonce, str "hi", bigEndian 18 0x53613269305d210f8085c0150ecb4b64c337)]
  hmacs_fit := by decide
  seals_fit := by decide

def curve : Agreement where
  publicKey priv :=
    if priv = clientPriv then clientPub else if priv = sessionPriv then sessionPub
    else if priv = wrapPriv then wrapPub else []
  newPublicKey encoded :=
    if encoded = clientPub ∨ encoded = sessionPub ∨ encoded = wrapPub then .ok encoded
    else .error (str "crypto/ecdh: invalid public key")
  ecdh priv pub :=
    if (priv, pub) = (clientPriv, sessionPub) ∨ (priv, pub) = (sessionPriv, clientPub) then
      .ok sharedSecret
    else .error (str "crypto/ecdh: invalid private key")
  hkdf secret info :=
    if (secret, info) = (sharedSecret, sessionPub ++ clientPub) then sessionKey
    else if (secret, info) = (wrapSecret, wrapPub) then wrapKey else zeroKey

def draws : Draws := ⟨.ok clientPriv, .ok nonce⟩

/-- The local key service drawing the given data key, and a key store that
keeps one entry per object. -/
def services (dek : Bytes) : Services (List (Bytes × EncryptedDEK)) where
  opaClient := none
  issueWriteToken _ _ _ _ := .ok (str "token")
  issueReadToken _ _ _ _ _ := .ok (str "token")
  generateDataKey _ _ _ _ :=
    generateDataKey vectors.primitives curve (fun _ => wrapSecret)
      ⟨.ok dek, .ok wrapPriv, .ok wrapNonce, str "key", .ok sessionPriv, .ok sessionNonce⟩
  unwrapKey _ _ _ _ _ _ := .error (str "not used")
  storeKey store bucket objectKey encryptedDEK _ :=
    (.ok encryptedDEK.keyID, (bucket ++ str "/" ++ objectKey, encryptedDEK) :: store)
  getKey store bucket objectKey :=
    match store.find? (·.1 = bucket ++ str "/" ++ objectKey) with
    | some (_, encryptedDEK) => .ok encryptedDEK
    | none => .error (str "key not found")

def emptyWorld : World (List (Bytes × EncryptedDEK)) := ⟨⟨[]⟩, []⟩

def body : Segments := ⟨[str "hi"], false⟩

/-- One upload through `EncryptOperation`. -/
def upload (dek : Bytes) : Except Bytes (Encrypted Segments) × World (List (Bytes × EncryptedDEK)) :=
  encryptOperation vectors.primitives curve (services dek) draws emptyWorld (str "u") (str "b") (str "k")
    body 2

def clientUpload (key : Bytes) : Except Bytes (Encrypted Segments) × World (List (Bytes × EncryptedDEK)) :=
  putWithClientKey draws emptyWorld body key 2

end Sample

open Sample

/-- Uploads under two data keys, neither of them zero, and under a customer
key use one chunk key: the one derived from the zero key. -/
theorem sealed_under_zero_key_instead :
    let C := vectors.primitives
    let keysOf := fun answer => chunkKeys (consumed C Segments.reader answer [64, 64])
    unwrappedDEK C curve (services firstDEK) draws (str "u") (str "b") (str "k") = .ok firstDEK ∧
      keysOf (upload firstDEK) = [deriveChunkKey C zeroKey nonce 0] ∧
      keysOf (upload secondDEK) = [deriveChunkKey C zeroKey nonce 0] ∧
      keysOf (clientUpload firstClientKey) = [deriveChunkKey C zeroKey nonce 0] ∧
      deriveChunkKey C firstDEK nonce 0 ≠ deriveChunkKey C zeroKey nonce 0 ∧
      deriveChunkKey C firstClientKey nonce 0 ≠ deriveChunkKey C zeroKey nonce 0 := by
  decide +kernel

/-- Reads of one byte each, more than the stream can have. -/
theorem sample_exhausts : Exhausts vectors.primitives Segments.reader body (replicate 200000 1) := by
  refine ⟨fun n member => by rw [eq_of_mem_replicate member]; exact Nat.one_pos, ?_⟩
  rw [length_replicate]
  decide +kernel

theorem sealed_under_key_iff_zero_sample :
    let C := vectors.primitives
    let sizes := replicate 200000 1
    let stream := consumed C Segments.reader (upload firstDEK) sizes
    let stream' := consumed C Segments.reader (upload secondDEK) sizes
    let stored := fun key => consumed C Segments.reader (clientUpload key) sizes
    (SealedUnder C firstDEK nonce (str "hi") stream ↔ firstDEK = replicate 32 0) ∧
      (SealedUnder C firstClientKey nonce (str "hi") (stored firstClientKey) ↔ firstClientKey = replicate 32 0) ∧
      chunkKeys stream = chunkKeys stream' ∧
      chunkKeys (stored firstClientKey) = chunkKeys (stored secondClientKey) := by
  have uploaded (dek : Bytes) (fixed : dek = firstDEK ∨ dek = secondDEK) :
      unwrappedDEK vectors.primitives curve (services dek) draws (str "u")
        (str "b") (str "k") = .ok dek ∧ ∃ enc, (upload dek).1 = .ok enc := by
    rcases fixed with rfl | rfl <;> exact ⟨by decide +kernel, _, rfl⟩
  obtain ⟨unwrapped, enc, success⟩ := uploaded _ (Or.inl rfl)
  obtain ⟨unwrapped', enc', success'⟩ := uploaded _ (Or.inr rfl)
  exact sealed_under_key_iff_zero vectors.hmac_injective Segments.delivers (by rfl) sample_exhausts
    (services secondDEK) emptyWorld emptyWorld rfl unwrapped (by decide)
    success unwrapped' (by decide) success' (by decide) (by decide)

end CipherLake.Coordinator
