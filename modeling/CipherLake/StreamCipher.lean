import CipherLake.Lib.Buffered
import CipherLake.Lib.Exchange

/-! The chunked streaming encryption of `services/coordinator.go`. The two
readers hold a key slice, not key bytes: every chunk key is derived from what
the slice's buffer contains when the chunk is read. -/
namespace CipherLake.StreamCipher
open Lib List

def ssecChunkSize : Nat := 32 * 1024
def ssecNonceSize : Nat := 12
def ssecAuthTagSize : Nat := 16
def ssecCiphertextLenSize : Nat := 4
def ssecLastChunkMarker : UInt32 := 0x80000000
def envelopeMetadataVersion : UInt8 := 0x01

/-- HMAC-SHA256 and AES-GCM with a 12-byte nonce and no additional data. -/
structure Primitives where
  hmac (key message : Bytes) : Bytes
  gcmSeal (key nonce plaintext : Bytes) : Bytes
  gcmOpen (key nonce sealed : Bytes) : Option Bytes
  hmac_length : ∀ key message, (hmac key message).length = 32
  seal_length : ∀ key nonce plaintext,
    (gcmSeal key nonce plaintext).length = plaintext.length + ssecAuthTagSize
  open_seal : ∀ key nonce plaintext, gcmOpen key nonce (gcmSeal key nonce plaintext) = some plaintext
  open_length : ∀ key nonce sealed plaintext, gcmOpen key nonce sealed = some plaintext →
    sealed.length = plaintext.length + ssecAuthTagSize

/-- Values of HMAC-SHA256 (message, key, digest) and AES-256-GCM (key, nonce,
plaintext, sealed) at finitely many points. -/
structure Vectors where
  hmacs : List (Bytes × Bytes × Bytes)
  seals : List (Bytes × Bytes × Bytes × Bytes)
  hmacs_fit : ∀ v ∈ hmacs, v.2.1.length = 32 ∧ v.2.2.length = 32
  seals_fit : ∀ v ∈ seals, v.2.2.2.length = v.2.2.1.length + ssecAuthTagSize

variable (C : Primitives) (T : Vectors) (h : Heap) (key : Bytes) (R : Reader σ)

namespace Vectors

def hmacAt (T : Vectors) (message : Bytes) : List (Bytes × Bytes) :=
  (T.hmacs.filter (·.1 = message)).map (·.2)

def sealAt (T : Vectors) (key nonce : Bytes) : List (Bytes × Bytes) :=
  (T.seals.filter fun v => v.1 = key ∧ v.2.1 = nonce).map fun v =>
    (v.2.2.1 ++ replicate ssecAuthTagSize 0, v.2.2.2)

private theorem hmacAt_fit (message : Bytes) : ∀ pair ∈ T.hmacAt message, pair.2.length = pair.1.length := by
  intro pair member
  obtain ⟨v, listed, rfl⟩ := mem_map.mp member
  obtain ⟨key, digest⟩ := T.hmacs_fit v (mem_filter.mp listed).1
  rw [key, digest]

private theorem sealAt_fit (nonce : Bytes) : ∀ pair ∈ T.sealAt key nonce, pair.2.length = pair.1.length := by
  intro pair member
  obtain ⟨v, listed, rfl⟩ := mem_map.mp member
  rw [T.seals_fit v (mem_filter.mp listed).1, length_append, length_replicate]

/-- Lawful primitives with these values. -/
def primitives (T : Vectors) : Primitives where
  hmac key message := exchange (T.hmacAt message) ((key ++ replicate 32 0).take 32)
  gcmSeal key nonce plaintext :=
    exchange (T.sealAt key nonce) (plaintext ++ replicate ssecAuthTagSize 0)
  gcmOpen key nonce sealed :=
    let padded := (exchange (T.sealAt key nonce)).symm sealed
    let plaintext := padded.take (padded.length - ssecAuthTagSize)
    if padded = plaintext ++ replicate ssecAuthTagSize 0 then some plaintext else none
  hmac_length key message := by
    rw [exchange_length _ (T.hmacAt_fit message)]
    simp
  seal_length key nonce plaintext := by
    rw [exchange_length _ (T.sealAt_fit key nonce)]
    simp
  open_seal key nonce plaintext := by simp
  open_length key nonce sealed plaintext opened := by
    have same := exchange_length _ (T.sealAt_fit key nonce) ((exchange (T.sealAt key nonce)).symm sealed)
    rw [Equiv.apply_symm_apply] at same
    simp only [Option.ite_none_right_eq_some, Option.some.injEq] at opened
    obtain ⟨padded, rfl⟩ := opened
    rw [same, padded]
    simp

/-- Distinct 32-byte keys give distinct digests of every message. -/
theorem hmac_injective (key' message : Bytes) (size : key.length = 32) (size' : key'.length = 32)
    (same : T.primitives.hmac key message = T.primitives.hmac key' message) : key = key' := by
  have fixed := (exchange (T.hmacAt message)).injective same
  rwa [take_left' size, take_left' size'] at fixed

end Vectors

/-- `%d` on a natural number. -/
def decimal (n : Nat) : Bytes := str (toString n)

/-- `aes.NewCipher` checks the key size and nothing else. -/
def newCipher (key : Bytes) : Except Bytes Unit :=
  if key.length = 16 ∨ key.length = 24 ∨ key.length = 32 then .ok ()
  else .error (str "crypto/aes: invalid key size " ++ decimal key.length)

def deriveChunkKey (C : Primitives) (key nonce : Bytes) (chunkIdx : UInt32) : Bytes :=
  let info := nonce ++ putUint32 chunkIdx
  let prk := C.hmac key nonce
  C.hmac prk (info ++ [0x01])

/-- The base nonce, copied into twelve bytes, with the chunk index mixed into
the first four. -/
def chunkNonce (nonce : Bytes) (chunkIdx : UInt32) : Bytes :=
  let base := (nonce ++ replicate ssecNonceSize 0).take ssecNonceSize
  zipWith (· ^^^ ·) (base.take 4) (putUint32 chunkIdx) ++ base.drop 4

/-- One call of `gcm.Seal`, with the key its cipher was built from. -/
structure SealCall where
  (key nonce plaintext : Bytes)
  deriving DecidableEq, Repr

def SealCall.run (C : Primitives) (call : SealCall) : Bytes :=
  C.gcmSeal call.key call.nonce call.plaintext

def chunkSeal (C : Primitives) (plaintext key nonce : Bytes) (chunkIdx : UInt32) : SealCall :=
  ⟨deriveChunkKey C key nonce chunkIdx, chunkNonce nonce chunkIdx, plaintext⟩

def encryptChunk (C : Primitives) (plaintext key nonce : Bytes) (chunkIdx : UInt32)
    (isLast : Bool) : Except Bytes Bytes :=
  match newCipher (deriveChunkKey C key nonce chunkIdx) with
  | .error e => .error (str "failed to create AES cipher for chunk " ++ decimal chunkIdx.toNat ++
      str ": " ++ e)
  | .ok () =>
    -- `cipher.NewGCM` accepts every AES block cipher
    let sealed := (chunkSeal C plaintext key nonce chunkIdx).run C
    if sealed.length < ssecAuthTagSize then .error (str "sealed chunk too short")
    else
      let ciphertext := sealed.take (sealed.length - ssecAuthTagSize)
      let authTag := sealed.drop (sealed.length - ssecAuthTagSize)
      let ctLen := ciphertext.length.toUInt32
      let ctLen := if isLast then ctLen ||| ssecLastChunkMarker else ctLen
      .ok (putUint32 ctLen ++ ciphertext ++ authTag)

/-! ### The encrypting reader -/

/-- The fields of `streamingEncryptReader` other than `outBuf` and `done`.
`sealed` is no field of the source: it records the calls of `gcm.Seal`. -/
structure EncryptState (σ : Type) where
  source : σ
  key : Slice
  nonce : Bytes
  chunkIdx : UInt32
  sealed : List SealCall
  deriving DecidableEq, Repr

abbrev StreamingEncryptReader (σ : Type) := Buffered (EncryptState σ)

def newStreamingEncryptReader (source : σ) (key : Slice) (nonce : Bytes) : StreamingEncryptReader σ :=
  ⟨[], false, ⟨source, key, nonce, 0, []⟩⟩

/-- Encrypts one chunk with the key as it stands in the heap. -/
def EncryptState.emit (C : Primitives) (h : Heap) (s : EncryptState σ) (plaintext : Bytes)
    (isLast : Bool) (next : UInt32) : Except ReadErr (Bytes × Bool) × EncryptState σ :=
  match encryptChunk C plaintext (h.load s.key) s.nonce s.chunkIdx isLast with
  | .error e => (.error (.failed e), s)
  | .ok chunkData => (.ok (chunkData, isLast), { s with
      chunkIdx := next
      sealed := s.sealed ++ [chunkSeal C plaintext (h.load s.key) s.nonce s.chunkIdx] })

/-- The part of the loop of `streamingEncryptReader.Read` that runs when there
is no buffered output. -/
def EncryptState.pump (C : Primitives) (h : Heap) (R : Reader σ) (s : EncryptState σ) :
    Except ReadErr (Bytes × Bool) × EncryptState σ :=
  let (a, source) := R.readFull s.source ssecChunkSize
  let s := { s with source }
  match a.err with
  | some (.failed e) => (.error (.failed e), s)
  | err =>
    let isLast := err == some .eof || err == some .unexpectedEOF || a.bytes.isEmpty
    if a.bytes.isEmpty && isLast then
      if s.chunkIdx = 0 then s.emit C h [] true s.chunkIdx
      else (.ok ([], true), s)
    else s.emit C h a.bytes isLast (s.chunkIdx + 1)

/-! ### The decrypting reader -/

/-- The fields of `streamingDecryptReader` other than `outBuf` and `done`.
`lenBuf` holds the `lenRead` header bytes read so far. -/
structure DecryptState (σ : Type) where
  source : σ
  key : Slice
  nonce : Bytes
  chunkIdx : UInt32
  lenBuf : Bytes
  deriving DecidableEq, Repr

abbrev StreamingDecryptReader (σ : Type) := Buffered (DecryptState σ)

def newStreamingDecryptReader (source : σ) (key : Slice) (nonce : Bytes) : StreamingDecryptReader σ :=
  ⟨[], false, ⟨source, key, nonce, 0, []⟩⟩

/-- The loop that completes the four header bytes. An error that comes with
the last of them still counts as a truncation. -/
def readHeader (R : Reader σ) : Nat → σ → Bytes → Except ReadErr Unit × Bytes × σ
  | 0, source, lenBuf => (.error (.failed []), lenBuf, source)
  | fuel + 1, source, lenBuf =>
    if lenBuf.length < ssecCiphertextLenSize then
      let (a, source) := R.read source (ssecCiphertextLenSize - lenBuf.length)
      let lenBuf := lenBuf ++ a.bytes
      match a.err with
      | none => readHeader R fuel source lenBuf
      | some e =>
        if e = .eof ∧ 0 < lenBuf.length then
          (.error (.failed (str "truncated chunk header")), lenBuf, source)
        else (.error e, lenBuf, source)
    else (.ok (), lenBuf, source)

/-- Opens one chunk with the key as it stands in the heap. -/
def DecryptState.openChunk (C : Primitives) (h : Heap) (s : DecryptState σ) (gcmData : Bytes) : Except Bytes Bytes :=
  let derivedKey := deriveChunkKey C (h.load s.key) s.nonce s.chunkIdx
  match newCipher derivedKey with
  | .error _ => .error (str "decryption failed")
  | .ok () =>
    match C.gcmOpen derivedKey (chunkNonce s.nonce s.chunkIdx) gcmData with
    | none => .error (str "decryption failed")
    | some plaintext => .ok plaintext

def ctLen (ctLenField : UInt32) : Nat := (ctLenField &&& ~~~ssecLastChunkMarker).toNat

/-- Reads and opens the chunk that a complete header announces. -/
def DecryptState.readChunk (C : Primitives) (h : Heap) (R : Reader σ) (s : DecryptState σ)
    (ctLenField : UInt32) : Except ReadErr (Bytes × Bool) × DecryptState σ :=
  match R.readFull s.source (ctLen ctLenField + ssecAuthTagSize) with
  | (⟨_, some e⟩, source) =>
    (.error (.failed (str "failed to read chunk data: " ++ e.text)), { s with source })
  | (⟨chunkData, none⟩, source) =>
    match s.openChunk C h chunkData with
    | .error e => (.error (.failed e), { s with source })
    | .ok plaintext => (.ok (plaintext, ctLenField &&& ssecLastChunkMarker != 0),
        { s with source, chunkIdx := s.chunkIdx + 1 })

/-- The part of the loop of `streamingDecryptReader.Read` that runs when there
is no buffered output. -/
def DecryptState.pump (C : Primitives) (h : Heap) (R : Reader σ) (s : DecryptState σ) :
    Except ReadErr (Bytes × Bool) × DecryptState σ :=
  match readHeader R (R.left s.source + 2) s.source s.lenBuf with
  | (.error e, lenBuf, source) => (.error e, { s with source, lenBuf })
  | (.ok (), lenBuf, source) => { s with source, lenBuf := [] }.readChunk C h R (uint32 lenBuf)

/-! ### Both loops end -/

/-- What one chunk looks like on the wire. -/
def SealCall.frame (C : Primitives) (call : SealCall) (isLast : Bool) : Bytes :=
  let ctLen := call.plaintext.length.toUInt32
  putUint32 (if isLast then ctLen ||| ssecLastChunkMarker else ctLen) ++ call.run C

@[simp] theorem SealCall.run_length (call : SealCall) : (call.run C).length = call.plaintext.length + ssecAuthTagSize :=
  C.seal_length call.key call.nonce call.plaintext

@[simp] theorem SealCall.frame_length (call : SealCall) (isLast : Bool) :
    (call.frame C isLast).length = call.plaintext.length + (ssecCiphertextLenSize + ssecAuthTagSize) := by
  simp [frame, ssecCiphertextLenSize]
  omega

@[simp] theorem newCipher_deriveChunkKey (nonce : Bytes) (chunkIdx : UInt32) :
    newCipher (deriveChunkKey C key nonce chunkIdx) = .ok () := by
  simp [newCipher, deriveChunkKey, C.hmac_length]

/-- A derived key always makes a cipher, so no chunk is refused. -/
theorem encryptChunk_eq (plaintext key nonce : Bytes) (chunkIdx : UInt32) (isLast : Bool) :
    encryptChunk C plaintext key nonce chunkIdx isLast =
      .ok ((chunkSeal C plaintext key nonce chunkIdx).frame C isLast) := by
  unfold encryptChunk
  rw [newCipher_deriveChunkKey]
  simp only [SealCall.frame, SealCall.run_length, length_take]
  rw [if_neg (by omega), append_assoc, take_append_drop]
  simp [chunkSeal]

/-- Everything one refill of the encrypting reader can do. -/
theorem EncryptState.pump_cases (s : EncryptState σ) {bytes err source}
    (read : R.readFull s.source ssecChunkSize = (⟨bytes, err⟩, source)) :
    let call := chunkSeal C bytes (h.load s.key) s.nonce s.chunkIdx
    (∃ e, err = some (.failed e) ∧ s.pump C h R = (.error (.failed e), { s with source })) ∨
    (bytes = [] ∧ s.chunkIdx = 0 ∧ s.pump C h R = (.ok (call.frame C true, true),
      { s with source, sealed := s.sealed ++ [call] })) ∨
    (bytes = [] ∧ s.chunkIdx ≠ 0 ∧ s.pump C h R = (.ok ([], true), { s with source })) ∨
    (∃ isLast, bytes ≠ [] ∧ (isLast = false ↔ err = none) ∧ s.pump C h R = (.ok (call.frame C isLast, isLast),
        { s with source, chunkIdx := s.chunkIdx + 1, sealed := s.sealed ++ [call] })) := by
  intro call
  unfold pump
  simp only [read, emit, encryptChunk_eq]
  by_cases failed : ∃ e, err = some (.failed e)
  · obtain ⟨e, rfl⟩ := failed
    exact .inl ⟨e, rfl, rfl⟩
  refine .inr ?_
  by_cases empty : bytes = []
  · by_cases first : s.chunkIdx = 0
    · rcases err with _ | _ | _ | e <;> simp_all [call]
    · rcases err with _ | _ | _ | e <;> simp_all
  have some_read : isEmpty bytes = false := by simpa using empty
  refine .inr (.inr ?_)
  rcases err with _ | _ | _ | e
  · exact ⟨false, empty, by simp, by simp [some_read, call]⟩
  · exact ⟨true, empty, by simp, by simp [empty, call]⟩
  · exact ⟨true, empty, by simp, by simp [empty, call]⟩
  · exact absurd ⟨e, rfl⟩ failed

/-- The refills of the encrypting reader as a block source. -/
def encryptPump (C : Primitives) (h : Heap) (R : Reader σ) : Pump (EncryptState σ) where
  pump := EncryptState.pump C h R
  left s := R.left s.source
  size := ssecChunkSize + (ssecCiphertextLenSize + ssecAuthTagSize) + 1
  settled s := by
    have kept := R.readFull_settled s.source ssecChunkSize
    rcases read : R.readFull s.source ssecChunkSize with ⟨⟨bytes, err⟩, source⟩
    rw [read] at kept
    rcases s.pump_cases C h R read with
      ⟨e, -, eq⟩ | ⟨-, -, eq⟩ | ⟨-, -, eq⟩ | ⟨isLast, -, -, eq⟩ <;> simpa [eq] using kept
  progress s out refilled := by
    have moved := R.readFull_progress s.source ssecChunkSize (by decide)
    rcases read : R.readFull s.source ssecChunkSize with ⟨⟨bytes, err⟩, source⟩
    rw [read] at moved
    rcases s.pump_cases C h R read with
      ⟨e, -, eq⟩ | ⟨-, -, eq⟩ | ⟨-, -, eq⟩ | ⟨isLast, brought, -, eq⟩
    · simp [eq] at refilled
    · simp [eq] at refilled
    · simp [eq] at refilled
    · simpa [eq] using moved (.inl brought)
  bounded s out done refilled := by
    have fits := R.readFull_within s.source ssecChunkSize
    rcases read : R.readFull s.source ssecChunkSize with ⟨⟨bytes, err⟩, source⟩
    rw [read] at fits
    have framed (isLast : Bool) :
        ((chunkSeal C bytes (h.load s.key) s.nonce s.chunkIdx).frame C isLast).length <
          ssecChunkSize + (ssecCiphertextLenSize + ssecAuthTagSize) + 1 := by
      rw [SealCall.frame_length]
      simp only [chunkSeal] at fits ⊢
      omega
    rcases s.pump_cases C h R read with
      ⟨e, -, eq⟩ | ⟨-, -, eq⟩ | ⟨-, -, eq⟩ | ⟨isLast, -, -, eq⟩
    · simp [eq] at refilled
    · simp only [eq, Except.ok.injEq, Prod.mk.injEq] at refilled
      exact refilled.1 ▸ framed true
    · simp only [eq, Except.ok.injEq, Prod.mk.injEq] at refilled
      simp [← refilled.1]
    · simp only [eq, Except.ok.injEq, Prod.mk.injEq] at refilled
      exact refilled.1 ▸ framed isLast

/-- `streamingEncryptReader.Read`. -/
def encryptReader (C : Primitives) (h : Heap) (R : Reader σ) : Reader (StreamingEncryptReader σ) :=
  Buffered.reader (encryptPump C h R)

/-- Opening needs the right length, and a derived key always makes a cipher. -/
theorem DecryptState.openChunk_eq (s : DecryptState σ) (gcmData : Bytes) : s.openChunk C h gcmData =
      match C.gcmOpen (deriveChunkKey C (h.load s.key) s.nonce s.chunkIdx)
        (chunkNonce s.nonce s.chunkIdx) gcmData with
      | none => .error (str "decryption failed")
      | some plaintext => .ok plaintext := by
  simp [openChunk]

theorem ctLen_lt (field : UInt32) : ctLen field < 2 ^ 31 := by
  have mask : (~~~ssecLastChunkMarker : UInt32).toNat = 2 ^ 31 - 1 := rfl
  rw [ctLen, UInt32.toNat_and, mask]
  exact Nat.lt_of_le_of_lt Nat.and_le_right (by decide)

/-- A chunk that opens has used up some of the source and is as long as its
header says. -/
theorem DecryptState.readChunk_cases (s : DecryptState σ) (field : UInt32) :
    R.left (s.readChunk C h R field).2.source ≤ R.left s.source ∧
      ∀ plaintext isLast, (s.readChunk C h R field).1 = .ok (plaintext, isLast) →
        R.left (s.readChunk C h R field).2.source < R.left s.source ∧ plaintext.length < 2 ^ 31 := by
  have kept := R.readFull_settled s.source (ctLen field + ssecAuthTagSize)
  have fits := R.readFull_within s.source (ctLen field + ssecAuthTagSize)
  have moved := R.readFull_progress s.source (ctLen field + ssecAuthTagSize) (Nat.succ_pos _)
  have short := ctLen_lt field
  unfold readChunk
  generalize R.readFull s.source (ctLen field + ssecAuthTagSize) = out at *
  obtain ⟨⟨chunkData, _ | _⟩, _⟩ := out
  · simp only [openChunk_eq] at kept fits moved ⊢
    cases opened : C.gcmOpen (deriveChunkKey C (h.load s.key) s.nonce s.chunkIdx)
        (chunkNonce s.nonce s.chunkIdx) chunkData with
    | none => exact ⟨kept, fun _ _ refilled => by cases refilled⟩
    | some found =>
      refine ⟨kept, fun plaintext isLast refilled => ⟨moved (.inr trivial), ?_⟩⟩
      obtain ⟨rfl, -⟩ : found = plaintext ∧ _ = isLast := by simpa using refilled
      have size := C.open_length _ _ _ _ opened
      omega
  · exact ⟨kept, fun _ _ refilled => by cases refilled⟩

theorem readHeader_settled (fuel : Nat) (source : σ) (lenBuf : Bytes) :
    R.left (readHeader R fuel source lenBuf).2.2 ≤ R.left source := by
  induction fuel generalizing source lenBuf with
  | zero => exact Nat.le_refl _
  | succ fuel ih =>
    unfold readHeader
    split
    · have step := R.settled source (ssecCiphertextLenSize - lenBuf.length)
      generalize R.read source (ssecCiphertextLenSize - lenBuf.length) = out at *
      obtain ⟨⟨bytes, _ | e⟩, source'⟩ := out
      · exact Nat.le_trans (ih _ _) step
      · simp only
        split <;> exact step
    · exact Nat.le_refl _

/-- The refills of the decrypting reader as a block source. -/
def decryptPump (C : Primitives) (h : Heap) (R : Reader σ) : Pump (DecryptState σ) where
  pump := DecryptState.pump C h R
  left s := R.left s.source
  size := 2 ^ 31
  settled s := by
    have kept := readHeader_settled R (R.left s.source + 2) s.source s.lenBuf
    unfold DecryptState.pump
    generalize readHeader R (R.left s.source + 2) s.source s.lenBuf = out at *
    obtain ⟨e | _, lenBuf, source⟩ := out
    · exact kept
    · exact Nat.le_trans (DecryptState.readChunk_cases C h R _ _).1 kept
  progress s plaintext refilled := by
    have kept := readHeader_settled R (R.left s.source + 2) s.source s.lenBuf
    unfold DecryptState.pump at refilled ⊢
    generalize readHeader R (R.left s.source + 2) s.source s.lenBuf = out at *
    obtain ⟨e | _, lenBuf, source⟩ := out
    · cases refilled
    · exact Nat.lt_of_lt_of_le ((DecryptState.readChunk_cases C h R _ _).2 _ _ refilled).1 kept
  bounded s plaintext isLast refilled := by
    unfold DecryptState.pump at refilled
    generalize readHeader R (R.left s.source + 2) s.source s.lenBuf = out at *
    obtain ⟨e | _, lenBuf, source⟩ := out
    · cases refilled
    · exact ((DecryptState.readChunk_cases C h R _ _).2 _ _ refilled).2

/-- `streamingDecryptReader.Read`. -/
def decryptReader (C : Primitives) (h : Heap) (R : Reader σ) : Reader (StreamingDecryptReader σ) :=
  Buffered.reader (decryptPump C h R)

end CipherLake.StreamCipher
