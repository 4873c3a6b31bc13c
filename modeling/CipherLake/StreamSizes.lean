import CipherLake.CoordinatorProofs

/-! The number of bytes the encrypting reader produces, against the number
announced to the store. -/
namespace CipherLake.Coordinator
open Lib StreamCipher List

private theorem chunkSize_eq : ssecChunkSize = 32768 := rfl

/-- The chunks of a plaintext of `n` bytes: one for each full or partial 32
KiB, and an extra empty one where it ends on a border with the index at zero. -/
def chunkCount (chunkIdx n : Nat) : Nat :=
  (n + (ssecChunkSize - 1)) / ssecChunkSize +
    if n % ssecChunkSize = 0 ∧ (chunkIdx + n / ssecChunkSize) % 2 ^ 32 = 0 then 1 else 0

theorem chunkCount_large (n : Nat) (large : (2 ^ 32 - 1) * ssecChunkSize < n) : 2 ^ 32 ≤ chunkCount 0 n := by
  unfold chunkCount
  rw [chunkSize_eq] at large ⊢
  omega

theorem sealsFrom_length (C : Primitives) (key nonce : Bytes) (chunkIdx : UInt32) (data : Bytes) :
    (sealsFrom C key nonce chunkIdx data).length = chunkCount chunkIdx.toNat data.length := by
  unfold chunkCount
  rw [chunkSize_eq]
  fun_induction sealsFrom C key nonce chunkIdx data with
  | case1 => simp
  | case2 chunkIdx later =>
    have bound := chunkIdx.toNat_lt
    have nonzero : chunkIdx.toNat ≠ 0 := fun zero => later (UInt32.toNat_inj.mp zero)
    rw [length_nil, length_nil, if_neg (by omega)]
  | case3 chunkIdx data some_left short =>
    have positive := length_pos_iff.mpr some_left
    rw [chunkSize_eq] at short
    rw [length_singleton, if_neg (by omega)]
    omega
  | case4 chunkIdx data some_left long ih =>
    have next : (chunkIdx + 1).toNat = (chunkIdx.toNat + 1) % 2 ^ 32 := UInt32.toNat_add chunkIdx 1
    rw [chunkSize_eq] at long
    rw [length_cons, ih, length_drop, next, chunkSize_eq]
    have border : (data.length - 32768) % 32768 = data.length % 32768 := by omega
    have index : ((chunkIdx.toNat + 1) % 2 ^ 32 + (data.length - 32768) / 32768) % 2 ^ 32 =
        (chunkIdx.toNat + data.length / 32768) % 2 ^ 32 := by omega
    rw [border, index]
    omega

theorem framing_length (C : Primitives) (key nonce : Bytes) (chunkIdx : UInt32) (data : Bytes) :
    (framing C (sealsFrom C key nonce chunkIdx data)).length = data.length +
      (sealsFrom C key nonce chunkIdx data).length * (ssecCiphertextLenSize + ssecAuthTagSize) := by
  fun_induction sealsFrom C key nonce chunkIdx data with
  | case1 => simp [chunkSeal]
  | case2 => simp
  | case3 => simp [chunkSeal]
  | case4 chunkIdx data some_left long ih =>
    rw [framing_cons, length_append, SealCall.frame_length, ih, length_cons, Nat.succ_mul]
    simp only [chunkSeal, length_take, length_drop]
    omega

/-! ### Announced sizes -/

/-- Up to `2^32 - 1` chunks both announcements are the exact length. -/
theorem announced_exact (n : Nat) (small : n ≤ (2 ^ 32 - 1) * ssecChunkSize) :
    envelopeCiphertextSize n = n + (chunkCount 0 n : Int) * 20 ∧
      clientKeyCiphertextSize n = n + (chunkCount 0 n : Int) * 20 := by
  rw [chunkSize_eq] at small
  have overhead : (ssecCiphertextLenSize : Int) + ssecAuthTagSize = 20 := rfl
  have size : (ssecChunkSize : Int) = 32768 := rfl
  simp only [envelopeCiphertextSize, clientKeyCiphertextSize, overhead, size]
  by_cases zero : n = 0
  · subst zero
    decide
  have positive : (n : Int) > 0 := by omega
  have rounded : int64 ((n : Int) + 32768 - 1) = n + 32767 := by
    rw [int64_of_small] <;> omega
  have count : ((n : Int) + 32767).tdiv 32768 = ((n + 32767) / 32768 : Nat) := by
    rw [Int.tdiv_eq_ediv_of_nonneg (by omega)]
    rfl
  have counted : chunkCount 0 n = (n + 32767) / 32768 := by
    rw [chunkCount, chunkSize_eq, if_neg (by omega)]
    rfl
  rw [if_pos positive, if_pos positive, counted, rounded, count]
  generalize chunks : (n + 32767) / 32768 = count
  have whole : (count : Int) % 2 ^ 32 = count := by omega
  rw [whole, int64_of_small (n := (count : Int) * 20) (by omega) (by omega), int64_of_small (by omega) (by omega)]
  exact ⟨rfl, rfl⟩

/-- The announcement for a customer key never counts `2^32` chunks. -/
theorem clientKey_announces_fewer (n : Nat) (fits : n < 2 ^ 63) (chunks : Nat) (many : 2 ^ 32 ≤ chunks) :
    clientKeyCiphertextSize n ≠ n + (chunks : Int) * 20 := by
  have overhead : (ssecCiphertextLenSize : Int) + ssecAuthTagSize = 20 := rfl
  simp only [clientKeyCiphertextSize, overhead]
  obtain ⟨counted, _, _, eq⟩ : ∃ counted : Int, 0 ≤ counted ∧ counted < 2 ^ 32 ∧
      (if (n : Int) > 0 then (int64 (n + ssecChunkSize - 1)).tdiv ssecChunkSize % 2 ^ 32 else 1) = counted := by
    split
    · exact ⟨_, Int.emod_nonneg _ (by decide), Int.emod_lt_of_pos _ (by decide), rfl⟩
    · exact ⟨1, by decide, by decide, rfl⟩
  rw [eq, int64_of_small (n := counted * 20) (by omega) (by omega)]
  by_cases small : (n : Int) + counted * 20 < 2 ^ 63
  · rw [int64_of_small (by omega) small]
    omega
  · -- the sum wraps to a negative number
    have wrapped : int64 ((n : Int) + counted * 20) = n + counted * 20 - 2 ^ 64 := by
      rw [← int64_of_small (n := (n : Int) + counted * 20 - 2 ^ 64) (by omega) (by omega)]
      exact (Int.sub_bmod_right _ (2 ^ 64)).symm
    rw [wrapped]
    omega

/-! ### Round trip and size -/

section RoundTrip

variable {σ σ' : Type} {C : Primitives} {R : Reader σ} {I : σ → Bytes → Prop} {R' : Reader σ'}
  {I' : σ' → Bytes → Prop} {h h' : Heap} {data nonce : Bytes} {key key' : Slice}

/-- Any reader over the framing, consumed in any way, decrypts to the
plaintext. -/
theorem decrypted_stream (D' : Reader.Delivers R' I') {ciphertext : σ'} (sameKey : h'.load key' = h.load key)
    (stored : I' ciphertext (framing C (sealsFrom C (h.load key) nonce 0 data))) (sizes : List Nat)
    (positive : ∀ n ∈ sizes, 0 < n)
    (enough : (decryptReader C h' R').left (newStreamingDecryptReader ciphertext key' nonce) < sizes.length) :
    ((decryptReader C h' R').reads (newStreamingDecryptReader ciphertext key' nonce) sizes).1 = ⟨data, some .eof⟩ := by
  obtain ⟨_, made, clean⟩ := decrypted (C := C) (h := h') D' stored key' nonce sizes positive enough
  rw [sameKey, decryptStream_framing] at made clean
  rw [made, clean.mpr rfl]

/-- The announced sizes are right exactly up to `2^32 - 1` chunks; from there
on the chunk count of the customer-key path no longer fits its `uint32`. -/
theorem announced_iff (C : Primitives) (key nonce data : Bytes) (fits : data.length < 2 ^ 63) :
    let size : Int := (framing C (sealsFrom C key nonce 0 data)).length
    (size = envelopeCiphertextSize data.length ∧ size = clientKeyCiphertextSize data.length) ↔
      data.length ≤ (2 ^ 32 - 1) * ssecChunkSize := by
  have exact : ((framing C (sealsFrom C key nonce 0 data)).length : Int) =
      data.length + (chunkCount 0 data.length : Int) * 20 := by
    rw [framing_length, sealsFrom_length]
    push_cast
    rfl
  simp only [exact]
  constructor
  · rintro ⟨-, announced⟩
    by_contra large
    exact clientKey_announces_fewer data.length fits _ (chunkCount_large _ (Nat.not_le.mp large)) announced.symm
  · intro small
    obtain ⟨envelope, client⟩ := announced_exact data.length small
    exact ⟨envelope.symm, client.symm⟩

/-- Decryption returns the plaintext and both operations announce the length
of the ciphertext, exactly when the plaintext has at most `2^32 - 1` chunks. -/
theorem roundtrip_and_announced_size_iff (D : Reader.Delivers R I) (D' : Reader.Delivers R' I')
    {plaintext : σ} (held : I plaintext data) {sizes : List Nat} (exhausts : Exhausts C R plaintext sizes)
    (sameKey : h'.load key' = h.load key) {ciphertext : σ'}
    (stored : I' ciphertext
      ((encryptReader C h R).reads (newStreamingEncryptReader plaintext key nonce) sizes).1.bytes)
    {sizes' : List Nat} (positive : ∀ n ∈ sizes', 0 < n)
    (enough : (decryptReader C h' R').left (newStreamingDecryptReader ciphertext key' nonce) < sizes'.length)
    (fits : data.length < 2 ^ 63) :
    let encrypted := ((encryptReader C h R).reads (newStreamingEncryptReader plaintext key nonce) sizes).1
    let decrypted :=
      ((decryptReader C h' R').reads (newStreamingDecryptReader ciphertext key' nonce) sizes').1
    (encrypted.err = some .eof ∧ decrypted = ⟨data, some .eof⟩ ∧
        (encrypted.bytes.length : Int) = envelopeCiphertextSize data.length ∧
        (encrypted.bytes.length : Int) = clientKeyCiphertextSize data.length) ↔
      data.length ≤ (2 ^ 32 - 1) * ssecChunkSize := by
  intro encrypted decrypted
  have whole := (encrypted_stream (C := C) (h := h) D held key nonce sizes exhausts.1 exhausts.2).1
  rw [whole] at stored
  have plain : decrypted = ⟨data, some .eof⟩ := decrypted_stream D' sameKey stored sizes' positive enough
  have framed : encrypted = ⟨framing C (sealsFrom C (h.load key) nonce 0 data), some .eof⟩ := whole
  have announced := announced_iff C (h.load key) nonce data fits
  rw [framed]
  exact ⟨fun property => announced.mp property.2.2, fun small => ⟨rfl, plain, announced.mpr small⟩⟩

end RoundTrip

theorem encryptReader_left (C : Primitives) (h : Heap) (R : Reader σ) (source : σ) (key : Slice) (nonce : Bytes) :
    (encryptReader C h R).left (newStreamingEncryptReader source key nonce) =
      (R.left source + 1) * (ssecChunkSize + (ssecCiphertextLenSize + ssecAuthTagSize) + 1) := by
  simp [encryptReader, Buffered.reader, Buffered.left, newStreamingEncryptReader, encryptPump]

theorem decryptReader_left (C : Primitives) (h : Heap) (R : Reader σ) (source : σ) (key : Slice) (nonce : Bytes) :
    (decryptReader C h R).left (newStreamingDecryptReader source key nonce) = (R.left source + 1) * 2 ^ 31 := by
  simp [decryptReader, Buffered.reader, Buffered.left, newStreamingDecryptReader, decryptPump]

/-- A plaintext handed over in one piece, as the store copies it. -/
theorem encrypted_piece (C : Primitives) (h : Heap) (key : Slice) (nonce data : Bytes) (count : Nat)
    (enough : (data.length + 2) * 32789 < count) : let out := ((encryptReader C h Segments.reader).reads
      (newStreamingEncryptReader ⟨[data], false⟩ key nonce) (replicate count ssecChunkSize)).1
    out.err = some .eof ∧ out.bytes.length = data.length + chunkCount 0 data.length * 20 := by
  intro out
  have positive : ∀ n ∈ replicate count ssecChunkSize, 0 < n := by
    intro n member
    rw [eq_of_mem_replicate member]
    decide
  have long : (encryptReader C h Segments.reader).left (newStreamingEncryptReader ⟨[data], false⟩ key nonce) <
      (replicate count ssecChunkSize).length := by
    rw [encryptReader_left, length_replicate]
    simpa [Segments.reader, Segments.left, ssecChunkSize, ssecCiphertextLenSize, ssecAuthTagSize] using enough
  have piece : (⟨[data], false⟩ : Segments).pieces.flatten = data := by simp
  obtain ⟨whole, -⟩ := encrypted_stream (C := C) (h := h) Segments.delivers piece key nonce _ positive long
  have bytes : out.bytes = _ := congrArg Answer.bytes whole
  refine ⟨congrArg Answer.err whole, ?_⟩
  rw [bytes, framing_length, sealsFrom_length]
  rfl

/-- The ciphertext of `2^47` zero bytes under a customer key is more than 80
GiB longer than announced: the announcement counts no chunk at all. -/
theorem announced_size_too_small :
    let out := ((encryptReader Sample.vectors.primitives ⟨[Sample.firstClientKey]⟩ Segments.reader).reads
      (newStreamingEncryptReader ⟨[replicate (2 ^ 47) 0], false⟩ 0 Sample.nonce)
      (replicate (2 ^ 63) ssecChunkSize)).1
    out.err = some .eof ∧ out.bytes.length = 2 ^ 47 + (2 ^ 32 + 1) * 20 ∧ clientKeyCiphertextSize (2 ^ 47) = 2 ^ 47 ∧
      envelopeCiphertextSize (2 ^ 47) = 2 ^ 47 + 2 ^ 32 * 20 := by
  have stream := encrypted_piece Sample.vectors.primitives ⟨[Sample.firstClientKey]⟩ 0 Sample.nonce
    (replicate (2 ^ 47) 0) (2 ^ 63) (by rw [length_replicate]; norm_num)
  rw [length_replicate] at stream
  have chunks : chunkCount 0 (2 ^ 47) = 2 ^ 32 + 1 := by decide
  rw [chunks] at stream
  exact ⟨stream.1, stream.2, by decide, by decide⟩

/-- The stream of the two bytes under the zero key, read byte by byte. -/
def Sample.encrypted : Answer :=
  ((encryptReader Sample.vectors.primitives ⟨[Sample.zeroKey]⟩ Segments.reader).reads
    (newStreamingEncryptReader Sample.body 0 Sample.nonce) (replicate 200000 1)).1

/-- That stream stored in one piece, decrypted and read five bytes at a time. -/
def Sample.decrypted : Answer :=
  ((decryptReader Sample.vectors.primitives ⟨[Sample.zeroKey]⟩ Segments.reader).reads
    (newStreamingDecryptReader ⟨[Sample.encrypted.bytes], true⟩ 0 Sample.nonce)
    (replicate (2 ^ 37) 5)).1

theorem roundtrip_and_announced_size_iff_sample :
    (Sample.encrypted.err = some .eof ∧ Sample.decrypted = ⟨str "hi", some .eof⟩ ∧
        (Sample.encrypted.bytes.length : Int) = envelopeCiphertextSize (str "hi").length ∧
        (Sample.encrypted.bytes.length : Int) = clientKeyCiphertextSize (str "hi").length) ↔
      (str "hi").length ≤ (2 ^ 32 - 1) * ssecChunkSize := by
  have held : Sample.body.pieces.flatten = str "hi" := rfl
  have length : Sample.encrypted.bytes.length = 22 := by
    obtain ⟨whole, -⟩ := encrypted_stream (C := Sample.vectors.primitives) (h := ⟨[Sample.zeroKey]⟩)
      Segments.delivers held 0 Sample.nonce _ sample_exhausts.1 sample_exhausts.2
    have bytes : Sample.encrypted.bytes = _ := congrArg Answer.bytes whole
    rw [bytes, framing_length, sealsFrom_length]
    decide
  have stored : (⟨[Sample.encrypted.bytes], true⟩ : Segments).pieces.flatten = Sample.encrypted.bytes := by
    simp
  have positive : ∀ n ∈ replicate (2 ^ 37) 5, 0 < n := by
    intro n member
    rw [eq_of_mem_replicate member]
    decide
  have enough : (decryptReader Sample.vectors.primitives ⟨[Sample.zeroKey]⟩ Segments.reader).left
      (newStreamingDecryptReader ⟨[Sample.encrypted.bytes], true⟩ 0 Sample.nonce) <
      (replicate (2 ^ 37) 5).length := by
    rw [decryptReader_left, length_replicate]
    simp [Segments.reader, Segments.left, length]
  exact roundtrip_and_announced_size_iff Segments.delivers Segments.delivers held sample_exhausts rfl
    stored positive enough (by decide)

end CipherLake.Coordinator
