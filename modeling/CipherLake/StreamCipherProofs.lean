import CipherLake.StreamCipher

/-! What the two streaming readers compute. `sealsFrom` is the chunking of a
plaintext, independent of how the source delivers it; the encrypting reader
hands out the frames of these chunks, and the decrypting reader over them hands
out the plaintext again. -/
namespace CipherLake.StreamCipher
open Lib List

/-- The chunks of the remaining plaintext from chunk `chunkIdx` on. A short
chunk is the last one. A plaintext that ends on a chunk border ends without a
marker, unless the index is zero there: then one empty last chunk follows. -/
def sealsFrom (C : Primitives) (key nonce : Bytes) (chunkIdx : UInt32) (data : Bytes) : List (SealCall × Bool) :=
  if data = [] then
    if chunkIdx = 0 then [(chunkSeal C [] key nonce chunkIdx, true)] else []
  else if data.length < ssecChunkSize then [(chunkSeal C data key nonce chunkIdx, true)]
  else
    (chunkSeal C (data.take ssecChunkSize) key nonce chunkIdx, false) ::
      sealsFrom C key nonce (chunkIdx + 1) (data.drop ssecChunkSize)
termination_by data.length
decreasing_by
  rename_i some_left _
  have := length_pos_iff.mpr some_left
  simp only [length_drop, ssecChunkSize]
  omega

/-- The chunked framing of a plaintext. -/
def framing (C : Primitives) (calls : List (SealCall × Bool)) : Bytes :=
  calls.flatMap fun call => call.1.frame C call.2

@[simp] theorem framing_nil (C : Primitives) : framing C [] = [] := rfl

@[simp] theorem framing_cons (C : Primitives) (call : SealCall) (isLast : Bool) (calls : List (SealCall × Bool)) :
    framing C ((call, isLast) :: calls) = call.frame C isLast ++ framing C calls := rfl

variable {σ : Type} {C : Primitives} {h : Heap} {R : Reader σ} {I : σ → Bytes → Prop}

/-! ### Encryption -/

/-- The reader has sealed some chunks of `total` and its source holds the
plaintext of the others. -/
def Encrypting (C : Primitives) (h : Heap) (I : σ → Bytes → Prop) (total : List SealCall)
    (s : EncryptState σ) (out : Bytes) : Prop :=
  ∃ data, I s.source data ∧
    total = s.sealed ++ (sealsFrom C (h.load s.key) s.nonce s.chunkIdx data).map Prod.fst ∧
    out = framing C (sealsFrom C (h.load s.key) s.nonce s.chunkIdx data)

theorem encrypt_finishes (D : Reader.Delivers R I) (total : List SealCall) :
    Buffered.Finishes (encryptPump C h R) (Encrypting C h I total) fun s e => e = .eof ∧ s.sealed = total where
  step := by
    rintro s _ ⟨data, held, rfl, rfl⟩
    obtain ⟨taken, kept, ended⟩ := Reader.readFull_delivers D held ssecChunkSize
    rcases read : R.readFull s.source ssecChunkSize with ⟨⟨bytes, _⟩, _⟩
    rw [read] at taken kept ended
    simp only at taken kept ended
    refine .inl ?_
    simp only [encryptPump]
    rcases s.pump_cases C h R read with
      ⟨_, failed, -⟩ | ⟨empty, first, eq⟩ | ⟨empty, later, eq⟩ | ⟨isLast, brought, last, eq⟩
    · rw [failed] at ended
      split at ended
      · cases ended
      · split at ended <;> cases ended
    · have none_left : data = [] := by
        rw [taken] at empty
        simpa [ssecChunkSize] using empty
      subst none_left empty
      rw [eq, sealsFrom, if_pos rfl, if_pos first]
      exact ⟨_, true, [], rfl, by simp, by simp⟩
    · have none_left : data = [] := by
        rw [taken] at empty
        simpa [ssecChunkSize] using empty
      subst none_left
      rw [eq, sealsFrom, if_pos rfl, if_neg later]
      exact ⟨[], true, [], rfl, rfl, by simp⟩
    · have some_left : data ≠ [] := by
        rintro rfl
        simp [taken] at brought
      rw [eq, sealsFrom, if_neg some_left]
      by_cases short : data.length < ssecChunkSize
      · have whole : bytes = data := by rw [taken, take_of_length_le (Nat.le_of_lt short)]
        have marked : isLast = true := by
          rw [if_neg (Nat.not_le.mpr short), if_neg some_left] at ended
          simpa [ended] using last
        subst whole marked
        rw [if_pos short]
        exact ⟨_, true, [], rfl, by simp, by simp⟩
      · have unmarked : isLast = false := by
          rw [if_pos (Nat.not_lt.mp short)] at ended
          exact last.mpr ended
        subst unmarked
        rw [if_neg short, ← taken]
        exact ⟨_, false, _, rfl, framing_cons C _ _ _, _, kept, by simp, rfl⟩

/-- A consumer that reads to the end gets the framing under the key that the
heap holds while it reads, and the recorded calls are those of the framing. -/
theorem encrypted_stream (D : Reader.Delivers R I) {plaintext : σ} {data : Bytes}
    (held : I plaintext data) (key : Slice) (nonce : Bytes) (sizes : List Nat) (positive : ∀ n ∈ sizes, 0 < n)
    (enough : (encryptReader C h R).left (newStreamingEncryptReader plaintext key nonce) <
      sizes.length) : let calls := sealsFrom C (h.load key) nonce 0 data
    let out := (encryptReader C h R).reads (newStreamingEncryptReader plaintext key nonce) sizes
    out.1 = ⟨framing C calls, some .eof⟩ ∧ out.2.inner.sealed = calls.map Prod.fst := by
  intro calls out
  have started : Buffered.Holds (Encrypting C h I (calls.map Prod.fst))
      (fun s e => e = .eof ∧ s.sealed = calls.map Prod.fst) (newStreamingEncryptReader plaintext key nonce)
      (framing C calls) := ⟨framing C calls, rfl, data, held, rfl, rfl⟩
  obtain ⟨_, whole, rfl, final⟩ := Reader.reads_to_error
    (Buffered.ends (encrypt_finishes D (calls.map Prod.fst))) started sizes positive enough
  exact ⟨whole, final⟩

/-! ### Decryption -/

/-- The header loop takes the missing header bytes and no more. It fails where
the data ends before them, or with them, and reports the end of the data only
if there was none. -/
theorem readHeader_spec (D : Reader.Delivers R I) (fuel : Nat) {source : σ} {stream : Bytes} (lenBuf : Bytes)
    (held : I source stream) (room : lenBuf.length ≤ ssecCiphertextLenSize) (enough : R.left source + 1 < fuel) :
    (ssecCiphertextLenSize ≤ (lenBuf ++ stream).length ∧ ∃ source', readHeader R fuel source lenBuf =
        (.ok (), lenBuf ++ stream.take (ssecCiphertextLenSize - lenBuf.length), source') ∧
      I source' (stream.drop (ssecCiphertextLenSize - lenBuf.length))) ∨
    ((lenBuf ++ stream).length ≤ ssecCiphertextLenSize ∧ ∃ e lenBuf' source',
      readHeader R fuel source lenBuf = (.error e, lenBuf', source') ∧ (e = .eof ↔ lenBuf ++ stream = []) ∧
        (e = .eof → lenBuf' = [] ∧ I source' [])) := by
  induction fuel generalizing source lenBuf stream with
  | zero => exact absurd enough (Nat.not_lt_zero _)
  | succ fuel ih =>
    unfold readHeader
    by_cases partly : lenBuf.length < ssecCiphertextLenSize
    · let missing := ssecCiphertextLenSize - lenBuf.length
      have wanted : 0 < missing := Nat.sub_pos_of_lt partly
      obtain ⟨later, shape, kept, ended⟩ := D.step held wanted
      have fits := R.within source missing
      have moved := R.progress source _ wanted
      rw [if_pos partly]
      generalize R.read source missing = out at *
      obtain ⟨⟨bytes, _⟩, source'⟩ := out
      simp only at shape kept ended fits moved ⊢
      have room' : (lenBuf ++ bytes).length ≤ ssecCiphertextLenSize := by
        rw [length_append]
        omega
      rcases ended with rfl | ⟨rfl, rfl⟩
      · have smaller : R.left source' + 1 < fuel := by
          have := moved (.inr rfl)
          omega
        have taken : lenBuf ++ stream.take missing = lenBuf ++ bytes ++ later.take (ssecCiphertextLenSize - (lenBuf ++ bytes).length) := by
          rw [shape, take_append, take_of_length_le fits, ← append_assoc, length_append, Nat.sub_add_eq]
        have dropped : stream.drop missing = later.drop (ssecCiphertextLenSize - (lenBuf ++ bytes).length) := by
          rw [shape, drop_append, drop_of_length_le fits, nil_append, length_append, Nat.sub_add_eq]
        rw [taken, dropped, shape, ← append_assoc]
        exact ih (lenBuf ++ bytes) kept room' smaller
      · -- the end of the data comes with the last header byte at best
        rw [append_nil] at shape
        subst shape
        refine .inr ⟨room', ?_⟩
        by_cases empty : lenBuf ++ stream = []
        · exact ⟨.eof, [], source', by simp [empty], by simp [empty], fun _ => ⟨rfl, kept⟩⟩
        · have positive := length_pos_iff.mpr empty
          refine ⟨.failed (str "truncated chunk header"), lenBuf ++ stream, source', ?_, by simp [empty], by simp⟩
          simp only [true_and]
          rw [if_pos positive]
    · have whole : ssecCiphertextLenSize - lenBuf.length = 0 := by omega
      rw [if_neg partly, whole]
      refine .inl ⟨?_, source, by simp, by simpa using held⟩
      rw [length_append]
      omega

/-- The length field of a chunk is read back with its marker. -/
theorem field_readback (n : Nat) (small : n < 2 ^ 31) (isLast : Bool) : let field := uint32 (putUint32
      (if isLast then n.toUInt32 ||| ssecLastChunkMarker else n.toUInt32))
    ctLen field = n ∧ (field &&& ssecLastChunkMarker != 0) = isLast := by
  have value : n.toUInt32.toNat = n := Nat.mod_eq_of_lt (by omega)
  have below : n.toUInt32.toNat < 2 ^ 31 := by rw [value]; exact small
  simp only [uint32_putUint32]
  cases isLast with
  | false =>
    obtain ⟨bit, rest⟩ := high_bit_clear n.toUInt32 below
    simp only [ctLen, ssecLastChunkMarker, Bool.false_eq_true, if_false] at bit rest ⊢
    rw [rest, bit]
    exact ⟨value, rfl⟩
  | true =>
    obtain ⟨bit, rest⟩ := high_bit_set n.toUInt32 below
    simp only [ctLen, ssecLastChunkMarker, if_true] at bit rest ⊢
    rw [rest, bit]
    exact ⟨value, rfl⟩

/-- What stands at the head of a stream: nothing, a chunk that opens, or
something else. -/
inductive Next where
  | ended
  | broken
  | chunk (plaintext : Bytes) (isLast : Bool) (rest : Bytes)

/-- The chunk that the first four bytes of a stream announce. -/
def nextChunk (C : Primitives) (key nonce : Bytes) (chunkIdx : UInt32) (stream : Bytes) : Next :=
  let field := uint32 (stream.take ssecCiphertextLenSize)
  let size := ctLen field + ssecAuthTagSize
  if stream = [] then .ended
  else if stream.length < ssecCiphertextLenSize + size then .broken
  else
    match C.gcmOpen (deriveChunkKey C key nonce chunkIdx) (chunkNonce nonce chunkIdx)
      ((stream.drop ssecCiphertextLenSize).take size) with
    | none => .broken
    | some plaintext =>
      .chunk plaintext (field &&& ssecLastChunkMarker != 0) (stream.drop (ssecCiphertextLenSize + size))

/-- A refill of the decrypting reader, whatever its source holds. -/
theorem pump_next (D : Reader.Delivers R I) (s : DecryptState σ) {stream : Bytes} (aligned : s.lenBuf = [])
    (held : I s.source stream) :
    match nextChunk C (h.load s.key) s.nonce s.chunkIdx stream with
    | .ended => ∃ source, s.pump C h R = (.error .eof, { s with source, lenBuf := [] }) ∧ I source []
    | .broken => ∃ e, (s.pump C h R).1 = .error e ∧ e ≠ .eof
    | .chunk plaintext isLast rest => ∃ source, s.pump C h R = (.ok (plaintext, isLast),
        { s with source, lenBuf := [], chunkIdx := s.chunkIdx + 1 }) ∧ I source rest := by
  unfold DecryptState.pump nextChunk
  rw [aligned]
  rcases readHeader_spec D (R.left s.source + 2) [] held (Nat.zero_le _) (by omega) with
    ⟨long, source, header, opened⟩ | ⟨short, e, lenBuf, source, header, atEnd, clean⟩
  · rw [header]
    simp only [nil_append, length_nil, Nat.sub_zero] at long opened ⊢
    have some_left : stream ≠ [] := by
      rintro rfl
      exact absurd long (by decide)
    rw [if_neg some_left]
    simp only [DecryptState.readChunk, DecryptState.openChunk_eq]
    generalize ctLen (uint32 (stream.take ssecCiphertextLenSize)) + ssecAuthTagSize = size
    obtain ⟨taken, kept, whole⟩ := Reader.readFull_delivers D opened size
    generalize R.readFull source size = out at *
    obtain ⟨⟨_, err⟩, source'⟩ := out
    rw [length_drop] at whole
    by_cases cut : stream.length < ssecCiphertextLenSize + size
    · rw [if_pos cut]
      rw [if_neg (by omega)] at whole
      obtain ⟨e, rfl⟩ : ∃ e, err = some e := by
        split at whole <;> exact ⟨_, whole⟩
      exact ⟨_, rfl, by simp⟩
    · rw [if_neg cut]
      rw [if_pos (by omega)] at whole
      subst taken whole
      simp only
      cases C.gcmOpen (deriveChunkKey C (h.load s.key) s.nonce s.chunkIdx) (chunkNonce s.nonce s.chunkIdx)
          ((stream.drop ssecCiphertextLenSize).take size) with
      | none => exact ⟨_, rfl, by simp⟩
      | some plaintext => exact ⟨source', rfl, by rwa [← drop_drop]⟩
  · rw [header]
    rw [nil_append] at short atEnd
    by_cases empty : stream = []
    · obtain ⟨rfl, kept⟩ := clean (atEnd.mpr empty)
      rw [if_pos empty, atEnd.mpr empty]
      exact ⟨source, rfl, kept⟩
    · rw [if_neg empty, if_pos (by simp only [ssecAuthTagSize]; omega)]
      exact ⟨e, rfl, fun isEnd => empty (atEnd.mp isEnd)⟩

/-- One chunk with any length field in front of other data: with the length of
its ciphertext it opens to its plaintext, and the highest bit is the marker. -/
theorem nextChunk_exact (C : Primitives) (key nonce plaintext rest : Bytes) (chunkIdx field : UInt32)
    (announced : ctLen field = plaintext.length) :
    nextChunk C key nonce chunkIdx (putUint32 field ++ (chunkSeal C plaintext key nonce chunkIdx).run C ++ rest) =
      .chunk plaintext (field &&& ssecLastChunkMarker != 0) rest := by
  have size := SealCall.run_length C (chunkSeal C plaintext key nonce chunkIdx)
  have width : (putUint32 field).length = ssecCiphertextLenSize := rfl
  rw [show (chunkSeal C plaintext key nonce chunkIdx).plaintext = plaintext from rfl] at size
  simp only [nextChunk]
  rw [append_assoc, take_left' width, drop_left' width, uint32_putUint32, announced, ← size,
    take_left' rfl, ← drop_drop, drop_left' width, drop_left' rfl]
  rw [if_neg (by simp [putUint32]), if_neg (by simp [width])]
  simp only [SealCall.run, chunkSeal, C.open_seal]

theorem nextChunk_frame (C : Primitives) (key nonce plaintext rest : Bytes) (chunkIdx : UInt32) (isLast : Bool)
    (small : plaintext.length ≤ ssecChunkSize) :
    nextChunk C key nonce chunkIdx ((chunkSeal C plaintext key nonce chunkIdx).frame C isLast ++ rest) =
      .chunk plaintext isLast rest := by
  have size : plaintext.length < 2 ^ 31 := Nat.lt_of_le_of_lt small (by decide)
  obtain ⟨length, marked⟩ := field_readback plaintext.length size isLast
  rw [uint32_putUint32] at length marked
  exact (nextChunk_exact C key nonce plaintext rest chunkIdx _ length).trans (by rw [marked])

/-! ### Any stream -/

theorem nextChunk_shorter {key nonce stream plaintext rest : Bytes} {chunkIdx : UInt32} {isLast : Bool}
    (found : nextChunk C key nonce chunkIdx stream = .chunk plaintext isLast rest) : rest.length < stream.length := by
  simp only [nextChunk] at found
  split at found
  · cases found
  split at found
  · cases found
  · split at found
    · cases found
    · cases found
      simp only [length_drop, ssecCiphertextLenSize] at *
      omega

/-- What the reader makes of a stream, and whether it ends with the end of the
data rather than an error. -/
def decryptStream (C : Primitives) (key nonce : Bytes) (chunkIdx : UInt32) (stream : Bytes) : Bytes × Bool :=
  match found : nextChunk C key nonce chunkIdx stream with
  | .ended => ([], true)
  | .broken => ([], false)
  | .chunk plaintext true _ => (plaintext, true)
  | .chunk plaintext false rest =>
    (plaintext ++ (decryptStream C key nonce (chunkIdx + 1) rest).1,
      (decryptStream C key nonce (chunkIdx + 1) rest).2)
termination_by stream.length
decreasing_by
  exact nextChunk_shorter found

theorem decryptStream_eq (C : Primitives) (key nonce : Bytes) (chunkIdx : UInt32) (stream : Bytes) :
    decryptStream C key nonce chunkIdx stream =
      match nextChunk C key nonce chunkIdx stream with
      | .ended => ([], true)
      | .broken => ([], false)
      | .chunk plaintext true _ => (plaintext, true)
      | .chunk plaintext false rest =>
        (plaintext ++ (decryptStream C key nonce (chunkIdx + 1) rest).1,
          (decryptStream C key nonce (chunkIdx + 1) rest).2) := by
  rw [decryptStream]
  split <;> simp [*]

/-- The frames of a plaintext are opened to it. -/
theorem decryptStream_framing (C : Primitives) (key nonce : Bytes) (chunkIdx : UInt32) (data : Bytes) :
    decryptStream C key nonce chunkIdx (framing C (sealsFrom C key nonce chunkIdx data)) = (data, true) := by
  fun_induction sealsFrom C key nonce chunkIdx data with
  | case1 =>
    rw [decryptStream_eq, framing_cons, nextChunk_frame C _ _ _ _ _ true (Nat.zero_le _)]
  | case2 =>
    rw [decryptStream_eq]
    rfl
  | case3 chunkIdx data some_left short =>
    rw [decryptStream_eq, framing_cons, nextChunk_frame C _ _ _ _ _ true (Nat.le_of_lt short)]
  | case4 chunkIdx data some_left long ih =>
    rw [decryptStream_eq, framing_cons, nextChunk_frame C _ _ _ _ _ false (length_take_le _ _)]
    simp only [ih, take_append_drop]

/-- The reader stands between chunks with a stream before it. -/
def Facing (C : Primitives) (h : Heap) (I : σ → Bytes → Prop) (clean : Bool) (s : DecryptState σ)
    (data : Bytes) : Prop :=
  s.lenBuf = [] ∧ ∃ stream, I s.source stream ∧
    decryptStream C (h.load s.key) s.nonce s.chunkIdx stream = (data, clean)

theorem decrypt_finishes (D : Reader.Delivers R I) (clean : Bool) :
    Buffered.Finishes (decryptPump C h R) (Facing C h I clean) fun _ e => e = .eof ↔ clean = true where
  step := by
    rintro s data ⟨aligned, stream, held, made⟩
    have next := pump_next (C := C) (h := h) D s aligned held
    simp only [decryptPump]
    rw [decryptStream_eq] at made
    generalize nextChunk C (h.load s.key) s.nonce s.chunkIdx stream = found at *
    rcases found with _ | _ | ⟨plaintext, _ | _, rest⟩
    · obtain ⟨source, eq, -⟩ := next
      cases made
      exact .inr ⟨.eof, by rw [eq], rfl, by simp⟩
    · obtain ⟨e, eq, failed⟩ := next
      cases made
      exact .inr ⟨e, eq, rfl, by simp [failed]⟩
    · obtain ⟨source, eq, kept⟩ := next
      cases made
      rw [eq]
      exact .inl ⟨plaintext, false, _, rfl, rfl, rfl, rest, kept, rfl⟩
    · obtain ⟨source, eq, kept⟩ := next
      cases made
      rw [eq]
      exact .inl ⟨data, true, [], rfl, by simp, by simp⟩

/-- Any reader over a stream, consumed in any way, gives what `decryptStream`
makes of it. -/
theorem decrypted (D : Reader.Delivers R I) {ciphertext : σ} {stream : Bytes} (held : I ciphertext stream)
    (key : Slice) (nonce : Bytes) (sizes : List Nat) (positive : ∀ n ∈ sizes, 0 < n)
    (enough : (decryptReader C h R).left (newStreamingDecryptReader ciphertext key nonce) < sizes.length) :
    ∃ e, ((decryptReader C h R).reads (newStreamingDecryptReader ciphertext key nonce) sizes).1 =
        ⟨(decryptStream C (h.load key) nonce 0 stream).1, some e⟩ ∧
      (e = .eof ↔ (decryptStream C (h.load key) nonce 0 stream).2 = true) := by
  have started : Buffered.Holds (Facing C h I (decryptStream C (h.load key) nonce 0 stream).2)
      (fun _ e => e = .eof ↔ (decryptStream C (h.load key) nonce 0 stream).2 = true)
      (newStreamingDecryptReader ciphertext key nonce) (decryptStream C (h.load key) nonce 0 stream).1 :=
    ⟨_, rfl, rfl, stream, held, rfl⟩
  exact Reader.reads_to_error (Buffered.ends (decrypt_finishes D _)) started sizes positive enough

end CipherLake.StreamCipher
