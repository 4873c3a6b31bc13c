import CipherLake.StreamSizes

/-! What the decrypting reader reports of a stream that was cut short or whose
length fields were changed. Nothing in a chunk says which of the chunks it is
from the end: the marker of the last one stands in the length field, which is
not authenticated, and the end of the stream on a chunk border passes for the
end of the data. -/
namespace CipherLake.StreamTruncation
open Lib StreamCipher Coordinator List

/-! ### Streams with other length fields -/

/-- A sealed chunk behind a length field of one's own. -/
abbrev Piece := UInt32 × SealCall

variable (C : Primitives) (piece : Piece) (pieces : List Piece)

def Piece.bytes : Bytes := putUint32 piece.1 ++ piece.2.run C

def stream (pieces : List Piece) : Bytes := pieces.flatMap (Piece.bytes C)

@[simp] theorem stream_nil : stream C [] = [] := rfl

@[simp] theorem stream_cons :
    stream C (piece :: pieces) = piece.bytes C ++ stream C pieces := rfl

/-- The pieces that the encrypting reader writes. -/
def written (calls : List (SealCall × Bool)) : List Piece :=
  calls.map fun call =>
    (if call.2 then call.1.plaintext.length.toUInt32 ||| ssecLastChunkMarker else call.1.plaintext.length.toUInt32,
      call.1)

theorem stream_written (calls : List (SealCall × Bool)) :
    stream C (written calls) = framing C calls := by
  simp only [stream, written, framing, flatMap_map]
  rfl

/-- The length field is that of the chunk. -/
def Piece.Exact : Prop := ctLen piece.1 = piece.2.plaintext.length

/-- The length field carries the marker of the last chunk. -/
def Piece.Marked : Prop := (piece.1 &&& ssecLastChunkMarker != 0) = true

/-- Some of the plaintext is in these pieces. -/
def Carry (pieces : List Piece) : Prop := ∃ piece ∈ pieces, piece.2.plaintext ≠ []

/-- The stream ends on the border before pieces that carry some of the
plaintext. -/
def CutAtBorder (pieces : List Piece) (received : Bytes) : Prop :=
  ∃ front rest, pieces = front ++ rest ∧ received = stream C front ∧
    (∀ piece ∈ front, piece.Exact ∧ ¬ piece.Marked) ∧ Carry rest

/-- A piece before the last of the plaintext is marked as the last chunk. -/
def MarkedEarly (pieces : List Piece) (received : Bytes) : Prop :=
  ∃ front piece rest, pieces = front ++ piece :: rest ∧ stream C (front ++ [piece]) <+: received ∧
    (∀ piece ∈ front, piece.Exact ∧ ¬ piece.Marked) ∧ piece.Exact ∧ piece.Marked ∧ Carry rest

/-- Nothing in the stream of another length than a chunk's own, as announced by
its length field, opens in the chunk's place. -/
def Unforged (pieces : List Piece) (received : Bytes) : Prop :=
  ∀ piece ∈ pieces, ¬ piece.Exact → ∀ forged, forged <:+: received →
    forged.length = ctLen piece.1 + ssecAuthTagSize → C.gcmOpen piece.2.key piece.2.nonce forged = none

/-! ### What is made of them -/

/-- The calls seal chunks with consecutive indices from `chunkIdx` on. -/
def Chunks (C : Primitives) (key nonce : Bytes) : UInt32 → List SealCall → Prop
  | _, [] => True
  | chunkIdx, call :: calls =>
    call = chunkSeal C call.plaintext key nonce chunkIdx ∧ Chunks C key nonce (chunkIdx + 1) calls

theorem sealsFrom_chunks (key nonce : Bytes) (chunkIdx : UInt32) (data : Bytes) :
    Chunks C key nonce chunkIdx ((sealsFrom C key nonce chunkIdx data).map Prod.fst) := by
  fun_induction sealsFrom C key nonce chunkIdx data with
  | case1 => exact ⟨rfl, trivial⟩
  | case2 => trivial
  | case3 => exact ⟨rfl, trivial⟩
  | case4 chunkIdx data some_left long ih => exact ⟨rfl, ih⟩

def plaintexts (calls : List SealCall) : Bytes := calls.flatMap (·.plaintext)

theorem sealsFrom_plaintexts (key nonce : Bytes) (chunkIdx : UInt32) (data : Bytes) :
    plaintexts ((sealsFrom C key nonce chunkIdx data).map Prod.fst) = data := by
  fun_induction sealsFrom C key nonce chunkIdx data with
  | case1 => rfl
  | case2 => rfl
  | case3 => simp [plaintexts, chunkSeal]
  | case4 chunkIdx data some_left long ih =>
    simp only [plaintexts, map_cons, flatMap_cons] at ih ⊢
    rw [ih]
    exact take_append_drop _ _

theorem plaintexts_ne_nil : plaintexts (pieces.map Prod.snd) ≠ [] ↔ Carry pieces := by
  constructor
  · intro some_text
    obtain ⟨_, carried⟩ := exists_mem_of_ne_nil _ some_text
    obtain ⟨_, listed, within⟩ := mem_flatMap.mp carried
    obtain ⟨piece, here, rfl⟩ := mem_map.mp listed
    exact ⟨piece, here, ne_nil_of_mem within⟩
  · rintro ⟨piece, here, some_text⟩ none
    exact some_text (flatMap_eq_nil_iff.mp none _ (mem_map_of_mem here))

/-- The stream is taken for a shorter one. -/
def Early (pieces : List Piece) (received : Bytes) : Prop :=
  CutAtBorder C pieces received ∨ MarkedEarly C pieces received

theorem not_early_nil (received : Bytes) : ¬ Early C [] received := by
  rintro (⟨front, rest, none, -, -, piece, listed, -⟩ | ⟨front, piece, rest, none, -⟩)
  · rw [(append_eq_nil_iff.mp none.symm).2] at listed
    cases listed
  · cases (append_eq_nil_iff.mp none.symm).2

theorem early_at_end :
    Early C (piece :: pieces) [] ↔ Carry (piece :: pieces) := by
  constructor
  · rintro (⟨front, rest, split, -, -, lost, listed, some_text⟩ | ⟨front, _, rest, -, starts, -⟩)
    · exact ⟨lost, split ▸ mem_append_right front listed, some_text⟩
    · have none := prefix_nil.mp starts
      simp [stream, Piece.bytes, putUint32] at none
  · exact fun lost => .inl ⟨[], _, rfl, rfl, by simp, lost⟩

/-- Behind a whole piece that keeps its length: the marker ends the stream, and
otherwise the rest decides. -/
theorem early_cons {piece : Piece} (exact : piece.Exact) (pieces : List Piece) (later : Bytes) :
    Early C (piece :: pieces) (piece.bytes C ++ later) ↔
      (piece.Marked ∧ Carry pieces) ∨ (¬ piece.Marked ∧ Early C pieces later) := by
  constructor
  · rintro (⟨front, rest, split, cut, plain, lost⟩ | ⟨front, last, rest, split, starts, plain, ends, marked, lost⟩)
    · cases front with
      | nil => simp [stream, Piece.bytes, putUint32] at cut
      | cons first front =>
        obtain ⟨rfl, rfl⟩ := cons.inj split
        obtain ⟨here, others⟩ := forall_mem_cons.mp plain
        exact .inr ⟨here.2, .inl ⟨front, rest, rfl, append_cancel_left cut, others, lost⟩⟩
    · cases front with
      | nil =>
        obtain ⟨rfl, rfl⟩ := cons.inj split
        exact .inl ⟨marked, lost⟩
      | cons first front =>
        obtain ⟨rfl, rfl⟩ := cons.inj split
        obtain ⟨here, others⟩ := forall_mem_cons.mp plain
        exact .inr ⟨here.2, .inr ⟨front, last, rest, rfl, (prefix_append_right_inj _).mp starts,
          others, ends, marked, lost⟩⟩
  · rintro (⟨marked, lost⟩ | ⟨unmarked, ⟨front, rest, rfl, rfl, plain, lost⟩ |
      ⟨front, last, rest, rfl, starts, plain, ends, marked, lost⟩⟩)
    · exact .inr ⟨[], piece, pieces, rfl, by simp [stream], by simp, exact, marked, lost⟩
    · exact .inl ⟨piece :: front, rest, rfl, rfl, forall_mem_cons.mpr ⟨⟨exact, unmarked⟩, plain⟩, lost⟩
    · exact .inr ⟨piece :: front, last, rest, rfl, (prefix_append_right_inj _).mpr starts,
        forall_mem_cons.mpr ⟨⟨exact, unmarked⟩, plain⟩, ends, marked, lost⟩

/-- A stream that is taken for a shorter one is cut before a piece or begins
with all of it, its length unchanged. -/
theorem early_begins {C : Primitives} {piece : Piece} {pieces : List Piece} {received : Bytes}
    (early : Early C (piece :: pieces) received) (some_left : received ≠ []) :
    piece.Exact ∧ piece.bytes C <+: received := by
  rcases early with ⟨front, rest, split, rfl, plain, -⟩ | ⟨front, last, rest, split, starts, plain, ends, -, -⟩
  · cases front with
    | nil => exact absurd rfl some_left
    | cons first front =>
      obtain ⟨rfl, rfl⟩ := cons.inj split
      exact ⟨(plain piece (by simp)).1, prefix_append _ _⟩
  · cases front with
    | nil =>
      obtain ⟨rfl, rfl⟩ := cons.inj split
      simp only [nil_append, stream_cons, stream_nil, append_nil] at starts
      exact ⟨ends, starts⟩
    | cons first front =>
      obtain ⟨rfl, rfl⟩ := cons.inj split
      exact ⟨(plain piece (by simp)).1, (prefix_append _ _).trans starts⟩

variable {C : Primitives} {key nonce : Bytes}

/-- A piece that is cut or has another length does not open. -/
theorem nextChunk_broken {chunkIdx field : UInt32} {plaintext rest received : Bytes} (some_left : received ≠ [])
    (starts : received <+: Piece.bytes C (field, chunkSeal C plaintext key nonce chunkIdx) ++ rest)
    (cut : ctLen field = plaintext.length →
      received.length < ssecCiphertextLenSize + (plaintext.length + ssecAuthTagSize))
    (unforged : ctLen field ≠ plaintext.length → ∀ forged, forged <:+: received →
      forged.length = ctLen field + ssecAuthTagSize →
      C.gcmOpen (deriveChunkKey C key nonce chunkIdx) (chunkNonce nonce chunkIdx) forged = none) :
    nextChunk C key nonce chunkIdx received = .broken := by
  simp only [nextChunk]
  rw [if_neg some_left]
  by_cases short : received.length <
      ssecCiphertextLenSize + (ctLen (uint32 (received.take ssecCiphertextLenSize)) + ssecAuthTagSize)
  · rw [if_pos short]
  rw [if_neg short]
  have header : received.take ssecCiphertextLenSize = putUint32 field := by
    have width : ssecCiphertextLenSize ≤ received.length := by omega
    rw [prefix_iff_eq_take.mp starts, take_take, Nat.min_eq_left width, Piece.bytes, append_assoc]
    exact take_left' rfl
  rw [header, uint32_putUint32] at short ⊢
  have altered : ctLen field ≠ plaintext.length := fun exact => by
    omega
  have size : ((received.drop ssecCiphertextLenSize).take (ctLen field + ssecAuthTagSize)).length =
      ctLen field + ssecAuthTagSize := by
    rw [length_take, length_drop]
    omega
  rw [unforged altered _ (( take_prefix _ _).isInfix.trans (drop_suffix _ _).isInfix) size]

/-- What is delivered is the beginning of the text, and it ends cleanly before
the end of it exactly if the stream is taken for a shorter one. -/
def Judged (result : Bytes × Bool) (text : Bytes) (early : Prop) : Prop :=
  result.1 <+: text ∧ (result.2 = true ∧ result.1 ≠ text ↔ early)

theorem judged_ended (shown missing : Bytes) : Judged (shown, true) (shown ++ missing) (missing ≠ []) :=
  ⟨prefix_append _ _, by simp⟩

theorem judged_behind {result : Bytes × Bool} {text : Bytes} {early : Prop} (shown : Bytes)
    (judged : Judged result text early) : Judged (shown ++ result.1, result.2) (shown ++ text) early :=
  ⟨(prefix_append_right_inj _).mpr judged.1, by simpa using judged.2⟩

theorem bytes_length (C : Primitives) (field : UInt32) (call : SealCall) :
    (Piece.bytes C (field, call)).length = ssecCiphertextLenSize + (call.plaintext.length + ssecAuthTagSize) := by
  rw [Piece.bytes, length_append, SealCall.run_length]
  rfl

theorem decryptStream_judged {chunkIdx : UInt32} {pieces : List Piece} {received : Bytes}
    (chunks : Chunks C key nonce chunkIdx (pieces.map Prod.snd)) (cut : received <+: stream C pieces)
    (unforged : Unforged C pieces received) :
    Judged (decryptStream C key nonce chunkIdx received) (plaintexts (pieces.map Prod.snd))
      (Early C pieces received) := by
  induction pieces generalizing chunkIdx received with
  | nil =>
    have none := prefix_nil.mp cut
    subst none
    rw [decryptStream_eq]
    simp [Judged, nextChunk, plaintexts, not_early_nil]
  | cons piece pieces ih =>
    obtain ⟨field, call⟩ := piece
    obtain ⟨sealed, others⟩ := chunks
    obtain ⟨plaintext, rfl⟩ : ∃ plaintext, call = chunkSeal C plaintext key nonce chunkIdx := ⟨_, sealed⟩
    let head : Piece := (field, chunkSeal C plaintext key nonce chunkIdx)
    have text : plaintexts ((head :: pieces).map Prod.snd) =
        plaintext ++ plaintexts (pieces.map Prod.snd) := rfl
    by_cases empty : received = []
    · subst empty
      rw [decryptStream_eq, early_at_end, ← plaintexts_ne_nil]
      exact judged_ended [] _
    by_cases whole : head.Exact ∧ head.bytes C <+: received
    · obtain ⟨exact, later, rfl⟩ := whole
      have cut' : later <+: stream C pieces := (prefix_append_right_inj _).mp cut
      have unforged' : Unforged C pieces later := fun piece listed altered forged part =>
        unforged piece (mem_cons_of_mem _ listed) altered forged (part.trans (suffix_append _ _).isInfix)
      rw [text, early_cons C exact, decryptStream_eq, Piece.bytes,
        nextChunk_exact C key nonce plaintext later chunkIdx field exact]
      by_cases marked : (field &&& ssecLastChunkMarker != 0) = true
      · simp only [head, Piece.Marked, marked, true_and, not_true_eq_false, false_and, or_false]
        rw [← plaintexts_ne_nil]
        exact judged_ended _ _
      · simp only [head, Piece.Marked, marked, Bool.false_eq_true, false_and, not_false_eq_true, true_and, false_or]
        exact judged_behind plaintext (ih others cut' unforged')
    · have short (exact : ctLen field = plaintext.length) :
          received.length < ssecCiphertextLenSize + (plaintext.length + ssecAuthTagSize) := by
        by_contra long
        refine whole ⟨exact, prefix_of_prefix_length_le (prefix_append _ _) cut ?_⟩
        rw [bytes_length]
        exact Nat.not_lt.mp long
      have unopened := unforged head mem_cons_self
      rw [decryptStream_eq, nextChunk_broken empty cut short unopened]
      exact ⟨ nil_prefix, by simpa using fun early => whole (early_begins early empty)⟩

/-! ### What a consumer is told -/

/-- The end of the data does not come after a proper prefix of it. -/
def Reported (data : Bytes) (out : Answer) : Prop :=
  out.err = some .eof → ¬ (out.bytes <+: data ∧ out.bytes ≠ data)

section Consumer

variable {σ σ' : Type} {R : Reader σ} {I : σ → Bytes → Prop} {R' : Reader σ'} {I' : σ' → Bytes → Prop}
  {h h' : Heap} {data nonce : Bytes} {key key' : Slice}

/-- A stream made of the sealed chunks of a plaintext behind any length fields,
and cut anywhere, is reported unless it is cut on a border before the rest of
the plaintext, or marked as ended before it. -/
theorem truncation_reported_iff (D : Reader.Delivers R I) (D' : Reader.Delivers R' I')
    {plaintext : σ} (held : I plaintext data) {sizes : List Nat} (exhausts : Exhausts C R plaintext sizes)
    {pieces : List Piece} (chunks : pieces.map Prod.snd =
      ((encryptReader C h R).reads (newStreamingEncryptReader plaintext key nonce) sizes).2.inner.sealed)
    {received : Bytes} (cut : received <+: stream C pieces) (unforged : Unforged C pieces received)
    (sameKey : h'.load key' = h.load key) {ciphertext : σ'} (stored : I' ciphertext received)
    {sizes' : List Nat} (positive : ∀ n ∈ sizes', 0 < n)
    (enough : (decryptReader C h' R').left (newStreamingDecryptReader ciphertext key' nonce) < sizes'.length) :
    Reported data ((decryptReader C h' R').reads (newStreamingDecryptReader ciphertext key' nonce) sizes').1 ↔
      ¬ CutAtBorder C pieces received ∧ ¬ MarkedEarly C pieces received := by
  obtain ⟨-, calls⟩ := encrypted_stream (C := C) (h := h) D held key nonce sizes exhausts.1 exhausts.2
  rw [calls] at chunks
  have indexed := sealsFrom_chunks C (h.load key) nonce 0 data
  rw [← chunks] at indexed
  have text := sealsFrom_plaintexts C (h.load key) nonce 0 data
  rw [← chunks] at text
  obtain ⟨begins, taken⟩ := decryptStream_judged indexed cut unforged
  rw [text] at begins taken
  obtain ⟨_, out, clean⟩ := decrypted (C := C) (h := h') D' stored key' nonce sizes' positive enough
  rw [sameKey] at out clean
  rw [← not_or, ← Early, ← taken, out, ← clean]
  simp [Reported, begins]

end Consumer

/-! ### The fields the encrypting reader writes -/

theorem written_exact {calls : List (SealCall × Bool)}
    (small : ∀ call ∈ calls, call.1.plaintext.length ≤ ssecChunkSize) : ∀ piece ∈ written calls, piece.Exact := by
  intro piece listed
  obtain ⟨call, member, rfl⟩ := mem_map.mp listed
  have size : call.1.plaintext.length < 2 ^ 31 := Nat.lt_of_le_of_lt (small call member) (by decide)
  have length := (field_readback call.1.plaintext.length size call.2).1
  rwa [uint32_putUint32] at length

theorem sealsFrom_two (C : Primitives) (key nonce : Bytes) {first : Bytes} (full : first.length = ssecChunkSize)
    (last : UInt8) :
    sealsFrom C key nonce 0 (first ++ [last]) =
      [(chunkSeal C first key nonce 0, false), (chunkSeal C [last] key nonce 1, true)] := by
  rw [sealsFrom, if_neg (by simp), if_neg (by simp [full]), take_left' full, drop_left' full]
  rw [sealsFrom, if_neg (by simp), if_pos (by rw [length_singleton]; decide)]
  rfl

/-- A whole chunk that is not marked, with nothing behind it. -/
theorem decryptStream_frame (C : Primitives) (key nonce plaintext : Bytes) (chunkIdx : UInt32)
    (small : plaintext.length ≤ ssecChunkSize) :
    decryptStream C key nonce chunkIdx ((chunkSeal C plaintext key nonce chunkIdx).frame C false) =
      (plaintext, true) := by
  have next := nextChunk_frame C key nonce plaintext [] chunkIdx false small
  rw [append_nil] at next
  have ended : decryptStream C key nonce (chunkIdx + 1) [] = ([], true) := by rw [decryptStream_eq]; rfl
  rw [decryptStream_eq, next]
  simp [ended]

/-- A body in one piece, encrypted and read in `count` pieces. -/
def encryptedWith (C : Primitives) (h : Heap) (nonce body : Bytes) (count : Nat) :
    Answer × StreamingEncryptReader Segments :=
  (encryptReader C h Segments.reader).reads (newStreamingEncryptReader ⟨[body], false⟩ 0 nonce)
    (replicate count 512)

/-- A stored stream in one piece, decrypted and read in `count` pieces. -/
def decryptedWith (C : Primitives) (h : Heap) (nonce stored : Bytes) (count : Nat) : Answer :=
  ((decryptReader C h Segments.reader).reads (newStreamingDecryptReader ⟨[stored], false⟩ 0 nonce)
    (replicate count 512)).1

theorem positive_replicate (count : Nat) : ∀ n ∈ replicate count 512, 0 < n := by
  intro n member
  rw [eq_of_mem_replicate member]
  decide

theorem exhausts_replicate (C : Primitives) (body : Bytes) {count : Nat} (enough : (body.length + 2) * 32789 < count) :
    Exhausts C Segments.reader ⟨[body], false⟩ (replicate count 512) := by
  refine ⟨positive_replicate count, ?_⟩
  rw [encryptReader_left, length_replicate]
  simpa [Segments.reader, Segments.left, ssecChunkSize, ssecCiphertextLenSize, ssecAuthTagSize] using enough

theorem held_piece (body : Bytes) : (⟨[body], false⟩ : Segments).pieces.flatten = body := append_nil body

theorem encryptedWith_eq (C : Primitives) (h : Heap) (nonce body : Bytes) {count : Nat}
    (enough : (body.length + 2) * 32789 < count) :
    (encryptedWith C h nonce body count).1 = ⟨framing C (sealsFrom C (h.load 0) nonce 0 body), some .eof⟩ ∧
      (encryptedWith C h nonce body count).2.inner.sealed = (sealsFrom C (h.load 0) nonce 0 body).map Prod.fst :=
  encrypted_stream Segments.delivers (held_piece body) 0 nonce _ (exhausts_replicate C body enough).1
    (exhausts_replicate C body enough).2

theorem enough_replicate (C : Primitives) (h : Heap) (nonce stored : Bytes) (count : Nat)
    (enough : (stored.length + 2) * 2 ^ 31 < count) :
    (decryptReader C h Segments.reader).left (newStreamingDecryptReader ⟨[stored], false⟩ 0 nonce) <
      (replicate count 512).length := by
  rw [decryptReader_left, length_replicate]
  simpa [Segments.reader, Segments.left] using enough

/-- Two chunks, cut after the first: the reader delivers it and reports the end
of the data. -/
theorem cut_after_first (C : Primitives) (h : Heap) (nonce : Bytes) {first : Bytes}
    (full : first.length = ssecChunkSize) (last : UInt8) {count count' : Nat}
    (enough : (ssecChunkSize + 3) * 32789 < count) (enough' : (ssecChunkSize + 22) * 2 ^ 31 < count') :
    let encrypted := (encryptedWith C h nonce (first ++ [last]) count).1.bytes
    let out := decryptedWith C h nonce (encrypted.take (ssecChunkSize + 20)) count'
    encrypted.length = ssecChunkSize + 1 + 2 * 20 ∧ out = ⟨first, some .eof⟩ ∧ ¬ Reported (first ++ [last]) out := by
  intro encrypted out
  have framed : encrypted = (chunkSeal C first (h.load 0) nonce 0).frame C false ++
      (chunkSeal C [last] (h.load 0) nonce 1).frame C true := by
    have long : ((first ++ [last]).length + 2) * 32789 < count := by simpa [full] using enough
    have whole := (encryptedWith_eq C h nonce (first ++ [last]) long).1
    rw [sealsFrom_two C _ _ full, framing_cons, framing_cons, framing_nil, append_nil] at whole
    exact congrArg Answer.bytes whole
  have size : ((chunkSeal C first (h.load 0) nonce 0).frame C false).length = ssecChunkSize + 20 :=
    (SealCall.frame_length C _ _).trans (congrArg (· + 20) full)
  have shown : out = ⟨first, some .eof⟩ := by
    have stored : encrypted.take (ssecChunkSize + 20) = (chunkSeal C first (h.load 0) nonce 0).frame C false := by
      rw [framed, take_left' size]
    obtain ⟨_, made, clean⟩ := decrypted (C := C) (h := h) Segments.delivers (held_piece _) 0 nonce _
      (positive_replicate count') (enough_replicate C h nonce _ count' (by rw [size]; exact enough'))
    rw [decryptStream_frame C _ _ _ _ (Nat.le_of_eq full)] at made clean
    rw [clean.mpr rfl] at made
    exact (congrArg (decryptedWith C h nonce · count') stored).trans made
  refine ⟨?_, shown, fun reported => ?_⟩
  · rw [framed, length_append, size, SealCall.frame_length]
    rfl
  · rw [shown] at reported
    exact reported rfl ⟨prefix_append _ _, by simp⟩

/-- The letter a, for the length of a chunk. -/
def Sample.letters : Bytes := replicate ssecChunkSize 0x61

/-- A stream of two chunks, cut after the first, passes for the whole. -/
theorem cut_at_border_ends_cleanly :
    let h : Heap := ⟨[Sample.firstClientKey]⟩
    let data := Sample.letters ++ [0x62]
    let encrypted := (encryptedWith Sample.vectors.primitives h Sample.nonce data (2 ^ 31)).1.bytes
    let out := decryptedWith Sample.vectors.primitives h Sample.nonce (encrypted.take (ssecChunkSize + 20)) (2 ^ 47)
    encrypted.length = ssecChunkSize + 1 + 2 * 20 ∧ out = ⟨Sample.letters, some .eof⟩ ∧ ¬ Reported data out := by
  have full : Sample.letters.length = ssecChunkSize := length_replicate
  exact cut_after_first Sample.vectors.primitives ⟨[Sample.firstClientKey]⟩ Sample.nonce full 0x62
    (by decide) (by decide)

/-- The stream of two bytes, cut in the middle, is reported. -/
theorem cut_in_chunk_reported :
    let h : Heap := ⟨[Sample.firstClientKey]⟩
    let encrypted := (encryptedWith Sample.vectors.primitives h Sample.nonce (str "hi") (2 ^ 31)).1.bytes
    Reported (str "hi") (decryptedWith Sample.vectors.primitives h Sample.nonce (encrypted.take 10) (2 ^ 47)) := by
  intro h
  -- the numbers of reads are kept out of the terms that Lean evaluates
  suffices general : ∀ count count', ((str "hi").length + 2) * 32789 < count → (10 + 2) * 2 ^ 31 < count' →
      Reported (str "hi") (decryptedWith Sample.vectors.primitives h Sample.nonce
        ((encryptedWith Sample.vectors.primitives h Sample.nonce (str "hi") count).1.bytes.take 10) count') from
    general _ _ (by decide) (by decide)
  intro count count' enough enough'
  obtain ⟨whole, sealed⟩ := encryptedWith_eq Sample.vectors.primitives h Sample.nonce (str "hi") enough
  have calls : sealsFrom Sample.vectors.primitives (h.load 0) Sample.nonce 0 (str "hi") =
      [(chunkSeal Sample.vectors.primitives (str "hi") (h.load 0) Sample.nonce 0, true)] := by
    rw [sealsFrom, if_neg (by decide), if_pos (by decide)]
  rw [calls] at whole sealed
  generalize call : chunkSeal Sample.vectors.primitives (str "hi") (h.load 0) Sample.nonce 0 = hi at *
  have two : hi.plaintext.length = 2 := by rw [← call]; rfl
  rw [whole, ← stream_written]
  have length : ((stream Sample.vectors.primitives (written [(hi, true)])).take 10).length = 10 := by
    rw [length_take, written, map_singleton, stream_cons, stream_nil, append_nil, bytes_length, two]
    rfl
  have unforged : Unforged Sample.vectors.primitives (written [(hi, true)])
      ((stream Sample.vectors.primitives (written [(hi, true)])).take 10) :=
    fun piece listed altered => absurd (written_exact (by simp [two, ssecChunkSize]) piece listed) altered
  have reported : ¬ Early Sample.vectors.primitives (written [(hi, true)])
      ((stream Sample.vectors.primitives (written [(hi, true)])).take 10) := fun early => by
    have begins := (early_begins early (ne_nil_of_length_pos (by rw [length]; decide))).2.length_le
    rw [bytes_length, two, length] at begins
    exact absurd begins (by decide)
  have chunks : (written [(hi, true)]).map Prod.snd =
      (encryptedWith Sample.vectors.primitives h Sample.nonce (str "hi") count).2.inner.sealed := sealed.symm
  exact (truncation_reported_iff (h := h) Segments.delivers Segments.delivers (held_piece (str "hi"))
    (exhausts_replicate Sample.vectors.primitives _ enough) chunks ( take_prefix 10 _) unforged
    (rfl : h.load 0 = h.load 0)
    (held_piece _) (positive_replicate _)
    (enough_replicate Sample.vectors.primitives h Sample.nonce _ count' (by rw [length]; exact enough'))).mpr
    (not_or.mp reported)

end CipherLake.StreamTruncation
