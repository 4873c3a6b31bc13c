import CipherLake.Lib.Table

/-! The full-text index: posting lists in segments, of which one takes new documents.
Merging the other segments shows in no search, then or later. -/
namespace CipherLake.IndexSegments
open Lib

structure Token where
  term : Bytes
  position : Int

structure Posting where
  docID : Nat
  termFreq : Int
  positions : List Int
  deriving DecidableEq

/-- A term without a posting list is one with an empty list. -/
structure Segment where
  id : Nat
  postings : Bytes → List Posting
  docLens : Table Nat Nat
  (docCount maxDocs : Int)

def newSegment (id : Nat) (maxDocs : Int) : Segment := ⟨id, fun _ => [], .empty, 0, maxDocs⟩

/-- The loop over the tokens: `termPositions` and `termFreq`. -/
def termMaps (tokens : List Token) : Bytes → List Int × Int :=
  tokens.foldl (fun m t term => if term = t.term then ((m term).1 ++ [t.position], (m term).2 + 1) else m term)
    fun _ => ([], 0)

/-- What a document adds to the list of a term. -/
def posting (docID : Nat) (tokens : List Token) (term : Bytes) : List Posting :=
  let (positions, freq) := termMaps tokens term
  if positions = [] then [] else [⟨docID, freq, positions⟩]

def Segment.addDocument (s : Segment) (docID : Nat) (tokens : List Token) : Bool × Segment :=
  (s.docCount + 1 ≥ s.maxDocs,
    { s with
      postings := fun term => s.postings term ++ posting docID tokens term
      docLens := s.docLens.put docID tokens.length
      docCount := s.docCount + 1 })

def Segment.deleteDocument (s : Segment) (docID : Nat) : Segment :=
  { s with
    postings := fun term => (s.postings term).filter (·.docID ≠ docID)
    docLens := s.docLens.delete docID
    docCount := s.docCount - 1 }

/-- The active segment is given by its id. -/
structure SegmentManager where
  segments : List Segment
  mergeQueue : List Nat
  (maxSegments segmentSize : Int)
  (nextSegID activeSeg : Nat)

def newSegmentManager (segmentSize maxSegments : Int) : SegmentManager :=
  let segmentSize := if segmentSize ≤ 0 then 1024 else segmentSize
  ⟨[newSegment 1 segmentSize], [], if maxSegments ≤ 0 then 10 else maxSegments, segmentSize, 1, 1⟩

namespace SegmentManager

variable {sm : SegmentManager} {older : List Segment} {active : Segment}

def addDocument (sm : SegmentManager) (docID : Nat) (tokens : List Token) : SegmentManager :=
  let added := sm.segments.map fun seg => if seg.id = sm.activeSeg then (seg.addDocument docID tokens).2 else seg
  if sm.segments.any fun seg => seg.id = sm.activeSeg && (seg.addDocument docID tokens).1 then
    let id := sm.nextSegID + 1
    let segments := added ++ [newSegment id sm.segmentSize]
    let signals := segments.length ≥ sm.maxSegments ∧ sm.mergeQueue.length < 100
    { sm with
      segments
      mergeQueue := if signals then sm.mergeQueue ++ [segments.length] else sm.mergeQueue
      nextSegID := id
      activeSeg := id }
  else { sm with segments := added }

def search (sm : SegmentManager) (term : Bytes) : List Posting := sm.segments.flatMap (·.postings term)

def deleteDocument (sm : SegmentManager) (docID : Nat) : SegmentManager :=
  { sm with segments := sm.segments.map (·.deleteDocument docID) }

def mergeSegments (sm : SegmentManager) : SegmentManager :=
  if sm.segments.length ≤ 1 then sm else
    let toMerge := sm.segments.filter (·.id ≠ sm.activeSeg)
    let active := (sm.segments.filter (·.id = sm.activeSeg)).getLast?
    if toMerge.length ≤ 1 then sm else
      let id := sm.nextSegID + 1
      let docLens := toMerge.foldl (fun lens seg => seg.docLens.entries.foldl (fun l e => l.put e.1 e.2) lens) .empty
      let merged : Segment := ⟨id, fun term => toMerge.flatMap (·.postings term), docLens, docLens.entries.length,
        sm.segmentSize * toMerge.length⟩
      { sm with segments := merged :: active.toList, nextSegID := id }

inductive Op where
  | add (docID : Nat) (tokens : List Token)
  | delete (docID : Nat)
  | merge

def step (sm : SegmentManager) : Op → SegmentManager
  | .add docID tokens => sm.addDocument docID tokens
  | .delete docID => sm.deleteDocument docID
  | .merge => sm.mergeSegments

/-- The active segment stands last, and ids are taken once. -/
structure Led (sm : SegmentManager) (older : List Segment) (active : Segment) : Prop where
  segments : sm.segments = older ++ [active]
  id : active.id = sm.activeSeg
  apart : ∀ seg ∈ older, seg.id ≠ sm.activeSeg
  taken : ∀ seg ∈ sm.segments, seg.id ≤ sm.nextSegID

/-- One step keeps the shape, and shows in a search as it should. -/
theorem Led.add (led : Led sm older active) (docID : Nat) (tokens : List Token) :
    (∃ older' active', Led (sm.addDocument docID tokens) older' active') ∧
      ∀ term, (sm.addDocument docID tokens).search term = sm.search term ++ posting docID tokens term := by
  have others : older.map (fun seg => if seg.id = sm.activeSeg then (seg.addDocument docID tokens).2 else seg) = older :=
    (List.map_congr_left fun seg member => if_neg (led.apart seg member)).trans (List.map_id older)
  have fresh : ∀ seg ∈ older ++ [(active.addDocument docID tokens).2], seg.id ≤ sm.nextSegID := by
    have taken := led.taken
    simp only [led.segments, List.forall_mem_append, List.forall_mem_singleton] at taken ⊢
    exact taken
  unfold addDocument search
  simp only [led.segments, List.map_append, others, List.map_cons, List.map_nil, if_pos led.id]
  split
  · refine ⟨⟨_, _, rfl, rfl, fun seg member => ?_, ?_⟩, fun term => ?_⟩
    · exact Nat.ne_of_lt (Nat.lt_succ_of_le (fresh seg member))
    · simp only [List.forall_mem_append, List.forall_mem_singleton] at fresh ⊢
      exact ⟨⟨fun seg member => Nat.le_succ_of_le (fresh.1 seg member), Nat.le_succ_of_le fresh.2⟩, Nat.le_refl _⟩
    · simp [Segment.addDocument, newSegment]
  · exact ⟨⟨_, _, rfl, led.id, led.apart, fresh⟩, fun term => by simp [Segment.addDocument]⟩

theorem Led.delete (led : Led sm older active) (docID : Nat) :
    ∃ older' active', Led (sm.deleteDocument docID) older' active' := by
  refine ⟨older.map (·.deleteDocument docID), active.deleteDocument docID, ?_, led.id, ?_, ?_⟩
  · simp [deleteDocument, led.segments]
  · exact List.forall_mem_map.mpr led.apart
  · exact List.forall_mem_map.mpr led.taken

theorem search_delete (sm : SegmentManager) (docID : Nat) (term : Bytes) :
    (sm.deleteDocument docID).search term = (sm.search term).filter (·.docID ≠ docID) := by
  simp only [search, deleteDocument, List.flatMap_map, List.filter_flatMap]
  rfl

theorem Led.merge (led : Led sm older active) :
    (∃ older' active', Led sm.mergeSegments older' active') ∧ ∀ term, sm.mergeSegments.search term = sm.search term := by
  have toMerge : sm.segments.filter (·.id ≠ sm.activeSeg) = older := by
    simpa [led.segments, List.filter_append, led.id] using led.apart
  have last : (sm.segments.filter (·.id = sm.activeSeg)).getLast? = some active := by
    simp [led.segments, List.filter_append, led.id]
  unfold mergeSegments
  simp only [toMerge, last]
  split
  · exact ⟨⟨older, active, led⟩, fun _ => rfl⟩
  split
  · exact ⟨⟨older, active, led⟩, fun _ => rfl⟩
  · have own : active.id ≤ sm.nextSegID := led.taken active (by simp [led.segments])
    refine ⟨⟨[_], active, rfl, led.id, ?_, ?_⟩, fun term => ?_⟩
    · simp only [List.forall_mem_singleton, ← led.id]
      omega
    · simpa using Nat.le_succ_of_le own
    · simp [search, led.segments]

theorem run_led (segmentSize maxSegments : Int) (ops : List Op) :
    ∃ older active, Led (ops.foldl step (newSegmentManager segmentSize maxSegments)) older active := by
  refine @List.foldlRecOn _ _ (fun sm => ∃ older active, Led sm older active) ops step _ ?_ ?_
  · exact ⟨[], _, rfl, rfl, by simp, by simp [newSegmentManager, newSegment]⟩
  rintro sm ⟨older, active, led⟩ op -
  cases op with
  | add docID tokens => exact (led.add docID tokens).1
  | delete docID => exact led.delete docID
  | merge => exact led.merge.1

/-- After any run, a merge changes no search, a document that is added is found
after what was found before, and one that is deleted is not found any more. -/
theorem merge_unseen (segmentSize maxSegments : Int) (ops : List Op) (term : Bytes) :
    let sm := ops.foldl step (newSegmentManager segmentSize maxSegments)
    sm.mergeSegments.search term = sm.search term ∧
      (∀ docID tokens, (sm.addDocument docID tokens).search term = sm.search term ++ posting docID tokens term) ∧
      ∀ docID, (sm.deleteDocument docID).search term = (sm.search term).filter (·.docID ≠ docID) := by
  obtain ⟨older, active, led⟩ := run_led segmentSize maxSegments ops
  exact ⟨led.merge.2 term, fun docID tokens => (led.add docID tokens).2 term, fun docID => search_delete _ docID term⟩

/-- The posting is added in a run and not deleted later. -/
def Added (term : Bytes) (p : Posting) (ops : List Op) : Prop :=
  ∃ before tokens after, ops = before ++ .add p.docID tokens :: after ∧ p ∈ posting p.docID tokens term ∧
    .delete p.docID ∉ after

theorem added_cons {term : Bytes} {p : Posting} {op : Op} {ops : List Op} : Added term p (op :: ops) ↔
    (∃ tokens, op = .add p.docID tokens ∧ p ∈ posting p.docID tokens term ∧ .delete p.docID ∉ ops) ∨
      Added term p ops := by
  constructor
  · rintro ⟨before, tokens, after, same, posted, kept⟩
    rcases List.cons_eq_append_iff.mp same with ⟨-, same⟩ | ⟨before, -, same⟩
    · obtain ⟨rfl, rfl⟩ := List.cons.inj same
      exact .inl ⟨tokens, rfl, posted, kept⟩
    · exact .inr ⟨before, tokens, after, same, posted, kept⟩
  · rintro (⟨tokens, rfl, posted, kept⟩ | ⟨before, tokens, after, rfl, posted, kept⟩)
    · exact ⟨[], tokens, ops, rfl, posted, kept⟩
    · exact ⟨op :: before, tokens, after, rfl, posted, kept⟩

theorem Led.found_iff (led : Led sm older active) (ops : List Op) (term : Bytes) (p : Posting) :
    p ∈ (ops.foldl step sm).search term ↔ (p ∈ sm.search term ∧ .delete p.docID ∉ ops) ∨ Added term p ops := by
  induction ops generalizing sm older active with
  | nil => simp [Added]
  | cons op ops ih =>
    rw [added_cons, List.foldl_cons]
    cases op with
    | add docID tokens =>
      obtain ⟨⟨_, _, led'⟩, found⟩ := led.add docID tokens
      have own : p ∈ posting docID tokens term → p.docID = docID := by
        simp only [posting]
        split <;> simp +contextual
      rw [step, ih led', found term]
      grind
    | delete docID =>
      obtain ⟨_, _, led'⟩ := led.delete docID
      rw [step, ih led', search_delete]
      grind
    | merge =>
      obtain ⟨⟨_, _, led'⟩, same⟩ := led.merge
      rw [step, ih led', same]
      grind

/-- Through all segments and merges, a search finds the documents that were added and
not deleted since, and no other. -/
theorem search_finds (segmentSize maxSegments : Int) (ops : List Op) (term : Bytes) (p : Posting) :
    p ∈ (ops.foldl step (newSegmentManager segmentSize maxSegments)).search term ↔ Added term p ops := by
  obtain ⟨older, active, led⟩ := run_led segmentSize maxSegments []
  have found := led.found_iff ops term p
  simpa [search, newSegmentManager, newSegment] using found

end SegmentManager

end CipherLake.IndexSegments
