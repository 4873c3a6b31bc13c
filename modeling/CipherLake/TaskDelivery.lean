import CipherLake.Lib.Runs
import CipherLake.TaskMoves

/-! What the task queue promises over a whole run, with any number of workers,
failures of the store and crashes. No task is lost and none is worked on twice at
a time. How often a handler is started is another matter: a task that was being
processed when the process died waits again after the start, and nobody asks
whether an attempt is left before the handler is called. -/
namespace CipherLake.TaskQueue
open Lib Lib.Runs Table List

variable {c : Config} {q q' : Queue} {l : Ledger}

/-! ### No task is lost -/

def Queue.Holds (q : Queue) (worker : Nat) (id : Bytes) : Prop := (q.workers worker).task.map (·.id) = some id

/-- A submitted task is stored or its handler has returned nil, and a task that is
being processed is held by one worker at most. -/
def Queue.Safe (q : Queue) : Prop :=
  (∀ task ∈ q.submitted, q.store.lookup task.id ≠ none ∨ task.id ∈ q.succeeded) ∧
    ∀ id t, q.store.lookup id = some t → t.status = .processing →
      ∀ worker worker', q.Holds worker id → q.Holds worker' id → worker = worker'

def Store.Fresh (store : Store) : Prop := store = .memory .new ∨ store = .bolt .new

theorem Store.Fresh.shows {store : Store} (fresh : store.Fresh) : store.Shows Table.empty := by
  rcases fresh with rfl | rfl
  · exact MemoryStore.new_shows
  · exact BoltStore.new_shows

theorem Queue.Ready.safe (ready : q.Ready l) : q.Safe := by
  constructor
  · intro task listed
    refine (ready.desk.kept task listed).imp_left ?_
    rintro ⟨t, stored⟩ missing
    have found := ready.shows.lookup task.id
    rw [missing] at found
    cases stored.symm.trans found
  · intro id t _ _ worker worker' holds holds'
    exact ready.desk.apart worker worker' id holds holds'

instance decidableDistinct (q : Queue) : ∀ event, Decidable (Distinct q event)
  | .submit given _ => inferInstanceAs (Decidable (given.task.id ∉ q.submitted.map (·.id)))
  | .register _ => isTrue trivial
  | .start _ => isTrue trivial
  | .claim _ _ => isTrue trivial
  | .judge _ _ => isTrue trivial
  | .finish _ _ => isTrue trivial
  | .settle _ _ => isTrue trivial
  | .crash => isTrue trivial

namespace Sample

theorem soon : 50 < yearTenThousand := by decide

def moment : Moment := ⟨50, soon, ⟨id, fun _ => List.Perm.refl _⟩, none⟩

def config : Config := ⟨2, id⟩

end Sample

open Sample

/-- A task that a worker holds is on record as being processed, and a handler is
started only for tasks that were submitted. -/
def Queue.Recorded (q : Queue) : Prop :=
  (∀ worker id, q.Holds worker id → ∃ t, q.store.lookup id = some t ∧ t.status = .processing) ∧
    ∀ id ∈ q.starts, id ∈ q.submitted.map (·.id)

/-- A start does not find the task still being processed with no attempt left. -/
def Spared (id : Bytes) (q : Queue) : Event → Prop
  | .start _ => q.started = false → ∀ t, q.store.lookup id = some t → t.status = .processing →
      t.attempts < t.maxAttempts
  | _ => True

def Attemptable (id : Bytes) (l : Ledger) : Prop :=
  ∀ t, l.get id = some t → t.status = .processing → t.attempts < t.maxAttempts

/-- A record allows for the handler that was started `starts` times and may be
started `limit` times. -/
structure Allows (limit starts : Int) (t : Task) : Prop where
  most : t.maxAttempts = limit
  pending : t.status = .pending → starts ≤ t.attempts ∧ t.attempts < limit
  processing : t.status = .processing → starts ≤ t.attempts ∧ t.attempts ≤ limit

/-- So does the copy of a worker. -/
def Place.Allows (limit starts : Int) (id : Bytes) : Place → Prop
  | .idle => True
  | .claimed task => task.id = id → task.maxAttempts = limit ∧ starts + 1 ≤ task.attempts ∧ task.attempts ≤ limit
  | .running task => task.id = id → task.maxAttempts = limit ∧ starts ≤ task.attempts ∧ task.attempts ≤ limit
  | .deleting task => task.id = id → task.maxAttempts = limit ∧ task.status = .completed
  | .updating task => task.id = id → TaskQueue.Allows limit starts task ∧ task.status ≠ .processing

namespace Desk

variable {d d' : Desk} {id : Bytes} {limit : Int}

/-- The handler of a task stays within its limit. A worker that has not called it
yet has taken an attempt from the record. -/
structure Within (id : Bytes) (limit : Int) (d : Desk) : Prop where
  fit : limit < 2 ^ 63
  starts : (d.starts.count id : Int) ≤ limit
  record : ∀ t, d.ledger.get id = some t → Allows limit (d.starts.count id) t
  places : ∀ worker, (d.workers worker).Allows limit (d.starts.count id) id
  taken : ∀ worker task, d.workers worker = .claimed task → task.id = id → ∀ t, d.ledger.get id = some t →
    (d.starts.count id : Int) + 1 ≤ t.attempts

/-- The places of workers that have not called the handler, which has an attempt
taken for it. -/
def Awaits (id : Bytes) (l : Ledger) (starts : Int) (place : Place) : Prop :=
  ∀ task, place = .claimed task → task.id = id → ∀ t, l.get id = some t → starts + 1 ≤ t.attempts

variable {starts : Int}

theorem allows_decoded {t : Task} (allows : Allows limit starts t) :
    Allows limit starts t.decoded.plain where
  most := allows.most
  pending := by
    intro pending
    refine allows.pending ?_
    cases status : t.status <;> simp_all [Task.plain, Task.decoded, Status.decoded]
  processing := by
    intro processing
    refine allows.processing ?_
    cases status : t.status <;> simp_all [Task.plain, Task.decoded, Status.decoded]

theorem allows_of_apart {place : Place} (apart : place.task.map (·.id) ≠ some id) :
    place.Allows limit starts id := by
  cases place <;> simp_all [Place.task, Place.Allows]

section
variable (within : d.Within id limit)

include within

/-- A worker goes to a place that is not the first one. -/
theorem Within.reseat (worker : Nat) {place : Place}
    (allows : place.Allows limit (d.starts.count id) id) (later : ∀ task, place ≠ .claimed task) :
    (d.place worker place).Within id limit where
  fit := within.fit
  starts := within.starts
  record := within.record
  places := forall_place allows within.places
  taken := forall_place (P := Awaits id d.ledger (d.starts.count id)) (fun task seated => absurd seated (later task))
    within.taken

variable {worker : Nat}

/-- A worker leaves its task after writing or removing the record. -/
theorem Within.leave (sound : d.Sound) {task : Task}
    (holds : (d.workers worker).task = some task) {l : Ledger}
    (others : ∀ other, task.id ≠ other → l.get other = d.ledger.get other)
    (record : task.id = id → ∀ t, l.get id = some t → Allows limit (d.starts.count id) t) :
    ({ d with ledger := l }.place worker .idle).Within id limit := by
  have seated : (d.place worker .idle).Within id limit := within.reseat worker trivial (by rintro _ ⟨⟩)
  refine { seated with record := ?_, taken := ?_ }
  · intro t stored
    by_cases same : task.id = id
    · exact record same t stored
    · exact within.record t ((others id same).symm.trans stored)
  · refine forall_place_ne (P := Awaits id l (d.starts.count id)) (by rintro _ ⟨⟩) ?_
    intro other mine given there isID t stored
    -- No other worker holds the task that is left.
    have apart : task.id ≠ id := by
      rintro rfl
      have holdsOther : d.holder other = some task.id := isID ▸ holder_of_workers (congrArg Place.task there)
      exact mine (sound.apart other worker task.id holdsOther (holder_of_workers holds))
    exact within.taken other given there isID t ((others id apart).symm.trans stored)

theorem Within.run (sound : d.Sound) {task : Task} (claimed : d.workers worker = .claimed task) :
    Within id limit { d.place worker (.running task) with starts := d.starts ++ [task.id] } := by
  have holds := congrArg Place.task claimed
  have place := within.places worker
  rw [claimed] at place
  by_cases same : task.id = id
  · have count : ((d.starts ++ [task.id]).count id : Int) = d.starts.count id + 1 := by
      rw [count_append, same]
      simp
    have alone : ∀ other, other ≠ worker → (d.workers other).task.map (·.id) ≠ some id := by
      intro other apart holdsOther
      exact apart (sound.apart other worker id holdsOther (same ▸ holder_of_workers holds))
    obtain ⟨t, stored, processing⟩ := sound.held worker task.id (holder_of_workers holds)
    rw [same] at stored
    obtain ⟨most, first, last⟩ := place same
    have here := within.taken worker task claimed same t stored
    have record := within.record t stored
    refine ⟨within.fit, ?_, ?_, ?_, ?_⟩
    · simp only [count]
      omega
    · intro t' stored'
      cases stored.symm.trans stored'
      refine ⟨record.most, ?_, ?_⟩
      · rw [processing]
        rintro ⟨⟩
      · simp only [count]
        exact fun isProcessing => ⟨here, (record.processing isProcessing).2⟩
    · simp only [count]
      exact forall_place_ne (fun _ => ⟨most, first, last⟩) fun other mine => allows_of_apart (alone other mine)
    · refine forall_place_ne (P := Awaits id d.ledger _) (by rintro _ ⟨⟩) ?_
      intro other mine given isClaimed isID
      exact absurd (by rw [isClaimed, ← isID]; rfl) (alone other mine)
  · have count : (d.starts ++ [task.id]).count id = d.starts.count id := by
      rw [count_append, count_singleton, if_neg (by simpa using same), Nat.add_zero]
    have seated : (d.place worker (.running task)).Within id limit :=
      within.reseat worker (fun isID => absurd isID same) (by rintro _ ⟨⟩)
    refine ⟨within.fit, ?_, ?_, ?_, ?_⟩
    · simp only [count]
      exact seated.starts
    · simp only [count]
      exact seated.record
    · simp only [count]
      exact seated.places
    · simp only [count]
      exact seated.taken

theorem Within.claim (sound : d.Sound) {stored copy : Task}
    (claims : Store.Claims d.ledger stored copy) :
    ({ d with ledger := d.ledger.put stored.id (stored.claimed 0) }.place worker (.claimed copy)).Within id limit := by
  by_cases same : stored.id = id
  · subst same
    have attempts : copy.attempts = int64 (stored.attempts + 1) :=
      show copy.plain.attempts = (stored.claimed 0).attempts from congrArg Task.attempts claims.plain
    have most : copy.maxAttempts = stored.maxAttempts :=
      show copy.plain.maxAttempts = (stored.claimed 0).maxAttempts from congrArg Task.maxAttempts claims.plain
    have record := within.record stored claims.held
    obtain ⟨_, _⟩ := record.pending claims.pending
    have fit := within.fit
    have whole : int64 (stored.attempts + 1) = stored.attempts + 1 := int64_of_small (by omega) (by omega)
    refine ⟨fit, within.starts, ?_, ?_, ?_⟩
    · intro t found
      cases (get_put_same _ _ _).symm.trans found
      refine ⟨record.most, by rintro ⟨⟩, fun _ => ?_⟩
      simp only [Task.claimed, whole, Desk.place]
      omega
    · refine forall_place (fun _ => ?_) fun other => allows_of_apart (sound.free claims other)
      rw [attempts, whole, most]
      exact ⟨record.most, show (d.starts.count stored.id : Int) + 1 ≤ _ by omega, by omega⟩
    · intro other given isClaimed isID t found
      cases (get_put_same _ _ _).symm.trans found
      simp only [Task.claimed, whole, Desk.place]
      omega
  · have keeps := get_put_ne d.ledger (stored.claimed 0) same
    refine ⟨within.fit, within.starts, ?_, ?_, ?_⟩
    · exact fun t found => within.record t (keeps.symm.trans found)
    · exact forall_place (fun isID => absurd (claims.id.symm.trans isID) same) within.places
    · refine forall_place (P := Awaits id _ (d.starts.count id)) ?_
        fun other given isClaimed isID t found => within.taken other given isClaimed isID t (keeps.symm.trans found)
      rintro _ ⟨⟩ isID
      exact absurd (claims.id.symm.trans isID) same

/-- A start gives back what has an attempt left. -/
theorem Within.recover (idle : ∀ worker, d.workers worker = .idle)
    (left : Attemptable id d.ledger) : Within id limit { d with ledger := d.ledger.map (Task.recovered 0) } := by
  refine { within with record := ?_, taken := ?_ }
  · intro t found
    obtain ⟨stored, held, rfl⟩ := Option.map_eq_some_iff.mp ((get_map _ _ _).symm.trans found)
    have record := within.record stored held
    unfold Task.recovered
    split
    · next processing =>
      have more := left stored held processing
      refine ⟨record.most, fun _ => ⟨(record.processing processing).1, ?_⟩, by rintro ⟨⟩⟩
      exact record.most ▸ more
    · exact record
  · intro worker task claimed
    cases (idle worker).symm.trans claimed

end

theorem allows_failed {task : Task} (message : Bytes)
    (running : task.maxAttempts = limit ∧ starts ≤ task.attempts ∧ task.attempts ≤ limit) :
    Allows limit starts (task.failed message) ∧ (task.failed message).status ≠ .processing := by
  obtain ⟨most, first, -⟩ := running
  unfold Task.failed
  split
  · exact ⟨⟨most, by rintro ⟨⟩, by rintro ⟨⟩⟩, by rintro ⟨⟩⟩
  · next more => exact ⟨⟨most, fun _ => ⟨first, most ▸ not_le.mp more⟩, by rintro ⟨⟩⟩, by rintro ⟨⟩⟩

/-- Every move keeps a submitted task within its limit, if a start does not give
back one that has no attempt left. -/
theorem Move.within (move : Move (Attemptable id) d d') (sound : d.Sound) (known : id ∈ d.submitted.map (·.id))
    (within : d.Within id limit) : d'.Within id limit := by
  cases move with
  | stay => exact within
  | submit task encodable _ _ new =>
    have apart : task.id ≠ id := fun same => new (same ▸ known)
    have keeps := get_put_ne d.ledger task.decoded.plain apart
    refine { within with record := ?_, taken := ?_ }
    · exact fun t found => within.record t (keeps.symm.trans found)
    · exact fun worker given claimed isID t found =>
        within.taken worker given claimed isID t (keeps.symm.trans found)
  | recover idle left => exact within.recover idle left
  | claim worker stored copy idle claims => exact within.claim sound claims
  | dismiss worker task written claimed dismissed =>
    have place := within.places worker
    rw [claimed] at place
    refine within.reseat worker ?_ (by rintro _ ⟨⟩)
    rcases dismissed with rfl | ⟨_, rfl⟩
    · exact fun isID => ⟨⟨(place isID).1, by rintro ⟨⟩, by rintro ⟨⟩⟩, by rintro ⟨⟩⟩
    · exact fun isID => ⟨⟨(place isID).1, by rintro ⟨⟩, by rintro ⟨⟩⟩, by rintro ⟨⟩⟩
  | run worker task claimed => exact within.run sound claimed
  | succeed worker task running =>
    have place := within.places worker
    rw [running] at place
    have seated : (d.place worker (.deleting task.completed)).Within id limit :=
      within.reseat worker (fun isID => ⟨(place isID).1, rfl⟩) (by rintro _ ⟨⟩)
    exact { seated with }
  | fail worker task message running =>
    have place := within.places worker
    rw [running] at place
    refine within.reseat worker (fun isID => ?_) (by rintro _ ⟨⟩)
    exact allows_failed message (place ((failed_id task message).symm.trans isID))
  | remove worker task deleting =>
    refine within.leave sound (congrArg Place.task deleting) (fun other apart => get_delete_ne _ apart) ?_
    rintro rfl t found
    rw [get_delete_same] at found
    cases found
  | keep worker task e deleting =>
    have place := within.places worker
    rw [deleting] at place
    refine within.reseat worker (fun isID => ?_) (by rintro _ ⟨⟩)
    obtain ⟨most, completed⟩ := place isID
    have status : (task.uncleaned e).status = .completed := completed
    refine ⟨⟨most, ?_, ?_⟩, ?_⟩ <;> rw [status] <;> rintro ⟨⟩
  | write worker task updating =>
    have place := within.places worker
    rw [updating] at place
    refine within.leave sound (congrArg Place.task updating) (fun other apart => get_put_ne _ _ apart) ?_
    rintro rfl t found
    rw [get_put_same] at found
    cases found
    exact allows_decoded (place rfl).1
  | giveUp worker task updating =>
    exact within.leave sound (congrArg Place.task updating) (fun _ _ => rfl) fun _ t found => within.record t found
  | crash => exact { within with places := fun _ => trivial, taken := by rintro _ _ ⟨⟩ }

/-- Every task that was new when it was submitted is within its limit. -/
def Bounded (id : Bytes) (d : Desk) : Prop :=
  ∀ task ∈ d.submitted, task.id = id → task.attempts = 0 → d.Within id task.maxAttempts

theorem Sound.submit_within (sound : d.Sound) {task : Task} (new : task.id ∉ d.submitted.map (·.id))
    (some_ : 1 ≤ task.maxAttempts) (fit : task.maxAttempts < 2 ^ 63) (unused : task.attempts = 0) :
    Within task.id task.maxAttempts
      { d with ledger := d.ledger.put task.id task.decoded.plain, submitted := d.submitted ++ [task] } := by
  have count : d.starts.count task.id = 0 := count_eq_zero.mpr fun started => new (sound.begun task.id started)
  have free : ∀ worker, d.holder worker ≠ some task.id := by
    intro worker holds
    obtain ⟨t, stored, -⟩ := sound.held worker task.id holds
    exact new (sound.known task.id t stored)
  refine ⟨fit, ?_, ?_, fun worker => allows_of_apart (free worker), ?_⟩
  · simp only [count]
    omega
  · intro t found
    cases (get_put_same _ _ _).symm.trans found
    simp only [count]
    refine allows_decoded ⟨rfl, fun _ => ?_, fun _ => ?_⟩ <;> rw [unused] <;> omega
  · intro worker given claimed isID
    exact absurd (isID ▸ holder_of_workers (congrArg Place.task claimed)) (free worker)

theorem Move.bounded (move : Move (Attemptable id) d d') (sound : d.Sound) (bounded : d.Bounded id) :
    d'.Bounded id := by
  intro task listed isID unused
  by_cases before : task ∈ d.submitted
  · exact move.within sound (isID ▸ mem_map_of_mem before) (bounded task before isID unused)
  · cases move with
    | submit given encodable some_ fit new =>
      rcases mem_append.mp listed with earlier | last
      · exact absurd earlier before
      · obtain rfl := mem_singleton.mp last
        subst isID
        exact sound.submit_within new some_ fit unused
    | _ => exact absurd listed before

end Desk

namespace Sample

end Sample

instance decidableSpared (id : Bytes) (q : Queue) : ∀ event, Decidable (Spared id q event)
  | .start _ => inferInstanceAs (Decidable (q.started = false → ∀ t ∈ q.store.lookup id, t.status = .processing →
      t.attempts < t.maxAttempts))
  | .register _ => isTrue trivial
  | .submit _ _ => isTrue trivial
  | .claim _ _ => isTrue trivial
  | .judge _ _ => isTrue trivial
  | .finish _ _ => isTrue trivial
  | .settle _ _ => isTrue trivial
  | .crash => isTrue trivial

end CipherLake.TaskQueue
