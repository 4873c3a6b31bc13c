import CipherLake.TaskWorkers

/-! What happens to the tasks, without the stores. `Desk` is what the ledger of a
store and the workers know of them together, and `Move` is what can happen there;
every step of the queue is a move. On a sound desk a task that a worker holds is
being processed and is held by no other worker. -/
namespace CipherLake.TaskQueue
open Lib List Table

/-- What the store and the workers know of the tasks. -/
structure Desk where
  ledger : Ledger
  workers : Nat → Place
  submitted : List Task
  (starts succeeded : List Bytes)

def Queue.desk (q : Queue) (l : Ledger) : Desk := ⟨l, q.workers, q.submitted, q.starts, q.succeeded⟩

namespace Desk

def place (d : Desk) (worker : Nat) (place : Place) : Desk :=
  { d with workers := Function.update d.workers worker place }

/-- The id of the task that a worker holds. -/
def holder (d : Desk) (worker : Nat) : Option Bytes := (d.workers worker).task.map (·.id)

/-- What can happen at the desk, if only such ledgers are recovered. -/
inductive Move (recoverable : Ledger → Prop) : Desk → Desk → Prop where
  | stay (d : Desk) : Move recoverable d d
  | submit (d : Desk) (task : Task) (encodable : Encodable task) (some_ : 1 ≤ task.maxAttempts)
      (fit : task.maxAttempts < 2 ^ 63) (new : task.id ∉ d.submitted.map (·.id)) :
      Move recoverable d { d with
        ledger := d.ledger.put task.id task.decoded.plain
        submitted := d.submitted ++ [task] }
  | recover (d : Desk) (idle : ∀ worker, d.workers worker = .idle) (known : recoverable d.ledger) :
      Move recoverable d { d with ledger := d.ledger.map (Task.recovered 0) }
  | claim (d : Desk) (worker : Nat) (stored copy : Task) (idle : d.workers worker = .idle)
      (claims : Store.Claims d.ledger stored copy) :
      Move recoverable d ({ d with ledger := d.ledger.put stored.id (stored.claimed 0) }.place worker (.claimed copy))
  | dismiss (d : Desk) (worker : Nat) (task written : Task) (claimed : d.workers worker = .claimed task)
      (dismissed : written = task.expired ∨ ∃ quote, written = task.unhandled quote) :
      Move recoverable d (d.place worker (.updating written))
  | run (d : Desk) (worker : Nat) (task : Task) (claimed : d.workers worker = .claimed task) :
      Move recoverable d { d.place worker (.running task) with starts := d.starts ++ [task.id] }
  | succeed (d : Desk) (worker : Nat) (task : Task) (running : d.workers worker = .running task) :
      Move recoverable d { d.place worker (.deleting task.completed) with succeeded := d.succeeded ++ [task.id] }
  | fail (d : Desk) (worker : Nat) (task : Task) (message : Bytes) (running : d.workers worker = .running task) :
      Move recoverable d (d.place worker (.updating (task.failed message)))
  | remove (d : Desk) (worker : Nat) (task : Task) (deleting : d.workers worker = .deleting task) :
      Move recoverable d ({ d with ledger := d.ledger.delete task.id }.place worker .idle)
  | keep (d : Desk) (worker : Nat) (task : Task) (e : StoreErr) (deleting : d.workers worker = .deleting task) :
      Move recoverable d (d.place worker (.updating (task.uncleaned e)))
  | write (d : Desk) (worker : Nat) (task : Task) (updating : d.workers worker = .updating task) :
      Move recoverable d ({ d with ledger := d.ledger.put task.id task.decoded.plain }.place worker .idle)
  | giveUp (d : Desk) (worker : Nat) (task : Task) (updating : d.workers worker = .updating task) :
      Move recoverable d (d.place worker .idle)
  | crash (d : Desk) : Move recoverable d { d with workers := fun _ => .idle }

/-- A task that a worker holds is being processed and is held by no other, and
only tasks that succeeded are missing. -/
structure Sound (d : Desk) : Prop where
  ledger : d.ledger.Sound Store.Any
  encodable : ∀ worker task, (d.workers worker).task = some task → Encodable task
  held : ∀ worker id, d.holder worker = some id → ∃ t, d.ledger.get id = some t ∧ t.status = .processing
  apart : ∀ worker worker' id, d.holder worker = some id → d.holder worker' = some id → worker = worker'
  deleted : ∀ worker task, d.workers worker = .deleting task → task.id ∈ d.succeeded
  kept : ∀ task ∈ d.submitted, (∃ t, d.ledger.get task.id = some t) ∨ task.id ∈ d.succeeded
  known : ∀ id t, d.ledger.get id = some t → id ∈ d.submitted.map (·.id)
  begun : ∀ id ∈ d.starts, id ∈ d.submitted.map (·.id)

variable {d d' : Desk} {worker : Nat} {place : Place} {recoverable : Ledger → Prop}

theorem holder_place (d : Desk) (worker : Nat) (place : Place) (other : Nat) :
    (d.place worker place).holder other = if other = worker then place.task.map (·.id) else d.holder other := by
  unfold holder Desk.place
  by_cases same : other = worker
  · subst same
    simp
  · simp [same]

theorem holder_of_workers {task : Task} (holds : (d.workers worker).task = some task) :
    d.holder worker = some task.id := by
  simp [holder, holds]

/-- What holds of the places of the others, and of the one that a worker takes, holds
of every place then. -/
theorem forall_place_ne {P : Place → Prop} (taken : P place) (before : ∀ other, other ≠ worker → P (d.workers other)) :
    ∀ other, P ((d.place worker place).workers other) :=
  (Function.forall_update_iff _ fun _ => P).mpr ⟨taken, before⟩

theorem forall_place {P : Place → Prop} (taken : P place) (before : ∀ other, P (d.workers other)) :
    ∀ other, P ((d.place worker place).workers other) :=
  forall_place_ne taken fun other _ => before other

/-- The places of workers whose tasks can be stored. -/
def Storable (place : Place) : Prop := ∀ task, place.task = some task → Encodable task

/-- The places of workers that remove only these tasks. -/
def Removes (ids : List Bytes) (place : Place) : Prop := ∀ task, place = .deleting task → task.id ∈ ids

/-- A worker that goes on with the same task. -/
theorem Sound.reseat (sound : d.Sound) {task task' : Task} (holds : (d.workers worker).task = some task)
    (holds' : place.task = some task') (same : task'.id = task.id) (timely : task'.timely = task.timely)
    (deleted : ∀ t, place = .deleting t → t.id ∈ d.succeeded) : (d.place worker place).Sound := by
  have holders : (d.place worker place).holder = d.holder := by
    funext other
    rw [holder_place]
    split
    · next here => rw [here, holder_of_workers holds, holds', Option.map_some, same]
    · rfl
  have here := sound.encodable worker task holds
  have storable : Storable place := by
    intro t seated
    cases holds'.symm.trans seated
    exact ⟨timely.trans here.timely, by rw [same, here.text], by rw [same]; exact here.named⟩
  exact { sound with
    encodable := forall_place storable sound.encodable
    held := by rw [holders]; exact sound.held
    apart := by rw [holders]; exact sound.apart
    deleted := forall_place (P := Removes d.succeeded) deleted sound.deleted }

/-- A worker that is done with its task, the last thing it did being to write or
remove its record, or nothing. -/
theorem Sound.leave (sound : d.Sound) {task : Task} (holds : (d.workers worker).task = some task) {l : Ledger}
    (ledger : l.Sound Store.Any) (others : ∀ id, task.id ≠ id → l.get id = d.ledger.get id)
    (missing : l.get task.id = none → task.id ∈ d.succeeded) : ({ d with ledger := l }.place worker .idle).Sound := by
  have stays : ∀ other id, ({ d with ledger := l }.place worker .idle).holder other = some id →
      other ≠ worker ∧ d.holder other = some id := by
    intro other id holdsOther
    rw [holder_place] at holdsOther
    split at holdsOther
    · cases holdsOther
    · next apart => exact ⟨apart, holdsOther⟩
  have mine := holder_of_workers holds
  have storable : Storable .idle := by rintro t ⟨⟩
  have removes : Removes d.succeeded .idle := by rintro t ⟨⟩
  refine ⟨ledger, forall_place storable sound.encodable, ?_, ?_, forall_place removes sound.deleted, ?_, ?_, sound.begun⟩
  · intro other id holdsOther
    obtain ⟨apart, before⟩ := stays other id holdsOther
    have different : task.id ≠ id := fun same => apart (sound.apart other worker id before (same ▸ mine))
    obtain ⟨t, stored, processing⟩ := sound.held other id before
    exact ⟨t, (others id different).trans stored, processing⟩
  · intro other other' id holdsOther holdsOther'
    exact sound.apart other other' id (stays other id holdsOther).2 (stays other' id holdsOther').2
  · intro given listed
    by_cases same : task.id = given.id
    · cases stored : l.get task.id with
      | none => exact .inr (same ▸ missing stored)
      | some t => exact .inl ⟨t, same ▸ stored⟩
    · refine (sound.kept given listed).imp_left ?_
      rintro ⟨t, stored⟩
      exact ⟨t, (others given.id same).trans stored⟩
  · intro id t stored
    by_cases same : task.id = id
    · subst same
      obtain ⟨t, before, -⟩ := sound.held worker task.id mine
      exact sound.known task.id t before
    · exact sound.known id t ((others id same).symm.trans stored)

theorem Sound.submit (sound : d.Sound) {task : Task} (encodable : Encodable task)
    (new : task.id ∉ d.submitted.map (·.id)) :
    Sound { d with ledger := d.ledger.put task.id task.decoded.plain, submitted := d.submitted ++ [task] } where
  ledger := sound.ledger.hand trivial encodable
  encodable := sound.encodable
  held := by
    intro worker id holds
    obtain ⟨t, stored, processing⟩ := sound.held worker id holds
    have apart : task.id ≠ id := fun same => new (same ▸ sound.known id t stored)
    exact ⟨t, (get_put_ne _ _ apart).trans stored, processing⟩
  apart := sound.apart
  deleted := sound.deleted
  kept := by
    intro given listed
    by_cases same : task.id = given.id
    · rw [← same, get_put_same]
      exact .inl ⟨_, rfl⟩
    · rcases mem_append.mp listed with before | last
      · rw [get_put_ne _ _ same]
        exact sound.kept given before
      · exact absurd (mem_singleton.mp last ▸ rfl) same
  known := by
    intro id t stored
    rw [map_append, mem_append]
    by_cases same : task.id = id
    · exact .inr (mem_singleton.mpr same.symm)
    · exact .inl (sound.known id t ((get_put_ne _ _ same).symm.trans stored))
  begun := by
    intro id started
    rw [map_append, mem_append]
    exact .inl (sound.begun id started)

theorem Sound.recover (sound : d.Sound) (idle : ∀ worker, d.workers worker = .idle) :
    Sound { d with ledger := d.ledger.map (Task.recovered 0) } where
  ledger := Ledger.perform_sound sound.ledger .recoverProcessing (by rintro t ⟨⟩)
  encodable := sound.encodable
  held := by
    intro worker id holds
    have none : d.holder worker = none := by simp [holder, idle worker, Place.task]
    cases none.symm.trans holds
  apart := sound.apart
  deleted := sound.deleted
  kept := by
    intro given listed
    refine (sound.kept given listed).imp_left ?_
    rintro ⟨t, stored⟩
    exact ⟨t.recovered 0, by rw [get_map, stored]; rfl⟩
  known := by
    intro id t stored
    obtain ⟨t, before, -⟩ := Option.map_eq_some_iff.mp ((get_map _ _ _).symm.trans stored)
    exact sound.known id t before
  begun := sound.begun

/-- What waits is held by nobody. -/
theorem Sound.free (sound : d.Sound) {stored copy : Task} (claims : Store.Claims d.ledger stored copy) (other : Nat) :
    d.holder other ≠ some stored.id := by
  intro holds
  obtain ⟨_, found, processing⟩ := sound.held other stored.id holds
  cases claims.held.symm.trans found
  cases claims.pending.symm.trans processing

theorem Sound.claim (sound : d.Sound) {stored copy : Task} (idle : d.workers worker = .idle)
    (claims : Store.Claims d.ledger stored copy) :
    ({ d with ledger := d.ledger.put stored.id (stored.claimed 0) }.place worker (.claimed copy)).Sound := by
  have keeps : ∀ id, stored.id ≠ id → (d.ledger.put stored.id (stored.claimed 0)).get id = d.ledger.get id :=
    fun id apart => get_put_ne _ _ apart
  have free := sound.free claims
  have holders : ∀ other id, ({ d with ledger := d.ledger.put stored.id (stored.claimed 0) }.place worker
      (.claimed copy)).holder other = some id →
        (other = worker ∧ id = stored.id) ∨ (other ≠ worker ∧ d.holder other = some id) := by
    intro other id holds
    rw [holder_place] at holds
    split at holds
    · next here =>
      simp only [Place.task, Option.map_some, Option.some.injEq] at holds
      exact .inl ⟨here, holds.symm.trans claims.id⟩
    · next apart => exact .inr ⟨apart, holds⟩
  have storable : Storable (.claimed copy) := by
    rintro t ⟨⟩
    exact claims.encodable
  have removes : Removes d.succeeded (.claimed copy) := by rintro t ⟨⟩
  refine ⟨?_, forall_place storable sound.encodable, ?_, ?_, forall_place removes sound.deleted, ?_, ?_, sound.begun⟩
  · exact Ledger.Sound.put sound.ledger (Ledger.kept_claimed (sound.ledger.kept _ stored claims.held))
  · intro other id holds
    rcases holders other id holds with ⟨-, rfl⟩ | ⟨-, before⟩
    · exact ⟨_, get_put_same _ _ _, rfl⟩
    · obtain ⟨t, found, processing⟩ := sound.held other id before
      have apart : stored.id ≠ id := fun same => free other (same ▸ before)
      exact ⟨t, (keeps id apart).trans found, processing⟩
  · intro other other' id holds holds'
    rcases holders other id holds with ⟨rfl, rfl⟩ | ⟨-, before⟩
    · rcases holders other' stored.id holds' with ⟨rfl, -⟩ | ⟨-, before'⟩
      · rfl
      · exact absurd before' (free other')
    · rcases holders other' id holds' with ⟨-, rfl⟩ | ⟨-, before'⟩
      · exact absurd before (free other)
      · exact sound.apart other other' id before before'
  · intro given listed
    by_cases same : stored.id = given.id
    · left
      rw [← same]
      exact ⟨_, get_put_same _ _ _⟩
    · refine (sound.kept given listed).imp_left ?_
      rintro ⟨t, found⟩
      exact ⟨t, (keeps given.id same).trans found⟩
  · intro id t found
    by_cases same : stored.id = id
    · exact same ▸ sound.known stored.id stored claims.held
    · exact sound.known id t ((keeps id same).symm.trans found)

theorem failed_id (task : Task) (message : Bytes) : (task.failed message).id = task.id := by
  unfold Task.failed
  split <;> rfl

theorem failed_timely (task : Task) (message : Bytes) : (task.failed message).timely = task.timely := by
  unfold Task.failed
  split <;> rfl

/-- Every move keeps the desk sound. -/
theorem Move.sound (move : Move recoverable d d') (sound : d.Sound) : d'.Sound := by
  cases move with
  | stay => exact sound
  | submit task encodable _ _ new => exact sound.submit encodable new
  | recover idle _ => exact sound.recover idle
  | claim worker stored copy idle claims => exact sound.claim idle claims
  | dismiss worker task written claimed dismissed =>
    rcases dismissed with rfl | ⟨_, rfl⟩ <;>
      exact sound.reseat (congrArg Place.task claimed) rfl rfl rfl (by rintro t ⟨⟩)
  | run worker task claimed =>
    have holds := congrArg Place.task claimed
    have seated : (d.place worker (.running task)).Sound := sound.reseat holds rfl rfl rfl (by rintro t ⟨⟩)
    refine { seated with begun := ?_ }
    intro id started
    rcases mem_append.mp started with before | last
    · exact sound.begun id before
    · obtain ⟨t, stored, -⟩ := sound.held worker task.id (holder_of_workers holds)
      exact mem_singleton.mp last ▸ sound.known task.id t stored
  | succeed worker task running =>
    have noted : Sound { d with succeeded := d.succeeded ++ [task.id] } :=
      { sound with
        deleted := fun other t deleting => mem_append_left _ (sound.deleted other t deleting)
        kept := fun given listed => (sound.kept given listed).imp_right (mem_append_left _) }
    have completed : (Place.deleting task.completed).task = some task.completed := rfl
    refine Sound.reseat noted (congrArg Place.task running) completed rfl rfl ?_
    rintro t ⟨⟩
    exact mem_append_right _ mem_cons_self
  | fail worker task message running =>
    exact sound.reseat (congrArg Place.task running) rfl (failed_id task message) (failed_timely task message)
      (by rintro t ⟨⟩)
  | remove worker task deleting =>
    exact sound.leave (congrArg Place.task deleting) (sound.ledger.delete task.id)
      (fun id apart => get_delete_ne _ apart) fun _ => sound.deleted worker task deleting
  | keep worker task e deleting =>
    exact sound.reseat (congrArg Place.task deleting) rfl rfl rfl (by rintro t ⟨⟩)
  | write worker task updating =>
    have holds := congrArg Place.task updating
    refine sound.leave holds (sound.ledger.hand trivial (sound.encodable worker task holds))
      (fun id apart => get_put_ne _ _ apart) ?_
    intro missing
    rw [get_put_same] at missing
    cases missing
  | giveUp worker task updating =>
    have holds := congrArg Place.task updating
    refine sound.leave holds sound.ledger (fun _ _ => rfl) fun missing => ?_
    obtain ⟨t, stored, -⟩ := sound.held worker task.id (holder_of_workers holds)
    cases missing.symm.trans stored
  | crash =>
    exact { sound with
      encodable := by rintro _ _ ⟨⟩
      held := by rintro _ _ ⟨⟩
      apart := by rintro _ _ _ ⟨⟩
      deleted := by rintro _ _ ⟨⟩ }

end Desk

/-! ### The steps of the queue -/

namespace Queue
open Desk (Move)

/-- The store shows the ledger of a sound desk, and nobody works before the
start. -/
structure Ready (l : Ledger) (q : Queue) : Prop where
  shows : q.store.Shows l
  desk : (q.desk l).Sound
  resting : q.started = false → ∀ worker, q.workers worker = .idle

variable {c : Config} {q q' : Queue} {l : Ledger} {recoverable : Ledger → Prop}

variable {worker : Nat} {task : Task}

/-- A worker that holds a task is at work. -/
theorem Ready.started (ready : q.Ready l) (holds : (q.workers worker).task = some task) : q.started = true := by
  cases started : q.started with
  | true => rfl
  | false =>
    rw [ready.resting started worker] at holds
    cases holds

end Queue

end CipherLake.TaskQueue
