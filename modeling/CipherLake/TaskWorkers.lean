import CipherLake.TaskStoreEquivalence

/-! The workers of the task queue. Each of them goes round in `processOne`, a
store call, a look at a clock or the return of a handler at a time, and they may
come in any order; the process may crash and be started again between any two of
these steps. Whichever store is behind them, a call either does to its ledger what
it is for or fails and leaves the store as it was. -/
namespace CipherLake.TaskQueue
open Lib List

/-! ### The stores behind one interface -/

inductive Store where
  | memory (s : MemoryStore)
  | bolt (s : BoltStore)

/-- What a call of a store meets. The time is one that JSON has a form for. -/
structure Moment where
  now : Nat
  early : now < yearTenThousand
  visit : Visit
  fault : Option Bytes

namespace Store

variable (s : Store) (m : Moment)

def put (task : Task) : Except StoreErr Unit × Store :=
  match s with
  | .memory s => (s.put m.now task).map id .memory
  | .bolt s => (s.put m.fault task).map id .bolt

/-- `none` is a panic. -/
def claimPending (limit : Int) : Option (Except StoreErr (List Task) × Store) :=
  match s with
  | .memory s => (s.claimPending m.visit m.now limit).map (Prod.map id .memory)
  | .bolt s => some ((s.claimPending m.fault m.now limit).map id .bolt)

def recoverProcessing : Except StoreErr Unit × Store :=
  match s with
  | .memory s => (s.recoverProcessing m.now).map id .memory
  | .bolt s => (s.recoverProcessing m.fault m.now).map id .bolt

def update (task : Task) : Except StoreErr Unit × Store :=
  match s with
  | .memory s => (s.update m.now task).map id .memory
  | .bolt s => (s.update m.fault task).map id .bolt

def delete (id : Bytes) : Except StoreErr Unit × Store :=
  match s with
  | .memory s => (s.delete id).map (fun result => result) .memory
  | .bolt s => (s.delete m.fault id).map (fun result => result) .bolt

/-- The task that is stored under an id. -/
def lookup (id : Bytes) : Option Task :=
  match s with
  | .memory s => s.tasks.get id
  | .bolt s => (s.records.get id).bind Except.toOption

/-- A bolt database outlives the process. -/
def survives : Store → Bool
  | .memory _ => false
  | .bolt _ => true

end Store

def StoreErr.text : StoreErr → Bytes
  | .taskNotFound => str "task not found"
  | .storeClosed => str "task store is closed"
  | .failed message => message

/-! ### Workers -/

variable (t : Task)

def Task.validate : Except Bytes Task :=
  if t.id = [] then .error (str "task id is required")
  else if t.kind = [] then .error (str "task kind is required")
  else if t.maxAttempts ≤ 0 then .ok { t with maxAttempts := 1 }
  else .ok t

def Task.isExpired (now : Nat) : Bool := t.deadline ≠ 0 && t.deadline < now

def Task.expired : Task :=
  { t with status := .deadLetter, error := str "deadline exceeded", attempts := int64 (t.attempts + 1) }

def Task.unhandled (quote : Bytes → Bytes) (t : Task) : Task :=
  { t with status := .deadLetter, error := str "no handler registered for kind " ++ quote t.kind }

def Task.completed : Task := { t with status := .completed, error := [] }

def Task.uncleaned (e : StoreErr) (t : Task) : Task :=
  { t with error := str "completed but cleanup failed: " ++ e.text }

/-- What is written after a handler that did not succeed. -/
def Task.failed (message : Bytes) (t : Task) : Task :=
  if t.maxAttempts ≤ t.attempts then { t with status := .deadLetter, error := message }
  else { t with status := .pending, error := message }

/-- Where a worker is in `processOne`, with its copy of the task it works on. -/
inductive Place where
  | idle
  | claimed (task : Task)
  | running (task : Task)
  | deleting (task : Task)
  | updating (task : Task)

def Place.task : Place → Option Task
  | .idle => none
  | .claimed task => some task
  | .running task => some task
  | .deleting task => some task
  | .updating task => some task

inductive Outcome where
  | nil
  | error (message : Bytes)
  | panic (value : Bytes)

/-- The error that `runHandler` returns. -/
def Outcome.message : Outcome → Option Bytes
  | .nil => none
  | .error message => some message
  | .panic value => some (str "task handler panicked: " ++ value)

/-- A task as it may be submitted. `NewTask` makes only such tasks: the id is a
UUID and the times are near. -/
structure Submission where
  task : Task
  timely : task.timely = true
  text : jsonString task.id = task.id
  attempts_fit : task.maxAttempts < 2 ^ 63

structure Config where
  workers : Int
  /-- The form that `%q` gives a text. -/
  quote : Bytes → Bytes

/-- `NewQueue` takes at least one worker. -/
def Config.count (c : Config) : Int := if c.workers ≤ 0 then 1 else c.workers

/-- The queue and its store. The last three fields are what happened so far: the
tasks that were submitted, the ids for which a handler was started, and the ids
for which one returned nil. -/
structure Queue where
  store : Store
  started : Bool
  handlers : List Bytes
  workers : Nat → Place
  submitted : List Task
  (starts succeeded : List Bytes)

def Queue.new (store : Store) : Queue := ⟨store, false, [], fun _ => .idle, [], [], []⟩

inductive Event where
  | register (kind : Bytes)
  | submit (given : Submission) (m : Moment)
  | start (m : Moment)
  | claim (worker : Nat) (m : Moment)
  | judge (worker : Nat) (now : Nat)
  | finish (worker : Nat) (outcome : Outcome)
  | settle (worker : Nat) (m : Moment)
  | crash

namespace Queue

variable (q : Queue)

def place (worker : Nat) (place : Place) : Queue :=
  { q with workers := Function.update q.workers worker place }

def submit (m : Moment) (task : Task) : Queue :=
  match task.validate with
  | .error _ => q
  | .ok task =>
    match q.store.put m task with
    | (.error _, store) => { q with store }
    | (.ok (), store) => { q with store, submitted := q.submitted ++ [task] }

/-- An error of the recovery is only logged. -/
def start (m : Moment) : Queue :=
  if q.started then q else { q with store := (q.store.recoverProcessing m).2, started := true }

/-- The first store call of `processOne`; `none` is a panic. -/
def claim (worker : Nat) (m : Moment) : Option Queue :=
  match q.store.claimPending m 1 with
  | none => none
  | some (.error _, store) => some { q with store }
  | some (.ok [], store) => some { q with store }
  | some (.ok (task :: _), store) => some ({ q with store }.place worker (.claimed task))

/-- The checks before the handler is called, and its call. -/
def judge (quote : Bytes → Bytes) (worker : Nat) (now : Nat) (task : Task) : Queue :=
  if task.isExpired now then q.place worker (.updating task.expired)
  else if task.kind ∉ q.handlers then q.place worker (.updating (task.unhandled quote))
  else { q.place worker (.running task) with starts := q.starts ++ [task.id] }

def finish (worker : Nat) (outcome : Outcome) (task : Task) : Queue :=
  match outcome.message with
  | none => { q.place worker (.deleting task.completed) with succeeded := q.succeeded ++ [task.id] }
  | some message => q.place worker (.updating (task.failed message))

def remove (worker : Nat) (m : Moment) (task : Task) : Queue :=
  match q.store.delete m task.id with
  | (.ok (), store) => { q with store }.place worker .idle
  | (.error e, store) => { q with store }.place worker (.updating (task.uncleaned e))

/-- An error of the update is only logged. -/
def write (worker : Nat) (m : Moment) (task : Task) : Queue :=
  { q with store := (q.store.update m task).2 }.place worker .idle

/-- The process is gone, and with it what it kept in memory. -/
def crash : Queue := { q with started := false, handlers := [], workers := fun _ => .idle }

/-- `none` if the event cannot happen now. -/
def next (c : Config) (q : Queue) : Event → Option Queue
  | .register kind => some { q with handlers := kind :: q.handlers }
  | .submit given m => some (q.submit m given.task)
  | .start m => some (q.start m)
  | .claim worker m =>
    if q.started ∧ (worker : Int) < c.count then
      match q.workers worker with
      | .idle => q.claim worker m
      | _ => none
    else none
  | .judge worker now =>
    match q.workers worker with
    | .claimed task => some (q.judge c.quote worker now task)
    | _ => none
  | .finish worker outcome =>
    match q.workers worker with
    | .running task => some (q.finish worker outcome task)
    | _ => none
  | .settle worker m =>
    match q.workers worker with
    | .deleting task => some (q.remove worker m task)
    | .updating task => some (q.write worker m task)
    | _ => none
  | .crash => if q.store.survives then some q.crash else none

end Queue

/-- No id is submitted a second time. -/
def Distinct (q : Queue) : Event → Prop
  | .submit given _ => given.task.id ∉ q.submitted.map (·.id)
  | _ => True

/-! ### The stores show a ledger -/

namespace Store

def Shows : Store → Ledger → Prop
  | .memory s, l => s.Shows l
  | .bolt s, l => s.Shows l

/-- Any tasks may have been handed in. -/
abbrev Any (_ : Task) : Prop := True

variable {s : Store} {l : Ledger} {m : Moment}

section
variable (shows : s.Shows l)

include shows

theorem Shows.lookup (id : Bytes) : l.get id = (s.lookup id).map Task.plain := by
  cases s with
  | memory s => exact MemoryStore.Shows.shown shows |>.get id
  | bolt s =>
    obtain ⟨tasks, records, shown⟩ := shows
    rw [shown.get, Store.lookup, records, Table.get_map]
    cases tasks.get id <;> rfl

theorem Shows.put (sound : l.Sound Any) {task : Task} (encodable : Encodable task) :
    (∃ s', s.put m task = (.ok (), s') ∧ s'.Shows (l.put task.id task.decoded.plain)) ∨
      ∃ e, s.put m task = (.error e, s) := by
  cases s with
  | memory s =>
    obtain ⟨_, _⟩ := s
    obtain ⟨rfl, -⟩ := id shows
    exact .inl ⟨_, rfl, MemoryStore.Shows.store shows m.early encodable⟩
  | bolt s =>
    cases fault : m.fault with
    | some e =>
      refine .inr ⟨.failed e, ?_⟩
      simp only [Store.put, BoltStore.put, BoltStore.marshal_encodable encodable, fault]
      rfl
    | none =>
      have stored := (BoltStore.Shows.perform_shows shows sound m.early (.put task) (by
        rintro _ ⟨⟩
        exact encodable)).2
      refine .inl ⟨.bolt (s.put none task).2, ?_, stored⟩
      simp only [Store.put, fault, BoltStore.put, BoltStore.marshal_encodable encodable, if_neg encodable.named]
      rfl

theorem Shows.update (sound : l.Sound Any) {task : Task} (encodable : Encodable task) {stored : Task}
    (held : l.get task.id = some stored) :
    (s.update m task).2.Shows (l.put task.id task.decoded.plain) ∨ (s.update m task).2 = s := by
  cases s with
  | memory s =>
    obtain ⟨_, _⟩ := s
    obtain ⟨rfl, shown⟩ := id shows
    have found := shown.get task.id
    rw [held] at found
    obtain ⟨_, present, -⟩ := Option.map_eq_some_iff.mp found.symm
    have written := MemoryStore.Shows.store shows m.early encodable
    simp only [Store.update, MemoryStore.update, Bool.false_eq_true, if_false, present]
    exact .inl written
  | bolt s =>
    cases fault : m.fault with
    | some e =>
      right
      simp only [Store.update, BoltStore.update, BoltStore.marshal_encodable encodable, fault]
      rfl
    | none =>
      left
      have after := (BoltStore.Shows.perform_shows shows sound m.early (.update task) (by
        rintro _ ⟨⟩
        exact encodable)).2
      simp only [Ledger.perform, held] at after
      simp only [Store.update, fault]
      exact after

theorem Shows.delete (sound : l.Sound Any) (id : Bytes) :
    (∃ s', s.delete m id = (.ok (), s') ∧ s'.Shows (l.delete id)) ∨ ∃ e, s.delete m id = (.error e, s) := by
  cases s with
  | memory s =>
    obtain ⟨_, _⟩ := s
    obtain ⟨rfl, shown⟩ := shows
    exact .inl ⟨_, rfl, rfl, shown.delete id⟩
  | bolt s =>
    cases fault : m.fault with
    | some e =>
      refine .inr ⟨.failed e, ?_⟩
      simp only [Store.delete, BoltStore.delete, fault]
      rfl
    | none =>
      have after := (BoltStore.Shows.perform_shows shows sound m.early (.delete id) (by
        rintro - ⟨⟩)).2
      refine .inl ⟨.bolt (s.delete none id).2, ?_, after⟩
      simp only [Store.delete, fault]
      rfl

theorem Shows.recover (sound : l.Sound Any) :
    (s.recoverProcessing m).2.Shows (l.map (Task.recovered 0)) ∨ (s.recoverProcessing m).2 = s := by
  cases s with
  | memory s =>
    obtain ⟨_, _⟩ := s
    obtain ⟨rfl, shown⟩ := shows
    exact .inl ⟨rfl, shown.recovered m.early⟩
  | bolt s =>
    cases fault : m.fault with
    | some e =>
      right
      simp only [Store.recoverProcessing, BoltStore.recoverProcessing, fault]
      rfl
    | none =>
      left
      have after := (BoltStore.Shows.perform_shows shows sound m.early .recoverProcessing (by
        rintro - ⟨⟩)).2
      simp only [Store.recoverProcessing, fault]
      exact after

end

theorem limited_one (tasks : List Task) : (limited 1 tasks).length ≤ 1 := by
  unfold limited
  split
  · rw [length_take]
    exact min_le_left _ _
  · omega

/-- What a claim takes, and what it leaves. -/
structure Claims (l : Ledger) (stored copy : Task) : Prop where
  pending : stored.status = .pending
  held : l.get stored.id = some stored
  plain : copy.plain = stored.claimed 0
  encodable : Encodable copy

theorem Claims.id {stored copy : Task} (claims : Claims l stored copy) : copy.id = stored.id :=
  show copy.plain.id = (stored.claimed 0).id from congrArg Task.id claims.plain

theorem Claims.of_chosen {tasks : Table Bytes Task} (shown : Shown tasks l) (sound : l.Sound Any) {t : Task}
    (picked : Chosen tasks [t]) (early : now < yearTenThousand) : Claims l t.plain (t.claimed now) where
  pending := picked.pending t mem_cons_self
  held := shown.held (picked.stored t mem_cons_self)
  plain := rfl
  encodable := by
    have held := picked.stored t mem_cons_self
    have named := shown.named sound held
    exact ⟨shown.claimed_timely early held, congrArg Task.id (shown.decoded sound held), named⟩

theorem Shows.claim (shows : s.Shows l) (sound : l.Sound Any) :
    (∃ e, s.claimPending m 1 = some (.error e, s)) ∨
      (∃ s', s.claimPending m 1 = some (.ok [], s') ∧ s'.Shows l) ∨
      ∃ stored copy s', s.claimPending m 1 = some (.ok [copy], s') ∧ Claims l stored copy ∧
        s'.Shows (l.put stored.id (stored.claimed 0)) := by
  cases s with
  | memory s =>
    right
    obtain ⟨chosen, visited, picked, ran⟩ := MemoryStore.claimPending_eq shows sound m.visit m.early 1
    have few : chosen.length ≤ 1 := visited ▸ limited_one _
    have shown := MemoryStore.Shows.shown shows
    have isOpen := MemoryStore.Shows.open_ shows
    simp only [claimPending, ran, Option.map_some]
    cases chosen with
    | nil => exact .inl ⟨_, rfl, shows⟩
    | cons t rest =>
      obtain rfl : rest = [] := eq_nil_of_length_eq_zero (by simpa using few)
      have timely := shown.claimed_timely m.early (picked.stored t mem_cons_self)
      exact .inr ⟨_, _, _, rfl, Claims.of_chosen shown sound picked m.early, isOpen, shown.put timely t.id⟩
  | bolt s =>
    cases fault : m.fault with
    | some e =>
      refine .inl ⟨.failed e, ?_⟩
      simp only [claimPending, BoltStore.claimPending, fault]
      rfl
    | none =>
      right
      obtain ⟨_⟩ := s
      obtain ⟨tasks, rfl, shown⟩ := id shows
      have picked := Ledger.ranked_chosen (shown.keyed sound) 1
      have few : (Ledger.ranked tasks .pending 1).length ≤ 1 := limited_one _
      simp only [claimPending, fault, BoltStore.claimPending_eq shown sound m.early]
      cases chosen : Ledger.ranked tasks .pending 1 with
      | nil => exact .inl ⟨_, rfl, shows⟩
      | cons t rest =>
        rw [chosen] at picked few
        obtain rfl : rest = [] := eq_nil_of_length_eq_zero (by simpa using few)
        have timely := shown.claimed_timely m.early (picked.stored t mem_cons_self)
        exact .inr ⟨_, _, _, rfl, Claims.of_chosen shown sound picked m.early, _, rfl, shown.put timely t.id⟩

end Store

end CipherLake.TaskQueue
