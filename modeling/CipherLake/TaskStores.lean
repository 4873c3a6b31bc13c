import CipherLake.Lib.ExchangeSort
import CipherLake.Lib.Table
import CipherLake.Lib.Utf8

/-! The two stores of the task queue: a map in memory and a bolt database. A task
is kept as JSON in both, for the map holds clones that are made by encoding and
decoding. An encoded task is known here by what decoding it gives. -/
namespace CipherLake.TaskQueue
open Lib

/-- `other` is any text that is none of the named ones. -/
inductive Status where
  | pending
  | processing
  | completed
  | failed
  | deadLetter
  | other (text : Bytes)
  deriving DecidableEq, Repr

/-- Times are in nanoseconds; zero is the zero time. -/
structure Task where
  (id kind : Bytes)
  payload : Option Bytes
  priority : Int
  status : Status
  (attempts maxAttempts : Int)
  (createdAt updatedAt deadline : Nat)
  error : Bytes
  deriving DecidableEq, Repr

/-- The zero value. -/
def Task.zero : Task := ⟨[], [], none, 0, .other [], 0, 0, 0, 0, 0, []⟩

def Status.decoded : Status → Status
  | .other text => .other (jsonString text)
  | status => status

variable (t : Task)

/-- A task after a JSON encoding and decoding. The payload is encoded in base64
and comes back as it is. -/
def Task.decoded : Task :=
  { t with
    id := jsonString t.id
    kind := jsonString t.kind
    status := t.status.decoded
    error := jsonString t.error }

/-- The first instant of the year 10000, which JSON has no form for. -/
def yearTenThousand : Nat := 3652059 * 86400 * 10 ^ 9

def Task.timely : Bool :=
  t.createdAt < yearTenThousand && t.updatedAt < yearTenThousand && t.deadline < yearTenThousand

def yearOutside : Bytes :=
  str "json: error calling MarshalJSON for type time.Time: Time.MarshalJSON: year outside of range [0,9999]"

/-- `json.Marshal`, as what `json.Unmarshal` makes of the text. -/
def marshal : Except Bytes Task := if t.timely then .ok t.decoded else .error yearOutside

/-- Neither error is looked at: a task that has no form comes out as the zero
value. -/
def cloneTask : Task :=
  match marshal t with
  | .ok copied => copied
  | .error _ => Task.zero

/-- The order of `sortTasks`: by priority, and then the older first. -/
def worse (a b : Task) : Bool :=
  a.priority < b.priority || (a.priority = b.priority && b.createdAt < a.createdAt)

def sortTasks (tasks : List Task) : List Task := exchangeSort worse tasks

def limited (limit : Int) (tasks : List Task) : List Task :=
  if 0 < limit ∧ limit < tasks.length then tasks.take limit.toNat else tasks

inductive StoreErr where
  | taskNotFound
  | storeClosed
  | failed (message : Bytes)
  deriving DecidableEq, Repr

/-- What a claim makes of a stored task. -/
def Task.claimed (now : Nat) (t : Task) : Task :=
  { t with status := .processing, attempts := int64 (t.attempts + 1), updatedAt := now }

def Task.recovered (now : Nat) (t : Task) : Task :=
  if t.status = .processing then { t with status := .pending, updatedAt := now } else t

/-! ### The store in memory -/

structure MemoryStore where
  tasks : Table Bytes Task
  closed : Bool

/-- The order in which a `range` over a map comes to the values. -/
structure Visit where
  arrange : List Task → List Task
  perm : ∀ tasks, (arrange tasks).Perm tasks

namespace MemoryStore

def new : MemoryStore := ⟨Table.empty, false⟩

variable (s : MemoryStore) (visit : Visit)

/-- The clones of the tasks with a status, as a loop over the map appends them. -/
def withStatus (status : Status) : List Task :=
  ((visit.arrange (s.tasks.entries.map (·.2))).filter fun t => t.status = status).map cloneTask

def put (now : Nat) (task : Task) : Except StoreErr Unit × MemoryStore :=
  if s.closed then (.error .storeClosed, s)
  else (.ok (), { s with tasks := s.tasks.put task.id { cloneTask task with updatedAt := now } })

def getPending (limit : Int) : Except StoreErr (List Task) :=
  if s.closed then .error .storeClosed
  else .ok (limited limit (sortTasks (s.withStatus visit .pending)))

/-- The loop over the tasks to be claimed. The map is asked for the id that the
clone has; if it has none, a nil pointer is written to. -/
def claim (now : Nat) : List Task → Table Bytes Task → Option (List Task × Table Bytes Task)
  | [], tasks => some ([], tasks)
  | task :: rest, tasks =>
    match tasks.get task.id with
    | none => none
    | some stored =>
      (claim now rest (tasks.put task.id (stored.claimed now))).map fun (claimed, tasks) =>
        (cloneTask (stored.claimed now) :: claimed, tasks)

/-- `none` is a panic. -/
def claimPending (now : Nat) (limit : Int) : Option (Except StoreErr (List Task) × MemoryStore) :=
  if s.closed then some (.error .storeClosed, s)
  else
    (claim now (limited limit (sortTasks (s.withStatus visit .pending))) s.tasks).map fun (claimed, tasks) =>
      (.ok claimed, { s with tasks })

def recoverProcessing (now : Nat) : Except StoreErr Unit × MemoryStore :=
  if s.closed then (.error .storeClosed, s)
  else (.ok (), { s with tasks := s.tasks.map (Task.recovered now) })

def getByID (id : Bytes) : Except StoreErr Task :=
  if s.closed then .error .storeClosed
  else
    match s.tasks.get id with
    | none => .error .taskNotFound
    | some t => .ok (cloneTask t)

def update (now : Nat) (task : Task) : Except StoreErr Unit × MemoryStore :=
  if s.closed then (.error .storeClosed, s)
  else
    match s.tasks.get task.id with
    | none => (.error .taskNotFound, s)
    | some _ => (.ok (), { s with tasks := s.tasks.put task.id { cloneTask task with updatedAt := now } })

def delete (id : Bytes) : Except StoreErr Unit × MemoryStore :=
  if s.closed then (.error .storeClosed, s) else (.ok (), { s with tasks := s.tasks.delete id })

def listDeadLetter (limit : Int) : Except StoreErr (List Task) :=
  if s.closed then .error .storeClosed
  else .ok (limited limit (sortTasks (s.withStatus visit .deadLetter)))

end MemoryStore

/-! ### The store in a bolt database -/

/-- The records of the bolt bucket `tasks`, each as what decoding it gives. -/
structure BoltStore where
  records : Table Bytes (Except Bytes Task)

namespace BoltStore

def new : BoltStore := ⟨Table.empty⟩

variable (s : BoltStore)

/-- The tasks with a status in the order of their keys; a record that cannot be
decoded is passed by. -/
def withStatus (status : Status) : List Task :=
  (s.records.entries.filterMap (·.2.toOption)).filter fun t => t.status = status

/-- The loop that writes tasks in a transaction. Bolt takes no empty key. -/
def writeAll (message : String) : List Task → Table Bytes (Except Bytes Task) →
    Except StoreErr (Table Bytes (Except Bytes Task))
  | [], records => .ok records
  | task :: rest, records =>
    match marshal task with
    | .error e => .error (.failed (str message ++ e))
    | .ok data =>
      if task.id = [] then .error (.failed (str "key required"))
      else writeAll message rest (records.put task.id (.ok data))

/-- A `fault` is an error of the database itself: it cannot be read or written,
or does not take the record. Then the transaction is rolled back. -/
def put (fault : Option Bytes) (task : Task) : Except StoreErr Unit × BoltStore :=
  match marshal task with
  | .error e => (.error (.failed (str "failed to marshal task: " ++ e)), s)
  | .ok data =>
    match fault with
    | some e => (.error (.failed e), s)
    | none =>
      if task.id = [] then (.error (.failed (str "key required")), s)
      else (.ok (), ⟨s.records.put task.id (.ok data)⟩)

def getPending (fault : Option Bytes) (limit : Int) : Except StoreErr (List Task) :=
  match fault with
  | some e => .error (.failed e)
  | none => .ok (limited limit (sortTasks (s.withStatus .pending)))

def claimPending (fault : Option Bytes) (now : Nat) (limit : Int) : Except StoreErr (List Task) × BoltStore :=
  match fault with
  | some e => (.error (.failed e), s)
  | none =>
    let claimed := (limited limit (sortTasks (s.withStatus .pending))).map (Task.claimed now)
    match writeAll "failed to marshal claimed task: " claimed s.records with
    | .error e => (.error e, s)
    | .ok records => (.ok claimed, ⟨records⟩)

def recoverProcessing (fault : Option Bytes) (now : Nat) : Except StoreErr Unit × BoltStore :=
  match fault with
  | some e => (.error (.failed e), s)
  | none =>
    let recovered := (s.withStatus .processing).map (Task.recovered now)
    match writeAll "failed to marshal recovered task: " recovered s.records with
    | .error e => (.error e, s)
    | .ok records => (.ok (), ⟨records⟩)

def getByID (fault : Option Bytes) (id : Bytes) : Except StoreErr Task :=
  match fault with
  | some e => .error (.failed e)
  | none =>
    match s.records.get id with
    | none => .error .taskNotFound
    | some (.error e) => .error (.failed e)
    | some (.ok t) => .ok t

def update (fault : Option Bytes) (task : Task) : Except StoreErr Unit × BoltStore :=
  match marshal task with
  | .error e => (.error (.failed (str "failed to marshal task: " ++ e)), s)
  | .ok data =>
    match fault with
    | some e => (.error (.failed e), s)
    | none =>
      match s.records.get task.id with
      | none => (.error .taskNotFound, s)
      | some _ =>
        if task.id = [] then (.error (.failed (str "key required")), s)
        else (.ok (), ⟨s.records.put task.id (.ok data)⟩)

def delete (fault : Option Bytes) (id : Bytes) : Except StoreErr Unit × BoltStore :=
  match fault with
  | some e => (.error (.failed e), s)
  | none => (.ok (), ⟨s.records.delete id⟩)

def listDeadLetter (fault : Option Bytes) (limit : Int) : Except StoreErr (List Task) :=
  match fault with
  | some e => .error (.failed e)
  | none => .ok (limited limit (sortTasks (s.withStatus .deadLetter)))

end BoltStore

end CipherLake.TaskQueue
