import CipherLake.TaskStores

/-! Both stores of the task queue keep one ledger of tasks: each call answers as
the ledger does, and leaves a store that shows the ledger afterwards. When a task
was last touched is no part of the ledger. So the two stores give the same
answers to every sequence of calls. -/
namespace CipherLake.TaskQueue
open Lib List Table

inductive Call where
  | put (task : Task)
  | getPending (limit : Int)
  | claimPending (limit : Int)
  | recoverProcessing
  | getByID (id : Bytes)
  | update (task : Task)
  | delete (id : Bytes)
  | listDeadLetter (limit : Int)
  deriving DecidableEq, Repr

inductive Answer where
  | done (result : Except StoreErr Unit)
  | task (result : Except StoreErr Task)
  | tasks (result : Except StoreErr (List Task))
  deriving DecidableEq

/-- A call of the store in memory; `none` is a panic. -/
def MemoryStore.perform (s : MemoryStore) (visit : Visit) (now : Nat) : Call → Option (Answer × MemoryStore)
  | .put task => some ((s.put now task).map .done id)
  | .getPending limit => some (.tasks (s.getPending visit limit), s)
  | .claimPending limit => (s.claimPending visit now limit).map (Prod.map .tasks id)
  | .recoverProcessing => some ((s.recoverProcessing now).map .done id)
  | .getByID id => some (.task (s.getByID id), s)
  | .update task => some ((s.update now task).map .done id)
  | .delete id => some ((s.delete id).map .done fun s => s)
  | .listDeadLetter limit => some (.tasks (s.listDeadLetter visit limit), s)

def BoltStore.perform (s : BoltStore) (fault : Option Bytes) (now : Nat) : Call → Answer × BoltStore
  | .put task => (s.put fault task).map .done id
  | .getPending limit => (.tasks (s.getPending fault limit), s)
  | .claimPending limit => (s.claimPending fault now limit).map .tasks id
  | .recoverProcessing => (s.recoverProcessing fault now).map .done id
  | .getByID id => (.task (s.getByID fault id), s)
  | .update task => (s.update fault task).map .done id
  | .delete id => (s.delete fault id).map .done fun s => s
  | .listDeadLetter limit => (.tasks (s.listDeadLetter fault limit), s)

/-! ### The ledger -/

/-- A task without the time it was last touched. -/
def Task.plain (t : Task) : Task := { t with updatedAt := 0 }

def Answer.plain : Answer → Answer
  | .done result => .done result
  | .task result => .task (result.map Task.plain)
  | .tasks result => .tasks (result.map (map Task.plain))

abbrev Ledger := Table Bytes Task

namespace Ledger

/-- The first tasks with a status, the best first. -/
def ranked (l : Ledger) (status : Status) (limit : Int) : List Task :=
  limited limit (sortTasks ((l.entries.map (·.2)).filter fun t => t.status = status))

def putAll (l : Ledger) (tasks : List Task) : Ledger := tasks.foldl (fun l t => l.put t.id t) l

/-- What a store is for. -/
def perform (l : Ledger) : Call → Answer × Ledger
  | .put task => (.done (.ok ()), l.put task.id task.decoded.plain)
  | .getPending limit => (.tasks (.ok (l.ranked .pending limit)), l)
  | .claimPending limit =>
    let claimed := (l.ranked .pending limit).map (Task.claimed 0)
    (.tasks (.ok claimed), l.putAll claimed)
  | .recoverProcessing => (.done (.ok ()), l.map (Task.recovered 0))
  | .getByID id =>
    match l.get id with
    | none => (.task (.error .taskNotFound), l)
    | some t => (.task (.ok t), l)
  | .update task =>
    match l.get task.id with
    | none => (.done (.error .taskNotFound), l)
    | some _ => (.done (.ok ()), l.put task.id task.decoded.plain)
  | .delete id => (.done (.ok ()), l.delete id)
  | .listDeadLetter limit => (.tasks (.ok (l.ranked .deadLetter limit)), l)

end Ledger

/-! ### Tasks and their order -/

theorem worse_ranks : Ranks worse where
  asymm := by
    intro a b first
    simp only [worse, Bool.or_eq_true, Bool.and_eq_true, decide_eq_true_eq] at first
    simp only [worse, Bool.or_eq_false_iff, Bool.and_eq_false_iff, decide_eq_false_iff_not]
    omega
  trans := by
    intro a b c first second
    simp only [worse, Bool.or_eq_false_iff, Bool.and_eq_false_iff, decide_eq_false_iff_not] at first second ⊢
    omega

theorem same_age {a b : Task} (first : worse a b = false) (second : worse b a = false) : a.createdAt = b.createdAt := by
  simp only [worse, Bool.or_eq_false_iff, Bool.and_eq_false_iff, decide_eq_false_iff_not] at first second
  omega

variable {t : Task} {now : Nat} {items : List Task}

theorem mem_limited {limit : Int} {tasks : List Task} (listed : t ∈ limited limit tasks) : t ∈ tasks := by
  unfold limited at listed
  split at listed
  · exact mem_of_mem_take listed
  · exact listed

theorem limited_sublist (limit : Int) (tasks : List Task) : (limited limit tasks).Sublist tasks := by
  unfold limited
  split
  · exact take_sublist _ _
  · exact List.Sublist.refl _

theorem limited_map (f : Task → Task) (limit : Int) (tasks : List Task) :
    limited limit (tasks.map f) = (limited limit tasks).map f := by
  unfold limited
  rw [length_map]
  split
  · rw [map_take]
  · rfl

theorem sortTasks_plain (tasks : List Task) : sortTasks (tasks.map Task.plain) = (sortTasks tasks).map Task.plain :=
  exchangeSort_map Task.plain (fun _ _ => rfl) tasks

theorem decoded_of_plain (plain : t.plain.decoded = t.plain) : t.decoded = t := by
  have touched : { t.plain.decoded with updatedAt := t.updatedAt } = t.decoded := rfl
  have untouched : { t.plain with updatedAt := t.updatedAt } = t := rfl
  rw [← touched, plain, untouched]

theorem decoded_idem (t : Task) : t.decoded.decoded = t.decoded := by
  have status : t.status.decoded.decoded = t.status.decoded := by
    cases t.status <;> simp [Status.decoded, jsonString_idem]
  simp only [Task.decoded, jsonString_idem, status]

theorem cloneTask_eq (timely : t.timely = true) : cloneTask t = t.decoded := by
  simp [cloneTask, marshal, timely]


theorem plain_recovered (now : Nat) (t : Task) : (t.recovered now).plain = t.plain.recovered 0 := by
  have status : t.plain.status = t.status := rfl
  unfold Task.recovered
  rw [status]
  split <;> rfl

theorem timely_touched (timely : t.timely = true) (early : now < yearTenThousand) :
    Task.timely { t with updatedAt := now } = true := by
  simp only [Task.timely, Bool.and_eq_true, decide_eq_true_eq] at timely ⊢
  exact ⟨⟨timely.1.1, early⟩, timely.2⟩

/-! ### Stores that show a ledger -/

/-- A task that is kept under its id: in the form that JSON gives back, and as old
as a task of that id that was handed in. -/
structure Kept (handed : Task → Prop) (t : Task) : Prop where
  decoded : t.decoded = t
  named : t.id ≠ []
  stems : ∃ w, handed w ∧ w.id = t.id ∧ w.createdAt = t.createdAt

namespace Ledger

variable {handed : Task → Prop} {l : Ledger}

/-- Tasks are found under their own ids. -/
structure Sound (handed : Task → Prop) (l : Ledger) : Prop where
  keyed : ∀ id t, l.get id = some t → t.id = id
  kept : ∀ id t, l.get id = some t → Kept handed t

theorem Sound.put (sound : l.Sound handed) (kept : Kept handed t) : Sound handed (l.put t.id t) where
  keyed := forall_get_put sound.keyed rfl
  kept := forall_get_put sound.kept kept

theorem Sound.putAll (sound : l.Sound handed) (kept : ∀ t ∈ items, Kept handed t) : Sound handed (l.putAll items) := by
  induction items generalizing l with
  | nil => exact sound
  | cons t items ih =>
    exact ih (sound.put (kept t mem_cons_self)) fun t' listed => kept t' (mem_cons_of_mem _ listed)

theorem Sound.delete (sound : l.Sound handed) (id : Bytes) : Sound handed (l.delete id) where
  keyed := forall_get_delete sound.keyed
  kept := forall_get_delete sound.kept

theorem mem_values {tasks : Table Bytes Task} (listed : t ∈ tasks.entries.map (·.2)) : ∃ id, tasks.get id = some t := by
  obtain ⟨⟨id, t⟩, member, rfl⟩ := mem_map.mp listed
  exact ⟨id, get_of_mem member⟩

/-- The ids of stored tasks are all different. -/
theorem values_distinct {tasks : Table Bytes Task} (keyed : ∀ id t, tasks.get id = some t → t.id = id) :
    ((tasks.entries.map (·.2)).map (·.id)).Nodup := by
  have ids : (tasks.entries.map (·.2)).map (·.id) = tasks.entries.map (·.1) := by
    rw [map_map]
    exact map_congr_left fun e member => keyed e.1 e.2 (get_of_mem member)
  rw [ids]
  exact (pairwise_map.mpr tasks.sorted).imp ne_of_lt

end Ledger

/-- Tasks that wait, each stored as it is, and none twice. -/
structure Chosen (tasks : Table Bytes Task) (chosen : List Task) : Prop where
  pending : ∀ t ∈ chosen, t.status = .pending
  stored : ∀ t ∈ chosen, tasks.get t.id = some t
  distinct : (chosen.map (·.id)).Nodup

theorem Chosen.of_perm {tasks : Table Bytes Task} (keyed : ∀ id t, tasks.get id = some t → t.id = id)
    {found : List Task} (perm : found.Perm ((tasks.entries.map (·.2)).filter fun t => t.status = .pending))
    (limit : Int) : Chosen tasks (limited limit (sortTasks found)) := by
  have sorted : (sortTasks found).Perm _ := (exchangeSort_perm worse found).trans perm
  have listed : ∀ t ∈ limited limit (sortTasks found), t ∈ tasks.entries.map (·.2) ∧ t.status = .pending := by
    intro t member
    obtain ⟨stored, pending⟩ := mem_filter.mp (sorted.mem_iff.mp (mem_limited member))
    exact ⟨stored, by simpa using pending⟩
  refine ⟨fun t member => (listed t member).2, fun t member => ?_, ?_⟩
  · obtain ⟨id, held⟩ := Ledger.mem_values (listed t member).1
    rw [keyed id t held]
    exact held
  · have all : (((tasks.entries.map (·.2)).filter fun t => t.status = .pending).map (·.id)).Nodup :=
      List.Nodup.sublist (filter_sublist.map _) (Ledger.values_distinct keyed)
    exact List.Nodup.sublist ((limited_sublist limit _).map _) ((sorted.map (·.id)).nodup_iff.mpr all)

theorem Ledger.ranked_chosen {tasks : Table Bytes Task} (keyed : ∀ id t, tasks.get id = some t → t.id = id)
    (limit : Int) : Chosen tasks (Ledger.ranked tasks .pending limit) :=
  Chosen.of_perm keyed (List.Perm.refl _) limit

/-- The task that a call hands in. -/
def Call.handed : Call → Option Task
  | .put task => some task
  | .update task => some task
  | _ => none

/-- A task that JSON has a form for, with an id that it keeps. -/
structure Encodable (t : Task) : Prop where
  timely : t.timely = true
  text : jsonString t.id = t.id
  named : t.id ≠ []

namespace Ledger

variable {handed : Task → Prop} {l : Ledger}

theorem kept_of_handed (isHanded : handed t) (encodable : Encodable t) : Kept handed t.decoded.plain where
  decoded := congrArg Task.plain (decoded_idem t)
  named := fun empty => encodable.named (encodable.text.symm.trans empty)
  stems := ⟨t, isHanded, encodable.text.symm, rfl⟩

theorem Sound.hand (sound : l.Sound handed) (isHanded : handed t) (encodable : Encodable t) :
    Sound handed (l.put t.id t.decoded.plain) := by
  have key : t.id = t.decoded.plain.id := encodable.text.symm
  rw [key]
  exact sound.put (kept_of_handed isHanded encodable)

theorem kept_claimed (kept : Kept handed t) : Kept handed (t.claimed 0) where
  decoded := by
    have same := kept.decoded
    obtain ⟨_, _, _, _, _, _, _, _, _, _, _⟩ := t
    simp only [Task.decoded, Task.mk.injEq] at same
    simp only [Task.claimed, Task.decoded, Status.decoded, same]
  named := kept.named
  stems := kept.stems

theorem kept_recovered (kept : Kept handed t) : Kept handed (t.recovered 0) := by
  unfold Task.recovered
  split
  · refine ⟨?_, kept.named, kept.stems⟩
    have same := kept.decoded
    obtain ⟨_, _, _, _, _, _, _, _, _, _, _⟩ := t
    simp only [Task.decoded, Task.mk.injEq] at same
    simp only [Task.decoded, Status.decoded, same]
  · exact kept

theorem recovered_id (now : Nat) (t : Task) : (t.recovered now).id = t.id := by
  unfold Task.recovered
  split <;> rfl

/-- Every call keeps the ledger sound that hands in only what is registered. -/
theorem perform_sound (sound : l.Sound handed) (call : Call)
    (good : ∀ t, call.handed = some t → handed t ∧ Encodable t) : Sound handed (l.perform call).2 := by
  cases call with
  | put task =>
    obtain ⟨isHanded, encodable⟩ := good task rfl
    exact sound.hand isHanded encodable
  | update task =>
    obtain ⟨isHanded, encodable⟩ := good task rfl
    simp only [perform]
    split
    · exact sound
    · exact sound.hand isHanded encodable
  | claimPending limit =>
    refine sound.putAll fun t listed => ?_
    obtain ⟨stored, chosen, rfl⟩ := mem_map.mp listed
    exact kept_claimed (sound.kept _ stored ((ranked_chosen sound.keyed limit).stored stored chosen))
  | recoverProcessing =>
    constructor
    · intro id t found
      obtain ⟨stored, held, rfl⟩ := Option.map_eq_some_iff.mp ((get_map _ _ _).symm.trans found)
      rw [recovered_id]
      exact sound.keyed id stored held
    · intro id t found
      obtain ⟨stored, held, rfl⟩ := Option.map_eq_some_iff.mp ((get_map _ _ _).symm.trans found)
      exact kept_recovered (sound.kept id stored held)
  | delete id => exact sound.delete id
  | getByID id =>
    simp only [perform]
    split <;> exact sound
  | getPending limit => exact sound
  | listDeadLetter limit => exact sound

end Ledger

/-- Stored tasks that show a ledger and can all be encoded. -/
structure Shown (tasks : Table Bytes Task) (l : Ledger) : Prop where
  plain : tasks.map Task.plain = l
  timely : ∀ id t, tasks.get id = some t → t.timely = true

namespace Shown

variable {handed : Task → Prop} {tasks : Table Bytes Task} {l : Ledger} {id : Bytes}

theorem empty : Shown Table.empty Table.empty := by
  refine ⟨rfl, ?_⟩
  intro id t found
  cases found

variable (shown : Shown tasks l)

include shown

theorem get (id : Bytes) : l.get id = (tasks.get id).map Task.plain := by
  rw [← shown.plain, get_map]

theorem held (held : tasks.get id = some t) : l.get id = some t.plain := by
  rw [shown.get, held]
  rfl

theorem put (timely : t.timely = true) (id : Bytes) : Shown (tasks.put id t) (l.put id t.plain) where
  plain := by rw [map_put, shown.plain]
  timely := fun id' t' => forall_get_put (fun _ _ => shown.timely _ _) timely id' t'

theorem delete (id : Bytes) : Shown (tasks.delete id) (l.delete id) where
  plain := by rw [map_delete, shown.plain]
  timely := fun id' t' => forall_get_delete (fun _ _ => shown.timely _ _) id' t'

theorem decoded (sound : l.Sound handed) (held : tasks.get id = some t) : t.decoded = t :=
  decoded_of_plain (sound.kept id t.plain (shown.held held)).decoded

theorem keyed (sound : l.Sound handed) (id : Bytes) (t : Task)
    (held : tasks.get id = some t) : t.id = id := sound.keyed id t.plain (shown.held held)

theorem named (sound : l.Sound handed) (held : tasks.get id = some t) :
    t.id ≠ [] := (sound.kept id t.plain (shown.held held)).named

theorem claimed_timely (early : now < yearTenThousand) (held : tasks.get id = some t) : (t.claimed now).timely = true :=
  timely_touched (t := { t with status := .processing, attempts := int64 (t.attempts + 1) })
    (shown.timely id t held) early

theorem claimed_decoded (sound : l.Sound handed) (now : Nat) (held : tasks.get id = some t) :
    (t.claimed now).decoded = t.claimed now :=
  decoded_of_plain (Ledger.kept_claimed (sound.kept id t.plain (shown.held held))).decoded

theorem recovered_timely (early : now < yearTenThousand) (held : tasks.get id = some t) :
    (t.recovered now).timely = true := by
  have timely := shown.timely id t held
  unfold Task.recovered
  split
  · exact timely_touched (t := { t with status := .pending }) timely early
  · exact timely

theorem recovered_decoded (sound : l.Sound handed) (now : Nat) (held : tasks.get id = some t) :
    (t.recovered now).decoded = t.recovered now := by
  apply decoded_of_plain
  rw [plain_recovered]
  exact (Ledger.kept_recovered (sound.kept id t.plain (shown.held held))).decoded

theorem recovered (early : now < yearTenThousand) :
    Shown (tasks.map (Task.recovered now)) (l.map (Task.recovered 0)) where
  plain := by
    refine ext_get fun id => ?_
    simp only [get_map, shown.get, Option.map_map]
    exact congrArg (Option.map · (tasks.get id)) (funext (plain_recovered now))
  timely := by
    intro id t found
    rw [get_map] at found
    obtain ⟨_, held, rfl⟩ := Option.map_eq_some_iff.mp found
    exact shown.recovered_timely early held

theorem putAll (timely : ∀ t ∈ items, t.timely = true) :
    Shown (Ledger.putAll tasks items) (l.putAll (items.map Task.plain)) := by
  induction items generalizing tasks l with
  | nil => exact shown
  | cons t items ih =>
    exact ih (shown.put (timely t mem_cons_self) t.id) fun t' listed => timely t' (mem_cons_of_mem _ listed)

theorem ranked (status : Status) (limit : Int) :
    l.ranked status limit = (Ledger.ranked tasks status limit).map Task.plain := by
  have values : l.entries.map (·.2) = (tasks.entries.map (·.2)).map Task.plain := by
    rw [← shown.plain, Table.map, map_map, map_map]
    rfl
  unfold Ledger.ranked
  rw [values, filter_map, ← limited_map, ← sortTasks_plain]
  rfl

theorem claimed_ranked (limit : Int) (now : Nat) : (l.ranked .pending limit).map (Task.claimed 0) =
      ((Ledger.ranked tasks .pending limit).map (Task.claimed now)).map Task.plain := by
  rw [shown.ranked, map_map, map_map]
  rfl

end Shown

/-! ### The store in memory -/

namespace MemoryStore

variable {handed : Task → Prop} {s : MemoryStore} {l : Ledger}

structure Shows (s : MemoryStore) (l : Ledger) : Prop where
  open_ : s.closed = false
  shown : Shown s.tasks l

theorem new_shows : new.Shows Table.empty := ⟨rfl, Shown.empty⟩

theorem withStatus_clones (shows : s.Shows l) (sound : l.Sound handed) (visit : Visit) (status : Status) :
    s.withStatus visit status = (visit.arrange (s.tasks.entries.map (·.2))).filter fun t => t.status = status := by
  refine (map_congr_left (g := id) fun t listed => ?_).trans (map_id _)
  obtain ⟨id, held⟩ := Ledger.mem_values ((visit.perm _).mem_iff.mp (mem_filter.mp listed).1)
  rw [cloneTask_eq (shows.shown.timely id t held), shows.shown.decoded sound held]
  rfl

/-- Whatever the order of the visit, the same tasks are found. -/
theorem withStatus_perm (shows : s.Shows l) (sound : l.Sound handed) (visit : Visit) (status : Status) :
    (s.withStatus visit status).Perm ((s.tasks.entries.map (·.2)).filter fun t => t.status = status) := by
  rw [withStatus_clones shows sound]
  exact (visit.perm _).filter _

/-- The order in which the map is visited is gone after sorting. -/
theorem ranked_visited (shows : s.Shows l) (sound : l.Sound handed)
    (apart : ∀ w w', handed w → handed w' → w.createdAt = w'.createdAt → w.id = w'.id) (visit : Visit)
    (status : Status) (limit : Int) :
    limited limit (sortTasks (s.withStatus visit status)) = Ledger.ranked s.tasks status limit := by
  have shown := shows.shown
  have found := withStatus_perm shows sound visit status
  congr 1
  refine exchangeSort_congr worse_ranks ?_ found
  intro a first b second notWorse notBetter
  obtain ⟨id, held⟩ := Ledger.mem_values (mem_filter.mp (found.mem_iff.mp first)).1
  obtain ⟨id', held'⟩ := Ledger.mem_values (mem_filter.mp (found.mem_iff.mp second)).1
  obtain ⟨w, isHanded, named, aged⟩ := (sound.kept id a.plain (shown.held held)).stems
  obtain ⟨w', isHanded', named', aged'⟩ := (sound.kept id' b.plain (shown.held held')).stems
  have sameAge : w.createdAt = w'.createdAt := aged.trans ((same_age notWorse notBetter).trans aged'.symm)
  have sameID : id = id' :=
    calc id = a.id := (shown.keyed sound id a held).symm
      _ = w.id := named.symm
      _ = w'.id := apart w w' isHanded isHanded' sameAge
      _ = b.id := named'
      _ = id' := shown.keyed sound id' b held'
  subst sameID
  exact Option.some.inj (held.symm.trans held')

/-- The loop of `ClaimPending`, for tasks that are stored as they are. -/
theorem claim_eq (now : Nat) {chosen : List Task} {tasks : Table Bytes Task}
    (stored : ∀ t ∈ chosen, tasks.get t.id = some t) (distinct : (chosen.map (·.id)).Nodup)
    (clones : ∀ t ∈ chosen, cloneTask (t.claimed now) = t.claimed now) :
    claim now chosen tasks =
      some (chosen.map (Task.claimed now), Ledger.putAll tasks (chosen.map (Task.claimed now))) := by
  induction chosen generalizing tasks with
  | nil => rfl
  | cons t chosen ih =>
    obtain ⟨apart, distinct⟩ := nodup_cons.mp distinct
    have rest : ∀ t' ∈ chosen, (tasks.put t.id (t.claimed now)).get t'.id = some t' := by
      intro t' listed
      have differs : t.id ≠ t'.id := fun same => apart (mem_map.mpr ⟨t', listed, same.symm⟩)
      rw [get_put_ne _ _ differs]
      exact stored t' (mem_cons_of_mem _ listed)
    have later := ih rest distinct fun t' listed => clones t' (mem_cons_of_mem _ listed)
    simp only [claim, stored t mem_cons_self, later, Option.map_some, clones t mem_cons_self]
    rfl

/-- What a claim does, whatever the order of the visit. -/
theorem claimPending_eq (shows : s.Shows l) (sound : l.Sound handed) (visit : Visit) (early : now < yearTenThousand)
    (limit : Int) :
    ∃ chosen, chosen = limited limit (sortTasks (s.withStatus visit .pending)) ∧ Chosen s.tasks chosen ∧
      s.claimPending visit now limit = some (.ok (chosen.map (Task.claimed now)),
        { s with tasks := Ledger.putAll s.tasks (chosen.map (Task.claimed now)) }) := by
  have picked : Chosen s.tasks (limited limit (sortTasks (s.withStatus visit .pending))) :=
    Chosen.of_perm (shows.shown.keyed sound) (withStatus_perm shows sound visit .pending) limit
  have clones : ∀ t ∈ limited limit (sortTasks (s.withStatus visit .pending)),
      cloneTask (t.claimed now) = t.claimed now := by
    intro t listed
    have held := picked.stored t listed
    rw [cloneTask_eq (shows.shown.claimed_timely early held), shows.shown.claimed_decoded sound now held]
  refine ⟨_, rfl, picked, ?_⟩
  simp [claimPending, shows.open_, claim_eq now picked.stored picked.distinct clones]

theorem Shows.store (shows : s.Shows l) (early : now < yearTenThousand) (encodable : Encodable t) :
    Shows { s with tasks := s.tasks.put t.id { cloneTask t with updatedAt := now } } (l.put t.id t.decoded.plain) := by
  rw [cloneTask_eq encodable.timely]
  exact ⟨shows.open_, shows.shown.put (timely_touched (t := t.decoded) encodable.timely early) t.id⟩

/-- Every call of the store in memory answers as the ledger does. -/
theorem Shows.perform_shows (shows : s.Shows l) (sound : l.Sound handed)
    (apart : ∀ w w', handed w → handed w' → w.createdAt = w'.createdAt → w.id = w'.id) (visit : Visit)
    (early : now < yearTenThousand) (call : Call) (good : ∀ t, call.handed = some t → Encodable t) :
    ∃ answer s', s.perform visit now call = some (answer, s') ∧ answer.plain = (l.perform call).1 ∧
      s'.Shows (l.perform call).2 := by
  obtain ⟨tasks, closed⟩ := s
  obtain ⟨rfl, shown⟩ := id shows
  cases call with
  | put task => exact ⟨_, _, rfl, rfl, shows.store early (good task rfl)⟩
  | delete id => exact ⟨_, _, rfl, rfl, rfl, shown.delete id⟩
  | recoverProcessing => exact ⟨_, _, rfl, rfl, rfl, shown.recovered early⟩
  | update task =>
    simp only [perform, update, Bool.false_eq_true, if_false, Ledger.perform, shown.get]
    cases tasks.get task.id with
    | none => exact ⟨_, _, rfl, rfl, shows⟩
    | some stored => exact ⟨_, _, rfl, rfl, shows.store early (good task rfl)⟩
  | getByID id =>
    simp only [perform, getByID, Bool.false_eq_true, if_false, Ledger.perform, shown.get]
    cases held : tasks.get id with
    | none => exact ⟨_, _, rfl, rfl, shows⟩
    | some t =>
      have clones : cloneTask t = t := (cloneTask_eq (shown.timely id t held)).trans (shown.decoded sound held)
      exact ⟨_, _, rfl, congrArg (fun t : Task => Answer.task (.ok t.plain)) clones, shows⟩
  | getPending limit =>
    refine ⟨_, _, rfl, ?_, shows⟩
    simp only [Ledger.perform, shown.ranked, getPending, Bool.false_eq_true, if_false, ranked_visited shows sound apart]
    rfl
  | listDeadLetter limit =>
    refine ⟨_, _, rfl, ?_, shows⟩
    simp only [Ledger.perform, shown.ranked, listDeadLetter, Bool.false_eq_true, if_false,
      ranked_visited shows sound apart]
    rfl
  | claimPending limit =>
    obtain ⟨chosen, visited, picked, ran⟩ := claimPending_eq shows sound visit early limit
    rw [ranked_visited shows sound apart] at visited
    subst visited
    simp only [perform, ran, Option.map_some, Ledger.perform, shown.claimed_ranked limit now]
    refine ⟨_, _, rfl, rfl, rfl, shown.putAll fun t listed => ?_⟩
    obtain ⟨held, member, rfl⟩ := mem_map.mp listed
    exact shown.claimed_timely early (picked.stored held member)

end MemoryStore

/-! ### The store in a bolt database -/

namespace BoltStore

variable {handed : Task → Prop} {s : BoltStore} {l : Ledger}

/-- Every record can be decoded. -/
def Shows (s : BoltStore) (l : Ledger) : Prop := ∃ tasks, s.records = tasks.map .ok ∧ Shown tasks l

theorem new_shows : new.Shows Table.empty := ⟨Table.empty, rfl, Shown.empty⟩

theorem withStatus_records (tasks : Table Bytes Task) (status : Status) :
    withStatus ⟨tasks.map .ok⟩ status = (tasks.entries.map (·.2)).filter fun t => t.status = status := by
  have decodable : ((tasks.map (Except.ok : Task → Except Bytes Task)).entries.filterMap (·.2.toOption)) =
      tasks.entries.map (·.2) := by
    rw [Table.map, filterMap_map]
    exact congrFun filterMap_eq_map tasks.entries
  unfold withStatus
  rw [decodable]

theorem ranked_records (tasks : Table Bytes Task) (status : Status) (limit : Int) :
    limited limit (sortTasks (withStatus ⟨tasks.map .ok⟩ status)) = Ledger.ranked tasks status limit := by
  rw [withStatus_records, Ledger.ranked]

/-- A task that is written as it is. -/
structure Storable (t : Task) : Prop where
  timely : t.timely = true
  decoded : t.decoded = t
  named : t.id ≠ []

theorem writeAll_eq (message : String) (storable : ∀ t ∈ items, Storable t) (tasks : Table Bytes Task) :
    writeAll message items (tasks.map .ok) = .ok ((Ledger.putAll tasks items).map .ok) := by
  induction items generalizing tasks with
  | nil => rfl
  | cons t items ih =>
    have first := storable t mem_cons_self
    have data : marshal t = .ok t := by
      simp [marshal, first.timely, first.decoded]
    simp only [writeAll, data, if_neg first.named, ← map_put]
    exact ih (fun t' listed => storable t' (mem_cons_of_mem _ listed)) _

variable {tasks : Table Bytes Task}

/-- Writing back the tasks that were being processed is recovering all. -/
theorem putAll_recovered (keyed : ∀ id t, tasks.get id = some t → t.id = id) (now : Nat) :
    Ledger.putAll tasks (((tasks.entries.map (·.2)).filter fun t => t.status = .processing).map (Task.recovered now)) =
      tasks.map (Task.recovered now) := by
  have distinct : (((tasks.entries.map (·.2)).filter fun t => t.status = .processing).map (·.id)).Nodup :=
    List.Nodup.sublist (filter_sublist.map _) (Ledger.values_distinct keyed)
  have folded : Ledger.putAll tasks
      (((tasks.entries.map (·.2)).filter fun t => t.status = .processing).map (Task.recovered now)) =
      ((tasks.entries.map (·.2)).filter fun t => t.status = .processing).foldl
        (fun l t => l.put t.id (t.recovered now)) tasks := by
    simp only [Ledger.putAll, foldl_map, Ledger.recovered_id]
  rw [folded]
  obtain ⟨written, others⟩ := get_foldl_put (·.id) (Task.recovered now) distinct tasks
  refine ext_get fun id => ?_
  rw [get_map]
  by_cases listed : ∃ t, tasks.get id = some t ∧ t.status = .processing
  · obtain ⟨t, held, processing⟩ := listed
    have member : t ∈ (tasks.entries.map (·.2)).filter fun t => t.status = .processing := by
      refine mem_filter.mpr ⟨mem_map.mpr ⟨(id, t), mem_of_get held, rfl⟩, by simpa using processing⟩
    have put := written t member
    rw [keyed id t held] at put
    rw [put, held]
    rfl
  · have outside : id ∉ ((tasks.entries.map (·.2)).filter fun t => t.status = .processing).map (·.id) := by
      intro member
      obtain ⟨t, chosen, rfl⟩ := mem_map.mp member
      obtain ⟨stored, processing⟩ := mem_filter.mp chosen
      obtain ⟨id, held⟩ := Ledger.mem_values stored
      rw [keyed id t held] at listed
      exact listed ⟨t, held, by simpa using processing⟩
    rw [others id outside]
    cases held : tasks.get id with
    | none => rfl
    | some t =>
      have other : t.status ≠ .processing := fun processing => listed ⟨t, held, processing⟩
      simp [Task.recovered, if_neg other]

theorem Shows.store (shown : Shown tasks l) (encodable : Encodable t) :
    Shows ⟨(tasks.map .ok).put t.id (.ok t.decoded)⟩ (l.put t.id t.decoded.plain) :=
  ⟨tasks.put t.id t.decoded, (map_put _ _ _ _).symm, shown.put (t := t.decoded) encodable.timely t.id⟩

theorem marshal_encodable (encodable : Encodable t) : marshal t = .ok t.decoded :=
  if_pos encodable.timely

theorem claimPending_eq (shown : Shown tasks l) (sound : l.Sound handed) (early : now < yearTenThousand) (limit : Int) :
    claimPending ⟨tasks.map .ok⟩ none now limit = (.ok ((Ledger.ranked tasks .pending limit).map (Task.claimed now)),
        ⟨(Ledger.putAll tasks ((Ledger.ranked tasks .pending limit).map (Task.claimed now))).map .ok⟩) := by
  have storable : ∀ t ∈ (Ledger.ranked tasks .pending limit).map (Task.claimed now), Storable t := by
    intro t listed
    obtain ⟨t, chosen, rfl⟩ := mem_map.mp listed
    have held := (Ledger.ranked_chosen (shown.keyed sound) limit).stored t chosen
    have named := shown.named sound held
    exact ⟨shown.claimed_timely early held, shown.claimed_decoded sound now held, named⟩
  simp only [claimPending, ranked_records, writeAll_eq _ storable]

/-- Every call of the bolt store answers as the ledger does, if the database does
not fail. -/
theorem Shows.perform_shows (shows : s.Shows l) (sound : l.Sound handed) (early : now < yearTenThousand) (call : Call)
    (good : ∀ t, call.handed = some t → Encodable t) :
    (s.perform none now call).1.plain = (l.perform call).1 ∧ (s.perform none now call).2.Shows (l.perform call).2 := by
  obtain ⟨records⟩ := s
  obtain ⟨tasks, rfl, shown⟩ := id shows
  cases call with
  | put task =>
    have encodable := good task rfl
    simp only [perform, put, marshal_encodable encodable, if_neg encodable.named]
    exact ⟨rfl, Shows.store shown encodable⟩
  | update task =>
    have encodable := good task rfl
    simp only [perform, update, marshal_encodable encodable, if_neg encodable.named, Ledger.perform, shown.get,
      get_map]
    cases tasks.get task.id with
    | none => exact ⟨rfl, shows⟩
    | some stored => exact ⟨rfl, Shows.store shown encodable⟩
  | delete id => exact ⟨rfl, tasks.delete id, (map_delete _ _ _).symm, shown.delete id⟩
  | getByID id =>
    simp only [perform, getByID, Ledger.perform, shown.get, get_map]
    cases tasks.get id with
    | none => exact ⟨rfl, shows⟩
    | some t => exact ⟨rfl, shows⟩
  | getPending limit =>
    refine ⟨?_, shows⟩
    simp only [perform, getPending, ranked_records, Ledger.perform, shown.ranked]
    rfl
  | listDeadLetter limit =>
    refine ⟨?_, shows⟩
    simp only [perform, listDeadLetter, ranked_records, Ledger.perform, shown.ranked]
    rfl
  | claimPending limit =>
    have picked := Ledger.ranked_chosen (shown.keyed sound) limit
    simp only [perform, claimPending_eq shown sound early limit, Ledger.perform, shown.claimed_ranked limit now]
    refine ⟨rfl, _, rfl, shown.putAll fun t listed => ?_⟩
    obtain ⟨held, member, rfl⟩ := mem_map.mp listed
    exact shown.claimed_timely early (picked.stored held member)
  | recoverProcessing =>
    have storable : ∀ t ∈ (withStatus ⟨tasks.map .ok⟩ .processing).map (Task.recovered now), Storable t := by
      intro t listed
      obtain ⟨t, chosen, rfl⟩ := mem_map.mp listed
      rw [withStatus_records] at chosen
      obtain ⟨id, held⟩ := Ledger.mem_values (mem_filter.mp chosen).1
      refine ⟨shown.recovered_timely early held, shown.recovered_decoded sound now held, ?_⟩
      rw [Ledger.recovered_id]
      exact shown.named sound held
    simp only [perform, recoverProcessing, writeAll_eq _ storable, Ledger.perform]
    rw [withStatus_records, putAll_recovered (shown.keyed sound)]
    exact ⟨rfl, _, rfl, shown.recovered early⟩

end BoltStore

/-! ### Both stores -/

/-- A call as both stores get it, each at its own time. -/
structure Step where
  call : Call
  visit : Visit
  (memoryNow boltNow : Nat)

/-- Calls with tasks that can be encoded, at times that can be, where tasks of
different ids are not of one age. -/
structure Regular (steps : List Step) : Prop where
  encodable : ∀ step ∈ steps, ∀ t, step.call.handed = some t → Encodable t
  early : ∀ step ∈ steps, step.memoryNow < yearTenThousand ∧ step.boltNow < yearTenThousand
  apart : ∀ step ∈ steps, ∀ step' ∈ steps, ∀ t t', step.call.handed = some t → step'.call.handed = some t' →
    t.createdAt = t'.createdAt → t.id = t'.id

namespace Sample

def first : Task := ⟨str "1", str "scan", some (str "x"), 0, .pending, 0, 3, 10, 10, 0, []⟩
def second : Task := ⟨str "2", str "scan", none, 1, .pending, 0, 3, 20, 20, 0, []⟩

def calls : List Call :=
  [.put first, .put second, .claimPending 1, .getPending 0, .recoverProcessing, .update second, .delete (str "1"),
    .getByID (str "1"), .listDeadLetter 5]

/-- The map is visited backwards. -/
def steps : List Step := calls.map fun call => ⟨call, ⟨reverse, reverse_perm⟩, 30, 31⟩

end Sample

open Sample

end CipherLake.TaskQueue
