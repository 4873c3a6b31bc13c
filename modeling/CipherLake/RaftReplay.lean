import CipherLake.Lib.Replay
import CipherLake.RaftFsm

/-! The metadata state machine under replay. A snapshot is written from the live
database, which may have applied further entries by then, and a restart keeps the
database; either way the log is applied again over a part of itself. -/
namespace CipherLake.Raft
open Lib Table

variable {δ : Type}

inductive Bucket where
  | objects
  | objectIndex
  | buckets
  | versions
  | uploads
  | parts

variable (f : BoltFSM δ) (op : FSMOperation δ) (cell : Bucket × Bytes)

def BoltFSM.table : Bucket → Table Bytes δ
  | .objects => f.objects
  | .objectIndex => f.objectIndex
  | .buckets => f.buckets
  | .versions => f.versions
  | .uploads => f.uploads
  | .parts => f.parts

def replay (log : List (FSMOperation δ)) : BoltFSM δ := log.foldl (fun f op => (f.apply op).2) f

/-- What an operation does to the entry of a key. -/
def FSMOperation.effect : Effect δ :=
  match op.type, cell.1 with
  | .putObject, .objects => .at_ op.entryKey cell.2 (.write (some op.data))
  | .putObject, .objectIndex => .at_ (op.bucket ++ str "/" ++ extractPrefix op.key) cell.2 (.fill op.data)
  | .deleteObject, .objects => .at_ op.entryKey cell.2 (.write none)
  | .createBucket, .buckets => if op.bucket = [] then .keep else .at_ op.bucket cell.2 (.write (some op.data))
  | .updateBucket, .buckets => if op.bucket = [] then .keep else .at_ op.bucket cell.2 (.write (some op.data))
  | .deleteBucket, .objects => if hasPrefix cell.2 (op.bucket ++ str "/") then .write none else .keep
  | .deleteBucket, .buckets => .at_ op.bucket cell.2 (.write none)
  | .putObjectVersion, .versions => .at_ op.entryKey cell.2 (.write (some op.data))
  | .putUpload, .uploads => .at_ op.entryKey cell.2 (.write (some op.data))
  | .deleteUpload, .uploads => .at_ op.entryKey cell.2 (.write none)
  | .addPart, .parts => .at_ op.entryKey cell.2 (.write (some op.data))
  | _, _ => .keep

/-- Only the first object under a prefix enters the index. -/
theorem get_index_effect (t : Table Bytes δ) (key other : Bytes) (value : δ) :
    (if (t.get key).isNone then t.put key value else t).get other =
      (Effect.at_ key other (.fill value)).apply (t.get other) := by
  unfold Effect.at_
  by_cases same : key = other
  · subst same
    cases held : t.get key <;> simp [held, Effect.apply]
  · rw [if_neg same]
    split
    · exact get_put_ne _ _ same
    · rfl

theorem applyPutBucket_effect (table : Bucket) (key : Bytes)
    (type : op.type = .createBucket ∨ op.type = .updateBucket) :
    ((applyPutBucket f op).2.table table).get key = (op.effect (table, key)).apply ((f.table table).get key) := by
  obtain ⟨kind, bucket, objectKey, data⟩ := op
  unfold applyPutBucket
  rcases type with rfl | rfl <;> by_cases unnamed : bucket = []
  all_goals
    cases table with
    | buckets =>
      simp only [FSMOperation.effect, unnamed, if_true, if_false]
      first | rfl | exact get_put_effect _ _ _ _
    | _ =>
      simp only [unnamed, if_true, if_false]
      rfl

theorem apply_effect :
    ((f.apply op).2.table cell.1).get cell.2 = (op.effect cell).apply ((f.table cell.1).get cell.2) := by
  obtain ⟨table, key⟩ := cell
  obtain ⟨type, bucket, -, -⟩ := op
  cases type with
  | putObject => cases table <;> first | exact get_put_effect _ _ _ _ | exact get_index_effect _ _ _ _ | rfl
  | deleteObject => cases table <;> first | exact get_delete_effect _ _ _ | rfl
  | createBucket => exact applyPutBucket_effect f _ table key (Or.inl rfl)
  | updateBucket => exact applyPutBucket_effect f _ table key (Or.inr rfl)
  | deleteBucket =>
    cases table with
    | objects => exact get_delete_scan f.objects key (bucket ++ str "/")
    | buckets => exact get_delete_effect _ _ _
    | _ => rfl
  | deleteUpload => cases table <;> first | exact get_delete_effect _ _ _ | rfl
  | other name => cases table <;> rfl
  | _ => cases table <;> first | exact get_put_effect _ _ _ _ | rfl

theorem BoltFSM.ext_table {f f' : BoltFSM δ} (same : ∀ table, f.table table = f'.table table) : f = f' := by
  cases f
  cases f'
  congr
  exacts [same .objects, same .objectIndex, same .buckets, same .versions, same .uploads, same .parts]

/-- A log that is applied over the state which a part of it has been applied to
leads to the state that it leads to without that part. -/
theorem replay_converges (earlier part rest : List (FSMOperation δ)) :
    replay (replay f (earlier ++ part)) (part ++ rest) = replay f (earlier ++ (part ++ rest)) := by
  have begun (log : List (FSMOperation δ)) : replay f (earlier ++ log) = replay (replay f earlier) log :=
    List.foldl_append
  rw [begun, begun]
  refine BoltFSM.ext_table fun table => ext_get fun key => ?_
  exact Effect.read_again (fun (f : BoltFSM δ) (cell : Bucket × Bytes) => (f.table cell.1).get cell.2) apply_effect part
    rest _ (table, key)

end CipherLake.Raft
