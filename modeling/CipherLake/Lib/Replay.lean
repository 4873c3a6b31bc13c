import CipherLake.Lib.GoStrings
import CipherLake.Lib.Table

/-! Logs that are replayed over a state which has a part of them already. A state is
looked at cell by cell, and on each cell an operation does nothing, puts down a
value of its own, or fills the cell if it is empty. -/
namespace CipherLake.Lib

/-- What an operation does to a cell. -/
inductive Effect (β : Type) where
  | keep
  | write (value : Option β)
  | fill (value : β)

namespace Effect

variable {σ ι κ β : Type}

def apply : Effect β → Option β → Option β
  | keep, cell => cell
  | write value, _ => value
  | fill value, cell => some (cell.getD value)

/-- An effect on one cell only. -/
def at_ [DecidableEq κ] (place cell : κ) (effect : Effect β) : Effect β := if place = cell then effect else keep

/-- One effect after another is one effect. -/
def andThen : Effect β → Effect β → Effect β
  | first, keep => first
  | _, write value => write value
  | keep, fill value => fill value
  | write before, fill value => write (some (before.getD value))
  | fill before, fill _ => fill before

theorem apply_andThen (first second : Effect β) (cell : Option β) :
    (first.andThen second).apply cell = second.apply (first.apply cell) := by
  cases second with
  | _ => cases first <;> rfl

theorem apply_apply (effect : Effect β) (cell : Option β) : effect.apply (effect.apply cell) = effect.apply cell := by
  cases effect <;> rfl

/-- A log has one effect on a cell, so a part of it may come first. -/
theorem read_again {step : σ → ι → σ} (read : σ → κ → Option β) {effect : ι → κ → Effect β}
    (reads : ∀ s op cell, read (step s op) cell = (effect op cell).apply (read s cell)) (part rest : List ι) (s : σ)
    (cell : κ) :
    read ((part ++ rest).foldl step (part.foldl step s)) cell = read ((part ++ rest).foldl step s) cell := by
  have whole (log : List ι) : ∃ e : Effect β, ∀ s, read (log.foldl step s) cell = e.apply (read s cell) := by
    induction log with
    | nil => exact ⟨keep, fun _ => rfl⟩
    | cons op later ih =>
      obtain ⟨rest, all⟩ := ih
      refine ⟨(effect op cell).andThen rest, fun s => ?_⟩
      rw [List.foldl_cons, all, reads, apply_andThen]
  obtain ⟨_, begun⟩ := whole part
  obtain ⟨_, ended⟩ := whole rest
  simp only [List.foldl_append, begun, ended, apply_apply]

end Effect

namespace Table
variable {β : Type} (t : Table Bytes β) (place key : Bytes)

theorem get_put_effect (value : β) :
    (t.put place value).get key = (Effect.at_ place key (.write (some value))).apply (t.get key) := by
  unfold Effect.at_
  split
  · next same => rw [same, get_put_same, Effect.apply]
  · next apart => rw [get_put_ne _ _ apart, Effect.apply]

theorem get_delete_effect : (t.delete place).get key = (Effect.at_ place key (.write none)).apply (t.get key) := by
  unfold Effect.at_
  split
  · next same => rw [same, get_delete_same, Effect.apply]
  · next apart => rw [get_delete_ne _ apart, Effect.apply]

/-- Deleting what a cursor finds under a name leaves the other keys. -/
theorem get_delete_scan (start : Bytes) :
    ((((t.seek start).takeWhile fun e => hasPrefix e.1 start).map (·.1)).foldl delete t).get key =
      (if hasPrefix key start then Effect.write none else .keep).apply (t.get key) := by
  unfold hasPrefix
  rw [foldl_delete, get_restrict, seek_prefix]
  cases held : t.get key with
  | none => split <;> split <;> rfl
  | some value =>
    have listed : key ∈ (t.entries.filter fun e => start.isPrefixOf e.1).map (·.1) ↔ start.isPrefixOf key = true := by
      rw [List.mem_map]
      constructor
      · rintro ⟨e, member, rfl⟩
        exact (List.mem_filter.mp member).2
      · intro under
        exact ⟨(key, value), List.mem_filter.mpr ⟨mem_of_get held, under⟩, rfl⟩
    by_cases under : start.isPrefixOf key = true <;> simp [listed, under, Effect.apply]

end Table
end CipherLake.Lib
