import CipherLake.Lib.Bytes
import Mathlib.Logic.Equiv.Basic

/-! A bijection of byte strings with prescribed values. A length-preserving
function that is known at finitely many points only is completed by exchanging
each point with its value and fixing everything else. -/
namespace CipherLake.Lib

def exchange : List (Bytes × Bytes) → Equiv.Perm Bytes
  | [] => Equiv.refl Bytes
  | (point, value) :: pairs => (Equiv.swap point value).trans (exchange pairs)

private theorem swap_length {point value : Bytes} (same : value.length = point.length) (x : Bytes) :
    (Equiv.swap point value x).length = x.length := by
  rw [Equiv.swap_apply_def]
  split
  · next at_point => rw [same, at_point]
  · split
    · next at_value => rw [← same, at_value]
    · rfl

/-- Points and values of equal length make a length-preserving bijection. -/
theorem exchange_length (pairs : List (Bytes × Bytes))
    (same : ∀ pair ∈ pairs, pair.2.length = pair.1.length) (x : Bytes) : (exchange pairs x).length = x.length := by
  induction pairs generalizing x with
  | nil => rfl
  | cons pair pairs ih =>
    rw [exchange, Equiv.trans_apply, ih (fun pair member => same pair (List.mem_cons_of_mem _ member)),
      swap_length (same _ List.mem_cons_self)]

end CipherLake.Lib
