import CipherLake.Lib.Bytes
import Mathlib.Data.Nat.Basic

/-! The pauses between the attempts of the task queue and of the dead-letter queue.
Both double before they look at the limit, in 64 bits: once the doubled base does
not fit any more, the pause is negative, and later it is zero. -/
namespace CipherLake.BackOff
open Lib

def capped (limit delay : Int) : Int := if delay > limit then limit else delay

/-- `Queue.retryDelay`. A shift by 64 or more leaves nothing. -/
def retryDelay (retryBase maxRetryDelay attempt : Int) : Int :=
  let attempt := if attempt ≤ 0 then 1 else attempt
  capped maxRetryDelay (int64 (retryBase * int64 (2 ^ (attempt - 1).toNat)))

/-- The loop of `retryLoop`, for so many attempts. -/
def doubled (backoff : Int) : Nat → Int
  | 0 => backoff
  | attempts + 1 => doubled (int64 (backoff * 2)) attempts

/-- The pause of `retryLoop`, of at most 16 seconds. -/
def backoff (retryBaseMS attempts : Int) : Int :=
  capped (16 * 10 ^ 9) (doubled (int64 (retryBaseMS * 10 ^ 6)) attempts.toNat)

/-- Up to so many attempts the pause is positive, within the limit, and never shorter than before. -/
def Grows (pause : Int → Int) (limit attempts : Int) : Prop :=
  (∀ a ≤ attempts, 0 < pause a ∧ pause a ≤ limit) ∧ ∀ a b, a ≤ b → b ≤ attempts → pause a ≤ pause b

variable {base limit : Int}

theorem retryDelay_eq (base limit attempt : Int) :
    retryDelay base limit attempt = capped limit (int64 (base * 2 ^ (attempt - 1).toNat)) := by
  have shift : ((if attempt ≤ 0 then 1 else attempt) - 1).toNat = (attempt - 1).toNat := by
    split <;> omega
  simp only [retryDelay, shift, int64, Int.mul_bmod_bmod]

theorem doubled_eq (attempts : Nat) : doubled (int64 base) attempts = int64 (base * 2 ^ attempts) := by
  induction attempts generalizing base with
  | zero => simp [doubled]
  | succ attempts ih =>
    have once : int64 (int64 base * 2) = int64 (base * 2) := Int.bmod_mul_bmod
    rw [doubled, once, ih, pow_succ', mul_assoc]

/-- The first time that doubling is not exact, the sign is lost. -/
theorem sign_lost (fits : int64 base = base) {n : Nat} (large : 2 ^ 63 ≤ base * 2 ^ n) :
    ∃ k ≤ n, int64 (base * 2 ^ k) < 0 := by
  induction n with
  | zero =>
    have high := @Int.bmod_lt base (2 ^ 64) (by decide)
    unfold int64 at fits
    omega
  | succ n ih =>
    by_cases before : 2 ^ 63 ≤ base * 2 ^ n
    · obtain ⟨k, early, lost⟩ := ih before
      exact ⟨k, Nat.le_succ_of_le early, lost⟩
    · refine ⟨n + 1, Nat.le_refl _, ?_⟩
      have next : base * 2 ^ (n + 1) = 2 * (base * 2 ^ n) := by ring
      rw [next] at large ⊢
      rw [int64, Int.bmod_def]
      omega

theorem capped_grows_iff (start : Int) (fits : int64 base = base) (some_time : 0 < limit) (attempts : Int) :
    Grows (fun a => capped limit (int64 (base * 2 ^ (a - start).toNat))) limit attempts ↔
      0 < base ∧ base * 2 ^ (attempts - start).toNat < 2 ^ 63 := by
  constructor
  · rintro ⟨within, -⟩
    have positive (k : Nat) (early : k ≤ (attempts - start).toNat) : 0 < int64 (base * 2 ^ k) := by
      have reached := (within (min attempts (k + start)) (min_le_left _ _)).1
      simp only [show (min attempts (k + start) - start).toNat = k by omega, capped] at reached
      split at reached <;> omega
    have some_base : 0 < base := by simpa [fits] using positive 0 (Nat.zero_le _)
    refine ⟨some_base, lt_of_not_ge fun large => ?_⟩
    obtain ⟨k, early, lost⟩ := sign_lost fits large
    exact lt_asymm lost (positive k early)
  · rintro ⟨some_base, small⟩
    have grows {a b : Int} (order : a ≤ b) : base * 2 ^ (a - start).toNat ≤ base * 2 ^ (b - start).toNat :=
      Int.mul_le_mul_of_nonneg_left (pow_le_pow_right₀ (by decide) (by omega)) some_base.le
    have positive (a : Int) : 0 < base * 2 ^ (a - start).toNat := Int.mul_pos some_base (Int.pow_pos (by decide))
    have exact {a : Int} (early : a ≤ attempts) :
        int64 (base * 2 ^ (a - start).toNat) = base * 2 ^ (a - start).toNat :=
      int64_of_small ((by decide : (-2 ^ 63 : Int) ≤ 0).trans (positive a).le) ((grows early).trans_lt small)
    refine ⟨fun a early => ?_, fun a b order early => ?_⟩
    · have := positive a
      simp only [capped, exact early]
      split <;> omega
    · have := grows order
      simp only [capped, exact (order.trans early), exact early]
      split <;> split <;> omega

/-- The pauses of both queues are right up to given numbers of attempts exactly if the base, doubled for
the last of them, still fits. -/
theorem pauses_grow_iff {retryBase maxRetryDelay retryBaseMS : Int} (attempts redeliveries : Int)
    (based : 0 < retryBase) (word : retryBase < 2 ^ 63) (limited : 0 < maxRetryDelay) :
    Grows (retryDelay retryBase maxRetryDelay) maxRetryDelay attempts ∧
        Grows (backoff retryBaseMS) (16 * 10 ^ 9) redeliveries ↔
      retryBase * 2 ^ (attempts - 1).toNat < 2 ^ 63 ∧ 0 < int64 (retryBaseMS * 10 ^ 6) ∧
        int64 (retryBaseMS * 10 ^ 6) * 2 ^ redeliveries.toNat < 2 ^ 63 := by
  have queue := capped_grows_iff 1 (int64_of_small (by omega) word) limited attempts
  have deadLetters := @capped_grows_iff (int64 (retryBaseMS * 10 ^ 6)) (16 * 10 ^ 9) 0 Int.bmod_bmod (by decide)
    redeliveries
  simp only [based, true_and, sub_zero, ← retryDelay_eq] at queue deadLetters
  have doubles (attempts : Int) : backoff retryBaseMS attempts =
      capped (16 * 10 ^ 9) (int64 (int64 (retryBaseMS * 10 ^ 6) * 2 ^ attempts.toNat)) := by
    have once : int64 (int64 (retryBaseMS * 10 ^ 6)) = int64 (retryBaseMS * 10 ^ 6) := Int.bmod_bmod
    rw [← doubled_eq, once, backoff]
  simp only [← doubles] at deadLetters
  exact and_congr queue deadLetters

/-- The default base of a second, limited to five minutes, and the default base of the dead-letter queue. -/
theorem pauses_grow_default : Grows (retryDelay (10 ^ 9) (5 * 60 * 10 ^ 9)) (5 * 60 * 10 ^ 9) 34 ∧
    Grows (backoff 1000) (16 * 10 ^ 9) 33 :=
  (pauses_grow_iff 34 33 (by decide) (by decide) (by decide)).mpr (by decide +kernel)

/-- With the same bases, after one attempt more there is no pause. -/
theorem pauses_vanish : retryDelay (10 ^ 9) (5 * 60 * 10 ^ 9) 35 < 0 ∧ backoff 1000 34 < 0 ∧
    retryDelay (10 ^ 9) (5 * 60 * 10 ^ 9) 65 = 0 ∧ backoff 1000 64 = 0 := by
  decide +kernel

end CipherLake.BackOff
