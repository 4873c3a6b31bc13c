import CipherLake.SigV4Completeness

/-! How long a presigned URL is accepted. Its timestamp may not be further than fifteen
minutes from the clock, however long it says that it lasts, and a URL that does not say
how long it lasts passes. -/
namespace CipherLake.PresignedWindow
open Lib Http SigV4

variable (D : Digests) (clock : Clock) (r : Request) (secretKey : Bytes) (t : Moment)

/-- Correctly signed at `t`: accepted then, if it lasts. -/
structure Signed : Prop where
  dated : clock.parseTime (r.queryGet (str "X-Amz-Date")) = some t
  accepted : verifySigV4PresignedURL D ⟨t.instant, clock.parseTime, fun _ => some 0⟩ r secretKey = .ok ()

abbrev expires : Bytes := r.queryGet (str "X-Amz-Expires")

/-- An `X-Amz-Expires` that is an integer from 1 to 604800. -/
def Lasts (seconds : Int) : Prop := parseInt (expires r) = some seconds ∧ 1 ≤ seconds ∧ seconds ≤ 604800

variable {D clock r secretKey t}

private theorem guard_ok {c : Prop} [Decidable c] {e : Bytes} {rest : Except Bytes Unit} :
    (if c then .error e else rest) = .ok () ↔ ¬ c ∧ rest = .ok () := by
  split <;> simp [*]

/-- What is left of a signed URL's checks is those of the time. -/
theorem verify_times (signed : Signed D clock r secretKey t) :
    verifySigV4PresignedURL D clock r secretKey = .ok () ↔
      (expires r ≠ [] → ∃ d, clock.parseDuration (expires r ++ str "s") = some d ∧ clock.now ≤ t.instant + d) ∧
        t.instant - window ≤ clock.now ∧ clock.now ≤ t.instant + window := by
  obtain ⟨dated, accepted⟩ := signed
  unfold verifySigV4PresignedURL at accepted ⊢
  simp only [validatePresignedExpiry, validateTimestamp, dated, guard_ok] at accepted ⊢
  obtain ⟨named, accepted⟩ := accepted
  split at accepted
  swap
  · cases accepted
  simp only [guard_ok] at accepted ⊢
  obtain ⟨terminated, headed, signature, stamped, accepted⟩ := accepted
  simp only [named, terminated, headed, signature, stamped, not_false_eq_true, true_and]
  rename_i date region service terminator _
  have wide : 0 < window := by decide
  have near : ¬ (t.instant - t.instant < -window ∨ t.instant - t.instant > window) := by omega
  simp only [gt_iff_lt, add_zero, lt_irrefl, if_false, ite_self, if_neg near] at accepted
  by_cases day : t.day ≠ date
  · simp [day] at accepted
  simp only [if_neg day, guard_ok, and_true] at accepted ⊢
  simp only [if_neg accepted]
  have within : t.instant - window ≤ clock.now ∧ clock.now ≤ t.instant + window ↔
      ¬ (clock.now - t.instant < -window ∨ clock.now - t.instant > window) := by omega
  rw [within]
  by_cases far : clock.now - t.instant < -window ∨ clock.now - t.instant > window
  · simp only [far, if_true, not_true, and_false, iff_false]
    split <;> rintro ⟨⟩
  simp only [far, if_false, not_false_eq_true, and_true]
  by_cases silent : expires r = []
  · simp [silent]
  cases clock.parseDuration (expires r ++ str "s") with
  | none => simp [silent]
  | some d =>
    by_cases expired : clock.now > t.instant + d
    · simp [silent, expired]
    · simp [silent, expired, Int.not_lt.mp expired]

/-- A signed URL is accepted where it should be exactly if, being meant to last, it is not more than
fifteen minutes old or no longer lasts, and otherwise is not taken for one that lasts. -/
theorem window_kept_iff (signed : Signed D clock r secretKey t)
    (seconds : ∀ n, Lasts r n → clock.parseDuration (expires r ++ str "s") = some (n * 10 ^ 9)) :
    (verifySigV4PresignedURL D clock r secretKey = .ok () ↔
        ∃ n, Lasts r n ∧ t.instant - window ≤ clock.now ∧ clock.now ≤ t.instant + n * 10 ^ 9) ↔
      (∀ n, Lasts r n → clock.now ≤ t.instant + window ∨ t.instant + n * 10 ^ 9 < clock.now) ∧
        ((∀ n, ¬ Lasts r n) → t.instant - window ≤ clock.now → clock.now ≤ t.instant + window →
          expires r ≠ [] ∧ ∀ d, clock.parseDuration (expires r ++ str "s") = some d → t.instant + d < clock.now) := by
  rw [verify_times signed]
  by_cases lasts : ∃ n, Lasts r n
  · obtain ⟨n, lasts⟩ := lasts
    have spoken : expires r ≠ [] := by
      intro silent
      have read := lasts.1
      rw [silent] at read
      cases read
    have only (m : Int) : Lasts r m ↔ m = n :=
      ⟨fun other => Option.some.inj (other.1.symm.trans lasts.1), fun same => same ▸ lasts⟩
    simp only [seconds n lasts, only, exists_eq_left, forall_eq, Option.some.injEq, exists_eq_left', ne_eq, spoken,
      not_false_eq_true, forall_const, false_imp_iff, and_true]
    have wide : 0 < window := by decide
    omega
  · have never (n : Int) : ¬ Lasts r n := fun held => lasts ⟨n, held⟩
    simp only [never, false_and, exists_false, iff_false, false_imp_iff, implies_true, true_and, not_false_eq_true,
      forall_const, not_and', and_imp, Classical.not_imp, not_exists]
    refine forall₂_congr fun _ _ => and_congr_right fun _ => forall_congr' fun d => ?_
    rw [← not_le, imp_not_comm]

open SigV4Completeness

/-- A URL for an hour, with its signature under digests that are zeros. -/
def hourURL : Request where
  method := str "GET"
  host := []
  path := str "/photos/cat.jpg"
  rawQuery := str "X-Amz-Credential=AKIAEXAMPLE/20240501/us-east-1/s3/aws4_request&X-Amz-Date=20240501T120000Z" ++
    str "&X-Amz-Expires=3600&X-Amz-SignedHeaders=host&X-Amz-Signature=" ++ List.replicate 64 48
  header := []
  remoteAddr := []
  contentLength := 0
  body := ⟨[], some .eof⟩

def minutesLater (minutes : Int) : Clock :=
  ⟨Sample.clock.now + minutes * 60 * 10 ^ 9, Sample.clock.parseTime,
    fun text => (parseInt text.dropLast).map (· * 10 ^ 9)⟩

def signing : Moment := ⟨Sample.clock.now, str "20240501"⟩

theorem hourURL_lasts : Lasts hourURL 3600 := ⟨by decide +kernel, by decide, by decide⟩

theorem hourURL_accepted : verifySigV4PresignedURL Sample.digests (minutesLater 10) hourURL [] = .ok () := by
  refine ((window_kept_iff (t := signing) ⟨by decide +kernel, by decide +kernel⟩ fun n lasts => ?_).mpr
    ⟨fun n _ => .inl (by decide), fun never => absurd hourURL_lasts (never _)⟩).mpr
    ⟨3600, hourURL_lasts, by decide, by decide⟩
  simpa [minutesLater, str] using lasts.1

/-- Twenty minutes old, and so refused. -/
theorem hourURL_refused : Signed Sample.digests (minutesLater 20) hourURL [] signing ∧ Lasts hourURL 3600 ∧
    verifySigV4PresignedURL Sample.digests (minutesLater 20) hourURL [] =
      .error (str "request timestamp too far from current time") := by
  refine ⟨⟨by decide +kernel, by decide +kernel⟩, hourURL_lasts, ?_⟩
  decide +kernel

end CipherLake.PresignedWindow
