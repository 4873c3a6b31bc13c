import CipherLake.Lib.Program

/-! Two programs in turns where an operation may have to wait. A program in a
critical section keeps the operations that wait for its end out of it. What does
not wait is made somewhere amid the other program. -/
namespace CipherLake.Lib.Program

variable {Op σ α β : Type} {Answer : Op → Type}

section
variable (exec : (op : Op) → σ → Answer op × σ)

/-- A program with one step of somebody else somewhere in between, where that step
can be taken. -/
inductive Amid (step : σ → Option σ) : Program Op Answer α → σ → α × σ → Prop where
  | now {p : Program Op Answer α} {s s' : σ} (steps : step s = some s') : Amid step p s (run exec p s')
  | later {op : Op} {next : Answer op → Program Op Answer α} {s : σ} {out : α × σ}
      (rest : Amid step (next (exec op s).1) (exec op s).2 out) : Amid step (call op next) s out

/-- An operation and a step have the same effect in either order, and the step can
be taken in both or in neither. -/
def Indifferent (step : σ → Option σ) (op : Op) : Prop :=
  ∀ s, step (exec op s).2 = (step s).map (fun s' => (exec op s').2) ∧
    ∀ s', step s = some s' → (exec op s').1 = (exec op s).1

variable (ready : Op → σ → Bool)

/-- One operation of whoever's turn it is, unless it has to wait. -/
def readyTurn (who : Turn) (r : Pair Op Answer α β σ) : Pair Op Answer α β σ :=
  match who, r.first, r.second with
  | .first, call op _, _ => if ready op r.state then turn exec who r else r
  | .second, _, call op _ => if ready op r.state then turn exec who r else r
  | _, _, _ => r

def readyInterleave (turns : List Turn) (r : Pair Op Answer α β σ) : Pair Op Answer α β σ :=
  turns.foldl (fun r who => readyTurn exec ready who r) r

end

/-- The program is in a critical section, which it leaves with its last
operation. -/
def Critical (leaves : Op → Prop) : Program Op Answer α → Prop
  | done _ => False
  | call op next => leaves op ∧ (∀ answer, IsDone (next answer)) ∨ ¬ leaves op ∧ ∀ answer, Critical leaves (next answer)

/-- The result of a program that is done. -/
def result : Program Op Answer α → Option α
  | done value => some value
  | call _ _ => none

/-- Whatever the answers, the program ends with such a result. -/
def Yields (good : α → Prop) : Program Op Answer α → Prop
  | done result => good result
  | call _ next => ∀ answer, Yields good (next answer)

variable {exec : (op : Op) → σ → Answer op × σ} {ready : Op → σ → Bool} {p : Program Op Answer α}

theorem result_eq_some {value : α} : result p = some value ↔ p = done value := by
  cases p with
  | done value' => simp [result]
  | call op next => simp [result]

theorem Only.mono {kind wider : Op → Prop} (only : Only kind p) (within : ∀ op, kind op → wider op) : Only wider p := by
  induction p with
  | done result => trivial
  | call op next ih => exact ⟨within op only.1, fun answer => ih answer (only.2 answer)⟩

theorem critical_bind {leaves : Op → Prop} {f : α → Program Op Answer β}
    (only : Only (fun op => ¬ leaves op) p) (inner : ∀ result, Critical leaves (f result)) :
    Critical leaves (p >>= f) := by
  induction p with
  | done result => exact inner result
  | call op next ih => exact .inr ⟨only.1, fun answer => ih answer (only.2 answer)⟩

/-! ### Amid a program -/

section
variable {step : σ → Option σ} {p : Program Op Answer α} {s : σ}

theorem Makes.amid {made : List Op} {left : Program Op Answer α} {s' t : σ} (makes : Makes exec p made s left s')
    (steps : step s' = some t) : Amid exec step p s (Program.run exec left t) := by
  induction makes with
  | refl => exact .now steps
  | step _ ih => exact .later (ih steps)

/-- The step may come last. -/
theorem Amid.last {t : σ} (steps : step (run exec p s).2 = some t) : Amid exec step p s ((run exec p s).1, t) := by
  induction p generalizing s with
  | done result => exact .now steps
  | call op next ih => exact .later (ih _ steps)

/-- Amid two programs, one after the other, is amid one of them. -/
theorem Amid.of_bind {f : α → Program Op Answer β} {out : β × σ} (amid : Amid exec step (p >>= f) s out) :
    (∃ middle, Amid exec step p s middle ∧ out = run exec (f middle.1) middle.2) ∨
      Amid exec step (f (run exec p s).1) (run exec p s).2 out := by
  induction p generalizing s with
  | done result => exact .inr amid
  | call op next ih =>
    generalize whole : (call op next >>= f) = program at amid
    cases amid with
    | @now _ _ s' steps =>
      subst whole
      exact .inl ⟨run exec (call op next) s', .now steps, run_bind exec (call op next) f s'⟩
    | later rest =>
      cases whole
      rcases ih _ rest with ⟨middle, inside, after⟩ | after
      · exact .inl ⟨middle, .later inside, after⟩
      · exact .inr after

/-- A step that is indifferent to a program may as well come after it. -/
theorem Amid.of_only {kind : Op → Prop} {out : α × σ} (amid : Amid exec step p s out) (only : Only kind p)
    (indifferent : ∀ op, kind op → Indifferent exec step op) :
    out.1 = (run exec p s).1 ∧ step (run exec p s).2 = some out.2 := by
  have after : ∀ {p : Program Op Answer α} {s s' : σ}, Only kind p → step s = some s' →
      (run exec p s').1 = (run exec p s).1 ∧ step (run exec p s).2 = some (run exec p s').2 := by
    intro p
    induction p with
    | done result =>
      intro s s' _ steps
      exact ⟨rfl, steps⟩
    | call op next ih =>
      intro s s' only steps
      obtain ⟨moved, same⟩ := indifferent op only.1 s
      rw [steps, Option.map_some] at moved
      simp only [run, same s' steps]
      exact ih _ (only.2 _) moved
  induction amid with
  | now steps => exact after only steps
  | later _ ih => exact ih (only.2 _)

end

/-! ### Turns -/

section
variable {r : Pair Op Answer α β σ}

theorem readyInterleave_cons (who : Turn) (turns : List Turn) :
    readyInterleave exec ready (who :: turns) r = readyInterleave exec ready turns (readyTurn exec ready who r) := rfl

theorem readyInterleave_append (turns later : List Turn) : readyInterleave exec ready (turns ++ later) r =
      readyInterleave exec ready later (readyInterleave exec ready turns r) :=
  List.foldl_append

variable {result : α}

theorem readyTurn_first_done (ended : r.first = done result) : readyTurn exec ready .first r = r := by
  unfold readyTurn
  rw [ended]

theorem readyTurn_first_call {op : Op} {next : Answer op → Program Op Answer α} (left : r.first = call op next) :
    readyTurn exec ready .first r = if ready op r.state then turn exec .first r else r := by
  unfold readyTurn
  rw [left]

theorem readyTurn_second_call {op : Op} {next : Answer op → Program Op Answer β} (left : r.second = call op next) :
    readyTurn exec ready .second r = if ready op r.state then turn exec .second r else r := by
  unfold readyTurn
  rw [left]

theorem readyTurn_second_done {result : β} (ended : r.second = done result) : readyTurn exec ready .second r = r := by
  unfold readyTurn
  rw [ended]

/-- A turn makes the next operation, or nothing. -/
theorem readyTurn_first_cases : readyTurn exec ready .first r = r ∨ ∃ op next, r.first = call op next ∧
    readyTurn exec ready .first r =
      ⟨next (exec op r.state).1, r.second, r.firstMade ++ [op], r.secondMade, (exec op r.state).2⟩ := by
  cases left : r.first with
  | done result => exact .inl (readyTurn_first_done left)
  | call op next =>
    rw [readyTurn_first_call left]
    split
    · exact .inr ⟨op, next, rfl, by simp only [turn, left]⟩
    · exact .inl rfl

theorem readyTurn_second_cases : readyTurn exec ready .second r = r ∨ ∃ op next, r.second = call op next ∧
    readyTurn exec ready .second r =
      ⟨r.first, next (exec op r.state).1, r.firstMade, r.secondMade ++ [op], (exec op r.state).2⟩ := by
  cases left : r.second with
  | done result => exact .inl (readyTurn_second_done left)
  | call op next =>
    rw [readyTurn_second_call left]
    split
    · exact .inr ⟨op, next, rfl, by simp only [turn, left]⟩
    · exact .inl rfl

/-- What is left of the second program does what all of it would have done. -/
theorem run_readyTurn_second :
    run exec (readyTurn exec ready .second r).second (readyTurn exec ready .second r).state =
      run exec r.second r.state := by
  rcases readyTurn_second_cases with same | ⟨_, _, left, moved⟩
  · rw [same]
  · rw [moved, left]
    rfl

theorem readyTurn_second_first : (readyTurn exec ready .second r).first = r.first := by
  rcases readyTurn_second_cases with same | ⟨_, _, _, moved⟩
  · rw [same]
  · rw [moved]

variable (exec ready) in
/-- Once the first program is done, the second is on its own. -/
theorem readyInterleave_first_done (ended : r.first = done result) (turns : List Turn) :
    (readyInterleave exec ready turns r).first = done result ∧
      run exec (readyInterleave exec ready turns r).second (readyInterleave exec ready turns r).state =
        run exec r.second r.state := by
  induction turns generalizing r with
  | nil => exact ⟨ended, rfl⟩
  | cons who later ih =>
    rw [readyInterleave_cons]
    cases who with
    | first =>
      rw [readyTurn_first_done ended]
      exact ih ended
    | second =>
      obtain ⟨still, same⟩ := ih (readyTurn_second_first.trans ended)
      exact ⟨still, same.trans run_readyTurn_second⟩

variable (exec ready) in
/-- Once the second program is done, the first is on its own. -/
theorem readyInterleave_second_done {result : β} (ended : r.second = done result) (turns : List Turn) :
    (readyInterleave exec ready turns r).second = done result ∧
      run exec (readyInterleave exec ready turns r).first (readyInterleave exec ready turns r).state =
        run exec r.first r.state := by
  induction turns generalizing r with
  | nil => exact ⟨ended, rfl⟩
  | cons who later ih =>
    rw [readyInterleave_cons]
    cases who with
    | first =>
      rcases readyTurn_first_cases with same | ⟨_, _, left, moved⟩
      · rw [same]
        exact ih ended
      · rw [moved, left]
        exact ih ended
    | second =>
      rw [readyTurn_second_done ended]
      exact ih ended

variable (exec ready) in
theorem readyInterleave_yields {good : α → Prop} (yields : Yields good r.first) (turns : List Turn) :
    Yields good (readyInterleave exec ready turns r).first := by
  induction turns generalizing r with
  | nil => exact yields
  | cons who later ih =>
    rw [readyInterleave_cons]
    apply ih
    cases who with
    | second =>
      rw [readyTurn_second_first]
      exact yields
    | first =>
      rcases readyTurn_first_cases with same | ⟨_, _, left, moved⟩
      · rw [same]
        exact yields
      · rw [left] at yields
        rw [moved]
        exact yields _

/-- An operation that does not wait is made somewhere amid the other program. -/
theorem acts_amid {op : Op} {next : Answer op → Program Op Answer α} (left : r.first = call op next)
    (free : ∀ s, ready op s = true) {turns : List Turn} (ended : IsDone (readyInterleave exec ready turns r).first) :
    ∃ made s' r' later, Makes exec r.second made r.state r'.second s' ∧ r'.first = next (exec op s').1 ∧
      r'.state = (exec op s').2 ∧ readyInterleave exec ready turns r = readyInterleave exec ready later r' := by
  induction turns generalizing r with
  | nil =>
    have unfinished : IsDone r.first := ended
    rw [left] at unfinished
    exact unfinished.elim
  | cons who later ih =>
    cases who with
    | first =>
      refine ⟨[], r.state, turn exec .first r, later, ?_, ?_, ?_, ?_⟩
      · simp only [turn, left]
        exact .refl
      · simp only [turn, left]
      · simp only [turn, left]
      · rw [readyInterleave_cons, readyTurn_first_call left, if_pos (free _)]
    | second =>
      rw [readyInterleave_cons] at ended ⊢
      obtain ⟨made, s', r', later', makes, rest⟩ := ih (readyTurn_second_first.trans left) ended
      rcases readyTurn_second_cases with same | ⟨op', _, other, moved⟩
      · rw [same] at makes
        exact ⟨made, s', r', later', makes, rest⟩
      · rw [moved] at makes
        rw [other]
        exact ⟨op' :: made, s', r', later', .step makes, rest⟩

/-- An operation that waits for a critical section comes after it. -/
theorem waits_for_critical {leaves : Op → Prop} {held : σ → Prop} {op : Op} {next : Answer op → Program Op Answer α}
    (left : r.first = call op next) (waits : ∀ s, held s → ready op s = false)
    (keeps : ∀ op s, ¬ leaves op → held s → held (exec op s).2) (critical : Critical leaves r.second)
    (inside : held r.state) {turns : List Turn} (ended : IsDone (readyInterleave exec ready turns r).first) :
    ∃ r' later, r'.first = call op next ∧ IsDone r'.second ∧ run exec r'.second r'.state = run exec r.second r.state ∧
      readyInterleave exec ready turns r = readyInterleave exec ready later r' := by
  induction turns generalizing r with
  | nil =>
    have unfinished : IsDone r.first := ended
    rw [left] at unfinished
    exact unfinished.elim
  | cons who later ih =>
    rw [readyInterleave_cons] at ended ⊢
    cases who with
    | first =>
      rw [readyTurn_first_call left, waits _ inside] at ended ⊢
      exact ih left critical inside ended
    | second =>
      rcases readyTurn_second_cases with same | ⟨op', _, other, moved⟩
      · rw [same] at ended ⊢
        exact ih left critical inside ended
      · rw [moved] at ended ⊢
        rw [other] at critical ⊢
        rcases critical with ⟨-, last⟩ | ⟨stays, inner⟩
        · refine ⟨_, later, ?_, last _, rfl, rfl⟩
          exact left
        · refine ih ?_ (inner _) (keeps op' _ stays inside) ended
          exact left

variable (exec ready) in
/-- A program that never has to wait comes to its end. -/
theorem exists_second_done (free : Only (fun op => ∀ s, ready op s = true) r.second) :
    ∃ n, (readyInterleave exec ready (List.replicate n .second) r).first = r.first ∧
      (readyInterleave exec ready (List.replicate n .second) r).second = done (run exec r.second r.state).1 ∧
      (readyInterleave exec ready (List.replicate n .second) r).state = (run exec r.second r.state).2 := by
  obtain ⟨first, second, firstMade, secondMade, state⟩ := r
  induction second generalizing secondMade state with
  | done result => exact ⟨0, rfl, rfl, rfl⟩
  | call op next ih =>
    obtain ⟨n, same, ended, reached⟩ := ih (exec op state).1 (secondMade ++ [op]) (exec op state).2 (free.2 _)
    refine ⟨n + 1, ?_⟩
    rw [List.replicate_succ, readyInterleave_cons, readyTurn_second_call rfl, if_pos (free.1 _)]
    exact ⟨same, ended, reached⟩

variable (exec ready) in
/-- What a program that has one operation left does amid another that never has to
wait, it does in some interleaving. -/
theorem exists_amid {step : σ → Option σ} {op : Op} {next : Answer op → Program Op Answer α}
    (left : r.first = call op next) (go : ∀ s, ready op s = true)
    (makes : ∀ s s', step s = some s' → next (exec op s).1 = done result ∧ (exec op s).2 = s')
    (free : Only (fun op => ∀ s, ready op s = true) r.second) {out : β × σ}
    (amid : Amid exec step r.second r.state out) :
    ∃ turns, (readyInterleave exec ready turns r).first = done result ∧
      (readyInterleave exec ready turns r).second = done out.1 ∧
      (readyInterleave exec ready turns r).state = out.2 := by
  obtain ⟨_, _, firstMade, secondMade, _⟩ := r
  subst left
  dsimp only at amid free
  induction amid generalizing secondMade with
  | @now p s s' steps =>
    obtain ⟨ends, rfl⟩ := makes s s' steps
    obtain ⟨n, same, ended⟩ :=
      exists_second_done exec ready (r := turn exec .first ⟨call op next, p, firstMade, secondMade, s⟩) free
    refine ⟨.first :: List.replicate n .second, ?_⟩
    rw [readyInterleave_cons, readyTurn_first_call rfl, if_pos (go _)]
    exact ⟨same.trans ends, ended⟩
  | @later op' next' s out rest ih =>
    obtain ⟨turns, ended⟩ := ih (secondMade ++ [op']) (free.2 _)
    refine ⟨.second :: turns, ?_⟩
    rw [readyInterleave_cons, readyTurn_second_call rfl, if_pos (free.1 _)]
    exact ended

end

end CipherLake.Lib.Program
