import CipherLake.Lib.Waiting

/-! Two programs in turns where nothing waits. How far one has come when the other
makes an operation is the number of its turns before that. Operations that commute
with a program do not change how far it comes or what it finds. -/
namespace CipherLake.Lib.Program

variable {Op σ α β : Type} {Answer : Op → Type}

/-- What is left of a program after some of its operations, and the state then. -/
def advance (exec : (op : Op) → σ → Answer op × σ) : Nat → Program Op Answer α → σ → Program Op Answer α × σ
  | 0, p, s => (p, s)
  | _ + 1, done result, s => (done result, s)
  | n + 1, call op next, s => advance exec n (next (exec op s).1) (exec op s).2

/-- How many turns of the second come before the one of the first after its first
`n`. -/
def preceding : Nat → List Turn → Nat
  | _, [] => 0
  | 0, .first :: _ => 0
  | n + 1, .first :: rest => preceding n rest
  | n, .second :: rest => preceding n rest + 1

/-- Every operation is of the kind, but on the way to such a result. -/
def OnlyUnless (kind : Op → Prop) (good : α → Prop) : Program Op Answer α → Prop
  | done _ => True
  | call op next => (kind op ∨ ∀ answer, Yields good (next answer)) ∧ ∀ answer, OnlyUnless kind good (next answer)

variable {exec : (op : Op) → σ → Answer op × σ} {p : Program Op Answer α} {s : σ} {r : Pair Op Answer α β σ}

theorem preceding_replicate (n k : Nat) (turns : List Turn) :
    preceding n (List.replicate k .second ++ turns) = k + preceding n turns := by
  induction k with
  | zero => simp
  | succ k ih =>
    rw [List.replicate_succ, List.cons_append, preceding, ih]
    omega

variable {kind : Op → Prop}

theorem onlyUnless_after {good : β → Prop} {op : Op} {f : Answer op → Program Op Answer β}
    (isKind : kind op) (later : ∀ answer, OnlyUnless kind good (f answer)) : OnlyUnless kind good (perform op >>= f) :=
  ⟨.inl isKind, later⟩

/-! ### Advancing -/

theorem advance_done (exec : (op : Op) → σ → Answer op × σ) (n : Nat) (result : α) (s : σ) :
    advance exec n (done result : Program Op Answer α) s = (done result, s) := by
  cases n with
  | zero => rfl
  | succ n => rfl

theorem advance_add (exec : (op : Op) → σ → Answer op × σ) (n m : Nat) (p : Program Op Answer α) (s : σ) :
    advance exec (n + m) p s = advance exec m (advance exec n p s).1 (advance exec n p s).2 := by
  induction n generalizing p s with
  | zero => rw [Nat.zero_add, advance]
  | succ n ih =>
    rw [Nat.succ_add]
    cases p with
    | done result => simp only [advance, advance_done]
    | call op next => exact ih _ _

/-- What commutes with all of a program's operations may be done before or after
any number of them. -/
theorem advance_past {op : Op} (only : Only (fun other => Commutes exec op other) p) (n : Nat) :
    advance exec n p (exec op s).2 = ((advance exec n p s).1, (exec op (advance exec n p s).2).2) ∧
      (exec op (advance exec n p s).2).1 = (exec op s).1 := by
  induction n generalizing p s with
  | zero => exact ⟨rfl, rfl⟩
  | succ n ih =>
    cases p with
    | done result => exact ⟨rfl, rfl⟩
    | call other next =>
      obtain ⟨here, later⟩ := only
      obtain ⟨moved, same⟩ := @ih _ (exec other s).2 (later (exec other s).1)
      simp only [advance]
      rw [here.right s, here.state s]
      exact ⟨moved, same.trans (here.left s)⟩

/-- What every operation of a kind preserves, any part of a program of only those
preserves. -/
theorem Only.advance {invariant : σ → Prop} (only : Only kind p)
    (step : ∀ op, kind op → ∀ s, invariant s → invariant (exec op s).2) (n : Nat) (holds : invariant s) :
    Only kind (Program.advance exec n p s).1 ∧ invariant (Program.advance exec n p s).2 := by
  induction n generalizing p s with
  | zero => exact ⟨only, holds⟩
  | succ n ih =>
    cases p with
    | done result => exact ⟨only, holds⟩
    | call op next => exact ih (only.2 _) (step op only.1 s holds)

/-! ### Turns -/

theorem interleave_cons (who : Turn) (turns : List Turn) :
    interleave exec (who :: turns) r = interleave exec turns (turn exec who r) := rfl

theorem readyInterleave_always (turns : List Turn) :
    readyInterleave exec (fun _ _ => true) turns r = interleave exec turns r := by
  induction turns generalizing r with
  | nil => rfl
  | cons who rest ih =>
    rw [readyInterleave_cons, interleave_cons, ih]
    congr 1
    obtain ⟨first, second, -, -, -⟩ := r
    cases who with
    | first => cases first <;> rfl
    | second => cases second <;> rfl

variable (exec) in
/-- Once the first program is done, the second is on its own. -/
theorem interleave_first_done {result : α} (ended : r.first = done result) (turns : List Turn) :
    (interleave exec turns r).first = done result ∧
      run exec (interleave exec turns r).second (interleave exec turns r).state = run exec r.second r.state := by
  have alone := readyInterleave_first_done exec (fun _ _ => true) ended turns
  rwa [readyInterleave_always] at alone

variable (exec) in
theorem interleave_yields {good : α → Prop} (yields : Yields good r.first) (turns : List Turn) :
    Yields good (interleave exec turns r).first := by
  have ends := readyInterleave_yields exec (fun _ _ => true) yields turns
  rwa [readyInterleave_always] at ends

/-- The next operation of a program that comes to its end is made after some
operations of the other. -/
theorem acts_after {op : Op} {next : Answer op → Program Op Answer α} (left : r.first = call op next)
    {turns : List Turn} (ended : IsDone (interleave exec turns r).first) :
    ∃ n later r', turns = List.replicate n .second ++ .first :: later ∧
      r'.first = next (exec op (advance exec n r.second r.state).2).1 ∧
      r'.second = (advance exec n r.second r.state).1 ∧
      r'.state = (exec op (advance exec n r.second r.state).2).2 ∧
      interleave exec turns r = interleave exec later r' := by
  induction turns generalizing r with
  | nil =>
    have unfinished : IsDone r.first := ended
    rw [left] at unfinished
    exact unfinished.elim
  | cons who later ih =>
    cases who with
    | first =>
      refine ⟨0, later, turn exec .first r, rfl, ?_, ?_, ?_, rfl⟩
      · simp only [turn, left, advance]
      · simp only [turn, left, advance]
      · simp only [turn, left, advance]
    | second =>
      rw [interleave_cons] at ended ⊢
      have kept : (turn exec .second r).first = call op next := by
        rw [← left]
        cases other : r.second with
        | done result => simp only [turn, other]
        | call op' next' => simp only [turn, other]
      have moved (n : Nat) : advance exec n (turn exec .second r).second (turn exec .second r).state =
          advance exec (n + 1) r.second r.state := by
        cases other : r.second with
        | done result => simp only [turn, other, advance_done]
        | call op' next' => simp only [turn, other, advance]
      obtain ⟨n, later', r', split, first, second, state, final⟩ := ih kept ended
      rw [moved] at first second state
      exact ⟨n + 1, later', r', by rw [split, List.replicate_succ, List.cons_append], first, second, state, final⟩

/-- If only operations on the way to some results change the state, a program that
ends with another result has changed nothing for whoever it took turns with. -/
theorem interleave_unchanged {q : Program Op Answer β} {good : β → Prop}
    (only : OnlyUnless kind good q) (still : ∀ op, kind op → ∀ s, (exec op s).2 = s) (turns : List Turn) {result : β}
    (ended : (interleave exec turns (start p q s)).second = done result) (other : ¬ good result) :
    run exec (interleave exec turns (start p q s)).first (interleave exec turns (start p q s)).state =
      run exec p s := by
  have kept : ∀ (r : Pair Op Answer α β σ),
      run exec r.first r.state = run exec p s ∧ OnlyUnless kind good r.second ∨ Yields good r.second →
      run exec (interleave exec turns r).first (interleave exec turns r).state = run exec p s ∨
        Yields good (interleave exec turns r).second := by
    clear ended
    induction turns with
    | nil =>
      rintro r (⟨same, -⟩ | yields)
      · exact .inl same
      · exact .inr yields
    | cons who later ih =>
      intro r so
      rw [interleave_cons]
      apply ih
      obtain ⟨first, second, firstMade, secondMade, state⟩ := r
      cases who with
      | first =>
        cases first with
        | done value => exact so
        | call op next => exact so
      | second =>
        cases second with
        | done value => exact so
        | call op next =>
          rcases so with ⟨same, looks | changes, rest⟩ | yields
          · refine .inl ⟨?_, rest _⟩
            simp only [turn, still op looks]
            exact same
          · exact .inr (changes _)
          · exact .inr (yields _)
  rcases kept (start p q s) (.inl ⟨rfl, only⟩) with same | yields
  · exact same
  · rw [ended] at yields
    exact absurd yields other

end CipherLake.Lib.Program
