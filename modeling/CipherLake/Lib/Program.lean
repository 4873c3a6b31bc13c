import Mathlib.Init

/-! Programs that work on a shared state by atomic operations, alone or two of
them in turns. If no operation of one conflicts with what the other, still
unfinished, has done so far, the two leave the state as if they had run one
after the other, in the order in which they finish. -/
namespace CipherLake.Lib

/-- A program over operations, each with its own type of answers. -/
inductive Program (Op : Type) (Answer : Op → Type) (α : Type) where
  | done (result : α)
  | call (op : Op) (next : Answer op → Program Op Answer α)

namespace Program

variable {Op σ α β : Type} {Answer : Op → Type}

protected def bind : Program Op Answer α → (α → Program Op Answer β) → Program Op Answer β
  | done result, f => f result
  | call op next, f => call op fun answer => (next answer).bind f

instance : Monad (Program Op Answer) where
  pure := done
  bind := Program.bind

/-- The program that makes one operation and returns its answer. -/
def perform (op : Op) : Program Op Answer (Answer op) := call op done

/-- One program after the other, for each item of a list. -/
def forEach (items : List α) (body : α → Program Op Answer Unit) : Program Op Answer Unit :=
  match items with
  | [] => done ()
  | x :: rest => (body x).bind fun _ => forEach rest body

section Run

variable (exec : (op : Op) → σ → Answer op × σ)

/-- A program on its own. -/
def run : Program Op Answer α → σ → α × σ
  | done result, s => (result, s)
  | call op next, s => run (next (exec op s).1) (exec op s).2

@[simp] theorem run_pure (result : α) (s : σ) : run exec (pure result : Program Op Answer α) s = (result, s) := rfl

@[simp] theorem run_perform (op : Op) (s : σ) : run exec (perform op : Program Op Answer _) s = exec op s := rfl

@[simp] theorem run_bind (p : Program Op Answer α) (f : α → Program Op Answer β) (s : σ) :
    run exec (p >>= f) s = run exec (f (run exec p s).1) (run exec p s).2 := by
  induction p generalizing s with
  | done result => rfl
  | call op next ih => exact ih _ _

@[simp] theorem run_forEach_cons (x : α) (rest : List α) (body : α → Program Op Answer Unit) (s : σ) :
    run exec (forEach (x :: rest) body) s = run exec (forEach rest body) (run exec (body x) s).2 :=
  run_bind exec (body x) (fun _ => forEach rest body) s

/-- Every operation a program can make is of one kind. -/
def Only (kind : Op → Prop) : Program Op Answer α → Prop
  | done _ => True
  | call op next => kind op ∧ ∀ answer, Only kind (next answer)

variable {exec} {kind : Op → Prop}

theorem only_pure (result : α) : Only kind (pure result : Program Op Answer α) := trivial

theorem only_perform {op : Op} (isKind : kind op) : Only kind (perform op : Program Op Answer _) :=
  ⟨isKind, fun _ => trivial⟩

theorem only_bind {p : Program Op Answer α} {f : α → Program Op Answer β} (first : Only kind p)
    (later : ∀ result, Only kind (f result)) : Only kind (p >>= f) := by
  induction p with
  | done result => exact later result
  | call op next ih => exact ⟨first.1, fun answer => ih answer (first.2 answer)⟩

/-- What every operation of a kind preserves, a program of only those preserves. -/
theorem Only.preserves {invariant : σ → Prop} {p : Program Op Answer α} (only : Only kind p)
    (step : ∀ op, kind op → ∀ s, invariant s → invariant (exec op s).2) (s : σ) (holds : invariant s) :
    invariant (run exec p s).2 := by
  induction p generalizing s with
  | done result => exact holds
  | call op next ih => exact ih _ (only.2 _) _ (step op only.1 s holds)

end Run

/-! ### Taking turns -/

/-- Two programs under way: what is left of each, the operations each has made
so far, and the state. -/
structure Pair (Op : Type) (Answer : Op → Type) (α β σ : Type) where
  first : Program Op Answer α
  second : Program Op Answer β
  (firstMade secondMade : List Op)
  state : σ

section Turns

variable (exec : (op : Op) → σ → Answer op × σ)

/-- Who makes the next operation. -/
inductive Turn where
  | first
  | second
  deriving DecidableEq, Repr

/-- One operation of whoever's turn it is; a program that is done makes none. -/
def turn : Turn → Pair Op Answer α β σ → Pair Op Answer α β σ
  | .first, r =>
    match r.first with
    | done _ => r
    | call op next =>
      { r with first := next (exec op r.state).1, firstMade := r.firstMade ++ [op], state := (exec op r.state).2 }
  | .second, r =>
    match r.second with
    | done _ => r
    | call op next =>
      { r with second := next (exec op r.state).1, secondMade := r.secondMade ++ [op], state := (exec op r.state).2 }

def interleave (turns : List Turn) (r : Pair Op Answer α β σ) : Pair Op Answer α β σ :=
  turns.foldl (fun r who => turn exec who r) r

/-- Nothing made yet. -/
def start (p : Program Op Answer α) (q : Program Op Answer β) (s : σ) : Pair Op Answer α β σ := ⟨p, q, [], [], s⟩

def IsDone : Program Op Answer α → Prop
  | done _ => True
  | call _ _ => False

/-- The next operation of a program conflicts with none of those made. -/
def NextApart (conflict : Op → Op → Prop) (p : Program Op Answer α) (made : List Op) : Prop :=
  match p with
  | done _ => True
  | call op _ => ∀ other ∈ made, ¬ conflict op other

/-- A turn keeps clear of what the other program, if it is not done, has made. -/
def Apart (conflict : Op → Op → Prop) : Turn → Pair Op Answer α β σ → Prop
  | .first, r => IsDone r.second ∨ NextApart conflict r.first r.secondMade
  | .second, r => IsDone r.first ∨ NextApart conflict r.second r.firstMade

/-- Every turn keeps clear of the other program. -/
def Isolated (conflict : Op → Op → Prop) : List Turn → Pair Op Answer α β σ → Prop
  | [], _ => True
  | who :: rest, r => Apart conflict who r ∧ Isolated conflict rest (turn exec who r)

instance (p : Program Op Answer α) : Decidable (IsDone p) :=
  match p with
  | done _ => isTrue trivial
  | call _ _ => isFalse id

section Decide

variable (conflict : Op → Op → Prop) [DecidableRel conflict]

instance decidableNextApart (p : Program Op Answer α) (made : List Op) : Decidable (NextApart conflict p made) :=
  match p with
  | done _ => isTrue trivial
  | call op _ => inferInstanceAs (Decidable (∀ other ∈ made, ¬ conflict op other))

instance decidableApart (who : Turn) (r : Pair Op Answer α β σ) : Decidable (Apart conflict who r) :=
  match who with
  | .first => inferInstanceAs (Decidable (_ ∨ _))
  | .second => inferInstanceAs (Decidable (_ ∨ _))

instance decidableIsolated : (turns : List Turn) → (r : Pair Op Answer α β σ) →
    Decidable (Isolated exec conflict turns r)
  | [], _ => isTrue trivial
  | who :: rest, r =>
    have := decidableIsolated rest (turn exec who r)
    inferInstanceAs (Decidable (_ ∧ _))

end Decide

/-- Two operations have the same answers and the same effect in either order. -/
structure Commutes (a b : Op) : Prop where
  left : ∀ s, (exec a (exec b s).2).1 = (exec a s).1
  right : ∀ s, (exec b (exec a s).2).1 = (exec b s).1
  state : ∀ s, (exec b (exec a s).2).2 = (exec a (exec b s).2).2

/-- A program makes the listed operations and is then what is left of it. -/
inductive Makes : Program Op Answer α → List Op → σ → Program Op Answer α → σ → Prop where
  | refl {p : Program Op Answer α} {s : σ} : Makes p [] s p s
  | step {op : Op} {next : Answer op → Program Op Answer α} {made : List Op} {s s' : σ}
      {p : Program Op Answer α} : Makes (next (exec op s).1) made (exec op s).2 p s' →
      Makes (call op next) (op :: made) s p s'

variable {exec} {made others : List Op} {s' : σ} {p' : Program Op Answer α} {p : Program Op Answer α}

theorem Makes.run {s : σ} {result : α} (makes : Makes exec p made s (done result) s') :
    Program.run exec p s = (result, s') := by
  generalize ended : done result = left at makes
  induction makes with
  | refl =>
    subst ended
    rfl
  | step _ ih => exact ih ended

theorem Makes.snoc {s : σ} {op : Op} {next : Answer op → Program Op Answer α}
    (makes : Makes exec p made s (call op next) s') :
    Makes exec p (made ++ [op]) s (next (exec op s').1) (exec op s').2 := by
  generalize left : call op next = q at makes
  induction makes with
  | refl =>
    subst left
    exact .step .refl
  | step _ ih => exact .step (ih left)

/-- An operation that commutes with all of them may as well be made first. -/
theorem Makes.past {s : σ} {op : Op} (makes : Makes exec p made s p' s')
    (commutes : ∀ other ∈ made, Commutes exec op other) :
    Makes exec p made (exec op s).2 p' (exec op s').2 ∧ (exec op s').1 = (exec op s).1 := by
  induction makes with
  | refl => exact ⟨.refl, rfl⟩
  | @step other next made s s' p _ ih =>
    obtain ⟨here, later⟩ := List.forall_mem_cons.mp commutes
    obtain ⟨moved, same⟩ := ih later
    refine ⟨.step ?_, same.trans (here.left s)⟩
    rw [here.right s, here.state s]
    exact moved

/-- The state is what one program and then the other make of it. -/
def InOrder (exec : (op : Op) → σ → Answer op × σ) (p p' : Program Op Answer α) (q q' : Program Op Answer β)
    (made others : List Op) (s s' : σ) : Prop :=
  ∃ middle, Makes exec p made s p' middle ∧ Makes exec q others middle q' s'

/-- The program that comes second makes another operation. -/
theorem InOrder.later {p : Program Op Answer α} {q : Program Op Answer β} {s : σ} {op : Op}
    {next : Answer op → Program Op Answer β} (ordered : InOrder exec p p' q (call op next) made others s s') :
    InOrder exec p p' q (next (exec op s').1) made (others ++ [op]) s (exec op s').2 := by
  obtain ⟨middle, first, second⟩ := ordered
  exact ⟨middle, first, second.snoc⟩

/-- The program that comes first makes another operation, clear of the second. -/
theorem InOrder.earlier {p : Program Op Answer α} {q q' : Program Op Answer β} {s : σ} {op : Op}
    {next : Answer op → Program Op Answer α} (ordered : InOrder exec p (call op next) q q' made others s s')
    (commutes : ∀ other ∈ others, Commutes exec op other) :
    InOrder exec p (next (exec op s').1) q q' (made ++ [op]) others s (exec op s').2 := by
  obtain ⟨_, first, second⟩ := ordered
  obtain ⟨moved, same⟩ := second.past commutes
  rw [same]
  exact ⟨_, first.snoc, moved⟩

variable {p : Program Op Answer α} {q : Program Op Answer β} {s : σ} {r : Pair Op Answer α β σ}
  {conflict : Op → Op → Prop}

/-- Two programs under way that have kept clear of each other: in either order
while neither is done, and afterwards with the one that is done first. -/
inductive Serial (exec : (op : Op) → σ → Answer op × σ) (p : Program Op Answer α) (q : Program Op Answer β)
    (s : σ) (r : Pair Op Answer α β σ) : Prop where
  | underWay (forth : InOrder exec p r.first q r.second r.firstMade r.secondMade s r.state)
      (back : InOrder exec q r.second p r.first r.secondMade r.firstMade s r.state)
  | firstDone (ended : IsDone r.first)
      (forth : InOrder exec p r.first q r.second r.firstMade r.secondMade s r.state)
  | secondDone (ended : IsDone r.second)
      (back : InOrder exec q r.second p r.first r.secondMade r.firstMade s r.state)

theorem turn_serial (commutes : ∀ a b, ¬ conflict a b → Commutes exec a b) (serial : Serial exec p q s r)
    (who : Turn) (apart : Apart conflict who r) : Serial exec p q s (turn exec who r) := by
  obtain ⟨first, second, firstMade, secondMade, state⟩ := r
  cases who with
  | first =>
    cases first with
    | done result => exact serial
    | call op next =>
      cases serial with
      | underWay forth back =>
        rcases apart with ended | clear
        · exact .secondDone ended back.later
        · exact .underWay (forth.earlier fun other made => commutes op other (clear other made)) back.later
      | firstDone ended _ => exact ended.elim
      | secondDone ended back => exact .secondDone ended back.later
  | second =>
    cases second with
    | done result => exact serial
    | call op next =>
      cases serial with
      | underWay forth back =>
        rcases apart with ended | clear
        · exact .firstDone ended forth.later
        · exact .underWay forth.later (back.earlier fun other made => commutes op other (clear other made))
      | firstDone ended forth => exact .firstDone ended forth.later
      | secondDone ended _ => exact ended.elim

theorem interleave_serial (commutes : ∀ a b, ¬ conflict a b → Commutes exec a b) (turns : List Turn)
    (serial : Serial exec p q s r) (isolated : Isolated exec conflict turns r) :
    Serial exec p q s (interleave exec turns r) := by
  induction turns generalizing r with
  | nil => exact serial
  | cons who rest ih => exact ih (turn_serial commutes serial who isolated.1) isolated.2

theorem InOrder.run {q' : Program Op Answer β} (ordered : InOrder exec p p' q q' made others s s') (ended : IsDone p')
    (ended' : IsDone q') : s' = (Program.run exec q (Program.run exec p s).2).2 := by
  obtain ⟨_, first, second⟩ := ordered
  cases p' with
  | call op next => exact ended.elim
  | done result =>
    cases q' with
    | call op next => exact ended'.elim
    | done result' => rw [first.run, second.run]

/-- Two programs that keep clear of each other leave the state that one of the
two orders leaves. -/
theorem isolated_serializable (commutes : ∀ a b, ¬ conflict a b → Commutes exec a b) (turns : List Turn)
    (isolated : Isolated exec conflict turns (start p q s))
    (firstDone : IsDone (interleave exec turns (start p q s)).first)
    (secondDone : IsDone (interleave exec turns (start p q s)).second) :
    (interleave exec turns (start p q s)).state = (Program.run exec q (Program.run exec p s).2).2 ∨
      (interleave exec turns (start p q s)).state = (Program.run exec p (Program.run exec q s).2).2 := by
  have begun : Serial exec p q s (start p q s) := .underWay ⟨s, .refl, .refl⟩ ⟨s, .refl, .refl⟩
  cases interleave_serial commutes turns begun isolated with
  | underWay forth _ => exact .inl (forth.run firstDone secondDone)
  | firstDone _ forth => exact .inl (forth.run firstDone secondDone)
  | secondDone _ back => exact .inr (back.run secondDone firstDone)

end Turns
end Program
end CipherLake.Lib
