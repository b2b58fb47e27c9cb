/-!
Computations that depend on their surroundings and on time.

* `Program Query Answer α`: a value, a question whose answer decides how to go on, or a wait.
  Nothing is assumed about what happens between two questions, so several programs can be advanced
  in turns.
* `Program.advance`: answers questions from a state up to the next wait. A wait of no time is passed
  over at once.
* `Program.run`: answers all questions from a state that nothing else changes, and tells how long
  all the waits took.
-/

namespace Federation

/-- A computation that asks questions and waits. -/
inductive Program (Query : Type) (Answer : Query → Type) (α : Type) where
  | done (a : α)
  | ask (q : Query) (next : Answer q → Program Query Answer α)
  | wait (ms : Nat) (next : Program Query Answer α)

/-- A program that has stopped: it is finished, or goes on after some milliseconds. -/
inductive Pause (Query : Type) (Answer : Query → Type) (α : Type) where
  | finished (a : α)
  | waiting (ms : Nat) (rest : Program Query Answer α)

namespace Program

variable {Query : Type} {Answer : Query → Type} {α β σ : Type}

/-! ### Sequencing -/

/-- Goes on with `f` where `p` is finished. -/
def bind (p : Program Query Answer α) (f : α → Program Query Answer β) : Program Query Answer β :=
  match p with
  | done a => f a
  | ask q next => ask q fun a => (next a).bind f
  | wait ms next => wait ms (next.bind f)

instance : Monad (Program Query Answer) where
  pure := done
  bind := bind

theorem bind_done (p : Program Query Answer α) : p.bind done = p := by
  induction p with
  | done a => rfl
  | ask q next ih => simp [bind, ih]
  | wait ms next ih => simp [bind, ih]

theorem bind_assoc {γ : Type} (p : Program Query Answer α) (f : α → Program Query Answer β)
    (g : β → Program Query Answer γ) : (p.bind f).bind g = p.bind fun a => (f a).bind g := by
  induction p with
  | done a => rfl
  | ask q next ih => simp [bind, ih]
  | wait ms next ih => simp [bind, ih]

instance : LawfulMonad (Program Query Answer) :=
  .mk' _ bind_done (fun _ _ => rfl) bind_assoc

/-! ### Running -/

/-- Answers questions up to the next wait. -/
def advance (answer : (q : Query) → σ → Answer q × σ) :
    Program Query Answer α → σ → Pause Query Answer α × σ
  | done a, s => (.finished a, s)
  | ask q next, s => (next (answer q s).1).advance answer (answer q s).2
  | wait 0 next, s => next.advance answer s
  | wait (ms + 1) next, s => (.waiting (ms + 1) next, s)

/-- Answers all questions. The result is the value, the milliseconds of all waits and the last
state. -/
def run (answer : (q : Query) → σ → Answer q × σ) : Program Query Answer α → σ → α × Nat × σ
  | done a, s => (a, 0, s)
  | ask q next, s => (next (answer q s).1).run answer (answer q s).2
  | wait ms next, s =>
    let (a, rest, s) := next.run answer s
    (a, ms + rest, s)

end Program

end Federation
