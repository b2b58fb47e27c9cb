import Federation.Proofs.Simulation.Course

/-!
What happens to a session whose rounds run by a timetable.

* `Happening`: a move other than a step of a round, or the passing of time, in which scheduled rounds
  run.
* `Session.happen`, `Session.history`: the session after a happening, and after a history of them.
  `Session.history_induction`: what every happening keeps true.
* `Act`, `Session.act`, `Session.acts`: the same with rounds that are called for, and with the end of
  discovery. `Session.acts_induction`: what every act keeps true.
-/

namespace Federation

/-- Something that happens to a session. -/
inductive Happening where
  | move (m : Move)
  | sleep (ms : ℕ)

/-- Something that happens to a session, a round that is called for, or the end of discovery. -/
inductive Act where
  | happen (x : Happening)
  | update (cluster : String)
  | shutDown

namespace Session

/-- The session after a move. -/
def move (s : Session) (m : Move) : Session := ((⟨s, fun _ => none⟩ : Course).step m).session

/-- The session after something has happened. -/
def happen (s : Session) : Happening → Session
  | .move m => s.move m
  | .sleep ms => s.sleep ms

/-- The session after a history, of which the first part comes first. -/
def history (s : Session) (l : List Happening) : Session := l.foldl happen s

/-- What every happening keeps is true after every history. -/
theorem history_induction {P : Session → Prop} {s : Session} (l : List Happening) (hs : P s)
    (hP : ∀ s x, P s → P (s.happen x)) : P (s.history l) := by
  induction l generalizing s with
  | nil => exact hs
  | cons x l ih => exact ih (hP s x hs)

/-- The session after an act. -/
def act (s : Session) : Act → Session
  | .happen x => s.happen x
  | .update cluster => (s.update cluster).2
  | .shutDown => s.shutDown

/-- The session after several acts, the first one first. -/
def acts (s : Session) (l : List Act) : Session := l.foldl act s

/-- What every act of a kind keeps is true after all of them. -/
theorem acts_induction {P : Session → Prop} {s : Session} (l : List Act) (hs : P s)
    (hP : ∀ s, ∀ a ∈ l, P s → P (s.act a)) : P (s.acts l) := by
  induction l generalizing s with
  | nil => exact hs
  | cons a l ih =>
      exact ih (hP s a List.mem_cons_self hs) fun s b hb => hP s b (List.mem_cons_of_mem a hb)

/-- A change of the router changes nothing else of the session. -/
lemma move_router (s : Session) (call : RouterCall) : s.move (.router call) =
    { s with world := { s.world with router := (s.world.router.call call).2 } } := by
  cases call <;> rfl

end Session

end Federation
