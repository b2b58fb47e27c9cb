import Federation.Proofs.Program.Ensures
import Federation.Proofs.Routing.RouterHistory
import Federation.Simulation.Session

/-!
Rounds among everything else that happens.

* `Progress`: a round that was begun. It may be under way or have ended with a result.
* `Course`: a session and the latest round of every cluster.
* `Move`: discovery is started, a cluster is joined, something happens on the network, somebody
  changes the router, a round begins, or a round takes its next step. The rounds of different
  clusters take their steps in any order, and everything else may happen between two of them.
* `Course.step`, `Course.after`, `Course.ofMoves`: the course after a move, after a history of
  moves, and after one that began when nothing was joined.
* `Course.exists_update`: a round of which nobody interrupts the steps is `World.update`.
-/

namespace Federation

/-- A round that was begun, and what is left of it. It is calm as long as nobody removes all routes.
-/
structure Progress where
  rest : Program Query Query.Answer (Except Fault Changes)
  calm : Bool

/-- The round has ended. -/
def Progress.ended (p : Progress) : Bool :=
  match p.rest with
  | .done _ => true
  | _ => false

/-- A round from its beginning. -/
def Progress.ofRound (cluster : String) : Progress := ⟨(Round.update cluster).run, true⟩

/-- A session and the rounds in it. -/
structure Course where
  session : Session
  rounds : String → Option Progress

/-- Something that happens. -/
inductive Move where
  | start
  | join (cluster : Cluster) (seed : String)
  | publish (v : View)
  | takeDown (a : Address)
  | bringUp (a : Address)
  | behave (conduct : Conduct) (exceptions : Assoc Address Conduct)
  | router (call : RouterCall)
  | begin (cluster : String)
  | advance (cluster : String)

namespace Course

/-- Nothing is joined yet. -/
def initial (config : Config) (router : Router) : Course :=
  ⟨⟨.idle config (.ofRouter router), 0, [], none⟩, fun _ => none⟩

/-- The world of the session. -/
def world (k : Course) : World := k.session.world

/-- Replaces the world of the session. -/
def inWorld (k : Course) (w : World) : Course := { k with session := { k.session with world := w } }

/-- Replaces the network around the process. -/
def onNetwork (k : Course) (net : Network) : Course := k.inWorld { k.world with network := net }

/-- No round of the cluster is under way. -/
def resting (k : Course) (cluster : String) : Bool := (k.rounds cluster).all Progress.ended

/-- Replaces the latest round of a cluster. -/
def setRound (k : Course) (cluster : String) (p : Progress) : Course :=
  { k with rounds := fun d => if d = cluster then some p else k.rounds d }

/-- All routes were removed, which no round that was begun can overlook. -/
def disturbed (k : Course) : Course :=
  { k with rounds := fun d => (k.rounds d).map fun p => { p with calm := false } }

/-- Somebody else changes the router. -/
def onRouter (k : Course) (call : RouterCall) : Course :=
  k.inWorld { k.world with router := (k.world.router.call call).2 }

/-- What happens to the course in one move. -/
def step (k : Course) : Move → Course
  | .start => { k with session := k.session.start.2 }
  | .join cluster seed => { k with session := (settle k.session (k.session.join cluster seed)).2 }
  | .publish v => k.onNetwork (k.world.network.publish v)
  | .takeDown a => k.onNetwork (k.world.network.takeDown a)
  | .bringUp a => k.onNetwork (k.world.network.bringUp a)
  | .behave conduct exceptions => k.onNetwork (k.world.network.setConduct conduct exceptions)
  | .router .clear => (k.onRouter .clear).disturbed
  | .router call => k.onRouter call
  | .begin cluster => if k.resting cluster then k.setRound cluster (.ofRound cluster) else k
  | .advance cluster =>
    match k.rounds cluster with
    | none => k
    | some p =>
      let (rest, w) := Program.step World.answer (p.rest, k.world)
      (k.inWorld w).setRound cluster { p with rest }

/-- The course after a history of moves, the first one first. -/
def after (k : Course) (moves : List Move) : Course := moves.foldl step k

/-- The course in which nothing but these moves has happened. -/
def ofMoves (config : Config) (router : Router) (moves : List Move) : Course :=
  (initial config router).after moves

@[simp] lemma after_cons (k : Course) (m : Move) (moves : List Move) :
    k.after (m :: moves) = (k.step m).after moves := rfl

lemma ofMoves_concat (config : Config) (router : Router) (moves : List Move) (m : Move) :
    ofMoves config router (moves ++ [m]) = (ofMoves config router moves).step m := by
  simp [ofMoves, after]

variable {k : Course} {c : String} {p : Progress}

@[simp] lemma rounds_setRound_self : (k.setRound c p).rounds c = some p := if_pos rfl

lemma rounds_setRound_of_ne {d : String} (hd : d ≠ c) : (k.setRound c p).rounds d = k.rounds d :=
  if_neg hd

lemma inWorld_inWorld (w w' : World) : (k.inWorld w).inWorld w' = k.inWorld w' := rfl

/-- Only the last of several changes of a round counts. -/
lemma setRound_inWorld_setRound (w : World) (p' : Progress) :
    ((k.setRound c p).inWorld w).setRound c p' = (k.inWorld w).setRound c p' := by
  simp only [setRound, inWorld, mk.injEq, true_and]
  funext d
  by_cases hd : d = c <;> simp [hd]

lemma step_advance (h : k.rounds c = some p) : k.step (.advance c) =
    (k.inWorld (Program.step World.answer (p.rest, k.world)).2).setRound c
      { p with rest := (Program.step World.answer (p.rest, k.world)).1 } := by
  rw [step, h]

/-- Steps that nobody interrupts are steps of the program. -/
lemma after_replicate_advance (n : ℕ) (h : k.rounds c = some p) :
    k.after (List.replicate n (.advance c)) =
      (k.inWorld ((Program.step World.answer)^[n] (p.rest, k.world)).2).setRound c
        { p with rest := ((Program.step World.answer)^[n] (p.rest, k.world)).1 } := by
  induction n generalizing k p with
  | zero =>
      have hsame : k.setRound c p = k := by
        simp only [setRound]
        congr
        funext d
        by_cases hd : d = c
        · rw [if_pos hd, hd, h]
        · rw [if_neg hd]
      exact hsame.symm
  | succ n ih =>
      rw [List.replicate_succ, after_cons, step_advance h, ih rounds_setRound_self,
        Function.iterate_succ_apply, setRound_inWorld_setRound, inWorld_inWorld]
      rfl

/-- A round of which nobody interrupts the steps is `World.update`. -/
theorem exists_update (h : k.resting c = true) :
    ∃ n, k.after (.begin c :: List.replicate n (.advance c)) =
      (k.inWorld (k.world.update c).2.2).setRound c ⟨.done (k.world.update c).1, true⟩ := by
  obtain ⟨n, hn⟩ := Program.iterate_step_run World.answer (Round.update c).run k.world
  refine ⟨n, ?_⟩
  have hbegin : k.step (.begin c) = k.setRound c (.ofRound c) := by rw [step, if_pos h]
  have hrun : (Program.step World.answer)^[n]
      ((Progress.ofRound c).rest, (k.setRound c (.ofRound c)).world) =
        (.done (k.world.update c).1, (k.world.update c).2.2) := hn
  rw [after_cons, hbegin, after_replicate_advance n rounds_setRound_self, hrun,
    setRound_inWorld_setRound]
  rfl

end Course

end Federation
