import Federation.Proofs.Discovery.Asking
import Federation.Proofs.Discovery.Rounds

/-!
Rounds with nothing else going on.

* `World.remaining`, `World.cleared`, `World.changesTo`: the ledger without the nodes that a round
  asks in vain, the ledger from which the leaving nodes are gone as well, and the changes that are
  made.
* `World.conclude`, `Round.under_update`: a round asks for the view, and how it ends depends on what
  it was answered.
* `World.update_unanswered`: a round that obtains no view fails, and only the nodes that were asked
  in vain leave.
* `World.update_joining`, `World.update_answered`: how a round goes on that obtains a view. From
  this follow `World.update_eq_ok`, what a successful round has done, and `World.update_roomy`, when
  a round is successful.
-/

namespace Federation

namespace World

variable {w : World} {c : String} {v : View} {e : Enrolment}

/-- The ledger of a cluster without the nodes that a round asks in vain. -/
def remaining (w : World) (c : String) : Ledger := (w.ledger c).retireAll (w.failedNames c)

/-- The ledger of a cluster once all nodes have left that leave for the view. -/
def cleared (w : World) (c : String) (v : View) : Ledger :=
  (w.remaining c).pruned (w.baselineOf c) v

/-- The changes that a round makes for the view. -/
def changesTo (w : World) (c : String) (v : View) : Changes := v.changesSince (w.baselineOf c)

/-- How a round ends once it has asked for the view. If it was answered one, then the view is
applied, and stored if that was successful. -/
def conclude (w : World) (c : String) (baseline : Option View) :
    Except Fault View → Except Fault Changes × World
  | .error x => (.error x, (w.answer (.store c none)).2)
  | .ok v =>
    let (r, w') := (Round.reconcile c baseline v).alone w
    (r, (w'.answer (.store c (r.toOption.map fun _ => v))).2)

/-- A round compares with the baseline of the world in which it begins. -/
lemma Ready.baseline (hw : w.Ready c) (he : w.enrolments.find? c = some e) :
    e.baseline (w.router.router.clusterRoute (.ofRemote c)) = w.baselineOf c := by
  rw [Enrolment.baseline, clusterRoute_ofRemote hw.remote, baselineOf, rosterOf,
    trackedOf_of_find? he, viewOf_of_find? he, List.all_map]
  rfl

end World

namespace Round

open World

variable {w w₀ : World} {c : String} {l : Ledger} {baseline : Option View} {v : View}
  {answer : (q : Query) → World → q.Answer × World}

/-- The nodes that leave leave first, and then the others join. -/
lemma alone_reconcile (hs : Since w₀ c l w) (ht : l.Tidy) (baseline : Option View) (v : View) :
    ∃ w₁ r w₂, Since w₀ c (l.pruned baseline v) w₁ ∧
      ((v.changesSince baseline).joining.forM (enlist c)).alone w₁ = (r, w₂) ∧
      (reconcile c baseline v).alone w = (r.map fun _ => v.changesSince baseline, w₂) := by
  have hjoin : ∀ w₁, ∃ r w₂,
      ((v.changesSince baseline).joining.forM (enlist c)).alone w₁ = (r, w₂) ∧
      ((v.changesSince baseline).joining.forM (enlist c) >>= fun _ =>
        (pure (v.changesSince baseline) : Round Changes)).alone w₁ =
          (r.map fun _ => v.changesSince baseline, w₂) := by
    intro w₁
    obtain ⟨r, w₂, hr⟩ : ∃ r w₂,
        ((v.changesSince baseline).joining.forM (enlist c)).alone w₁ = (r, w₂) := ⟨_, _, rfl⟩
    refine ⟨r, w₂, hr, ?_⟩
    cases r with
    | ok _ => exact alone_bind_ok hr
    | error x => exact alone_bind_error hr
  obtain ⟨w₁, hw₁, hs₁⟩ := alone_retireAll hs ht Member.name (v.changesSince baseline).leaving
  cases baseline with
  | none =>
      obtain ⟨w₂, hw₂, hs₂⟩ := alone_retireUnlisted hs₁ (ht.retireAll _) v
      obtain ⟨r, w₃, hr, hrun⟩ := hjoin w₂
      exact ⟨w₂, r, w₃, hs₂, hr, (alone_bind_ok hw₁).trans ((alone_bind_ok hw₂).trans hrun)⟩
  | some p =>
      obtain ⟨r, w₂, hr, hrun⟩ := hjoin w₁
      exact ⟨w₁, r, w₂, hs₁, hr, (alone_bind_ok hw₁).trans hrun⟩

/-- A round looks up its cluster, asks for the view, applies it and stores it. It does so in
whichever way nodes answer. -/
lemma under_update (hanswer : ∀ q w, q.Ordinary → answer q w = World.answer q w) (hw : w.Ready c)
    {e : Enrolment} (he : w.enrolments.find? c = some e) {asked : Except Fault View} {w' : World}
    (hr : (askForView c e).under answer w = (asked, w')) :
    (update c).under answer w = w'.conclude c (w.baselineOf c) asked := by
  have honce : (once c).under answer w = (askForView c e >>= fun v =>
      reconcile c (w.baselineOf c) v >>= fun changes =>
        query (.store c (some v)) >>= fun _ => pure changes).under answer w := by
    rw [once, under_query_bind, hanswer (.enrolment c) w trivial,
      show w.answer (.enrolment c) = (some e, w) from Prod.ext he rfl]
    dsimp only
    rw [under_query_bind, hanswer (.routes c) w trivial, ← hw.baseline he]
    rfl
  have hupdate : (update c).under answer w = (tryCatch (once c) fun x => do
      query (.store c none)
      throw x).under answer w := by
    rw [update, under_query_bind, hanswer .isClosed w trivial,
      show w.answer .isClosed = (false, w) from Prod.ext hw.going rfl]
    rfl
  have hfailed : ∀ x w₁, (once c).under answer w = (.error x, w₁) →
      (update c).under answer w = (.error x, (w₁.answer (.store c none)).2) := by
    intro x w₁ hx
    rw [hupdate, under_tryCatch_error hx, under_query_bind, hanswer (.store c none) w₁ trivial]
    rfl
  cases asked with
  | error x => exact hfailed x w' (honce.trans (under_bind_error hr))
  | ok v =>
      -- nobody is asked for a view any more
      have hrun : (reconcile c (w.baselineOf c) v).under answer w' =
          (reconcile c (w.baselineOf c) v).alone w' :=
        reconcile_ordinary.final_eq (I := fun _ => True) (fun _ _ _ _ => trivial)
          (fun q u hq _ => hanswer q u hq) trivial
      obtain ⟨r, w₁, hreconcile⟩ : ∃ r w₁,
          (reconcile c (w.baselineOf c) v).alone w' = (r, w₁) := ⟨_, _, rfl⟩
      have happlied := honce.trans (under_bind_ok hr)
      rw [hreconcile] at hrun
      rw [conclude, hreconcile]
      cases r with
      | error x => exact hfailed x w₁ (happlied.trans (under_bind_error hrun))
      | ok changes =>
          rw [under_bind_ok hrun, under_query_bind,
            hanswer (.store c (some v)) w₁ trivial] at happlied
          exact hupdate.trans (under_tryCatch_ok happlied)

end Round

namespace World

open Round

variable {w : World} {c : String} {v : View} {changes : Changes}

/-- A round without anything else going on changes nothing of what no part of it changes. -/
lemma steady_update (w : World) (c : String) : Steady w (w.update c).2.2 :=
  Round.steady_alone (Round.update c) w

/-- Only the nodes that were asked in vain leave if nobody answers. -/
theorem update_unanswered (hw : w.Ready c) (ht : (w.ledger c).Tidy) (ho : w.obtained c = none) :
    (∃ x, (w.update c).1 = .error x) ∧ Since w c (w.remaining c) (w.update c).2.2 ∧
      (w.update c).2.2.viewOf c = none := by
  obtain ⟨e, he⟩ := hw.exists_enrolment
  obtain ⟨r, w', hr, hview, hs⟩ := alone_askForView hw ht he
  rw [ho] at hview
  cases r with
  | ok v => cases hview
  | error x =>
      obtain ⟨hresult, hworld⟩ := Prod.mk.inj (under_update (fun _ _ _ => rfl) hw he hr)
      rw [show (w.update c).1 = _ from hresult, show (w.update c).2.2 = _ from hworld]
      refine ⟨⟨x, rfl⟩, hs.store none, (store_keeps none).2.2.trans ?_⟩
      cases w'.enrolments.find? c <;> rfl

/-- A round that obtains a view lets the nodes leave that leave for it. Its result is that of the
joining of the others, and the view is stored exactly if this is successful. -/
theorem update_joining (hw : w.Ready c) (ht : (w.ledger c).Tidy) (ho : w.obtained c = some v) :
    ∃ w₁ r w₂, Since w c (w.cleared c v) w₁ ∧
      ((w.changesTo c v).joining.forM (enlist c)).alone w₁ = (r, w₂) ∧
      (w.update c).1 = r.map (fun _ => w.changesTo c v) ∧
      (w.update c).2.2 = (w₂.answer (.store c (r.toOption.map fun _ => v))).2 := by
  obtain ⟨e, he⟩ := hw.exists_enrolment
  obtain ⟨r, w₀, hr, hview, hs⟩ := alone_askForView hw ht he
  rw [ho] at hview
  cases r with
  | error x => cases hview
  | ok v' =>
      obtain rfl := Option.some.inj hview
      obtain ⟨w₁, r, w₂, hs₁, hr₂, hrun⟩ := alone_reconcile hs (ht.retireAll _) (w.baselineOf c) v'
      have hupdate := under_update (fun _ _ _ => rfl) hw he hr
      rw [conclude, hrun] at hupdate
      obtain ⟨hresult, hworld⟩ := Prod.mk.inj hupdate
      refine ⟨w₁, r, w₂, hs₁, hr₂, hresult, hworld.trans ?_⟩
      cases r <;> rfl

/-- What such a round stores depends on how the joining of the members ends. -/
theorem update_answered (hw : w.Ready c) (ht : (w.ledger c).Tidy) (ho : w.obtained c = some v) :
    ∃ r, (w.update c).1 = r.map (fun _ => w.changesTo c v) ∧
      Joining w c (w.cleared c v) (w.changesTo c v).joining r (w.update c).2.2 ∧
      (w.update c).2.2.viewOf c = r.toOption.map fun _ => v := by
  obtain ⟨w₁, r, w₂, hs, hr, hresult, hworld⟩ := update_joining hw ht ho
  obtain ⟨r', w', hr', hj⟩ := alone_enlistAll hs ((ht.retireAll _).pruned _ _)
    (w.changesTo c v).joining
  obtain ⟨rfl, rfl⟩ := Prod.mk.inj (hr.symm.trans hr')
  refine ⟨r, hresult, hworld ▸ hj.store _, ?_⟩
  rw [hworld]
  refine (store_keeps _).2.2.trans ?_
  cases r with
  | error x => cases w₂.enrolments.find? c <;> rfl
  | ok _ =>
      obtain ⟨e, he⟩ := hj.of_ok.2.isReady.exists_enrolment
      rw [he]
      rfl

/-- What a successful round has done. -/
theorem update_eq_ok (hw : w.Ready c) (ht : (w.ledger c).Tidy)
    (hu : (w.update c).1 = .ok changes) : ∃ v, w.obtained c = some v ∧ changes = w.changesTo c v ∧
      Since w c ((w.cleared c v).enlistAll changes.joining) (w.update c).2.2 ∧
      (w.update c).2.2.viewOf c = some v := by
  cases ho : w.obtained c with
  | none =>
      obtain ⟨⟨x, hx⟩, -⟩ := update_unanswered hw ht ho
      cases hu.symm.trans hx
  | some v =>
      obtain ⟨r, hr, hj, hview⟩ := update_answered hw ht ho
      cases r with
      | error x => cases hu.symm.trans hr
      | ok _ =>
          obtain rfl := Except.ok.inj (hu.symm.trans hr)
          exact ⟨v, rfl, rfl, hj.of_ok.2, hview⟩

/-- If there is room for all members that join, then a round is successful exactly if all of them
can be connected. -/
theorem update_roomy (hw : w.Ready c) (ht : (w.ledger c).Tidy)
    (hsound : w.router.router.nodes.Sound) (ho : w.obtained c = some v)
    (hroomy : (w.cleared c v).Roomy w.router.router.limit? (w.changesTo c v).joining) :
    (w.update c).1 = (w.network.contactAll (w.changesTo c v).joining).map
        (fun _ => w.changesTo c v) ∧
      Since w c ((w.cleared c v).enlistAll (attempted w.network.up (w.changesTo c v).joining))
        (w.update c).2.2 ∧
      (w.update c).2.2.viewOf c =
        (w.network.contactAll (w.changesTo c v).joining).toOption.map fun _ => v := by
  obtain ⟨r, hr, hj, hview⟩ := update_answered hw ht ho
  obtain ⟨rfl, hs⟩ := hj.of_roomy hsound hroomy
  exact ⟨hr, hs, hview⟩

end World

end Federation
