import Federation.Proofs.Discovery.Rules
import Federation.Proofs.Refusal
import Federation.Simulation.World

/-!
What a round meets with on its way, and how it ends.

* `Router.refusal_of_addRoute`: the reasons for which a node is refused a route.
* `Query.setback`: a connection that fails, or a route that is refused.
* `Surroundings.noting`: surroundings in which setbacks are written down.
* `World.update_ends`: a round gives up at the first setback. A successful round met with none, and
  a round that failed without any did not fail for want of contact either.
* `World.update_eq_of_refused`: a round that is refused a route fails for the same reason.
* `World.Connects`, `World.update_ne_communication`: a round whose connections all succeed does not
  fail for want of contact, although live nodes may not have answered.
-/

namespace Federation

/-! ### Refused routes -/

/-- Why a node may be refused a route. -/
inductive Fault.Refusal : Fault → Prop where
  | partitionsExhausted (limit : ℕ) : Refusal (.partitionsExhausted limit)
  | duplicateNode (cluster node : String) : Refusal (.duplicateNode cluster node)
  | unknownCluster (cluster : String) : Refusal (.unknownCluster cluster)

lemma Ring.refusal_of_add {r : Ring} {n : Node} {e : Fault} (h : r.add n = .error e) :
    e.Refusal := by
  rw [Ring.add] at h
  split at h
  next => exact Except.error.inj h ▸ .partitionsExhausted r.max
  next =>
    split at h
    next => exact Except.error.inj h ▸ .duplicateNode r.cluster n.name
    next => cases h

lemma NodePlacement.refusal_of_add {p : NodePlacement} {cluster : String} {n : Node} {e : Fault}
    (h : p.add cluster n = .error e) : e.Refusal := by
  cases p with
  | hashed p => exact Ring.refusal_of_add (map_eq_error_iff.mp (map_eq_error_iff.mp h))
  | custom p =>
      have hadd := map_eq_error_iff.mp h
      rw [CustomNodes.add] at hadd
      split at hadd
      next => exact Except.error.inj hadd ▸ .duplicateNode cluster n.name
      next => cases hadd

/-- Whatever the placement, nodes are refused for a few reasons only. -/
theorem Router.refusal_of_addRoute {r : Router} {cluster : String} {n : Node} {e : Fault}
    (h : r.addRoute cluster n = .error e) : e.Refusal := by
  rw [addRoute, requireCluster] at h
  split at h
  next => exact NodePlacement.refusal_of_add (map_eq_error_iff.mp h)
  next => exact Except.error.inj h ▸ .unknownCluster cluster

lemma World.refusal_of_route {w : World} {h : Handle} {e : Fault} (he : (w.route h).1 = .error e) :
    e.Refusal := by
  rw [route] at he
  split at he
  next => cases he
  next x hadd =>
    obtain rfl := Except.error.inj he
    exact Router.refusal_of_addRoute (map_eq_error_iff.mp hadd)

lemma Network.not_refusal_of_connect {net : Network} {h : Handle} {e : Fault}
    (he : (net.connect h).1 = .error e) : ¬ e.Refusal := by
  change (if _ then .ok () else .error (unreachable h.node)) = Except.error e at he
  split at he
  next => cases he
  next =>
    obtain rfl := Except.error.inj he
    rintro ⟨⟩

/-! ### Setbacks -/

/-- The fault of a connection that failed, or of a route that was refused. -/
def Query.setback : (q : Query) → q.Answer → Option Fault
  | .connect _, .error e => some e
  | .route _, .error e => some e
  | _, _ => none

/-- Whether a node is connected in vain. -/
def Query.missed : (q : Query) → q.Answer → Bool
  | .connect _, .error _ => true
  | _, _ => false

/-- Surroundings in which anything may happen, and in which setbacks are written down, the latest
one first. -/
def Surroundings.noting : Surroundings Query Query.Answer (World × List Fault) where
  answer q s :=
    ((World.answer q s.1).1, (World.answer q s.1).2, (q.setback (World.answer q s.1).1).toList ++ s.2)
  others s t := t.2 = s.2
  refl _ := rfl
  trans h h' := h'.trans h
  allows _ _ := True
  admits _ _ := True

open Surroundings

/-- What is written down in a run does not change the run. -/
lemma Program.run_noting {α : Type} (p : Program Query Query.Answer α) (w : World)
    (l : List Fault) : p.run noting.answer (w, l) =
      ((p.run World.answer w).1, (p.run World.answer w).2.1, (p.run World.answer w).2.2,
        ((p.exchanges World.answer w).filterMap fun x => x.1.setback x.2).reverse ++ l) := by
  induction p generalizing w l with
  | done a => rfl
  | ask q next ih =>
      refine (ih _ _ _).trans ?_
      rw [exchanges, List.filterMap_cons]
      cases q.setback (World.answer q w).1 with
      | none => rfl
      | some e =>
          rw [List.reverse_cons, List.append_assoc]
          rfl
  | wait ms next ih =>
      rw [run, ih]
      rfl

/-- No setback was met with. -/
def Untroubled (s : World × List Fault) : Prop := s.2 = []

lemma Untroubled.quiet {s : World × List Fault} {q : Query} (hs : Untroubled s)
    (hq : q.setback (noting.answer q s).1 = none) : Untroubled (noting.answer q s).2 := by
  change (q.setback (World.answer q s.1).1).toList ++ s.2 = []
  rw [show q.setback (World.answer q s.1).1 = none from hq, hs]
  rfl

lemma Untroubled.setback {s : World × List Fault} {q : Query} {e : Fault} (hs : Untroubled s)
    (hq : q.setback (noting.answer q s).1 = some e) : (noting.answer q s).2.2 = [e] := by
  change (q.setback (World.answer q s.1).1).toList ++ s.2 = [e]
  rw [show q.setback (World.answer q s.1).1 = some e from hq, hs]
  rfl

/-- How a part of a round fails: for another reason than a lack of contact if it met with no
setback, and otherwise because of the only one. A bootstrap node that cannot be reached is a missing
route. -/
def Fault.Ends (e : Fault) (s : World × List Fault) : Prop :=
  s.2 = [] ∧ (∀ n r, e ≠ .communication n r) ∨
    ∃ x, s.2 = [x] ∧ (e = x ∨ e = .missingRoute ∧ ¬ x.Refusal)

namespace Round

variable {s : World × List Fault}

lemma requestView_noting (c : String) (h : Handle) (hs : Untroubled s) :
    (requestView c h).Ensures noting (fun _ => Untroubled) (fun _ => Untroubled) s := by
  refine ensures_query_bind fun t ht => ⟨trivial, fun _ => ensures_pause_bind ?_⟩
  refine ensures_query_bind fun u hu => ⟨trivial, fun _ => ?_⟩
  have hu : Untroubled u := hu.trans (ht.trans hs)
  refine ensures_require_bind (fun v _ => ?_) fun _ _ _ h' => h'.trans hu
  rw [requireCluster]
  split
  next => exact ensures_pure fun _ h' => h'.trans hu
  next => exact ensures_throw fun _ h' => h'.trans hu

lemma retire_noting (h : Handle) (hs : Untroubled s) :
    (retire h).Ensures noting (fun _ => Untroubled) Fault.Ends s :=
  fun _ h₁ => ⟨trivial, fun _ _ h₂ => ⟨trivial, fun _ _ h₃ => ⟨trivial, fun _ _ h₄ =>
    h₄.trans (h₃.trans (h₂.trans (h₁.trans hs)))⟩⟩⟩

lemma askBootstrap_noting (c : String) (h : Handle) (hs : Untroubled s) :
    (askBootstrap c h).Ensures noting (fun _ => Untroubled) Fault.Ends s := by
  refine ensures_query_bind fun t ht => ⟨trivial, fun _ => ?_⟩
  have ht : Untroubled t := ht.trans hs
  split
  next x hx =>
    exact ensures_throw fun u hu => .inr ⟨x, hu.trans (ht.setback (congrArg _ hx)),
      .inr ⟨rfl, Network.not_refusal_of_connect hx⟩⟩
  next hx =>
    refine ensures_result_bind ((requestView_noting c h (ht.quiet (congrArg _ hx))).mono
      (fun v u hu => ?_) fun x u hu => ?_)
    · exact ensures_query_bind fun u₁ h₁ => ⟨trivial, fun _ => ensures_pure fun _ h₂ =>
        h₂.trans (h₁.trans hu)⟩
    · refine ensures_query_bind fun u₁ h₁ => ⟨trivial, fun _ => ensures_throw fun _ h₂ =>
        .inl ⟨h₂.trans (h₁.trans hu), ?_⟩⟩
      intro n r hx
      cases x <;> cases hx

lemma askInTurn_noting (c : String) (handles : List Handle) (hs : Untroubled s) :
    (askInTurn c handles).Ensures noting (fun _ => Untroubled) Fault.Ends s := by
  induction handles generalizing s with
  | nil => exact ensures_throw fun _ ht => .inl ⟨ht.trans hs, nofun⟩
  | cons h handles ih =>
      refine ensures_result_bind ((requestView_noting c h hs).mono (fun v t ht => ?_) fun x t ht => ?_)
      · exact ensures_pure fun _ hu => hu.trans ht
      · split
        next hok => cases hok
        next =>
          exact ensures_bind ((retire_noting h ht).mono (fun _ _ hu => ih hu) fun _ _ hx => hx)
        next e hother heq =>
          obtain rfl := Except.error.inj heq
          exact ensures_throw fun _ hu => .inl ⟨hu.trans ht, hother⟩

lemma askForView_noting (c : String) (e : Enrolment) (hs : Untroubled s) :
    (askForView c e).Ensures noting (fun _ => Untroubled) Fault.Ends s := by
  rw [askForView]
  split
  next => exact askBootstrap_noting c e.bootstrap hs
  next => exact askInTurn_noting c e.tracked hs

lemma retireNamed_noting (c name : String) (hs : Untroubled s) :
    (retireNamed c name).Ensures noting (fun _ => Untroubled) Fault.Ends s := by
  refine ensures_query_bind fun t ht => ⟨trivial, fun _ => ?_⟩
  have ht : Untroubled t := ht.trans hs
  split
  next => exact retire_noting _ ht
  next => exact ensures_pure fun _ hu => hu.trans ht

/-- Parts that are repeated are untroubled if each of them is. -/
lemma forM_noting {γ : Type} {f : γ → Round Unit}
    (hf : ∀ x s, Untroubled s → (f x).Ensures noting (fun _ => Untroubled) Fault.Ends s)
    (l : List γ) (hs : Untroubled s) :
    (l.forM f).Ensures noting (fun _ => Untroubled) Fault.Ends s :=
  ensures_forM (I := fun _ => Untroubled) (g := fun (a : Unit) _ => a)
    (fun x _ _ t ht => hf x t ht) (fun _ _ _ ht hu => hu.trans ht) () hs

lemma retireUnlisted_noting (c : String) (v : View) (hs : Untroubled s) :
    (retireUnlisted c v).Ensures noting (fun _ => Untroubled) Fault.Ends s := by
  refine ensures_query_bind fun t ht => ⟨trivial, fun _ => ?_⟩
  have ht : Untroubled t := ht.trans hs
  split
  next => exact forM_noting (fun h _ => retire_noting h) _ ht
  next => exact ensures_pure fun _ hu => hu.trans ht

lemma enlist_noting (c : String) (m : Member) (hs : Untroubled s) :
    (enlist c m).Ensures noting (fun _ => Untroubled) Fault.Ends s := by
  refine ensures_bind ((retireNamed_noting c m.name hs).mono (fun _ t ht => ?_) fun _ _ hx => hx)
  refine ensures_query_bind fun t₁ h₁ => ⟨trivial, fun _ => ?_⟩
  refine ensures_query_bind fun t₂ h₂ => ⟨trivial, fun _ => ?_⟩
  have h₂ : Untroubled t₂ := h₂.trans (h₁.trans ht)
  refine ensures_require_bind (fun _ hroute => ?_) fun x hx _ hu =>
    .inr ⟨x, hu.trans (h₂.setback (congrArg _ hx)), .inl rfl⟩
  refine ensures_query_bind fun t₃ h₃ => ⟨trivial, fun _ => ?_⟩
  refine ensures_query_bind fun t₄ h₄ => ⟨trivial, fun _ => ?_⟩
  have h₄ : Untroubled t₄ := h₄.trans (h₃.trans (h₂.quiet (congrArg _ hroute)))
  rw [← bind_pure (require _)]
  exact ensures_require_bind
    (fun _ hconnect => ensures_pure fun _ hu => hu.trans (h₄.quiet (congrArg _ hconnect)))
    fun x hx _ hu => .inr ⟨x, hu.trans (h₄.setback (congrArg _ hx)), .inl rfl⟩

lemma reconcile_noting (c : String) (baseline : Option View) (v : View) (hs : Untroubled s) :
    (reconcile c baseline v).Ensures noting (fun _ => Untroubled) Fault.Ends s := by
  have hjoin : ∀ s, Untroubled s → ((v.changesSince baseline).joining.forM (enlist c) >>= fun _ =>
      (pure (v.changesSince baseline) : Round Changes)).Ensures noting (fun _ => Untroubled)
        Fault.Ends s := fun s hs =>
    ensures_bind ((forM_noting (fun m _ => enlist_noting c m) _ hs).mono
      (fun _ _ ht => ensures_pure fun _ hu => hu.trans ht) fun _ _ hx => hx)
  refine ensures_bind ((forM_noting (fun m _ => retireNamed_noting c m.name) _ hs).mono
    (fun _ t ht => ?_) fun _ _ hx => hx)
  cases baseline with
  | none =>
      exact ensures_bind ((retireUnlisted_noting c v ht).mono (fun _ u hu => hjoin u hu)
        fun _ _ hx => hx)
  | some p => exact hjoin t ht

/-- One round for a joined cluster. -/
lemma once_noting (c : String) (hs : Untroubled s) :
    (once c).Ensures noting (fun _ => Untroubled) Fault.Ends s := by
  refine ensures_query_bind fun t ht => ⟨trivial, fun _ => ?_⟩
  have ht : Untroubled t := ht.trans hs
  split
  next => exact ensures_throw fun _ hu => .inl ⟨hu.trans ht, nofun⟩
  next e _ =>
    refine ensures_query_bind fun u hu => ⟨trivial, fun _ => ?_⟩
    have hu : Untroubled u := hu.trans ht
    refine ensures_bind ((askForView_noting c e hu).mono (fun v _ hv => ?_) fun _ _ hx => hx)
    refine ensures_bind ((reconcile_noting c _ v hv).mono (fun _ _ hr => ?_) fun _ _ hx => hx)
    exact ensures_query_bind fun _ h₁ => ⟨trivial, fun _ => ensures_pure fun _ h₂ =>
      h₂.trans (h₁.trans hr)⟩

/-- A whole round. -/
lemma update_noting (c : String) (hs : Untroubled s) :
    (update c).Ensures noting (fun _ => Untroubled) Fault.Ends s := by
  refine ensures_query_bind fun t ht => ⟨trivial, fun _ => ?_⟩
  have ht : Untroubled t := ht.trans hs
  split
  next => exact ensures_throw fun _ hu => .inl ⟨hu.trans ht, nofun⟩
  next =>
    refine ensures_tryCatch ((once_noting c ht).mono (fun _ _ hp => hp) fun x u hx => ?_)
    refine ensures_query_bind fun u₁ h₁ => ⟨trivial, fun _ => ensures_throw fun u₂ h₂ => ?_⟩
    have h : u₂.2 = u.2 := h₂.trans h₁
    rwa [Fault.Ends, h]

end Round

namespace World

variable {w : World} {c : String}

/-- The setbacks that a round meets with if nothing else goes on. -/
def setbacks (w : World) (cluster : String) : List Fault :=
  ((Round.update cluster).run.exchanges answer w).filterMap fun x => x.1.setback x.2

lemma mem_setbacks {e : Fault} : e ∈ w.setbacks c ↔
    ∃ x ∈ (Round.update c).run.exchanges answer w, x.1.setback x.2 = some e :=
  List.mem_filterMap

lemma refusal_of_mem_exchanges {h : Handle} {e : Fault}
    (hx : ⟨.route h, .error e⟩ ∈ (Round.update c).run.exchanges answer w) : e.Refusal := by
  obtain ⟨t, -, ht⟩ := Program.exists_of_mem_exchanges (I := fun _ => True)
    (fun _ _ _ => trivial) trivial hx
  exact refusal_of_route ht

/-- A round gives up at the first setback. If it met with none and failed all the same, no
communication is to blame. -/
theorem update_ends (w : World) (c : String) :
    Round.outcome (fun _ l => l = [])
      (fun e l => l = [] ∧ (∀ n r, e ≠ .communication n r) ∨
        ∃ x, l = [x] ∧ (e = x ∨ e = .missingRoute ∧ ¬ x.Refusal))
      (w.update c).1 (w.setbacks c) := by
  have hrun := Program.Ensures.run (Round.update_noting (s := (w, [])) c rfl) fun _ _ => trivial
  rw [Program.run_noting, List.append_nil] at hrun
  change Round.outcome _ _ (w.update c).1 (_, (w.setbacks c).reverse) at hrun
  cases hresult : (w.update c).1 with
  | ok changes =>
      rw [hresult] at hrun
      exact List.reverse_eq_nil_iff.mp hrun
  | error e =>
      rw [hresult] at hrun
      refine hrun.imp (fun h => ⟨List.reverse_eq_nil_iff.mp h.1, h.2⟩) ?_
      rintro ⟨x, hx, he⟩
      exact ⟨x, List.reverse_eq_iff.mp hx, he⟩

/-- A round that is refused a route fails for the same reason. -/
theorem update_eq_of_refused {h : Handle} {e : Fault}
    (hx : ⟨.route h, .error e⟩ ∈ (Round.update c).run.exchanges answer w) :
    (w.update c).1 = .error e := by
  have hmem : e ∈ w.setbacks c := mem_setbacks.mpr ⟨_, hx, rfl⟩
  have hends := update_ends w c
  cases hresult : (w.update c).1 with
  | ok changes =>
      rw [hresult] at hends
      rw [show w.setbacks c = [] from hends] at hmem
      cases hmem
  | error e' =>
      rw [hresult] at hends
      rcases hends with ⟨hnil, -⟩ | ⟨x, hx', he⟩
      · rw [hnil] at hmem
        cases hmem
      · rw [hx', List.mem_singleton] at hmem
        subst hmem
        rcases he with rfl | ⟨-, hno⟩
        · rfl
        · exact absurd (refusal_of_mem_exchanges hx) hno

/-- Every node that a round connects can be reached, if nothing else goes on. -/
def Connects (w : World) (cluster : String) : Prop :=
  ∀ x ∈ (Round.update cluster).run.exchanges answer w, x.1.missed x.2 = false

instance (w : World) (cluster : String) : Decidable (w.Connects cluster) :=
  inferInstanceAs (Decidable (∀ x ∈ _, _))

/-- A round in which every connection succeeds does not fail for want of contact, whichever nodes
cannot be asked for a view. -/
theorem update_ne_communication (hw : w.Connects c) (n r : String) :
    (w.update c).1 ≠ .error (.communication n r) := by
  intro he
  have hends := update_ends w c
  rw [he] at hends
  rcases hends with ⟨-, hno⟩ | ⟨x, hx, rfl | ⟨hmissing, -⟩⟩
  · exact hno n r rfl
  · obtain ⟨⟨q, a⟩, hqa, hq⟩ := mem_setbacks.mp (hx ▸ List.mem_singleton_self _)
    cases q with
    | connect h =>
        cases a with
        | ok => cases hq
        | error e => cases hw _ hqa
    | route h =>
        cases a with
        | ok => cases hq
        | error e =>
            obtain rfl := Option.some.inj hq
            cases refusal_of_mem_exchanges hqa
    | _ => cases hq
  · cases hmissing

end World

end Federation
