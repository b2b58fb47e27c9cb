import Federation.Proofs.Discovery.Entries
import Federation.Proofs.Discovery.Questions
import Federation.Proofs.Simulation.Aside

/-!
Asking for a view.

* `World.answerWith`: the world, save that every node answers a request for its view in a way of its
  own. With the answers of the network it is the world itself (`Round.under_answerWith_network`).
* `World.Asked`: which nodes a round has asked in vain so far, and which one after them. One more is
  asked (`World.Asked.ask`), and leaves (`World.Asked.retire`).
* `Round.under_askInTurn`, `Round.under_askBootstrap`: live nodes are asked up to the first one that
  can be reached, and the bootstrap node is asked if it can be connected.
* `Round.alone_askForView`: with the answers of the network the live nodes that are asked in vain
  are those that `World.failed` tells, and the view is the one that `World.obtained` tells.
-/

namespace Federation

namespace Network

/-- What is written down when a node is asked for its view. -/
def inquiry (net : Network) (h : Handle) : Contact := .membership h (net.reaches h.node.address)

end Network

/-- The node could not be reached. -/
def Unreached (answered : Except Fault View) : Prop :=
  ∃ node reason, answered = .error (.communication node reason)

namespace World

/-! ### Nodes that answer in a way of their own -/

/-- Takes a step of a round. What a node answers when it is asked for its view is up to
`outcome`. -/
def answerWith (outcome : Handle → Except Fault View) : (q : Query) → World → q.Answer × World
  | .membership h, w => (outcome h, (w.answer (.membership h)).2)
  | q, w => w.answer q

lemma answerWith_of_ordinary (outcome : Handle → Except Fault View) (q : Query) (w : World)
    (hq : q.Ordinary) : answerWith outcome q w = w.answer q := by
  cases q with
  | membership h => cases hq
  | _ => rfl

end World

namespace Round

open World

variable {w w₀ w' : World} {c : String} {h : Handle} {outcome : Handle → Except Fault View}
  {done handles : List Handle}

/-! ### One node -/

/-- What a round makes of the answer of a node. A view of another cluster is refused. -/
def accepted (c : String) (h : Handle) : Except Fault View → Except Fault View
  | .ok v =>
    if v.cluster = c then .ok v
    else .error (.processing h.node.name (wrongCluster v.cluster c))
  | .error e => .error e

/-- A refused view is no lack of contact. -/
lemma unreached_accepted_iff {answered : Except Fault View} :
    Unreached (accepted c h answered) ↔ Unreached answered := by
  cases answered with
  | error e => rfl
  | ok v =>
      rw [accepted]
      split <;> simp [Unreached]

/-- Asking a node leaves nothing but an inquiry behind. -/
lemma under_requestView (w : World) : (requestView c h).under (answerWith outcome) w =
    (accepted c h (outcome h), (w.answer (.membership h)).2) := by
  have hrun : (requestView c h).under (answerWith outcome) w =
      (require (outcome h) >>= requireCluster c h).under (answerWith outcome)
        (w.answer (.membership h)).2 := rfl
  rw [hrun]
  cases outcome h with
  | error e => rfl
  | ok v =>
      have hpassed : (require (.ok v : Except Fault View)).under (answerWith outcome)
          (w.answer (.membership h)).2 = (.ok v, (w.answer (.membership h)).2) := rfl
      rw [under_bind_ok hpassed, requireCluster, accepted]
      split <;> rfl

end Round

namespace World

variable {w w₀ w' : World} {c : String} {h : Handle} {failed : List Handle} {last : Option Handle}

/-- Since a round began in the world `w₀`, some nodes were asked in vain and have left, and at most
one other node was asked after them. -/
structure Asked (w₀ : World) (c : String) (failed : List Handle) (last : Option Handle)
    (w : World) : Prop where
  since : Since w₀ c ((w₀.ledger c).retireAll (failed.map fun h => h.node.name)) w
  contacts : w.network.journal.reverse = w₀.network.journal.reverse ++
    (failed.flatMap fun h => [w₀.network.inquiry h, .disconnect h]) ++
    last.toList.map w₀.network.inquiry
  links : ∀ x, x ∈ w.network.links ↔ x ∈ w₀.network.links ∧ x ∉ failed

namespace Asked

lemma refl (hw : w.Ready c) : Asked w c [] none w :=
  ⟨Since.refl hw, by simp, by simp⟩

/-- One more node is asked. -/
lemma ask (ha : Asked w₀ c failed none w) (h : Handle) :
    Asked w₀ c failed (some h) (w.answer (.membership h)).2 := by
  refine ⟨ha.since.answer ha.since.ledger, ?_, ha.links⟩
  obtain ⟨journal, hnet⟩ := ha.since.steady.network
  have hreaches : w.network.reaches = w₀.network.reaches := by rw [hnet]; rfl
  have hjournal : (w.answer (.membership h)).2.network.journal =
      w₀.network.inquiry h :: w.network.journal := by
    rw [Network.inquiry, ← hreaches]
    rfl
  rw [hjournal, List.reverse_cons, ha.contacts]
  simp

/-- The node that was asked last leaves. -/
lemma retire (ha : Asked w₀ c failed (some h) w) (hc : h.cluster = c) :
    ∃ w', (Round.retire h).alone w = (.ok (), w') ∧ Asked w₀ c (failed ++ [h]) none w' := by
  obtain ⟨w', hw', hs⟩ := Round.alone_retire ha.since hc
  have hnetwork : w'.network = w.network.disconnect h := by
    obtain rfl : _ = w' := congrArg Prod.snd hw'
    change (w.unroute h).network.disconnect h = _
    rw [show (w.unroute h).network = w.network from network_answer w (.unroute h)]
  refine ⟨w', hw', ?_, ?_, fun x => ?_⟩
  · rw [List.map_append, Ledger.retireAll, List.foldl_append]
    exact hs
  · rw [hnetwork, Network.disconnect, Network.record, List.reverse_cons, ha.contacts]
    simp
  · rw [hnetwork, Network.links_disconnect, Finset.mem_erase, ha.links, List.mem_append,
      List.mem_singleton, not_or]
    tauto

end Asked

end World

namespace Round

open World

variable {w w₀ : World} {c : String} {h : Handle} {outcome : Handle → Except Fault View}
  {done handles : List Handle}

/-- What a round obtains from the nodes that are left when it has asked all others in vain. -/
def answered (c : String) (outcome : Handle → Except Fault View) :
    List Handle → Except Fault View
  | [] => .error .missingRoute
  | h :: _ => accepted c h (outcome h)

lemma answered_of_head? (hh : h ∈ handles.head?) :
    answered c outcome handles = accepted c h (outcome h) := by
  obtain ⟨rest, rfl⟩ := List.head?_eq_some_iff.mp hh
  rfl

/-- The nodes are asked one after the other up to the first one that can be reached. Those before it
leave. -/
lemma under_askInTurn (outcome : Handle → Except Fault View) (ha : Asked w₀ c done none w)
    (hc : ∀ h ∈ handles, h.cluster = c) :
    ∃ failed rest w', handles = failed ++ rest ∧ (∀ h ∈ failed, Unreached (outcome h)) ∧
      (∀ h ∈ rest.head?, ¬Unreached (outcome h)) ∧
      (askInTurn c handles).under (answerWith outcome) w = (answered c outcome rest, w') ∧
      Asked w₀ c (done ++ failed) rest.head? w' := by
  induction handles generalizing done w with
  | nil =>
      refine ⟨[], [], w, rfl, List.forall_mem_nil _, nofun, rfl, ?_⟩
      rw [List.append_nil]
      exact ha
  | cons h handles ih =>
      have hasked := ha.ask h
      rw [askInTurn, under_result_bind (under_requestView w)]
      by_cases hlost : Unreached (outcome h)
      · obtain ⟨node, reason, ho⟩ := hlost
        obtain ⟨w₁, hw₁, ha₁⟩ := hasked.retire (hc h List.mem_cons_self)
        have hretire : (retire h).under (answerWith outcome) (w.answer (.membership h)).2 =
            (.ok (), w₁) := hw₁
        obtain ⟨failed, rest, w', rfl, hfailed, hrest, hrun, ha'⟩ :=
          ih ha₁ fun x hx => hc x (List.mem_cons_of_mem h hx)
        refine ⟨h :: failed, rest, w', rfl, ?_, hrest, ?_, ?_⟩
        · exact List.forall_mem_cons.mpr ⟨⟨node, reason, ho⟩, hfailed⟩
        · rw [ho]
          exact (under_bind_ok hretire).trans hrun
        · rw [List.append_assoc, List.singleton_append] at ha'
          exact ha'
      · refine ⟨[], h :: handles, (w.answer (.membership h)).2, rfl, List.forall_mem_nil _, ?_, ?_,
          ?_⟩
        · rintro x hx
          obtain rfl := Option.some.inj hx
          exact hlost
        · rw [← unreached_accepted_iff (c := c) (h := h)] at hlost
          rw [answered]
          cases haccepted : accepted c h (outcome h) with
          | ok v => rfl
          | error e =>
              cases e with
              | communication node reason => exact absurd ⟨node, reason, haccepted⟩ hlost
              | _ => rfl
        · rw [List.append_nil]
          exact hasked

/-- The bootstrap node is asked if it can be connected. -/
lemma under_askBootstrap (outcome : Handle → Except Fault View) (hw : w.Ready c) (b : Handle) :
    ∃ w₁, (askBootstrap c b).under (answerWith outcome) w =
        (if w.network.reaches b.node.address then
          (accepted c b (outcome b)).mapError bootstrapFault
        else .error .missingRoute, w₁) ∧
      Since w c (w.ledger c) w₁ ∧
      w₁.network.journal.reverse = w.network.journal.reverse ++
        if w.network.reaches b.node.address then
          [.connect b true, w.network.inquiry b, .disconnect b]
        else [.connect b false] := by
  have hs : Since w c (w.ledger c) (w.answer (.connect b)).2 := (Since.refl hw).answer rfl
  have hjournal : (w.answer (.connect b)).2.network.journal =
      .connect b (w.network.reaches b.node.address) :: w.network.journal := rfl
  have hconnect : (answerWith outcome (.connect b) w).1 =
      if w.network.reaches b.node.address then .ok ()
      else .error (Network.unreachable b.node) := rfl
  rw [askBootstrap, under_query_bind, hconnect]
  by_cases hup : w.network.reaches b.node.address = true
  · rw [if_pos hup, if_pos hup, if_pos hup]
    dsimp only
    rw [under_result_bind (under_requestView _)]
    have hs' : Since w c (w.ledger c) ((w.answer (.connect b)).2.answer (.membership b)).2 :=
      hs.answer hs.ledger
    refine ⟨_, rfl, hs'.answer (q := .disconnect b) hs'.ledger, ?_⟩
    have hjournal' : (((w.answer (.connect b)).2.answer (.membership b)).2.answer
        (.disconnect b)).2.network.journal =
          .disconnect b :: w.network.inquiry b :: .connect b true :: w.network.journal := by
      rw [← hup]
      rfl
    exact (congrArg List.reverse hjournal').trans (by simp)
  · rw [if_neg hup, if_neg hup, if_neg hup]
    refine ⟨_, rfl, hs, ?_⟩
    rw [← Bool.eq_false_of_not_eq_true hup]
    exact (congrArg List.reverse hjournal).trans List.reverse_cons

/-! ### The answers of the network -/

/-- Nothing is different if nodes answer as they do on the network. -/
lemma under_answerWith_network {α : Type} (r : Round α) (w : World) :
    r.under (answerWith fun h => (w.network.membership h).1) w = r.alone w := by
  refine r.run.asks_true.final_eq (I := Steady w) (fun q u _ hu => hu.trans (steady_answer u q))
    (fun q u _ hu => ?_) (Steady.refl w)
  cases q with
  | membership h =>
      obtain ⟨journal, hnet⟩ := hu.network
      refine Prod.ext ?_ rfl
      change (w.network.membership h).1 = (u.network.membership h).1
      rw [hnet]
      rfl
  | _ => rfl

lemma fails_iff : w.network.fails h = true ↔ Unreached (w.network.membership h).1 := by
  rw [Network.fails, Unreached]
  split <;> simp_all

lemma toOption_accepted : (accepted c h (w.network.membership h).1).toOption =
    w.network.viewFrom? c h := by
  rw [Network.viewFrom?]
  cases (w.network.membership h).1 with
  | error x => rfl
  | ok v => by_cases hv : v.cluster = c <;> simp [accepted, Except.toOption, Option.filter, hv]

/-- The nodes that are asked in vain leave. -/
lemma alone_askForView (hw : w.Ready c) (ht : (w.ledger c).Tidy) {e : Enrolment}
    (he : w.enrolments.find? c = some e) :
    ∃ r w', (askForView c e).alone w = (r, w') ∧ r.toOption = w.obtained c ∧
      Since w c ((w.ledger c).retireAll (w.failedNames c)) w' := by
  have htracked : w.trackedOf c = e.tracked := trackedOf_of_find? he
  rw [← under_answerWith_network, askForView, obtained, asked, failedNames, failed, htracked, he,
    Option.map_some]
  split
  next hempty =>
    obtain ⟨w', hrun, hs, -⟩ := under_askBootstrap _ hw e.bootstrap
    rw [List.isEmpty_iff.mp hempty]
    refine ⟨_, w', hrun, ?_, hs⟩
    rw [Option.bind_some]
    split
    next =>
      rw [← toOption_accepted]
      cases accepted c e.bootstrap (w.network.membership e.bootstrap).1 <;> rfl
    next hdown =>
      -- a node that cannot be connected does not answer either
      rw [Network.viewFrom?, Network.membership, Bool.eq_false_of_not_eq_true hdown]
      cases w.network.viewAt? e.bootstrap.node.address <;> rfl
  next =>
    have hhandles : ∀ h ∈ e.tracked, h.cluster = c := htracked ▸ ht.handles
    obtain ⟨failed, rest, w', hsplit, hfailed, hrest, hrun, ha⟩ :=
      under_askInTurn _ (Asked.refl hw) hhandles
    refine ⟨_, w', hrun, ?_, ?_⟩
    · have hnobody : failed.find? (fun h => !w.network.fails h) = none :=
        List.find?_eq_none.mpr fun h hh => by simp [fails_iff.mpr (hfailed h hh)]
      rw [hsplit, List.find?_append, hnobody, Option.none_or]
      cases rest with
      | nil => rfl
      | cons h rest =>
          have hup : ¬w.network.fails h = true := fun hf => hrest h rfl (fails_iff.mp hf)
          rw [List.find?_cons_of_pos (by simp [hup])]
          exact toOption_accepted
    · have hnobody : rest.takeWhile w.network.fails = [] := by
        cases rest with
        | nil => rfl
        | cons h rest =>
            exact List.takeWhile_cons_of_neg fun hf => hrest h rfl (fails_iff.mp hf)
      rw [hsplit, List.takeWhile_append_of_pos fun h hh => fails_iff.mpr (hfailed h hh), hnobody,
        List.append_nil]
      exact ha.since

end Round

end Federation
