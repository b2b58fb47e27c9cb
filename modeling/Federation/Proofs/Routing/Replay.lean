import Mathlib.Data.Finset.Dedup
import Mathlib.Data.List.DropRight
import Federation.Routing.Recorded
import Federation.Proofs.Routing.Directory

/-!
The record of a router against its routes.

* `RouteEvent.step?`, `RouteEvent.replay?`: names after an event, and after those events of a list
  that are about one cluster. To add a name that is there or to remove one that is not is no way to
  go on. `RouteEvent.replay?_congr`: the flags of the clusters do not matter.
* `RouterRequest`, `Router.serve`: whatever is asked of a router or changed about it.
  `Router.replies`, `Router.afterRequests`: the answers to several requests in a row, and the router
  behind them.
* `Router.log`, `Router.recentLog`: the changes of routes among the requests, as far as they were not
  refused, and those since all nodes were removed for the last time.
* `Router.replay_eventsOf`: a request leads from the names that were routed before it to those that
  are routed afterwards, and `Router.replay_recentLog`: so do the recent changes, from no names.
* `RecordedStep`, `RecordedRouter.run`: requests to a router with a record, between which the events
  are taken. `RecordedRouter.run_eq`: the record changes no answer, and it is the log.
* `RecordedRouter.events_replay`: the recent events of the record lead to the routes.
-/

namespace Federation

/-! ### Keys -/

namespace Keyed

open Std

variable {α κ : Type} [Ord κ] [LawfulEqOrd κ] [DecidableEq κ] {key : α → κ}

/-- The keys of a collection as a set. -/
def keySet (s : Keyed key) : Finset κ := s.keys.toFinset

omit [LawfulEqOrd κ] in
lemma mem_keySet {s : Keyed key} {k : κ} : k ∈ s.keySet ↔ s.contains k = true := by
  rw [keySet, List.mem_toFinset, mem_keys_iff]

omit [LawfulEqOrd κ] in
lemma keySet_erase (s : Keyed key) (k : κ) : (s.erase k).keySet = s.keySet.erase k := by
  ext k'
  rw [mem_keySet, Finset.mem_erase, mem_keySet, contains_eq_isSome, contains_eq_isSome, find?_erase]
  by_cases h : k' = k <;> simp [h]

lemma keySet_insert [TransOrd κ] (s : Keyed key) (a : α) :
    (s.insert a).keySet = Insert.insert (key a) s.keySet := by
  ext k
  rw [mem_keySet, Finset.mem_insert, mem_keySet, contains_eq_isSome, contains_eq_isSome,
    find?_insert]
  by_cases h : key a = k <;> simp [h, eq_comm (a := k)]

end Keyed

/-! ### Events -/

namespace RouteEvent

/-- The names after an event. An added name has to be new, a removed one has to be there. -/
def step? (names : Finset String) : RouteEvent → Option (Finset String)
  | .added _ node => if node ∈ names then none else some (insert node names)
  | .removed _ node => if node ∈ names then some (names.erase node) else none

/-- The names after those of some events that are about a cluster. -/
def replay? (cluster : String) (events : List RouteEvent) (names : Finset String) :
    Option (Finset String) :=
  (events.filter fun e => e.cluster = cluster).foldlM step? names

lemma replay?_append (cluster : String) (events later : List RouteEvent) (names : Finset String) :
    replay? cluster (events ++ later) names =
      (replay? cluster events names).bind (replay? cluster later) := by
  rw [replay?, List.filter_append, List.foldlM_append]
  rfl

/-- Equal events are about one cluster and lead on alike, whatever the flags of their clusters. -/
lemma alike_of_beq {e e' : RouteEvent} (h : (e == e') = true) :
    e.cluster = e'.cluster ∧ ∀ names, step? names e = step? names e' := by
  cases e <;> cases e'
  case added.added | removed.removed =>
    obtain ⟨hcluster, hnode⟩ := Bool.and_eq_true_iff.mp h
    obtain rfl := eq_of_beq hnode
    exact ⟨eq_of_beq hcluster, fun _ => rfl⟩
  all_goals cases h

/-- Lists of equal events lead to the same names. -/
lemma replay?_congr {events events' : List RouteEvent}
    (h : List.Forall₂ (fun e e' => (e == e') = true) events events') (cluster : String)
    (names : Finset String) : replay? cluster events names = replay? cluster events' names := by
  induction h generalizing names with
  | nil => rfl
  | @cons e e' events events' he _ ih =>
      obtain ⟨hcluster, hstep⟩ := alike_of_beq he
      rw [replay?, replay?, List.filter_cons, List.filter_cons, hcluster]
      split
      next =>
        rw [List.foldlM_cons, List.foldlM_cons, hstep]
        exact bind_congr ih
      next => exact ih names

end RouteEvent

/-- The event that a change leaves if it is not refused. -/
def RouterCall.event? : RouterCall → Option RouteEvent
  | .addRoute cluster n => some (.added cluster n.name)
  | .removeRoute cluster n => some (.removed cluster n.name)
  | .setUp _ | .setLocalNode _ | .clear => none

/-! ### Requests -/

/-- What is asked of a router, or changed about it. -/
inductive RouterRequest where
  | change (x : RouterCall)
  | clusters
  | localRoute
  | lookup (l : Lookup)
  | keys (bucket : String) (keys : List String)
  | clusterRoute (c : Cluster)
  | broadcast

/-- An answer to a request. -/
inductive RouterReply where
  | settled (answer : Except Fault Unit)
  | clusters (answer : ClusterSet)
  | node (answer : Except Fault Node)
  | groups (answer : Except Fault KeyGroups)
  | nodes (answer : NodeSet)
  | broadcast (answer : List (Cluster × NodeSet))

namespace RouterRequest

/-- Whether it is asked to remove all nodes. -/
def clears : RouterRequest → Bool
  | .change .clear => true
  | _ => false

/-- The requests up to the last one to remove all nodes. -/
def untilClear (requests : List RouterRequest) : List RouterRequest :=
  requests.rdropWhile fun q => !q.clears

/-- The requests after the last one to remove all nodes. -/
def sinceClear (requests : List RouterRequest) : List RouterRequest :=
  requests.rtakeWhile fun q => !q.clears

lemma untilClear_append_sinceClear (requests : List RouterRequest) :
    untilClear requests ++ sinceClear requests = requests :=
  List.rdropWhile_append_rtakeWhile

variable {requests : List RouterRequest} {q : RouterRequest}

lemma sinceClear_concat (hq : q.clears = true) : sinceClear (requests ++ [q]) = [] :=
  List.rtakeWhile_concat_neg _ _ _ (by simp [hq])

lemma untilClear_concat (hq : q.clears = false) :
    untilClear (requests ++ [q]) = untilClear requests :=
  List.rdropWhile_concat_pos _ _ _ (by simp [hq])

end RouterRequest

namespace Router

variable {r r' : Router} {c : Cluster} {name : String}

/-- The answer to a request, and the router after it. -/
def serve (r : Router) : RouterRequest → RouterReply × Router
  | .change x => (.settled (r.call x).1, (r.call x).2)
  | .clusters => (.clusters r.clusters, r)
  | .localRoute => (.node r.localRoute, r)
  | .lookup l => (.node (r.nodeFor l), r)
  | .keys bucket keys => (.groups (r.groupKeys bucket keys), r)
  | .clusterRoute c => (.nodes (r.clusterRoute c), r)
  | .broadcast => (.broadcast r.broadcast, r)

/-- The router after several requests. -/
def afterRequests (r : Router) (requests : List RouterRequest) : Router :=
  requests.foldl (fun r q => (r.serve q).2) r

/-- The answers to several requests. -/
def replies (r : Router) : List RouterRequest → List RouterReply
  | [] => []
  | q :: requests => (r.serve q).1 :: (r.serve q).2.replies requests

/-! ### The log -/

/-- The events that a request leaves: none if it is refused. -/
def eventsOf (r : Router) : RouterRequest → List RouteEvent
  | .change x =>
    match (r.call x).1 with
    | .ok () => x.event?.toList
    | .error _ => []
  | _ => []

/-- The changes of routes among some requests. -/
def log (r : Router) : List RouterRequest → List RouteEvent
  | [] => []
  | q :: requests => r.eventsOf q ++ (r.serve q).2.log requests

/-- The changes of routes since all nodes were removed for the last time. -/
def recentLog (r : Router) (requests : List RouterRequest) : List RouteEvent :=
  (r.afterRequests (RouterRequest.untilClear requests)).log (RouterRequest.sinceClear requests)

lemma log_append (r : Router) (requests later : List RouterRequest) :
    r.log (requests ++ later) = r.log requests ++ (r.afterRequests requests).log later := by
  induction requests generalizing r with
  | nil => rfl
  | cons q requests ih =>
      rw [List.cons_append, log, log, ih, List.append_assoc]
      rfl

lemma afterRequests_concat (r : Router) (requests : List RouterRequest) (q : RouterRequest) :
    r.afterRequests (requests ++ [q]) = ((r.afterRequests requests).serve q).2 := by
  simp [afterRequests]

/-- The recent changes are the end of the log. -/
lemma log_eq_append_recentLog (r : Router) (requests : List RouterRequest) :
    r.log requests = r.log (RouterRequest.untilClear requests) ++ r.recentLog requests := by
  conv_lhs => rw [← RouterRequest.untilClear_append_sinceClear requests]
  exact log_append _ _ _

lemma recentLog_concat_clear (r : Router) (requests : List RouterRequest) {q : RouterRequest}
    (hq : q.clears = true) : r.recentLog (requests ++ [q]) = [] := by
  rw [recentLog, RouterRequest.sinceClear_concat hq, log]

lemma recentLog_concat (r : Router) (requests : List RouterRequest) {q : RouterRequest}
    (hq : q.clears = false) : r.recentLog (requests ++ [q]) =
      r.recentLog requests ++ (r.afterRequests requests).eventsOf q := by
  have hlog := r.log_eq_append_recentLog (requests ++ [q])
  rw [RouterRequest.untilClear_concat hq, log_append, r.log_eq_append_recentLog requests,
    List.append_assoc, log, log, List.append_nil] at hlog
  exact (List.append_cancel_left hlog).symm

/-! ### The log against the routes -/

/-- The names of the nodes that were added to a cluster. The node of this process is left out unless
it was added like any other one. -/
def routedNames (r : Router) (c : Cluster) : Finset String :=
  ({ r with localNode := none }.clusterRoute c).keySet

lemma routedNames_eq (r : Router) (c : Cluster) :
    r.routedNames c = (r.nodes.nodesOf c.name).keySet := rfl

/-- An added node has a name that was not routed before. -/
lemma replay_addRoute {d : Cluster} {n : Node} (h : r.addRoute d.name n = .ok r') :
    RouteEvent.replay? c.name [.added d n.name] (r.routedNames c) = some (r'.routedNames c) := by
  obtain ⟨-, p, hp, rfl⟩ := addRoute_eq_ok_iff.mp h
  rw [routedNames_eq, routedNames_eq, NodePlacement.nodesOf_add hp c.name]
  by_cases hd : d.name = c.name
  · rw [← hd]
    have hnew : n.name ∉ (r.nodes.nodesOf d.name).keySet := by
      rw [Keyed.mem_keySet, NodePlacement.not_contains_of_add hp]
      exact Bool.false_ne_true
    rw [if_pos rfl, Keyed.keySet_insert]
    simp [RouteEvent.replay?, RouteEvent.cluster, RouteEvent.step?, hnew]
  · rw [if_neg (Ne.symm hd)]
    simp [RouteEvent.replay?, RouteEvent.cluster, hd]

/-- A removed node has a name that was routed before. -/
lemma replay_removeRoute {d : Cluster} {n : Node} (h : r.removeRoute d.name n = .ok r') :
    RouteEvent.replay? c.name [.removed d n.name] (r.routedNames c) = some (r'.routedNames c) := by
  obtain ⟨-, p, hp, rfl⟩ := removeRoute_eq_ok_iff.mp h
  rw [routedNames_eq, routedNames_eq, NodePlacement.nodesOf_remove hp c.name]
  by_cases hd : d.name = c.name
  · rw [← hd]
    have hold : n.name ∈ (r.nodes.nodesOf d.name).keySet :=
      Keyed.mem_keySet.mpr (NodePlacement.contains_iff_remove.mpr ⟨p, hp⟩)
    rw [if_pos rfl, Keyed.keySet_erase]
    simp [RouteEvent.replay?, RouteEvent.cluster, RouteEvent.step?, hold]
  · rw [if_neg (Ne.symm hd)]
    simp [RouteEvent.replay?, RouteEvent.cluster, hd]

/-- The events of one request lead from the names before it to those after it, unless it removes all
nodes. -/
lemma replay_eventsOf (r : Router) (c : Cluster) {q : RouterRequest} (hq : q.clears = false) :
    RouteEvent.replay? c.name (r.eventsOf q) (r.routedNames c) =
      some ((r.serve q).2.routedNames c) := by
  cases q with
  | change x =>
      cases x with
      | addRoute d n =>
          rw [eventsOf, serve, call]
          cases h : r.addRoute d.name n with
          | ok r' => exact replay_addRoute h
          | error e => rfl
      | removeRoute d n =>
          rw [eventsOf, serve, call]
          cases h : r.removeRoute d.name n with
          | ok r' => exact replay_removeRoute h
          | error e => rfl
      | clear => cases hq
      | _ => rfl
  | _ => rfl

lemma routedNames_serve_clear (r : Router) (c : Cluster) {q : RouterRequest}
    (hq : q.clears = true) : (r.serve q).2.routedNames c = ∅ := by
  cases q with
  | change x =>
      cases x with
      | clear => exact congrArg Keyed.keySet (NodePlacement.nodesOf_clear r.nodes c.name)
      | _ => cases hq
  | _ => cases hq

/-- From no names at all, the recent changes lead to those that are routed now. -/
lemma replay_recentLog (hnodes : ∀ cluster, r.nodes.nodesOf cluster = ∅) (c : Cluster)
    (requests : List RouterRequest) :
    RouteEvent.replay? c.name (r.recentLog requests) ∅ =
      some ((r.afterRequests requests).routedNames c) := by
  induction requests using List.reverseRecOn with
  | nil => exact congrArg (fun nodes : NodeSet => some nodes.keySet) (hnodes c.name).symm
  | append_singleton requests q ih =>
      rw [afterRequests_concat]
      cases hq : q.clears with
      | true =>
          rw [recentLog_concat_clear _ _ hq, routedNames_serve_clear _ _ hq]
          rfl
      | false =>
          rw [recentLog_concat _ _ hq, RouteEvent.replay?_append, ih, Option.bind_some]
          exact replay_eventsOf _ c hq

end Router

/-! ### Routers with a record -/

/-- What is done with a router that has a record. -/
inductive RecordedStep where
  | request (q : RouterRequest)
  | takeEvents

/-- What came of several steps. -/
structure Transcript where
  replies : List RouterReply
  taken : List RouteEvent
  final : RecordedRouter

/-- The requests among some steps. -/
def RecordedStep.requests (steps : List RecordedStep) : List RouterRequest :=
  steps.filterMap fun
    | .request q => some q
    | .takeEvents => none

namespace RecordedRouter

variable {s : RecordedRouter}

/-- The answer to a request, and the router with its record after it. -/
def serve (s : RecordedRouter) : RouterRequest → RouterReply × RecordedRouter
  | .change x => (.settled (s.call x).1, (s.call x).2)
  | .clusters => (.clusters s.router.clusters, s)
  | .localRoute => (.node s.router.localRoute, s)
  | .lookup l => (.node (s.router.nodeFor l), s)
  | .keys bucket keys => (.groups (s.router.groupKeys bucket keys), s)
  | .clusterRoute c => (.nodes (s.router.clusterRoute c), s)
  | .broadcast => (.broadcast s.router.broadcast, s)

/-- What comes of several steps. -/
def run (s : RecordedRouter) : List RecordedStep → Transcript
  | [] => ⟨[], [], s⟩
  | .request q :: steps =>
    let t := (s.serve q).2.run steps
    { t with replies := (s.serve q).1 :: t.replies }
  | .takeEvents :: steps =>
    let t := s.takeEvents.2.run steps
    { t with taken := s.takeEvents.1 ++ t.taken }

/-- A change is answered as without a record, and recorded unless it is refused. -/
lemma call_eq (s : RecordedRouter) (x : RouterCall) : s.call x =
    ((s.router.call x).1, ⟨(s.router.call x).2, s.events ++ s.router.eventsOf (.change x)⟩) := by
  cases x with
  | addRoute cluster n =>
      rw [call, addRoute, Router.eventsOf, Router.call]
      cases s.router.addRoute cluster.name n with
      | ok r => rfl
      | error e => simp [Except.map]
  | removeRoute cluster n =>
      rw [call, removeRoute, Router.eventsOf, Router.call]
      cases s.router.removeRoute cluster.name n with
      | ok r => rfl
      | error e => simp [Except.map]
  | _ => simp [call, Router.eventsOf, Router.call, RouterCall.event?, setUp, setLocalNode, clear]

/-- A request is answered as without a record, and its events come after those recorded before. -/
lemma serve_eq (s : RecordedRouter) (q : RouterRequest) : s.serve q =
    ((s.router.serve q).1, ⟨(s.router.serve q).2, s.events ++ s.router.eventsOf q⟩) := by
  cases q with
  | change x => rw [serve, call_eq, Router.serve]
  | _ => simp [serve, Router.serve, Router.eventsOf]

lemma call_of_error {x : RouterCall} {e : Fault} (h : (s.call x).1 = .error e) :
    (s.call x).2 = s := by
  rw [call_eq] at h
  have hevents : s.router.eventsOf (.change x) = [] := by rw [Router.eventsOf, h]
  rw [call_eq, hevents, List.append_nil, Router.call_of_error h]

/-- Taking the events changes no answer, and whatever was taken or is still held is the log behind
the events held at first. -/
lemma run_eq (s : RecordedRouter) (steps : List RecordedStep) :
    (s.run steps).replies = s.router.replies (RecordedStep.requests steps) ∧
      (s.run steps).final.router = s.router.afterRequests (RecordedStep.requests steps) ∧
      (s.run steps).taken ++ (s.run steps).final.events =
        s.events ++ s.router.log (RecordedStep.requests steps) := by
  induction steps generalizing s with
  | nil => exact ⟨rfl, rfl, (List.append_nil _).symm⟩
  | cons step steps ih =>
      cases step with
      | request q =>
          obtain ⟨hreplies, hfinal, hevents⟩ := ih (s.serve q).2
          rw [serve_eq] at hreplies hfinal hevents
          rw [run, serve_eq]
          refine ⟨congrArg _ hreplies, hfinal, hevents.trans ?_⟩
          rw [List.append_assoc]
          rfl
      | takeEvents =>
          obtain ⟨hreplies, hfinal, hevents⟩ := ih s.takeEvents.2
          rw [run]
          refine ⟨hreplies, hfinal, ?_⟩
          rw [List.append_assoc, hevents]
          rfl

/-- A router with a record answers whatever it is asked, and whatever is changed about it, as the
bare router does. The events that were taken and those still held, one after the other, are the
changes of routes that were not refused. Those since all nodes were removed for the last time lead
from no names to the names of the nodes that are routed now, where every added name is new and every
removed one is there. A refused change leaves the router and its record as they were. -/
theorem events_replay {nodes : NodePlacement} (hnodes : nodes.Blank) (placement : ClusterPlacement)
    (steps : List RecordedStep) :
    let bare := Router.ofPlacements nodes placement
    let requests := RecordedStep.requests steps
    let t := (ofRouter bare).run steps
    t.replies = bare.replies requests ∧ t.final.router = bare.afterRequests requests ∧
    t.taken ++ t.final.events = bare.log requests ∧
    bare.log requests =
      bare.log (RouterRequest.untilClear requests) ++ bare.recentLog requests ∧
    (∀ c, RouteEvent.replay? c.name (bare.recentLog requests) ∅ =
      some (t.final.router.routedNames c)) ∧
    ∀ x e, (t.final.call x).1 = .error e → (t.final.call x).2 = t.final := by
  intro bare requests t
  obtain ⟨hreplies, hfinal, hevents⟩ := (ofRouter bare).run_eq steps
  refine ⟨hreplies, hfinal, hevents, bare.log_eq_append_recentLog requests, fun c => ?_,
    fun x e h => call_of_error h⟩
  rw [hfinal]
  exact Router.replay_recentLog hnodes.nodesOf_eq c requests

/-- The events are taken before all nodes are removed. Neither the refused additions nor the own
node of the cluster leave an event. The flag that the last addition passes by mistake is kept. -/
theorem events_replay_cleared :
    let bare := Router.ofPlacements (.hashed (.ofLimit 1 (.ofCode String.length)))
      (.ofHash (.ofCode String.length))
    let steps : List RecordedStep :=
      [.request (.change (.setUp (.ofList [.ofLocal "europe", .ofRemote "asia"]))),
        .request (.change (.setLocalNode ⟨"z", ⟨"host", 9⟩⟩)),
        .request (.change (.addRoute "asia" ⟨"a", ⟨"host", 1⟩⟩)),
        .request (.change (.addRoute "asia" ⟨"b", ⟨"host", 2⟩⟩)),
        .request (.change (.addRoute "africa" ⟨"b", ⟨"host", 2⟩⟩)), .takeEvents,
        .request (.change .clear),
        .request (.change (.addRoute (.ofLocal "asia") ⟨"b", ⟨"host", 2⟩⟩)),
        .request (.clusterRoute (.ofRemote "europe"))]
    let t := (ofRouter bare).run steps
    t.taken ++ t.final.events = [.added "asia" "a", .added (.ofLocal "asia") "b"] ∧
    RouteEvent.replay? "asia" [.added (.ofLocal "asia") "b"] ∅ =
      some (t.final.router.routedNames (.ofLocal "asia")) ∧
    (t.final.call (.addRoute "asia" ⟨"a", ⟨"host", 1⟩⟩)).1 = .error (.partitionsExhausted 1) ∧
    (t.final.call (.addRoute "asia" ⟨"a", ⟨"host", 1⟩⟩)).2 = t.final := by
  intro bare steps t
  obtain ⟨-, -, hlog, -, hnames, hrefused⟩ := events_replay
    (.hashed 1 (.ofCode String.length)) (.ofHash (.ofCode String.length)) steps
  have hfull : (t.final.call (.addRoute "asia" ⟨"a", ⟨"host", 1⟩⟩)).1 =
    .error (.partitionsExhausted 1) := by decide +kernel
  exact ⟨hlog.trans (by decide +kernel), hnames (.ofLocal "asia"), hfull, hrefused _ _ hfull⟩

end RecordedRouter

end Federation
