import Mathlib.Tactic
import Federation.Simulation.Network

/-!
Which nodes are connected.

* `Network.links`: the handles that were connected, and not disconnected since. What happens to it
  when a node is connected or disconnected (`Network.mem_links_connect`, `Network.links_disconnect`).
* `Network.Alternates`: no handle of a cluster was connected while it was connected already.
* `Network.stillConnected_eq_nil`: if that holds of all clusters, then without links no name was
  connected more often than disconnected.
-/

namespace Federation

namespace Contact

/-- The handles that are connected after some contacts, the latest first. -/
def links : List Contact → Finset Handle
  | [] => ∅
  | .connect h reached :: l => if reached then insert h (links l) else links l
  | .disconnect h :: l => (links l).erase h
  | .membership _ _ :: l => links l

/-- No handle of the cluster was connected while it was connected already. -/
def Alternate (cluster : String) : List Contact → Prop
  | [] => True
  | .connect h reached :: l =>
    (reached = true → h.cluster = cluster → h ∉ links l) ∧ Alternate cluster l
  | .disconnect _ :: l | .membership _ _ :: l => Alternate cluster l

end Contact

namespace Network

variable {net : Network} {c : String} {h x : Handle}

/-- The handles that are connected. -/
def links (net : Network) : Finset Handle := Contact.links net.journal

/-- No handle of the cluster was connected while it was connected already. -/
def Alternates (cluster : String) (net : Network) : Prop := Contact.Alternate cluster net.journal

/-! ### Contacts -/

lemma mem_links_connect : x ∈ (net.connect h).2.links ↔
    x ∈ net.links ∨ (x = h ∧ (net.connect h).1 = .ok ()) := by
  change x ∈ (if net.reaches h.node.address then insert h net.links else net.links) ↔ _
  rw [connect]
  split
  next => simp [or_comm]
  next => simp

lemma alternates_connect : (net.connect h).2.Alternates c ↔
    ((net.connect h).1 = .ok () → h.cluster = c → h ∉ net.links) ∧ net.Alternates c := by
  change (net.reaches h.node.address = true → _) ∧ _ ↔ _
  refine and_congr_left fun _ => imp_congr_left ?_
  rw [connect]
  split
  next hr => simp [hr]
  next hr => simp [hr]

@[simp] lemma links_disconnect : (net.disconnect h).links = net.links.erase h := rfl

@[simp] lemma alternates_disconnect : (net.disconnect h).Alternates c ↔ net.Alternates c := Iff.rfl

/-- Disconnecting several nodes leaves the links to the others. -/
lemma mem_links_foldl_disconnect {l : List Handle} :
    x ∈ (l.foldl disconnect net).links ↔ x ∈ net.links ∧ x ∉ l := by
  induction l generalizing net with
  | nil => simp
  | cons h l ih => rw [List.foldl_cons, ih, links_disconnect, Finset.mem_erase, List.mem_cons]; tauto

lemma alternates_foldl_disconnect {l : List Handle} :
    (l.foldl disconnect net).Alternates c ↔ net.Alternates c := by
  induction l generalizing net with
  | nil => rfl
  | cons h l ih => rw [List.foldl_cons, ih, alternates_disconnect]

/-! ### Counts -/

/-- Of the connections of a name, those that were not undone are links. -/
lemma connects_le (h : ∀ c, net.Alternates c) (name : String) : net.connects name ≤
    net.disconnects name + (net.links.filter fun h => h.node.name = name).card := by
  obtain ⟨views, down, conduct, exceptions, journal⟩ := net
  induction journal with
  | nil => exact Nat.zero_le _
  | cons x l ih =>
      specialize ih fun c => by
        have hc := h c
        cases x with
        | connect => exact hc.2
        | disconnect => exact hc
        | membership => exact hc
      simp only [connects, disconnects, links, List.countP_cons] at ih ⊢
      cases x with
      | connect x reached =>
          cases reached with
          | false => simpa [Contact.links] using ih
          | true =>
              have hnew : x ∉ Contact.links l := (h x.cluster).1 rfl rfl
              by_cases hname : x.node.name = name
              · simp only [Contact.links, if_true, Finset.filter_insert, hname]
                rw [Finset.card_insert_of_notMem fun hx => hnew (Finset.mem_filter.mp hx).1,
                  decide_true, if_pos rfl, if_neg Bool.false_ne_true]
                omega
              · simpa [Contact.links, Finset.filter_insert, hname] using ih
      | disconnect x =>
          -- an undone connection counts on the other side
          have herase : ((Contact.links l).filter fun h => h.node.name = name).card ≤
              (((Contact.links l).erase x).filter fun h => h.node.name = name).card +
                if x.node.name = name then 1 else 0 := by
            rw [Finset.filter_erase]
            split
            next => exact Nat.sub_le_iff_le_add.mp Finset.pred_card_le_card_erase
            next hname =>
              rw [Finset.erase_eq_of_notMem (a := x) fun hx => hname (Finset.mem_filter.mp hx).2]
              exact Nat.le_add_right _ _
          simp only [Contact.links, decide_eq_true_eq, Bool.false_eq_true, if_false] at ih ⊢
          omega
      | membership x reached => simpa [Contact.links] using ih

/-- Without links no name was connected more often than disconnected. -/
theorem stillConnected_eq_nil (h : ∀ c, net.Alternates c) (hlinks : net.links = ∅) :
    net.stillConnected = [] := by
  rw [stillConnected, List.filter_eq_nil_iff]
  intro name _
  have hle := connects_le h name
  rw [hlinks, Finset.filter_empty, Finset.card_empty, Nat.add_zero] at hle
  simpa using hle

end Network

end Federation
