import Federation.Proofs.Placement.Apportionment
import Federation.Proofs.Refusal

/-!
Rings in the course of changes.

* `RingCall`, `Ring.call`, `Ring.after`: a change asked of a ring, its answer with the ring after
  it, and the ring after a history of changes.
* `Ring.Stands`: a node was added by a history, and nothing that came later has removed it.
* `Ring.after_invariant`: after any history that began with an empty ring, the nodes are those that
  stand, the slots are apportioned among them, and what is refused next depends on nothing else.
-/

namespace Federation

/-- A change asked of a ring. -/
inductive RingCall where
  | add (n : Node)
  | remove (n : Node)
  | clear

/-- Whether a change takes the node of a name away. -/
def RingCall.Drops (name : String) : RingCall → Prop
  | add _ => False
  | remove n => n.name = name
  | clear => True

namespace Ring

/-- The answer to a change, and the ring after it. -/
def call (r : Ring) : RingCall → Except Fault Unit × Ring
  | .add n => settle r (r.add n)
  | .remove n => settle r (r.remove n)
  | .clear => (.ok (), r.clear)

/-- The ring after a history of changes, the first one first. -/
def after (r : Ring) (calls : List RingCall) : Ring := calls.foldl (fun r c => (r.call c).2) r

@[simp] lemma after_nil (r : Ring) : r.after [] = r := rfl

@[simp] lemma after_concat (r : Ring) (calls : List RingCall) (c : RingCall) :
    r.after (calls ++ [c]) = ((r.after calls).call c).2 := by
  simp [after]

/-- The node `n` was added at some point of the history, where this was not refused, and no change
after that point has taken it away. -/
def Stands (r : Ring) (calls : List RingCall) (n : Node) : Prop :=
  ∃ earlier later, calls = earlier ++ .add n :: later ∧
    ((r.after earlier).call (.add n)).1 = .ok () ∧ ∀ c ∈ later, ¬ c.Drops n.name

/-! ### Single changes -/

lemma add_eq (r : Ring) (n : Node) :
    r.add n = if r.nodes.size = r.max then .error (.partitionsExhausted r.max)
      else if ∃ m ∈ r.nodes.toList, m.name = n.name then .error (.duplicateNode r.cluster n.name)
      else .ok (r.withNodes (r.nodes.insert n)) := by
  simp only [add, Keyed.contains_iff]

lemma remove_eq (r : Ring) (n : Node) :
    r.remove n = if ∃ m ∈ r.nodes.toList, m.name = n.name then
      .ok (r.withNodes (r.nodes.erase n.name)) else .error (.unknownNode r.cluster n.name) := by
  simp only [remove, Keyed.contains_iff]

lemma Sound.call {r : Ring} (h : r.Sound) (c : RingCall) : (r.call c).2.Sound := by
  cases c with
  | add n => exact settle_induction h fun _ hr => h.add hr
  | remove n => exact settle_induction h fun _ hr => h.remove hr
  | clear => exact sound_clear r

/-- A change concerns the nodes only. -/
lemma call_fixed (r : Ring) (c : RingCall) :
    (r.call c).2.cluster = r.cluster ∧ (r.call c).2.max = r.max := by
  cases c with
  | add n =>
      refine settle_induction (P := fun s : Ring => s.cluster = r.cluster ∧ s.max = r.max)
        ⟨rfl, rfl⟩ fun s hs => ?_
      rw [(add_eq_ok_iff.mp hs).2.2]
      exact ⟨rfl, rfl⟩
  | remove n =>
      refine settle_induction (P := fun s : Ring => s.cluster = r.cluster ∧ s.max = r.max)
        ⟨rfl, rfl⟩ fun s hs => ?_
      rw [(remove_eq_ok_iff.mp hs).2]
      exact ⟨rfl, rfl⟩
  | clear => exact ⟨rfl, rfl⟩

/-- The nodes after a change: the one that it has added, and those that it has not taken away. -/
lemma mem_call_iff (r : Ring) (c : RingCall) (n : Node) :
    n ∈ (r.call c).2.nodes.toList ↔
      (c = .add n ∧ (r.call c).1 = .ok ()) ∨ (n ∈ r.nodes.toList ∧ ¬ c.Drops n.name) := by
  cases c with
  | add m =>
      simp only [call, RingCall.Drops, not_false_eq_true, and_true, RingCall.add.injEq]
      cases hadd : r.add m with
      | error e => simp
      | ok s =>
          obtain ⟨-, hnew, rfl⟩ := add_eq_ok_iff.mp hadd
          have hne := Keyed.contains_eq_false_iff.mp hnew
          rw [settle_ok, withNodes_nodes, Keyed.mem_insert, eq_comm (a := m)]
          exact or_congr (by simp) ⟨fun hn => hn.1, fun hn => ⟨hn, hne n hn⟩⟩
  | remove m =>
      simp only [call, RingCall.Drops, reduceCtorEq, false_and, false_or]
      cases hrem : r.remove m with
      | error e =>
          rw [settle_error]
          refine ⟨fun hn => ⟨hn, fun hname => ?_⟩, fun hn => hn.1⟩
          rw [remove_eq, if_pos ⟨n, hn, hname.symm⟩] at hrem
          exact absurd hrem (by simp)
      | ok s =>
          obtain ⟨-, rfl⟩ := remove_eq_ok_iff.mp hrem
          rw [settle_ok, withNodes_nodes, Keyed.mem_erase, ne_comm]
  | clear => simp [call, RingCall.Drops, clear]

/-! ### Histories -/

lemma sound_after (cluster : String) (max : ℕ) (hash : HashFunction) (calls : List RingCall) :
    ((empty cluster max hash).after calls).Sound := by
  induction calls using List.reverseRecOn with
  | nil => exact sound_empty cluster max hash
  | append_singleton calls c ih =>
      rw [after_concat]
      exact ih.call c

lemma after_fixed (r : Ring) (calls : List RingCall) :
    (r.after calls).cluster = r.cluster ∧ (r.after calls).max = r.max := by
  induction calls using List.reverseRecOn with
  | nil => exact ⟨rfl, rfl⟩
  | append_singleton calls c ih =>
      rw [after_concat, (call_fixed _ c).1, (call_fixed _ c).2]
      exact ih

lemma not_stands_nil (r : Ring) (n : Node) : ¬ r.Stands [] n := by
  rintro ⟨earlier, later, h, -⟩
  simp at h

/-- One more change adds to the nodes that stand or takes some of them away. -/
lemma stands_concat_iff (r : Ring) (calls : List RingCall) (c : RingCall) (n : Node) :
    r.Stands (calls ++ [c]) n ↔ (c = .add n ∧ ((r.after calls).call c).1 = .ok ()) ∨
      (r.Stands calls n ∧ ¬ c.Drops n.name) :=
  exists_split_concat_iff (P := fun earlier c => ((r.after earlier).call c).1 = .ok ())

/-- The nodes of a ring that began empty are those that stand. -/
lemma mem_after_iff (cluster : String) (max : ℕ) (hash : HashFunction) (calls : List RingCall)
    (n : Node) : n ∈ ((empty cluster max hash).after calls).nodes.toList ↔
      (empty cluster max hash).Stands calls n := by
  induction calls using List.reverseRecOn with
  | nil => exact iff_of_false (by simp [empty, layOut]) (not_stands_nil _ n)
  | append_singleton calls c ih => rw [after_concat, mem_call_iff, stands_concat_iff, ih]

/-- After any history of changes of an empty ring, refused ones included, the nodes are exactly the
ones that were added and not taken away since, each as it was added, and there are not more of them
than slots. The slots are apportioned among them. A further node is refused exactly if the ring is
full, or else if its name is taken, a removal exactly if the name is unknown, and a refusal changes
nothing. -/
theorem after_invariant (cluster : String) (max : ℕ) (hash : HashFunction) (calls : List RingCall) :
    let r := (empty cluster max hash).after calls
    r.max = max ∧
    (∀ n, n ∈ r.nodes.toList ↔ (empty cluster max hash).Stands calls n) ∧
    r.nodes.size ≤ max ∧
    r.Apportioned ∧
    (∀ n, (r.call (.add n)).1 =
      if r.nodes.size = max then .error (.partitionsExhausted max)
      else if ∃ m ∈ r.nodes.toList, m.name = n.name then .error (.duplicateNode cluster n.name)
      else .ok ()) ∧
    (∀ n, (r.call (.remove n)).1 =
      if ∃ m ∈ r.nodes.toList, m.name = n.name then .ok ()
      else .error (.unknownNode cluster n.name)) ∧
    (∀ c e, (r.call c).1 = .error e → (r.call c).2 = r) := by
  intro r
  have hsound : r.Sound := sound_after cluster max hash calls
  obtain ⟨hcluster, hmax⟩ : r.cluster = cluster ∧ r.max = max := after_fixed _ calls
  refine ⟨hmax, mem_after_iff cluster max hash calls, hmax ▸ hsound.fits, hsound.apportioned,
    fun n => ?_, fun n => ?_, fun c e he => ?_⟩
  · rw [call, add_eq, hmax, hcluster]
    split
    · rfl
    · split <;> rfl
  · rw [call, remove_eq, hcluster]
    split <;> rfl
  · cases c with
    | add n => exact settle_snd_of_error he
    | remove n => exact settle_snd_of_error he
    | clear => exact absurd he (by simp [call])

end Ring

end Federation
