import Mathlib.Tactic
import Federation.Pace.Policy

/-!
A log of the rounds of several clusters.

* `LogEntry`, `Log`: what is written down, the latest entry first.
* `Log.assigned?`: who runs the rounds of a cluster after all that is written down, and whether one
  of them is in progress. `Log.Holds`: whether a round holds an updater.
* `Log.Orderly`: every entry could be made after those before it.
* `Log.InProgress`: a round has begun, and was neither finished nor cancelled. In an orderly log the
  rounds in progress are of this kind (`Log.Orderly.inProgress`).
* `Log.Disciplined`: which rounds begin and end, in terms of the entries alone.
  `Log.Orderly.disciplined`: this is so in every orderly log.
-/

namespace Federation

/-- What is written down. Of a round that begins this includes whether others than rounds hold its
updater. -/
inductive LogEntry (υ : Type) where
  | scheduled (cluster : String) (updater : υ) (now : ℕ)
  | began (cluster : String) (updater : υ) (now : ℕ) (held : Bool)
  | finished (cluster : String) (outcome : Outcome)
  | closed
deriving DecidableEq

/-- The cluster that an entry is about. -/
def LogEntry.cluster? {υ : Type} : LogEntry υ → Option String
  | scheduled c _ _ | began c _ _ _ | finished c _ => some c
  | closed => none

/-- The entry tells of a round of a cluster. -/
inductive LogEntry.OfRound {υ : Type} (c : String) : LogEntry υ → Prop
  | began (u : υ) (now : ℕ) (held : Bool) : OfRound c (.began c u now held)
  | finished (outcome : Outcome) : OfRound c (.finished c outcome)

/-- Who runs the rounds of a cluster. -/
structure Assignment (υ : Type) where
  updater : υ
  inRound : Bool
deriving DecidableEq

/-- Entries, the latest one first. -/
abbrev Log (υ : Type) := List (LogEntry υ)

namespace Log

variable {υ : Type} {log older newer mid : Log υ} {c d : String} {u v : υ} {now : ℕ} {b : Bool}

/-- Whether all rounds were cancelled for good. -/
def isClosed (log : Log υ) : Bool :=
  log.any fun
    | .closed => true
    | _ => false

/-- Who runs the rounds of a cluster after all that is written down: who was asked last, unless all
rounds were cancelled. -/
def assigned? (c : String) : Log υ → Option (Assignment υ)
  | [] => none
  | .closed :: _ => none
  | .scheduled d u _ :: log =>
    if isClosed log then none else if d = c then some ⟨u, false⟩ else assigned? c log
  | .began d _ _ _ :: log =>
    if d = c then (assigned? c log).map fun a => { a with inRound := true } else assigned? c log
  | .finished d _ :: log =>
    if d = c then (assigned? c log).map fun a => { a with inRound := false } else assigned? c log

/-- A round of an updater was cancelled by a new series at this moment. -/
def Cancelled (now : ℕ) (u : υ) (log : Log υ) : Prop :=
  ∃ (newer older : Log υ) (c : String) (v : υ), log = newer ++ .scheduled c v now :: older ∧
    assigned? c older = some ⟨u, true⟩

/-- A round holds an updater: it is in progress, or it was cancelled at this moment. -/
def Holds (now : ℕ) (u : υ) (log : Log υ) : Prop :=
  (∃ c, assigned? c log = some ⟨u, true⟩) ∨ Cancelled now u log

/-- The entry may follow the log. A round begins only while none of its cluster is in progress, and
only for an updater that is held. -/
def Permits (log : Log υ) : LogEntry υ → Prop
  | .scheduled _ _ _ | .closed => True
  | .began c u now held => assigned? c log = some ⟨u, false⟩ ∧ (held = true ∨ Holds now u log)
  | .finished c _ => ∃ u, assigned? c log = some ⟨u, true⟩

/-- Every entry could be made after those before it. -/
def Orderly : Log υ → Prop
  | [] => True
  | e :: log => Permits log e ∧ Orderly log

/-! ### The end of a log -/

lemma isClosed_iff : isClosed log = true ↔ .closed ∈ log := by
  rw [isClosed, List.any_eq_true]
  constructor
  · rintro ⟨e, he, hclosed⟩
    cases e with
    | closed => exact he
    | _ => cases hclosed
  · exact fun h => ⟨_, h, rfl⟩

/-- Nobody runs any rounds once all of them were cancelled. -/
lemma assigned?_of_isClosed (h : isClosed log = true) : assigned? c log = none := by
  induction log with
  | nil => rfl
  | cons e log ih =>
      cases e with
      | closed => rfl
      | scheduled d u now => exact if_pos h
      | began d u now held =>
          rw [assigned?, ih h]
          exact ite_self none
      | finished d outcome =>
          rw [assigned?, ih h]
          exact ite_self none

lemma not_closed_of_assigned? {a : Assignment υ} (h : assigned? c log = some a) :
    .closed ∉ log := by
  intro hclosed
  cases h.symm.trans (assigned?_of_isClosed (isClosed_iff.mpr hclosed))

/-! ### What an entry changes -/

/-- What tells of rounds does not end a log. -/
lemma isClosed_append (h : ∀ e ∈ newer, e.OfRound c) : isClosed (newer ++ log) = isClosed log := by
  induction newer with
  | nil => rfl
  | cons e newer ih =>
      obtain ⟨he, hnewer⟩ := List.forall_mem_cons.mp h
      cases he with
      | began u now held => exact ih hnewer
      | finished outcome => exact ih hnewer

/-- What tells of rounds of a cluster says nothing about others. -/
lemma assigned?_append_of_ne (h : ∀ e ∈ newer, e.OfRound c) (hd : c ≠ d) :
    assigned? d (newer ++ log) = assigned? d log := by
  induction newer with
  | nil => rfl
  | cons e newer ih =>
      obtain ⟨he, hnewer⟩ := List.forall_mem_cons.mp h
      cases he with
      | began u now held => exact (if_neg hd).trans (ih hnewer)
      | finished outcome => exact (if_neg hd).trans (ih hnewer)

/-- Who runs the rounds of a cluster did so before an entry that is not about the cluster. -/
lemma assigned?_of_cons {e : LogEntry υ} {a : Assignment υ} (he : e.cluster? ≠ some c)
    (h : assigned? c (e :: log) = some a) : assigned? c log = some a := by
  have hne : ∀ {d}, e.cluster? = some d → d ≠ c := fun hd heq => he (hd.trans (congrArg some heq))
  cases e with
  | closed => cases h
  | scheduled d v now =>
      rw [assigned?, if_neg (hne rfl)] at h
      split at h
      · cases h
      · exact h
  | began d v now held =>
      rw [assigned?, if_neg (hne rfl)] at h
      exact h
  | finished d outcome =>
      rw [assigned?, if_neg (hne rfl)] at h
      exact h

/-- A round stays in progress until it is finished or another series is asked for. -/
lemma inRound_append (h : assigned? c (newer ++ older) = some ⟨u, b⟩)
    (hfinished : ∀ outcome, .finished c outcome ∉ newer)
    (hscheduled : ∀ v t, .scheduled c v t ∉ newer) (holder : assigned? c older ≠ some ⟨u, false⟩) :
    b = true := by
  induction newer with
  | nil =>
      cases b with
      | true => rfl
      | false => exact absurd h holder
  | cons e newer ih =>
      by_cases he : e.cluster? = some c
      · cases e with
        | closed => cases he
        | scheduled d v now =>
            obtain rfl := Option.some.inj he
            exact absurd List.mem_cons_self (hscheduled v now)
        | finished d outcome =>
            obtain rfl := Option.some.inj he
            exact absurd List.mem_cons_self (hfinished outcome)
        | began d v now held =>
            rw [List.cons_append, assigned?, if_pos (Option.some.inj he)] at h
            obtain ⟨a, -, heq⟩ := Option.map_eq_some_iff.mp h
            cases heq
            rfl
      · exact ih (assigned?_of_cons he h)
          (fun outcome hmem => hfinished outcome (List.mem_cons_of_mem e hmem))
          fun v t hmem => hscheduled v t (List.mem_cons_of_mem e hmem)

/-- What was cancelled still was, whatever else is written down. -/
lemma Cancelled.append (h : Cancelled now u log) (newer : Log υ) :
    Cancelled now u (newer ++ log) := by
  obtain ⟨mid, older, c, v, rfl, hu⟩ := h
  exact ⟨newer ++ mid, older, c, v, (List.append_assoc _ _ _).symm, hu⟩

/-! ### Orderly logs -/

lemma Orderly.of_append (h : Orderly (newer ++ log)) : Orderly log := by
  induction newer with
  | nil => exact h
  | cons e newer ih => exact ih h.2

/-- A series of rounds goes back to when one was asked for last. -/
lemma exists_scheduled (h : assigned? c log = some ⟨u, b⟩) :
    ∃ (newer older : Log υ) (now : ℕ), log = newer ++ .scheduled c u now :: older ∧
      ∀ v t, .scheduled c v t ∉ newer := by
  induction log generalizing b with
  | nil => cases h
  | cons e log ih =>
      -- an entry that asks for no series of the cluster comes after the one that did
      have hcons : ∀ {b}, (∀ v t, e ≠ .scheduled c v t) → assigned? c log = some ⟨u, b⟩ →
          ∃ (newer older : Log υ) (now : ℕ), e :: log = newer ++ .scheduled c u now :: older ∧
            ∀ v t, .scheduled c v t ∉ newer := by
        intro b he hlog
        obtain ⟨newer, older, now, rfl, hnewer⟩ := ih hlog
        exact ⟨e :: newer, older, now, rfl, fun v t =>
          List.not_mem_cons_of_ne_of_not_mem (he v t).symm (hnewer v t)⟩
      by_cases he : e.cluster? = some c
      · cases e with
        | closed => cases he
        | scheduled d v now =>
            obtain rfl := Option.some.inj he
            rw [assigned?, if_pos rfl] at h
            split at h
            · cases h
            · cases h
              exact ⟨[], log, now, rfl, fun _ _ => List.not_mem_nil⟩
        | began d v now held =>
            rw [assigned?, if_pos (Option.some.inj he)] at h
            obtain ⟨a, hlog, heq⟩ := Option.map_eq_some_iff.mp h
            cases heq
            exact hcons nofun hlog
        | finished d outcome =>
            rw [assigned?, if_pos (Option.some.inj he)] at h
            obtain ⟨a, hlog, heq⟩ := Option.map_eq_some_iff.mp h
            cases heq
            exact hcons nofun hlog
      · exact hcons (fun v t heq => he (heq ▸ rfl)) (assigned?_of_cons he h)

/-- A round of a cluster has begun, and since then it was neither finished nor cancelled. -/
def InProgress (c : String) (u : υ) (log : Log υ) : Prop :=
  ∃ (newer older : Log υ) (now : ℕ) (held : Bool), log = newer ++ .began c u now held :: older ∧
    (∀ outcome, .finished c outcome ∉ newer) ∧ (∀ v t, .scheduled c v t ∉ newer) ∧ .closed ∉ newer

/-- A round stays in progress after an entry that is not about its cluster. -/
lemma InProgress.cons {e : LogEntry υ} (h : InProgress c u log) (he : e.cluster? ≠ some c)
    (hclosed : e ≠ .closed) : InProgress c u (e :: log) := by
  obtain ⟨newer, older, now, held, rfl, hf, hs, hc⟩ := h
  refine ⟨e :: newer, older, now, held, rfl, fun outcome => ?_, fun v t => ?_, ?_⟩
  · exact List.not_mem_cons_of_ne_of_not_mem (fun heq => he (heq ▸ rfl)) (hf outcome)
  · exact List.not_mem_cons_of_ne_of_not_mem (fun heq => he (heq ▸ rfl)) (hs v t)
  · exact List.not_mem_cons_of_ne_of_not_mem hclosed.symm hc

/-- What is in progress by an orderly log has begun in it. -/
lemma Orderly.inProgress (hlog : Orderly log) (h : assigned? c log = some ⟨u, true⟩) :
    InProgress c u log := by
  induction log with
  | nil => cases h
  | cons e log ih =>
      obtain ⟨hpermits, hlog⟩ := hlog
      by_cases he : e.cluster? = some c
      · cases e with
        | closed => cases he
        | scheduled d v now =>
            rw [assigned?, if_pos (Option.some.inj he)] at h
            split at h
            · cases h
            · cases h
        | began d v now held =>
            obtain rfl := Option.some.inj he
            rw [assigned?, if_pos rfl, hpermits.1] at h
            cases h
            exact ⟨[], log, now, held, rfl, fun _ => List.not_mem_nil, fun _ _ => List.not_mem_nil,
              List.not_mem_nil⟩
        | finished d outcome =>
            rw [assigned?, if_pos (Option.some.inj he)] at h
            obtain ⟨a, -, heq⟩ := Option.map_eq_some_iff.mp h
            cases heq
      · refine (ih hlog (assigned?_of_cons he h)).cons he ?_
        rintro rfl
        cases h

/-- Which rounds begin and end. -/
structure Disciplined (log : Log υ) : Prop where
  /-- A round belongs to the series that was asked for last, and not all were cancelled. -/
  latest : ∀ {newer older : Log υ} {c : String} {u : υ} {now : ℕ} {held : Bool},
    log = newer ++ .began c u now held :: older → .closed ∉ older ∧
      ∃ (mid old : Log υ) (t : ℕ), older = mid ++ .scheduled c u t :: old ∧
        ∀ v t', .scheduled c v t' ∉ mid
  /-- Before the next round of a cluster the one before is finished or cancelled by a new series. -/
  apart : ∀ {newer mid old : Log υ} {c : String} {u v : υ} {now t : ℕ} {held h : Bool},
    log = newer ++ .began c u now held :: (mid ++ .began c v t h :: old) →
      (∃ outcome, .finished c outcome ∈ mid) ∨ ∃ w t', .scheduled c w t' ∈ mid
  /-- The updater of a round is held from outside, or by a round in progress, or by a round that a
  new series has cancelled at this moment. -/
  alive : ∀ {newer older : Log υ} {c : String} {u : υ} {now : ℕ} {held : Bool},
    log = newer ++ .began c u now held :: older → held = true ∨ (∃ d, InProgress d u older) ∨
      ∃ (mid old : Log υ) (d : String) (v : υ), older = mid ++ .scheduled d v now :: old ∧
        InProgress d u old
  ends : ∀ {newer older : Log υ} {c : String} {outcome : Outcome},
    log = newer ++ .finished c outcome :: older → ∃ u, InProgress c u older
  quiet : ∀ {newer older : Log υ}, log = newer ++ .closed :: older →
    ∀ c, ∀ e ∈ newer, ¬e.OfRound c

/-- In an orderly log rounds begin and end as they should. -/
theorem Orderly.disciplined (h : Orderly log) : Disciplined log where
  latest := by
    rintro newer older c u now held rfl
    obtain ⟨⟨hassigned, -⟩, -⟩ := h.of_append
    exact ⟨not_closed_of_assigned? hassigned, exists_scheduled hassigned⟩
  apart := by
    rintro newer mid old c u v now t held h' rfl
    obtain ⟨⟨hassigned, -⟩, -⟩ := h.of_append
    by_contra hnone
    rw [not_or, not_exists, not_exists] at hnone
    have hbegan : assigned? c (.began c v t h' :: old) ≠ some ⟨u, false⟩ := by
      rw [assigned?, if_pos rfl]
      intro heq
      obtain ⟨a, -, heq⟩ := Option.map_eq_some_iff.mp heq
      cases heq
    cases inRound_append hassigned hnone.1 (fun w t' hmem => hnone.2 w ⟨t', hmem⟩) hbegan
  alive := by
    rintro newer older c u now held rfl
    obtain ⟨⟨-, hheld⟩, hold⟩ := h.of_append
    refine hheld.imp_right (Or.imp ?_ ?_)
    · rintro ⟨d, hd⟩
      exact ⟨d, hold.inProgress hd⟩
    · rintro ⟨mid, old, d, v, rfl, hd⟩
      exact ⟨mid, old, d, v, rfl, (Orderly.of_append hold).2.inProgress hd⟩
  ends := by
    rintro newer older c outcome rfl
    obtain ⟨⟨u, hu⟩, hold⟩ := h.of_append
    exact ⟨u, hold.inProgress hu⟩
  quiet := by
    rintro newer older rfl c e hmem he
    obtain ⟨late, mid, rfl⟩ := List.append_of_mem hmem
    have hclosed : isClosed (mid ++ .closed :: older) = true := isClosed_iff.mpr (by simp)
    rw [List.append_assoc, List.cons_append] at h
    obtain ⟨hpermits, -⟩ := h.of_append
    cases he with
    | began u now held => cases (assigned?_of_isClosed hclosed).symm.trans hpermits.1
    | finished outcome =>
        obtain ⟨u, hu⟩ := hpermits
        cases (assigned?_of_isClosed hclosed).symm.trans hu

end Log

end Federation
