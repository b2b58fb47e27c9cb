import Mathlib.Tactic
import Federation.Proofs.Json.Scalars

/-!
Values, read as they are written.

* `Json.Whole`: every number in a value is a whole one. One number with a point has many forms, so
  only whole values are read as they were.
* `Json.ReadsBack`: a value is read from its text, whatever follows that ends a number.
* `Json.Whole.readsBack`: every whole value does, by `Json.readItems_of_readsBack` and
  `Json.readFields_of_readsBack` over its parts.
* `Json.parse?_render`: the text of a whole value denotes the value.
-/

namespace Federation.Json

variable {j : Json} {depth : ℕ} {l rest : List Char}

/-- Every number in a value is a whole one. -/
inductive Whole : Json → Prop
  | null : Whole null
  | bool (b : Bool) : Whole (bool b)
  | int (n : ℤ) : Whole (int n)
  | str (s : String) : Whole (str s)
  | arr {items : List Json} (h : ∀ j ∈ items, Whole j) : Whole (arr items)
  | obj {fields : List (String × Json)} (h : ∀ f ∈ fields, Whole f.2) : Whole (obj fields)

/-- A value is read from its text, whatever follows that ends a number. No value needs more depth
than it has characters. -/
def ReadsBack (j : Json) : Prop :=
  ∀ (depth : ℕ) ⦃rest : List Char⦄, EndsNumber rest → j.renderChars.length ≤ depth →
    readValue depth (j.renderChars ++ rest) = some (j, rest)

/-! ### Where a value starts -/

lemma readValue_number {c : Char} (h : c = '-' ∨ c.isDigit = true) (depth : ℕ) (l : List Char) :
    readValue (depth + 1) (c :: l) = readNumber (c :: l) := by
  -- none of the characters at which something else is read starts a number
  rw [readValue.eq_8]
  all_goals
    rintro l he
    rw [List.cons.injEq] at he
    obtain ⟨rfl, -⟩ := he
    revert h
    decide

/-- No value starts with a blank. -/
lemma skipBlanks_of_readValue (h : (readValue depth l).isSome = true) : skipBlanks l = l := by
  cases l with
  | nil => rfl
  | cons c l =>
      refine if_neg fun hblank => ?_
      simp only [Bool.or_eq_true, decide_eq_true_eq] at hblank
      rcases hblank with ((rfl | rfl) | rfl) | rfl <;> cases depth <;>
        exact Bool.false_ne_true h

lemma readValue_bracket (depth : ℕ) (l : List Char) : readValue depth (']' :: l) = none := by
  cases depth <;> rfl

/-- An array whose first item starts right behind the bracket. -/
lemma readValue_arr {d : ℕ} (h : (readValue d l).isSome = true) (depth : ℕ) :
    readValue (depth + 1) ('[' :: l) = (readItems depth l).map fun r => (arr r.1, r.2) := by
  simp only [readValue, skipBlanks_of_readValue h]
  split
  next => simp [readValue_bracket] at h
  next => rfl

/-- An object whose first field starts right behind the brace. -/
lemma readValue_obj (k : String) (depth : ℕ) (l : List Char) :
    readValue (depth + 1) ('\x7b' :: (renderText k ++ l)) =
      (readFields depth (renderText k ++ l)).map fun r => (obj r.1, r.2) := by
  rw [renderText_append]
  rfl

/-! ### Items and fields -/

lemma endsNumber_renderItems (js : List Json) (rest : List Char) :
    EndsNumber (renderItems js ++ rest) := by
  cases js <;> exact endsNumber_cons (by decide) _

lemma endsNumber_renderFields (fs : List (String × Json)) (rest : List Char) :
    EndsNumber (renderFields fs ++ rest) := by
  cases fs <;> exact endsNumber_cons (by decide) _

lemma readItems_last (h : readValue depth l = some (j, ']' :: rest)) :
    readItems (depth + 1) l = some ([j], rest) := by
  rw [readItems, h]
  rfl

lemma readItems_next {d : ℕ} (h : readValue depth l = some (j, ',' :: rest))
    (hrest : (readValue d rest).isSome = true) :
    readItems (depth + 1) l = (readItems depth rest).map fun r => (j :: r.1, r.2) := by
  rw [readItems, h]
  change (readItems depth (skipBlanks rest)).map _ = _
  rw [skipBlanks_of_readValue hrest]

/-- Items are read as they are written if each of them is. -/
lemma readItems_of_readsBack {js : List Json} (hj : j.ReadsBack) (hjs : ∀ i ∈ js, i.ReadsBack)
    (hdepth : j.renderChars.length + (renderItems js).length ≤ depth) (rest : List Char) :
    readItems depth (j.renderChars ++ (renderItems js ++ rest)) = some (j :: js, rest) := by
  induction js generalizing j depth with
  | nil =>
      rw [renderItems, List.length_singleton] at hdepth
      obtain ⟨depth, rfl⟩ : ∃ d, depth = d + 1 := ⟨depth - 1, by omega⟩
      exact readItems_last (hj _ (endsNumber_renderItems [] rest) (by omega))
  | cons i js ih =>
      simp only [renderItems, List.cons_append, List.length_cons, List.length_append] at hdepth
      obtain ⟨depth, rfl⟩ : ∃ d, depth = d + 1 := ⟨depth - 1, by omega⟩
      have hitem := hj depth (endsNumber_renderItems (i :: js) rest) (by omega)
      have hnext := hjs i List.mem_cons_self _ (endsNumber_renderItems js rest) le_rfl
      rw [renderItems, List.cons_append, List.cons_append, List.append_assoc] at hitem ⊢
      rw [readItems_next hitem (Option.isSome_of_eq_some hnext),
        ih (hjs i List.mem_cons_self) (fun i h => hjs i (List.mem_cons_of_mem _ h)) (by omega),
        Option.map_some]

lemma readFields_last (k : String) (h : readValue depth l = some (j, '\x7d' :: rest)) :
    readFields (depth + 1) (renderText k ++ ':' :: l) = some ([(k, j)], rest) := by
  have hl : skipBlanks l = l := skipBlanks_of_readValue (Option.isSome_of_eq_some h)
  rw [renderText_append, readFields, readText_flatMap_escape]
  simp [skipBlanks, hl, h]

lemma readFields_next (k : String) {name : String}
    (h : readValue depth l = some (j, ',' :: (renderText name ++ rest))) :
    readFields (depth + 1) (renderText k ++ ':' :: l) =
      (readFields depth (renderText name ++ rest)).map fun r => ((k, j) :: r.1, r.2) := by
  have hl : skipBlanks l = l := skipBlanks_of_readValue (Option.isSome_of_eq_some h)
  rw [renderText_append] at h ⊢
  rw [readFields, readText_flatMap_escape, renderText_append]
  simp [skipBlanks, hl, h]

/-- Fields are read as they are written if each of their values is. -/
lemma readFields_of_readsBack {k : String} {fs : List (String × Json)} (hj : j.ReadsBack)
    (hfs : ∀ f ∈ fs, f.2.ReadsBack)
    (hdepth : j.renderChars.length + (renderFields fs).length ≤ depth) (rest : List Char) :
    readFields depth (renderText k ++ ':' :: (j.renderChars ++ (renderFields fs ++ rest))) =
      some ((k, j) :: fs, rest) := by
  induction fs generalizing k j depth with
  | nil =>
      rw [renderFields, List.length_singleton] at hdepth
      obtain ⟨depth, rfl⟩ : ∃ d, depth = d + 1 := ⟨depth - 1, by omega⟩
      exact readFields_last k (hj _ (endsNumber_renderFields [] rest) (by omega))
  | cons f fs ih =>
      obtain ⟨name, i⟩ := f
      simp only [renderFields, List.cons_append, List.length_cons, List.length_append] at hdepth
      obtain ⟨depth, rfl⟩ : ∃ d, depth = d + 1 := ⟨depth - 1, by omega⟩
      have hfield := hj depth (endsNumber_renderFields ((name, i) :: fs) rest) (by omega)
      have hfields : renderFields ((name, i) :: fs) ++ rest =
          ',' :: (renderText name ++ ':' :: (i.renderChars ++ (renderFields fs ++ rest))) := by
        simp [renderFields]
      rw [hfields] at hfield ⊢
      have hi : i.ReadsBack := hfs _ List.mem_cons_self
      rw [readFields_next k hfield, ih hi (fun f h => hfs f (List.mem_cons_of_mem _ h)) (by omega),
        Option.map_some]

/-! ### Values -/

lemma ReadsBack.int (n : ℤ) : (int n).ReadsBack := by
  intro depth rest hrest hdepth
  obtain ⟨c, l, hc, hhead⟩ := exists_toString_eq_cons n
  have hnumber := readNumber_toString n hrest
  rw [renderChars, hc, List.length_cons] at hdepth
  obtain ⟨depth, rfl⟩ : ∃ d, depth = d + 1 := ⟨depth - 1, by omega⟩
  rw [hc, List.cons_append] at hnumber
  rw [renderChars, hc, List.cons_append, readValue_number hhead, hnumber]

lemma ReadsBack.arr {items : List Json} (h : ∀ j ∈ items, j.ReadsBack) :
    (arr items).ReadsBack := by
  intro depth rest hrest hdepth
  cases items with
  | nil =>
      cases depth with
      | zero => cases hdepth
      | succ depth => rfl
  | cons j js =>
      rw [renderChars, List.length_append, List.length_cons] at hdepth
      obtain ⟨depth, rfl⟩ : ∃ d, depth = d + 1 := ⟨depth - 1, by omega⟩
      have hj : j.ReadsBack := h j List.mem_cons_self
      have hfirst := hj _ (endsNumber_renderItems js rest) le_rfl
      have hitems := readItems_of_readsBack hj (fun i hi => h i (List.mem_cons_of_mem _ hi))
        (by omega : _ ≤ depth) rest
      rw [renderChars, List.cons_append, List.cons_append, List.append_assoc,
        readValue_arr (Option.isSome_of_eq_some hfirst), hitems, Option.map_some]

lemma ReadsBack.obj {fields : List (String × Json)} (h : ∀ f ∈ fields, f.2.ReadsBack) :
    (obj fields).ReadsBack := by
  intro depth rest hrest hdepth
  cases fields with
  | nil =>
      cases depth with
      | zero => cases hdepth
      | succ depth => rfl
  | cons f fs =>
      obtain ⟨k, j⟩ := f
      simp only [renderChars, List.cons_append, List.length_append, List.length_cons] at hdepth
      obtain ⟨depth, rfl⟩ : ∃ d, depth = d + 1 := ⟨depth - 1, by omega⟩
      have hj : j.ReadsBack := h _ List.mem_cons_self
      have hfields := readFields_of_readsBack (k := k) hj
        (fun f hf => h f (List.mem_cons_of_mem _ hf)) (by omega : _ ≤ depth) rest
      simp only [renderChars, List.cons_append, List.append_assoc]
      rw [readValue_obj, hfields, Option.map_some]

/-- Whole values are read from their texts. -/
lemma Whole.readsBack (hj : j.Whole) : j.ReadsBack := by
  induction hj with
  | null =>
      rintro (_ | depth) rest hrest hdepth
      · cases hdepth
      · rfl
  | bool b =>
      rintro (_ | depth) rest hrest hdepth
      · cases b <;> cases hdepth
      · cases b <;> rfl
  | int n => exact .int n
  | str s =>
      rintro (_ | depth) rest hrest hdepth
      · cases hdepth
      · rw [renderChars, renderText_append, readValue, readText_flatMap_escape, Option.map_some,
          String.ofList_toList]
  | arr _ ih => exact .arr ih
  | obj _ ih => exact .obj ih

/-- The text of a whole value denotes the value. -/
theorem parse?_render (hj : j.Whole) : parse? j.render = some j := by
  have hread := hj.readsBack (2 * j.renderChars.length + 2) endsNumber_nil (by omega)
  rw [List.append_nil] at hread
  rw [parse?, render, String.toList_ofList,
    skipBlanks_of_readValue (Option.isSome_of_eq_some hread), hread]
  rfl

end Federation.Json
