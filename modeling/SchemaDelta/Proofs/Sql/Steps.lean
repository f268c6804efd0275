import Mathlib.Data.List.Induction
import Mathlib.Tactic.SplitIfs
import SchemaDelta.Sql.Template

/-!
# Slots filled step by step

A step sets a slot, sets it to a value that may be missing, or sets it to a keyword under a
condition. Only what is written to a slot last counts (`SlotValues.get?_ofSteps`), and a template
reads no slot but its own, so the order of the steps is free as far as they write to different slots
(`Template.fill_ofSteps`).
-/

namespace SchemaDelta.Sql

/-- A step in which a slot is filled. -/
inductive SlotStep where
  | set (name value : String)
  | opt (name : String) (value : Option String)
  | flag (name : String) (on : Bool) (keyword : String)

namespace SlotStep

/-- The slot that the step is about. -/
def name : SlotStep → String
  | set name _ | opt name _ | flag name _ _ => name

/-- What the step writes, if it writes at all. -/
def text? : SlotStep → Option String
  | set _ value => some value
  | opt _ value => value
  | flag _ on keyword => if on then some keyword else none

/-- The values after the step. -/
def run (v : SlotValues) : SlotStep → SlotValues
  | set name value => v.set name value
  | opt name value => v.opt name value
  | flag name on keyword => v.flag name on keyword

/-- A step sets its slot to what it writes, or does nothing. -/
theorem run_eq (v : SlotValues) (a : SlotStep) : a.run v = a.text?.elim v (v.set a.name) := by
  cases a with
  | set name value => rfl
  | opt name value => cases value <;> rfl
  | flag name on keyword => cases on <;> rfl

end SlotStep

/-- The values after the steps. -/
def SlotValues.ofSteps (steps : List SlotStep) : SlotValues :=
  steps.foldl SlotStep.run {}

/-- What the steps write to the slot last, if any of them writes to it. -/
def lastWrite? (name : String) (steps : List SlotStep) : Option String :=
  ((steps.filter fun s => s.name = name).filterMap SlotStep.text?).getLast?

/-! ## The last write -/

variable {name : String} {xs ys zs : List SlotStep} {a b : SlotStep}

theorem lastWrite?_singleton (name : String) (a : SlotStep) :
    lastWrite? name [a] = if a.name = name then a.text? else none := by
  rw [lastWrite?]
  split_ifs with h
  · rw [List.filter_cons_of_pos (by simpa using h), List.filter_nil, List.filterMap_cons]
    cases a.text? <;> rfl
  · rw [List.filter_cons_of_neg (by simpa using h)]
    rfl

/-- A later write takes the place of an earlier one. -/
theorem lastWrite?_append (name : String) (xs ys : List SlotStep) :
    lastWrite? name (xs ++ ys) = (lastWrite? name ys).or (lastWrite? name xs) := by
  rw [lastWrite?, List.filter_append, List.filterMap_append, List.getLast?_append]
  rfl

/-- Steps that write nothing to the slot leave it as it is. -/
theorem lastWrite?_eq_none (h : ∀ z ∈ zs, z.name ≠ name ∨ z.text? = none) :
    lastWrite? name zs = none := by
  rw [lastWrite?, List.getLast?_eq_none_iff, List.filterMap_eq_nil_iff]
  intro z hz
  obtain ⟨hmem, hname⟩ := List.mem_filter.1 hz
  exact (h z hmem).resolve_left (not_not_intro (of_decide_eq_true hname))

/-- Two steps for different slots may be taken in either order. -/
theorem lastWrite?_swap (h : a.name ≠ b.name) (name : String) :
    lastWrite? name [a, b] = lastWrite? name [b, a] := by
  have hab : lastWrite? name [a, b] = (lastWrite? name [b]).or (lastWrite? name [a]) :=
    lastWrite?_append name [a] [b]
  have hba : lastWrite? name [b, a] = (lastWrite? name [a]).or (lastWrite? name [b]) :=
    lastWrite?_append name [b] [a]
  rw [hab, hba]
  -- At most one of them is about the slot.
  by_cases ha : a.name = name
  · have hb : lastWrite? name [b] = none := by
      rw [lastWrite?_singleton, if_neg fun hb => h (ha.trans hb.symm)]
    rw [hb, Option.none_or, Option.or_none]
  · have ha : lastWrite? name [a] = none := by rw [lastWrite?_singleton, if_neg ha]
    rw [ha, Option.none_or, Option.or_none]

/-- Nothing is left of a slot whose steps are taken out. -/
theorem lastWrite?_filter_self (name : String) (xs : List SlotStep) :
    lastWrite? name (xs.filter fun s => s.name ≠ name) = none := by
  refine lastWrite?_eq_none fun z hz => .inl ?_
  simpa using (List.mem_filter.1 hz).2

/-- The other slots keep their steps. -/
theorem lastWrite?_filter_of_ne {other : String} (h : other ≠ name) (xs : List SlotStep) :
    lastWrite? other (xs.filter fun s => s.name ≠ name) = lastWrite? other xs := by
  have hfilter : (xs.filter fun s => s.name ≠ name).filter (fun s => s.name = other) =
      xs.filter fun s => s.name = other := by
    rw [List.filter_filter]
    refine List.filter_congr fun s _ => ?_
    by_cases hs : s.name = other
    · simp [hs, h]
    · simp [hs]
  rw [lastWrite?, lastWrite?, hfilter]

/-! ## Values and texts -/

namespace SlotValues

/-- A step gives its slot what it writes, where an empty text counts as none, and leaves the others
as they are. -/
theorem get?_run (v : SlotValues) (a : SlotStep) (name : String) :
    (a.run v).get? name =
      (lastWrite? name [a]).elim (v.get? name) fun t => if t.isEmpty then none else some t := by
  rw [SlotStep.run_eq, lastWrite?_singleton]
  cases a.text? with
  | none => simp
  | some t =>
    by_cases h : a.name = name
    · rw [if_pos h, ← h]
      exact v.get?_set_self a.name t
    · rw [if_neg h]
      exact v.get?_set_of_ne (Ne.symm h) t

/-- The value of a slot is what was written to it last, unless that is empty. -/
theorem get?_ofSteps (name : String) (xs : List SlotStep) :
    (ofSteps xs).get? name = (lastWrite? name xs).filter fun t => !t.isEmpty := by
  -- From the back, because the last step decides.
  induction xs using List.reverseRecOn with
  | nil => rfl
  | append_singleton xs a ih =>
    rw [ofSteps, List.foldl_append, List.foldl_cons, List.foldl_nil, get?_run, lastWrite?_append]
    cases lastWrite? name [a] with
    | none => exact ih
    | some t =>
      rw [Option.elim_some, Option.some_or, Option.filter_some]
      cases t.isEmpty <;> rfl

end SlotValues

namespace Template

/-- A template depends on the values of its own slots only. -/
theorem fill_congr {t : Template} {v w : SlotValues}
    (h : ∀ name ∈ t.slots, v.get? name = w.get? name) : t.fill v = t.fill w := by
  have hfill : ∀ p ∈ t.segments, Piece.fill v p = Piece.fill w p := by
    intro p hp
    cases p with
    | text s => rfl
    | slot name before after =>
      have hname : name ∈ t.slots := List.mem_filterMap.2 ⟨_, hp, rfl⟩
      rw [Piece.fill, Piece.fill, h name hname]
  rw [fill, fill, List.map_congr_left hfill]

/-- Steps with the same last writes to the slots of a template fill it with the same text. -/
theorem fill_eq_of_lastWrite? {t : Template}
    (h : ∀ name ∈ t.slots, lastWrite? name xs = lastWrite? name ys) :
    t.fill (.ofSteps xs) = t.fill (.ofSteps ys) := by
  refine fill_congr fun name hname => ?_
  rw [SlotValues.get?_ofSteps, SlotValues.get?_ofSteps, h name hname]

/-- **The order of the steps is free.** The text of a template depends on no more than the last
write to each of its slots. So two neighbouring steps for different slots may change places, steps
for other names and steps that write nothing may be added, and a slot that is emptied at last is as
if it had never been filled. -/
theorem fill_ofSteps (t : Template) :
    (∀ xs ys : List SlotStep, (∀ name ∈ t.slots, lastWrite? name xs = lastWrite? name ys) →
      t.fill (.ofSteps xs) = t.fill (.ofSteps ys)) ∧
    (∀ (xs ys : List SlotStep) (a b : SlotStep), a.name ≠ b.name →
      t.fill (.ofSteps (xs ++ a :: b :: ys)) = t.fill (.ofSteps (xs ++ b :: a :: ys))) ∧
    (∀ xs zs ys : List SlotStep, (∀ z ∈ zs, z.name ∉ t.slots ∨ z.text? = none) →
      t.fill (.ofSteps (xs ++ zs ++ ys)) = t.fill (.ofSteps (xs ++ ys))) ∧
    ∀ (xs : List SlotStep) (name : String), lastWrite? name xs = some "" →
      t.fill (.ofSteps xs) = t.fill (.ofSteps (xs.filter fun s => s.name ≠ name)) := by
  refine ⟨fun xs ys => fill_eq_of_lastWrite?, fun xs ys a b hne => ?_, fun xs zs ys hz => ?_,
    fun xs name hlast => fill_congr fun other _ => ?_⟩
  · have hpair (c d : SlotStep) : xs ++ c :: d :: ys = xs ++ ([c, d] ++ ys) := rfl
    refine fill_eq_of_lastWrite? fun name _ => ?_
    rw [hpair, hpair, lastWrite?_append, lastWrite?_append, lastWrite?_append, lastWrite?_append,
      lastWrite?_swap hne]
  · refine fill_eq_of_lastWrite? fun name hname => ?_
    have hnone : lastWrite? name zs = none := lastWrite?_eq_none fun z hmem =>
      (hz z hmem).imp_left fun hother he => hother (he ▸ hname)
    rw [List.append_assoc, lastWrite?_append, lastWrite?_append, lastWrite?_append, hnone,
      Option.or_none]
  · rw [SlotValues.get?_ofSteps, SlotValues.get?_ofSteps]
    by_cases h : other = name
    -- An empty value counts as none.
    · rw [h, hlast, lastWrite?_filter_self]
      rfl
    · rw [lastWrite?_filter_of_ne h]

/-- A template in which one slot stands twice. -/
def renameBack : Template where
  name := "renameBack"
  segments := [.text "RENAME ", .slot "name" "" "", .slot "kind" " AS " "", .text " TO ",
    .slot "name" "" "_OLD", .text ";"]

/-- An earlier write, a flag that is off, a name without a slot and a slot that is emptied leave no
trace in a template. -/
theorem fill_ofSteps_renameBack :
    (∀ name ∈ renameBack.slots,
      lastWrite? name [.set "name" "A", .flag "kind" false "VIEW", .set "name" "B"] =
        lastWrite? name [.opt "name" (some "B")]) ∧
    renameBack.fill (.ofSteps [.set "name" "A", .flag "kind" false "VIEW", .set "name" "B"]) =
      renameBack.fill (.ofSteps [.opt "name" (some "B")]) ∧
    (SlotStep.flag "kind" true "VIEW").name ≠ (SlotStep.set "name" "B").name ∧
    renameBack.fill (.ofSteps ([] ++ .flag "kind" true "VIEW" :: .set "name" "B" :: [])) =
      renameBack.fill (.ofSteps ([] ++ .set "name" "B" :: .flag "kind" true "VIEW" :: [])) ∧
    (∀ z ∈ [SlotStep.set "other" "C", .opt "kind" none],
      z.name ∉ renameBack.slots ∨ z.text? = none) ∧
    renameBack.fill (.ofSteps ([] ++ [.set "other" "C", .opt "kind" none] ++ [.set "name" "B"])) =
      renameBack.fill (.ofSteps ([] ++ [.set "name" "B"])) ∧
    lastWrite? "kind" [.set "kind" "VIEW", .set "name" "B", .set "kind" ""] = some "" ∧
    renameBack.fill (.ofSteps [.set "kind" "VIEW", .set "name" "B", .set "kind" ""]) =
      renameBack.fill (.ofSteps
        ([.set "kind" "VIEW", .set "name" "B", .set "kind" ""].filter fun s => s.name ≠ "kind")) ∧
    renameBack.fill (.ofSteps [.set "name" "B"]) = "RENAME B TO B_OLD;" := by
  have hlast : ∀ name ∈ renameBack.slots,
      lastWrite? name [.set "name" "A", .flag "kind" false "VIEW", .set "name" "B"] =
        lastWrite? name [.opt "name" (some "B")] := by
    decide
  have hidle : ∀ z ∈ [SlotStep.set "other" "C", .opt "kind" none],
      z.name ∉ renameBack.slots ∨ z.text? = none := by
    decide
  obtain ⟨hwrites, hswap, hadd, hempty⟩ := fill_ofSteps renameBack
  exact ⟨hlast, hwrites _ _ hlast, by decide, hswap [] [] _ _ (by decide), hidle,
    hadd [] _ _ hidle, by decide, hempty _ "kind" (by decide), by decide +kernel⟩

end Template

end SchemaDelta.Sql
