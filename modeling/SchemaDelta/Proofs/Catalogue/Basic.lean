import Mathlib.Data.Finset.Basic
import Mathlib.Data.Finset.Dedup
import Mathlib.Data.Finset.Lattice.Lemmas
import Mathlib.Data.Finset.SDiff
import Mathlib.Tactic.SplitIfs

/-!
# Catalogues of names

A catalogue is the set of the names that are in use. A name is entered only when it is free, and
struck out only when it is in use. Names are entered one after another exactly when they differ and
all are free (`foldlM_enter_iff`), and struck out exactly when they differ and all are in use
(`foldlM_strike_iff`).
-/

namespace SchemaDelta.Catalogue

variable {α : Type} [DecidableEq α]

/-- The catalogue with a name that was free. -/
def enter? (s : Finset α) (n : α) : Option (Finset α) :=
  if n ∈ s then none else some (insert n s)

/-- The catalogue without a name that was in use. -/
def strike? (s : Finset α) (n : α) : Option (Finset α) :=
  if n ∈ s then some (s.erase n) else none

/-- Names are entered one after another exactly when they differ and all are free. -/
theorem foldlM_enter_iff (ns : List α) (s t : Finset α) :
    ns.foldlM enter? s = some t ↔ ns.Nodup ∧ (∀ n ∈ ns, n ∉ s) ∧ t = s ∪ ns.toFinset := by
  induction ns generalizing s with
  | nil => simp [eq_comm]
  | cons n ns ih =>
    rw [List.foldlM_cons, enter?]
    by_cases hn : n ∈ s
    · simp [hn]
    · have hset : insert n s ∪ ns.toFinset = s ∪ (n :: ns).toFinset := by
        ext x
        simp only [Finset.mem_union, Finset.mem_insert, List.mem_toFinset, List.mem_cons]
        tauto
      have hfree : (∀ x ∈ ns, x ∉ insert n s) ↔ n ∉ ns ∧ ∀ x ∈ ns, x ∉ s := by
        simp only [Finset.mem_insert, not_or, forall₂_and]
        exact and_congr_left fun _ => ⟨fun h hn => h n hn rfl, fun h x hx he => h (he ▸ hx)⟩
      rw [if_neg hn, Option.bind_eq_bind, Option.bind_some, ih, hset, hfree, List.nodup_cons,
        List.forall_mem_cons]
      tauto

/-- Names are struck out one after another exactly when they differ and all are in use. -/
theorem foldlM_strike_iff (ns : List α) (s t : Finset α) :
    ns.foldlM strike? s = some t ↔ ns.Nodup ∧ (∀ n ∈ ns, n ∈ s) ∧ t = s \ ns.toFinset := by
  induction ns generalizing s with
  | nil => simp [eq_comm]
  | cons n ns ih =>
    rw [List.foldlM_cons, strike?]
    by_cases hn : n ∈ s
    · have hset : s.erase n \ ns.toFinset = s \ (n :: ns).toFinset := by
        ext x
        simp only [Finset.mem_sdiff, Finset.mem_erase, List.mem_toFinset, List.mem_cons]
        tauto
      have hused : (∀ x ∈ ns, x ∈ s.erase n) ↔ n ∉ ns ∧ ∀ x ∈ ns, x ∈ s := by
        simp only [Finset.mem_erase, forall₂_and]
        exact and_congr_left fun _ => ⟨fun h hn => h n hn rfl, fun h x hx he => h (he ▸ hx)⟩
      rw [if_pos hn, Option.bind_eq_bind, Option.bind_some, ih, hset, hused, List.nodup_cons,
        List.forall_mem_cons]
      tauto
    · simp [hn]

/-! ## Changes -/

/-- A change of a catalogue. -/
inductive Change where
  | create (name : String)
  | drop (name : String)
deriving DecidableEq

/-- The catalogue after a change. It fails when a name that is in use is to be created, also where
the statement would replace the object, and when a name that is not in use is to be dropped. -/
def Change.exec (s : Finset String) : Change → Option (Finset String)
  | create n => enter? s n
  | drop n => strike? s n

/-- Names are dropped one after another, and then others created, exactly when the dropped ones
differ and are in use, and the created ones differ and are free once the others are gone. -/
theorem foldlM_exec_iff (dropped created : List String) (s t : Finset String) :
    (dropped.map Change.drop ++ created.map Change.create).foldlM Change.exec s = some t ↔
      dropped.Nodup ∧ (∀ n ∈ dropped, n ∈ s) ∧
        created.Nodup ∧ (∀ n ∈ created, n ∉ s \ dropped.toFinset) ∧
          t = s \ dropped.toFinset ∪ created.toFinset := by
  have hdrop (s : Finset String) : (dropped.map Change.drop).foldlM Change.exec s =
      dropped.foldlM strike? s := by
    rw [List.foldlM_map]
    rfl
  have hcreate (s : Finset String) : (created.map Change.create).foldlM Change.exec s =
      created.foldlM enter? s := by
    rw [List.foldlM_map]
    rfl
  simp only [List.foldlM_append, hdrop, hcreate, Option.bind_eq_bind, Option.bind_eq_some_iff,
    foldlM_strike_iff, foldlM_enter_iff]
  constructor
  · rintro ⟨-, ⟨hdropped, hmem, rfl⟩, hcreated, hfree, ht⟩
    exact ⟨hdropped, hmem, hcreated, hfree, ht⟩
  · rintro ⟨hdropped, hmem, hcreated, hfree, ht⟩
    exact ⟨_, ⟨hdropped, hmem, rfl⟩, hcreated, hfree, ht⟩

end SchemaDelta.Catalogue
