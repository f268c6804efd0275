import Mathlib.Data.List.Basic
import SchemaDelta.Delta.Item

/-!
# Records that differ in one field

`Entries.without` takes a field out of a record. Records that agree in all fields but one are read
alike except where that field is read, and a role laid over both leaves them so. A scalar is no
record, so where an optional object belongs it counts as the value that tells nothing.
-/

namespace SchemaDelta

namespace Json

/-! ## Scalars -/

/-- The value is a boolean, a number or a text. -/
def isScalar : Json → Bool
  | .bool _ | .number _ | .string _ => true
  | _ => false

variable {v : Json}

/-- A scalar is no record, so where a record is optional it counts as given. -/
theorem nested?_of_isScalar {α : Type} {keys : List String} {read : Entries → α}
    (hv : v.isScalar = true) (absent : α) :
    v.nested? (fun w => (w.record? keys).map read) absent = some absent := by
  cases v <;> first | rfl | cases hv

namespace Entries

/-! ## Leaving a field out -/

/-- The record without one of its fields. -/
def without (key : String) (r : Entries) : Entries :=
  r.filter fun e => e.1 ≠ key

variable {key other : String} {r s : Entries}

/-- A field that is left out reads like `null`. -/
theorem value_without_self (key : String) (r : Entries) : (r.without key).value key = .null := by
  have hnone : (r.without key).lookup key = none := by
    rw [List.lookup_eq_none_iff]
    intro e he
    have hne : e.1 ≠ key := by simpa using (List.mem_filter.1 he).2
    simpa using hne.symm
  rw [value, value?, hnone, Option.getD_none]

/-- The other fields keep their values. -/
theorem value_without_of_ne (h : other ≠ key) (r : Entries) :
    (r.without key).value other = r.value other := by
  have hvalue : (r.without key).value? other = r.value? other := by
    induction r with
    | nil => rfl
    | cons e r ih =>
      obtain ⟨k, v⟩ := e
      by_cases hk : k = key
      · simpa [without, hk, value?_cons, h] using ih
      · have hkeep : without key ((k, v) :: r) = (k, v) :: without key r := by simp [without, hk]
        rw [hkeep, value?_cons, value?_cons, ih]
  rw [value, hvalue, value]

/-- The two records agree in all fields but one. -/
def AgreeBut (key : String) (r s : Entries) : Prop :=
  ∀ other, other ≠ key → r.value other = s.value other

theorem agreeBut_without (key : String) (r : Entries) : AgreeBut key r (r.without key) :=
  fun _ h => (value_without_of_ne h r).symm

theorem agreeBut_insert (key : String) (v : Json) (r : Entries) :
    AgreeBut key r (Entries.insert key v r) := by
  intro other hother
  rw [value, value, value?_insert_of_ne hother]

/-- A field that both records are given is the same in both. -/
theorem AgreeBut.insert (h : AgreeBut key r s) (k : String) (v : Json) :
    AgreeBut key (Entries.insert k v r) (Entries.insert k v s) := by
  intro other hother
  by_cases hk : other = k
  · subst hk
    simp [value, value?_insert_self]
  · have hvalue := h other hother
    unfold value at hvalue ⊢
    rwa [value?_insert_of_ne hk, value?_insert_of_ne hk]

/-- A role that is laid over both records leaves them in agreement. -/
theorem AgreeBut.overlay (h : AgreeBut key r s) (role : Entries) :
    AgreeBut key (overlay r role) (overlay s role) := by
  induction role generalizing r s with
  | nil => exact h
  | cons e role ih =>
    rw [overlay_cons, overlay_cons]
    split
    · exact ih h
    · exact ih (h.insert e.1 e.2)

end Entries

end Json

end SchemaDelta
