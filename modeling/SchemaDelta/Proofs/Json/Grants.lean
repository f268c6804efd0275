import SchemaDelta.DataType.Resolve
import SchemaDelta.Delta.Item
import SchemaDelta.Proofs.Json.NumberText

/-!
# Texts from a document

What is known of all strings and keys of a document is known of each text that is read from it. The
property of values is a parameter: it need only go down to items and values, survive the overlay of
a role, and give the property of the texts.
-/

namespace SchemaDelta

open Text

/-- A text that may be missing has the property, and is not empty when it is there. -/
def Given (p : String → Prop) (o : Option String) : Prop :=
  ∀ s ∈ o, p s ∧ s ≠ ""

namespace Json

/-- Values with the property `P` hold only texts of the class `p`. -/
structure Grants (P : Json → Prop) (p : String → Prop) : Prop extends TextClass p where
  null : P .null
  string : ∀ {s : String}, P (.string s) → p s
  item : ∀ {items : List Json} {v : Json}, P (.array items) → v ∈ items → P v
  key : ∀ {r : Entries} {e : String × Json}, P (.object r) → e ∈ r → p e.1
  value : ∀ {r : Entries} {e : String × Json}, P (.object r) → e ∈ r → P e.2
  overlay : ∀ {node role : Entries}, P (.object node) → P (.object role) →
    P (.object (SchemaDelta.overlay node role))
  /-- The name at the end of a path to a type. -/
  segment : ∀ {r : Entries} {path : String}, P (.object r) → r.text? "$ref" = some path →
    p (DataType.lastSegment path)

/-- All values of the record have the property. -/
def Entries.Granted (P : Json → Prop) (r : Entries) : Prop :=
  ∀ e ∈ r, P e.2

namespace Grants

variable {P : Json → Prop} {p : String → Prop} {v : Json} {r : Entries}

/-- A text that is read from a value. -/
theorem text (g : Grants P p) (h : P v) : Given p v.text? := by
  intro s hs
  cases v with
  | string t =>
    simp only [text?] at hs
    split_ifs at hs with hb
    · exact absurd hs (by simp)
    · obtain rfl : t = s := by simpa using hs
      refine ⟨g.string h, ?_⟩
      rintro rfl
      exact hb rfl
  | number n =>
    obtain rfl : n.text = s := by simpa [text?] using hs
    exact ⟨g.plain n.isPlainText_text, n.text_ne_empty⟩
  | _ => simp [text?] at hs

/-- The entries of a record. -/
theorem record (g : Grants P p) {keys : List String} (h : P v) (hr : v.record? keys = some r) :
    r.Granted P := by
  intro e he
  cases v with
  | object entries =>
    obtain rfl : entries = r := by simpa [record?] using hr
    exact g.value h he
  | array items =>
    simp only [record?] at hr
    split_ifs at hr
    -- A list gives its values to the first keys.
    · obtain rfl : keys.zip items = r := by simpa using hr
      exact g.item h (List.of_mem_zip he).2
  | _ => simp [record?] at hr

/-- The entries of an object. -/
theorem entries (g : Grants P p) (h : P (.object r)) : r.Granted P :=
  fun _ he => g.value h he

/-- A value that is read as an object is that object. -/
theorem object (h : P v) (hr : v.object? = some r) : P (.object r) := by
  cases v with
  | object entries =>
    obtain rfl : entries = r := by simpa [object?] using hr
    exact h
  | _ => simp [object?] at hr

/-- The value of a key. -/
theorem field (g : Grants P p) (h : r.Granted P) (key : String) : P (r.value key) := by
  unfold Entries.value Entries.value?
  cases hl : r.lookup key with
  | none => exact g.null
  | some w =>
    obtain ⟨l, m, rfl, -⟩ := List.lookup_eq_some_iff.1 hl
    exact h (key, w) (by simp)

/-- The text of a key. -/
theorem fieldText (g : Grants P p) (h : r.Granted P) (key : String) : Given p (r.text? key) :=
  g.text (g.field h key)

variable {α : Type} {read? : Json → Option α} {Q : α → Prop}

/-- The elements of a list. -/
theorem list (g : Grants P p) (h : P v) (hread : ∀ {w x}, P w → read? w = some x → Q x) :
    ∀ x ∈ v.list read?, Q x := by
  intro x hx
  cases v with
  | array items =>
    obtain ⟨w, hw, hwx⟩ := List.mem_filterMap.1 hx
    exact hread (g.item h hw) hwx
  | object entries => exact hread h (Option.mem_toList.1 hx)
  | _ => simp [Json.list] at hx

/-- The entries of an object. -/
theorem table (g : Grants P p) (h : P v) (hread : ∀ {w x}, P w → read? w = some x → Q x) :
    ∀ e ∈ v.table read?, p e.1 ∧ Q e.2 := by
  intro e he
  cases v with
  | object entries =>
    obtain ⟨d, hd, hde⟩ := List.mem_filterMap.1 he
    obtain ⟨x, hx, rfl⟩ := Option.map_eq_some_iff.1 hde
    exact ⟨g.key h hd, hread (g.value h hd) hx⟩
  | _ => simp [Json.table] at he

/-- A nested value. -/
theorem nested (g : Grants P p) (h : P v) (hread : ∀ {w x}, P w → read? w = some x → Q x)
    {absent : α} (habsent : Q absent) : Q (v.nested read? absent) := by
  have hinner : ∀ x ∈ inner? read? v, Q x := by
    intro x hx
    cases v with
    | array items =>
      cases items with
      | nil => simp [inner?] at hx
      | cons w ws => exact hread (g.item h (by simp)) hx
    | _ => exact hread h hx
  unfold Json.nested
  cases hx : inner? read? v with
  | none => exact habsent
  | some x => exact hinner x hx

/-- A nested value that may be missing. -/
theorem nested? (g : Grants P p) (h : P v) (hread : ∀ {w x}, P w → read? w = some x → Q x)
    {absent : α} (habsent : Q absent) : ∀ x ∈ v.nested? read? absent, Q x := by
  intro x hx
  have hq : Q (v.nested read? absent) := g.nested h hread habsent
  unfold Json.nested? at hx
  split at hx
  · simp at hx
  · simp at hx
  · simp at hx
  · obtain rfl : Json.nested read? absent v = x := by simpa using hx
    exact hq

end Grants

end Json

end SchemaDelta
