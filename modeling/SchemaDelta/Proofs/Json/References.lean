import SchemaDelta.Proofs.Json.Strings

/-!
# The references of a document

The name at the end of a reference is written without the rest of the path, so what holds of the
strings of a document need not hold of that name: a property of the references themselves has to
give it.
-/

namespace SchemaDelta

open Text

namespace Json

/-- The reference that an entry of an object is. -/
def ownReference : String × Json → List String
  | ("$ref", .string s) => [s]
  | _ => []

mutual

/-- The references of a value at any depth, in order. -/
def references : Json → List String
  | .array items => itemReferences items
  | .object entries => entryReferences entries
  | _ => []

/-- The references in the items of an array. -/
def itemReferences : List Json → List String
  | [] => []
  | v :: r => references v ++ itemReferences r

/-- The references among the entries of an object and in their values. -/
def entryReferences : List (String × Json) → List String
  | [] => []
  | (k, v) :: r => ownReference (k, v) ++ references v ++ entryReferences r

end

theorem mem_itemReferences {items : List Json} {v : Json} {s : String} (hv : v ∈ items)
    (hs : s ∈ v.references) : s ∈ itemReferences items := by
  induction items with
  | nil => cases hv
  | cons w items ih =>
    rw [itemReferences, List.mem_append]
    rcases List.mem_cons.1 hv with rfl | hv
    · exact .inl hs
    · exact .inr (ih hv)

theorem mem_entryReferences {r : Entries} {s : String} :
    s ∈ entryReferences r ↔ ∃ e ∈ r, s ∈ ownReference e ∨ s ∈ e.2.references := by
  induction r with
  | nil => simp [entryReferences]
  | cons e r ih =>
    obtain ⟨k, v⟩ := e
    simp [entryReferences, ih, or_assoc]

/-- Values grant the class of their strings where a property of their references gives that class
for the name at the end. -/
theorem grants_references {p q : String → Prop} (hc : TextClass p)
    (plain : ∀ {s : String}, isPlainText s = true → q s)
    (segment : ∀ {path : String}, q path → p (DataType.lastSegment path)) :
    Grants (fun v => (∀ s ∈ v.strings, p s) ∧ ∀ s ∈ v.references, q s) p where
  toTextClass := hc
  null := ⟨fun _ hs => (by cases hs), fun _ hs => (by cases hs)⟩
  string h := h.1 _ List.mem_cons_self
  item h hv := ⟨fun s hs => h.1 s (mem_itemStrings hv hs),
    fun s hs => h.2 s (mem_itemReferences hv hs)⟩
  key h he := h.1 _ (mem_entryStrings.2 ⟨_, he, .inl rfl⟩)
  value h he := ⟨fun s hs => h.1 s (mem_entryStrings.2 ⟨_, he, .inr hs⟩),
    fun s hs => h.2 s (mem_entryReferences.2 ⟨_, he, .inr hs⟩)⟩
  overlay hnode hrole := by
    -- An entry of the result, with what hangs from it, is one of the node or of the role.
    constructor
    · intro s hs
      obtain ⟨e, he, hes⟩ := mem_entryStrings.1 hs
      rcases mem_overlay he with he | he
      · exact hnode.1 s (mem_entryStrings.2 ⟨e, he, hes⟩)
      · exact hrole.1 s (mem_entryStrings.2 ⟨e, he, hes⟩)
    · intro s hs
      obtain ⟨e, he, hes⟩ := mem_entryReferences.1 hs
      rcases mem_overlay he with he | he
      · exact hnode.2 s (mem_entryReferences.2 ⟨e, he, hes⟩)
      · exact hrole.2 s (mem_entryReferences.2 ⟨e, he, hes⟩)
  segment {r path} h hpath := by
    rcases Entries.mem_or_isPlainText hpath with hmem | hplain
    · exact segment (h.2 path (mem_entryReferences.2 ⟨_, hmem, .inl (by simp [ownReference])⟩))
    · exact segment (plain hplain)

end Json

end SchemaDelta
