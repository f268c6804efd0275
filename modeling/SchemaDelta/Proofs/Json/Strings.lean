import SchemaDelta.Proofs.Json.Grants

/-!
# The strings of a document

All strings of a value and all keys of its objects, at any depth. A class of texts that holds of
them and that contains the parts of its texts holds of all that is read from the value.
-/

namespace SchemaDelta

open Text Sql

namespace Json

mutual

/-- The strings and the keys of a value, in order. -/
def strings : Json → List String
  | .string s => [s]
  | .array items => itemStrings items
  | .object entries => entryStrings entries
  | _ => []

/-- The strings of the items of an array. -/
def itemStrings : List Json → List String
  | [] => []
  | v :: r => strings v ++ itemStrings r

/-- The keys and the strings of the entries of an object. -/
def entryStrings : List (String × Json) → List String
  | [] => []
  | (k, v) :: r => k :: (strings v ++ entryStrings r)

end

theorem mem_itemStrings {items : List Json} {v : Json} {s : String} (hv : v ∈ items)
    (hs : s ∈ v.strings) : s ∈ itemStrings items := by
  induction items with
  | nil => cases hv
  | cons w items ih =>
    rw [itemStrings, List.mem_append]
    rcases List.mem_cons.1 hv with rfl | hv
    · exact .inl hs
    · exact .inr (ih hv)

theorem mem_entryStrings {r : Entries} {s : String} :
    s ∈ entryStrings r ↔ ∃ e ∈ r, s = e.1 ∨ s ∈ e.2.strings := by
  induction r with
  | nil => simp [entryStrings]
  | cons e r ih =>
    obtain ⟨k, v⟩ := e
    simp [entryStrings, ih, or_assoc]

/-! ## Overlays -/

/-- An entry of the result is the new one or an old one. -/
theorem Entries.mem_insert {key : String} {value : Json} {r : Entries} {e : String × Json}
    (h : e ∈ Entries.insert key value r) : e = (key, value) ∨ e ∈ r := by
  induction r with
  | nil => exact .inl (List.mem_singleton.1 h)
  | cons d r ih =>
    obtain ⟨k, v⟩ := d
    simp only [insert] at h
    split_ifs at h with hk
    · subst hk
      rcases List.mem_cons.1 h with h | h
      · exact .inl h
      · exact .inr (List.mem_cons_of_mem _ h)
    · rcases List.mem_cons.1 h with h | h
      · exact .inr (by simp [h])
      · exact (ih h).imp_right (List.mem_cons_of_mem _)

/-- An entry of an overlaid node comes from the node or from its role. -/
theorem mem_overlay {node role : Entries} {e : String × Json} (h : e ∈ overlay node role) :
    e ∈ node ∨ e ∈ role := by
  induction role generalizing node with
  | nil => exact .inl h
  | cons d role ih =>
    rw [overlay_cons] at h
    rcases ih h with h | h
    · split_ifs at h
      · exact .inl h
      · exact (Entries.mem_insert h).symm.imp_right fun h => by simp [h]
    · exact .inr (List.mem_cons_of_mem _ h)

/-! ## Classes of strings -/

/-- The name at the end of a path is a part of the path. -/
theorem lastSegment_isInfix (path : String) :
    (DataType.lastSegment path).toList <:+: path.toList := by
  rw [DataType.lastSegment, String.toList_ofList]
  obtain ⟨front, hfront⟩ := List.takeWhile_prefix (l := path.toList.reverse) (· ≠ '/')
  refine List.IsSuffix.isInfix ⟨front.reverse, ?_⟩
  rw [← List.reverse_append, hfront, List.reverse_reverse]

/-- A text under a key is one of the strings, or the plain text of a number. -/
theorem Entries.mem_or_isPlainText {r : Entries} {key text : String}
    (h : r.text? key = some text) : (key, .string text) ∈ r ∨ isPlainText text = true := by
  have hvalue : (r.value key).text? = some text := h
  unfold Entries.value Entries.value? at hvalue
  cases hl : r.lookup key with
  | none => simp [hl, Json.text?] at hvalue
  | some v =>
    obtain ⟨l, m, rfl, -⟩ := List.lookup_eq_some_iff.1 hl
    rw [hl, Option.getD_some] at hvalue
    cases v with
    | string t =>
      simp only [Json.text?] at hvalue
      split_ifs at hvalue
      obtain rfl := Option.some.inj hvalue
      exact .inl (by simp)
    | number n =>
      obtain rfl := Option.some.inj hvalue
      exact .inr n.isPlainText_text
    | _ => simp [Json.text?] at hvalue

/-- Values grant the class of their strings. -/
theorem grants_strings {p : String → Prop} (hc : TextClass p)
    (part : ∀ {s t : String}, p s → t.toList <:+: s.toList → p t) :
    Grants (fun v => ∀ s ∈ v.strings, p s) p where
  toTextClass := hc
  null _ hs := by cases hs
  string h := h _ List.mem_cons_self
  item h hv s hs := h s (mem_itemStrings hv hs)
  key h he := h _ (mem_entryStrings.2 ⟨_, he, .inl rfl⟩)
  value h he s hs := h s (mem_entryStrings.2 ⟨_, he, .inr hs⟩)
  overlay hnode hrole s hs := by
    obtain ⟨e, he, hes⟩ := mem_entryStrings.1 hs
    rcases mem_overlay he with he | he
    · exact hnode s (mem_entryStrings.2 ⟨e, he, hes⟩)
    · exact hrole s (mem_entryStrings.2 ⟨e, he, hes⟩)
  segment {r path} h hpath := by
    refine part ?_ (lastSegment_isInfix path)
    rcases Entries.mem_or_isPlainText hpath with hmem | hplain
    · exact h path (mem_entryStrings.2 ⟨_, hmem, .inr (by simp [strings])⟩)
    · exact hc.plain hplain

/-- A document whose strings have no line feed. -/
theorem grants_one_line :
    Grants (fun v => ∀ s ∈ v.strings, '\n' ∉ s.toList) fun s => '\n' ∉ s.toList :=
  grants_strings textClass_of_one_line fun hs ht hmem => hs (ht.subset hmem)

/-- A document whose strings have no marks of block comments. -/
theorem grants_markFree :
    Grants (fun v => ∀ s ∈ v.strings, MarkFree s.toList) fun s => MarkFree s.toList :=
  grants_strings textClass_of_markFree fun hs ht => hs.part ht

/-- A document whose strings have no comment marks. -/
theorem grants_commentFree :
    Grants (fun v => ∀ s ∈ v.strings, CommentFree s.toList) fun s => CommentFree s.toList :=
  grants_strings textClass_of_commentFree fun hs ht => hs.part ht

end Json

end SchemaDelta
