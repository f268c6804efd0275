import SchemaDelta.Proofs.Clause.Column
import SchemaDelta.Proofs.Model.EntityTexts
import SchemaDelta.Proofs.Script.Sealed

/-!
# Views are made of phrases

The query of a view is a text of the document or is made of the keys. A query without keys that can
be written still has its verb.
-/

namespace SchemaDelta

open Sql Text

variable {p : String → Prop} {b : Bool}

/-! ## Keys -/

/-- The texts of a key are of the class. -/
def ViewKey.Texts (p : String → Prop) : ViewKey → Prop
  | expression text => p text ∧ text ≠ ""
  | column table name shownAs _ => Given p table ∧ p name ∧ Given p shownAs

theorem ViewKey.texts_ofNode (hc : TextClass p) {n : Model.ViewKey} (h : n.Texts p) {k : ViewKey}
    (hk : ViewKey.ofNode? n = some k) : k.Texts p := by
  cases n with
  | expression s =>
    obtain ⟨t, ht, rfl⟩ := Option.map_eq_some_iff.1 hk
    exact given_trimmed? hc h t ht
  | column c =>
    obtain ⟨name, hname, rfl⟩ := Option.map_eq_some_iff.1 hk
    exact ⟨h.table, (h.name name hname).1, h.shownAs⟩

/-- The table of a key is a phrase. -/
theorem ViewKey.phrase_source (hc : TextClass p) {k : ViewKey} (h : k.Texts p)
    {schema : Option String} (hs : ∀ s ∈ schema, p s) {t : String}
    (ht : k.source? schema = some t) : Phrase p b t := by
  unfold source? at ht
  split at ht
  · next table name shownAs active =>
    obtain rfl := Option.some.inj ht
    exact phrase_qualified hc (h.1 table rfl).1 hs
  · simp at ht

/-- A key in the list of a query has no comment in it. -/
theorem ViewKey.phrase_fragment (hc : TextClass p) {k : ViewKey} (h : k.Texts p)
    {schema : Option String} (hs : ∀ s ∈ schema, p s) :
    Phrase p b (k.fragment schema).text := by
  cases k with
  | expression e => exact .given h.1 h.2
  | column table name shownAs active =>
    obtain ⟨-, hname, hshown⟩ := id h
    have hquote : Phrase p b (quote name) := phrase_quote hc hname
    have hsource : Phrase p b
        ((((column table name shownAs active).source? schema).map (· ++ ".")).getD "" ++
          quote name) := by
      cases hso : (column table name shownAs active).source? schema with
      | none =>
        rw [Option.map_none, Option.getD_none, String.empty_append]
        exact hquote
      | some s =>
        rw [Option.map_some, Option.getD_some]
        exact .glue (phrase_source hc h hs hso) (by decide) hquote
    refine hsource.append_tail (.getD fun t ht => ?_)
    obtain ⟨a, ha, rfl⟩ := Option.map_eq_some_iff.1 ht
    exact .of_phrase (by decide) (phrase_quote hc (hshown a ha).1)

/-- A pass over more names keeps those that were seen, adds the others, and lists none twice. -/
theorem foldl_firstUses (names seen : List String) :
    let step := fun (seen : List String) n => if seen.contains n then seen else seen ++ [n]
    (∀ m, m ∈ names.foldl step seen ↔ m ∈ seen ∨ m ∈ names) ∧
      (seen.Nodup → (names.foldl step seen).Nodup) := by
  dsimp only
  induction names generalizing seen with
  | nil => simp
  | cons n names ih =>
    rw [List.foldl_cons]
    by_cases hn : seen.contains n = true
    · have hmem : n ∈ seen := List.contains_iff_mem.1 hn
      rw [if_pos hn]
      refine ⟨fun m => ?_, (ih seen).2⟩
      rw [(ih seen).1 m, List.mem_cons]
      constructor
      · exact fun h => h.imp_right .inr
      · rintro (h | rfl | h)
        · exact .inl h
        · exact .inl hmem
        · exact .inr h
    · have hmem : n ∉ seen := fun h => hn (List.contains_iff_mem.2 h)
      rw [if_neg hn]
      refine ⟨fun m => ?_, fun hseen => (ih _).2 ?_⟩
      · rw [(ih _).1 m, List.mem_append, List.mem_singleton, List.mem_cons, or_assoc]
      · exact (List.perm_append_singleton n seen).nodup_iff.2 (List.nodup_cons.2 ⟨hmem, hseen⟩)

/-- First uses are uses. -/
theorem mem_firstUses {names : List String} {n : String} : n ∈ firstUses names ↔ n ∈ names := by
  have h := (foldl_firstUses names []).1 n
  simpa [firstUses] using h

theorem nodup_firstUses (names : List String) : (firstUses names).Nodup :=
  (foldl_firstUses names []).2 List.nodup_nil

/-! ## Views -/

/-- The texts of a view are of the class. -/
structure View.Texts (p : String → Prop) (v : View) : Prop where
  name : p v.name
  schema : ∀ s ∈ v.schema, p s
  keys : ∀ k ∈ v.keys, k.Texts p
  selectStatement : Given p v.selectStatement
  description : Given p v.description

/-- The view that a node describes. -/
theorem View.texts_ofNode (hc : TextClass p) {n : Model.View} (h : n.Texts p) {ctx : Context}
    (hs : ∀ s ∈ ctx.schema, p s) {v : View} (hv : View.ofNode? n ctx = some v) : v.Texts p := by
  obtain ⟨name, hname, rfl⟩ := Option.map_eq_some_iff.1 hv
  exact
    { name := (h.name name hname).1
      schema := hs
      keys := fun k hk => by
        obtain ⟨m, hm, hmk⟩ := List.mem_filterMap.1 hk
        exact ViewKey.texts_ofNode hc (h.keys m hm) hmk
      selectStatement := h.selectStatement.trimmed hc
      description := h.description }

namespace View

variable {v : View}

theorem phrase_qualifiedName (hc : TextClass p) (h : v.Texts p) : Phrase p b v.qualifiedName :=
  phrase_qualified hc h.name h.schema

/-- A query that is made of keys has a comment in it only if the view is active. -/
theorem phrase_keyQuery (hc : TextClass p) (h : v.Texts p) : Phrase p v.active v.keyQuery := by
  have hkeys : OptPhrase p v.active
      (composite (v.keys.map (ViewKey.fragment v.schema)) ",\n\t\t" v.active) := by
    refine .composite (by decide) (by decide) fun m hm => ?_
    obtain ⟨k, hk, rfl⟩ := List.mem_map.1 hm
    exact k.phrase_fragment hc (h.keys k hk) h.schema
  have hsources : OptPhrase p v.active (join ", " v.sources) := by
    refine .join (by decide) fun s hs => ?_
    obtain ⟨k, hk, hks⟩ := List.mem_filterMap.1 (mem_firstUses.1 hs)
    exact k.phrase_source hc (h.keys k hk) h.schema hks
  rw [keyQuery, Form.fill_viewSelect]
  exact (hkeys.lead (by decide)).framed_right (by decide) hsources

/-- The text that creates a view, up to its name. -/
def opening (v : View) : String :=
  "CREATE" ++ framed " " (if v.orReplace then "OR REPLACE" else "") "" ++
    framed " " (if v.force then "FORCE" else "") "" ++
    framed " " (join " " ((if v.editionable then ["EDITIONABLE"] else []) ++
      if v.editioning then ["EDITIONING"] else [])) "" ++ " VIEW " ++ v.qualifiedName

theorem createText_eq_opening (v : View) :
    v.createText = v.opening ++ "\n\tAS " ++ v.selectStatement.getD v.keyQuery := by
  rw [createText, Form.fill_createView, opening]

/-- There is no comment before the query of a view. -/
theorem phrase_opening (hc : TextClass p) (h : v.Texts p) : Phrase p b v.opening := by
  have hwords : OptPhrase p b (join " " ((if v.editionable then ["EDITIONABLE"] else []) ++
      if v.editioning then ["EDITIONING"] else [])) := by
    refine .join (by decide) fun s hs => .word ?_
    -- Two flags make four lists of words.
    have hall : ∀ on₁ on₂ : Bool, ∀ w ∈ (if on₁ then ["EDITIONABLE"] else []) ++
        if on₂ then ["EDITIONING"] else [], isWord w = true := by decide
    exact hall _ _ s hs
  exact (((Phrase.word (by decide : isWord "CREATE" = true)).framed_right (by decide)
    (.flag _ (by decide))).framed_right (by decide) (.flag _ (by decide))).framed_right (by decide)
    hwords |>.glue (by decide) (phrase_qualifiedName hc h)

/-- The creation of a view has a comment in it only if the view is active. -/
theorem phrase_createText (hc : TextClass p) (h : v.Texts p) : Phrase p v.active v.createText := by
  have hquery : Phrase p v.active (v.selectStatement.getD v.keyQuery) := by
    cases hq : v.selectStatement with
    | none => exact phrase_keyQuery hc h
    | some q => exact h.selectStatement.phrase hq
  rw [createText_eq_opening]
  exact (phrase_opening hc h).glue (by decide) hquery

/-- The statements of a view have comments in them only if they are live. -/
theorem written_units (hc : TextClass p) (h : v.Texts p) :
    ∀ u ∈ v.createUnits, Written p u.active u.text := by
  intro u hu
  simp only [createUnits, List.mem_cons, Option.mem_toList] at hu
  rcases hu with rfl | hu
  · exact (phrase_createText hc h).guarded v.capital_createText _ _
  · obtain ⟨d, hd, rfl⟩ := Option.map_eq_some_iff.1 hu
    have htext := (h.description d (Option.filter_eq_some_iff.1 hd).1).1
    exact written_commentOn (by decide) (phrase_qualifiedName hc h) htext

end View

end SchemaDelta
