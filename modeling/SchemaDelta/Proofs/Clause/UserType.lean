import SchemaDelta.Proofs.Clause.Column
import SchemaDelta.Proofs.Model.EntityTexts
import SchemaDelta.Proofs.Script.Sealed

/-!
# Types and schemas are made of phrases

An object type has its parentheses even if it has no attributes, and a collection type those of its
elements even if they have no type.
-/

namespace SchemaDelta

open Sql Text

variable {p : String → Prop} {b : Bool}

/-! ## Types -/

/-- The texts of the body of a type are of the class. -/
def UserTypeBody.Texts (p : String → Prop) : UserTypeBody → Prop
  | object attributes => ∀ c ∈ attributes, c.Texts p
  | collection c => OptPhrase p false c.elementType

/-- The texts of a type are of the class. -/
structure UserType.Texts (p : String → Prop) (t : UserType) : Prop where
  name : p t.name
  schema : ∀ s ∈ t.schema, p s
  body : t.body.Texts p

/-- The elements of a collection have a type of the class. -/
theorem Collection.optPhrase_elementType (hc : TextClass p) {n : Model.UserType} (h : n.Texts p)
    (ctx : Context) : OptPhrase p b (Collection.ofNode n ctx).elementType := by
  -- The elements refer to no type of the model, whatever the collection does.
  have helement : Model.Typing.Texts p { n.typing with
      mode := n.ofType, kind := none, childType := none, reference := none } :=
    { segment := by simp
      kind := given_none p
      mode := h.ofType
      childType := given_none p }
  have htype := DataType.given_resolve hc helement ctx.release
  simp only [Collection.ofNode]
  exact DataType.optPhrase_clause hc htype

/-- The type that a node describes. -/
theorem UserType.texts_ofNode (hc : TextClass p) {n : Model.UserType} (h : n.Texts p)
    {ctx : Context} (hs : ∀ s ∈ ctx.schema, p s) {t : UserType}
    (ht : UserType.ofNode? n ctx = some t) : t.Texts p := by
  obtain ⟨name, hname, rfl⟩ := Option.map_eq_some_iff.1 ht
  refine ⟨(h.name name hname).1, hs, ?_⟩
  dsimp only
  split_ifs
  · exact texts_columns hc h.fields _ _
  · exact Collection.optPhrase_elementType hc h ctx

theorem Collection.optPhrase_elementText {c : Collection} (h : OptPhrase p b c.elementType) :
    OptPhrase p b c.elementText := by
  unfold elementText
  split_ifs
  · exact h
  · exact .of_phrase (h.trail (by decide))

theorem Collection.optPhrase_sizeText (c : Collection) : OptPhrase p b c.sizeText := by
  unfold sizeText
  split
  · exact .of_phrase (.word (isWord_showNat _))
  · exact .of_phrase (.word (isWord_showNat _))
  · exact .empty

namespace UserType

variable {t : UserType}

theorem phrase_qualifiedName (hc : TextClass p) (h : t.Texts p) : Phrase p b t.qualifiedName :=
  phrase_qualified hc h.name h.schema

/-- The creation of a type has a comment in it only if it is live. -/
theorem written_createUnit (hc : TextClass p) (h : t.Texts p) :
    Written p t.createUnit.active t.createUnit.text := by
  have hhead : Phrase p t.active ("CREATE OR REPLACE TYPE " ++ t.qualifiedName) :=
    .lead (by decide) (phrase_qualifiedName hc h)
  have hbody := h.body
  unfold createUnit createText
  cases ht : t.body with
  | object attributes =>
    rw [ht] at hbody
    have hattributes : OptPhrase p t.active
        (composite (attributes.map Column.attributeLine) ",\n\t" t.active) := by
      refine .composite (by decide) (by decide) fun m hm => ?_
      obtain ⟨c, hmem, rfl⟩ := List.mem_map.1 hm
      exact c.phrase_attributeLine hc (hbody c hmem)
    have htype := (hhead.glue (by decide : isSeparator " AS OBJECT\n" = true)
      hattributes.block).written
    dsimp only
    rw [Form.fill_createObjectType]
    exact htype.of_toList (by simp)
  | collection c =>
    rw [ht] at hbody
    have hkind : Phrase p t.active c.kind.keyword := by
      cases c.kind <;> exact .word (by decide)
    have helement : OptPhrase p t.active c.elementText :=
      c.optPhrase_elementText (hbody.mono (by simp))
    have hoptions : OptPhrase p t.active (if c.notPersistable then "NOT PERSISTABLE" else "") :=
      .flag _ (by decide)
    have htype := ((((hhead.glue (by decide : isSeparator " IS " = true) hkind).framed_call
      c.optPhrase_sizeText).glue (by decide : isSeparator " OF " = true)
      helement.paren).framed_right (by decide : isSeparator " " = true) hoptions).written
    dsimp only
    rw [Form.fill_createCollectionType]
    exact htype.of_toList (by simp)

end UserType

/-! ## Schemas -/

/-- The creation of a schema is a statement. -/
theorem Schema.written_createUnit (hc : TextClass p) {s : Schema} (h : p s.name) :
    Written p b s.createUnit.text := by
  refine Phrase.guarded (capital_createSchema _) ?_ _ _
  rw [Form.fill_createSchema]
  exact .trail (.lead (by decide) (phrase_quote hc h)) (by decide)

end SchemaDelta
