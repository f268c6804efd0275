import SchemaDelta.Proofs.Catalogue.Basic
import SchemaDelta.Proofs.Script.Openings
import SchemaDelta.Proofs.Sql.Guarded

/-!
# Statements that create and drop views and types

What a statement does to the catalogue of the views, or of the types, is read back from its text:
the verb, perhaps some modifiers, the noun and the qualified name. A guarded statement is read where
it stands in its block, and a commented one is not read. So the changes of a step are known whatever
names and queries stand in its statements.
-/

namespace SchemaDelta

open Sql Text

namespace Catalogue

/-! ## Reading -/

/-- The kinds of objects that are dropped and created as a whole. -/
inductive Kind where
  | view
  | type

/-- The noun of a kind in a statement. -/
def Kind.noun : Kind → String
  | view => " VIEW "
  | type => " TYPE "

/-- What may stand between the verb of a creation and its noun, in this order. -/
def modifiers : List String :=
  [" OR REPLACE", " FORCE", " EDITIONABLE", " EDITIONING"]

/-- The text without its front, if this is the given one. -/
def skip (s : List Char) (front : String) : List Char :=
  (after? front s).getD s

/-- The qualified name at the beginning of a text. -/
def qualified? (s : List Char) : Option String :=
  (readDotted? 2 s).map fun p => join "." (p.1.map (enclosed '"'))

/-- The name of an object of the kind that follows a verb. -/
def Kind.object? (k : Kind) (s : List Char) : Option String :=
  (after? k.noun s).bind qualified?

/-- The change that a statement makes to the catalogue of a kind. -/
def Change.read? (k : Kind) (statement : String) : Option Change :=
  let s := (executed statement).toList
  ((after? "CREATE" s).bind fun r => k.object? (modifiers.foldl skip r)).map create <|>
    ((after? "DROP" s).bind k.object?).map drop

/-- A qualified name is read back. -/
theorem qualified?_qualified (name : String) (schema : Option String) {rest : List Char}
    (hquote : rest.head? ≠ some '"') (hdot : rest.head? ≠ some '.') :
    qualified? ((qualified name schema).toList ++ rest) = some (qualified name schema) := by
  rw [qualified?, readDotted?_qualified name schema hquote hdot (Nat.le_refl 2), Option.map_some]
  exact congrArg some (qualified_eq_dotted name schema).symm

/-- The name after the noun is read. -/
theorem Kind.object?_qualified (k : Kind) (name : String) (schema : Option String)
    {rest : List Char} (hquote : rest.head? ≠ some '"') (hdot : rest.head? ≠ some '.') :
    k.object? (k.noun.toList ++ ((qualified name schema).toList ++ rest)) =
      some (qualified name schema) := by
  rw [object?, after?_append, Option.bind_some, qualified?_qualified name schema hquote hdot]

/-- The modifiers of a view are passed over, up to the noun. -/
theorem foldl_skip_view (v : View) (k : Kind) (r : List Char) :
    modifiers.foldl skip (v.modifiers ++ (k.noun.toList ++ r)) = k.noun.toList ++ r := by
  unfold View.modifiers
  cases v.orReplace <;> cases v.force <;> cases v.editionable <;> cases v.editioning <;> cases k <;>
    rfl

/-- The modifier of a type is passed over. -/
theorem foldl_skip_type (k : Kind) (r : List Char) :
    modifiers.foldl skip (" OR REPLACE".toList ++ (k.noun.toList ++ r)) = k.noun.toList ++ r := by
  cases k <;> rfl

namespace Change

variable {k : Kind} {statement name : String} {schema : Option String} {rest : List Char}

/-- A creation is read, where its modifiers are passed over. -/
theorem read?_create {m : List Char}
    (hm : ∀ r, modifiers.foldl skip (m ++ (k.noun.toList ++ r)) = k.noun.toList ++ r)
    (h : (executed statement).toList = "CREATE".toList ++ (m ++ (k.noun.toList ++
      ((qualified name schema).toList ++ rest))))
    (hquote : rest.head? ≠ some '"') (hdot : rest.head? ≠ some '.') :
    read? k statement = some (create (qualified name schema)) := by
  rw [read?, h]
  simp only [after?_append, Option.bind_some, hm, k.object?_qualified name schema hquote hdot,
    Option.map_some]
  rfl

/-- A removal is read. -/
theorem read?_drop (h : statement.toList =
      "DROP".toList ++ (k.noun.toList ++ ((qualified name schema).toList ++ [';']))) :
    read? k statement = some (drop (qualified name schema)) := by
  have hblock : isBlock statement.toList = false := by
    rw [h]
    rfl
  rw [read?, executed_eq_self hblock, h]
  simp only [after?_append, Option.bind_some,
    k.object?_qualified name schema (by decide : [';'].head? ≠ some '"') (by decide),
    Option.map_some]
  rfl

/-- A statement with another verb is not read. -/
theorem read?_eq_none (hblock : isBlock statement.toList = false)
    (hcreate : after? "CREATE" statement.toList = none)
    (hdrop : after? "DROP" statement.toList = none) : read? k statement = none := by
  rw [read?, executed_eq_self hblock, hcreate, hdrop]
  rfl

/-- A statement that begins with another letter is not read. -/
theorem read?_of_head {c : Char} {r : List Char} (h : statement.toList = c :: r)
    (hc : c ∉ ['B', 'C', 'D']) : read? k statement = none := by
  have hne (d : Char) (hd : d ∈ ['B', 'C', 'D']) : c ≠ d := by
    rintro rfl
    exact hc hd
  refine read?_eq_none (isBlock_eq_false ?_ ?_) ?_ ?_
  · simpa [h] using hne 'D' (by decide)
  · simpa [h] using hne 'B' (by decide)
  · simp [h, after?, List.dropPrefix?, hne 'C' (by decide)]
  · simp [h, after?, List.dropPrefix?, hne 'D' (by decide)]

/-- What is commented out is not read. -/
theorem read?_commented (k : Kind) (text : String) : read? k (commented text) = none := by
  unfold commented
  split_ifs
  · exact read?_of_head (c := '/') (by simp; rfl) (by decide)
  · exact read?_of_head (c := '-') (by simp; rfl) (by decide)

/-- A comment on an object is not read. -/
theorem read?_commentOn (k : Kind) (object name text : String) :
    read? k (commentOn object name text) = none := by
  have h : (commentOn object name text).toList = "COMMENT ON ".toList ++
      (object ++ " " ++ name ++ " IS " ++ literal text ++ ";").toList := by
    simp [commentOn, Form.fill_comment]
  refine read?_eq_none ?_ ?_ ?_ <;> rw [h] <;> rfl

end Change

end Catalogue

/-! ## The changes of a step -/

open Catalogue

/-- The changes that the statements of a step make to the catalogue of a kind, in order. -/
def Step.catalogueChanges (k : Kind) (s : Step) : List Change :=
  s.units.filterMap fun u => Change.read? k u.write

namespace Step

theorem catalogueChanges_of_live {k : Kind} {text : String} {s : Step}
    (h : s.units = [⟨text, true⟩]) :
    s.catalogueChanges k = (Change.read? k text).toList := by
  rw [catalogueChanges, h]
  cases hr : Change.read? k text <;> simp [hr]

/-- A view is created where it is active; its comment creates nothing. -/
theorem catalogueChanges_createView (v : View) :
    (createView v).catalogueChanges .view =
      if v.active then [.create v.qualifiedName] else [] := by
  have hcomment : v.commentUnit?.toList.filterMap (fun u => Change.read? .view u.write) = [] := by
    rw [List.filterMap_eq_nil_iff]
    intro u hu
    obtain ⟨d, -, rfl⟩ := Option.map_eq_some_iff.1 (Option.mem_toList.1 hu)
    cases hactive : v.active with
    | false => exact Change.read?_commented _ _
    | true => exact Change.read?_commentOn _ _ _ _
  rw [catalogueChanges, units, View.createUnits, List.filterMap_cons, hcomment]
  cases hactive : v.active with
  | false => simp [Change.read?_commented]
  | true =>
    obtain ⟨t, ht⟩ := exists_executed_guarded v.toList_createText (by simp) (by decide) (by decide)
      v.ifNotExist nameInUse
    have hexecuted : (executed (guarded v.createText v.ifNotExist nameInUse)).toList =
        "CREATE".toList ++ (v.modifiers ++ (Kind.view.noun.toList ++
          ((qualified v.name v.schema).toList ++ '\n' :: '\t' :: 'A' :: t))) := by
      simp [ht, Kind.noun, View.qualifiedName]
    have hread := Change.read?_create (foldl_skip_view v .view) hexecuted (by simp) (by simp)
    simp [hread, View.qualifiedName]

theorem catalogueChanges_dropView (v : View) :
    (dropView v).catalogueChanges .view = [.drop v.qualifiedName] := by
  have htext : (Form.dropView.fill (.ofList [("name", v.qualifiedName)])).toList =
      "DROP".toList ++ (Kind.view.noun.toList ++
        ((qualified v.name v.schema).toList ++ [';'])) := by
    simp [Form.fill_dropView, Kind.noun, View.qualifiedName]
  rw [catalogueChanges_of_live rfl, Change.read?_drop htext]
  rfl

theorem catalogueChanges_createType (t : UserType) :
    (createType t).catalogueChanges .type =
      if t.active then [.create t.qualifiedName] else [] := by
  cases hactive : t.active with
  | false => simp [catalogueChanges, units, UserType.createUnit, hactive, Change.read?_commented]
  | true =>
    obtain ⟨r, hr⟩ := t.exists_toList_createText
    have hblock : isBlock t.createText.toList = false := by
      rw [hr]
      rfl
    have hexecuted : (executed t.createText).toList =
        "CREATE".toList ++ (" OR REPLACE".toList ++ (Kind.type.noun.toList ++
          ((qualified t.name t.schema).toList ++ ' ' :: (r ++ [';'])))) := by
      rw [executed_eq_self hblock]
      exact hr
    have hunits : (createType t).units = [⟨t.createText, true⟩] := by
      simp [units, UserType.createUnit, hactive]
    rw [catalogueChanges_of_live hunits,
      Change.read?_create (foldl_skip_type .type) hexecuted (by simp) (by simp)]
    rfl

theorem catalogueChanges_dropType (t : UserType) :
    (dropType t).catalogueChanges .type = [.drop t.qualifiedName] := by
  have htext : (Form.dropType.fill (.ofList [("name", t.qualifiedName)])).toList =
      "DROP".toList ++ (Kind.type.noun.toList ++
        ((qualified t.name t.schema).toList ++ [';'])) := by
    simp [Form.fill_dropType, Kind.noun, UserType.qualifiedName]
  rw [catalogueChanges_of_live rfl, Change.read?_drop htext]
  rfl

/-- The step changes an attribute of a type. -/
def OnAttribute : Step → Prop
  | addAttribute .. | dropAttribute .. | modifyAttribute .. => True
  | _ => False

/-- The changes of attributes create and drop nothing. -/
theorem catalogueChanges_onAttribute {s : Step} (h : s.OnAttribute) (k : Kind) :
    s.catalogueChanges k = [] := by
  have halter {text : String} (htext : ∃ r, text.toList = 'A' :: r) :
      Change.read? k text = none := by
    obtain ⟨r, hr⟩ := htext
    exact Change.read?_of_head hr (by decide)
  rw [catalogueChanges, List.filterMap_eq_nil_iff]
  intro u hu
  cases s <;> first | exact h.elim | rw [List.mem_singleton.1 hu]
  case addAttribute type active c =>
    cases active with
    | false => exact Change.read?_commented k _
    | true => exact halter ⟨_, by simp [Form.fill_addAttribute]; rfl⟩
  case dropAttribute => exact halter ⟨_, by simp [Form.fill_dropAttribute]; rfl⟩
  case modifyAttribute => exact halter ⟨_, by simp [Form.fill_modifyAttribute]; rfl⟩

end Step

end SchemaDelta
