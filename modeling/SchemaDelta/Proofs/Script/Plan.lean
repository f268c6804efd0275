import SchemaDelta.Proofs.Delta.Texts
import SchemaDelta.Proofs.Script.Steps
import SchemaDelta.Script.Basic

/-!
# The texts of a script

The steps of a script have the texts of the document, because each of them is planned from one item.
So every statement of a script is made of phrases.
-/

namespace SchemaDelta

open Sql

variable {P : Json → Prop} {p : String → Prop}

/-- What holds of the steps of each entity holds of a plan. -/
theorem planItems_forall {α : Type} {read? : Json → Option α} {Q : α → Prop} {R : Step → Prop}
    (g : Json.Grants P p) (hread : ∀ {v x}, P v → read? v = some x → Q x) {items : List Item}
    (hitems : ∀ i ∈ items, i.Granted P p) {stepsOf : Changed α → List Step}
    (hsteps : ∀ d : Changed α, d.Texts p Q → ∀ s ∈ stepsOf d, R s) (change : EntityChange) :
    ∀ s ∈ planItems read? items change stepsOf, R s := by
  intro s hs
  obtain ⟨i, hi, d, hd, -, hds⟩ := mem_planItems.1 hs
  exact hsteps d (g.entity hread (hitems i hi) hd) s hds

/-! ## Changes of fields -/

theorem Model.Fields.texts_unchanged {fields : Model.Fields} (h : fields.Texts p) :
    fields.unchanged.Texts p :=
  fun e he => h e (List.mem_filter.1 he).1

/-- A changed field has its name, its own texts and those of its change. -/
theorem Model.Fields.texts_changed {fields : Model.Fields} (h : fields.Texts p) :
    ∀ f ∈ fields.changed, p f.name ∧ f.field.Texts p ∧ f.change.Texts p := by
  intro f hf
  obtain ⟨e, he, hef⟩ := List.mem_filterMap.1 hf
  obtain ⟨c, hc, rfl⟩ := Option.map_eq_some_iff.1 hef
  exact ⟨(h e he).1, (h e he).2, (h e he).2.change c hc⟩

theorem Model.FieldChange.texts_rename? {c : Model.FieldChange} (h : c.Texts p) :
    ∀ n ∈ c.rename?, p n.1 ∧ p n.2 := by
  intro n hn
  unfold rename? at hn
  split_ifs at hn
  · obtain ⟨old, hold, hn⟩ := Option.bind_eq_some_iff.1 hn
    obtain ⟨new, hnew, rfl⟩ := Option.map_eq_some_iff.1 hn
    exact ⟨(h.old.name old hold).1, (h.new.name new hnew).1⟩
  · cases hn

theorem Model.FieldChange.texts_retype? (hc : TextClass p) {c : Model.FieldChange}
    (h : c.Texts p) : ∀ t ∈ c.retype?, p t := by
  intro t ht
  unfold retype? at ht
  split_ifs at ht
  · have htype : c.new.type? = some t := ht
    unfold FieldState.type? at htype
    dsimp only at htype
    split_ifs at htype
    obtain rfl := Option.some.inj htype
    exact DataType.given_ofColumn hc (fun s hs => (h.new.mode s hs).1)
      fun s hs => (h.new.kind s hs).1
  · cases ht

/-! ## The steps of the categories -/

theorem texts_schemaSteps (g : Json.Grants P p) {c : Category} (h : c.Granted P p) :
    ∀ s ∈ schemaSteps c, s.Texts p := by
  have hschema {items : List Item} (hitems : ∀ i ∈ items, i.Granted P p) :
      ∀ s ∈ items.filterMap Item.schemaDef?, p s.name := by
    intro s hs
    obtain ⟨i, hi, his⟩ := List.mem_filterMap.1 hs
    obtain ⟨d, hd, rfl⟩ := Option.map_eq_some_iff.1 his
    have htexts := g.entity (Q := fun n : Model.Schema => Given p (n.code <|> n.name))
      (Model.Schema.texts_read? g) (hitems i hi) hd
    show p ((d.node.code <|> d.node.name).getD d.key)
    cases hname : d.node.code <|> d.node.name with
    -- A schema without a name has the key of its item.
    | none => exact htexts.key
    | some n => exact (htexts.node n hname).1
  intro s hs
  rcases List.mem_append.1 hs with hs | hs
  · obtain ⟨d, hd, rfl⟩ := List.mem_map.1 hs
    exact hschema h.added d hd
  · obtain ⟨d, hd, rfl⟩ := List.mem_map.1 hs
    exact hschema h.deleted d hd

namespace TableSteps

/-- The steps of a named table have its qualified name. -/
theorem texts_named (hc : TextClass p) {d : Changed Model.Table}
    (h : d.Texts p (Model.Table.Texts p)) {f : String → List Step}
    (hf : ∀ table, Phrase p false table → ∀ s ∈ f table, s.Texts p) :
    ∀ s ∈ named f d, s.Texts p := by
  intro s hs
  obtain ⟨n, hn, -, hs⟩ := exists_of_mem_named hs
  exact hf _ (phrase_qualified hc (h.node.name n hn).1 h.schema) s hs

variable (hc : TextClass p) {d : Changed Model.Table} (h : d.Texts p (Model.Table.Texts p))

include hc h

theorem texts_create (release : Option String) : ∀ s ∈ create release d, s.Texts p := by
  intro s hs
  obtain ⟨t, ht, rfl⟩ := Option.map_eq_some_iff.1 (Option.mem_toList.1 hs)
  exact Table.texts_ofNode hc h.node h.schema ht

theorem texts_drop : ∀ s ∈ drop d, s.Texts p := by
  refine texts_named hc h fun table htable s hs => ?_
  rw [List.mem_singleton.1 hs]
  exact htable

theorem texts_columnAdditions (release : Option String) :
    ∀ s ∈ columnAdditions release d, s.Texts p := by
  refine texts_named hc h fun table htable s hs => ?_
  obtain ⟨c, hmem, rfl⟩ := List.mem_map.1 hs
  exact ⟨htable, texts_columns hc (Model.Fields.texts_unchanged h.node.fields) _ _ c hmem⟩

theorem texts_columnRemovals : ∀ s ∈ columnRemovals d, s.Texts p := by
  refine texts_named hc h fun table htable s hs => ?_
  obtain ⟨e, he, rfl⟩ := List.mem_map.1 hs
  exact ⟨htable, (Model.Fields.texts_unchanged h.node.fields e he).1⟩

theorem texts_columnChanges : ∀ s ∈ columnChanges d, s.Texts p := by
  have hchanged := Model.Fields.texts_changed h.node.fields
  refine texts_named hc h fun table htable s hs => ?_
  rcases List.mem_append.1 hs with hs | hs
  · obtain ⟨f, hf, hfs⟩ := List.mem_filterMap.1 hs
    obtain ⟨n, hn, rfl⟩ := Option.map_eq_some_iff.1 hfs
    exact ⟨htable, Model.FieldChange.texts_rename? (hchanged f hf).2.2 n hn⟩
  · obtain ⟨f, hf, hfs⟩ := List.mem_filterMap.1 hs
    obtain ⟨t, ht, rfl⟩ := Option.map_eq_some_iff.1 hfs
    exact ⟨htable, (hchanged f hf).1, Model.FieldChange.texts_retype? hc (hchanged f hf).2.2 t ht⟩

end TableSteps

theorem texts_tableSteps (g : Json.Grants P p) {c : Category} (h : c.Granted P p)
    (release : Option String) : ∀ s ∈ tableSteps c release, s.Texts p := by
  have hc := g.toTextClass
  have hplan {items : List Item} (hitems : ∀ i ∈ items, i.Granted P p) (change : EntityChange)
      {stepsOf : Changed Model.Table → List Step}
      (hsteps : ∀ d : Changed Model.Table, d.Texts p (Model.Table.Texts p) →
        ∀ s ∈ stepsOf d, s.Texts p) :
      ∀ s ∈ planItems Model.Table.read? items change stepsOf, s.Texts p :=
    planItems_forall g (Model.Table.texts_read? g) hitems hsteps change
  intro s hs
  -- The five phases: creations, removals, added columns, dropped columns, changed columns.
  simp only [tableSteps, List.mem_append] at hs
  rcases hs with (((hs | hs) | hs) | hs) | hs
  · exact hplan h.added _ (fun d hd => TableSteps.texts_create hc hd release) s hs
  · exact hplan h.deleted _ (fun d hd => TableSteps.texts_drop hc hd) s hs
  · exact hplan h.added _ (fun d hd => TableSteps.texts_columnAdditions hc hd release) s hs
  · exact hplan h.deleted _ (fun d hd => TableSteps.texts_columnRemovals hc hd) s hs
  · exact hplan h.modified _ (fun d hd => TableSteps.texts_columnChanges hc hd) s hs

theorem texts_viewSteps (g : Json.Grants P p) {c : Category} (h : c.Granted P p) :
    ∀ s ∈ viewSteps c, s.Texts p := by
  have hc := g.toTextClass
  have hview {d : Changed Model.View} (hd : d.Texts p (Model.View.Texts p)) :
      ∀ v ∈ ViewSteps.view? d, v.Texts p :=
    fun v hv => View.texts_ofNode hc hd.node hd.schema hv
  intro s hs
  rcases List.mem_append.1 hs with hs | hs
  · refine planItems_forall g (Model.View.texts_read? g) h.deleted (fun d hd s hs => ?_) _ s hs
    obtain ⟨v, hv, rfl⟩ := Option.map_eq_some_iff.1 (Option.mem_toList.1 hs)
    exact hview hd v hv
  · refine planItems_forall g (Model.View.texts_read? g) h.added (fun d hd s hs => ?_) _ s hs
    obtain ⟨v, hv, rfl⟩ := Option.map_eq_some_iff.1 (Option.mem_toList.1 hs)
    exact hview hd v (Option.filter_eq_some_iff.1 hv).1

namespace TypeSteps

/-- The steps of a named type have its qualified name. -/
theorem texts_named (hc : TextClass p) {d : Changed Model.UserType}
    (h : d.Texts p (Model.UserType.Texts p)) {f : String → List Step}
    (hf : ∀ type, Phrase p false type → ∀ s ∈ f type, s.Texts p) :
    ∀ s ∈ named f d, s.Texts p := by
  intro s hs
  obtain ⟨n, hn, -, hs⟩ := exists_of_mem_named hs
  exact hf _ (phrase_qualified hc (h.node.name n hn).1 h.schema) s hs

theorem texts_attributeOf (hc : TextClass p) (d : Changed Model.UserType)
    (release : Option String) {name : String} {f : Model.Field} (hname : p name)
    (hf : f.Texts p) : (attributeOf release d name f).Texts p :=
  Column.texts_ofNode hc hname hf _ _

variable (hc : TextClass p) {d : Changed Model.UserType}
  (h : d.Texts p (Model.UserType.Texts p))

include hc h

theorem texts_type? (release : Option String) : ∀ t ∈ type? release d, t.Texts p :=
  fun _ ht => UserType.texts_ofNode hc h.node h.schema ht

theorem texts_attributeAdditions (release : Option String) :
    ∀ s ∈ attributeAdditions release d, s.Texts p := by
  have hfields := Model.Fields.texts_unchanged h.node.fields
  refine texts_named hc h fun type htype s hs => ?_
  obtain ⟨e, he, rfl⟩ := List.mem_map.1 hs
  exact ⟨htype, texts_attributeOf hc d release (hfields e he).1 (hfields e he).2⟩

theorem texts_attributeRemovals : ∀ s ∈ attributeRemovals d, s.Texts p := by
  refine texts_named hc h fun type htype s hs => ?_
  obtain ⟨e, he, rfl⟩ := List.mem_map.1 hs
  exact ⟨htype, (Model.Fields.texts_unchanged h.node.fields e he).1⟩

theorem texts_attributeChanges (release : Option String) :
    ∀ s ∈ attributeChanges release d, s.Texts p := by
  have hchanged := Model.Fields.texts_changed h.node.fields
  refine texts_named hc h fun type htype s hs => ?_
  rcases List.mem_append.1 hs with hs | hs
  · obtain ⟨f, hf, hfs⟩ := List.mem_flatMap.1 hs
    obtain ⟨hname, hfield, hchange⟩ := hchanged f hf
    cases hr : f.change.rename? with
    | none => simp [hr] at hfs
    | some n =>
      obtain ⟨hold, hnew⟩ := Model.FieldChange.texts_rename? hchange n hr
      have hcolumn := texts_attributeOf hc d release hname hfield
      rw [hr] at hfs
      -- The attribute is dropped under its old name and comes back under its new one.
      rcases List.mem_pair.1 hfs with rfl | rfl
      · exact ⟨htype, hold⟩
      · exact ⟨htype, { hcolumn with name := hnew }⟩
  · obtain ⟨f, hf, hfs⟩ := List.mem_filterMap.1 hs
    obtain ⟨t, ht, rfl⟩ := Option.map_eq_some_iff.1 hfs
    exact ⟨htype, (hchanged f hf).1, Model.FieldChange.texts_retype? hc (hchanged f hf).2.2 t ht⟩

end TypeSteps

theorem texts_typeSteps (g : Json.Grants P p) {c : Category} (h : c.Granted P p)
    (release : Option String) : ∀ s ∈ typeSteps c release, s.Texts p := by
  have hc := g.toTextClass
  have hplan {items : List Item} (hitems : ∀ i ∈ items, i.Granted P p) (change : EntityChange)
      {stepsOf : Changed Model.UserType → List Step}
      (hsteps : ∀ d : Changed Model.UserType, d.Texts p (Model.UserType.Texts p) →
        ∀ s ∈ stepsOf d, s.Texts p) :
      ∀ s ∈ planItems Model.UserType.read? items change stepsOf, s.Texts p :=
    planItems_forall g (Model.UserType.texts_read? g) hitems hsteps change
  intro s hs
  -- The same phases as of tables, with the removals first.
  simp only [typeSteps, List.mem_append] at hs
  rcases hs with (((hs | hs) | hs) | hs) | hs
  · refine hplan h.deleted _ (fun d hd s hs => ?_) s hs
    obtain ⟨t, ht, rfl⟩ := Option.map_eq_some_iff.1 (Option.mem_toList.1 hs)
    exact TypeSteps.texts_type? hc hd release t ht
  · refine hplan h.added _ (fun d hd s hs => ?_) s hs
    obtain ⟨t, ht, rfl⟩ := Option.map_eq_some_iff.1 (Option.mem_toList.1 hs)
    exact TypeSteps.texts_type? hc hd release t ht
  · exact hplan h.added _ (fun d hd => TypeSteps.texts_attributeAdditions hc hd release) s hs
  · exact hplan h.deleted _ (fun d hd => TypeSteps.texts_attributeRemovals hc hd) s hs
  · exact hplan h.modified _ (fun d hd => TypeSteps.texts_attributeChanges hc hd release) s hs

/-! ## Scripts -/

/-- The steps of a script have the texts of its document. -/
theorem Script.texts_ofDelta (g : Json.Grants P p) {d : Delta} (h : d.Granted P p)
    (release : Option String) : ∀ s ∈ (ofDelta d release).steps, s.Texts p := by
  intro s hs
  simp only [steps, List.mem_append] at hs
  rcases hs with ((hs | hs) | hs) | hs
  · exact texts_schemaSteps g h.containers s hs
  · exact texts_tableSteps g h.entities release s hs
  · exact texts_viewSteps g h.views s hs
  · exact texts_typeSteps g h.modelDefinitions release s hs

/-- The statements of a script have comments in them only if they are live. -/
theorem Script.written_units (g : Json.Grants P p) {v : Json} (h : P v) {release : Option String}
    {s : Script} (hs : ofJson v release = .ok s) : ∀ u ∈ s.units, Written p u.active u.text := by
  unfold ofJson at hs
  split at hs
  · next d hd =>
    cases hs
    intro u hu
    obtain ⟨step, hstep, hu⟩ := List.mem_flatMap.1 hu
    have htexts := texts_ofDelta g (g.delta h hd) release step hstep
    exact step.written_units g.toTextClass htexts u hu
  · cases hs

/-- Every statement of a script is sealed. -/
theorem Script.sealed_units (s : Script) : ∀ u ∈ s.units, Sealed u.text := by
  intro u hu
  obtain ⟨step, -, hu⟩ := List.mem_flatMap.1 hu
  exact step.sealed_units u hu

/-- There is a script for every document that is an object. -/
theorem Script.exists_ofJson (r : Json.Entries) (release : Option String) :
    ∃ s, ofJson (.object r) release = .ok s :=
  ⟨_, rfl⟩

end SchemaDelta
