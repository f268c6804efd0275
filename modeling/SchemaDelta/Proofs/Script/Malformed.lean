import SchemaDelta.Proofs.Clause.Malformed
import SchemaDelta.Proofs.Script.Blocks

/-!
# Markers that tell nothing

A field whose change tells nothing counts as changed, so it is neither added nor dropped, and there
is nothing to change either. An entity whose marker tells nothing counts as marked, so neither it
nor its fields are touched; a schema is created and dropped without a look at its marker.
-/

namespace SchemaDelta

open Json Sql

/-! ## What a creation does not look at -/

namespace Model

/-- The field without what has changed in it. -/
def Field.plain (f : Field) : Field :=
  { f with change := none }

/-- The fields without what has changed in them. -/
def Fields.plain (fields : Fields) : Fields :=
  fields.map fun e => (e.1, e.2.plain)

theorem Fields.columns_plain (fields : Fields) (required : List String) (ctx : Context) :
    fields.plain.columns required ctx = fields.columns required ctx :=
  List.map_map

/-- A reference leads to the same column, whatever has changed in it. -/
theorem ColumnRef.resolve?_plain (fields : Fields) (ref : ColumnRef) :
    ref.resolve? fields.plain = ref.resolve? fields := by
  have hguid (f : Field) : f.plain.guid = f.guid := rfl
  exact resolve?_map hguid fields ref

theorem resolveKeys_plain (refs : List ColumnRef) (fields : Fields) :
    resolveKeys refs fields.plain = resolveKeys refs fields := by
  unfold resolveKeys
  rw [funext (ColumnRef.resolve?_plain fields)]

end Model

/-- A table is created without a look at what has changed in its fields. -/
theorem Table.ofNode?_plain (n : Model.Table) (ctx : Context) :
    Table.ofNode? { n with fields := n.fields.plain } ctx = Table.ofNode? n ctx := by
  have hkeys : Model.Table.keyConstraints { n with fields := n.fields.plain } =
      n.keyConstraints := by
    simp only [Model.Table.keyConstraints, Model.resolveKeys_plain]
  have hpartitioning (p : Model.Partitioning) :
      Partitioning.ofNode p n.fields.plain = Partitioning.ofNode p n.fields := by
    simp only [Partitioning.ofNode, Model.resolveKeys_plain]
  have hindex (i : Model.Index) : Index.ofNode? i n.fields.plain = Index.ofNode? i n.fields := by
    have hkey : IndexKey.ofRef? n.fields.plain = IndexKey.ofRef? n.fields := by
      funext ref
      rw [IndexKey.ofRef?, Model.ColumnRef.resolve?_plain]
      rfl
    rw [Index.ofNode?, hkey]
    rfl
  have hname : Model.Table.tableName? { n with fields := n.fields.plain } = n.tableName? := rfl
  rw [Table.ofNode?, Table.ofNode?, hname, hkeys]
  simp only [Model.Fields.columns_plain, hpartitioning, hindex]
  rfl

/-- So is a type. -/
theorem UserType.ofNode?_plain (n : Model.UserType) (ctx : Context) :
    UserType.ofNode? { n with fields := n.fields.plain } ctx = UserType.ofNode? n ctx := by
  have hname : Model.UserType.typeName? { n with fields := n.fields.plain } = n.typeName? := rfl
  rw [UserType.ofNode?, UserType.ofNode?, hname]
  simp only [Model.Fields.columns_plain]
  rfl

/-! ## Fields with a change that tells nothing -/

namespace Model

/-- The field with a change that tells nothing. -/
def Field.marked (f : Field) : Field :=
  { f with change := some {} }

namespace Fields

variable (l m : Fields) (name : String) (f : Field)

/-- A marked field is not among those that are added or dropped. -/
theorem unchanged_marked : unchanged (l ++ (name, f.marked) :: m) = unchanged (l ++ m) := by
  simp [unchanged, Field.marked]

/-- It is among those that have changed. -/
theorem changed_marked :
    changed (l ++ (name, f.marked) :: m) = changed l ++ ⟨name, f.marked, {}⟩ :: changed m := by
  simp [changed, Field.marked]

theorem changed_append : changed (l ++ m) = changed l ++ changed m :=
  List.filterMap_append

theorem unchanged_append : unchanged (l ++ m) = unchanged l ++ unchanged m :=
  List.filter_append _ _

theorem plain_marked :
    plain (l ++ (name, f.marked) :: m) = plain (l ++ (name, f) :: m) := by
  simp [plain, Field.plain, Field.marked]

variable {f}

theorem unchanged_of_none (h : f.change = none) :
    unchanged (l ++ (name, f) :: m) = unchanged l ++ (name, f) :: unchanged m := by
  simp [unchanged, h]

theorem changed_of_none (h : f.change = none) :
    changed (l ++ (name, f) :: m) = changed (l ++ m) := by
  simp [changed, h]

end Fields

end Model

/-- One step more is one statement more at least. -/
theorem Step.units_ne_of_insert (before after : List Step) (s : Step) :
    (before ++ after).flatMap units ≠ (before ++ s :: after).flatMap units := by
  intro h
  have hlength := congrArg List.length h
  have hpos : 0 < s.units.length := List.length_pos_iff.2 s.units_ne_nil
  simp only [List.flatMap_append, List.flatMap_cons, List.length_append] at hlength
  omega

/-- How the steps of an entity depend on its fields: there is one for each new field, or there are
steps for the changes and none for a change that tells nothing, or the changes do not matter. -/
inductive Model.Fields.Bearing (steps : Model.Fields → List Step) (new : Prop) : Prop where
  | each (hnew : new) (step : String × Model.Field → Step)
    (heq : ∀ fields, steps fields = fields.unchanged.map step)
  | changes (hnew : ¬new) (first second : ChangedField → List Step)
    (hnone : ∀ c, c.change = {} → first c = [] ∧ second c = [])
    (heq : ∀ fields, steps fields = fields.changed.flatMap first ++ fields.changed.flatMap second)
  | whole (hnew : ¬new) (heq : ∀ fields, steps fields.plain = steps fields)

/-- A change that tells nothing takes a new field away, and does nothing else. -/
theorem Model.Fields.Bearing.marked {steps : Model.Fields → List Step} {new : Prop}
    (hb : Bearing steps new) {f : Model.Field} (hf : f.change = none) (l m : Model.Fields)
    (name : String) :
    (new → steps (l ++ (name, f.marked) :: m) = steps (l ++ m)) ∧
      ((steps (l ++ (name, f.marked) :: m)).flatMap Step.units =
        (steps (l ++ (name, f) :: m)).flatMap Step.units ↔ ¬new) := by
  cases hb with
  | each hnew step heq =>
    -- The marked field is not among the new ones, so its step is missing.
    refine ⟨fun _ => ?_, iff_of_false ?_ (not_not_intro hnew)⟩
    · rw [heq, heq, unchanged_marked]
    · rw [heq, heq, unchanged_marked, unchanged_append, unchanged_of_none l m name hf,
        List.map_append, List.map_append, List.map_cons]
      exact Step.units_ne_of_insert _ _ _
  | changes hnew first second hnone heq =>
    -- The marked field is one more that has changed, and has no step.
    refine ⟨fun h => absurd h hnew, iff_of_true ?_ hnew⟩
    obtain ⟨hfirst, hsecond⟩ := hnone ⟨name, f.marked, {}⟩ rfl
    have hmarked := changed_marked l m name f
    rw [heq, heq, changed_of_none l m name hf, hmarked]
    simp only [changed_append, List.flatMap_append, List.flatMap_cons, hfirst, hsecond,
      List.nil_append]
  | whole hnew heq =>
    -- Without the changes the two lists of fields are the same.
    refine ⟨fun h => absurd h hnew, iff_of_true ?_ hnew⟩
    rw [← heq, plain_marked, heq]

/-! ## Tables and types -/

/-- The table with other columns. -/
def Changed.withColumns (d : Changed Model.Table) (fields : Model.Fields) : Changed Model.Table :=
  { d with node := { d.node with fields := fields } }

/-- The type with other attributes. -/
def Changed.withAttributes (d : Changed Model.UserType) (fields : Model.Fields) :
    Changed Model.UserType :=
  { d with node := { d.node with fields := fields } }

namespace ItemList

variable (list : ItemList) (release : Option String)

/-! ### Columns -/

section Tables

variable {d : Changed Model.Table}

theorem tableBlock_of_unnamed (h : d.node.tableName? = none) : list.tableBlock release d = [] := by
  have hnone : Table.ofNode? d.node (d.context release) = none := by
    rw [Table.ofNode?, h, Option.map_none]
  rw [tableBlock, hnone]

/-- A table as a whole is created and dropped without a look at what has changed in its columns. -/
theorem tableBlock_plain (h : d.change ≠ .fields) (fields : Model.Fields) :
    list.tableBlock release (d.withColumns fields.plain) =
      list.tableBlock release (d.withColumns fields) := by
  have htable : TableSteps.create release (d.withColumns fields.plain) =
      TableSteps.create release (d.withColumns fields) := by
    have hplain := Table.ofNode?_plain (d.withColumns fields).node (d.context release)
    exact congrArg (fun t : Option Table => (t.map Step.createTable).toList) hplain
  have hchange (g : Model.Fields) : (d.withColumns g).change = d.change := rfl
  rw [tableBlock_eq, tableBlock_eq, hchange, hchange]
  cases hc : d.change with
  | fields => exact absurd hc h
  | created =>
    cases list with
    | added => exact htable
    | deleted | modified => rfl
  | deleted | marked => cases list <;> rfl

/-- Where columns are added or dropped, there is a step for each new one; where they are changed,
there are steps for the changes. -/
theorem bearing_columns (h : d.change = .fields) {table : String}
    (hname : d.node.tableName? = some table) :
    Model.Fields.Bearing (fun fields => list.tableBlock release (d.withColumns fields))
      (list ≠ .modified) := by
  have hnamed (steps : String → List Step) (fields : Model.Fields) :
      TableSteps.named steps (d.withColumns fields) = steps (qualified table d.schema) := by
    have hqualified : TableSteps.name? (d.withColumns fields) = some (qualified table d.schema) :=
      congrArg (Option.map fun n => qualified n d.schema) hname
    rw [TableSteps.named, hqualified]
  have hchange (fields : Model.Fields) : (d.withColumns fields).change = .fields := h
  have hblock (fields : Model.Fields) := list.tableBlock_eq release (d.withColumns fields)
  simp only [hchange] at hblock
  cases list with
  | added =>
    exact .each (by decide) (fun e => .addColumn (qualified table d.schema) d.node.active
        (Column.ofNode e.1 e.2 d.node.required (d.context release)))
      fun fields => (hblock fields).trans ((hnamed _ fields).trans List.map_map)
  | deleted =>
    exact .each (by decide) (fun e => .dropColumn (qualified table d.schema) e.1)
      fun fields => (hblock fields).trans (hnamed _ fields)
  | modified =>
    refine .changes (by decide)
      (fun f => (f.change.rename?.map fun n =>
        Step.renameColumn (qualified table d.schema) n.1 n.2).toList)
      (fun f => (f.change.retype?.map
        (Step.modifyColumn (qualified table d.schema) f.name)).toList)
      (fun c hc => by rw [hc]; exact ⟨rfl, rfl⟩) fun fields => ?_
    rw [← List.filterMap_eq_flatMap_toList, ← List.filterMap_eq_flatMap_toList]
    exact (hblock fields).trans (hnamed _ fields)

/-- A new column of a table has a step exactly where the table has a name and columns are added or
dropped. -/
theorem bearing_tableBlock (d : Changed Model.Table) :
    Model.Fields.Bearing (fun fields => list.tableBlock release (d.withColumns fields))
      (list ≠ .modified ∧ d.change = .fields ∧ d.node.tableName? ≠ none) := by
  cases hname : d.node.tableName? with
  | none =>
    refine .whole (by simp) fun fields => ?_
    have hnone (g : Model.Fields) : list.tableBlock release (d.withColumns g) = [] :=
      list.tableBlock_of_unnamed release hname
    rw [hnone, hnone]
  | some table =>
    by_cases hd : d.change = .fields
    · simpa [hd] using bearing_columns list release hd hname
    · exact .whole (by simp [hd]) (tableBlock_plain list release hd)

end Tables

/-! ### Attributes -/

section Types

variable {d : Changed Model.UserType}

/-- A type as a whole is created and dropped without a look at what has changed in its
attributes. -/
theorem typeBlock_plain (h : d.change ≠ .fields) (fields : Model.Fields) :
    list.typeBlock release (d.withAttributes fields.plain) =
      list.typeBlock release (d.withAttributes fields) := by
  have htype : TypeSteps.type? release (d.withAttributes fields.plain) =
      TypeSteps.type? release (d.withAttributes fields) :=
    UserType.ofNode?_plain (d.withAttributes fields).node (d.context release)
  have hchange (g : Model.Fields) : (d.withAttributes g).change = d.change := rfl
  rw [typeBlock_eq, typeBlock_eq, hchange, hchange]
  unfold TypeSteps.create TypeSteps.drop
  rw [htype]
  cases hc : d.change with
  | fields => exact absurd hc h
  | created | deleted | marked => cases list <;> rfl

/-- Where attributes are added or dropped, there is a step for each new one; where they are changed,
there are steps for the changes. -/
theorem bearing_attributes (h : d.change = .fields) {type : String}
    (hname : d.node.typeName? = some type) (hobject : d.node.isObject = true) :
    Model.Fields.Bearing (fun fields => list.typeBlock release (d.withAttributes fields))
      (list ≠ .modified) := by
  have hnamed (steps : String → List Step) (fields : Model.Fields) :
      TypeSteps.named steps (d.withAttributes fields) = steps (qualified type d.schema) := by
    have hwith : (d.withAttributes fields).node.typeName? = some type := hname
    have hthis : (d.withAttributes fields).node.isObject = true := hobject
    simp only [TypeSteps.named, hwith, hthis]
    rfl
  have hchange (fields : Model.Fields) : (d.withAttributes fields).change = .fields := h
  have hblock (fields : Model.Fields) := list.typeBlock_eq release (d.withAttributes fields)
  simp only [hchange] at hblock
  let column := TypeSteps.attributeOf release d
  cases list with
  | added =>
    exact .each (by decide) (fun e => .addAttribute (qualified type d.schema)
        (e.2.active && d.node.active) (column e.1 e.2))
      fun fields => (hblock fields).trans (hnamed _ fields)
  | deleted =>
    exact .each (by decide) (fun e => .dropAttribute (qualified type d.schema) e.1)
      fun fields => (hblock fields).trans (hnamed _ fields)
  | modified =>
    refine .changes (by decide)
      (fun f => (f.change.rename?.map (TypeSteps.renameAttribute (qualified type d.schema)
        (column f.name f.field))).getD [])
      (fun f => (f.change.retype?.map
        (Step.modifyAttribute (qualified type d.schema) f.name)).toList)
      (fun c hc => by rw [hc]; exact ⟨rfl, rfl⟩) fun fields => ?_
    rw [← List.filterMap_eq_flatMap_toList]
    exact (hblock fields).trans (hnamed _ fields)

/-- Neither a collection nor a type without a name has steps for its attributes. -/
theorem typeBlock_of_not_object (h : d.change = .fields)
    (hobject : ¬(d.node.typeName? ≠ none ∧ d.node.isObject = true)) :
    list.typeBlock release d = [] := by
  have hnamed (steps : String → List Step) : TypeSteps.named steps d = [] :=
    List.eq_nil_iff_forall_not_mem.2 fun s hs => by
      obtain ⟨name, hname, hthis, -⟩ := TypeSteps.exists_of_mem_named hs
      exact hobject ⟨by simp [hname], hthis⟩
  rw [typeBlock_eq, h]
  cases list <;> exact hnamed _

/-- A new attribute of a type has a step exactly where the type is an object with a name and
attributes are added or dropped. -/
theorem bearing_typeBlock (d : Changed Model.UserType) :
    Model.Fields.Bearing (fun fields => list.typeBlock release (d.withAttributes fields))
      (list ≠ .modified ∧ d.change = .fields ∧ d.node.typeName? ≠ none ∧
        d.node.isObject = true) := by
  by_cases hd : d.change = .fields
  · by_cases hobject : d.node.typeName? ≠ none ∧ d.node.isObject = true
    · obtain ⟨type, hname⟩ := Option.ne_none_iff_exists'.1 hobject.1
      simpa [hd, hobject] using bearing_attributes list release hd hname hobject.2
    · refine .whole (fun h => hobject h.2.2) fun fields => ?_
      have hnone (g : Model.Fields) : list.typeBlock release (d.withAttributes g) = [] :=
        list.typeBlock_of_not_object release hd hobject
      rw [hnone, hnone]
  · exact .whole (fun h => hd h.2.1) (typeBlock_plain list release hd)

end Types

end ItemList

/-! ## Entities with a marker that tells nothing -/

namespace Item

variable {r s : Entries}

/-- A role is laid over two nodes alike. -/
theorem exists_withRole (h : Entries.AgreeBut "compMod" r s) (key : String) :
    ∃ r' s' : Entries, withRole ⟨key, .object r⟩ = .object r' ∧
      withRole ⟨key, .object s⟩ = .object s' ∧ Entries.AgreeBut "compMod" r' s' := by
  have hrole : r.value "role" = s.value "role" := h _ (by decide)
  unfold withRole
  dsimp only
  rw [hrole]
  split
  · exact ⟨_, _, rfl, rfl, h.overlay _⟩
  · exact ⟨r, s, rfl, rfl, h⟩

/-- A schema is read without its marker. -/
theorem block_schema (h : Entries.AgreeBut "compMod" r s) {p : Place} (hp : p.kind = .schema)
    (release : Option String) (key : String) :
    block p release ⟨key, .object r⟩ = block p release ⟨key, .object s⟩ := by
  obtain ⟨r', s', hr, hs, hagree⟩ := exists_withRole h key
  have hvalue (k : String) (hk : k ≠ "compMod") : r'.value k = s'.value k := hagree k hk
  have hread : Model.Schema.read? (.object r') = Model.Schema.read? (.object s') := by
    simp [Model.Schema.read?, record?, Entries.text?, Entries.flag, Entries.active, hvalue]
  unfold block entity?
  rw [hp, hr, hs, hread]
  cases Model.Schema.read? (.object s') with
  | none => rfl
  | some n => cases p.list <;> rfl

/-- What happened to an entity is the same, however it is read. -/
theorem change_of_entity? {α : Type} {read? : Json → Option α} {i : Item} {d : Changed α}
    (h : i.entity? read? = some d) : d.change = i.change := by
  obtain ⟨-, -, rfl⟩ := Option.map_eq_some_iff.1 h
  rfl

/-- No step is planned for an entity that is marked, but neither as created nor as deleted. -/
theorem block_of_marked {i : Item} (h : i.change = .marked) {p : Place} (hp : p.kind ≠ .schema)
    (release : Option String) : block p release i = [] := by
  unfold block
  cases hkind : p.kind with
  | schema => exact absurd hkind hp
  | table =>
    cases hd : i.entity? Model.Table.read? with
    | none => rfl
    | some d =>
      rw [Option.elim_some, ItemList.tableBlock_eq, change_of_entity? hd, h]
      cases p.list <;> rfl
  | view =>
    cases hd : i.entity? Model.View.read? with
    | none => rfl
    | some d =>
      rw [Option.elim_some, ItemList.viewBlock_eq, change_of_entity? hd, h]
      cases p.list <;> rfl
  | type =>
    cases hd : i.entity? Model.UserType.read? with
    | none => rfl
    | some d =>
      rw [Option.elim_some, ItemList.typeBlock_eq, change_of_entity? hd, h]
      cases p.list <;> rfl

end Item

/-! ## Scalars in the place of objects -/

/-- What a scalar does in the place of the encryption of a field, which is `f` without it. -/
structure Model.Field.EncryptedBy (r : Entries) (f : Model.Field) : Prop where
  without : Model.Field.read? (.object (r.without "encryption")) = some f
  plain : f.encryption = none
  /-- The field is encrypted, in no particular way. -/
  read : Model.Field.read? (.object r) = some { f with encryption := some {} }
  /-- The line of its column has the word for it. -/
  line : ∀ name required ctx, ∃ front back,
    (Column.ofNode name f required ctx).line.text = front ++ back ∧
    (Column.ofNode name { f with encryption := some {} } required ctx).line.text =
      front ++ " ENCRYPT" ++ back

/-- What a scalar does in the place of an option of a table, which is `n` without it. -/
structure Model.TableOption.GivenBy (o : Model.TableOption) (r : Entries) (n : Model.Table) :
    Prop where
  without : Model.Table.read? (.object (r.without o.key)) = some n
  plain : o.isGiven n = false
  /-- The table has the option, which tells nothing. -/
  read : Model.Table.read? (.object r) = some (o.give n)
  /-- Of the statements for the table, the first gains what there is to gain. -/
  units : ∀ ctx name, n.tableName? = some name → ∃ front back rest,
    n.units ctx = ⟨guarded (front ++ back) n.ifNotExist nameInUse, n.active⟩ :: rest ∧
    (o.give n).units ctx =
      ⟨guarded (front ++ o.gain n ++ back) n.ifNotExist nameInUse, n.active⟩ :: rest
  /-- They are the same statements exactly where there is nothing to gain. -/
  units_iff : ∀ ctx, (o.give n).units ctx = n.units ctx ↔ n.tableName? = none ∨ o.gain n = ""

/-- What a scalar does in the place of the change of a field, which is `f` without it. -/
structure Model.Field.MarkedBy (r : Entries) (f : Model.Field) : Prop where
  without : Model.Field.read? (.object (r.without "compMod")) = some f
  plain : f.change = none
  /-- The field counts as changed. -/
  read : Model.Field.read? (.object r) = some f.marked
  /-- Where columns of a table with a name are added or dropped, the steps are those without the
  column, and not those with `f`; elsewhere the statements are those with `f`. -/
  columns : ∀ (list : ItemList) (release : Option String) (d : Changed Model.Table)
      (l m : Model.Fields) (name : String),
    let steps := fun fields => list.tableBlock release (d.withColumns fields)
    let new := list ≠ .modified ∧ d.change = .fields ∧ d.node.tableName? ≠ none
    (new → steps (l ++ (name, f.marked) :: m) = steps (l ++ m)) ∧
      ((steps (l ++ (name, f.marked) :: m)).flatMap Step.units =
        (steps (l ++ (name, f) :: m)).flatMap Step.units ↔ ¬new)
  /-- So it is with the attributes of an object type with a name. -/
  attributes : ∀ (list : ItemList) (release : Option String) (d : Changed Model.UserType)
      (l m : Model.Fields) (name : String),
    let steps := fun fields => list.typeBlock release (d.withAttributes fields)
    let new := list ≠ .modified ∧ d.change = .fields ∧ d.node.typeName? ≠ none ∧
      d.node.isObject = true
    (new → steps (l ++ (name, f.marked) :: m) = steps (l ++ m)) ∧
      ((steps (l ++ (name, f.marked) :: m)).flatMap Step.units =
        (steps (l ++ (name, f) :: m)).flatMap Step.units ↔ ¬new)

/-- What a scalar does in the place of the marker of an entity. -/
structure Item.MarkedBy (r : Entries) : Prop where
  without : markOf? (.object (r.without "compMod")) = none
  /-- The entity is marked, neither as created nor as deleted. -/
  read : markOf? (.object r) = some {}
  /-- All its steps are gone, unless it is a schema. -/
  block : ∀ (p : Place) (release : Option String) (key : String),
    Item.block p release ⟨key, .object r⟩ =
      if p.kind = .schema then Item.block p release ⟨key, .object (r.without "compMod")⟩ else []

namespace Json

variable {r : Entries}

theorem encryptedBy_of_isScalar (hv : (r.value "encryption").isScalar = true) :
    ∃ f, Model.Field.EncryptedBy r f := by
  have hnone : ((r.without "encryption").value "encryption").nested?
      Model.Encryption.read? {} = none := by
    rw [Entries.value_without_self]
    rfl
  have hgiven : (r.value "encryption").nested? Model.Encryption.read? {} = some {} :=
    nested?_of_isScalar hv _
  refine ⟨_, rfl, hnone, ?_, Column.exists_text_line_encrypted hnone⟩
  rw [Model.Field.read?_of_agreeBut_encryption (Entries.agreeBut_without "encryption" r), hgiven]
  rfl

theorem givenBy_of_isScalar (o : Model.TableOption) (hv : (r.value o.key).isScalar = true) :
    ∃ n, o.GivenBy r n := by
  have hplain := o.isGiven_ofEntries_without r
  refine ⟨_, rfl, hplain, ?_, fun ctx _ => o.exists_units_give hplain ctx,
    o.units_give_iff hplain⟩
  exact congrArg some (o.ofEntries_of_isScalar hv)

theorem field_markedBy_of_isScalar (hv : (r.value "compMod").isScalar = true) :
    ∃ f, Model.Field.MarkedBy r f := by
  have hnone : ((r.without "compMod").value "compMod").nested?
      Model.FieldChange.read? {} = none := by
    rw [Entries.value_without_self]
    rfl
  have hgiven : (r.value "compMod").nested? Model.FieldChange.read? {} = some {} :=
    nested?_of_isScalar hv _
  refine ⟨_, rfl, hnone, ?_, fun list release d => (list.bearing_tableBlock release d).marked hnone,
    fun list release d => (list.bearing_typeBlock release d).marked hnone⟩
  rw [Model.Field.read?_of_agreeBut_compMod (Entries.agreeBut_without "compMod" r), hgiven]
  rfl

theorem item_markedBy_of_isScalar (hv : (r.value "compMod").isScalar = true) :
    Item.MarkedBy r := by
  have hgiven : markOf? (.object r) = some {} := nested?_of_isScalar hv _
  refine ⟨?_, hgiven, fun p release key => ?_⟩
  · rw [markOf?_object, Model.EntityMark.ofEntries?, Entries.value_without_self]
    rfl
  · split
    · next hp => exact Item.block_schema (Entries.agreeBut_without "compMod" r) hp release key
    · next hp =>
      have hmarked : Item.change ⟨key, .object r⟩ = .marked :=
        congrArg EntityChange.ofMark hgiven
      exact Item.block_of_marked hmarked hp release

/-- **A scalar in the place of an object of options counts as given**, with all options left
open. -/
theorem scalar_counts_as_given {v : Json} (hv : v.isScalar = true) :
    (∀ r : Entries, r.value "encryption" = v → ∃ f, Model.Field.EncryptedBy r f) ∧
      (∀ (o : Model.TableOption) (r : Entries), r.value o.key = v → ∃ n, o.GivenBy r n) ∧
      ∀ r : Entries, r.value "compMod" = v → (∃ f, Model.Field.MarkedBy r f) ∧ Item.MarkedBy r := by
  refine ⟨fun r hr => encryptedBy_of_isScalar (by rw [hr, hv]),
    fun o r hr => givenBy_of_isScalar o (by rw [hr, hv]), fun r hr => ⟨?_, ?_⟩⟩
  · exact field_markedBy_of_isScalar (by rw [hr, hv])
  · exact item_markedBy_of_isScalar (by rw [hr, hv])

/-- A table with a name and one option. -/
def tableWith (key : String) (v : Json) : Entries := [("name", .string "t"), (key, v)]

/-- The texts that create the table of a node. -/
def creationTexts (r : Entries) : Option (List String) :=
  (Model.Table.read? (.object r)).map fun n => (n.units {}).map Fragment.text

/-- With `false` in the place of each, a field is encrypted, a table is stored and an entity is
marked. -/
theorem scalar_counts_as_given_false :
    (Json.bool false).isScalar = true ∧
      (∃ f, Model.Field.EncryptedBy [("mode", .string "number"), ("encryption", .bool false)] f) ∧
      (∃ n, Model.TableOption.storage.GivenBy (tableWith "storage" (.bool false)) n) ∧
      Item.MarkedBy (tableWith "compMod" (.bool false)) := by
  obtain ⟨hfield, htable, hmark⟩ := scalar_counts_as_given (v := .bool false) rfl
  exact ⟨rfl, hfield _ rfl, htable .storage _ rfl, (hmark _ rfl).2⟩

/-- So a storage that is `false` leaves a line in the creation of a table. -/
theorem storage_not_absent :
    creationTexts (tableWith "storage" (.bool false)) =
        some ["CREATE TABLE \"t\"\nORGANIZATION HEAP NOLOGGING;"] ∧
      creationTexts ((tableWith "storage" (.bool false)).without "storage") =
        some ["CREATE TABLE \"t\";"] := by
  decide +kernel

end Json

end SchemaDelta
