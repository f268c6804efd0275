import SchemaDelta.Model.Table
import SchemaDelta.Model.UserType
import SchemaDelta.Model.View
import SchemaDelta.Proofs.Model.Texts

/-!
# The texts of the entities of a model

Tables, views, types and schemas with the texts that are written into a script.
-/

namespace SchemaDelta.Model

open Json

variable {P : Json → Prop} {p : String → Prop} {v : Json} {r : Json.Entries}

/-! ## Parts of a table -/

/-- The texts under any key of the clauses. -/
def ClauseList.Texts (p : String → Prop) (clauses : ClauseList) : Prop :=
  ∀ c ∈ clauses, ∀ key s, Entries.value? key c = some (.string s) → p s

theorem ClauseList.texts_list (g : Grants P p) (h : P v) :
    ClauseList.Texts p (v.list Json.object?) := by
  refine g.list h fun {w c} hw hc key s hs => ?_
  obtain ⟨l, m, hlm, -⟩ := List.lookup_eq_some_iff.1 hs
  have hobject := Grants.object hw hc
  exact g.string (g.value (e := (key, .string s)) hobject (by rw [hlm]; simp))

structure Check.Texts (p : String → Prop) (c : Check) : Prop where
  name : Given p c.name
  expression : Given p c.expression

theorem Check.texts_read? (g : Grants P p) {c : Check} (h : P v) (hc : Check.read? v = some c) :
    c.Texts p := by
  obtain ⟨r, hr, rfl⟩ := Option.map_eq_some_iff.1 hc
  have hg := g.record h hr
  exact ⟨g.fieldText hg "chkConstrName", g.fieldText hg "constrExpression"⟩

structure Index.Texts (p : String → Prop) (i : Index) : Prop where
  name : Given p i.name
  indexType : Given p i.indexType
  keys : ∀ k ∈ i.keys, k.Texts p
  columnExpression : i.columnExpression.Texts p
  properties : Given p i.properties
  logging : Given p i.logging
  tablespace : Given p i.tablespace
  compression : Given p i.compression
  attributes : Given p i.attributes

theorem Index.texts_read? (g : Grants P p) {i : Index} (h : P v) (hi : Index.read? v = some i) :
    i.Texts p := by
  obtain ⟨r, hr, rfl⟩ := Option.map_eq_some_iff.1 hi
  have hg := g.record h hr
  exact
    { name := g.fieldText hg "indxName"
      indexType := g.fieldText hg "indxType"
      keys := g.list (g.field hg "indxKey") (ColumnRef.texts_read? g)
      columnExpression := ClauseList.texts_list g (g.field hg "column_expression")
      properties := g.fieldText hg "index_properties"
      logging := g.fieldText hg "logging_clause"
      tablespace := g.fieldText hg "tablespace"
      compression := g.fieldText hg "index_compression"
      attributes := g.fieldText hg "index_attributes" }

structure Partitioning.Texts (p : String → Prop) (n : Partitioning) : Prop where
  subpartitionType : Given p n.subpartitionType
  interval : Given p n.interval
  constraint : Given p n.constraint
  storeIn : n.storeIn.Texts p
  overflowStoreIn : n.overflowStoreIn.Texts p
  ranges : n.ranges.Texts p
  lists : n.lists.Texts p
  hashes : n.hashes.Texts p
  references : n.references.Texts p
  systems : n.systems.Texts p
  subRanges : n.subRanges.Texts p
  subLists : n.subLists.Texts p

theorem Partitioning.texts_read? (g : Grants P p) {n : Partitioning} (h : P v)
    (hn : Partitioning.read? v = some n) : n.Texts p := by
  obtain ⟨r, hr, rfl⟩ := Option.map_eq_some_iff.1 hn
  have hg := g.record h hr
  have hclauses (key : String) : ClauseList.Texts p (r.list Json.object? key) :=
    ClauseList.texts_list g (g.field hg key)
  exact
    { subpartitionType := g.fieldText hg "subpartitionType"
      interval := g.fieldText hg "interval"
      constraint := g.fieldText hg "constraint"
      storeIn := hclauses "store_in_tablespaces"
      overflowStoreIn := hclauses "overflow_store_in_tablespaces"
      ranges := hclauses "range_partitions"
      lists := hclauses "list_partitions"
      hashes := hclauses "individual_hash_partitions"
      references := hclauses "reference_partition_descs"
      systems := hclauses "system_partition_descs"
      subRanges := hclauses "range_subpartition_descs"
      subLists := hclauses "list_subpartition_descs" }

/-- A list of clauses that is absent has no texts. -/
theorem ClauseList.texts_nil : ClauseList.Texts p [] := by
  intro c hc
  cases hc

theorem Partitioning.texts_empty : Partitioning.Texts p {} :=
  ⟨given_none p, given_none p, given_none p, ClauseList.texts_nil, ClauseList.texts_nil,
    ClauseList.texts_nil, ClauseList.texts_nil, ClauseList.texts_nil, ClauseList.texts_nil,
    ClauseList.texts_nil, ClauseList.texts_nil, ClauseList.texts_nil⟩

structure Storage.Texts (p : String → Prop) (s : Storage) : Prop where
  organization : Given p s.organization
  tablespace : Given p s.tablespace

theorem Storage.texts_read? (g : Grants P p) {s : Storage} (h : P v)
    (hs : Storage.read? v = some s) : s.Texts p := by
  obtain ⟨r, hr, rfl⟩ := Option.map_eq_some_iff.1 hs
  have hg := g.record h hr
  exact ⟨g.fieldText hg "organization", g.fieldText hg "tablespace"⟩

theorem Storage.texts_empty : Storage.Texts p {} := ⟨given_none p, given_none p⟩

structure Location.Texts (p : String → Prop) (l : Location) : Prop where
  directory : Given p l.directory
  specifier : Given p l.specifier

theorem Location.texts_read? (g : Grants P p) {l : Location} (h : P v)
    (hl : Location.read? v = some l) : l.Texts p := by
  obtain ⟨r, hr, rfl⟩ := Option.map_eq_some_iff.1 hl
  have hg := g.record h hr
  exact ⟨g.fieldText hg "location_directory", g.fieldText hg "location_specifier"⟩

structure ExternalAccess.Texts (p : String → Prop) (e : ExternalAccess) : Prop where
  driver : Given p e.driver
  defaultDirectory : Given p e.defaultDirectory
  formatSpec : Given p e.formatSpec
  subquery : Given p e.subquery
  rejectLimit : Given p e.rejectLimit
  locations : ∀ l ∈ e.locations, l.Texts p

theorem ExternalAccess.texts_read? (g : Grants P p) {e : ExternalAccess} (h : P v)
    (he : ExternalAccess.read? v = some e) : e.Texts p := by
  obtain ⟨r, hr, rfl⟩ := Option.map_eq_some_iff.1 he
  have hg := g.record h hr
  exact
    { driver := g.fieldText hg "access_driver_type"
      defaultDirectory := g.fieldText hg "default_directory"
      formatSpec := g.fieldText hg "opaque_format_spec"
      subquery := g.fieldText hg "clob_subquery"
      rejectLimit := g.fieldText hg "reject_limit"
      locations := g.list (g.field hg "location") (Location.texts_read? g) }

theorem ExternalAccess.texts_empty : ExternalAccess.Texts p {} :=
  ⟨given_none p, given_none p, given_none p, given_none p, given_none p, by simp⟩

structure Blockchain.Texts (p : String → Prop) (b : Blockchain) : Prop where
  tableRetention : Given p b.tableRetention
  rowRetention : Given p b.rowRetention
  hashAndFormat : Given p b.hashAndFormat

theorem Blockchain.texts_read? (g : Grants P p) {b : Blockchain} (h : P v)
    (hb : Blockchain.read? v = some b) : b.Texts p := by
  obtain ⟨r, hr, rfl⟩ := Option.map_eq_some_iff.1 hb
  have hg := g.record h hr
  exact ⟨g.fieldText hg "blockchain_table_retention_clause",
    g.fieldText hg "blockchain_row_retention_clause",
    g.fieldText hg "blockchain_hash_and_data_format_clause"⟩

theorem Blockchain.texts_empty : Blockchain.Texts p {} :=
  ⟨given_none p, given_none p, given_none p⟩

/-! ## Entities -/

structure Table.Texts (p : String → Prop) (t : Table) : Prop where
  name : Given p t.tableName?
  fields : t.fields.Texts p
  primaryKeys : ∀ k ∈ t.primaryKeys, k.options.Texts p
  uniqueKeys : ∀ k ∈ t.uniqueKeys, k.options.Texts p
  checks : ∀ c ∈ t.checks, c.Texts p
  indexes : ∀ i ∈ t.indexes, i.Texts p
  partitioning : ∀ n ∈ t.partitioning, n.Texts p
  storage : ∀ s ∈ t.storage, s.Texts p
  external : ∀ e ∈ t.external, e.Texts p
  blockchain : ∀ b ∈ t.blockchain, b.Texts p
  temporaryType : Given p t.temporaryType
  selectStatement : Given p t.selectStatement
  description : Given p t.description

theorem Table.texts_read? (g : Grants P p) {t : Table} (h : P v) (ht : Table.read? v = some t) :
    t.Texts p := by
  obtain ⟨r, hr, rfl⟩ := Option.map_eq_some_iff.1 ht
  have hg := g.record h hr
  exact
    { name := (g.fieldText hg "code").orElse
        ((g.fieldText hg "collectionName").orElse (g.fieldText hg "name"))
      fields := Fields.texts_table g (g.field hg "properties")
      primaryKeys := g.list (g.field hg "primaryKey") (CompositeKey.texts_read? g)
      uniqueKeys := g.list (g.field hg "uniqueKey") (CompositeKey.texts_read? g)
      checks := g.list (g.field hg "chkConstr") (Check.texts_read? g)
      indexes := g.list (g.field hg "Indxs") (Index.texts_read? g)
      partitioning :=
        g.nested? (g.field hg "partitioning") (Partitioning.texts_read? g) Partitioning.texts_empty
      storage := g.nested? (g.field hg "storage") (Storage.texts_read? g) Storage.texts_empty
      external := g.nested? (g.field hg "external_table_clause") (ExternalAccess.texts_read? g)
        ExternalAccess.texts_empty
      blockchain := g.nested? (g.field hg "blockchain_table_clauses") (Blockchain.texts_read? g)
        Blockchain.texts_empty
      temporaryType := g.fieldText hg "temporaryType"
      selectStatement := g.fieldText hg "selectStatement"
      description := g.fieldText hg "description" }

structure ViewColumn.Texts (p : String → Prop) (c : ViewColumn) : Prop where
  name : Given p c.name
  table : Given p c.table
  shownAs : Given p c.shownAs

/-- An expression may be empty or blank. -/
def ViewKey.Texts (p : String → Prop) : ViewKey → Prop
  | expression text => p text
  | column c => c.Texts p

theorem ViewKey.texts_read? (g : Grants P p) {k : ViewKey} (h : P v)
    (hk : ViewKey.read? v = some k) : k.Texts p := by
  have hcolumn {c : ViewColumn} (hc : ViewColumn.read? v = some c) : c.Texts p := by
    obtain ⟨r, hr, hif⟩ := Option.bind_eq_some_iff.1 hc
    have hg := g.record h hr
    split_ifs at hif
    obtain rfl := Option.some.inj hif
    exact ⟨g.fieldText hg "name",
      (g.fieldText hg "tableName").orElse (g.fieldText hg "entityName"), g.fieldText hg "alias"⟩
  unfold ViewKey.read? at hk
  split at hk
  · obtain rfl := Option.some.inj hk
    exact g.string h
  · obtain ⟨c, hc, rfl⟩ := Option.map_eq_some_iff.1 hk
    exact hcolumn hc

structure View.Texts (p : String → Prop) (w : View) : Prop where
  name : Given p (w.code <|> w.name)
  keys : ∀ k ∈ w.keys, k.Texts p
  selectStatement : Given p w.selectStatement
  description : Given p w.description

theorem View.texts_read? (g : Grants P p) {w : View} (h : P v) (hw : View.read? v = some w) :
    w.Texts p := by
  obtain ⟨r, hr, rfl⟩ := Option.map_eq_some_iff.1 hw
  have hg := g.record h hr
  exact
    { name := (g.fieldText hg "code").orElse (g.fieldText hg "name")
      keys := g.list (g.field hg "keys") (ViewKey.texts_read? g)
      selectStatement := g.fieldText hg "selectStatement"
      description := g.fieldText hg "description" }

structure UserType.Texts (p : String → Prop) (t : UserType) : Prop where
  name : Given p t.typeName?
  typing : t.typing.Texts p
  ofType : Given p t.ofType
  fields : t.fields.Texts p

theorem UserType.texts_read? (g : Grants P p) {t : UserType} (h : P v)
    (ht : UserType.read? v = some t) : t.Texts p := by
  obtain ⟨r, hr, rfl⟩ := Option.map_eq_some_iff.1 ht
  have hobject := Grants.object h hr
  have hg := g.entries hobject
  exact
    { name := (g.fieldText hg "code").orElse (g.fieldText hg "name")
      typing := Typing.texts_ofEntries g hobject
      ofType := g.fieldText hg "ofType"
      fields := Fields.texts_table g (g.field hg "properties") }

theorem Schema.texts_read? (g : Grants P p) {s : Schema} (h : P v)
    (hs : Schema.read? v = some s) : Given p (s.code <|> s.name) := by
  obtain ⟨r, hr, rfl⟩ := Option.map_eq_some_iff.1 hs
  have hg := g.record h hr
  exact (g.fieldText hg "code").orElse (g.fieldText hg "name")

theorem EntityMark.texts_read? (g : Grants P p) {m : EntityMark} (h : P v)
    (hm : EntityMark.read? v = some m) : Given p m.keyspaceName := by
  obtain ⟨r, hr, rfl⟩ := Option.map_eq_some_iff.1 hm
  exact g.fieldText (g.record h hr) "keyspaceName"

end SchemaDelta.Model
