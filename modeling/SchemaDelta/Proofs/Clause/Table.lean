import SchemaDelta.Proofs.Clause.Options
import SchemaDelta.Proofs.Script.Sealed

/-!
# Tables are made of phrases

The creation of a table and of its indexes. There is a comment in such a statement only if it is
live, so a statement that is commented out has none.
-/

namespace SchemaDelta

open Sql Text

variable {p : String → Prop} {b : Bool}

/-! ## Indexes -/

/-- The texts of an index are of the class. -/
structure Index.Texts (p : String → Prop) (i : Index) : Prop where
  name : p i.name
  indexType : Given p i.indexType
  keys : ∀ k ∈ i.keys, p k.column.name ∧ Given p k.order
  expressions : ∀ e ∈ i.expressions, p e
  properties : Given p i.properties
  logging : Given p i.logging
  tablespace : Given p i.tablespace
  compression : Given p i.compression
  attributes : Given p i.attributes

/-- A key of an index is a column of the table, or has the name that the reference gives. -/
theorem IndexKey.texts_ofRef {fields : Model.Fields} (hf : fields.Texts p)
    {ref : Model.ColumnRef} (h : ref.Texts p) {k : IndexKey}
    (hk : IndexKey.ofRef? fields ref = some k) : p k.column.name ∧ Given p k.order := by
  obtain ⟨c, hcol, rfl⟩ := Option.map_eq_some_iff.1 hk
  refine ⟨?_, h.order⟩
  -- A reference that leads to no column of the table keeps its own name.
  cases hr : ref.resolve? fields with
  | some d =>
    rw [hr] at hcol
    obtain rfl : d = c := Option.some.inj hcol
    exact given_resolve? hf hr
  | none =>
    rw [hr] at hcol
    obtain ⟨n, hn, rfl⟩ := Option.map_eq_some_iff.1 hcol
    exact (h.name n hn).1

theorem Index.texts_ofNode {fields : Model.Fields} (hf : fields.Texts p) {n : Model.Index}
    (h : n.Texts p) {i : Index} (hi : Index.ofNode? n fields = some i) : i.Texts p := by
  obtain ⟨name, hname, rfl⟩ := Option.map_eq_some_iff.1 hi
  exact
    { name := (h.name name hname).1
      indexType := h.indexType
      keys := fun k hk => by
        obtain ⟨ref, href, hrk⟩ := List.mem_filterMap.1 hk
        exact IndexKey.texts_ofRef hf (h.keys ref href) hrk
      expressions := fun e he => by
        obtain ⟨c, hmem, hce⟩ := List.mem_filterMap.1 he
        split at hce
        · next s hs =>
          obtain rfl := Option.some.inj hce
          exact h.columnExpression c hmem _ _ hs
        · simp at hce
      properties := h.properties
      logging := h.logging
      tablespace := h.tablespace
      compression := h.compression
      attributes := h.attributes }

namespace Index

variable {i : Index}

theorem tail_keyBlock (hc : TextClass p) (h : i.Texts p) (active : Bool) :
    Tail p active (i.keyBlock active) := by
  have hkeys : ∀ m ∈ i.keys.map IndexKey.fragment, Phrase p (m.active && active) m.text := by
    intro m hm
    obtain ⟨k, hk, rfl⟩ := List.mem_map.1 hm
    refine (phrase_quote hc (h.keys k hk).1).append_tail (.getD fun t ht => ?_)
    obtain ⟨o, ho, rfl⟩ := Option.map_eq_some_iff.1 ht
    have hupper : o.toUpper ∈ (k.order.bind trimmed?).map String.toUpper := by
      rw [ho]
      rfl
    exact .of_phrase (by decide) ((((h.keys k hk).2.trimmed hc).upper hc).phrase hupper)
  unfold keyBlock
  split
  · have htail := Tail.of_phrase (by decide : isSeparator "\n" = true)
      (OptPhrase.composite (by decide : isSeparator ",\n\t" = true) (by decide) hkeys).block
    exact htail.of_toList (by simp)
  · split
    · exact .empty
    · have hexpressions : OptPhrase p active (join ", " i.expressions) :=
        .join_word (by decide) fun e he => .given (h.expressions e he)
      have htail := Tail.of_phrase (by decide : isSeparator " " = true) hexpressions.paren
      exact htail.of_toList (by simp)

theorem optPhrase_options (hc : TextClass p) (h : i.Texts p) : OptPhrase p b i.options := by
  unfold options
  split
  · next s hs => exact .of_phrase ((h.properties.trimmed hc).phrase hs)
  · refine .join (by decide) fun s hs => ?_
    obtain ⟨o, ho, hos⟩ := List.mem_filterMap.1 hs
    have hmem : s ∈ o := (Option.filter_eq_some_iff.1 hos).1
    simp only [List.mem_cons, List.not_mem_nil, or_false] at ho
    rcases ho with rfl | rfl | rfl | rfl
    · exact (h.logging.upper hc).phrase hmem
    · obtain ⟨t, ht, rfl⟩ := Option.map_eq_some_iff.1 hmem
      exact .lead (by decide) (h.tablespace.phrase ht)
    · exact h.compression.phrase hmem
    · exact h.attributes.phrase hmem

/-- The creation of an index is a statement. -/
theorem written_statement (hc : TextClass p) (h : i.Texts p) {table : String}
    {schema : Option String} (htable : p table) (hschema : ∀ s ∈ schema, p s)
    (parentActive : Bool) :
    Written p (i.statement table schema parentActive).active
      (i.statement table schema parentActive).text := by
  have htype : OptPhrase p (i.active && parentActive)
      (((i.indexType.bind trimmed?).map String.toUpper).getD "") :=
    ((h.indexType.trimmed hc).upper hc).optPhrase
  have hhead := Phrase.framed_right (.word (by decide : isWord "CREATE" = true))
    (by decide : isSeparator " " = true) htype
  rw [statement, Form.fill_createIndex]
  exact (((((hhead.glue (by decide) (phrase_quote hc h.name)).glue (by decide)
    (phrase_qualified hc htable hschema)).append_tail (tail_keyBlock hc h _)).framed_right
    (by decide) (optPhrase_options hc h))).written

end Index

/-! ## Tables -/

/-- The texts of a kind of table are of the class. -/
def Table.Kind.Texts (p : String → Prop) : Table.Kind → Prop
  | temporary scope => p scope
  | _ => True

/-- The texts of a table of a model are of the class. -/
structure Table.Texts (p : String → Prop) (t : Table) : Prop where
  name : p t.name
  schema : ∀ s ∈ t.schema, p s
  columns : ∀ c ∈ t.columns, c.Texts p
  keys : ∀ k ∈ t.keys, (∀ c ∈ k.columns, p c.name) ∧ k.options.Texts p
  checks : ∀ c ∈ t.checks, c.Texts p
  foreignKeys : t.foreignKeys = []
  kind : t.kind.Texts p
  storage : ∀ s ∈ t.storage, s.Texts p
  external : ∀ e ∈ t.external, e.Texts p
  blockchain : ∀ n ∈ t.blockchain, n.Texts p
  partitioning : ∀ n ∈ t.partitioning, n.Texts p
  selectStatement : Given p t.selectStatement
  description : Given p t.description
  indexes : ∀ i ∈ t.indexes, i.Texts p

theorem Table.Kind.texts_ofNode (hc : TextClass p) {n : Model.Table} (h : n.Texts p) :
    (Table.Kind.ofNode n).Texts p := by
  have hscope : p (n.temporaryType.getD "global") := by
    cases ht : n.temporaryType with
    | none => exact hc.plain (by decide)
    | some s => exact (h.temporaryType s ht).1
  unfold ofNode
  split_ifs
  · exact hc.upper hscope
  · trivial
  · trivial
  · trivial
  · split <;> trivial

/-- The composite keys of a table have columns of the table. -/
theorem texts_keyConstraints {n : Model.Table} (h : n.Texts p) :
    ∀ k ∈ n.keyConstraints, (∀ c ∈ k.columns, p c.name) ∧ k.options.Texts p := by
  intro k hk
  have hmem := (List.mem_filter.1 hk).1
  rcases List.mem_append.1 hmem with hmem | hmem
  · obtain ⟨key, hkey, rfl⟩ := List.mem_map.1 hmem
    exact ⟨given_resolveKeys h.fields _, h.primaryKeys key hkey⟩
  · obtain ⟨key, hkey, rfl⟩ := List.mem_map.1 hmem
    exact ⟨given_resolveKeys h.fields _, h.uniqueKeys key hkey⟩

/-- The table that a node describes. -/
theorem Table.texts_ofNode (hc : TextClass p) {n : Model.Table} (h : n.Texts p) {ctx : Context}
    (hs : ∀ s ∈ ctx.schema, p s) {t : Table} (ht : Table.ofNode? n ctx = some t) :
    t.Texts p := by
  obtain ⟨name, hname, rfl⟩ := Option.map_eq_some_iff.1 ht
  exact
    { name := (h.name name hname).1
      schema := hs
      columns := texts_columns hc h.fields _ _
      keys := texts_keyConstraints h
      checks := fun c hmem => by
        obtain ⟨m, hm, hmc⟩ := List.mem_filterMap.1 hmem
        exact Check.texts_ofNode hc (h.checks m hm) hmc
      foreignKeys := rfl
      kind := Kind.texts_ofNode hc h
      storage := h.storage
      external := h.external
      blockchain := h.blockchain
      partitioning := fun m hm => by
        obtain ⟨q, hq, rfl⟩ := Option.map_eq_some_iff.1 hm
        exact Partitioning.texts_ofNode h.fields (h.partitioning q hq)
      selectStatement := h.selectStatement.trimmed hc
      description := h.description
      indexes := fun i hi => by
        obtain ⟨m, hm, hmi⟩ := List.mem_filterMap.1 hi
        exact Index.texts_ofNode h.fields (h.indexes m hm) hmi }

/-- The strings of a kind of table. -/
def Table.Kind.strings : Table.Kind → List String
  | temporary scope => [scope]
  | _ => []

namespace Table

variable {t : Table}

/-- The strings in the columns, keys and checks of a table. -/
def memberStrings (t : Table) : List String :=
  t.columns.flatMap Column.strings ++ t.keys.flatMap TableKey.strings ++
    t.checks.flatMap Check.strings

/-- The strings in the options of a table. -/
def optionStrings (t : Table) : List String :=
  t.blockchain.toList.flatMap Model.Blockchain.strings ++
    t.storage.toList.flatMap Model.Storage.strings ++
    t.external.toList.flatMap Model.ExternalAccess.strings ++
    t.partitioning.toList.flatMap Partitioning.strings ++ t.selectStatement.toList

/-- The strings in the creation of a table, apart from its foreign keys. -/
def strings (t : Table) : List String :=
  t.name :: (t.schema.toList ++ t.kind.strings ++ t.memberStrings ++ t.optionStrings)

theorem Kind.Texts.strings {k : Table.Kind} (h : k.Texts p) : ∀ s ∈ k.strings, p s := by
  cases k with
  | temporary scope => exact List.forall_mem_singleton.2 h
  | _ => exact List.forall_mem_nil _

theorem mem_memberStrings {s : String} :
    s ∈ t.memberStrings ↔ (∃ c ∈ t.columns, s ∈ c.strings) ∨ (∃ k ∈ t.keys, s ∈ k.strings) ∨
      ∃ c ∈ t.checks, s ∈ c.strings := by
  simp [memberStrings]

theorem mem_optionStrings {s : String} :
    s ∈ t.optionStrings ↔ (∃ n ∈ t.blockchain, s ∈ n.strings) ∨ (∃ n ∈ t.storage, s ∈ n.strings) ∨
      (∃ n ∈ t.external, s ∈ n.strings) ∨ (∃ n ∈ t.partitioning, s ∈ n.strings) ∨
        s ∈ t.selectStatement := by
  simp [optionStrings]

theorem mem_strings {s : String} :
    s ∈ t.strings ↔ s = t.name ∨ s ∈ t.schema ∨ s ∈ t.kind.strings ∨ s ∈ t.memberStrings ∨
      s ∈ t.optionStrings := by
  simp [strings]

theorem Texts.memberStrings (h : t.Texts p) : ∀ s ∈ t.memberStrings, p s := by
  intro s hs
  rcases mem_memberStrings.1 hs with ⟨c, hc, hs⟩ | ⟨k, hk, hs⟩ | ⟨c, hc, hs⟩
  · exact (h.columns c hc).strings s hs
  · rcases List.mem_append.1 hs with hs | hs
    · obtain ⟨c, hc, rfl⟩ := List.mem_map.1 hs
      exact (h.keys k hk).1 c hc
    · exact (h.keys k hk).2.strings s hs
  · exact (h.checks c hc).strings s hs

theorem Texts.optionStrings (h : t.Texts p) : ∀ s ∈ t.optionStrings, p s := by
  intro s hs
  rcases mem_optionStrings.1 hs with ⟨n, hn, hs⟩ | ⟨n, hn, hs⟩ | ⟨n, hn, hs⟩ | ⟨n, hn, hs⟩ | hs
  · exact (h.blockchain n hn).strings s hs
  · exact (h.storage n hn).strings s hs
  · exact (h.external n hn).strings s hs
  · exact (h.partitioning n hn).strings s hs
  · exact (h.selectStatement s hs).1

theorem Texts.strings (h : t.Texts p) : ∀ s ∈ t.strings, p s := by
  intro s hs
  rcases mem_strings.1 hs with rfl | hs | hs | hs | hs
  · exact h.name
  · exact h.schema s hs
  · exact h.kind.strings s hs
  · exact h.memberStrings s hs
  · exact h.optionStrings s hs

/-- A table of a model has no foreign keys of its own. -/
theorem Texts.phrase_foreignKeys (h : t.Texts p) :
    ∀ k ∈ t.foreignKeys, Phrase p (k.active && t.active) (k.fragment t.schema).text := by
  simp [h.foreignKeys]

/-- A member has a comment in it only if it and the table are active, if this holds of the foreign
keys. -/
theorem phrase_members (hc : TextClass p) (h : ∀ s ∈ t.memberStrings, p s)
    (hkeys : ∀ k ∈ t.foreignKeys, Phrase p (k.active && t.active) (k.fragment t.schema).text) :
    ∀ m ∈ t.members, Phrase p (m.active && t.active) m.text := by
  intro m hm
  simp only [members, List.mem_append, List.mem_map] at hm
  rcases hm with ((⟨c, hmem, rfl⟩ | ⟨k, hmem, rfl⟩) | ⟨c, hmem, rfl⟩) | ⟨k, hmem, rfl⟩
  · exact c.phrase_line hc fun s hs => h s (mem_memberStrings.2 (.inl ⟨c, hmem, hs⟩))
  · exact k.phrase_fragment hc
      (fun s hs => h s (mem_memberStrings.2 (.inr (.inl ⟨k, hmem, hs⟩)))) t.active
  · exact c.phrase_fragment hc fun s hs => h s (mem_memberStrings.2 (.inr (.inr ⟨c, hmem, hs⟩)))
  · exact hkeys k hmem

theorem optPhrase_options (hc : TextClass p) (h : ∀ s ∈ t.optionStrings, p s) :
    OptPhrase p t.active t.options := by
  refine .join (by decide) fun s hs => ?_
  obtain ⟨o, ho, hos⟩ := List.mem_filterMap.1 hs
  have hos' : o = some s := hos
  simp only [List.mem_cons, List.not_mem_nil, or_false] at ho
  rcases ho with rfl | rfl | rfl | rfl | rfl
  · obtain ⟨n, hn, hns⟩ := Option.bind_eq_some_iff.1 hos'
    exact phrase_blockchain hc (fun u hu => h u (mem_optionStrings.2 (.inl ⟨n, hn, hu⟩))) hns
  · obtain ⟨n, hn, rfl⟩ := Option.map_eq_some_iff.1 hos'
    exact phrase_storage hc fun u hu => h u (mem_optionStrings.2 (.inr (.inl ⟨n, hn, hu⟩)))
  · obtain ⟨n, hn, hns⟩ := Option.bind_eq_some_iff.1 hos'
    exact phrase_external
      (fun u hu => h u (mem_optionStrings.2 (.inr (.inr (.inl ⟨n, hn, hu⟩))))) hc hns
  · obtain ⟨n, hn, hns⟩ := Option.bind_eq_some_iff.1 hos'
    exact n.phrase_clause hc
      (fun u hu => h u (mem_optionStrings.2 (.inr (.inr (.inr (.inl ⟨n, hn, hu⟩)))))) hns
  · obtain ⟨q, hq, rfl⟩ := Option.map_eq_some_iff.1 hos'
    exact (OptPhrase.given (h q (mem_optionStrings.2 (.inr (.inr (.inr (.inr hq))))))).lead
      (by decide)

/-- The words before `TABLE` may be missing. -/
theorem optPhrase_kind (h : ∀ s ∈ t.kind.strings, p s) :
    OptPhrase p b (t.kind.words?.getD "") := by
  cases hk : t.kind with
  | regular => exact .empty
  | temporary scope =>
    rw [hk] at h
    exact .of_phrase ((OptPhrase.given (h scope List.mem_cons_self)).trail (by decide))
  | blockchain immutable => cases immutable <;> exact .of_phrase (.word (by decide))
  | _ => exact .of_phrase (.word (by decide))

/-- The creation of a table has comments in it only if the table is active, if this holds of the
foreign keys. -/
theorem phrase_createText (hc : TextClass p) (h : ∀ s ∈ t.strings, p s)
    (hkeys : ∀ k ∈ t.foreignKeys, Phrase p (k.active && t.active) (k.fragment t.schema).text) :
    Phrase p t.active t.createText := by
  have hkind : OptPhrase p t.active (t.kind.words?.getD "") :=
    optPhrase_kind fun s hs => h s (mem_strings.2 (.inr (.inr (.inl hs))))
  have hhead := Phrase.framed_right (.word (by decide : isWord "CREATE" = true))
    (by decide : isSeparator " " = true) hkind
  have hname : Phrase p t.active t.qualifiedName :=
    phrase_qualified hc (h _ (mem_strings.2 (.inl rfl)))
      fun s hs => h s (mem_strings.2 (.inr (.inl hs)))
  have hbody : OptPhrase p t.active (composite t.members ",\n\t" t.active) :=
    .composite (by decide) (by decide) (phrase_members hc
      (fun s hs => h s (mem_strings.2 (.inr (.inr (.inr (.inl hs)))))) hkeys)
  have hoptions : OptPhrase p t.active t.options :=
    optPhrase_options hc fun s hs => h s (mem_strings.2 (.inr (.inr (.inr (.inr hs)))))
  rw [createText, Form.fill_createTable]
  exact ((hhead.glue (by decide) hname).framed_block hbody).framed_right (by decide) hoptions

/-- The statements of a table have comments in them only if they are live. -/
theorem written_units (hc : TextClass p) (h : t.Texts p) :
    ∀ u ∈ t.createUnits ++ t.indexUnits, Written p u.active u.text := by
  intro u hu
  simp only [createUnits, List.cons_append, List.mem_cons, List.mem_append, Option.mem_toList,
    List.mem_filterMap] at hu
  rcases hu with rfl | (hu | ⟨c, hmem, hu⟩) | hu
  · exact (phrase_createText hc h.strings h.phrase_foreignKeys).guarded t.capital_createText _ _
  · obtain ⟨d, hd, rfl⟩ := Option.map_eq_some_iff.1 hu
    have htext := (h.description d (Option.filter_eq_some_iff.1 hd).1).1
    exact written_commentOn (by decide) (phrase_qualified hc h.name h.schema) htext
  · exact c.written_commentUnit hc (h.columns c hmem) (phrase_qualified hc h.name h.schema) hu
  · obtain ⟨i, hi, rfl⟩ := List.mem_map.1 hu
    exact i.written_statement hc (h.indexes i hi) h.name h.schema t.active

end Table

end SchemaDelta
