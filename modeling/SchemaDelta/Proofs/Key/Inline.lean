import SchemaDelta.Proofs.Activation.Body
import SchemaDelta.Proofs.Key.References

/-!
# Inline and composite primary keys

Whether a column has an inline primary key is told by its flags, and whether it is a column of a
composite key by the references of the table. So no column has both exactly where the flags of the
columns follow the references, `Table.keysApart_iff`; a column that has both is declared a primary
key twice by the statement that creates the table.
-/

namespace SchemaDelta

open Sql Text

/-! ## Flags and references -/

/-- No column of a primary key of the table has an inline primary key. -/
def Table.KeysApart (t : Table) : Prop :=
  ∀ k ∈ t.keys, k.kind = .primary → ∀ c ∈ t.columns, c.name ∈ k.columns.map KeyMember.name →
    c.primaryKey = none

/-- The statement that creates the table declares a column a primary key in its line, and a primary
key with this column beside it. -/
def Table.DeclaresBoth (t : Table) (k : TableKey) (c : Column) (o : Model.KeyOptions) : Prop :=
  ∃ clauses columns,
    (quote c.name ++ clauses ++ " " ++ keyText .primary "" o).toList <:+: t.createText.toList ∧
      (keyText .primary columns k.options).toList <:+: t.createText.toList ∧
      (quote c.name).toList <:+: columns.toList

/-- A field is flagged as part of a composite key if it is flagged as a primary key and a primary
key refers to it. -/
def Model.Table.FlagsFollow (n : Model.Table) : Prop :=
  ∀ k ∈ n.primaryKeys, ∀ ref ∈ k.primary, ∀ e, ref.Means n.fields e → ∀ f, (e.1, f) ∈ n.fields →
    f.primaryKey = true → f.compositePrimaryKey = true ∨ f.compositeUniqueKey = true

/-- The flags alone tell whether a column has an inline primary key. -/
theorem Column.primaryKey_ofNode_eq_none_iff {name : String} {f : Model.Field}
    {required : List String} {ctx : Context} :
    (Column.ofNode name f required ctx).primaryKey = none ↔
      (f.primaryKey = true → f.compositePrimaryKey = true ∨ f.compositeUniqueKey = true) := by
  have hflag : f.inlinePrimaryKey = false ↔
      (f.primaryKey = true → f.compositePrimaryKey = true ∨ f.compositeUniqueKey = true) := by
    unfold Model.Field.inlinePrimaryKey
    cases f.primaryKey <;> cases f.compositePrimaryKey <;> cases f.compositeUniqueKey <;> decide
  rw [← hflag, ofNode]
  cases f.inlinePrimaryKey <;> simp

/-- The references alone tell which columns a primary key has. -/
theorem Model.Table.exists_primary_iff {n : Model.Table} {name : String} :
    (∃ k ∈ n.keyConstraints, k.kind = .primary ∧ name ∈ k.columns.map KeyMember.name) ↔
      ∃ k ∈ n.primaryKeys, ∃ ref ∈ k.primary, ∃ e, ref.Means n.fields e ∧ e.1 = name := by
  constructor
  · rintro ⟨k, hk, hkind, hname⟩
    rcases List.mem_append.1 (List.mem_filter.1 hk).1 with hk | hk
    · obtain ⟨spec, hspec, rfl⟩ := List.mem_map.1 hk
      obtain ⟨m, hm, rfl⟩ := List.mem_map.1 hname
      obtain ⟨ref, href, hmean⟩ := List.mem_filterMap.1 hm
      obtain ⟨e, he, rfl⟩ := ColumnRef.resolve?_eq_some_iff.1 hmean
      exact ⟨spec, hspec, ref, href, e, he, rfl⟩
    · obtain ⟨spec, -, rfl⟩ := List.mem_map.1 hk
      cases hkind
  · rintro ⟨spec, hspec, ref, href, e, he, rfl⟩
    have hmem : (⟨e.1, e.2.active⟩ : KeyMember) ∈ resolveKeys spec.primary n.fields :=
      List.mem_filterMap.2 ⟨ref, href, ColumnRef.resolve?_eq_some_iff.2 ⟨e, he, rfl⟩⟩
    have hkept : (!(resolveKeys spec.primary n.fields).isEmpty) = true := by
      simpa [List.isEmpty_iff] using List.ne_nil_of_mem hmem
    exact ⟨_, List.mem_filter.2 ⟨List.mem_append_left _ (List.mem_map_of_mem hspec), hkept⟩, rfl,
      List.mem_map_of_mem hmem⟩

/-! ## The text of both -/

/-- The line of a column with an inline primary key ends with it. -/
theorem Column.line_primaryKey {c : Column} {o : Model.KeyOptions} (hkey : c.primaryKey = some o)
    (hunique : c.unique = none) :
    ∃ clauses, c.line.text = quote c.name ++ clauses ++ " " ++ keyText .primary "" o := by
  have hne : keyText .primary "" o ≠ "" := keyText_ne_empty _ _ _
  have hlast : ∃ before, framed " " c.constraints "" = before ++ " " ++ keyText .primary "" o := by
    unfold constraints
    rw [hkey, hunique]
    cases c.nullable with
    | true =>
      show ∃ before, framed " " (join " " [keyText .primary "" o]) "" = _
      rw [join_singleton, framed_of_ne hne]
      exact ⟨"", by simp⟩
    | false =>
      show ∃ before, framed " " (join " " ["NOT NULL", keyText .primary "" o]) "" = _
      rw [join_cons_cons, join_singleton, framed_of_ne (by simp)]
      exact ⟨" NOT NULL", by simp [← String.append_assoc]⟩
  obtain ⟨before, hbefore⟩ := hlast
  refine ⟨framed " " c.type.clause "" ++ framed " DEFAULT " (c.default.getD "") "" ++
    framed " " ((c.encryption.map Model.Encryption.clause).getD "") "" ++ before, ?_⟩
  rw [line, Form.fill_columnDefinition, hbefore]
  simp only [String.append_assoc]

/-- The list of columns in a key has the name of each. -/
theorem KeyMember.isInfix_columnTuple {columns : List KeyMember} {m : KeyMember}
    (hm : m ∈ columns) (parentActive : Bool) :
    (quote m.name).toList <:+: (columnTuple (columns.map quoted) parentActive).toList := by
  rw [columnTuple, String.toList_append, String.toList_append]
  have hmem : m.quoted ∈ columns.map quoted := List.mem_map_of_mem hm
  exact (isInfix_composite (quoted_ne_empty columns) hmem ", " _).trans
    ((List.suffix_append _ _).isInfix.trans (List.prefix_append _ _).isInfix)

namespace Table

variable {n : Model.Table} {ctx : Context} {t : Table}

/-- Each member of the body stands in the statement that creates the table. -/
theorem isInfix_createText (h : ofNode? n ctx = some t) {m : Fragment} (hm : m ∈ t.members) :
    m.text.toList <:+: t.createText.toList :=
  (isInfix_composite (members_ne_empty h) hm ",\n\t" t.active).trans t.isInfix_body

/-- A column that has both keys is declared with both. -/
theorem declares_both (h : ofNode? n ctx = some t) {k : TableKey} (hk : k ∈ t.keys)
    (hkind : k.kind = .primary) {c : Column} (hc : c ∈ t.columns)
    (hname : c.name ∈ k.columns.map KeyMember.name) {o : Model.KeyOptions}
    (hkey : c.primaryKey = some o) : t.DeclaresBoth k c o := by
  have hunique : c.unique = none := by
    rw [(parts_ofNode h).1] at hc
    obtain ⟨e, -, rfl⟩ := List.mem_map.1 hc
    unfold Column.ofNode at hkey ⊢
    cases hinline : e.2.inlinePrimaryKey with
    | false => simp [hinline] at hkey
    | true => simp [Model.Field.not_inlineUnique_of_inlinePrimaryKey hinline]
  obtain ⟨clauses, hline⟩ := Column.line_primaryKey hkey hunique
  obtain ⟨m, hm, hmname⟩ := List.mem_map.1 hname
  have hcolumn : c.line ∈ t.members := by
    simp only [members, List.mem_append, List.mem_map]
    exact .inl (.inl (.inl ⟨c, hc, rfl⟩))
  have hconstraint : k.fragment t.active ∈ t.members := by
    simp only [members, List.mem_append, List.mem_map]
    exact .inl (.inl (.inr ⟨k, hk, rfl⟩))
  have htext : (k.fragment t.active).text =
      keyText .primary (columnTuple (k.columns.map KeyMember.quoted) t.active) k.options := by
    rw [TableKey.fragment, hkind]
  refine ⟨clauses, columnTuple (k.columns.map KeyMember.quoted) t.active, ?_, ?_, ?_⟩
  · rw [← hline]
    exact isInfix_createText h hcolumn
  · rw [← htext]
    exact isInfix_createText h hconstraint
  · rw [← hmname]
    exact KeyMember.isInfix_columnTuple hm t.active

/-- The columns of the primary keys of a table have no inline primary key if and only if the flags
of the columns follow the references. A column for which they do not is declared a primary key
twice. -/
theorem keysApart_iff (h : ofNode? n ctx = some t) :
    (t.KeysApart ↔ n.FlagsFollow) ∧
      ∀ k ∈ t.keys, k.kind = .primary → ∀ c ∈ t.columns, c.name ∈ k.columns.map KeyMember.name →
        ∀ o, c.primaryKey = some o → t.DeclaresBoth k c o := by
  obtain ⟨hcolumns, hkeys, -, -⟩ := parts_ofNode h
  refine ⟨⟨fun hapart spec hspec ref href e he f hf => ?_, fun hfollow k hk hkind c hc hname => ?_⟩,
    fun k hk hkind c hc hname o => declares_both h hk hkind hc hname⟩
  · obtain ⟨k, hk, hkind, hname⟩ :=
      Model.Table.exists_primary_iff.2 ⟨spec, hspec, ref, href, e, he, rfl⟩
    have hc : Column.ofNode e.1 f n.required ctx ∈ t.columns := by
      rw [hcolumns]
      exact List.mem_map_of_mem hf
    exact Column.primaryKey_ofNode_eq_none_iff.1 (hapart k (hkeys ▸ hk) hkind _ hc hname)
  · obtain ⟨spec, hspec, ref, href, e, he, hename⟩ :=
      Model.Table.exists_primary_iff.1 ⟨k, hkeys ▸ hk, hkind, hname⟩
    rw [hcolumns] at hc
    obtain ⟨⟨name, f⟩, hf, rfl⟩ := List.mem_map.1 hc
    obtain rfl : e.1 = name := hename
    exact Column.primaryKey_ofNode_eq_none_iff.2 (hfollow spec hspec ref href e he f hf)

/-- A table whose key refers to a flagged column and beside it to one that is flagged as a primary
key only: the first column has no inline key, and the second one is declared twice. -/
theorem keysApart_iff_half_flagged :
    ∃ u n t k c o, Model.Table.read? u = some n ∧ (n.fields.map Prod.fst).Nodup ∧
      ofNode? n {} = some t ∧ (t.KeysApart ↔ n.FlagsFollow) ∧
      t.columns.map (fun c => c.primaryKey.isSome) = [false, true] ∧
      k ∈ t.keys ∧ k.kind = .primary ∧ c ∈ t.columns ∧ c.name ∈ k.columns.map KeyMember.name ∧
      c.primaryKey = some o ∧ t.DeclaresBoth k c o := by
  let u : Json := .object [("name", .string "t"),
    ("properties", .object
      [("a", .object [("mode", .string "number"), ("primaryKey", .bool true),
        ("compositePrimaryKey", .bool true), ("GUID", .string "g")]),
        ("b", .object [("mode", .string "number"), ("primaryKey", .bool true)])]),
    ("primaryKey", .array [.object [("compositePrimaryKey", .array
      [.object [("keyId", .string "g")], .object [("name", .string "b")]])]])]
  let a : Model.Field :=
    { guid := some "g", typing := { mode := some "number" }, primaryKey := true
      compositePrimaryKey := true }
  let b : Model.Field := { typing := { mode := some "number" }, primaryKey := true }
  let n : Model.Table :=
    { name := some "t", fields := [("a", a), ("b", b)]
      primaryKeys := [{ primary := [{ keyId := some "g" }, { name := some "b" }] }] }
  let k : TableKey := ⟨.primary, [⟨"a", true⟩, ⟨"b", true⟩], {}⟩
  let c : Column := Column.ofNode "b" b [] {}
  obtain ⟨t, ht⟩ : ∃ t, ofNode? n {} = some t := ⟨_, rfl⟩
  obtain ⟨hcolumns, hkeys, -, -⟩ := parts_ofNode ht
  obtain ⟨hiff, hboth⟩ := keysApart_iff ht
  have hk : k ∈ t.keys := by
    rw [hkeys]
    exact List.mem_cons_self
  have hc : c ∈ t.columns := by
    rw [hcolumns]
    exact List.mem_cons_of_mem _ List.mem_cons_self
  have hflags : t.columns.map (fun c => c.primaryKey.isSome) = [false, true] := by
    rw [hcolumns]
    rfl
  have hname : c.name ∈ k.columns.map KeyMember.name := by decide
  exact ⟨u, n, t, k, c, {}, rfl, by decide, ht, hiff, hflags, hk, rfl, hc, hname, rfl,
    hboth k hk rfl c hc hname {} rfl⟩

/-- A column that is flagged as a primary key, and that the primary key refers to. -/
theorem not_keysApart_unflagged :
    ∃ u n t, Model.Table.read? u = some n ∧ (n.fields.map Prod.fst).Nodup ∧
      ofNode? n {} = some t ∧ ¬t.KeysApart ∧
      t.createText =
        "CREATE TABLE \"t\"\n(\n\t\"a\" NUMBER PRIMARY KEY,\n\tPRIMARY KEY (\"a\")\n)" := by
  let u : Json := .object [("name", .string "t"),
    ("properties", .object
      [("a", .object [("mode", .string "number"), ("primaryKey", .bool true)])]),
    ("primaryKey", .array [.object [("compositePrimaryKey",
      .array [.object [("name", .string "a")]])]])]
  let n : Model.Table :=
    { name := some "t"
      fields := [("a", { typing := { mode := some "number" }, primaryKey := true })]
      primaryKeys := [{ primary := [{ name := some "a" }] }] }
  let k : TableKey := ⟨.primary, [⟨"a", true⟩], {}⟩
  have hk : k ∈ n.keyConstraints := List.mem_cons_self
  refine ⟨u, n, _, rfl, by decide, rfl, fun hapart => ?_, by decide +kernel⟩
  have hnone := hapart k hk rfl _ List.mem_cons_self (by decide)
  exact Option.some_ne_none _ hnone

end Table

end SchemaDelta
