import Mathlib.Data.List.Basic
import SchemaDelta.Proofs.Activation.Deactivation
import SchemaDelta.Proofs.Sql.Lists

/-!
# The body of a table

The body of a table that is created holds its live members, in order, and then one comment with the
deactivated ones. `Model.Table.liveMembers` and `Model.Table.deadMembers` tell the texts of both
from the node alone, and `Table.createText_body` says that the statement is written from them, for
every node that a table is read from.
-/

namespace SchemaDelta

open Sql Text

/-! ## Composites of lines -/

namespace Sql

/-- Lines with a comma between them: live ones, and then dead ones in one comment. -/
def bodyText (live dead : List String) : String :=
  join ",\n\t" live ++
    if dead = [] then ""
    else (if live = [] then "" else "\n\t") ++ "/* " ++ join ",\n\t" dead ++ " */"

/-- A body is empty only if it has no member. -/
theorem bodyText_eq_empty_iff {live dead : List String} (h : ∀ t ∈ live, t ≠ "") :
    bodyText live dead = "" ↔ live = [] ∧ dead = [] := by
  unfold bodyText
  rw [String.append_eq_empty_iff, join_eq_empty_iff h]
  refine and_congr_right fun _ => ?_
  split_ifs with hdead <;> simp [hdead]

/-- The members of an active parent make a body. -/
theorem composite_eq_bodyText {members : List Fragment} (h : ∀ m ∈ members, m.text ≠ "") :
    composite members ",\n\t" true =
      bodyText ((members.filter Fragment.active).map Fragment.text)
        ((members.filter fun m => !m.active).map Fragment.text) := by
  have hgap : gapOf ",\n\t" = "\n\t" := by decide
  rw [composite_eq h, bodyText, hgap]
  simp only [commentedInline, String.append_assoc]

end Sql

/-! ## The members of a node -/

/-- The entries of an object whose values are objects, in order. -/
def Json.objects : Json → List (String × Json.Entries)
  | .object entries => entries.filterMap fun e => e.2.object?.map (e.1, ·)
  | _ => []

/-- The objects among the entries of a value are read as fields, one by one, and nothing else is. -/
theorem Model.Fields.read_objects (v : Json) :
    (v.table Field.read?).map (fun e => (e.1, some e.2)) =
      v.objects.map fun e => (e.1, Field.read? (.object e.2)) := by
  cases v with
  | object entries =>
    rw [Json.table, Json.objects, List.map_filterMap, List.map_filterMap]
    refine List.filterMap_congr fun e _ => ?_
    obtain ⟨key, x⟩ := e
    cases x <;> rfl
  | _ => rfl

namespace Model.Table

/-- The fields of a table are read from the objects among its properties, one by one. -/
theorem fields_read? {v : Json} {n : Model.Table} (h : read? v = some n) :
    ∃ r, v.record? keys = some r ∧
      n.fields.map (fun e => (e.1, some e.2)) =
        (r.value "properties").objects.map fun e => (e.1, Field.read? (.object e.2)) := by
  obtain ⟨r, hr, rfl⟩ := Option.map_eq_some_iff.1 h
  exact ⟨r, hr, Model.Fields.read_objects (r.value "properties")⟩

/-- The composite keys of a table as they are declared, the primary keys first. The columns of a key
are those that its references mean. -/
def declaredKeys (n : Model.Table) : List TableKey :=
  n.primaryKeys.map (fun k => ⟨.primary, resolveKeys k.primary n.fields, k.options⟩) ++
    n.uniqueKeys.map fun k => ⟨.unique, resolveKeys k.unique n.fields, k.options⟩

/-- The line of a field. -/
def lineOf (n : Model.Table) (ctx : Context) (e : String × Field) : String :=
  (Column.ofNode e.1 e.2 n.required ctx).line.text

/-- The live members of a table: its active columns, the keys with an active column, and all
checks. -/
def liveMembers (n : Model.Table) (ctx : Context) : List String :=
  (n.fields.filter fun e => e.2.active).map (n.lineOf ctx) ++
    (n.declaredKeys.filter fun k => k.columns.any KeyMember.active).map
      (fun k => (k.fragment true).text) ++
    (n.checks.filterMap Check.ofNode?).map fun c => c.fragment.text

/-- The dead members of a table: its deactivated columns, and the keys whose columns are all
deactivated, with the texts that they have when all their columns are active. -/
def deadMembers (n : Model.Table) (ctx : Context) : List String :=
  (n.fields.filter fun e => !e.2.active).map (n.lineOf ctx) ++
    (n.declaredKeys.filter fun k => KeyMember.noneActive k.columns).map
      fun k => (k.activated.fragment true).text

end Model.Table

/-! ## No member is empty -/

theorem Column.line_ne_empty (c : Column) : c.line.text ≠ "" := by
  rw [line, Form.fill_columnDefinition]
  intro h
  simpa [quote] using congrArg String.toList h

theorem keyText_ne_empty (kind : TableKey.Kind) (columns : String) (o : Model.KeyOptions) :
    keyText kind columns o ≠ "" := by
  rw [keyText, Form.fill_keyConstraint]
  intro h
  cases kind <;> simpa [TableKey.Kind.keyword] using congrArg String.toList h

theorem TableKey.fragment_ne_empty (k : TableKey) (parentActive : Bool) :
    (k.fragment parentActive).text ≠ "" := keyText_ne_empty _ _ _

theorem Check.fragment_ne_empty (c : Check) : c.fragment.text ≠ "" := by
  rw [fragment, Form.fill_checkConstraint]
  intro h
  simpa using congrArg String.toList h

/-! ## The statement -/

/-- A key with columns is active if one of them is. -/
theorem TableKey.active_eq_any {k : TableKey} (h : k.columns ≠ []) :
    k.active = k.columns.any KeyMember.active := by
  have hempty : k.columns.isEmpty = false := by rwa [← Bool.not_eq_true, List.isEmpty_iff]
  rw [active, KeyMember.noneActive, hempty, Bool.not_false, Bool.true_and, List.not_all_eq_any_not]
  simp

/-- A key whose columns are all deactivated has the text that it has when all are active: its owner
comments it as a whole. -/
theorem TableKey.text_of_noneActive {k : TableKey} (h : KeyMember.noneActive k.columns = true) :
    (k.fragment true).text = (k.activated.fragment true).text := by
  have htuple : columnTuple (k.columns.map KeyMember.quoted) true =
      columnTuple (k.columns.map KeyMember.quoted) false := by
    rw [columnTuple, columnTuple, KeyMember.noneActive_quoted, h]
    rfl
  rw [← k.text_activated, fragment, fragment, htuple]

namespace Model.Table

variable (n : Model.Table)

/-- The keys of a table that have an active column. -/
theorem keyConstraints_active :
    n.keyConstraints.filter TableKey.active =
      n.declaredKeys.filter fun k => k.columns.any KeyMember.active := by
  show (n.declaredKeys.filter fun k => !k.columns.isEmpty).filter TableKey.active = _
  rw [List.filter_filter]
  refine List.filter_congr fun k _ => ?_
  by_cases hk : k.columns = []
  · simp [hk]
  · simp [TableKey.active_eq_any hk, hk]

/-- The keys of a table whose columns are all deactivated. -/
theorem keyConstraints_inactive :
    (n.keyConstraints.filter fun k => !k.active) =
      n.declaredKeys.filter fun k => KeyMember.noneActive k.columns := by
  show (n.declaredKeys.filter fun k => !k.columns.isEmpty).filter (fun k => !k.active) = _
  rw [List.filter_filter]
  refine List.filter_congr fun k _ => ?_
  by_cases hk : k.columns = []
  · simp [hk, KeyMember.noneActive]
  · simp [TableKey.active, hk]

end Model.Table

namespace Table

variable {n : Model.Table} {ctx : Context} {t : Table}

/-- No member of a table of the model is empty. -/
theorem members_ne_empty (h : ofNode? n ctx = some t) : ∀ m ∈ t.members, m.text ≠ "" := by
  intro m hm
  simp only [members, foreignKeys_ofNode h, List.map_nil, List.append_nil, List.mem_append,
    List.mem_map] at hm
  rcases hm with (⟨c, -, rfl⟩ | ⟨k, -, rfl⟩) | ⟨c, -, rfl⟩
  · exact c.line_ne_empty
  · exact k.fragment_ne_empty _
  · exact c.fragment_ne_empty

/-- The body stands between what opens and what closes its block, and the options follow. -/
theorem isInfix_body (t : Table) :
    (composite t.members ",\n\t" t.active).toList <:+: t.createText.toList := by
  rw [createText, Form.fill_createTable, String.toList_append]
  refine List.IsInfix.trans ?_ (List.prefix_append _ _).isInfix
  rw [String.toList_append]
  refine List.IsInfix.trans ?_ (List.suffix_append _ _).isInfix
  by_cases hbody : composite t.members ",\n\t" t.active = ""
  · rw [hbody]
    exact List.nil_infix
  · rw [framed_of_ne hbody, String.toList_append, String.toList_append]
    exact (List.suffix_append _ _).isInfix.trans (List.prefix_append _ _).isInfix

/-- The members of one activation, in their order. All checks are active. -/
theorem members_filter (hforeign : t.foreignKeys = []) (q : Bool → Bool) :
    (t.members.filter fun m => q m.active).map Fragment.text =
      (t.columns.filter fun c => q c.active).map (fun c => c.line.text) ++
        (t.keys.filter fun k => q k.active).map (fun k => (k.fragment t.active).text) ++
        (t.checks.filter fun _ => q true).map fun c => c.fragment.text := by
  rw [members, hforeign, List.map_nil, List.append_nil]
  simp only [List.filter_append, List.map_append, List.filter_map, List.map_map]
  rfl

/-- The columns of one activation give the lines of the fields of this activation. -/
theorem lines_filter (n : Model.Table) (ctx : Context) (q : Bool → Bool) :
    ((n.fields.columns n.required ctx).filter fun c => q c.active).map (fun c => c.line.text) =
      (n.fields.filter fun e => q e.2.active).map (n.lineOf ctx) := by
  simp only [Model.Fields.columns, List.map_map, List.filter_map]
  rfl

/-- What the members of a table of the model are made of. -/
theorem parts_ofNode (h : ofNode? n ctx = some t) :
    t.columns = n.fields.columns n.required ctx ∧ t.keys = n.keyConstraints ∧
      t.checks = n.checks.filterMap Check.ofNode? ∧ t.active = n.active := by
  obtain ⟨name, -, rfl⟩ := Option.map_eq_some_iff.1 h
  exact ⟨rfl, rfl, rfl, rfl⟩

/-- The live members of a table are those of its node, in their order. -/
theorem members_active_texts (h : ofNode? n ctx = some t) (hactive : n.active = true) :
    (t.members.filter Fragment.active).map Fragment.text = n.liveMembers ctx := by
  have htexts := members_filter (foreignKeys_ofNode h) fun b => b
  obtain ⟨hcolumns, hkeys, hchecks, hon⟩ := parts_ofNode h
  have hall : t.checks.filter (fun _ => true) = t.checks := List.filter_eq_self.2 fun c _ => rfl
  rw [hall, hcolumns, lines_filter n ctx fun b => b, hkeys, hchecks, hon, hactive] at htexts
  rw [Model.Table.liveMembers, ← n.keyConstraints_active]
  exact htexts

/-- The dead members of a table are those of its node, in their order. -/
theorem members_inactive_texts (h : ofNode? n ctx = some t) (hactive : n.active = true) :
    (t.members.filter fun m => !m.active).map Fragment.text = n.deadMembers ctx := by
  have htexts := members_filter (foreignKeys_ofNode h) Bool.not
  obtain ⟨hcolumns, hkeys, -, hon⟩ := parts_ofNode h
  have hnone : t.checks.filter (fun _ => Bool.not true) = [] :=
    List.filter_eq_nil_iff.2 fun c _ => Bool.false_ne_true
  have hdead : (n.keyConstraints.filter fun k => !k.active).map (fun k => (k.fragment true).text) =
      (n.declaredKeys.filter fun k => KeyMember.noneActive k.columns).map
        fun k => (k.activated.fragment true).text := by
    rw [← n.keyConstraints_inactive]
    refine List.map_congr_left fun k hk => ?_
    have hoff : (!k.active) = true := (List.mem_filter.1 hk).2
    rw [TableKey.active, Bool.not_not] at hoff
    exact TableKey.text_of_noneActive hoff
  rw [hnone, hcolumns, lines_filter n ctx Bool.not, hkeys, hon, hactive, List.map_nil,
    List.append_nil] at htexts
  rw [Model.Table.deadMembers, ← hdead]
  exact htexts

/-- The statement that creates an active table. Between the name and the options stand the live
members in their order, and then one comment with the dead members in theirs; there is no body
without a member. The columns come in the order of the objects among the properties of the node. -/
theorem createText_body {v : Json} {name : String} (hread : Model.Table.read? v = some n)
    (hactive : n.active = true) (hname : n.tableName? = some name) (ctx : Context) :
    ∃ r t, v.record? Model.Table.keys = some r ∧ ofNode? n ctx = some t ∧
      n.fields.map (fun e => (e.1, some e.2)) =
        (r.value "properties").objects.map (fun e => (e.1, Model.Field.read? (.object e.2))) ∧
      t.createUnits.head? = some ⟨guarded t.createText t.ifNotExist nameInUse, true⟩ ∧
      t.createText = "CREATE" ++ framed " " (t.kind.words?.getD "") "" ++ " TABLE " ++
        qualified name ctx.schema ++
        (if n.liveMembers ctx = [] ∧ n.deadMembers ctx = [] then ""
          else "\n(\n\t" ++ bodyText (n.liveMembers ctx) (n.deadMembers ctx) ++ "\n)") ++
        framed "\n" t.options "" := by
  obtain ⟨r, hr, hfields⟩ := Model.Table.fields_read? hread
  obtain ⟨t, ht⟩ : ∃ t, ofNode? n ctx = some t := by simp [ofNode?, hname]
  have hparts : t.active = true ∧ t.qualifiedName = qualified name ctx.schema := by
    obtain ⟨m, hm, rfl⟩ := Option.map_eq_some_iff.1 ht
    obtain rfl := Option.some.inj (hm.symm.trans hname)
    exact ⟨hactive, rfl⟩
  have hnonempty := members_ne_empty ht
  have hlive : ∀ x ∈ n.liveMembers ctx, x ≠ "" := by
    rw [← members_active_texts ht hactive]
    intro x hx
    obtain ⟨m, hm, rfl⟩ := List.mem_map.1 hx
    exact hnonempty m (List.mem_filter.1 hm).1
  have hbody : composite t.members ",\n\t" t.active =
      bodyText (n.liveMembers ctx) (n.deadMembers ctx) := by
    rw [hparts.1, composite_eq_bodyText hnonempty, members_active_texts ht hactive,
      members_inactive_texts ht hactive]
  have hframe : framed "\n(\n\t" (bodyText (n.liveMembers ctx) (n.deadMembers ctx)) "\n)" =
      if n.liveMembers ctx = [] ∧ n.deadMembers ctx = [] then ""
      else "\n(\n\t" ++ bodyText (n.liveMembers ctx) (n.deadMembers ctx) ++ "\n)" := by
    by_cases hnone : n.liveMembers ctx = [] ∧ n.deadMembers ctx = []
    · rw [if_pos hnone, (bodyText_eq_empty_iff hlive).2 hnone, framed_empty]
    · rw [if_neg hnone, framed_of_ne fun he => hnone ((bodyText_eq_empty_iff hlive).1 he)]
  have hhead : t.createUnits.head? = some ⟨guarded t.createText t.ifNotExist nameInUse, true⟩ := by
    rw [createUnits, hparts.1, List.cons_append, List.head?_cons]
  refine ⟨r, t, hr, ht, hfields, hhead, ?_⟩
  rw [createText, Form.fill_createTable, hbody, hparts.2, hframe]

/-- A table with a live and a dead column and an entry that is no column; its primary key has both
columns, its unique key the dead one. -/
theorem createText_body_mixed :
    ∃ v n r t, Model.Table.read? v = some n ∧ n.active = true ∧ n.tableName? = some "t" ∧
      v.record? Model.Table.keys = some r ∧ ofNode? n {} = some t ∧
      (r.value "properties").objects.map Prod.fst = ["b", "a"] ∧
      n.liveMembers {} = ["\"a\" NUMBER", "PRIMARY KEY (\"a\" /* \"b\" */)", "CHECK (a > 0)"] ∧
      n.deadMembers {} = ["\"b\" DATE", "UNIQUE (\"b\")"] ∧
      t.createText = "CREATE" ++ framed " " (t.kind.words?.getD "") "" ++ " TABLE " ++
        qualified "t" none ++
        (if n.liveMembers {} = [] ∧ n.deadMembers {} = [] then ""
          else "\n(\n\t" ++ bodyText (n.liveMembers {}) (n.deadMembers {}) ++ "\n)") ++
        framed "\n" t.options "" := by
  let refs : Json := .array [.object [("name", .string "b")], .object [("name", .string "a")]]
  let v : Json := .object [("name", .string "t"),
    ("properties", .object
      [("b", .object [("mode", .string "date"), ("isActivated", .bool false)]),
        ("x", .string "number"), ("a", .object [("mode", .string "number")])]),
    ("primaryKey", .array [.object [("compositePrimaryKey", refs)]]),
    ("uniqueKey", .array [.object [("compositeUniqueKey", .object [("name", .string "b")])]]),
    ("chkConstr", .array [.object [("constrExpression", .string "(a > 0)")]])]
  obtain ⟨n, hn⟩ : ∃ n, Model.Table.read? v = some n := ⟨_, rfl⟩
  have hfacts : (Model.Table.read? v).map (fun n => (n.active, n.tableName?)) =
      some (true, some "t") := by decide +kernel
  have hmembers : (Model.Table.read? v).map (fun n => (n.liveMembers {}, n.deadMembers {})) =
      some (["\"a\" NUMBER", "PRIMARY KEY (\"a\" /* \"b\" */)", "CHECK (a > 0)"],
        ["\"b\" DATE", "UNIQUE (\"b\")"]) := by decide +kernel
  rw [hn] at hfacts hmembers
  simp only [Option.map_some, Option.some.injEq, Prod.mk.injEq] at hfacts hmembers
  obtain ⟨r, t, hr, ht, hfields, -, htext⟩ := createText_body hn hfacts.1 hfacts.2 {}
  refine ⟨v, n, r, t, hn, hfacts.1, hfacts.2, hr, ht, ?_, hmembers.1, hmembers.2, htext⟩
  obtain rfl := Option.some.inj hr
  decide +kernel

end Table

end SchemaDelta
