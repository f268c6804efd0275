import Mathlib.Tactic.SplitIfs
import SchemaDelta.Table.Basic
import SchemaDelta.UserType.Basic
import SchemaDelta.View.Basic

/-!
# Activation commutes with hydration

To activate a node is to activate it with all its members. The entity that an activated node
describes is the activated entity: references to columns find the same columns, and everything that
is no activation stays as it is.
-/

namespace SchemaDelta

/-! ## Activated nodes -/

namespace Model

def Field.activated (f : Field) : Field := { f with active := true }

def Fields.activated (fields : Fields) : Fields := fields.map fun e => (e.1, e.2.activated)

def Index.activated (i : Index) : Index := { i with active := true }

/-- A table node that is active with all its columns and indexes. -/
def Table.activated (t : Table) : Table :=
  { t with active := true, fields := t.fields.activated, indexes := t.indexes.map Index.activated }

def ViewKey.activated : ViewKey → ViewKey
  | expression text => expression text
  | column c => column { c with active := true }

/-- A view node that is active with all its keys. -/
def View.activated (v : View) : View :=
  { v with active := true, keys := v.keys.map ViewKey.activated }

/-- A type node that is active with all its attributes. -/
def UserType.activated (t : UserType) : UserType :=
  { t with active := true, fields := t.fields.activated }

end Model

/-! ## Deactivated nodes -/

/-- A table node that is inactive itself, whatever its members are. -/
def Model.Table.deactivated (t : Model.Table) : Model.Table := { t with active := false }

/-- A view node that is inactive itself. -/
def Model.View.deactivated (v : Model.View) : Model.View := { v with active := false }

/-- A type node that is inactive itself. -/
def Model.UserType.deactivated (t : Model.UserType) : Model.UserType := { t with active := false }

/-! ## Activated entities -/

def Column.activated (c : Column) : Column := { c with active := true }

def KeyMember.activated (c : KeyMember) : KeyMember := { c with active := true }

def TableKey.activated (k : TableKey) : TableKey :=
  { k with columns := k.columns.map KeyMember.activated }

def Partitioning.activated (p : Partitioning) : Partitioning :=
  { p with
    keys := p.keys.map KeyMember.activated
    subpartitionKeys := p.subpartitionKeys.map KeyMember.activated }

def IndexKey.activated (k : IndexKey) : IndexKey := { k with column := k.column.activated }

def Index.activated (i : Index) : Index :=
  { i with active := true, keys := i.keys.map IndexKey.activated }

/-- A table that is active with all its columns, keys and indexes. -/
def Table.activated (t : Table) : Table :=
  { t with
    active := true
    columns := t.columns.map Column.activated
    keys := t.keys.map TableKey.activated
    partitioning := t.partitioning.map Partitioning.activated
    indexes := t.indexes.map Index.activated }

def ViewKey.activated : ViewKey → ViewKey
  | expression text => expression text
  | column table name shownAs _ => column table name shownAs true

/-- A view that is active with all its keys. -/
def View.activated (v : View) : View :=
  { v with active := true, keys := v.keys.map ViewKey.activated }

def UserTypeBody.activated : UserTypeBody → UserTypeBody
  | object attributes => object (attributes.map Column.activated)
  | collection c => collection c

/-- A type that is active with all its attributes. -/
def UserType.activated (t : UserType) : UserType :=
  { t with active := true, body := t.body.activated }

/-! ## Deactivated entities -/

def Table.deactivated (t : Table) : Table := { t with active := false }

def View.deactivated (v : View) : View := { v with active := false }

def UserType.deactivated (t : UserType) : UserType := { t with active := false }

/-! ## Columns and keys -/

variable (fields : Model.Fields)

theorem columns_activated (required : List String) (ctx : Context) :
    fields.activated.columns required ctx =
      (fields.columns required ctx).map Column.activated := by
  unfold Model.Fields.columns Model.Fields.activated
  rw [List.map_map, List.map_map]
  rfl

/-- A reference finds the same column. -/
theorem resolve?_activated (ref : Model.ColumnRef) :
    ref.resolve? fields.activated = (ref.resolve? fields).map KeyMember.activated := by
  have hguid (f : Model.Field) : f.activated.guid = f.guid := rfl
  rw [Model.Fields.activated, Model.ColumnRef.resolve?_map hguid, Model.ColumnRef.resolve?,
    Option.map_map]
  rfl

theorem resolveKeys_activated (refs : List Model.ColumnRef) :
    resolveKeys refs fields.activated = (resolveKeys refs fields).map KeyMember.activated := by
  unfold resolveKeys
  rw [List.map_filterMap]
  congr 1
  funext ref
  exact resolve?_activated fields ref

/-- The keys of an activated table are the activated keys, because none of them is lost. -/
theorem keyConstraints_activated (t : Model.Table) :
    t.activated.keyConstraints = t.keyConstraints.map TableKey.activated := by
  -- Activation keeps the columns of a key, and a key is kept for its columns.
  have hkept : (fun k : TableKey => !k.activated.columns.isEmpty) =
      fun k => !k.columns.isEmpty := by
    funext k
    simp [TableKey.activated]
  have hlists : t.activated.keyConstraints =
      ((t.primaryKeys.map (fun k =>
          TableKey.mk .primary (resolveKeys k.primary t.fields) k.options) ++
        t.uniqueKeys.map (fun k =>
          TableKey.mk .unique (resolveKeys k.unique t.fields) k.options)).map
        TableKey.activated).filter fun k => !k.columns.isEmpty := by
    simp only [Model.Table.keyConstraints, Model.Table.activated, resolveKeys_activated,
      List.map_append, List.map_map]
    rfl
  rw [hlists, List.filter_map, Model.Table.keyConstraints]
  congr 1
  exact congrArg (fun p => List.filter p _) hkept

/-- The partitioning of an activated table is by the activated columns. -/
theorem partitioning_activated (p : Model.Partitioning) :
    Partitioning.ofNode p fields.activated = (Partitioning.ofNode p fields).activated := by
  simp only [Partitioning.ofNode, Partitioning.activated, resolveKeys_activated, List.isEmpty_map,
    Partitioning.mk.injEq, true_and]
  constructor <;> split_ifs <;> rfl

/-! ## Indexes -/

theorem IndexKey.ofRef?_activated (ref : Model.ColumnRef) :
    IndexKey.ofRef? fields.activated ref =
      (IndexKey.ofRef? fields ref).map IndexKey.activated := by
  unfold IndexKey.ofRef?
  rw [resolve?_activated]
  cases ref.resolve? fields with
  | some c => rfl
  | none => cases ref.name <;> rfl

theorem Index.ofNode?_activated (n : Model.Index) :
    Index.ofNode? n.activated fields.activated =
      (Index.ofNode? n fields).map Index.activated := by
  have hkeys : n.keys.filterMap (IndexKey.ofRef? fields.activated) =
      (n.keys.filterMap (IndexKey.ofRef? fields)).map IndexKey.activated := by
    rw [List.map_filterMap]
    congr 1
    funext ref
    exact IndexKey.ofRef?_activated fields ref
  unfold Index.ofNode?
  simp only [Model.Index.activated, hkeys, Option.map_map]
  rfl

theorem indexes_activated (indexes : List Model.Index) :
    (indexes.map Model.Index.activated).filterMap (fun i => Index.ofNode? i fields.activated) =
      (indexes.filterMap fun i => Index.ofNode? i fields).map Index.activated := by
  rw [List.filterMap_map, List.map_filterMap]
  congr 1
  funext i
  exact Index.ofNode?_activated fields i

/-! ## Entities -/

/-- An activated table node describes the activated table. -/
theorem Table.ofNode?_activated (t : Model.Table) (ctx : Context) :
    Table.ofNode? t.activated ctx = (Table.ofNode? t ctx).map Table.activated := by
  have hpart : (t.partitioning.map fun p => Partitioning.ofNode p t.fields.activated) =
      (t.partitioning.map fun p => Partitioning.ofNode p t.fields).map
        Partitioning.activated := by
    cases t.partitioning with
    | none => rfl
    | some p => exact congrArg some (partitioning_activated t.fields p)
  have hname : t.activated.tableName? = t.tableName? := rfl
  have hkeys := keyConstraints_activated t
  have hcolumns := columns_activated t.fields t.required ctx
  have hindexes := indexes_activated t.fields t.indexes
  unfold Table.ofNode?
  rw [hname, hkeys]
  cases t.tableName? with
  | none => rfl
  | some name =>
    simp only [Option.map_some, Table.activated]
    simp only [Model.Table.activated, hcolumns, hpart, hindexes]
    rfl

/-- A deactivated table node describes the deactivated table. -/
theorem Table.ofNode?_deactivated (t : Model.Table) (ctx : Context) :
    Table.ofNode? t.deactivated ctx = (Table.ofNode? t ctx).map Table.deactivated := by
  unfold Table.ofNode?
  rw [Option.map_map]
  rfl

theorem ViewKey.ofNode?_activated (k : Model.ViewKey) :
    ViewKey.ofNode? k.activated = (ViewKey.ofNode? k).map ViewKey.activated := by
  cases k with
  | expression text =>
    simp only [Model.ViewKey.activated, ViewKey.ofNode?]
    cases Text.trimmed? text <;> rfl
  | column c =>
    simp only [Model.ViewKey.activated, ViewKey.ofNode?]
    cases c.name <;> rfl

/-- An activated view node describes the activated view. -/
theorem View.ofNode?_activated (v : Model.View) (ctx : Context) :
    View.ofNode? v.activated ctx = (View.ofNode? v ctx).map View.activated := by
  have hkeys : (v.keys.map Model.ViewKey.activated).filterMap ViewKey.ofNode? =
      (v.keys.filterMap ViewKey.ofNode?).map ViewKey.activated := by
    rw [List.filterMap_map, List.map_filterMap]
    congr 1
    funext k
    exact ViewKey.ofNode?_activated k
  unfold View.ofNode?
  simp only [Model.View.activated, hkeys, Option.map_map]
  rfl

/-- A deactivated view node describes the deactivated view. -/
theorem View.ofNode?_deactivated (v : Model.View) (ctx : Context) :
    View.ofNode? v.deactivated ctx = (View.ofNode? v ctx).map View.deactivated := by
  unfold View.ofNode?
  rw [Option.map_map]
  rfl

/-- An activated type node describes the activated type. -/
theorem UserType.ofNode?_activated (t : Model.UserType) (ctx : Context) :
    UserType.ofNode? t.activated ctx = (UserType.ofNode? t ctx).map UserType.activated := by
  have hname : t.activated.typeName? = t.typeName? := rfl
  have hobject : t.activated.isObject = t.isObject := rfl
  have hcollection : Collection.ofNode t.activated ctx = Collection.ofNode t ctx := rfl
  have hcolumns := columns_activated t.fields t.required ctx
  unfold UserType.ofNode?
  rw [hname, hobject, hcollection]
  cases t.typeName? with
  | none => rfl
  | some name =>
    simp only [Option.map_some, UserType.activated]
    cases t.isObject with
    | true => simp [UserTypeBody.activated, Model.UserType.activated, hcolumns]
    | false => simp [UserTypeBody.activated, Model.UserType.activated]

/-- A deactivated type node describes the deactivated type. -/
theorem UserType.ofNode?_deactivated (t : Model.UserType) (ctx : Context) :
    UserType.ofNode? t.deactivated ctx = (UserType.ofNode? t ctx).map UserType.deactivated := by
  unfold UserType.ofNode?
  rw [Option.map_map]
  rfl

end SchemaDelta
