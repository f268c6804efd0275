import SchemaDelta.Key.Clause

/-!
# Indexes

An index is built on columns, or else on expressions. A key that names no column of the table stands
for a live column of that name.
-/

namespace SchemaDelta

open Sql Text

/-- A column of an index with its sort order. -/
structure IndexKey where
  column : KeyMember
  order : Option String

/-- An index of a table. -/
structure Index where
  name : String
  indexType : Option String := none
  keys : List IndexKey := []
  expressions : List String := []
  properties : Option String := none
  logging : Option String := none
  tablespace : Option String := none
  compression : Option String := none
  attributes : Option String := none
  active : Bool := true

/-- The key that a reference means in an index. -/
def IndexKey.ofRef? (fields : Model.Fields) (ref : Model.ColumnRef) : Option IndexKey :=
  (ref.resolve? fields <|> ref.name.map (KeyMember.mk · true)).map fun c => ⟨c, ref.order⟩

/-- The index that a node describes, if it has a name. -/
def Index.ofNode? (n : Model.Index) (fields : Model.Fields) : Option Index :=
  n.name.map fun name =>
    { name := name
      indexType := n.indexType
      keys := n.keys.filterMap (IndexKey.ofRef? fields)
      expressions := n.columnExpression.filterMap fun c =>
        match c.value? "value" with
        | some (.string s) => some s
        | _ => none
      properties := n.properties
      logging := n.logging
      tablespace := n.tablespace
      compression := n.compression
      attributes := n.attributes
      active := n.active }

/-- A column of an index and its order. -/
def IndexKey.fragment (k : IndexKey) : Fragment :=
  let order := ((k.order.bind trimmed?).map fun o => " " ++ o.toUpper).getD ""
  ⟨quote k.column.name ++ order, k.column.active⟩

namespace Index

/-- The keys of an index in a block, or else its expressions. -/
def keyBlock (i : Index) (active : Bool) : String :=
  if !i.keys.isEmpty then
    "\n(\n\t" ++ composite (i.keys.map IndexKey.fragment) ",\n\t" active ++ "\n)"
  else if i.expressions.isEmpty then ""
  else " (" ++ join ", " i.expressions ++ ")"

/-- The options of an index. Properties that are given as a whole replace the single clauses. -/
def options (i : Index) : String :=
  match i.properties.bind trimmed? with
  | some p => p
  | none =>
    let parts := [i.logging.map String.toUpper, i.tablespace.map ("TABLESPACE " ++ ·),
      i.compression, i.attributes]
    join " " (parts.filterMap fun p => p.filter fun t => !blank t)

/-- The creation of an index on the table with the given name. An index of an inactive table is
inactive. -/
def statement (i : Index) (table : String) (schema : Option String) (parentActive : Bool) :
    Fragment :=
  let active := i.active && parentActive
  ⟨Form.createIndex.fill (.ofList
    [("indexType", ((i.indexType.bind trimmed?).map String.toUpper).getD ""),
      ("name", quote i.name), ("tableName", qualified table schema),
      ("keys", i.keyBlock active), ("options", i.options)]), active⟩

end Index

end SchemaDelta
