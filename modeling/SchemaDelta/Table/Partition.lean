import SchemaDelta.Key.Basic
import SchemaDelta.Text.Digits

/-!
# Partitioning

A table is partitioned by one of eight schemes. Each scheme has a keyword, a list of key columns and
a tail of clauses of its own.
-/

namespace SchemaDelta

open Sql Text

/-- The ways to partition a table. -/
inductive PartitionScheme where
  | range
  | list
  | hash
  | reference
  | system
  | compositeRange
  | compositeList
  | compositeHash

namespace PartitionScheme

/-- The scheme with the given name, without regard to case and padding. -/
def ofName? (name : String) : Option PartitionScheme :=
  match (trim name).toLower with
  | "range" => some range
  | "list" => some list
  | "hash" => some hash
  | "reference" => some reference
  | "system" => some system
  | "composite range" => some compositeRange
  | "composite list" => some compositeList
  | "composite hash" => some compositeHash
  | _ => none

/-- The keyword of a scheme. -/
def keyword : PartitionScheme → String
  | range | compositeRange => "RANGE"
  | list | compositeList => "LIST"
  | hash | compositeHash => "HASH"
  | reference => "REFERENCE"
  | system => "SYSTEM"

end PartitionScheme

/-- How a table is partitioned, with the columns of its keys. -/
structure Partitioning where
  node : Model.Partitioning
  keys : List KeyMember
  subpartitionKeys : List KeyMember

/-- The partitioning that a node describes. A composite key comes before a plain one; the key of
the subpartitions is their own, else the plain one, else that of the partitions. -/
def Partitioning.ofNode (p : Model.Partitioning) (fields : Model.Fields) : Partitioning :=
  let composite := resolveKeys p.compositeKey fields
  let plain := resolveKeys p.key fields
  let own := resolveKeys p.subpartitionKey fields
  let keys := if composite.isEmpty then plain else composite
  { node := p
    keys := keys
    subpartitionKeys :=
      if !own.isEmpty then own else if !plain.isEmpty then plain else keys }

/-- The texts under one key of a list of clauses, trimmed, without blank ones. -/
def Model.ClauseList.texts (clauses : Model.ClauseList) (key : String) : List String :=
  clauses.filterMap fun c =>
    match c.value? key with
    | some (.string s) => trimmed? s
    | _ => none

/-- Partition descriptions in a block, one a line. -/
def partitionBlock (clauses : Model.ClauseList) (key : String) : String :=
  match clauses.texts key with
  | [] => ""
  | ts => "\n(\n\t" ++ join ",\n\t" ts ++ "\n)"

/-- A list of tablespaces to store in. -/
def storeIn (clauses : Model.ClauseList) (word key : String) : String :=
  match clauses.texts key with
  | [] => ""
  | ts => word ++ " STORE IN (" ++ join ", " ts ++ ")"

/-- The list of key columns, if there is one. -/
def partitionKeys (keys : List KeyMember) (parentActive : Bool) : String :=
  if keys.isEmpty then ""
  else " " ++ columnTuple (keys.map KeyMember.quoted) parentActive

namespace Partitioning

/-- The interval of range partitions. -/
def intervalClause (p : Partitioning) : String :=
  (p.node.interval.map fun i => " INTERVAL (" ++ i ++ ")").getD ""

/-- The tablespaces of the partitions. -/
def tablespaces (p : Partitioning) (word : String) : String :=
  storeIn p.node.storeIn word "store_in_tablespace"

/-- Hash partitions: their number with their tablespaces, or their descriptions. -/
def hashes (p : Partitioning) : String :=
  match p.node.hashQuantity with
  | some n =>
    " PARTITIONS " ++ showNat n ++ p.tablespaces "" ++
      storeIn p.node.overflowStoreIn " OVERFLOW" "overflow_store_in_tablespace"
  | none => partitionBlock p.node.hashes "individual_hash_partition"

/-- The clause of the subpartitions. -/
def subpartitions (p : Partitioning) (parentActive : Bool) : String :=
  match p.node.subpartitionType with
  | some kind =>
    " SUBPARTITION BY " ++ (trim kind).toUpper ++ partitionKeys p.subpartitionKeys parentActive
  | none => ""

/-- What follows the key columns. -/
def tail (p : Partitioning) (scheme : PartitionScheme) (parentActive : Bool) : String :=
  match scheme with
  | .range =>
    p.intervalClause ++ p.tablespaces "" ++ partitionBlock p.node.ranges "range_partition_clause"
  | .list =>
    (if p.node.automatic then " AUTOMATIC" else "") ++ p.tablespaces "" ++
      partitionBlock p.node.lists "list_partition_clause"
  | .hash => p.hashes
  | .reference =>
    (p.node.constraint.map fun c => " (" ++ c ++ ")").getD "" ++
      partitionBlock p.node.references "reference_partition_desc"
  | .system =>
    match p.node.systemQuantity with
    | some n => " PARTITIONS " ++ showNat n
    | none => partitionBlock p.node.systems "system_partition_desc"
  | .compositeRange =>
    p.intervalClause ++ p.tablespaces "" ++ p.subpartitions parentActive ++
      partitionBlock p.node.subRanges "range_subpartition_desc"
  | .compositeList =>
    p.tablespaces " AUTOMATIC" ++ p.subpartitions parentActive ++
      partitionBlock p.node.subLists "list_subpartition_description"
  | .compositeHash => p.subpartitions parentActive ++ p.hashes

/-- The partitioning clause, if the scheme is known. -/
def clause? (p : Partitioning) (parentActive : Bool) : Option String :=
  (p.node.partitionBy.bind PartitionScheme.ofName?).map fun scheme =>
    "PARTITION BY " ++ scheme.keyword ++ partitionKeys p.keys parentActive ++
      p.tail scheme parentActive

end Partitioning

end SchemaDelta
