import SchemaDelta.Model.Entity
import SchemaDelta.Model.Field

/-!
# Tables in the model

A table with its columns, keys, check constraints, indexes, partitioning and physical options.
-/

namespace SchemaDelta.Model

/-- A list of clauses, each an object with keys of its own. -/
abbrev ClauseList := List Json.Entries

/-- A check constraint. -/
structure Check where
  name : Option String := none
  expression : Option String := none
  comments : Option String := none
  description : Option String := none

/-- Reads a check constraint. -/
def Check.read? (v : Json) : Option Check :=
  (v.record? ["chkConstrName", "constrExpression", "constrComments", "constrDescription"]).map
    fun r =>
      { name := r.text? "chkConstrName"
        expression := r.text? "constrExpression"
        comments := r.text? "constrComments"
        description := r.text? "constrDescription" }

/-- An index of a table. -/
structure Index where
  name : Option String := none
  indexType : Option String := none
  keys : List ColumnRef := []
  columnExpression : ClauseList := []
  properties : Option String := none
  logging : Option String := none
  tablespace : Option String := none
  compression : Option String := none
  attributes : Option String := none
  description : Option String := none
  active : Bool := true

/-- Reads an index. -/
def Index.read? (v : Json) : Option Index :=
  (v.record? ["indxName", "indxType", "indxKey", "column_expression", "index_properties",
    "logging_clause", "tablespace", "index_compression", "index_attributes", "indxDescription",
    "isActivated"]).map fun r =>
      { name := r.text? "indxName"
        indexType := r.text? "indxType"
        keys := r.list ColumnRef.read? "indxKey"
        columnExpression := r.list Json.object? "column_expression"
        properties := r.text? "index_properties"
        logging := r.text? "logging_clause"
        tablespace := r.text? "tablespace"
        compression := r.text? "index_compression"
        attributes := r.text? "index_attributes"
        description := r.text? "indxDescription"
        active := r.active }

/-- How a table is partitioned. -/
structure Partitioning where
  partitionBy : Option String := none
  key : List ColumnRef := []
  compositeKey : List ColumnRef := []
  subpartitionType : Option String := none
  subpartitionKey : List ColumnRef := []
  interval : Option String := none
  automatic : Bool := false
  constraint : Option String := none
  storeIn : ClauseList := []
  overflowStoreIn : ClauseList := []
  ranges : ClauseList := []
  lists : ClauseList := []
  hashQuantity : Option Nat := none
  hashes : ClauseList := []
  references : ClauseList := []
  systemQuantity : Option Nat := none
  systems : ClauseList := []
  subRanges : ClauseList := []
  subLists : ClauseList := []

/-- Reads a partitioning. -/
def Partitioning.read? (v : Json) : Option Partitioning :=
  (v.record? ["partitionBy", "partitionKey", "compositePartitionKey", "subpartitionType",
    "subpartitionKey", "interval", "automatic", "constraint", "store_in_tablespaces",
    "overflow_store_in_tablespaces", "range_partitions", "list_partitions",
    "hash_partition_quantity", "individual_hash_partitions", "reference_partition_descs",
    "system_partitioning_quantity", "system_partition_descs", "range_subpartition_descs",
    "list_subpartition_descs"]).map fun r =>
      { partitionBy := r.text? "partitionBy"
        key := r.list ColumnRef.read? "partitionKey"
        compositeKey := r.list ColumnRef.read? "compositePartitionKey"
        subpartitionType := r.text? "subpartitionType"
        subpartitionKey := r.list ColumnRef.read? "subpartitionKey"
        interval := r.text? "interval"
        automatic := r.flag "automatic"
        constraint := r.text? "constraint"
        storeIn := r.list Json.object? "store_in_tablespaces"
        overflowStoreIn := r.list Json.object? "overflow_store_in_tablespaces"
        ranges := r.list Json.object? "range_partitions"
        lists := r.list Json.object? "list_partitions"
        hashQuantity := r.count? "hash_partition_quantity"
        hashes := r.list Json.object? "individual_hash_partitions"
        references := r.list Json.object? "reference_partition_descs"
        systemQuantity := r.count? "system_partitioning_quantity"
        systems := r.list Json.object? "system_partition_descs"
        subRanges := r.list Json.object? "range_subpartition_descs"
        subLists := r.list Json.object? "list_subpartition_descs" }

/-- Where a table is stored. -/
structure Storage where
  organization : Option String := none
  tablespace : Option String := none
  logging : Bool := false

/-- Reads a storage. -/
def Storage.read? (v : Json) : Option Storage :=
  (v.record? ["organization", "tablespace", "logging"]).map fun r =>
    { organization := r.text? "organization"
      tablespace := r.text? "tablespace"
      logging := r.flag "logging" }

/-- A file of an external table. -/
structure Location where
  directory : Option String := none
  specifier : Option String := none

/-- Reads a file of an external table. -/
def Location.read? (v : Json) : Option Location :=
  (v.record? ["location_directory", "location_specifier"]).map fun r =>
    { directory := r.text? "location_directory", specifier := r.text? "location_specifier" }

/-- How the rows of an external table are reached. -/
structure ExternalAccess where
  driver : Option String := none
  defaultDirectory : Option String := none
  parameterType : Option String := none
  formatSpec : Option String := none
  subquery : Option String := none
  rejectLimit : Option String := none
  locations : List Location := []

/-- Reads an access to an external table. -/
def ExternalAccess.read? (v : Json) : Option ExternalAccess :=
  (v.record? ["access_driver_type", "default_directory", "access_parameter_type",
    "opaque_format_spec", "clob_subquery", "reject_limit", "location"]).map fun r =>
      { driver := r.text? "access_driver_type"
        defaultDirectory := r.text? "default_directory"
        parameterType := r.text? "access_parameter_type"
        formatSpec := r.text? "opaque_format_spec"
        subquery := r.text? "clob_subquery"
        rejectLimit := r.text? "reject_limit"
        locations := r.list Location.read? "location" }

/-- The clauses of a blockchain table. -/
structure Blockchain where
  immutable : Bool := false
  tableRetention : Option String := none
  rowRetention : Option String := none
  hashAndFormat : Option String := none

/-- Reads the clauses of a blockchain table. -/
def Blockchain.read? (v : Json) : Option Blockchain :=
  (v.record? ["immutable", "blockchain_table_retention_clause", "blockchain_row_retention_clause",
    "blockchain_hash_and_data_format_clause"]).map fun r =>
      { immutable := r.flag "immutable"
        tableRetention := r.text? "blockchain_table_retention_clause"
        rowRetention := r.text? "blockchain_row_retention_clause"
        hashAndFormat := r.text? "blockchain_hash_and_data_format_clause" }

/-- A table of the model. -/
structure Table where
  code : Option String := none
  collectionName : Option String := none
  name : Option String := none
  fields : Fields := []
  required : List String := []
  primaryKeys : List CompositeKey := []
  uniqueKeys : List CompositeKey := []
  checks : List Check := []
  indexes : List Index := []
  partitioning : Option Partitioning := none
  storage : Option Storage := none
  external : Option ExternalAccess := none
  blockchain : Option Blockchain := none
  temporary : Bool := false
  temporaryType : Option String := none
  sharded : Bool := false
  duplicated : Bool := false
  immutable : Bool := false
  selectStatement : Option String := none
  description : Option String := none
  ifNotExist : Bool := false
  active : Bool := true
  mark : Option EntityMark := none

namespace Table

/-- The keys of a table, in the order of a positional record. -/
def keys : List String :=
  ["code", "collectionName", "name", "properties", "required", "primaryKey", "uniqueKey",
    "chkConstr", "Indxs", "partitioning", "storage", "external_table_clause",
    "blockchain_table_clauses", "temporary", "temporaryType", "sharded", "duplicated", "immutable",
    "selectStatement", "description", "ifNotExist", "isActivated", "compMod"]

/-- A table from the entries of a record. -/
def ofEntries (r : Json.Entries) : Table where
  code := r.text? "code"
  collectionName := r.text? "collectionName"
  name := r.text? "name"
  fields := (r.value "properties").table Field.read?
  required := r.texts "required"
  primaryKeys := r.list CompositeKey.read? "primaryKey"
  uniqueKeys := r.list CompositeKey.read? "uniqueKey"
  checks := r.list Check.read? "chkConstr"
  indexes := r.list Index.read? "Indxs"
  partitioning := (r.value "partitioning").nested? Partitioning.read? {}
  storage := (r.value "storage").nested? Storage.read? {}
  external := (r.value "external_table_clause").nested? ExternalAccess.read? {}
  blockchain := (r.value "blockchain_table_clauses").nested? Blockchain.read? {}
  temporary := r.flag "temporary"
  temporaryType := r.text? "temporaryType"
  sharded := r.flag "sharded"
  duplicated := r.flag "duplicated"
  immutable := r.flag "immutable"
  selectStatement := r.text? "selectStatement"
  description := r.text? "description"
  ifNotExist := r.flag "ifNotExist"
  active := r.active
  mark := EntityMark.ofEntries? r

/-- Reads a table. -/
def read? (v : Json) : Option Table :=
  (v.record? keys).map ofEntries

/-- The name of a table. -/
def tableName? (t : Table) : Option String :=
  nameAmong? t.code t.collectionName t.name

end Table

end SchemaDelta.Model
