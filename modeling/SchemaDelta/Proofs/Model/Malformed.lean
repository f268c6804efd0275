import SchemaDelta.Model.Table
import SchemaDelta.Proofs.Json.Without

/-!
# Malformed options

A scalar where an object of options belongs is not read as no options: the entity has the options,
and they tell nothing. All other fields are read as if the malformed one were left out.
-/

namespace SchemaDelta.Model

open Json

variable {r s : Entries}

/-! ## Fields -/

/-- The type of a field is read from other entries than its encryption and its change. -/
theorem Typing.ofEntries_of_agreeBut {key : String} (h : Entries.AgreeBut key r s)
    (hkey : key ∉ keys) : ofEntries r = ofEntries s := by
  have hvalue : ∀ k ∈ keys, r.value k = s.value k := fun k hk => h k fun heq => hkey (heq ▸ hk)
  simp only [keys, List.forall_mem_cons] at hvalue
  unfold ofEntries Entries.text? Entries.count? Entries.flag
  simp [hvalue]

/-- Fields that differ in the encryption only. -/
theorem Field.read?_of_agreeBut_encryption (h : Entries.AgreeBut "encryption" r s) :
    Field.read? (.object r) = (Field.read? (.object s)).map
      ({ · with encryption := (r.value "encryption").nested? Encryption.read? {} }) := by
  have htyping := Typing.ofEntries_of_agreeBut h (by decide)
  have hvalue (k : String) (hk : k ≠ "encryption") : r.value k = s.value k := h k hk
  simp [read?, object?, Entries.text?, Entries.flag, Entries.active, hvalue, htyping]

/-- Fields that differ in the change only. -/
theorem Field.read?_of_agreeBut_compMod (h : Entries.AgreeBut "compMod" r s) :
    Field.read? (.object r) = (Field.read? (.object s)).map
      ({ · with change := (r.value "compMod").nested? FieldChange.read? {} }) := by
  have htyping := Typing.ofEntries_of_agreeBut h (by decide)
  have hvalue (k : String) (hk : k ≠ "compMod") : r.value k = s.value k := h k hk
  simp [read?, object?, Entries.text?, Entries.flag, Entries.active, hvalue, htyping]

/-! ## Tables -/

/-- The optional objects of a table that its creation is written from. -/
inductive TableOption where
  | partitioning
  | storage
  | external
  | blockchain
deriving DecidableEq

namespace TableOption

/-- The key of an option. -/
def key : TableOption → String
  | partitioning => "partitioning"
  | storage => "storage"
  | external => "external_table_clause"
  | blockchain => "blockchain_table_clauses"

/-- The table has the option. -/
def isGiven : TableOption → Table → Bool
  | partitioning, t => t.partitioning.isSome
  | storage, t => t.storage.isSome
  | external, t => t.external.isSome
  | blockchain, t => t.blockchain.isSome

/-- The table with the option that a value stands for. -/
def read : TableOption → Json → Table → Table
  | partitioning, v, t => { t with partitioning := v.nested? Partitioning.read? {} }
  | storage, v, t => { t with storage := v.nested? Storage.read? {} }
  | external, v, t => { t with external := v.nested? ExternalAccess.read? {} }
  | blockchain, v, t => { t with blockchain := v.nested? Blockchain.read? {} }

/-- The table with the option, which tells nothing. -/
def give : TableOption → Table → Table
  | partitioning, t => { t with partitioning := some {} }
  | storage, t => { t with storage := some {} }
  | external, t => { t with external := some {} }
  | blockchain, t => { t with blockchain := some {} }

variable (o : TableOption)

theorem isGiven_read_null (t : Table) : o.isGiven (o.read .null t) = false := by
  cases o <;> rfl

/-- A scalar stands for an option that tells nothing. -/
theorem read_of_isScalar {v : Json} (hv : v.isScalar = true) (t : Table) :
    o.read v t = o.give t := by
  cases o with
  | partitioning =>
    have hgiven : v.nested? Partitioning.read? {} = some {} := nested?_of_isScalar hv _
    rw [read, give, hgiven]
  | storage =>
    have hgiven : v.nested? Storage.read? {} = some {} := nested?_of_isScalar hv _
    rw [read, give, hgiven]
  | external =>
    have hgiven : v.nested? ExternalAccess.read? {} = some {} := nested?_of_isScalar hv _
    rw [read, give, hgiven]
  | blockchain =>
    have hgiven : v.nested? Blockchain.read? {} = some {} := nested?_of_isScalar hv _
    rw [read, give, hgiven]

/-- Tables that differ in one option only. -/
theorem ofEntries_of_agreeBut (h : Entries.AgreeBut o.key r s) :
    Table.ofEntries r = o.read (r.value o.key) (Table.ofEntries s) := by
  unfold Table.ofEntries EntityMark.ofEntries? Entries.text? Entries.flag Entries.texts Entries.list
    Entries.active
  cases o with
  | partitioning =>
    have hvalue (k : String) (hk : k ≠ "partitioning") : r.value k = s.value k := h k hk
    simp [read, key, hvalue]
  | storage =>
    have hvalue (k : String) (hk : k ≠ "storage") : r.value k = s.value k := h k hk
    simp [read, key, hvalue]
  | external =>
    have hvalue (k : String) (hk : k ≠ "external_table_clause") : r.value k = s.value k := h k hk
    simp [read, key, hvalue]
  | blockchain =>
    have hvalue (k : String) (hk : k ≠ "blockchain_table_clauses") : r.value k = s.value k := h k hk
    simp [read, key, hvalue]

/-- An option that is left out is not given. -/
theorem isGiven_ofEntries_without (r : Entries) :
    o.isGiven (Table.ofEntries (r.without o.key)) = false := by
  rw [o.ofEntries_of_agreeBut fun _ _ => rfl, Entries.value_without_self, isGiven_read_null]

/-- Where an option is a scalar, the table has the option, and it tells nothing. -/
theorem ofEntries_of_isScalar (hv : (r.value o.key).isScalar = true) :
    Table.ofEntries r = o.give (Table.ofEntries (r.without o.key)) := by
  rw [o.ofEntries_of_agreeBut (Entries.agreeBut_without o.key r), o.read_of_isScalar hv]

end TableOption

end SchemaDelta.Model
