import SchemaDelta.Proofs.Model.Malformed
import SchemaDelta.Proofs.Sql.Guarded
import SchemaDelta.Proofs.Sql.Lists
import SchemaDelta.Table.Clause

/-!
# Options that tell nothing

An encryption that tells nothing still encrypts, a storage that tells nothing is a heap, and a
blockchain that tells nothing is one. Access to an external table needs a driver and partitioning
needs a scheme, so these two leave no trace. `TableOption.units_give_iff` says which tables are
created otherwise for an option that tells nothing.
-/

namespace SchemaDelta

open Sql Text

/-! ## Columns -/

/-- The line of a column has its encryption between its default and its constraints. -/
theorem Column.text_line (c : Column) :
    c.line.text = quote c.name ++ framed " " c.type.clause "" ++
      framed " DEFAULT " (c.default.getD "") "" ++
      framed " " ((c.encryption.map Model.Encryption.clause).getD "") "" ++
      framed " " c.constraints "" := by
  rw [line, Form.fill_columnDefinition]

/-- An encryption that tells nothing is one word in the line of a column. -/
theorem Column.exists_text_line_encrypted {f : Model.Field} (h : f.encryption = none)
    (name : String) (required : List String) (ctx : Context) :
    ∃ front back, (ofNode name f required ctx).line.text = front ++ back ∧
      (ofNode name { f with encryption := some {} } required ctx).line.text =
        front ++ " ENCRYPT" ++ back := by
  let c := ofNode name f required ctx
  refine ⟨quote c.name ++ framed " " c.type.clause "" ++ framed " DEFAULT " (c.default.getD "") "",
    framed " " c.constraints "", ?_, ?_⟩
  · have hnone : c.encryption = none := h
    rw [text_line, hnone]
    simp
    rfl
  · rw [text_line]
    rfl

/-! ## Tables -/

/-- The statements that create the table a node describes, with its comments and its indexes. -/
def Model.Table.units (n : Model.Table) (ctx : Context) : List Fragment :=
  (Table.ofNode? n ctx).elim [] fun t => t.createUnits ++ t.indexUnits

namespace Table

variable (t : Table)

/-- The options of a table that are there, in order. -/
def clauses : List String :=
  (t.blockchain.bind Model.Blockchain.clause?).toList ++
    ((t.storage.map Model.Storage.clause).toList ++
      [t.external.bind Model.ExternalAccess.clause?,
        t.partitioning.bind fun p => p.clause? t.active,
        t.selectStatement.map ("AS " ++ ·)].filterMap id)

theorem options_eq : t.options = join "\n" t.clauses := by
  unfold options clauses
  dsimp only
  congr 1
  cases t.blockchain.bind Model.Blockchain.clause? <;>
    cases t.storage.map Model.Storage.clause <;> rfl

/-- An option that is there has a text. -/
theorem ne_empty_of_mem_clauses {s : String} (hs : s ∈ t.clauses) : s ≠ "" := by
  simp only [clauses, List.mem_append, Option.mem_toList, List.mem_filterMap, id,
    List.mem_cons, List.not_mem_nil, or_false] at hs
  rcases hs with hs | hs | ⟨o, rfl | rfl | rfl, hs⟩
  · obtain ⟨b, -, hb⟩ := Option.bind_eq_some_iff.1 hs
    unfold Model.Blockchain.clause? at hb
    dsimp only at hb
    split at hb
    · simp at hb
    · next hne =>
      obtain rfl := Option.some.inj hb
      simpa using hne
  · obtain ⟨b, -, rfl⟩ := Option.map_eq_some_iff.1 hs
    unfold Model.Storage.clause
    dsimp only
    split <;> simp
  · obtain ⟨e, -, he⟩ := Option.bind_eq_some_iff.1 hs
    obtain ⟨d, -, rfl⟩ := Option.map_eq_some_iff.1 he
    simp
  · obtain ⟨p, -, hp⟩ := Option.bind_eq_some_iff.1 hs
    obtain ⟨d, -, rfl⟩ := Option.map_eq_some_iff.1 hp
    simp
  · obtain ⟨q, -, rfl⟩ := Option.map_eq_some_iff.1 hs
    simp

/-- The kind of a table in its creation. -/
def kindText : String :=
  framed " " (t.kind.words?.getD "") ""

/-- The name and the body of a table in its creation. -/
def mainText : String :=
  " TABLE " ++ t.qualifiedName ++ framed "\n(\n\t" (composite t.members ",\n\t" t.active) "\n)"

/-- The options of a table in its creation, each on a line of its own. -/
def optionText : String :=
  String.join (t.clauses.map ("\n" ++ ·))

theorem createText_eq : t.createText = "CREATE" ++ t.kindText ++ t.mainText ++ t.optionText := by
  rw [createText, Form.fill_createTable, options_eq,
    framed_join fun s hs => t.ne_empty_of_mem_clauses hs]
  simp only [kindText, mainText, optionText, String.append_assoc]

end Table

namespace Model.TableOption

variable (o : TableOption)

/-- What the creation of a table gains by an option that tells nothing. A table has one kind only,
and the blockchain is the last that is looked for. -/
def gain (n : Model.Table) : String :=
  match o with
  | partitioning | external => ""
  | storage => "\nORGANIZATION HEAP NOLOGGING"
  | blockchain =>
    if n.temporary || n.sharded || n.duplicated || n.immutable then "" else " BLOCKCHAIN"

/-- The table of a node with an option that tells nothing. -/
def giveTo (n : Model.Table) (t : SchemaDelta.Table) : SchemaDelta.Table :=
  match o with
  | partitioning => { t with partitioning := some (Partitioning.ofNode {} n.fields) }
  | storage => { t with storage := some {} }
  | external => { t with external := some {} }
  | blockchain => { t with blockchain := some {}, kind := Table.Kind.ofNode (blockchain.give n) }

theorem ofNode?_give (n : Model.Table) (ctx : Context) :
    SchemaDelta.Table.ofNode? (o.give n) ctx =
      (SchemaDelta.Table.ofNode? n ctx).map (o.giveTo n) := by
  have hname : (o.give n).tableName? = n.tableName? := by cases o <;> rfl
  unfold SchemaDelta.Table.ofNode?
  rw [hname, Option.map_map]
  cases o <;> rfl

theorem mainText_giveTo (n : Model.Table) (t : SchemaDelta.Table) :
    (o.giveTo n t).mainText = t.mainText := by
  cases o <;> rfl

variable {n : Model.Table} {ctx : Context} {t : SchemaDelta.Table}

/-- A blockchain that tells nothing is a kind, unless the table is of another one. -/
theorem kindText_giveTo (ht : SchemaDelta.Table.ofNode? n ctx = some t)
    (ho : blockchain.isGiven n = false) :
    (blockchain.giveTo n t).kindText = blockchain.gain n ++ t.kindText := by
  have hnone : n.blockchain = none := by simpa [isGiven] using ho
  have hkind : t.kind = Table.Kind.ofNode n := by
    obtain ⟨name, -, rfl⟩ := Option.map_eq_some_iff.1 ht
    rfl
  unfold SchemaDelta.Table.kindText
  rw [hkind]
  unfold giveTo Table.Kind.ofNode gain give
  cases n.temporary <;> cases n.sharded <;> cases n.duplicated <;> cases n.immutable <;>
    simp [hnone, Table.Kind.words?, framed]

/-- A storage that tells nothing has a line of its own. -/
theorem optionText_giveTo_storage (ht : SchemaDelta.Table.ofNode? n ctx = some t)
    (ho : storage.isGiven n = false) :
    ∃ front back, t.optionText = front ++ back ∧
      (storage.giveTo n t).optionText = front ++ storage.gain n ++ back := by
  have hnone : t.storage = none := by
    obtain ⟨name, -, rfl⟩ := Option.map_eq_some_iff.1 ht
    simpa [isGiven] using ho
  obtain ⟨before, after, hwithout, hwith⟩ : ∃ before after, t.clauses = before ++ after ∧
      (storage.giveTo n t).clauses = before ++ "ORGANIZATION HEAP NOLOGGING" :: after := by
    refine ⟨_, _, ?_, rfl⟩
    simp [SchemaDelta.Table.clauses, giveTo, hnone]
  refine ⟨String.join (before.map ("\n" ++ ·)), String.join (after.map ("\n" ++ ·)), ?_, ?_⟩
  · rw [SchemaDelta.Table.optionText, hwithout, List.map_append, String.join_append]
  · have hgain : storage.gain n = "\n" ++ "ORGANIZATION HEAP NOLOGGING" := rfl
    rw [SchemaDelta.Table.optionText, hwith, List.map_append, String.join_append, List.map_cons,
      String.join_cons, hgain]
    simp only [String.append_assoc]

/-- The other options that tell nothing have no text: an access has no driver, a partitioning has
no scheme, and a blockchain has no retention. -/
theorem optionText_giveTo (ht : SchemaDelta.Table.ofNode? n ctx = some t)
    (ho : o.isGiven n = false) (hstorage : o ≠ storage) :
    (o.giveTo n t).optionText = t.optionText := by
  obtain ⟨name, -, rfl⟩ := Option.map_eq_some_iff.1 ht
  cases o with
  | storage => exact absurd rfl hstorage
  | partitioning =>
    have hnone : n.partitioning = none := by simpa [isGiven] using ho
    simp only [SchemaDelta.Table.optionText, SchemaDelta.Table.clauses, giveTo, hnone]
    rfl
  | external =>
    have hnone : n.external = none := by simpa [isGiven] using ho
    simp only [SchemaDelta.Table.optionText, SchemaDelta.Table.clauses, giveTo, hnone]
    rfl
  | blockchain =>
    have hnone : n.blockchain = none := by simpa [isGiven] using ho
    simp only [SchemaDelta.Table.optionText, SchemaDelta.Table.clauses, giveTo, hnone]
    rfl

/-- The creation of a table gains one text by an option that tells nothing. -/
theorem exists_createText_giveTo (ht : SchemaDelta.Table.ofNode? n ctx = some t)
    (ho : o.isGiven n = false) :
    ∃ front back, t.createText = front ++ back ∧
      (o.giveTo n t).createText = front ++ o.gain n ++ back := by
  rw [SchemaDelta.Table.createText_eq, SchemaDelta.Table.createText_eq, mainText_giveTo]
  -- A storage is among the options, a blockchain before the name; the other two leave no trace.
  cases o with
  | storage =>
    obtain ⟨front, back, hwithout, hwith⟩ := optionText_giveTo_storage ht ho
    refine ⟨"CREATE" ++ t.kindText ++ t.mainText ++ front, back, ?_, ?_⟩
    · simp only [hwithout, String.append_assoc]
    · have hkind : (storage.giveTo n t).kindText = t.kindText := rfl
      simp only [hwith, hkind, String.append_assoc]
  | blockchain =>
    refine ⟨"CREATE", t.kindText ++ t.mainText ++ t.optionText, ?_, ?_⟩
    · simp only [String.append_assoc]
    · rw [kindText_giveTo ht ho, blockchain.optionText_giveTo ht ho (by decide)]
      simp only [String.append_assoc]
  | partitioning =>
    rw [partitioning.optionText_giveTo ht ho (by decide)]
    refine ⟨_, "", String.append_empty.symm, ?_⟩
    rw [gain, String.append_empty, String.append_empty]
    rfl
  | external =>
    rw [external.optionText_giveTo ht ho (by decide)]
    refine ⟨_, "", String.append_empty.symm, ?_⟩
    rw [gain, String.append_empty, String.append_empty]
    rfl

/-- Only the creation itself gains a text; the comments and the indexes stay as they are. -/
theorem exists_units_give (ho : o.isGiven n = false) (ctx : Context) {name : String}
    (hname : n.tableName? = some name) :
    ∃ front back rest,
      n.units ctx = ⟨guarded (front ++ back) n.ifNotExist nameInUse, n.active⟩ :: rest ∧
      (o.give n).units ctx =
        ⟨guarded (front ++ o.gain n ++ back) n.ifNotExist nameInUse, n.active⟩ :: rest := by
  obtain ⟨t, ht⟩ : ∃ t, SchemaDelta.Table.ofNode? n ctx = some t :=
    ⟨_, by rw [SchemaDelta.Table.ofNode?, hname]; rfl⟩
  obtain ⟨front, back, hwithout, hwith⟩ := o.exists_createText_giveTo ht ho
  obtain ⟨hguard, hactive⟩ : t.ifNotExist = n.ifNotExist ∧ t.active = n.active := by
    obtain ⟨-, -, rfl⟩ := Option.map_eq_some_iff.1 ht
    exact ⟨rfl, rfl⟩
  refine ⟨front, back, t.createUnits.tail ++ t.indexUnits, ?_, ?_⟩
  · rw [Table.units, ht, ← hguard, ← hactive, ← hwithout]
    rfl
  · rw [Table.units, o.ofNode?_give, ht, ← hguard, ← hactive, ← hwith]
    cases o <;> rfl

/-- What is gained, if anything, has a letter. -/
theorem exists_mem_gain {n : Model.Table} (h : o.gain n ≠ "") :
    ∃ c ∈ (o.gain n).toList, isBlank c = false ∧ c ≠ ';' := by
  cases o with
  | partitioning | external => exact absurd rfl h
  | storage => exact ⟨'O', by simp [gain], by decide, by decide⟩
  | blockchain =>
    unfold gain at h ⊢
    dsimp only at h ⊢
    split at h
    · exact absurd rfl h
    · next hkind =>
      rw [if_neg hkind]
      exact ⟨'B', by decide, by decide, by decide⟩

/-- A table is created as it is without an option that tells nothing exactly where nothing is
gained. -/
theorem units_give_iff (ho : o.isGiven n = false) (ctx : Context) :
    (o.give n).units ctx = n.units ctx ↔ n.tableName? = none ∨ o.gain n = "" := by
  cases hname : n.tableName? with
  | none =>
    refine iff_of_true ?_ (.inl rfl)
    have hnone : SchemaDelta.Table.ofNode? n ctx = none := by
      rw [SchemaDelta.Table.ofNode?, hname, Option.map_none]
    rw [Table.units, Table.units, o.ofNode?_give, hnone]
    rfl
  | some name =>
    obtain ⟨front, back, rest, hwithout, hwith⟩ := o.exists_units_give ho ctx hname
    rw [hwithout, hwith]
    refine ⟨fun h => .inr ?_, ?_⟩
    -- The ends of a statement are cut, but not at a letter.
    · by_contra hgain
      obtain ⟨c, hc, hblank, hsemi⟩ := o.exists_mem_gain hgain
      simp only [List.cons.injEq, Fragment.mk.injEq, and_true] at h
      exact guarded_ne_of_word hc hblank hsemi _ _ h
    · rintro (hnone | hgain)
      · cases hnone
      · rw [hgain, String.append_empty]

end Model.TableOption

end SchemaDelta
