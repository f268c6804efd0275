import Mathlib.Data.List.Nodup
import SchemaDelta.Proofs.Activation.Body
import SchemaDelta.Proofs.Clause.Table
import SchemaDelta.Proofs.Json.Strings
import SchemaDelta.Proofs.Sql.Live

/-!
# The columns in the live part of a table

What is left of the creation of an active table when its comments are deleted, and which columns are
named there. A list of columns loses its deactivated ones to a comment, but a list without an active
column stays as it is, because its owner is commented as a whole. That holds of key constraints. The
partitioning of a table is not commented, so deactivated columns stay live in it exactly where a
list of its key columns has no active one (`Table.live_columns_active_iff`).
-/

namespace SchemaDelta

open Sql Text

/-! ## What is left -/

namespace KeyMember

/-- The columns of a list that are left: the active ones, or all where none is active. -/
def kept (columns : List KeyMember) : List KeyMember :=
  if noneActive columns then columns else columns.filter KeyMember.active

/-- What is left of a list of columns in parentheses, with the blank in front of its comment. -/
def keptTuple (columns : List KeyMember) : String :=
  "(" ++
    (join ", " ((kept columns).map fun c => quote c.name) ++
      if columns.any KeyMember.active && columns.any (!·.active) then " " else "") ++
    ")"

/-- What is left of the list of key columns, if there is one. -/
def keptKeys (columns : List KeyMember) : String :=
  if columns.isEmpty then "" else " " ++ keptTuple columns

end KeyMember

/-- What is left of a key constraint with an active column. -/
def TableKey.keptText (k : TableKey) : String :=
  keyText k.kind (KeyMember.keptTuple k.columns) k.options

namespace Partitioning

/-- What is left of the clause of the subpartitions. -/
def keptSubpartitions (p : Partitioning) : String :=
  match p.node.subpartitionType with
  | some kind =>
    " SUBPARTITION BY " ++ (trim kind).toUpper ++ KeyMember.keptKeys p.subpartitionKeys
  | none => ""

/-- What is left after the key columns. Only composite schemes name columns there. -/
def keptTail (p : Partitioning) (scheme : PartitionScheme) : String :=
  match scheme with
  | .compositeRange =>
    p.intervalClause ++ p.tablespaces "" ++ p.keptSubpartitions ++
      partitionBlock p.node.subRanges "range_subpartition_desc"
  | .compositeList =>
    p.tablespaces " AUTOMATIC" ++ p.keptSubpartitions ++
      partitionBlock p.node.subLists "list_subpartition_description"
  | .compositeHash => p.keptSubpartitions ++ p.hashes
  | _ => p.tail scheme false

/-- What is left of the partitioning clause. -/
def keptClause? (p : Partitioning) : Option String :=
  (p.node.partitionBy.bind PartitionScheme.ofName?).map fun scheme =>
    "PARTITION BY " ++ scheme.keyword ++ KeyMember.keptKeys p.keys ++ p.keptTail scheme

end Partitioning

namespace Table

/-- What is left of the members of the body. -/
def keptMembers (t : Table) : List String :=
  (t.columns.filter Column.active).map (fun c => c.line.text) ++
    (t.keys.filter TableKey.active).map TableKey.keptText ++
    t.checks.map fun c => c.fragment.text

/-- What is left of the body, with the line in front of its comment. -/
def keptBody (t : Table) : String :=
  join ",\n\t" t.keptMembers ++
    if t.members.any Fragment.active && t.members.any (!·.active) then "\n\t" else ""

/-- What is left of the options. -/
def keptOptions (t : Table) : String :=
  let clauses := [t.blockchain.bind Model.Blockchain.clause?, t.storage.map Model.Storage.clause,
    t.external.bind Model.ExternalAccess.clause?, t.partitioning.bind Partitioning.keptClause?,
    t.selectStatement.map ("AS " ++ ·)]
  join "\n" (clauses.filterMap id)

/-- What is left of the creation of an active table. -/
def keptText (t : Table) : String :=
  "CREATE" ++ framed " " (t.kind.words?.getD "") "" ++ " TABLE " ++ t.qualifiedName ++
    (if t.members = [] then "" else "\n(\n\t" ++ t.keptBody ++ "\n)") ++
    framed "\n" t.keptOptions ""

end Table

/-! ## Reading clauses -/

section

variable {p : String → Prop} {x l : String}

/-- A list without an active column is left as it is. -/
theorem KeyMember.keptTuple_of_noneActive {columns : List KeyMember}
    (h : noneActive columns = true) :
    keptTuple columns = columnTuple (columns.map quoted) true := by
  have hany : columns.any active = false := by
    rw [List.any_eq_false]
    intro c hc
    rw [(noneActive_eq_true.1 h).2 c hc]
    exact Bool.false_ne_true
  rw [keptTuple, kept, if_pos h, hany, Bool.false_and, if_neg Bool.false_ne_true,
    String.append_empty, columnTuple, noneActive_quoted, h, Bool.not_true, Bool.and_false,
    composite_inactive, List.map_map]
  rfl

/-- The active columns of a list. -/
theorem KeyMember.kept_texts {columns : List KeyMember} (h : noneActive columns = false) :
    ((columns.map quoted).filter Fragment.active).map Fragment.text =
      (kept columns).map fun c => quote c.name := by
  rw [kept, h, if_neg Bool.false_ne_true]
  exact filter_text_quoted _ columns

/-- Of a list of columns the active ones are left, or all where none is active. -/
theorem reads_columnTuple (hp : ∀ s, p s → CommentFree s.toList) (hc : TextClass p)
    {columns : List KeyMember} (h : ∀ c ∈ columns, p c.name) :
    Reads (columnTuple (columns.map KeyMember.quoted) true) (KeyMember.keptTuple columns) := by
  have hquote := phrase_quoted hc h
  cases hoff : KeyMember.noneActive columns with
  -- Nothing is commented in such a list, so it is a phrase as a whole.
  | true =>
    have hphrase : Phrase p (true && !noneActive (columns.map KeyMember.quoted))
        (columnTuple (columns.map KeyMember.quoted) true) := .columnTuple hquote
    rw [KeyMember.noneActive_quoted, hoff] at hphrase
    rw [KeyMember.keptTuple_of_noneActive hoff]
    exact .of_phrase hp hphrase
  | false =>
    have hlive : List.Forall₂ Reads
        (((columns.map KeyMember.quoted).filter Fragment.active).map Fragment.text)
        ((KeyMember.kept columns).map fun c => quote c.name) := by
      rw [← KeyMember.kept_texts hoff, List.forall₂_same]
      intro t ht
      obtain ⟨m, hm, rfl⟩ := List.mem_map.1 ht
      exact .of_phrase hp (hquote m (List.mem_filter.1 hm).1)
    have hgap : gapOf ", " = " " := by decide
    have hread := Reads.composite (by decide : isSeparator ", " = true) (by decide)
      (fun m hm => (hquote m hm).ne_empty) hlive (fun m hm _ => hquote m hm) hp
    have hbody : Reads (composite (columns.map KeyMember.quoted) ", " true)
        (join ", " ((KeyMember.kept columns).map fun c => quote c.name) ++
          if columns.any KeyMember.active && columns.any (!·.active) then " " else "") := by
      simpa [hgap, List.any_map, Function.comp_def, KeyMember.quoted] using hread
    rw [columnTuple, KeyMember.noneActive_quoted, hoff, KeyMember.keptTuple]
    have hleft := hbody.lead (by decide : isGap "(" = true)
    exact hleft.trail (by decide)

theorem columnTuple_ne_empty (columns : List Fragment) (parentActive : Bool) :
    columnTuple columns parentActive ≠ "" := by
  simp [columnTuple]

theorem KeyMember.keptTuple_ne_empty (columns : List KeyMember) : keptTuple columns ≠ "" := by
  simp [keptTuple]

variable (hp : ∀ s, p s → CommentFree s.toList) (hc : TextClass p)

include hp hc

/-- A key constraint names the columns that are left of its list. -/
theorem TableKey.reads_fragment {k : TableKey} (hcolumns : ∀ c ∈ k.columns, p c.name)
    (h : k.options.Texts p) : Reads (k.fragment true).text k.keptText := by
  have hkind : Phrase p false k.kind.keyword := by cases k.kind <;> exact .word (by decide)
  have hname : OptPhrase p false (quotedName k.options.constraint?) :=
    optPhrase_quotedName hc fun s hs => (h.constraintName.orElse h.name s hs).1
  have hhead := Reads.of_phrase hp
    (Phrase.framed_left (by decide : isWord "CONSTRAINT " = true)
      (by decide : isSeparator " " = true) hname hkind)
  have htuple := hhead.framed_right (by decide : isGap " " = true)
    (reads_columnTuple hp hc hcolumns)
    (by simp [columnTuple_ne_empty, KeyMember.keptTuple_ne_empty])
  rw [fragment, keptText, keyText, keyText, Form.fill_keyConstraint, Form.fill_keyConstraint]
  exact htuple.append_optPhrase hp (by decide) (optPhrase_keyOptions hc h.strings)

/-- The list of key columns may follow. -/
theorem reads_partitionKeys (hx : Reads x l) {keys : List KeyMember} (h : ∀ c ∈ keys, p c.name) :
    Reads (x ++ partitionKeys keys true) (l ++ KeyMember.keptKeys keys) := by
  unfold partitionKeys KeyMember.keptKeys
  split_ifs
  · rwa [String.append_empty, String.append_empty]
  · rw [← String.append_assoc, ← String.append_assoc]
    exact hx.glue (by decide) (reads_columnTuple hp hc h)

namespace Partitioning

variable {n : Partitioning} (h : n.Texts p)

include h

/-- The clause of the subpartitions may follow. -/
theorem reads_subpartitions (hx : Reads x l) :
    Reads (x ++ n.subpartitions true) (l ++ n.keptSubpartitions) := by
  unfold subpartitions keptSubpartitions
  cases hkind : n.node.subpartitionType with
  | none => simpa using hx
  | some kind =>
    have hupper : p (trim kind).toUpper :=
      hc.upper (hc.trim (h.node.subpartitionType kind hkind).1)
    have hwords : Phrase p false ("SUBPARTITION BY " ++ (trim kind).toUpper) :=
      (OptPhrase.given hupper).lead (by decide)
    have htail : Tail p false (" SUBPARTITION BY " ++ (trim kind).toUpper) :=
      (Tail.of_phrase (by decide : isSeparator " " = true) hwords).of_toList (by simp)
    have hhead := hx.append_tail hp htail
    simpa only [String.append_assoc] using reads_partitionKeys hp hc hhead h.subpartitionKeys

/-- What follows the key columns may follow. -/
theorem reads_tail (hx : Reads x l) (scheme : PartitionScheme) :
    Reads (x ++ n.tail scheme true) (l ++ n.keptTail scheme) := by
  -- Only composite schemes have a list of columns in their tail.
  have hplain (heq : n.tail scheme true = n.tail scheme false)
      (hkept : n.keptTail scheme = n.tail scheme false) :
      Reads (x ++ n.tail scheme true) (l ++ n.keptTail scheme) := by
    rw [heq, hkept]
    exact hx.append_tail hp (tail_tail hc h.strings scheme false)
  cases scheme with
  | range => exact hplain rfl rfl
  | list => exact hplain rfl rfl
  | hash => exact hplain rfl rfl
  | reference => exact hplain rfl rfl
  | system => exact hplain rfl rfl
  | compositeRange =>
    have hhead := (hx.append_tail hp (tail_interval h.strings)).append_tail hp
      (tail_tablespaces hc h.strings (by decide : isSeparator ("" ++ " STORE IN ") = true))
    have htail := (reads_subpartitions hp hc h hhead).append_tail hp
      (tail_partitionBlock hc h.node.subRanges "range_subpartition_desc")
    simpa only [tail, keptTail, String.append_assoc] using htail
  | compositeList =>
    have hhead := hx.append_tail hp
      (tail_tablespaces hc h.strings
        (by decide : isSeparator (" AUTOMATIC" ++ " STORE IN ") = true))
    have htail := (reads_subpartitions hp hc h hhead).append_tail hp
      (tail_partitionBlock hc h.node.subLists "list_subpartition_description")
    simpa only [tail, keptTail, String.append_assoc] using htail
  | compositeHash =>
    have htail := (reads_subpartitions hp hc h hx).append_tail hp (tail_hashes hc h.strings)
    simpa only [tail, keptTail, String.append_assoc] using htail

/-- The partitioning clause of an active table. -/
theorem reads_clause : Option.Rel ReadsClause (n.clause? true) n.keptClause? := by
  unfold clause? keptClause?
  cases n.node.partitionBy.bind PartitionScheme.ofName? with
  | none => exact .none
  | some scheme =>
    have hkeyword : Phrase p false ("PARTITION BY " ++ scheme.keyword) := by
      refine .lead (by decide) (.word ?_)
      cases scheme <;> decide
    have hkeys := reads_partitionKeys hp hc (.of_phrase hp hkeyword) h.keys
    exact .some ⟨reads_tail hp hc h hkeys scheme, by simp, by simp⟩

end Partitioning

namespace Table

variable {t : Table} (h : t.Texts p) (hactive : t.active = true)

include h hactive

/-- The live members of the body. -/
theorem reads_members :
    List.Forall₂ Reads ((t.members.filter Fragment.active).map Fragment.text) t.keptMembers := by
  have htexts := members_filter h.foreignKeys fun b => b
  have hchecks : t.checks.filter (fun _ => true) = t.checks := List.filter_eq_self.2 fun c _ => rfl
  rw [hactive, hchecks] at htexts
  rw [show t.members.filter Fragment.active = t.members.filter fun m => m.active from rfl, htexts]
  -- Lines and checks have no comments; a key has one around its deactivated columns.
  refine List.rel_append (List.rel_append ?_ ?_) ?_
  · rw [List.forall₂_map_left_iff, List.forall₂_map_right_iff, List.forall₂_same]
    intro c hmem
    exact .of_phrase hp (c.phrase_line hc (h.columns c (List.mem_filter.1 hmem).1).strings)
  · rw [List.forall₂_map_left_iff, List.forall₂_map_right_iff, List.forall₂_same]
    intro k hmem
    have htexts := h.keys k (List.mem_filter.1 hmem).1
    exact k.reads_fragment hp hc htexts.1 htexts.2
  · rw [List.forall₂_map_left_iff, List.forall₂_map_right_iff, List.forall₂_same]
    intro c hmem
    exact .of_phrase hp (c.phrase_fragment hc (h.checks c hmem).strings)

/-- The body, where it has a member. -/
theorem reads_body : Reads (composite t.members ",\n\t" true) t.keptBody := by
  have hphrase : ∀ m ∈ t.members, Phrase p (m.active && true) m.text := by
    rw [← hactive]
    exact phrase_members hc h.memberStrings h.phrase_foreignKeys
  have hgap : gapOf ",\n\t" = "\n\t" := by decide
  have hread := Reads.composite (by decide : isSeparator ",\n\t" = true) (by decide)
    (fun m hm => (hphrase m hm).ne_empty) (reads_members hp hc h hactive)
    (fun m hm hoff => by simpa [hoff] using hphrase m hm) hp
  rwa [hgap] at hread

/-- The options, if there are any. -/
theorem reads_options (hx : Reads x l) :
    Reads (x ++ framed "\n" t.options "") (l ++ framed "\n" t.keptOptions "") := by
  -- Only the partitioning has comments in it.
  have hself {o : Option String} (ho : ∀ s ∈ o, Phrase p false s) :
      Option.Rel ReadsClause o o := by
    cases o with
    | none => exact .none
    | some s => exact .some ⟨.of_phrase hp (ho s rfl), (ho s rfl).ne_empty, (ho s rfl).ne_empty⟩
  have hpartitioning : Option.Rel ReadsClause
      (t.partitioning.bind fun q => q.clause? t.active)
      (t.partitioning.bind Partitioning.keptClause?) := by
    cases hq : t.partitioning with
    | none => exact .none
    | some q =>
      rw [hactive]
      exact q.reads_clause hp hc (h.partitioning q hq)
  have hclauses : List.Forall₂ (Option.Rel ReadsClause)
      [t.blockchain.bind Model.Blockchain.clause?, t.storage.map Model.Storage.clause,
        t.external.bind Model.ExternalAccess.clause?,
        t.partitioning.bind fun q => q.clause? t.active, t.selectStatement.map ("AS " ++ ·)]
      [t.blockchain.bind Model.Blockchain.clause?, t.storage.map Model.Storage.clause,
        t.external.bind Model.ExternalAccess.clause?,
        t.partitioning.bind Partitioning.keptClause?, t.selectStatement.map ("AS " ++ ·)] := by
    refine .cons (hself fun s hs => ?_) (.cons (hself fun s hs => ?_) (.cons (hself fun s hs => ?_)
      (.cons hpartitioning (.cons (hself fun s hs => ?_) .nil))))
    · obtain ⟨n, hn, hns⟩ := Option.bind_eq_some_iff.1 hs
      exact phrase_blockchain hc (h.blockchain n hn).strings hns
    · obtain ⟨n, hn, rfl⟩ := Option.map_eq_some_iff.1 hs
      exact phrase_storage hc (h.storage n hn).strings
    · obtain ⟨n, hn, hns⟩ := Option.bind_eq_some_iff.1 hs
      exact phrase_external (h.external n hn).strings hc hns
    · obtain ⟨q, hq, rfl⟩ := Option.map_eq_some_iff.1 hs
      exact .lead (by decide) (h.selectStatement.phrase hq)
  exact hx.framed_join (by decide) (by decide) (List.rel_filterMap (fun _ _ ho => ho) hclauses)

/-- The creation of an active table. -/
theorem reads_createText : Reads t.createText t.keptText := by
  have hhead : Phrase p false ("CREATE" ++ framed " " (t.kind.words?.getD "") "" ++ " TABLE " ++
      t.qualifiedName) :=
    (Phrase.framed_right (.word (by decide : isWord "CREATE" = true))
      (by decide : isSeparator " " = true) (optPhrase_kind h.kind.strings)).glue (by decide)
      (phrase_qualified hc h.name h.schema)
  have hne : ∀ m ∈ t.members, m.text ≠ "" := fun m hm =>
    (phrase_members hc h.memberStrings h.phrase_foreignKeys m hm).ne_empty
  have hbody : Reads
      ("CREATE" ++ framed " " (t.kind.words?.getD "") "" ++ " TABLE " ++ t.qualifiedName ++
        framed "\n(\n\t" (composite t.members ",\n\t" true) "\n)")
      ("CREATE" ++ framed " " (t.kind.words?.getD "") "" ++ " TABLE " ++ t.qualifiedName ++
        if t.members = [] then "" else "\n(\n\t" ++ t.keptBody ++ "\n)") := by
    -- Members that are all deactivated make a block around a comment, no member makes no block.
    by_cases hnone : t.members = []
    · rw [if_pos hnone, hnone]
      simpa [composite, join] using Reads.of_phrase hp hhead
    · have hbody := ((Reads.of_phrase hp hhead).glue (by decide : isGap "\n(\n\t" = true)
        (reads_body hp hc h hactive)).trail (by decide : isGap "\n)" = true)
      rw [if_neg hnone, framed_of_ne fun he => hnone ((composite_eq_empty_iff hne).1 he)]
      simpa only [String.append_assoc] using hbody
  rw [createText, Form.fill_createTable, hactive]
  exact reads_options hp hc h hactive hbody

end Table

end

/-! ## The columns that are named -/

/-- The scheme has subpartitions. -/
def PartitionScheme.composite : PartitionScheme → Bool
  | compositeRange | compositeList | compositeHash => true
  | _ => false

/-- The lists of columns in a partitioning clause: the key, and that of the subpartitions. -/
def Partitioning.keyLists (p : Partitioning) : List (List KeyMember) :=
  match p.node.partitionBy.bind PartitionScheme.ofName? with
  | some scheme =>
    p.keys ::
      if scheme.composite && p.node.subpartitionType.isSome then [p.subpartitionKeys] else []
  | none => []

namespace Table

/-- The columns that are named in what is left of the body: those with a line, and those of key
constraints. -/
def bodyColumns (t : Table) : List String :=
  (t.columns.filter Column.active).map Column.name ++
    (t.keys.filter TableKey.active).flatMap fun k => (KeyMember.kept k.columns).map KeyMember.name

/-- The lists of columns in the partitioning of a table. -/
def partitionLists (t : Table) : List (List KeyMember) :=
  (t.partitioning.map Partitioning.keyLists).getD []

/-- The columns that are named in what is left of the partitioning. -/
def partitionColumns (t : Table) : List String :=
  t.partitionLists.flatMap fun columns => (KeyMember.kept columns).map KeyMember.name

end Table

/-! ## Activated columns -/

/-- A field that is active has the name, up to blank characters around it. -/
def Model.Fields.Activates (fields : Model.Fields) (name : String) : Prop :=
  ∃ e ∈ fields, trim e.1 = trim name ∧ e.2.active = true

/-- The columns of a list are fields, each with the activation of its field. -/
def Model.Fields.Lists (fields : Model.Fields) (columns : List KeyMember) : Prop :=
  ∀ c ∈ columns, ∃ e ∈ fields, c = ⟨e.1, e.2.active⟩

section

variable {fields : Model.Fields}

/-- References to columns mean fields. -/
theorem Model.Fields.lists_resolveKeys (refs : List Model.ColumnRef) :
    fields.Lists (resolveKeys refs fields) := by
  intro c hmem
  obtain ⟨ref, -, href⟩ := List.mem_filterMap.1 hmem
  exact exists_mem_of_resolve? href

/-- Where no two names are the same, a column is activated exactly if it is active. -/
theorem Model.Fields.activates_iff (hnames : (fields.map fun e => trim e.1).Nodup)
    {e : String × Model.Field} (he : e ∈ fields) :
    fields.Activates e.1 ↔ e.2.active = true := by
  refine ⟨?_, fun hactive => ⟨e, he, rfl, hactive⟩⟩
  rintro ⟨d, hd, hname, hactive⟩
  obtain rfl : d = e := List.inj_on_of_nodup_map hnames hd he hname
  exact hactive

/-- What is left of a list of columns is activated, unless the list has no active column. -/
theorem KeyMember.kept_activates_iff (hnames : (fields.map fun e => trim e.1).Nodup)
    {columns : List KeyMember} (h : fields.Lists columns) :
    (∀ name ∈ (kept columns).map KeyMember.name, fields.Activates name) ↔
      noneActive columns = false := by
  have hiff : ∀ c ∈ columns, (fields.Activates c.name ↔ c.active = true) := by
    intro c hmem
    obtain ⟨e, he, rfl⟩ := h c hmem
    exact Model.Fields.activates_iff hnames he
  rw [List.forall_mem_map, kept]
  cases hnone : noneActive columns with
  | true =>
    -- Its first column is left and is not active.
    obtain ⟨hne, hoff⟩ := noneActive_eq_true.1 hnone
    obtain ⟨c, hmem⟩ := List.exists_mem_of_ne_nil _ hne
    refine iff_of_false (fun hall => ?_) (by simp)
    have hactive := (hiff c hmem).1 (hall c hmem)
    rw [hoff c hmem] at hactive
    cases hactive
  | false =>
    refine iff_of_true (fun c hmem => ?_) rfl
    obtain ⟨hmem, hactive⟩ := List.mem_filter.1 hmem
    exact (hiff c hmem).2 hactive

/-- The lists of a partitioning are lists of fields. -/
theorem Partitioning.lists_keyLists (p : Model.Partitioning) :
    ∀ columns ∈ (ofNode p fields).keyLists, fields.Lists columns := by
  have hkeys : fields.Lists (ofNode p fields).keys := by
    simp only [ofNode]
    split_ifs <;> exact Model.Fields.lists_resolveKeys _
  have hsubpartitions : fields.Lists (ofNode p fields).subpartitionKeys := by
    simp only [ofNode]
    split_ifs <;> exact Model.Fields.lists_resolveKeys _
  intro columns hmem
  unfold keyLists at hmem
  split at hmem
  · rcases List.mem_cons.1 hmem with rfl | hmem
    · exact hkeys
    · split_ifs at hmem
      · rw [List.mem_singleton.1 hmem]
        exact hsubpartitions
      · cases hmem
  · cases hmem

end

namespace Table

variable {n : Model.Table} {ctx : Context} {t : Table}

/-- The columns that are left in the body are activated. -/
theorem bodyColumns_activated (h : ofNode? n ctx = some t)
    (hnames : (n.fields.map fun e => trim e.1).Nodup) :
    ∀ name ∈ t.bodyColumns, n.fields.Activates name := by
  obtain ⟨m, -, rfl⟩ := Option.map_eq_some_iff.1 h
  intro name hmem
  rcases List.mem_append.1 hmem with hmem | hmem
  · obtain ⟨c, hc, rfl⟩ := List.mem_map.1 hmem
    obtain ⟨hc, hactive⟩ := List.mem_filter.1 hc
    obtain ⟨e, he, rfl⟩ := List.mem_map.1 hc
    exact ⟨e, he, rfl, hactive⟩
  · obtain ⟨k, hk, hmem⟩ := List.mem_flatMap.1 hmem
    obtain ⟨hk, hactive⟩ := List.mem_filter.1 hk
    have hlists : n.fields.Lists k.columns := by
      rcases List.mem_append.1 (List.mem_filter.1 hk).1 with hk | hk
      · obtain ⟨key, -, rfl⟩ := List.mem_map.1 hk
        exact Model.Fields.lists_resolveKeys _
      · obtain ⟨key, -, rfl⟩ := List.mem_map.1 hk
        exact Model.Fields.lists_resolveKeys _
    have hnone : KeyMember.noneActive k.columns = false := by
      simpa [TableKey.active] using hactive
    exact (KeyMember.kept_activates_iff hnames hlists).2 hnone name hmem

/-- The columns that are left in the partitioning are activated, unless one of its lists has no
active column. -/
theorem partitionColumns_activated_iff (h : ofNode? n ctx = some t)
    (hnames : (n.fields.map fun e => trim e.1).Nodup) :
    (∀ name ∈ t.partitionColumns, n.fields.Activates name) ↔
      ∀ columns ∈ t.partitionLists, KeyMember.noneActive columns = false := by
  -- Whichever list the fallback takes, its references are resolved among the fields.
  have hlists : ∀ columns ∈ t.partitionLists, n.fields.Lists columns := by
    obtain ⟨m, -, rfl⟩ := Option.map_eq_some_iff.1 h
    intro columns hmem
    simp only [partitionLists] at hmem
    cases hq : n.partitioning with
    | none => simp [hq] at hmem
    | some q =>
      rw [hq] at hmem
      exact Partitioning.lists_keyLists q columns hmem
  rw [partitionColumns, List.forall_mem_flatMap]
  exact forall₂_congr fun columns hmem =>
    KeyMember.kept_activates_iff hnames (hlists columns hmem)

/-- What is left of the creation of an active table without its comments. The columns that its body
and its key constraints name are activated. So are those of its partitioning, exactly if no list of
key columns there is without an active column. Expressions that the node gives as texts are left as
they are. -/
theorem live_columns_active_iff {v : Json} {name : String} (hread : Model.Table.read? v = some n)
    (hactive : n.active = true) (hname : n.tableName? = some name)
    (hfree : ∀ s ∈ v.strings, CommentFree s.toList)
    (hnames : (n.fields.map fun e => trim e.1).Nodup) (ctx : Context)
    (hschema : ∀ s ∈ ctx.schema, CommentFree s.toList) :
    ∃ t, ofNode? n ctx = some t ∧
      t.createUnits.head? = some ⟨guarded t.createText t.ifNotExist nameInUse, true⟩ ∧
      liveChars t.createText.toList = t.keptText.toList ∧
      (∀ column ∈ t.bodyColumns, n.fields.Activates column) ∧
      ((∀ column ∈ t.partitionColumns, n.fields.Activates column) ↔
        ∀ columns ∈ t.partitionLists, KeyMember.noneActive columns = false) := by
  obtain ⟨t, ht⟩ : ∃ t, ofNode? n ctx = some t := by simp [ofNode?, hname]
  have htactive : t.active = true := by
    obtain ⟨m, -, rfl⟩ := Option.map_eq_some_iff.1 ht
    exact hactive
  have htexts : t.Texts fun s => CommentFree s.toList :=
    texts_ofNode textClass_of_commentFree
      (Model.Table.texts_read? Json.grants_commentFree hfree hread) hschema ht
  have hreads : Reads t.createText t.keptText :=
    reads_createText (fun _ hs => hs) textClass_of_commentFree htexts htactive
  have hhead : t.createUnits.head? = some ⟨guarded t.createText t.ifNotExist nameInUse, true⟩ := by
    rw [createUnits, htactive, List.cons_append, List.head?_cons]
  exact ⟨t, ht, hhead, hreads.liveChars_eq, bodyColumns_activated ht hnames,
    partitionColumns_activated_iff ht hnames⟩

/-- A table that is partitioned by two columns and subpartitioned by one of them. The other one is
deactivated, and so it is named in comments only. -/
theorem live_columns_of_mixed_key :
    ∃ v n t, Model.Table.read? v = some n ∧ n.active = true ∧ n.tableName? = some "t" ∧
      (∀ s ∈ v.strings, CommentFree s.toList) ∧ (n.fields.map fun e => trim e.1).Nodup ∧
      ofNode? n {} = some t ∧
      t.createText = "CREATE TABLE \"t\"\n(\n\t\"a\" NUMBER\n\t/* \"b\" DATE */\n)\nPARTITION BY" ++
        " RANGE (\"a\" /* \"b\" */) SUBPARTITION BY HASH (\"a\")" ∧
      liveChars t.createText.toList = t.keptText.toList ∧
      t.keptText = "CREATE TABLE \"t\"\n(\n\t\"a\" NUMBER\n\t\n)\nPARTITION BY" ++
        " RANGE (\"a\" ) SUBPARTITION BY HASH (\"a\")" ∧
      t.bodyColumns = ["a"] ∧ t.partitionColumns = ["a", "a"] ∧
      (∀ column ∈ t.partitionColumns, n.fields.Activates column) := by
  let ref (name : String) : Json := .object [("name", .string name)]
  let v : Json := .object [("name", .string "t"),
    ("properties", .object
      [("b", .object [("mode", .string "date"), ("isActivated", .bool false)]),
        ("a", .object [("mode", .string "number")])]),
    ("partitioning", .object
      [("partitionBy", .string "composite range"), ("partitionKey", .array [ref "a", ref "b"]),
        ("subpartitionType", .string "hash"), ("subpartitionKey", .array [ref "a"])])]
  obtain ⟨n, hn⟩ : ∃ n, Model.Table.read? v = some n := ⟨_, rfl⟩
  have hfacts : (Model.Table.read? v).map (fun n => (n.active, n.tableName?,
      n.fields.map fun e => trim e.1)) = some (true, some "t", ["b", "a"]) := by decide +kernel
  have htable : ((Model.Table.read? v).bind fun n => ofNode? n {}).map (fun t =>
      (t.createText, t.keptText, t.bodyColumns, t.partitionColumns,
        t.partitionLists.map KeyMember.noneActive)) =
      some ("CREATE TABLE \"t\"\n(\n\t\"a\" NUMBER\n\t/* \"b\" DATE */\n)\nPARTITION BY" ++
          " RANGE (\"a\" /* \"b\" */) SUBPARTITION BY HASH (\"a\")",
        "CREATE TABLE \"t\"\n(\n\t\"a\" NUMBER\n\t\n)\nPARTITION BY" ++
          " RANGE (\"a\" ) SUBPARTITION BY HASH (\"a\")", ["a"], ["a", "a"],
        [false, false]) := by decide +kernel
  have hfree : ∀ s ∈ v.strings, CommentFree s.toList := by decide +kernel
  rw [hn] at hfacts htable
  simp only [Option.map_some, Option.some.injEq, Prod.mk.injEq] at hfacts
  obtain ⟨hactive, hname, hnames⟩ := hfacts
  have hnodup : (n.fields.map fun e => trim e.1).Nodup := by
    rw [hnames]
    decide
  obtain ⟨t, ht, -, hlive, -, hiff⟩ := live_columns_active_iff hn hactive hname hfree hnodup {}
    (by simp)
  rw [Option.bind_some, ht] at htable
  simp only [Option.map_some, Option.some.injEq, Prod.mk.injEq] at htable
  obtain ⟨htext, hkept, hbody, hpartition, hlists⟩ := htable
  have hnone : ∀ columns ∈ t.partitionLists, KeyMember.noneActive columns = false := by
    rw [← List.forall_mem_map (P := (· = false)), hlists]
    decide
  exact ⟨v, n, t, hn, hactive, hname, hfree, hnodup, ht, htext, hlive, hkept, hbody, hpartition,
    hiff.2 hnone⟩

/-- A table that is partitioned by a deactivated column. The clause names it outside of any
comment. -/
theorem live_partition_key_deactivated :
    ∃ v n t, Model.Table.read? v = some n ∧ n.active = true ∧ n.tableName? = some "t" ∧
      (∀ s ∈ v.strings, CommentFree s.toList) ∧ (n.fields.map fun e => trim e.1).Nodup ∧
      ofNode? n {} = some t ∧
      liveChars t.createText.toList =
        "CREATE TABLE \"t\"\n(\n\t\"a\" NUMBER\n\t\n)\nPARTITION BY RANGE (\"b\")".toList ∧
      ¬ n.fields.Activates "b" := by
  let v : Json := .object [("name", .string "t"),
    ("properties", .object
      [("a", .object [("mode", .string "number")]),
        ("b", .object [("mode", .string "date"), ("isActivated", .bool false)])]),
    ("partitioning", .object
      [("partitionBy", .string "range"),
        ("partitionKey", .array [.object [("name", .string "b")]])])]
  obtain ⟨n, hn⟩ : ∃ n, Model.Table.read? v = some n := ⟨_, rfl⟩
  have hfacts : (Model.Table.read? v).map (fun n => (n.active, n.tableName?,
      n.fields.map fun e => (trim e.1, e.2.active))) =
      some (true, some "t", [("a", true), ("b", false)]) := by decide +kernel
  have htable : ((Model.Table.read? v).bind fun n => ofNode? n {}).map (fun t =>
      liveChars t.createText.toList) = some
        "CREATE TABLE \"t\"\n(\n\t\"a\" NUMBER\n\t\n)\nPARTITION BY RANGE (\"b\")".toList := by
    decide +kernel
  have hfree : ∀ s ∈ v.strings, CommentFree s.toList := by decide +kernel
  rw [hn] at hfacts htable
  simp only [Option.map_some, Option.some.injEq, Prod.mk.injEq] at hfacts
  obtain ⟨hactive, hname, hfields⟩ := hfacts
  have hnames : n.fields.map (fun e => trim e.1) = ["a", "b"] := by
    simpa [Function.comp_def] using congrArg (List.map Prod.fst) hfields
  obtain ⟨t, ht⟩ : ∃ t, ofNode? n {} = some t := by simp [ofNode?, hname]
  rw [Option.bind_some, ht] at htable
  refine ⟨v, n, t, hn, hactive, hname, hfree, by rw [hnames]; decide, ht,
    Option.some.inj htable, ?_⟩
  rintro ⟨e, he, hb, hon⟩
  have hmem : (trim e.1, e.2.active) ∈ [("a", true), ("b", false)] := by
    rw [← hfields]
    exact List.mem_map_of_mem he
  rw [hb, hon] at hmem
  exact absurd hmem (by decide)

end Table

end SchemaDelta
