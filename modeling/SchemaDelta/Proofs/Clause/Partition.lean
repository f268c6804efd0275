import SchemaDelta.Proofs.Clause.Column
import SchemaDelta.Proofs.Model.EntityTexts
import SchemaDelta.Table.Partition

/-!
# Partitioning is a phrase

A partitioning clause is a keyword with a tail of optional parts: key columns, intervals,
tablespaces, subpartitions and descriptions in a block.
-/

namespace SchemaDelta

open Sql Text

variable {p : String → Prop} {b : Bool}

/-- The trimmed texts of clauses. -/
theorem phrase_clauseTexts (hc : TextClass p) {clauses : Model.ClauseList} (h : clauses.Texts p)
    (key : String) : ∀ t ∈ clauses.texts key, Phrase p b t := by
  intro t ht
  obtain ⟨c, hmem, hct⟩ := List.mem_filterMap.1 ht
  split at hct
  · next s hs =>
    exact (given_trimmed? hc (h c hmem key s hs)).phrase hct
  · simp at hct

/-- A block of descriptions may follow. -/
theorem tail_partitionBlock (hc : TextClass p) {clauses : Model.ClauseList} (h : clauses.Texts p)
    (key : String) : Tail p b (partitionBlock clauses key) := by
  have htexts := phrase_clauseTexts (b := b) hc h key
  unfold partitionBlock
  cases hts : clauses.texts key with
  | nil => exact .empty
  | cons t ts =>
    rw [hts] at htexts
    have htail := Tail.of_phrase (by decide : isSeparator "\n" = true)
      (Phrase.block (.join (by decide : isSeparator ",\n\t" = true) htexts))
    exact htail.of_toList (by simp)

/-- Tablespaces may follow. -/
theorem tail_storeIn (hc : TextClass p) {clauses : Model.ClauseList} (h : clauses.Texts p)
    {word : String} (hword : isSeparator (word ++ " STORE IN ") = true) (key : String) :
    Tail p b (storeIn clauses word key) := by
  have htexts := phrase_clauseTexts (b := b) hc h key
  unfold storeIn
  cases hts : clauses.texts key with
  | nil => exact .empty
  | cons t ts =>
    rw [hts] at htexts
    have htail := Tail.of_phrase hword
      (Phrase.paren (.join (by decide : isSeparator ", " = true) htexts))
    exact htail.of_toList (by simp)

/-- Key columns may follow. -/
theorem tail_partitionKeys (hc : TextClass p) {keys : List KeyMember}
    (h : ∀ c ∈ keys, p c.name) (parentActive : Bool) :
    Tail p parentActive (partitionKeys keys parentActive) := by
  unfold partitionKeys
  split_ifs
  · exact .empty
  -- Whether the tuple has a comment depends on its columns too, but the table bounds it.
  · have htuple : Phrase p parentActive (columnTuple (keys.map KeyMember.quoted) parentActive) :=
      (Phrase.columnTuple (phrase_quoted hc h)).mono (by simp +contextual)
    exact .of_phrase (by decide) htuple

/-- The strings under the keys of the clauses. -/
def Model.ClauseList.strings (clauses : Model.ClauseList) : List String :=
  clauses.flatMap fun c => c.filterMap fun e =>
    match Json.Entries.value? e.1 c with
    | some (.string s) => some s
    | _ => none

/-- The texts of clauses are the strings under their keys. -/
theorem Model.ClauseList.texts_iff {clauses : Model.ClauseList} :
    clauses.Texts p ↔ ∀ s ∈ clauses.strings, p s := by
  constructor
  · intro h s hs
    obtain ⟨c, hmem, hs⟩ := List.mem_flatMap.1 hs
    obtain ⟨e, -, he⟩ := List.mem_filterMap.1 hs
    split at he
    · next t ht =>
      obtain rfl := Option.some.inj he
      exact h c hmem e.1 _ ht
    · simp at he
  · intro h c hmem key s hs
    obtain ⟨l, m, hlm, -⟩ := List.lookup_eq_some_iff.1 hs
    refine h s (List.mem_flatMap.2 ⟨c, hmem, List.mem_filterMap.2 ⟨(key, .string s), ?_, ?_⟩⟩)
    · rw [hlm]
      simp
    · simp [hs]

/-- The texts of a partitioning are of the class. -/
structure Partitioning.Texts (p : String → Prop) (n : Partitioning) : Prop where
  node : n.node.Texts p
  keys : ∀ c ∈ n.keys, p c.name
  subpartitionKeys : ∀ c ∈ n.subpartitionKeys, p c.name

/-- A reference means a field, with the activation of this field. -/
theorem exists_mem_of_resolve? {fields : Model.Fields} {ref : Model.ColumnRef} {c : KeyMember}
    (hc : ref.resolve? fields = some c) : ∃ e ∈ fields, c = ⟨e.1, e.2.active⟩ := by
  obtain ⟨e, he, rfl⟩ := Option.map_eq_some_iff.1 hc
  refine ⟨e, ?_, rfl⟩
  -- The identifier of a column comes before its name.
  cases hguid : ref.keyId.bind fields.withGuid? with
  | some d =>
    rw [hguid] at he
    obtain rfl : d = e := Option.some.inj he
    obtain ⟨guid, -, hfind⟩ := Option.bind_eq_some_iff.1 hguid
    exact List.mem_of_find?_eq_some hfind
  | none =>
    rw [hguid] at he
    obtain ⟨name, -, hfind⟩ := Option.bind_eq_some_iff.1 he
    exact List.mem_of_find?_eq_some hfind

/-- Key columns are columns of the table. -/
theorem given_resolve? {fields : Model.Fields} (h : fields.Texts p) {ref : Model.ColumnRef}
    {c : KeyMember} (hc : ref.resolve? fields = some c) : p c.name := by
  obtain ⟨e, he, rfl⟩ := exists_mem_of_resolve? hc
  exact (h e he).1

theorem given_resolveKeys {fields : Model.Fields} (h : fields.Texts p)
    (refs : List Model.ColumnRef) : ∀ c ∈ resolveKeys refs fields, p c.name := by
  intro c hmem
  obtain ⟨ref, -, href⟩ := List.mem_filterMap.1 hmem
  exact given_resolve? h href

theorem Partitioning.texts_ofNode {fields : Model.Fields} (h : fields.Texts p)
    {n : Model.Partitioning} (hn : n.Texts p) : (Partitioning.ofNode n fields).Texts p where
  node := hn
  keys := by
    simp only [ofNode]
    split_ifs <;> exact given_resolveKeys h _
  subpartitionKeys := by
    simp only [ofNode]
    split_ifs <;> exact given_resolveKeys h _

namespace Partitioning

/-- A number of partitions may follow. -/
theorem tail_partitions (k : Nat) : Tail p b (" PARTITIONS " ++ showNat k) :=
  .of_phrase (by decide) (.word (isWord_showNat k))

/-- The lists of clauses of a partitioning. -/
def clauseLists (n : Partitioning) : List Model.ClauseList :=
  [n.node.storeIn, n.node.overflowStoreIn, n.node.ranges, n.node.lists, n.node.hashes,
    n.node.references, n.node.systems, n.node.subRanges, n.node.subLists]

/-- The strings of a partitioning: those of its clauses and the names of its key columns. -/
def strings (n : Partitioning) : List String :=
  [n.node.interval, n.node.constraint, n.node.subpartitionType].reduceOption ++
    n.clauseLists.flatMap Model.ClauseList.strings ++
    (n.keys ++ n.subpartitionKeys).map KeyMember.name

theorem Texts.strings {n : Partitioning} (h : n.Texts p) : ∀ s ∈ n.strings, p s := by
  have hoptions : ∀ s ∈ [n.node.interval, n.node.constraint,
      n.node.subpartitionType].reduceOption, p s := by
    refine forall_mem_reduceOption fun o ho => ?_
    simp only [List.mem_cons, List.not_mem_nil, or_false] at ho
    rcases ho with rfl | rfl | rfl
    · exact h.node.interval
    · exact h.node.constraint
    · exact h.node.subpartitionType
  have hclauses : ∀ clauses ∈ n.clauseLists, Model.ClauseList.Texts p clauses := by
    intro clauses hmem
    simp only [clauseLists, List.mem_cons, List.not_mem_nil, or_false] at hmem
    rcases hmem with rfl | rfl | rfl | rfl | rfl | rfl | rfl | rfl | rfl
    · exact h.node.storeIn
    · exact h.node.overflowStoreIn
    · exact h.node.ranges
    · exact h.node.lists
    · exact h.node.hashes
    · exact h.node.references
    · exact h.node.systems
    · exact h.node.subRanges
    · exact h.node.subLists
  intro s hs
  rcases List.mem_append.1 hs with hs | hs
  · rcases List.mem_append.1 hs with hs | hs
    · exact hoptions s hs
    · obtain ⟨clauses, hmem, hs⟩ := List.mem_flatMap.1 hs
      exact Model.ClauseList.texts_iff.1 (hclauses clauses hmem) s hs
  · obtain ⟨c, hmem, rfl⟩ := List.mem_map.1 hs
    exact (List.mem_append.1 hmem).elim (h.keys c) (h.subpartitionKeys c)

variable {n : Partitioning} (hc : TextClass p) (h : ∀ s ∈ n.strings, p s)

section

include h

theorem given_option {o : Option String}
    (ho : o ∈ [n.node.interval, n.node.constraint, n.node.subpartitionType]) {s : String}
    (hs : s ∈ o) : p s := by
  refine h s (List.mem_append_left _ (List.mem_append_left _ (List.reduceOption_mem_iff.2 ?_)))
  rwa [← Option.mem_def.1 hs]

theorem given_clauses {clauses : Model.ClauseList} (hmem : clauses ∈ n.clauseLists) :
    clauses.Texts p :=
  Model.ClauseList.texts_iff.2 fun s hs =>
    h s (List.mem_append_left _ (List.mem_append_right _ (List.mem_flatMap.2 ⟨clauses, hmem, hs⟩)))

theorem given_keys : (∀ c ∈ n.keys, p c.name) ∧ ∀ c ∈ n.subpartitionKeys, p c.name :=
  ⟨fun _ hmem => h _ (List.mem_append_right _
      (List.mem_map_of_mem (List.mem_append_left _ hmem))),
    fun _ hmem => h _ (List.mem_append_right _
      (List.mem_map_of_mem (List.mem_append_right _ hmem)))⟩

theorem tail_interval : Tail p b n.intervalClause := by
  refine .getD fun t ht => ?_
  obtain ⟨i, hi, rfl⟩ := Option.map_eq_some_iff.1 ht
  have hcall : Phrase p b ("INTERVAL " ++ ("(" ++ i ++ ")")) :=
    .lead (by decide) (OptPhrase.given (given_option h (by simp) hi)).paren
  exact (Tail.of_phrase (by decide : isSeparator " " = true) hcall).of_toList (by simp)

end

include hc h

/-- A block of descriptions under a key of its clauses may follow. -/
theorem tail_descriptions {clauses : Model.ClauseList} (hmem : clauses ∈ n.clauseLists)
    (key : String) : Tail p b (partitionBlock clauses key) :=
  tail_partitionBlock hc (given_clauses h hmem) key

theorem tail_tablespaces {word : String} (hword : isSeparator (word ++ " STORE IN ") = true) :
    Tail p b (n.tablespaces word) :=
  tail_storeIn hc (given_clauses h (by simp [clauseLists])) hword _

theorem tail_hashes : Tail p b n.hashes := by
  unfold hashes
  split
  · exact ((tail_partitions _).append (tail_tablespaces hc h (by decide))).append
      (tail_storeIn hc (given_clauses h (by simp [clauseLists])) (by decide) _)
  · exact tail_descriptions hc h (by simp [clauseLists]) _

theorem tail_subpartitions (parentActive : Bool) :
    Tail p parentActive (n.subpartitions parentActive) := by
  unfold subpartitions
  split
  · next kind hkind =>
    have hp : p (trim kind).toUpper := hc.upper (hc.trim (given_option h (by simp) hkind))
    have hwords : Phrase p parentActive ("SUBPARTITION BY " ++ (trim kind).toUpper) :=
      (OptPhrase.given hp).lead (by decide)
    have hhead : Tail p parentActive (" SUBPARTITION BY " ++ (trim kind).toUpper) :=
      (Tail.of_phrase (by decide : isSeparator " " = true) hwords).of_toList (by simp)
    exact hhead.append (tail_partitionKeys hc (given_keys h).2 parentActive)
  · exact .empty

/-- What follows the key columns. -/
theorem tail_tail (scheme : PartitionScheme) (parentActive : Bool) :
    Tail p parentActive (n.tail scheme parentActive) := by
  cases scheme with
  | range =>
    exact ((tail_interval h).append (tail_tablespaces hc h (by decide))).append
      (tail_descriptions hc h (by simp [clauseLists]) _)
  | list =>
    have hautomatic : Tail p parentActive (if n.node.automatic then " AUTOMATIC" else "") := by
      split_ifs
      · exact .of_phrase (by decide : isSeparator " " = true)
          (.word (by decide : isWord "AUTOMATIC" = true))
      · exact .empty
    exact (hautomatic.append (tail_tablespaces hc h (by decide))).append
      (tail_descriptions hc h (by simp [clauseLists]) _)
  | hash => exact tail_hashes hc h
  | reference =>
    refine Tail.append (.getD fun t ht => ?_) (tail_descriptions hc h (by simp [clauseLists]) _)
    obtain ⟨i, hi, rfl⟩ := Option.map_eq_some_iff.1 ht
    have hparen : Phrase p parentActive ("(" ++ i ++ ")") :=
      (OptPhrase.given (given_option h (by simp) hi)).paren
    exact (Tail.of_phrase (by decide : isSeparator " " = true) hparen).of_toList (by simp)
  | system =>
    simp only [tail]
    split
    · exact tail_partitions _
    · exact tail_descriptions hc h (by simp [clauseLists]) _
  | compositeRange =>
    exact (((tail_interval h).append (tail_tablespaces hc h (by decide))).append
      (tail_subpartitions hc h parentActive)).append
      (tail_descriptions hc h (by simp [clauseLists]) _)
  | compositeList =>
    exact ((tail_tablespaces hc h (by decide)).append
      (tail_subpartitions hc h parentActive)).append
      (tail_descriptions hc h (by simp [clauseLists]) _)
  | compositeHash => exact (tail_subpartitions hc h parentActive).append (tail_hashes hc h)

/-- The partitioning clause has comments in it only if the table is active. -/
theorem phrase_clause {parentActive : Bool} {t : String} (ht : n.clause? parentActive = some t) :
    Phrase p parentActive t := by
  obtain ⟨scheme, -, rfl⟩ := Option.map_eq_some_iff.1 ht
  have hkeyword : Phrase p parentActive ("PARTITION BY " ++ scheme.keyword) := by
    refine .lead (by decide) (.word ?_)
    cases scheme <;> decide
  exact (hkeyword.append_tail (tail_partitionKeys hc (given_keys h).1 parentActive)).append_tail
    (tail_tail hc h scheme parentActive)

end Partitioning

end SchemaDelta
