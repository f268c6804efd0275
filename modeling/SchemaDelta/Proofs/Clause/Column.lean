import Mathlib.Data.List.ReduceOption
import SchemaDelta.Column.Clause
import SchemaDelta.Proofs.Clause.DataType
import SchemaDelta.Proofs.Sql.Written

/-!
# Names, keys and columns are phrases

Identifiers and literals are quoted; the options of a key and the line of a column are clauses with
spaces between them, each of which may be missing.
-/

namespace SchemaDelta

open Sql Text

variable {p : String → Prop} {b : Bool}

/-! ## Texts before writing -/

/-- A text with content is not empty when it is trimmed. -/
theorem trim_ne_empty {s : String} (h : blank s = false) : trim s ≠ "" := by
  intro ht
  have hdrop : dropEndWhile isBlank (s.toList.dropWhile isBlank) = [] := by
    have := congrArg String.toList ht
    simpa [trimChars] using this
  have hall : ∀ c ∈ s.toList.dropWhile isBlank, isBlank c = true :=
    List.rdropWhile_eq_nil_iff.1 hdrop
  have hnil : s.toList.dropWhile isBlank = [] := by
    cases hd : s.toList.dropWhile isBlank with
    | nil => rfl
    | cons c r =>
      have hc := List.head?_dropWhile_not isBlank s.toList
      rw [hd] at hc hall
      simp [hall c (by simp)] at hc
  have hblank : blank s = true := List.all_eq_true.2 (List.dropWhile_eq_nil_iff.1 hnil)
  rw [hblank] at h
  exact Bool.noConfusion h

/-- A trimmed text, where it has content. -/
theorem given_trimmed? (hc : TextClass p) {s : String} (h : p s) : Given p (trimmed? s) := by
  intro t ht
  have hsome : trimmed? s = some t := ht
  unfold trimmed? at hsome
  split_ifs at hsome with hb
  obtain rfl := Option.some.inj hsome
  exact ⟨hc.trim h, trim_ne_empty (by simpa using hb)⟩

theorem Given.trimmed (hc : TextClass p) {o : Option String} (h : Given p o) :
    Given p (o.bind trimmed?) := by
  intro s hs
  obtain ⟨t, ht, hts⟩ := Option.bind_eq_some_iff.1 hs
  exact given_trimmed? hc (h t ht).1 s hts

/-- A text in upper case. -/
theorem Given.upper (hc : TextClass p) {o : Option String} (h : Given p o) :
    Given p (o.map String.toUpper) := by
  intro s hs
  obtain ⟨t, ht, rfl⟩ := Option.map_eq_some_iff.1 hs
  refine ⟨hc.upper (h t ht).1, ?_⟩
  rw [Ne, ← String.toList_inj, toList_toUpper]
  simpa using (h t ht).2

/-- A given text is a phrase where it is there. -/
theorem Given.phrase {o : Option String} (h : Given p o) {s : String} (hs : s ∈ o) :
    Phrase p b s :=
  .given (h s hs).1 (h s hs).2

theorem Given.optPhrase {o : Option String} (h : Given p o) : OptPhrase p b (o.getD "") :=
  .getD fun _ hs => .of_phrase (h.phrase hs)

/-- Texts with content, with a space between them. -/
theorem optPhrase_spaced (hc : TextClass p) {parts : List (Option String)}
    (h : ∀ s ∈ parts.reduceOption, p s) : OptPhrase p b (spaced parts) := by
  refine .join (by decide) fun s hs => ?_
  obtain ⟨o, ho, hos⟩ := List.mem_filterMap.1 hs
  obtain ⟨t, rfl, hts⟩ := Option.bind_eq_some_iff.1 hos
  exact (given_trimmed? hc (h t (List.reduceOption_mem_iff.2 ho))).phrase hts

/-- The texts that are there, where each of them is given. -/
theorem forall_mem_reduceOption {parts : List (Option String)} (h : ∀ o ∈ parts, Given p o) :
    ∀ s ∈ parts.reduceOption, p s :=
  fun s hs => (h (some s) (List.reduceOption_mem_iff.1 hs) s rfl).1

/-! ## Names and literals -/

theorem phrase_quote (hc : TextClass p) {name : String} (h : p name) : Phrase p b (quote name) := by
  have hq := Phrase.quoted (b := b) (.inl rfl : '"' = '"' ∨ '"' = '\'') (hc.trim h)
  rwa [toList_trim] at hq

theorem phrase_literal {text : String} (h : p text) : Phrase p b (literal text) :=
  .quoted (.inr rfl) h

theorem phrase_qualified (hc : TextClass p) {name : String} {schema : Option String} (h : p name)
    (hs : ∀ s ∈ schema, p s) : Phrase p b (qualified name schema) := by
  unfold qualified
  split
  · next s hfilter =>
    have hmem := (Option.filter_eq_some_iff.1 hfilter).1
    exact .glue (phrase_quote hc (hs s hmem)) (by decide) (phrase_quote hc h)
  · exact phrase_quote hc h

theorem optPhrase_quotedName (hc : TextClass p) {name : Option String} (h : ∀ s ∈ name, p s) :
    OptPhrase p b (quotedName name) := by
  refine .getD fun s hs => ?_
  obtain ⟨t, ht, rfl⟩ := Option.map_eq_some_iff.1 hs
  exact .of_phrase (phrase_quote hc (h t ht))

/-! ## Keys -/

/-- The strings of the options of a key: its name and those of its clause. -/
def Model.KeyOptions.strings (o : Model.KeyOptions) : List String :=
  o.constraint?.toList ++
    [o.deferClause, o.rely, o.indexClause, o.validate, o.exceptionClause].reduceOption

theorem Model.KeyOptions.Texts.strings {o : Model.KeyOptions} (h : o.Texts p) :
    ∀ s ∈ o.strings, p s := by
  have hclause : ∀ s ∈ [o.deferClause, o.rely, o.indexClause, o.validate,
      o.exceptionClause].reduceOption, p s := by
    refine forall_mem_reduceOption fun part hpart => ?_
    simp only [List.mem_cons, List.not_mem_nil, or_false] at hpart
    rcases hpart with rfl | rfl | rfl | rfl | rfl
    · exact h.deferClause
    · exact h.rely
    · exact h.indexClause
    · exact h.validate
    · exact h.exceptionClause
  intro s hs
  rcases List.mem_append.1 hs with hs | hs
  · exact ((h.constraintName.orElse h.name) s (Option.mem_toList.1 hs)).1
  · exact hclause s hs

theorem optPhrase_keyOptions (hc : TextClass p) {o : Model.KeyOptions}
    (h : ∀ s ∈ o.strings, p s) : OptPhrase p b o.clause :=
  optPhrase_spaced hc fun s hs => h s (List.mem_append_right _ hs)

/-- A key constraint is a phrase if its list of columns is. -/
theorem phrase_keyText (hc : TextClass p) (kind : TableKey.Kind) {columns : String}
    (hcolumns : OptPhrase p b columns) {o : Model.KeyOptions} (h : ∀ s ∈ o.strings, p s) :
    Phrase p b (keyText kind columns o) := by
  have hkind : Phrase p b kind.keyword := by cases kind <;> exact .word (by decide)
  have hname : OptPhrase p b (quotedName o.constraint?) := optPhrase_quotedName hc fun s hs =>
    h s (List.mem_append_left _ (Option.mem_toList.2 hs))
  rw [keyText, Form.fill_keyConstraint]
  exact ((Phrase.framed_left (by decide) (by decide) hname hkind).framed_right (by decide)
    hcolumns).framed_right (by decide) (optPhrase_keyOptions hc h)

/-- The quoted names of columns are phrases. -/
theorem phrase_quoted (hc : TextClass p) {columns : List KeyMember} (h : ∀ c ∈ columns, p c.name) :
    ∀ m ∈ columns.map KeyMember.quoted, Phrase p false m.text := by
  intro m hm
  obtain ⟨c, hmem, rfl⟩ := List.mem_map.1 hm
  exact phrase_quote hc (h c hmem)

/-- The strings of a key. -/
def TableKey.strings (k : TableKey) : List String :=
  k.columns.map KeyMember.name ++ k.options.strings

/-- A key in the body of a table has a comment in it only if table and key are active. -/
theorem TableKey.phrase_fragment (hc : TextClass p) {k : TableKey} (h : ∀ s ∈ k.strings, p s)
    (parentActive : Bool) :
    Phrase p ((k.fragment parentActive).active && parentActive) (k.fragment parentActive).text := by
  have htuple : Phrase p (parentActive && !noneActive (k.columns.map KeyMember.quoted))
      (columnTuple (k.columns.map KeyMember.quoted) parentActive) :=
    .columnTuple (phrase_quoted hc fun c hmem =>
      h _ (List.mem_append_left _ (List.mem_map_of_mem hmem)))
  rw [KeyMember.noneActive_quoted, Bool.and_comm] at htuple
  exact phrase_keyText hc k.kind (.of_phrase htuple) fun s hs => h s (List.mem_append_right _ hs)

/-! ## Columns -/

/-- The texts of a column are of the class. -/
structure Column.Texts (p : String → Prop) (c : Column) : Prop where
  name : p c.name
  type : p c.type.typeName
  default : Given p c.default
  encryption : ∀ e ∈ c.encryption, e.Texts p
  primaryKey : ∀ o ∈ c.primaryKey, o.Texts p
  unique : ∀ o ∈ c.unique, o.Texts p
  comment : Given p c.comment

/-- The column of a field. -/
theorem Column.texts_ofNode (hc : TextClass p) {name : String} {f : Model.Field} (hname : p name)
    (h : f.Texts p) (required : List String) (ctx : Context) :
    (Column.ofNode name f required ctx).Texts p where
  name := hname
  type := DataType.given_resolve hc h.typing ctx.release
  default := h.default
  encryption := h.encryption
  primaryKey o ho := by
    simp only [ofNode] at ho
    split_ifs at ho
    · obtain rfl := Option.some.inj ho
      exact h.primaryKeyOptions
    · exact absurd ho (by simp)
  unique o ho := by
    simp only [ofNode] at ho
    split_ifs at ho
    · obtain rfl := Option.some.inj ho
      exact h.uniqueKeyOptions
    · exact absurd ho (by simp)
  comment := h.refDescription.orElse h.description

/-- The columns of the fields of a node. -/
theorem texts_columns (hc : TextClass p) {fields : Model.Fields} (h : fields.Texts p)
    (required : List String) (ctx : Context) : ∀ c ∈ fields.columns required ctx, c.Texts p := by
  intro c hmem
  obtain ⟨e, he, rfl⟩ := List.mem_map.1 hmem
  exact Column.texts_ofNode hc (h e he).1 (h e he).2 required ctx

/-- The strings of an encryption. -/
def Model.Encryption.strings (e : Model.Encryption) : List String :=
  e.algorithm.toList ++ e.integrity.toList

theorem Model.Encryption.Texts.strings {e : Model.Encryption} (h : e.Texts p) :
    ∀ s ∈ e.strings, p s := by
  intro s hs
  rcases List.mem_append.1 hs with hs | hs
  · exact (h.algorithm s (Option.mem_toList.1 hs)).1
  · exact (h.integrity s (Option.mem_toList.1 hs)).1

theorem phrase_encryption {e : Model.Encryption} (h : ∀ s ∈ e.strings, p s) :
    Phrase p b e.clause := by
  have halgorithm : Phrase p b
      ("ENCRYPT" ++ (e.algorithm.map fun a => " USING " ++ literal a).getD "") := by
    cases ha : e.algorithm with
    | none => exact .word (by decide)
    | some a =>
      have hstring : p a := h a (by simp [Model.Encryption.strings, ha])
      rw [Option.map_some, Option.getD_some, ← String.append_assoc]
      exact .glue (.word (by decide)) (by decide) (phrase_literal hstring)
  have hintegrity : Phrase p b
      ("ENCRYPT" ++ (e.algorithm.map fun a => " USING " ++ literal a).getD "" ++
        (e.integrity.map fun i => " " ++ literal i).getD "") := by
    cases hi : e.integrity with
    | none =>
      rw [Option.map_none, Option.getD_none, String.append_empty]
      exact halgorithm
    | some i =>
      have hstring : p i := h i (by simp [Model.Encryption.strings, hi])
      rw [Option.map_some, Option.getD_some, ← String.append_assoc]
      exact .glue halgorithm (by decide) (phrase_literal hstring)
  unfold Model.Encryption.clause
  split_ifs
  · exact .trail hintegrity (by decide)
  · rwa [String.append_empty]

namespace Column

variable {c : Column}

/-- The strings in the line of a column. -/
def strings (c : Column) : List String :=
  c.name :: c.type.typeName :: (c.default.toList ++
    c.encryption.toList.flatMap Model.Encryption.strings ++
    c.primaryKey.toList.flatMap Model.KeyOptions.strings ++
    c.unique.toList.flatMap Model.KeyOptions.strings)

theorem mem_strings {s : String} :
    s ∈ c.strings ↔ s = c.name ∨ s = c.type.typeName ∨ s ∈ c.default ∨
      (∃ e ∈ c.encryption, s ∈ e.strings) ∨ (∃ o ∈ c.primaryKey, s ∈ o.strings) ∨
        ∃ o ∈ c.unique, s ∈ o.strings := by
  simp [strings]

theorem Texts.strings (h : c.Texts p) : ∀ s ∈ c.strings, p s := by
  intro s hs
  rcases mem_strings.1 hs with rfl | rfl | hs | ⟨e, he, hs⟩ | ⟨o, ho, hs⟩ | ⟨o, ho, hs⟩
  · exact h.name
  · exact h.type
  · exact (h.default s hs).1
  · exact (h.encryption e he).strings s hs
  · exact (h.primaryKey o ho).strings s hs
  · exact (h.unique o ho).strings s hs

theorem optPhrase_constraints (hc : TextClass p) (h : ∀ s ∈ c.strings, p s) :
    OptPhrase p b c.constraints := by
  refine .join (by decide) fun s hs => ?_
  simp only [List.mem_append, Option.mem_toList] at hs
  rcases hs with (hs | hs) | hs
  · split_ifs at hs
    · simp at hs
    · rw [List.mem_singleton.1 hs]
      exact .word (by decide)
  · obtain ⟨o, ho, rfl⟩ := Option.map_eq_some_iff.1 hs
    exact phrase_keyText hc _ .empty fun t ht =>
      h t (mem_strings.2 (.inr (.inr (.inr (.inr (.inl ⟨o, ho, ht⟩))))))
  · obtain ⟨o, ho, rfl⟩ := Option.map_eq_some_iff.1 hs
    exact phrase_keyText hc _ .empty fun t ht =>
      h t (mem_strings.2 (.inr (.inr (.inr (.inr (.inr ⟨o, ho, ht⟩))))))

/-- The line of a column has no comment in it. -/
theorem phrase_line (hc : TextClass p) (h : ∀ s ∈ c.strings, p s) : Phrase p b c.line.text := by
  have hencryption : OptPhrase p b ((c.encryption.map Model.Encryption.clause).getD "") := by
    refine .getD fun s hs => ?_
    obtain ⟨e, he, rfl⟩ := Option.map_eq_some_iff.1 hs
    exact .of_phrase (phrase_encryption fun t ht =>
      h t (mem_strings.2 (.inr (.inr (.inr (.inl ⟨e, he, ht⟩))))))
  have htype := DataType.optPhrase_clause (b := b) hc (h _ (mem_strings.2 (.inr (.inl rfl))))
  have hdefault : OptPhrase p b (c.default.getD "") :=
    .getD fun s hs => .given (h s (mem_strings.2 (.inr (.inr (.inl hs)))))
  rw [line, Form.fill_columnDefinition]
  exact ((((phrase_quote hc (h _ (mem_strings.2 (.inl rfl)))).framed_right (by decide)
    htype).framed_right (by decide) hdefault).framed_right (by decide) hencryption).framed_right
    (by decide) (optPhrase_constraints hc h)

/-- The line of an attribute has no comment in it. -/
theorem phrase_attributeLine (hc : TextClass p) (h : c.Texts p) :
    Phrase p b c.attributeLine.text := by
  rw [attributeLine, Form.fill_attributeDefinition]
  exact (phrase_quote hc h.name).framed_right (by decide) (DataType.optPhrase_clause hc h.type)

end Column

/-- A comment on an object is a statement. -/
theorem written_commentOn {object name text : String} (hobject : isWord object = true)
    (hname : Phrase p b name) (htext : p text) : Written p b (commentOn object name text) := by
  rw [commentOn, Form.fill_comment]
  exact (Phrase.glue (.glue (.lead (by decide) (.word hobject)) (by decide) hname) (by decide)
    (phrase_literal htext)).written

/-- The comment on a column is a statement. -/
theorem Column.written_commentUnit (hc : TextClass p) {c : Column} (h : c.Texts p)
    {table : String} (htable : Phrase p b table) {tableActive : Bool} {u : Fragment}
    (hu : c.commentUnit? table tableActive = some u) : Written p b u.text := by
  obtain ⟨t, ht, rfl⟩ := Option.map_eq_some_iff.1 hu
  have htext := (h.comment t (Option.filter_eq_some_iff.1 ht).1).1
  exact written_commentOn (by decide) (.glue htable (by decide) (phrase_quote hc h.name)) htext

end SchemaDelta
