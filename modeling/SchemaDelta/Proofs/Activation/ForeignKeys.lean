import SchemaDelta.Proofs.Activation.Body
import SchemaDelta.Proofs.Clause.Table
import SchemaDelta.Proofs.Sql.Guarded

/-!
# Foreign keys of a deactivated table

A deactivated table is commented as a whole, so there should be no comment inside. Its keys and its
partitioning leave their columns alone then; a foreign key looks at its own activation only and
comments the deactivated columns of an active key. `Table.commented_flat_iff` says of which tables
the comment is flat.
-/

namespace SchemaDelta

open Sql Text

variable {p : String → Prop} {b : Bool}

/-! ## The columns of one side -/

/-- In an active key all columns of the list are active. -/
def plainSide (columns : List KeyMember) (keyActive : Bool) : Prop :=
  keyActive = true → ∀ c ∈ columns, c.active = true

/-- Where nothing is commented, a side is a list of names. -/
theorem optPhrase_sideText (hc : TextClass p) {columns : List KeyMember} {keyActive : Bool}
    (h : ∀ c ∈ columns, p c.name) (hplain : plainSide columns keyActive) :
    OptPhrase p b (sideText columns keyActive) := by
  have htext : sideText columns keyActive = join ", " (columns.map fun c => quote c.name) := by
    cases keyActive with
    | false => rfl
    | true =>
      have hnone : (columns.filter fun c => !c.active) = [] :=
        List.filter_eq_nil_iff.2 fun c hmem => by simp [hplain rfl c hmem]
      rw [sideText, if_pos rfl, hnone]
  rw [htext]
  refine .join (by decide) fun s hs => ?_
  obtain ⟨c, hmem, rfl⟩ := List.mem_map.1 hs
  exact phrase_quote hc (h c hmem)

/-- A deactivated column of an active key stands in a comment. -/
theorem mark_infix_sideText {columns : List KeyMember} {c : KeyMember} (hmem : c ∈ columns)
    (hoff : c.active = false) : ['/', '*'] <:+: (sideText columns true).toList := by
  have hdead : c ∈ columns.filter fun c => !c.active := List.mem_filter.2 ⟨hmem, by simp [hoff]⟩
  have hmark (s : String) : ['/', '*'] <:+: (commentedInline s).toList := by
    rw [commentedInline, String.toList_append, String.toList_append]
    exact ⟨[], [' '] ++ s.toList ++ " */".toList, by simp⟩
  rw [sideText, if_pos rfl]
  split
  · next hnone => rw [hnone] at hdead; cases hdead
  · rw [String.toList_append]
    exact (hmark _).trans (List.suffix_append _ _).isInfix

/-! ## Foreign keys -/

namespace ForeignKey

/-- The strings in the clause of a foreign key. -/
def strings (k : ForeignKey) : List String :=
  k.name.toList ++ k.primaryTable :: k.primarySchema.toList ++
    (k.foreignColumns ++ k.primaryColumns).map KeyMember.name

/-- The key comments none of its columns. -/
def Plain (k : ForeignKey) : Prop :=
  k.active = true → ∀ c ∈ k.foreignColumns ++ k.primaryColumns, c.active = true

variable {k : ForeignKey} {schema : Option String}

theorem text_fragment (k : ForeignKey) (schema : Option String) :
    (k.fragment schema).text =
      framed "CONSTRAINT " (quotedName k.name) " " ++ "FOREIGN KEY (" ++
        sideText k.foreignColumns k.active ++ ") REFERENCES " ++
        qualified k.primaryTable (k.primarySchema <|> schema) ++ " (" ++
        sideText k.primaryColumns k.active ++ ")" := by
  rw [fragment, values, Form.fill_foreignKeyConstraint]

theorem phrase_fragment (hc : TextClass p) (h : ∀ s ∈ k.strings, p s) (hs : ∀ s ∈ schema, p s)
    (hplain : k.Plain) : Phrase p b (k.fragment schema).text := by
  have hcolumn : ∀ c ∈ k.foreignColumns ++ k.primaryColumns, p c.name := fun c hmem =>
    h _ (List.mem_append_right _ (List.mem_map_of_mem hmem))
  have hforeign : OptPhrase p b (sideText k.foreignColumns k.active) :=
    optPhrase_sideText hc (fun c hmem => hcolumn c (List.mem_append_left _ hmem))
      fun hk c hmem => hplain hk c (List.mem_append_left _ hmem)
  have hprimary : OptPhrase p b (sideText k.primaryColumns k.active) :=
    optPhrase_sideText hc (fun c hmem => hcolumn c (List.mem_append_right _ hmem))
      fun hk c hmem => hplain hk c (List.mem_append_right _ hmem)
  have htable : Phrase p b (qualified k.primaryTable (k.primarySchema <|> schema)) := by
    refine phrase_qualified hc (h _ (by simp [strings])) fun s hmem => ?_
    cases hown : k.primarySchema with
    | none => exact hs s (by simpa [hown] using hmem)
    | some t =>
      obtain rfl : t = s := by simpa [hown] using hmem
      exact h t (by simp [strings, hown])
  have hname : OptPhrase p b (quotedName k.name) :=
    optPhrase_quotedName hc fun s hmem => h s (by simp [strings, Option.mem_def.1 hmem])
  have hbody := Phrase.glue (.glue (.lead (by decide : isWord "FOREIGN KEY " = true)
    hforeign.paren) (by decide : isSeparator " REFERENCES " = true) htable)
    (by decide : isSeparator " " = true) hprimary.paren
  rw [text_fragment]
  exact (Phrase.framed_left (by decide : isWord "CONSTRAINT " = true)
    (by decide : isSeparator " " = true) hname hbody).of_toList (by simp)

/-- A key that is not plain has a comment in it. -/
theorem mark_infix_fragment (hplain : ¬k.Plain) (schema : Option String) :
    ['/', '*'] <:+: (k.fragment schema).text.toList := by
  obtain ⟨hactive, c, hmem, hoff⟩ : k.active = true ∧ ∃ c ∈ k.foreignColumns ++ k.primaryColumns,
      c.active = false := by simpa [Plain] using hplain
  -- The sides stand between the parentheses of the clause.
  rw [text_fragment, hactive]
  rcases List.mem_append.1 hmem with hmem | hmem
  · exact (mark_infix_sideText hmem hoff).trans
      ⟨(framed "CONSTRAINT " (quotedName k.name) " " ++ "FOREIGN KEY (").toList,
        (") REFERENCES " ++ qualified k.primaryTable (k.primarySchema <|> schema) ++ " (" ++
          sideText k.primaryColumns true ++ ")").toList,
        by simp only [String.toList_append, List.append_assoc]⟩
  · rw [String.toList_append, String.toList_append]
    exact (mark_infix_sideText hmem hoff).trans ((List.suffix_append _ _).isInfix.trans
      (List.prefix_append _ _).isInfix)

end ForeignKey

/-! ## Guarded statements -/

/-- The mark of a comment in a statement stays where the statement is guarded. -/
theorem mark_infix_guarded {s : String} (h : ['/', '*'] <:+: s.toList) (ifNotExist : Bool)
    (code : Nat) : ['/', '*'] <:+: (guarded s ifNotExist code).toList := by
  have hbare : ['/', '*'] <:+: (bareStatement s).toList :=
    (cutEnds_bareStatement s).isInfix_pair (by decide) (by decide) h
  unfold guarded
  cases ifNotExist with
  | false =>
    rw [if_neg Bool.false_ne_true, String.toList_append]
    exact hbare.trans (List.prefix_append _ _).isInfix
  | true =>
    have hdoubled : ['/', '*'] <:+: doubled '\'' (bareStatement s).toList := by
      obtain ⟨x, y, hxy⟩ := hbare
      exact ⟨doubled '\'' x, doubled '\'' y, by simp [← hxy, doubled]⟩
    rw [if_pos rfl, Form.fill_ifNotExists]
    simp only [String.toList_append, String.toList_ofList]
    exact ((hdoubled.trans (List.suffix_append _ _).isInfix).trans
      (List.prefix_append _ _).isInfix).trans ((List.prefix_append _ _).isInfix.trans
        (List.prefix_append _ _).isInfix)

/-! ## The comment of a deactivated table -/

/-- A text is read back from its comment. -/
theorem commented_injective : Function.Injective commented := by
  intro x y h
  rw [← String.toList_inj] at h ⊢
  unfold commented at h
  -- The two styles of comments begin with other characters.
  split_ifs at h
  · simpa using h
  · simp at h
  · simp at h
  · simpa using h

namespace Table

variable {t : Table}

/-- The strings in the creation of a table. -/
def createStrings (t : Table) : List String :=
  t.strings ++ t.foreignKeys.flatMap ForeignKey.strings

/-- A member stands in the creation of its table. -/
theorem isInfix_member (hactive : t.active = false) {m : Fragment} (hm : m ∈ t.members) :
    m.text.toList <:+: t.createText.toList := by
  have hbody := t.isInfix_body
  rw [hactive, composite_inactive] at hbody
  exact (isInfix_join (List.mem_map_of_mem hm)).trans hbody

theorem write_head?_createUnits (hactive : t.active = false) :
    t.createUnits.head?.map Fragment.write =
      some (commented (guarded t.createText t.ifNotExist nameInUse)) := by
  rw [createUnits, hactive]
  rfl

/-- Where the comment is flat, no foreign key comments a column. -/
theorem plain_of_flat (hactive : t.active = false) {text : String}
    (htext : t.createUnits.head?.map Fragment.write = some (commented text))
    (hflat : MarkFree text.toList) : ∀ k ∈ t.foreignKeys, k.Plain := by
  intro k hk
  by_contra hplain
  rw [write_head?_createUnits hactive] at htext
  obtain rfl := commented_injective (Option.some.inj htext)
  have hmember : k.fragment t.schema ∈ t.members :=
    List.mem_append_right _ (List.mem_map_of_mem hk)
  have hmark := (ForeignKey.mark_infix_fragment hplain t.schema).trans
    (isInfix_member hactive hmember)
  exact hflat.1 (mark_infix_guarded hmark _ _)

/-- **The comment of a deactivated table is flat** if no foreign key that is active has a
deactivated column, and only then. -/
theorem commented_flat_iff (hactive : t.active = false)
    (h : ∀ s ∈ t.createStrings, MarkFree s.toList) :
    (∃ text, t.createUnits.head?.map Fragment.write = some (commented text) ∧
        MarkFree text.toList) ↔
      ∀ k ∈ t.foreignKeys, k.active = true →
        ∀ c ∈ k.foreignColumns ++ k.primaryColumns, c.active = true := by
  refine ⟨fun ⟨text, htext, hflat⟩ => plain_of_flat hactive htext hflat, fun hplain => ?_⟩
  have hstrings : ∀ s ∈ t.strings, MarkFree s.toList := fun s hs =>
    h s (List.mem_append_left _ hs)
  have hkeys : ∀ k ∈ t.foreignKeys, Phrase (fun s => MarkFree s.toList) (k.active && t.active)
      (k.fragment t.schema).text := fun k hk =>
    ForeignKey.phrase_fragment textClass_of_markFree
      (fun s hs => h s (List.mem_append_right _ (List.mem_flatMap.2 ⟨k, hk, hs⟩)))
      (fun s hs => hstrings s (mem_strings.2 (.inr (.inl hs)))) (hplain k hk)
  have hphrase := phrase_createText textClass_of_markFree hstrings hkeys
  rw [hactive] at hphrase
  exact ⟨_, write_head?_createUnits hactive,
    (hphrase.guarded t.capital_createText t.ifNotExist nameInUse).tame fun _ hs => hs⟩

/-- A deactivated table with a foreign key of two columns, the second of which may be active. -/
def twoColumnKey (second : Bool) : Table where
  name := "t"
  foreignKeys :=
    [{ foreignTable := "t", foreignColumns := [⟨"a", true⟩, ⟨"b", second⟩], primaryTable := "p",
       primaryColumns := [⟨"x", true⟩, ⟨"y", true⟩] }]
  active := false

/-- The comment is flat where both columns are active. -/
theorem commented_flat_twoColumnKey :
    (twoColumnKey true).active = false ∧
      (∀ s ∈ (twoColumnKey true).createStrings, MarkFree s.toList) ∧
      ∃ text, (twoColumnKey true).createUnits.head?.map Fragment.write = some (commented text) ∧
        MarkFree text.toList :=
  ⟨rfl, by decide, (commented_flat_iff rfl (by decide)).2 (by decide)⟩

/-- It has a comment in it where one is not. -/
theorem not_commented_flat_twoColumnKey :
    (∀ s ∈ (twoColumnKey false).createStrings, MarkFree s.toList) ∧
      ¬∃ text, (twoColumnKey false).createUnits.head?.map Fragment.write =
        some (commented text) ∧ MarkFree text.toList := by
  refine ⟨by decide, fun ⟨text, htext, hflat⟩ => ?_⟩
  have hplain := plain_of_flat rfl htext hflat _ List.mem_cons_self
  exact absurd (hplain rfl ⟨"b", false⟩ (by simp)) Bool.false_ne_true

end Table

end SchemaDelta
