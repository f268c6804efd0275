import SchemaDelta.Proofs.Activation.ForeignKeys
import SchemaDelta.Proofs.Sql.Lexemes

/-!
# The two sides of a foreign key

A foreign key is written as a member of its table and as a statement of its own. Both say the same
of it, and both write the columns of a side as other keys write theirs (`ForeignKey.forms_agree`).
The columns of a side are left out without a look at the other side, so what is left pairs the
columns of a key exactly if two columns that belong together are always both active or both
deactivated (`ForeignKey.columnLists_paired_iff`).
-/

namespace SchemaDelta

open Sql Text

/-! ## Columns in parentheses -/

/-- A side of an active key: the active columns, and a comment with the others. -/
theorem sideText_active (columns : List KeyMember) :
    sideText columns true =
      join ", " ((columns.filter KeyMember.active).map fun c => quote c.name) ++
        if columns.filter (fun c => !c.active) = [] then ""
        else " " ++ commentedInline
          (join ", " ((columns.filter fun c => !c.active).map fun c => quote c.name)) := by
  rw [sideText, if_pos rfl]
  split
  · next hnone =>
    have hall : columns.filter KeyMember.active = columns :=
      List.filter_eq_self.2 (by simpa [List.filter_eq_nil_iff] using hnone)
    rw [if_pos hnone, hall, String.append_empty]
  · next hsome => rw [if_neg hsome, ← String.append_assoc]

/-- A list with columns that is not all deactivated has an active column. -/
theorem KeyMember.filter_active_ne_nil {columns : List KeyMember} (hne : columns ≠ [])
    (h : noneActive columns = false) : columns.filter active ≠ [] := by
  intro hnil
  have hnone : noneActive columns = true :=
    noneActive_eq_true.2 ⟨hne, by simpa [List.filter_eq_nil_iff] using hnil⟩
  rw [h] at hnone
  cases hnone

/-- The side of a key is the list that other keys write, because in an active key there is no side
without an active column. -/
theorem paren_sideText {columns : List KeyMember} {keyActive : Bool}
    (h : keyActive = true → KeyMember.noneActive columns = false) :
    "(" ++ sideText columns keyActive ++ ")" =
      columnTuple (columns.map KeyMember.quoted) keyActive := by
  rw [columnTuple, KeyMember.noneActive_quoted]
  cases keyActive with
  | false =>
    rw [Bool.false_and, composite_inactive, List.map_map]
    rfl
  | true =>
    have hlive : ((columns.map KeyMember.quoted).filter Fragment.active).map Fragment.text =
        (columns.filter KeyMember.active).map fun c => quote c.name :=
      KeyMember.filter_text_quoted _ columns
    have hdead : ((columns.map KeyMember.quoted).filter fun m => !m.active).map Fragment.text =
        (columns.filter fun c => !c.active).map fun c => quote c.name :=
      KeyMember.filter_text_quoted _ columns
    have hgap : gapOf ", " = " " := by decide
    rw [h rfl, Bool.not_false, Bool.and_true, composite_eq (KeyMember.quoted_ne_empty columns),
      hlive, hdead, hgap, sideText_active]
    by_cases hnone : columns.filter (fun c => !c.active) = []
    · rw [if_pos hnone, if_pos (List.map_eq_nil_iff.2 hnone)]
    · -- The comment of the deactivated columns follows an active one.
      have hsome := KeyMember.filter_active_ne_nil (fun hnil => hnone (by rw [hnil]; rfl)) (h rfl)
      rw [if_neg hnone, if_neg fun hnil => hnone (List.map_eq_nil_iff.1 hnil),
        if_neg fun hnil => hsome (List.map_eq_nil_iff.1 hnil)]

/-- In what is left of a side the active columns are named. -/
theorem readsNames_sideText {columns : List KeyMember}
    (h : ∀ c ∈ columns, c.active = false → ¬['*', '/'] <:+: c.name.toList) :
    ReadsNames (sideText columns true)
      ((columns.filter KeyMember.active).map fun c => trim c.name) := by
  have hlive : ReadsNames
      (join ", " ((columns.filter KeyMember.active).map fun c => quote c.name))
      ((columns.filter KeyMember.active).map fun c => trim c.name) := by
    simpa [Function.comp_def] using ReadsNames.join_quote (by decide : isFiller ", " = true)
      ((columns.filter KeyMember.active).map KeyMember.name)
  have hdead : ¬['*', '/'] <:+:
      (join ", " ((columns.filter fun c => !c.active).map fun c => quote c.name)).toList := by
    refine not_pair_infix_join (by decide) (by decide) (by decide) fun t ht => ?_
    obtain ⟨c, hc, rfl⟩ := List.mem_map.1 ht
    obtain ⟨hmem, hoff⟩ := List.mem_filter.1 hc
    exact not_pair_infix_enclosed (by decide) (by decide) fun hi =>
      h c hmem (by simpa using hoff) (hi.trans (trimChars_isInfix _))
  rw [sideText_active]
  split_ifs
  · rwa [String.append_empty]
  · simpa [← String.append_assoc] using
      hlive.glue (by decide : isFiller " " = true) (.comment hdead)

/-! ## Both forms -/

namespace ForeignKey

/-- The columns of both sides as other keys write theirs, with the table that is referenced. -/
def clause (k : ForeignKey) (schema : Option String) : String :=
  "FOREIGN KEY " ++ columnTuple (k.foreignColumns.map KeyMember.quoted) k.active ++
    " REFERENCES " ++ qualified k.primaryTable (k.primarySchema <|> schema) ++ " " ++
    columnTuple (k.primaryColumns.map KeyMember.quoted) k.active

variable {k : ForeignKey} {schema : Option String}

/-- On each side of an active key there is an active column, or no column at all. -/
theorem noneActive_of_active (h : k.active = true) :
    KeyMember.noneActive k.foreignColumns = false ∧
      KeyMember.noneActive k.primaryColumns = false := by
  simp only [active, Bool.and_eq_true, Bool.not_eq_true'] at h
  exact ⟨h.1.2, h.2⟩

theorem text_fragment_clause (k : ForeignKey) (schema : Option String) :
    (k.fragment schema).text =
      framed "CONSTRAINT " (quotedName k.name) " " ++ k.clause schema := by
  -- The forms have the parentheses in their own texts, not with the columns.
  have hopen : "FOREIGN KEY (" = "FOREIGN KEY " ++ "(" := rfl
  have hbetween : ") REFERENCES " = ")" ++ " REFERENCES " := rfl
  have hsecond : " (" = " " ++ "(" := rfl
  rw [text_fragment, clause, ← paren_sideText fun h => (noneActive_of_active h).1,
    ← paren_sideText fun h => (noneActive_of_active h).2, hopen, hbetween, hsecond]
  simp only [String.append_assoc]

/-- The statement adds the member to the table that has the foreign key. -/
theorem text_statement (k : ForeignKey) (schema : Option String) :
    (k.statement schema).text =
      "ALTER TABLE " ++ qualified k.foreignTable (k.foreignSchema <|> schema) ++ " ADD " ++
        (k.fragment schema).text ++ ";" := by
  -- The forms frame the name with blanks on other sides of it.
  have hname : " ADD" ++ framed " CONSTRAINT " (quotedName k.name) "" ++ " FOREIGN KEY (" =
      " ADD " ++ framed "CONSTRAINT " (quotedName k.name) " " ++ "FOREIGN KEY (" := by
    by_cases h : quotedName k.name = ""
    · rw [h]
      rfl
    · rw [framed_of_ne h, framed_of_ne h, ← String.toList_inj]
      simp
  have hend : ");" = ")" ++ ";" := rfl
  calc (k.statement schema).text
      = "ALTER TABLE " ++ qualified k.foreignTable (k.foreignSchema <|> schema) ++
          (" ADD" ++ framed " CONSTRAINT " (quotedName k.name) "" ++ " FOREIGN KEY (") ++
          sideText k.foreignColumns k.active ++ ") REFERENCES " ++
          qualified k.primaryTable (k.primarySchema <|> schema) ++ " (" ++
          sideText k.primaryColumns k.active ++ ");" := by
        rw [statement, values, Form.fill_createForeignKey]
        simp only [String.append_assoc]
    _ = _ := by
        rw [hname, hend, text_fragment]
        simp only [String.append_assoc]

/-- **The two forms of a foreign key agree.** Both are as active as the key, the statement adds the
member as it is, and in both each side is the list of columns that other keys write. -/
theorem forms_agree (k : ForeignKey) (schema : Option String) :
    (k.fragment schema).active = k.active ∧ (k.statement schema).active = k.active ∧
      (k.statement schema).write = Fragment.write
        ⟨"ALTER TABLE " ++ qualified k.foreignTable (k.foreignSchema <|> schema) ++ " ADD " ++
          (k.fragment schema).text ++ ";", k.active⟩ ∧
      (k.fragment schema).text =
        framed "CONSTRAINT " (quotedName k.name) " " ++ k.clause schema ∧
      (k.statement schema).text =
        "ALTER TABLE " ++ qualified k.foreignTable (k.foreignSchema <|> schema) ++ " ADD " ++
          framed "CONSTRAINT " (quotedName k.name) " " ++ k.clause schema ++ ";" := by
  refine ⟨rfl, rfl, ?_, text_fragment_clause k schema, ?_⟩
  · rw [← text_statement]
    rfl
  · rw [text_statement, text_fragment_clause]
    simp only [String.append_assoc]

end ForeignKey

/-! ## What is left of a side -/

namespace KeyMember

/-- The active columns of a side, each with its position. -/
def live (columns : List KeyMember) : List (KeyMember × Nat) :=
  columns.zipIdx.filter fun c => c.1.active

theorem map_fst_live (columns : List KeyMember) :
    (live columns).map Prod.fst = columns.filter active := by
  have h := List.filter_map (p := active) (f := Prod.fst) (l := columns.zipIdx)
  rw [List.zipIdx_map_fst] at h
  exact h.symm

/-- What comes after a position has another one. -/
theorem ne_of_mem_zipIdx {columns : List KeyMember} {n : Nat} {c : KeyMember × Nat}
    (h : c ∈ (columns.zipIdx (n + 1)).filter fun c => c.1.active) : n ≠ c.2 :=
  Nat.ne_of_lt (List.le_snd_of_mem_zipIdx (List.mem_filter.1 h).1)

/-- Two sides have their active columns at the same positions exactly if, at each position, both
columns are active or neither is. -/
theorem forall₂_live_iff {columns others : List KeyMember}
    (h : columns.length = others.length) (n : Nat) :
    List.Forall₂ (fun c d => c.2 = d.2) ((columns.zipIdx n).filter fun c => c.1.active)
        ((others.zipIdx n).filter fun c => c.1.active) ↔
      ∀ e ∈ columns.zip others, e.1.active = e.2.active := by
  induction columns generalizing others n with
  | nil =>
    obtain rfl := List.length_eq_zero_iff.1 h.symm
    simp
  | cons c columns ih =>
    obtain ⟨d, others, rfl⟩ := List.exists_cons_of_length_eq_add_one h.symm
    have ih := ih (Nat.succ_inj.1 h) (n + 1)
    rw [List.zipIdx_cons, List.zipIdx_cons, List.zip_cons_cons, List.forall_mem_cons, ← ih,
      List.filter_cons, List.filter_cons]
    -- A position that is left on one side only has no partner among the later ones.
    cases hc : c.active <;> cases hd : d.active
    · simp
    · refine iff_of_false (fun hpairs => ?_) (by simp)
      obtain ⟨e, rest, hpos, -, hlate⟩ := List.forall₂_cons_right_iff.1 hpairs
      exact ne_of_mem_zipIdx (hlate ▸ List.mem_cons_self) hpos.symm
    · refine iff_of_false (fun hpairs => ?_) (by simp)
      obtain ⟨e, rest, hpos, -, hlate⟩ := List.forall₂_cons_left_iff.1 hpairs
      exact ne_of_mem_zipIdx (hlate ▸ List.mem_cons_self) hpos
    · simp

end KeyMember

/-- A qualified name is read as one name or as two. -/
theorem readsNames_qualified (name : String) (schema : Option String) :
    ∃ names, ReadsNames (qualified name schema) names := by
  unfold qualified
  split
  · exact ⟨_, (ReadsNames.quote _).glue (by decide) (.quote name)⟩
  · exact ⟨_, .quote name⟩

namespace ForeignKey

/-- The names in front of the columns are in no list. -/
theorem readsNames_front (name : Option String) :
    ∃ names, ReadsNames (framed "CONSTRAINT " (quotedName name) " " ++ "FOREIGN KEY ") names := by
  cases name with
  | none => exact ⟨[], .filler (by decide)⟩
  | some n =>
    have hne : quotedName (some n) ≠ "" := by
      intro h
      simpa [quotedName, quote] using congrArg String.toList h
    rw [framed_of_ne hne]
    exact ⟨_, (((ReadsNames.quote n).lead (by decide)).trail (by decide)).trail (by decide)⟩

variable {k : ForeignKey} {schema : Option String}

/-- The lists of columns in a text with the two sides of an active key. -/
theorem columnLists_sides {front table back : String} {names tables : List String}
    (hfront : ReadsNames front names) (htable : ReadsNames table tables)
    (hback : ReadsNames back []) (hactive : k.active = true)
    (hends : ∀ c ∈ k.foreignColumns ++ k.primaryColumns, c.active = false →
      ¬['*', '/'] <:+: c.name.toList) :
    columnLists (front ++ "(" ++ sideText k.foreignColumns k.active ++ ") REFERENCES " ++ table ++
        " (" ++ sideText k.primaryColumns k.active ++ ")" ++ back) =
      [(KeyMember.live k.foreignColumns).map fun c => trim c.1.name,
        (KeyMember.live k.primaryColumns).map fun c => trim c.1.name] := by
  have hnames (columns : List KeyMember) :
      ((KeyMember.live columns).map fun c => trim c.1.name) =
        (columns.filter KeyMember.active).map fun c => trim c.name := by
    rw [← KeyMember.map_fst_live, List.map_map]
    rfl
  have hforeign := readsNames_sideText fun c hc => hends c (List.mem_append_left _ hc)
  have hprimary := readsNames_sideText fun c hc => hends c (List.mem_append_right _ hc)
  have hbetween : ReadsNames (" REFERENCES " ++ table ++ " ") tables :=
    (htable.lead (by decide)).trail (by decide)
  -- The first list ends before the referenced table, and the second one before what is behind.
  have hsplit : front ++ "(" ++ sideText k.foreignColumns true ++ ") REFERENCES " ++ table ++
      " (" ++ sideText k.primaryColumns true ++ ")" ++ back =
      front ++ "(" ++ sideText k.foreignColumns true ++ ")" ++
        (" REFERENCES " ++ table ++ " " ++ "(" ++ sideText k.primaryColumns true ++ ")" ++
          back) := by
    rw [← String.toList_inj]
    simp
  rw [hactive, hsplit, columnLists_paren hfront hforeign, columnLists_paren hbetween hprimary,
    columnLists_of_readsNames hback, hnames, hnames]

/-- What is left of the two sides names their active columns position by position. -/
def Paired (k : ForeignKey) : Prop :=
  List.Forall₂ (fun c d => c.2 = d.2) (KeyMember.live k.foreignColumns)
    (KeyMember.live k.primaryColumns)

/-- **The columns that an active key names, and when they are paired.** Without the comments each
side names its active columns in their order, in both forms. They are paired, as many on one side as
on the other and each with the one at its position, exactly if at each position both columns are
active or neither is. -/
theorem columnLists_paired_iff (hactive : k.active = true)
    (hlength : k.foreignColumns.length = k.primaryColumns.length)
    (hends : ∀ c ∈ k.foreignColumns ++ k.primaryColumns, c.active = false →
      ¬['*', '/'] <:+: c.name.toList) (schema : Option String) :
    (∀ text ∈ [(k.fragment schema).write, (k.statement schema).write],
      columnLists text =
        [(KeyMember.live k.foreignColumns).map fun c => trim c.1.name,
          (KeyMember.live k.primaryColumns).map fun c => trim c.1.name]) ∧
      (k.Paired ↔ ∀ e ∈ k.foreignColumns.zip k.primaryColumns, e.1.active = e.2.active) := by
  refine ⟨fun text htext => ?_, KeyMember.forall₂_live_iff hlength 0⟩
  obtain ⟨names, hfront⟩ := readsNames_front k.name
  obtain ⟨tables, htable⟩ := readsNames_qualified k.primaryTable (k.primarySchema <|> schema)
  obtain ⟨children, hchild⟩ := readsNames_qualified k.foreignTable (k.foreignSchema <|> schema)
  have hmember : (k.fragment schema).write = (k.fragment schema).text := by
    rw [Fragment.write, fragment, hactive, if_pos rfl]
  have hstatement : (k.statement schema).write = (k.statement schema).text := by
    rw [Fragment.write, statement, hactive, if_pos rfl]
  rw [hmember, hstatement, text_statement, text_fragment, List.mem_pair] at htext
  have hadd := (hchild.lead (by decide : isFiller "ALTER TABLE " = true)).glue
    (by decide : isFiller " ADD " = true) hfront
  have hend : ReadsNames ";" [] := .filler (by decide)
  rcases htext with rfl | rfl
  · rw [← columnLists_sides hfront htable .empty hactive hends]
    refine congrArg columnLists (String.toList_inj.1 ?_)
    simp
  · rw [← columnLists_sides hadd htable hend hactive hends]
    refine congrArg columnLists (String.toList_inj.1 ?_)
    simp

/-- A key of two columns, each of which may be active. -/
def ofTwo (name : String) (foreign primary : Bool) : ForeignKey where
  foreignTable := "c"
  foreignColumns := [⟨"a", true⟩, ⟨name, foreign⟩]
  primaryTable := "p"
  primaryColumns := [⟨"x", true⟩, ⟨"y", primary⟩]

/-- A key of two columns is paired where the second ones are deactivated on both sides. -/
theorem columnLists_paired_ofTwo :
    (ofTwo "b" false false).active = true ∧
      (∀ text ∈ [((ofTwo "b" false false).fragment none).write,
          ((ofTwo "b" false false).statement none).write],
        columnLists text = [["a"], ["x"]]) ∧
      (ofTwo "b" false false).Paired := by
  obtain ⟨hlists, hpaired⟩ := columnLists_paired_iff (k := ofTwo "b" false false)
    (by decide) (by decide) (by decide) none
  exact ⟨by decide, hlists, hpaired.2 (by decide)⟩

/-- It is not where one of them is active. Where a name has an end mark in it, the comment ends
there and the rest is read as names. -/
theorem not_columnLists_paired_ofTwo :
    (ofTwo "b" false true).active = true ∧
      (ofTwo "b" false true).foreignColumns.length =
        (ofTwo "b" false true).primaryColumns.length ∧
      columnLists ((ofTwo "b" false true).fragment none).write = [["a"], ["x", "y"]] ∧
      columnLists ((ofTwo "b" false true).statement none).write = [["a"], ["x", "y"]] ∧
      ¬(ofTwo "b" false true).Paired ∧
      (ofTwo "b*/" false false).active = true ∧
      columnLists ((ofTwo "b*/" false false).fragment none).write =
        [["a", " */) REFERENCES ", " (", " /* "]] := by
  refine ⟨by decide, rfl, by decide +kernel, by decide +kernel, fun hpaired => ?_, by decide,
    by decide +kernel⟩
  exact absurd hpaired.length_eq (by decide)

end ForeignKey

end SchemaDelta
