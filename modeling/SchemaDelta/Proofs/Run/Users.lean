import SchemaDelta.Proofs.Run.Boundaries
import SchemaDelta.Proofs.Script.Existing
import SchemaDelta.Proofs.Script.Openings
import SchemaDelta.Proofs.Sql.Guarded

/-!
# Statements that create users

A statement that begins with `CREATE USER` is not run. A schema that may be there already is created
in a block, which begins otherwise, so its user is created after all: `filter_makesUser_split` says
which of the statements that are run create users.

The first words of a statement stand before a quoted name, or at least before another word. So they
are still there when the end of the statement has been cut off.
-/

namespace SchemaDelta

open Sql Text

namespace Run

/-- The statement creates a user, or it is a block that runs one that does. -/
def makesUser (statement : String) : Bool :=
  createsUser statement || (immediate? statement).any createsUser

/-- A statement that is no block creates a user if its front says so. -/
theorem Opening.makesUser_eq {front r : List Char} {user : Bool} {t : String} {c : Char}
    (h : Opening front user) (hblock : ∀ r, isBlock (front ++ r) = false)
    (ht : t.toList = front ++ c :: r) (hc : isBlank c = true) : makesUser t = user := by
  have hnone : isBlock t.toList = false := by
    rw [ht]
    exact hblock _
  rw [makesUser, immediate?_eq_none hnone, h.createsUser_eq ht hc, Option.any_none, Bool.or_false]

/-! ## What is run of a statement -/

/-- What is run of a statement without a blank line. -/
def handed (u : Fragment) : List String :=
  if u.active && !createsUser u.text then [statementOf u.text] else []

variable {front r : List Char} {user active : Bool} {s t : String} {c : Char}

/-- A statement that is no block is not run if it creates a user. -/
theorem filter_handed (h : Opening front user) (hblock : ∀ r, isBlock (front ++ r) = false)
    (ht : Capital t) (heq : t.toList = front ++ ' ' :: c :: (r ++ [';']))
    (hblank : isBlank c = false) (hc : c ≠ ';') : (handed ⟨t, active⟩).filter makesUser = [] := by
  have hcut : t.toList = (front ++ [' ']) ++ c :: (r ++ [';']) := by simp [heq]
  obtain ⟨rest, hrest⟩ := exists_statementOf_cons ht hcut hblank hc
  rw [List.append_assoc] at hrest
  have hwhole := h.createsUser_eq heq (by decide)
  have hrun := h.makesUser_eq hblock hrest (by decide)
  cases user <;> cases active <;> simp [handed, hwhole, hrun]

/-- A block is run without its slash. -/
theorem exists_statementOf_guarded (s : String) (code : Nat) :
    ∃ rest, (statementOf (guarded s true code)).toList =
      "DECLARE\nBEGIN\n\tEXECUTE IMMEDIATE ".toList ++
        ((enclosed '\'' (bareStatement s).toList).toList ++ ';' :: rest) := by
  obtain ⟨rest, h⟩ := toList_guarded s code
  -- The semicolon after the literal stops the cut.
  have hbody : (guarded s true code).toList =
      (("DECLARE\nBEGIN\n\tEXECUTE IMMEDIATE ".toList ++
        (enclosed '\'' (bareStatement s).toList).toList) ++
          ';' :: (rest ++ "\nEND;\n".toList)) ++ ['/'] := by
    simp [h]
  have hst : (statementOf (guarded s true code)).toList =
      dropEndWhile isBlank (("DECLARE\nBEGIN\n\tEXECUTE IMMEDIATE ".toList ++
        (enclosed '\'' (bareStatement s).toList).toList) ++
          ';' :: (rest ++ "\nEND;\n".toList)) := by
    rw [statementOf, hbody, if_pos List.getLast?_concat, toList_trimEnd, String.toList_ofList,
      List.dropLast_concat]
  rw [hst, dropEndWhile_append_cons _ _ (by decide), dropEndWhile_cons _ (by decide),
    List.append_assoc]
  exact ⟨_, rfl⟩

/-- A block does not begin with the words that create a user. -/
theorem createsUser_block {block : String} (h : block.toList =
    "DECLARE\nBEGIN\n\tEXECUTE IMMEDIATE ".toList ++ r) : createsUser block = false := by
  have hfront : block.toList =
      "DECLARE".toList ++ '\n' :: ("BEGIN\n\tEXECUTE IMMEDIATE ".toList ++ r) := h
  exact opening_declare.createsUser_eq hfront (by decide)

/-- What a block runs is the statement that stands in it. -/
theorem immediate?_statementOf_guarded (s : String) (code : Nat) :
    immediate? (statementOf (guarded s true code)) = some (bareStatement s) := by
  obtain ⟨rest, h⟩ := exists_statementOf_guarded s code
  exact immediate?_block _ h

/-- A live block is run, whatever the statement in it does. -/
theorem handed_guarded (s : String) (code : Nat) :
    handed ⟨guarded s true code, true⟩ = [statementOf (guarded s true code)] := by
  obtain ⟨rest, h⟩ := toList_guarded s code
  simp [handed, createsUser_block h]

/-- A statement that creates a user is run all the same in a block. -/
theorem filter_handed_guarded (h : Opening front user)
    (hblock : ∀ r, isBlock (front ++ r) = false) (hs : Capital s)
    (heq : s.toList = front ++ ' ' :: '"' :: r) (ifNotExist : Bool) (code : Nat) :
    (handed ⟨guarded s ifNotExist code, active⟩).filter makesUser =
      if active && ifNotExist && user then [statementOf (guarded s true code)] else [] := by
  have hfront : s.toList = (front ++ [' ']) ++ '"' :: r := by simp [heq]
  obtain ⟨t, ht⟩ := exists_bareStatement_append hs hfront (by decide) (by decide)
  rw [List.append_assoc] at ht
  cases ifNotExist with
  | false =>
    have hguarded : (guarded s false code).toList = front ++ ' ' :: '"' :: (t ++ [';']) := by
      simp [guarded, ht]
    rw [filter_handed h hblock (sealed_guarded hs false code).capital hguarded (by decide)
      (by decide), Bool.and_false, Bool.false_and]
    rfl
  | true =>
    cases active with
    | false => rfl
    | true =>
      obtain ⟨rest, hrun⟩ := exists_statementOf_guarded s code
      have hmakes : makesUser (statementOf (guarded s true code)) = user := by
        rw [makesUser, createsUser_block hrun, immediate?_statementOf_guarded, Option.any_some,
          h.createsUser_eq ht (by decide), Bool.false_or]
      cases user <;> simp [handed_guarded, hmakes]

/-- Statements that make no user make none together. -/
theorem filter_flatMap_handed {units : List Fragment}
    (h : ∀ u ∈ units, (handed u).filter makesUser = []) :
    (units.flatMap handed).filter makesUser = [] := by
  rw [List.filter_flatMap, List.flatMap_eq_nil_iff]
  exact h

end Run

/-! ## What is run of a step -/

open Run

/-- The table is temporary, and its scope is written with the word for a user in front. -/
def Table.Kind.namesUser : Table.Kind → Bool
  | temporary scope => leadsToUser scope.toList
  | _ => false

/-- The words between the verb and the noun begin as the kind says. -/
theorem Table.Kind.leadsToUser_words (k : Table.Kind) :
    leadsToUser (framed " " (k.words?.getD "") "").toList = k.namesUser := by
  cases k with
  | temporary scope =>
    have hkind : (framed " " (scope ++ " TEMPORARY") "").toList =
        ' ' :: (scope.toList ++ ' ' :: "TEMPORARY".toList) := by
      rw [framed_of_ne (by simp)]
      simp
    have hwords : wordChars (' ' :: (scope.toList ++ ' ' :: "TEMPORARY".toList)) =
        wordChars scope.toList ++ ["TEMPORARY".toList] := by
      rw [← List.nil_append (' ' :: _), wordChars_append_blank (by decide),
        wordChars_append_blank (by decide)]
      rfl
    simp only [words?, Option.getD_some, hkind, leadsToUser, hwords, namesUser]
    cases wordChars scope.toList <;> rfl
  | blockchain immutable => cases immutable <;> decide
  | _ => decide

/-- The blocks of a step that create users: those of schemas that may be there already, and by
accident those of some temporary tables. -/
def Step.users : Step → List String
  | createSchema s => if s.active && s.ifNotExist then [statementOf s.createUnit.text] else []
  | createTable t =>
    if t.active && t.ifNotExist && t.kind.namesUser then
      [statementOf (guarded t.createText true nameInUse)]
    else []
  | _ => []

/-- A comment on an object makes no user. -/
theorem Run.filter_handed_commentOn (object name text : String) (active : Bool) :
    (handed ⟨commentOn object name text, active⟩).filter makesUser = [] := by
  have htext : (commentOn object name text).toList = "COMMENT".toList ++ ' ' :: 'O' ::
      (("N " ++ object ++ " " ++ name ++ " IS " ++ literal text).toList ++ [';']) := by
    simp [commentOn, Form.fill_comment]
  exact filter_handed opening_comment (fun _ => rfl) (sealed_commentOn object name text).capital
    htext (by decide) (by decide)

/-- What is written between the verb and the noun begins with a space. -/
theorem Sql.isBlank_head_framed (value : String) :
    (framed " " value "").toList.head?.all isBlank = true := by
  by_cases h : value = ""
  · rw [h]
    rfl
  · have htext : (framed " " value "").toList = ' ' :: value.toList := by
      simp [framed_of_ne h]
    rw [htext]
    rfl

/-- No index makes a user, whatever its type is. -/
theorem Index.filter_handed_statement (i : Index) (table : String) (schema : Option String)
    (parentActive : Bool) :
    (handed (i.statement table schema parentActive)).filter makesUser = [] := by
  obtain ⟨kind, r, hr⟩ := i.exists_toList_statement table schema parentActive
  have htext : (i.statement table schema parentActive).text.toList =
      ("CREATE".toList ++ ((framed " " kind "").toList ++ ' ' :: "INDEX".toList)) ++
        ' ' :: '"' :: ((doubled '"' (trimChars i.name.toList) ++ '"' :: r) ++ [';']) := by
    simp [hr, quote]
  exact filter_handed (opening_create (isBlank_head_framed kind) (by decide) (by decide))
    (fun _ => rfl) (i.sealed_statement table schema parentActive).capital htext (by decide)
    (by decide)

/-- A table makes a user only in its block. -/
theorem Table.filter_handed_units (t : Table) :
    ((t.createUnits ++ t.indexUnits).flatMap handed).filter makesUser =
      (Step.createTable t).users := by
  obtain ⟨r, hr⟩ := t.exists_toList_createText
  obtain ⟨n, hn⟩ := exists_toList_qualified t.name t.schema
  have htext : t.createText.toList = ("CREATE".toList ++
      ((framed " " (t.kind.words?.getD "") "").toList ++ ' ' :: "TABLE".toList)) ++
        ' ' :: '"' :: (n ++ '"' :: r) := by
    simp [hr, qualifiedName, hn]
  have hcreate : (handed ⟨guarded t.createText t.ifNotExist nameInUse, t.active⟩).filter makesUser =
      (Step.createTable t).users := by
    rw [filter_handed_guarded (opening_create (isBlank_head_framed _) (by decide) (by decide))
      (fun _ => rfl) t.capital_createText htext, Kind.leadsToUser_words]
    rfl
  have hothers : ∀ u ∈ (t.commentUnit?.toList ++
      t.columns.filterMap fun c => c.commentUnit? t.qualifiedName t.active) ++ t.indexUnits,
      (handed u).filter makesUser = [] := by
    intro u hu
    simp only [indexUnits, List.mem_append, Option.mem_toList, List.mem_filterMap,
      List.mem_map] at hu
    rcases hu with (hu | ⟨c, -, hu⟩) | ⟨i, -, rfl⟩
    · obtain ⟨d, -, rfl⟩ := Option.map_eq_some_iff.1 hu
      exact filter_handed_commentOn _ _ _ _
    · obtain ⟨d, -, rfl⟩ := Option.map_eq_some_iff.1 hu
      exact filter_handed_commentOn _ _ _ _
    · exact i.filter_handed_statement _ _ _
  rw [createUnits, List.cons_append, List.cons_append, List.flatMap_cons, List.filter_append,
    hcreate, filter_flatMap_handed hothers, List.append_nil]

/-- No view makes a user. -/
theorem View.filter_handed_units (v : View) :
    (v.createUnits.flatMap handed).filter makesUser = [] := by
  have hmodifiers : v.modifiers.head?.all isBlank = true ∧ leadsToUser v.modifiers = false := by
    unfold modifiers
    cases v.orReplace <;> cases v.force <;> cases v.editionable <;> cases v.editioning <;>
      exact ⟨rfl, rfl⟩
  obtain ⟨n, hn⟩ := exists_toList_qualified v.name v.schema
  obtain ⟨r, htext⟩ : ∃ r : List Char, v.createText.toList =
      ("CREATE".toList ++ (v.modifiers ++ ' ' :: "VIEW".toList)) ++ ' ' :: '"' :: r := by
    rw [v.toList_createText, qualifiedName, hn]
    exact ⟨_, by simp; rfl⟩
  have hcreate : (handed ⟨guarded v.createText v.ifNotExist nameInUse, v.active⟩).filter makesUser =
      [] := by
    rw [filter_handed_guarded (opening_create hmodifiers.1 (by decide) (by decide))
      (fun _ => rfl) v.capital_createText htext, hmodifiers.2, Bool.and_false]
    rfl
  have hcomment : ∀ u ∈ v.commentUnit?.toList, (handed u).filter makesUser = [] := by
    intro u hu
    obtain ⟨d, -, rfl⟩ := Option.map_eq_some_iff.1 (Option.mem_toList.1 hu)
    exact filter_handed_commentOn _ _ _ _
  rw [createUnits, List.flatMap_cons, List.filter_append, hcreate, filter_flatMap_handed hcomment,
    List.append_nil]

/-- No type makes a user. -/
theorem UserType.filter_handed_unit (t : UserType) :
    (handed t.createUnit).filter makesUser = [] := by
  obtain ⟨r, hr⟩ := t.exists_toList_createText
  obtain ⟨n, hn⟩ := exists_toList_qualified t.name t.schema
  have htext : t.createText.toList =
      ("CREATE".toList ++ (" OR REPLACE".toList ++ ' ' :: "TYPE".toList)) ++
        ' ' :: '"' :: ((n ++ '"' :: ' ' :: r) ++ [';']) := by
    simp [hr, qualifiedName, hn]
  exact filter_handed (opening_create rfl (by decide) (by decide)) (fun _ => rfl)
    t.sealed_createUnit.capital htext (by decide) (by decide)

/-- A schema makes its user only in its block. -/
theorem Schema.filter_handed_unit (s : Schema) :
    (handed s.createUnit).filter makesUser = (Step.createSchema s).users := by
  obtain ⟨r, hr⟩ : ∃ r, (Form.createSchema.fill (.ofList [("schemaName", quote s.name)])).toList =
      "CREATE USER".toList ++ ' ' :: '"' :: r :=
    ⟨_, by simp [Form.fill_createSchema, quote]; rfl⟩
  rw [createUnit, filter_handed_guarded opening_createUser (fun _ => rfl)
    (capital_createSchema _) hr, Step.users]
  cases s.active <;> cases hflag : s.ifNotExist <;> simp [createUnit, hflag]

namespace Step

/-- The step creates something, together with all that belongs to it. -/
def Creates : Step → Prop
  | createSchema _ | createTable _ | createView _ | createType _ => True
  | _ => False

/-- All other steps drop or alter. -/
theorem exists_toList_of_not_creates {s : Step} (h : ¬s.Creates) :
    ∀ u ∈ s.units, ∃ verb ∈ ["DROP", "ALTER"], ∃ c ∈ ['T', 'U', 'V'], ∃ r : List Char,
      u.text.toList = verb.toList ++ ' ' :: c :: (r ++ [';']) := by
  intro u hu
  cases hexisting : s.existing? with
  | some table =>
    -- All steps on existing tables are alike: the verb, the noun and the name of the table.
    obtain ⟨verb, hverb, r, hr⟩ := exists_toList_unit hexisting u hu
    rcases List.mem_pair.1 hverb with rfl | rfl
    · exact ⟨"ALTER", by decide, 'T', by decide, ("ABLE " ++ table).toList ++ r, by simp [hr]⟩
    · exact ⟨"DROP", by decide, 'T', by decide, ("ABLE " ++ table).toList ++ r, by simp [hr]⟩
  | none =>
    cases s <;>
      first
      | exact absurd trivial h
      | exact absurd hexisting (Option.some_ne_none _)
      | rw [List.mem_singleton.1 hu]
    case dropSchema s =>
      exact ⟨"DROP", by decide, 'U', by decide, ("SER " ++ quote s.name).toList,
        by simp [Form.fill_dropUser]⟩
    case dropView v =>
      exact ⟨"DROP", by decide, 'V', by decide, ("IEW " ++ v.qualifiedName).toList,
        by simp [Form.fill_dropView]⟩
    case dropType t =>
      exact ⟨"DROP", by decide, 'T', by decide, ("YPE " ++ t.qualifiedName).toList,
        by simp [Form.fill_dropType]⟩
    case addAttribute type on c =>
      exact ⟨"ALTER", by decide, 'T', by decide,
        ("YPE " ++ type ++ " ADD ATTRIBUTE " ++ c.attributeLine.text).toList,
        by simp [Form.fill_addAttribute]⟩
    case dropAttribute type name =>
      exact ⟨"ALTER", by decide, 'T', by decide,
        ("YPE " ++ type ++ " DROP ATTRIBUTE " ++ quote name).toList,
        by simp [Form.fill_dropAttribute]⟩
    case modifyAttribute type name dataType =>
      exact ⟨"ALTER", by decide, 'T', by decide,
        ("YPE " ++ type ++ " MODIFY ATTRIBUTE " ++ quote name ++ framed " " dataType "").toList,
        by simp [Form.fill_modifyAttribute]⟩

/-- What drops or alters makes no user. -/
theorem filter_handed_of_not_creates {s : Step} (h : ¬s.Creates) :
    (s.units.flatMap handed).filter makesUser = [] := by
  refine filter_flatMap_handed fun u hu => ?_
  obtain ⟨verb, hverb, c, hc, r, htext⟩ := exists_toList_of_not_creates h u hu
  have hopening : Opening verb.toList false ∧ ∀ r, isBlock (verb.toList ++ r) = false := by
    rcases List.mem_pair.1 hverb with rfl | rfl
    · exact ⟨opening_drop, fun _ => rfl⟩
    · exact ⟨opening_alter, fun _ => rfl⟩
  have hletter : isBlank c = false ∧ c ≠ ';' := by
    simp only [List.mem_cons, List.not_mem_nil, or_false] at hc
    rcases hc with rfl | rfl | rfl <;> exact ⟨by decide, by decide⟩
  exact filter_handed hopening.1 hopening.2 (s.sealed_units u hu).capital htext hletter.1
    hletter.2

/-- The users of a step are made by the blocks that are told. -/
theorem filter_handed_units (s : Step) : (s.units.flatMap handed).filter makesUser = s.users := by
  cases s with
  | createTable t => exact t.filter_handed_units
  | createView v => exact v.filter_handed_units
  | createType t => simpa only [units, users, List.flatMap_singleton] using t.filter_handed_unit
  | createSchema s => simpa only [units, List.flatMap_singleton] using s.filter_handed_unit
  | _ => exact filter_handed_of_not_creates id

end Step

/-! ## What is run of a script -/

namespace Script

/-- Where no string of a document has a line feed, what is run of the script is what is run of its
statements. -/
theorem split_eq_flatMap_handed {r : Json.Entries} {release : Option String} {s : Script}
    (hlines : ∀ t ∈ (Json.object r).strings, '\n' ∉ t.toList)
    (hs : ofJson (.object r) release = .ok s) : split s.text = s.units.flatMap handed := by
  have hwritten := written_units Json.grants_one_line hlines hs
  rw [text, split_statementsText s.sealed_units]
  exact List.flatMap_congr fun u hu =>
    split_write (s.sealed_units u hu) ((hwritten u hu).no_break fun _ ht => ht)

/-- The statements that are run and create users. Where no string of a document has a line feed,
they are the blocks of the active schemas that may be there already, and those of such tables with a
scope that is written like a user. In general there may be others only among the parts of a
statement with a blank line. -/
theorem filter_makesUser_split (r : Json.Entries) (release : Option String) :
    ∃ s, ofJson (.object r) release = .ok s ∧
      ((∀ t ∈ (Json.object r).strings, '\n' ∉ t.toList) →
        (split s.text).filter makesUser = s.steps.flatMap Step.users) ∧
      ∀ t ∈ split s.text, makesUser t = true → t ∈ s.steps.flatMap Step.users ∨
        ∃ u ∈ s.units, ['\n', '\n'] <:+: u.text.toList ∧ t ∈ split u.write := by
  obtain ⟨s, hs⟩ := exists_ofJson r release
  refine ⟨s, hs, fun hlines => ?_, fun t ht hmakes => ?_⟩
  · rw [split_eq_flatMap_handed hlines hs, units, List.flatMap_assoc, List.filter_flatMap]
    exact List.flatMap_congr fun a _ => a.filter_handed_units
  · rw [text, split_statementsText s.sealed_units] at ht
    obtain ⟨u, hu, htu⟩ := List.mem_flatMap.1 ht
    by_cases hbreak : ['\n', '\n'] <:+: u.text.toList
    · exact .inr ⟨u, hu, hbreak, htu⟩
    · obtain ⟨a, ha, hua⟩ := List.mem_flatMap.1 hu
      rw [split_write (s.sealed_units u hu) hbreak] at htu
      have hmem : t ∈ (a.units.flatMap handed).filter makesUser :=
        List.mem_filter.2 ⟨List.mem_flatMap.2 ⟨u, hua, htu⟩, hmakes⟩
      rw [a.filter_handed_units] at hmem
      exact .inl (List.mem_flatMap.2 ⟨a, ha, hmem⟩)

/-- Of two schemas the one that may be there already is created, and the other one is not. -/
theorem filter_makesUser_split_of_schemas :
    ∃ s, ofJson (.object [("containers", .object [("added", .object [("items", .array
      [.object [("a", .object [])], .object [("b", .object [("ifNotExist", .bool true)])]])])])])
        none = .ok s ∧
      s.units.length = 2 ∧
      ((split s.text).filter makesUser).map immediate? =
        [some "CREATE USER \"b\" NO AUTHENTICATION"] := by
  refine (filter_makesUser_split _ none).imp fun s h => ⟨h.1, ?_, ?_⟩
  · cases h.1
    rfl
  · rw [h.2.1 (by decide +kernel)]
    cases h.1
    show [immediate? (statementOf (guarded _ true userNameInUse))] = _
    rw [immediate?_statementOf_guarded]
    decide +kernel

/-- The only statement of a script is run as a block, and what it runs creates a user. -/
theorem guarded_user_created :
    ∃ s, ofJson (.object [("containers", .object [("added", .object [("items", .array
      [.object [("NEW", .object [("ifNotExist", .bool true)])]])])])]) none = .ok s ∧
      (split s.text).map immediate? = [some "CREATE USER \"NEW\" NO AUTHENTICATION"] ∧
      createsUser "CREATE USER \"NEW\" NO AUTHENTICATION" = true := by
  refine ⟨_, rfl, ?_, by decide +kernel⟩
  rw [split_eq_flatMap_handed (by decide +kernel) rfl]
  show (handed ⟨guarded _ true userNameInUse, true⟩ ++ []).map immediate? = _
  rw [handed_guarded, List.append_nil, List.map_singleton, immediate?_statementOf_guarded]
  decide +kernel

end Script

end SchemaDelta
