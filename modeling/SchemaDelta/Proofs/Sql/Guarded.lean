import SchemaDelta.Proofs.Sql.Names
import SchemaDelta.Proofs.Sql.Sealed

/-!
# What a block runs

A guarded statement stands in a block as a string literal. Read back from there, it is the statement
without its end, whatever quotes it holds (`immediate?_guarded`). A statement that is not guarded is
no block.
-/

namespace SchemaDelta.Sql

open Text

/-! ## Reading -/

/-- What follows the first place where `p` stands. -/
def afterFirst? (p : String) : List Char → Option (List Char)
  | [] => none
  | c :: r => after? p (c :: r) <|> afterFirst? p r

/-- The text is a block, with or without declarations. -/
def isBlock (s : List Char) : Bool :=
  "DECLARE".toList.isPrefixOf s || "BEGIN".toList.isPrefixOf s

/-- The statement that a block runs from a string literal. -/
def immediate? (statement : String) : Option String :=
  if isBlock statement.toList then
    ((afterFirst? "EXECUTE IMMEDIATE " statement.toList).bind (readEnclosed? '\'')).map
      fun p => String.ofList p.1
  else none

/-- What a statement runs: what stands in its block, or itself if it is no block. -/
def executed (statement : String) : String :=
  (immediate? statement).getD statement

/-- What is no block runs no other statement. -/
theorem immediate?_eq_none {s : String} (h : isBlock s.toList = false) : immediate? s = none := by
  rw [immediate?, h]
  rfl

/-- A block begins with a D or a B. -/
theorem isBlock_eq_false {s : List Char} (hdeclare : s.head? ≠ some 'D')
    (hbegin : s.head? ≠ some 'B') : isBlock s = false := by
  cases s with
  | nil => rfl
  | cons c r =>
    have hd : 'D' ≠ c := by simpa [eq_comm] using hdeclare
    have hb : 'B' ≠ c := by simpa [eq_comm] using hbegin
    simp [isBlock, List.isPrefixOf, hd, hb]

/-- What is no block runs itself. -/
theorem executed_eq_self {s : String} (h : isBlock s.toList = false) : executed s = s := by
  rw [executed, immediate?_eq_none h, Option.getD_none]

/-! ## Guarded statements -/

/-- A block runs what follows its own words first. -/
theorem afterFirst?_block (r : List Char) :
    afterFirst? "EXECUTE IMMEDIATE " ("DECLARE\nBEGIN\n\tEXECUTE IMMEDIATE ".toList ++ r) =
      some r := by
  simp [afterFirst?, after?, List.dropPrefix?]

/-- A text that begins as a guarding block does, up to the end of the literal, is read as what
stands in the literal. -/
theorem immediate?_block {block : String} (s : String) {rest : List Char}
    (hblock : block.toList = "DECLARE\nBEGIN\n\tEXECUTE IMMEDIATE ".toList ++
      ((enclosed '\'' s.toList).toList ++ ';' :: rest)) : immediate? block = some s := by
  have hafter : afterFirst? "EXECUTE IMMEDIATE " block.toList =
      some ((enclosed '\'' s.toList).toList ++ ';' :: rest) := by
    rw [hblock, afterFirst?_block]
  have hstart : isBlock block.toList = true := by
    rw [hblock]
    rfl
  rw [immediate?, hstart, if_pos rfl, hafter, Option.bind_some,
    readEnclosed?_enclosed _ (by simp), Option.map_some, String.ofList_toList]

/-- The block around a statement has it as a string literal. -/
theorem toList_guarded (s : String) (code : Nat) :
    ∃ rest, (guarded s true code).toList = "DECLARE\nBEGIN\n\tEXECUTE IMMEDIATE ".toList ++
      ((enclosed '\'' (bareStatement s).toList).toList ++
        ';' :: (rest ++ "\nEND;\n/".toList)) := by
  refine ⟨("\n\tEXCEPTION WHEN OTHERS THEN\n\t\tIF SQLCODE = -" ++ showNat code ++
    " THEN NULL; ELSE RAISE; END IF;").toList, ?_⟩
  rw [guarded, if_pos rfl, Form.fill_ifNotExists]
  simp

/-- A statement is read back from its block. -/
theorem immediate?_guarded (s : String) (code : Nat) :
    immediate? (guarded s true code) = some (bareStatement s) := by
  obtain ⟨rest, h⟩ := toList_guarded s code
  exact immediate?_block _ h

/-! ## The parts of a block -/

/-- What follows the statement in a block: the handler that lets the error `code` pass. -/
def handler (code : Nat) : String :=
  ";\n\tEXCEPTION WHEN OTHERS THEN\n\t\tIF SQLCODE = -" ++ showNat code ++
    " THEN NULL; ELSE RAISE; END IF;\nEND;"

/-- The block around a statement, without the slash after it. -/
def blockOf (s : String) (code : Nat) : String :=
  "DECLARE\nBEGIN\n\tEXECUTE IMMEDIATE " ++ literal (bareStatement s) ++ handler code

/-- A guarded statement is its block and a slash on a line of its own. -/
theorem guarded_eq_blockOf (s : String) (code : Nat) :
    guarded s true code = blockOf s code ++ "\n/" := by
  rw [guarded, if_pos rfl, Form.fill_ifNotExists]
  unfold blockOf handler literal
  apply String.toList_inj.1
  simp

/-- The literal in a block is read as the statement, and the handler is what follows it. -/
theorem readEnclosed?_guarded (s : String) (code : Nat) :
    (afterFirst? "EXECUTE IMMEDIATE " (guarded s true code).toList).bind (readEnclosed? '\'') =
      some ((bareStatement s).toList, (handler code ++ "\n/").toList) := by
  have hparts : (guarded s true code).toList = "DECLARE\nBEGIN\n\tEXECUTE IMMEDIATE ".toList ++
      ((enclosed '\'' (bareStatement s).toList).toList ++ (handler code ++ "\n/").toList) := by
    rw [guarded_eq_blockOf]
    unfold blockOf literal
    simp only [String.toList_append, List.append_assoc]
  have hrest : (handler code ++ "\n/").toList.head? ≠ some '\'' := by
    unfold handler
    simp
  rw [hparts, afterFirst?_block, Option.bind_some, readEnclosed?_enclosed _ hrest]

/-! ## The end of a statement -/

/-- A statement without its end is all of the trimmed statement but semicolons. -/
theorem exists_trimChars_eq_bareStatement (s : String) :
    ∃ n, trimChars s.toList = (bareStatement s).toList ++ List.replicate n ';' := by
  obtain ⟨semis, hsemis, hall⟩ := exists_append_dropEndWhile (· = ';') (trimChars s.toList)
  have hreplicate : semis = List.replicate semis.length ';' :=
    List.eq_replicate_of_mem fun c hc => by simpa using hall c hc
  refine ⟨semis.length, ?_⟩
  rw [bareStatement, String.toList_ofList, ← hreplicate]
  exact hsemis

/-- No semicolon is left at the end of it. -/
theorem getLast?_bareStatement (s : String) : (bareStatement s).toList.getLast? ≠ some ';' := by
  rw [bareStatement, String.toList_ofList]
  intro h
  have hne : (trimChars s.toList).rdropWhile (· = ';') ≠ [] := by
    intro hnil
    rw [show dropEndWhile (· = ';') (trimChars s.toList) = [] from hnil] at h
    cases h
  have hlast : ((trimChars s.toList).rdropWhile (· = ';')).getLast hne = ';' :=
    Option.some.inj ((List.getLast?_eq_some_getLast hne).symm.trans h)
  exact List.rdropWhile_last_not _ _ hne (by simp [hlast])

/-- Blank characters and semicolons are all that a statement is cut by. -/
theorem cutEnds_bareStatement (s : String) :
    CutEnds (fun c => isBlank c = true ∨ c = ';') s.toList (bareStatement s).toList := by
  rw [bareStatement, String.toList_ofList]
  exact ((cutEnds_trimChars s.toList).imp fun _ => .inl).trans
    ((cutEnds_dropEndWhile (· = ';') _).imp fun _ hc => .inr (of_decide_eq_true hc))

/-- The statement is known from its guarded form, up to where it is cut. -/
theorem bareStatement_eq_of_guarded {s t : String} {ifNotExist : Bool} {code : Nat}
    (h : guarded s ifNotExist code = guarded t ifNotExist code) :
    bareStatement s = bareStatement t := by
  cases ifNotExist with
  | true =>
    have hread := congrArg immediate? h
    rw [immediate?_guarded, immediate?_guarded] at hread
    exact Option.some.inj hread
  | false =>
    have hlist : (bareStatement s).toList ++ [';'] = (bareStatement t).toList ++ [';'] := by
      simpa [guarded] using congrArg String.toList h
    exact String.toList_inj.1 (List.append_cancel_right hlist)

/-- A word inside a statement is not lost in its guarded form. -/
theorem guarded_ne_of_word {front word back : String} {c : Char} (hc : c ∈ word.toList)
    (hblank : isBlank c = false) (hsemi : c ≠ ';') (ifNotExist : Bool) (code : Nat) :
    guarded (front ++ word ++ back) ifNotExist code ≠
      guarded (front ++ back) ifNotExist code := by
  intro h
  -- Where the ends are cut, no such character is lost, so the word is counted.
  have hcut : ¬(isBlank c = true ∨ c = ';') := by simp [hblank, hsemi]
  have hcount : (front ++ word ++ back).toList.count c = (front ++ back).toList.count c := by
    rw [(cutEnds_bareStatement _).count_eq hcut, bareStatement_eq_of_guarded h,
      ← (cutEnds_bareStatement _).count_eq hcut]
  have hpos : 0 < word.toList.count c := List.count_pos_iff.2 hc
  simp only [String.toList_append, List.count_append] at hcount
  omega

/-- Without its end, a statement keeps all up to a character that is neither blank nor a
semicolon. -/
theorem exists_bareStatement_append {s : String} {front r : List Char} {c : Char} (hs : Capital s)
    (h : s.toList = front ++ c :: r) (hblank : isBlank c = false) (hc : c ≠ ';') :
    ∃ t, (bareStatement s).toList = front ++ c :: t := by
  obtain ⟨d, t, hd, hupper⟩ := hs
  have hsemi : decide (c = ';') = false := decide_eq_false hc
  refine ⟨dropEndWhile (· = ';') (dropEndWhile isBlank r), ?_⟩
  rw [bareStatement, String.toList_ofList, hd, trimChars_cons _ (isBlank_of_isUpper hupper), ← hd,
    h, dropEndWhile_append_cons _ _ hblank, dropEndWhile_cons _ hblank,
    dropEndWhile_append_cons _ _ hsemi, dropEndWhile_cons _ hsemi]

/-- What a guarded creation runs begins as the creation does. -/
theorem exists_executed_guarded {s : String} {front r : List Char} {c : Char}
    (h : s.toList = front ++ c :: r) (hhead : front.head? = some 'C') (hblank : isBlank c = false)
    (hc : c ≠ ';') (ifNotExist : Bool) (code : Nat) :
    ∃ t, (executed (guarded s ifNotExist code)).toList = front ++ c :: t := by
  obtain ⟨f, rfl⟩ := List.head?_eq_some_iff.1 hhead
  obtain ⟨t, ht⟩ := exists_bareStatement_append ⟨'C', _, h, by decide⟩ h hblank hc
  cases ifNotExist with
  | true => exact ⟨t, by rw [executed, immediate?_guarded, Option.getD_some, ht]⟩
  | false =>
    have hguarded : (guarded s false code).toList = 'C' :: f ++ c :: (t ++ [';']) := by
      simp [guarded, ht]
    refine ⟨t ++ [';'], ?_⟩
    rw [executed_eq_self (isBlock_eq_false (by simp [hguarded]) (by simp [hguarded])), hguarded]

end SchemaDelta.Sql
