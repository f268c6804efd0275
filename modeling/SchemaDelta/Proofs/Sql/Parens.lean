import SchemaDelta.Proofs.Sql.TextClass
import SchemaDelta.Proofs.Sql.Written
import SchemaDelta.Proofs.Text.Parens

/-!
# Parentheses of statements

The test that guards the removal of an enclosing pair decides whether what is inside is balanced, so
the balanced texts are a class. The other parentheses of a statement are written in pairs, in the
constructors of a phrase: a phrase of balanced texts is balanced.
-/

namespace SchemaDelta

open Text Sql

/-! ## The test for balance -/

/-- The test counts the parentheses that are open. -/
theorem balancedFrom_iff {depth : Nat} {s : List Char} :
    balancedFrom depth s = true ↔
      (∀ t, t <+: s → t.count ')' ≤ depth + t.count '(') ∧ s.count ')' = depth + s.count '(' := by
  -- A front is empty, or it begins as the text does.
  have hfronts (c : Char) (r : List Char) (d : Nat) :
      (∀ t, t <+: c :: r → t.count ')' ≤ d + t.count '(') ↔
        ∀ u, u <+: r → (c :: u).count ')' ≤ d + (c :: u).count '(' := by
    constructor
    · intro h u hu
      exact h (c :: u) (List.cons_prefix_cons.2 ⟨rfl, hu⟩)
    · intro h t ht
      rcases List.prefix_cons_iff.1 ht with rfl | ⟨u, rfl, hu⟩
      · exact Nat.zero_le _
      · exact h u hu
  induction depth, s using balancedFrom.induct with
  | case1 depth => simp [balancedFrom, eq_comm]
  | case2 depth r ih =>
    rw [balancedFrom, hfronts]
    refine Iff.trans ih ?_
    simp [Nat.add_assoc, Nat.add_comm 1]
  | case3 r =>
    -- The front of one character closes what was not opened.
    have hshort : ¬∀ u, u <+: r → (')' :: u).count ')' ≤ 0 + (')' :: u).count '(' := fun h =>
      absurd (h [] (List.nil_prefix ..)) (by decide)
    rw [balancedFrom, hfronts]
    exact iff_of_false Bool.false_ne_true fun h => hshort h.1
  | case4 depth r ih =>
    rw [balancedFrom, hfronts]
    refine Iff.trans ih ?_
    simp [Nat.add_right_comm]
  | case5 depth c r hopen hempty hclose ih =>
    have hc : c ≠ ')' := by
      rintro rfl
      cases depth with
      | zero => exact hempty rfl rfl
      | succ depth => exact hclose depth rfl rfl
    rw [balancedFrom.eq_5 _ _ _ hopen hempty hclose, hfronts]
    refine Iff.trans ih ?_
    simp only [List.count_cons_of_ne hc, List.count_cons_of_ne hopen]

/-- The test from the outside decides balance. -/
theorem balancedFrom_zero_iff {s : List Char} : balancedFrom 0 s = true ↔ Balanced s := by
  rw [balancedFrom_iff]
  simp only [Nat.zero_add]
  exact ⟨fun h => ⟨h.1, h.2⟩, fun h => ⟨h.front, h.total⟩⟩

instance decidableBalanced (s : List Char) : Decidable (Balanced s) :=
  decidable_of_iff (balancedFrom 0 s = true) balancedFrom_zero_iff

/-! ## The class of balanced texts -/

/-- Upper case keeps the parentheses. -/
theorem parens_toUpper (s : String) : parens s.toUpper.toList = parens s.toList := by
  rw [toList_toUpper]
  refine parens_map (fun c => ?_) (fun c hc => ?_) _
  · -- No other character has a parenthesis as its upper case.
    have hopen : c.toUpper = '(' ↔ c = '(' :=
      ⟨fun h => eq_of_toUpper h (by decide), fun h => by rw [h]; decide⟩
    have hclose : c.toUpper = ')' ↔ c = ')' :=
      ⟨fun h => eq_of_toUpper h (by decide), fun h => by rw [h]; decide⟩
    simp only [isParen, hopen, hclose]
  · rcases Bool.or_eq_true_iff.1 hc with h | h
    · rw [of_decide_eq_true h]
      decide
    · rw [of_decide_eq_true h]
      decide

theorem parens_of_isPlainText {s : String} (hs : isPlainText s = true) :
    parens s.toList = [] :=
  parens_eq_nil_iff.2 ⟨fun h => absurd (isPlain_of_mem hs h) (by decide),
    fun h => absurd (isPlain_of_mem hs h) (by decide)⟩

/-- The balanced texts are a class. A pair of parentheses is taken away only from a text that is
balanced without it. -/
theorem textClass_of_balanced : TextClass fun s => Balanced s.toList where
  plain hs := .of_parens_eq_nil (parens_of_isPlainText hs)
  trim {s} hs := by
    rw [toList_trim]
    exact hs.congr (parens_trimChars _)
  upper hs := hs.congr (parens_toUpper _)
  unwrap {s} hs := by
    unfold stripParens
    simp only
    split_ifs with hwrapped
    · rw [String.toList_ofList]
      exact (balancedFrom_zero_iff.1 hwrapped.2.2.2).congr (parens_trimChars _)
    · rw [String.toList_ofList]
      exact hs.congr (parens_trimChars _)

/-! ## Phrases -/

namespace Sql

variable {p : String → Prop} {b : Bool} {s x : String}

/-- Doubling a character that is no parenthesis keeps the parentheses. -/
theorem parens_doubled {q : Char} (hq : isParen q = false) (s : List Char) :
    parens (doubled q s) = parens s := by
  have hpair : parens [q, q] = [] := parens_eq_nil (by simp [hq])
  induction s with
  | nil => rfl
  | cons c s ih =>
    rw [doubled_cons, parens_append, ih]
    change _ = parens ([c] ++ s)
    rw [parens_append]
    congr 1
    split_ifs with hc
    · rw [hpair, hc]
      exact (parens_eq_nil (by simp [hq])).symm
    · rfl

/-- A separator has no parentheses. -/
theorem parens_of_isSeparator {w : String} (hw : isSeparator w = true) : parens w.toList = [] := by
  simp only [isSeparator, Bool.and_eq_true, List.all_eq_true] at hw
  refine parens_eq_nil fun c hc => ?_
  rcases Bool.or_eq_true_iff.1 (hw.1.2 c hc) with h | h
  · rw [of_decide_eq_true h]
    decide
  · simp only [inert, Bool.and_eq_true, decide_eq_true_eq] at h
    simp [isParen, h.1.2, h.2]

theorem parens_of_isWord {w : String} (hw : isWord w = true) : parens w.toList = [] :=
  parens_of_isSeparator (isSeparator_of_isWord hw)

/-- A phrase of balanced texts is balanced. -/
theorem Phrase.balanced (hp : ∀ t, p t → Balanced t.toList) (h : Phrase p b s) :
    Balanced s.toList := by
  have hsep {w : String} (hw : parens w.toList = []) : Balanced w.toList := .of_parens_eq_nil hw
  induction h with
  | word hw => exact hsep (parens_of_isWord hw)
  | star => exact hsep rfl
  | given hs _ => exact hp _ hs
  | @quoted b q s hq hs =>
    have hparen : isParen q = false := by
      rcases hq with rfl | rfl
      · decide
      · decide
    have hnone : parens [q] = [] := parens_eq_nil (by simp [hparen])
    rw [toList_enclosed]
    refine (hp _ hs).congr ?_
    change parens ([q] ++ doubled q _ ++ [q]) = _
    rw [parens_append, parens_append, hnone, parens_doubled hparen, List.nil_append,
      List.append_nil]
  | lead hw _ ih =>
    rw [String.toList_append]
    exact (hsep (parens_of_isWord hw)).append ih
  | trail _ hw ih =>
    rw [String.toList_append]
    exact ih.append (hsep (parens_of_isWord hw))
  | glue _ hw _ ihx ihy =>
    rw [String.toList_append, String.toList_append]
    exact (ihx.append (hsep (parens_of_isSeparator hw))).append ihy
  | paren _ ih => simpa using ih.enclose
  | block _ ih =>
    have hbefore : Balanced "\n\t".toList := by decide
    have hafter : Balanced "\n".toList := by decide
    simpa using ((hbefore.append ih).append hafter).enclose
  | hollow => decide
  | hollowBlock => decide
  | call _ _ ihx ihy => simpa using ihx.append ihy.enclose
  | comment _ ih =>
    have hopen : Balanced "/* ".toList := by decide
    have hclose : Balanced " */".toList := by decide
    rw [commentedInline, String.toList_append, String.toList_append]
    exact (hopen.append ih).append hclose

/-- Semicolons and blank characters at the end do not count. -/
theorem CutPhrase.balanced (hp : ∀ t, p t → Balanced t.toList) (hx : CutPhrase p b x) :
    Balanced x.toList := by
  obtain ⟨tail, hphrase, htail⟩ := hx
  have hnone : parens tail = [] := by
    refine parens_eq_nil fun c hc => ?_
    rcases htail c hc with rfl | hblank
    · decide
    · exact isParen_of_isBlank hblank
  have hall := hphrase.balanced hp
  rw [String.toList_ofList] at hall
  refine hall.congr ?_
  rw [parens_append, hnone, List.append_nil]

/-- A statement of balanced texts is balanced, also as a literal in a block. -/
theorem Written.balanced (hp : ∀ t, p t → Balanced t.toList) (h : Written p b s) :
    Balanced s.toList := by
  cases h with
  | ended hx =>
    rw [String.toList_append]
    exact (hx.balanced hp).append (by decide)
  | @block x hx code =>
    have hbody : Balanced (doubled '\'' x.toList) :=
      (hx.balanced hp).congr (parens_doubled (by decide) _)
    have hcode : Balanced (showNat code).toList :=
      .of_parens_eq_nil (parens_of_isWord (isWord_showNat code))
    rw [Form.fill_ifNotExists]
    simp only [String.toList_append, String.toList_ofList]
    refine .append (.append (.append (.append ?_ hbody) ?_) hcode) ?_
    · decide
    · decide
    · decide

/-! ## Scripts -/

/-- Balanced texts may be joined. -/
theorem balanced_join {sep : String} (hsep : parens sep.toList = []) {ts : List String}
    (h : ∀ t ∈ ts, Balanced t.toList) : Balanced (join sep ts).toList := by
  induction ts with
  | nil => exact .nil
  | cons t ts ih =>
    have ht := h t List.mem_cons_self
    have htail := ih fun u hu => h u (List.mem_cons_of_mem _ hu)
    cases ts with
    | nil =>
      rw [join_singleton]
      exact ht
    | cons u ts =>
      rw [join_cons_cons, String.toList_append, String.toList_append]
      exact (ht.append (.of_parens_eq_nil hsep)).append htail

/-- A statement that is commented out has no other parentheses. -/
theorem balanced_write {u : Fragment} (h : Balanced u.text.toList) : Balanced u.write.toList := by
  have hopen : Balanced "/*\n".toList := by decide
  have hclose : Balanced "\n*/".toList := by decide
  have hdashes : Balanced "-- ".toList := by decide
  unfold Fragment.write commented
  split_ifs
  · exact h
  · rw [String.toList_append, String.toList_append]
    exact (hopen.append h).append hclose
  · rw [String.toList_append]
    exact hdashes.append h

/-- Balanced statements make a balanced script. -/
theorem balanced_statementsText {units : List Fragment} (h : ∀ u ∈ units, Balanced u.text.toList) :
    Balanced (statementsText units).toList := by
  refine balanced_join rfl fun t ht => ?_
  obtain ⟨u, hu, rfl⟩ := List.mem_map.1 ht
  exact balanced_write (h u (List.mem_filter.1 hu).1)

end Sql

end SchemaDelta
