import SchemaDelta.Proofs.Sql.Forms
import SchemaDelta.Proofs.Sql.Parens
import SchemaDelta.Table.Clause

/-!
# The expression of a check constraint

A check is written without the parentheses that enclose all of its expression. SQL counts only the
parentheses outside its literals, and the clause counts all of them. `Check.keeps_iff` says where
the constraint still checks the expression that was given.
-/

namespace SchemaDelta

open Sql Text

/-! ## Parentheses outside literals -/

/-- The text without what stands in its literals; their quotes stay. Two quotes within a literal end
it and begin the next. -/
def unquotedFrom : Bool → List Char → List Char
  | _, [] => []
  | inside, '\'' :: r => '\'' :: unquotedFrom (!inside) r
  | true, _ :: r => unquotedFrom true r
  | false, c :: r => c :: unquotedFrom false r

/-- The text without what stands in its literals. -/
def unquoted (s : List Char) : List Char :=
  unquotedFrom false s

theorem unquotedFrom_cons {c : Char} (hc : c ≠ '\'') (inside : Bool) (r : List Char) :
    unquotedFrom inside (c :: r) =
      if inside then unquotedFrom true r else c :: unquotedFrom false r := by
  cases inside with
  | true => rw [unquotedFrom.eq_3 _ _ hc, if_pos rfl]
  | false => rw [unquotedFrom.eq_4 _ _ hc, if_neg Bool.false_ne_true]

theorem mem_of_mem_unquotedFrom {inside : Bool} {s : List Char} {c : Char}
    (h : c ∈ unquotedFrom inside s) : c ∈ s := by
  fun_induction unquotedFrom inside s with grind

/-- A text is read on from inside a literal or from outside. -/
theorem exists_unquotedFrom_append (inside : Bool) (x : List Char) :
    ∃ inside', ∀ y, unquotedFrom inside (x ++ y) =
      unquotedFrom inside x ++ unquotedFrom inside' y := by
  induction x generalizing inside with
  | nil => exact ⟨inside, fun _ => rfl⟩
  | cons c x ih =>
    by_cases hc : c = '\''
    · subst hc
      obtain ⟨inside', h⟩ := ih (!inside)
      exact ⟨inside', fun y => by simp [unquotedFrom, h]⟩
    · obtain ⟨inside', h⟩ := ih inside
      refine ⟨inside', fun y => ?_⟩
      rw [List.cons_append, unquotedFrom_cons hc, unquotedFrom_cons hc]
      cases inside <;> simp [h]

/-- A text without quotes leaves the reader where it is. -/
theorem unquoted_append_of_not_mem {x : List Char} (hx : '\'' ∉ x) (y : List Char) :
    unquoted (x ++ y) = x ++ unquoted y := by
  induction x with
  | nil => rfl
  | cons c x ih =>
    simp only [List.mem_cons, not_or] at hx
    rw [unquoted, List.cons_append, unquotedFrom_cons (Ne.symm hx.1), if_neg Bool.false_ne_true,
      List.cons_append]
    exact congrArg (c :: ·) (ih hx.2)

/-- Blank characters around a text count neither inside its literals nor outside. -/
theorem parens_unquoted_trimChars (s : List Char) :
    parens (unquoted (trimChars s)) = parens (unquoted s) := by
  obtain ⟨front, back, hs, hends⟩ := cutEnds_trimChars s
  have hquote : '\'' ∉ front := fun hmem =>
    absurd (hends _ (List.mem_append_left _ hmem)) (by decide)
  have hfront : parens front = [] := parens_eq_nil fun c hc =>
    isParen_of_isBlank (hends c (List.mem_append_left _ hc))
  obtain ⟨inside, happend⟩ := exists_unquotedFrom_append false (trimChars s)
  have hback : parens (unquotedFrom inside back) = [] := parens_eq_nil fun c hc =>
    isParen_of_isBlank (hends c (List.mem_append_right _ (mem_of_mem_unquotedFrom hc)))
  conv_rhs => rw [hs, List.append_assoc, unquoted_append_of_not_mem hquote, unquoted, happend]
  simp only [parens_append, hfront, hback, List.nil_append, List.append_nil]
  rfl

/-! ## The pair around a text -/

/-- The first character is an opening parenthesis, and the last one closes it: before the end of the
text there is always one open. -/
structure Enclosed (s : List Char) : Prop where
  opens : s.head? = some '('
  closes : s.getLast? = some ')'
  inside : ∀ t, t <+: s → t ≠ [] → t ≠ s → t.count ')' < t.count '('
  total : s.count ')' = s.count '('

/-- A pair around a balanced text belongs together. -/
theorem Enclosed.of_balanced {x : List Char} (hx : Balanced x) : Enclosed ('(' :: x ++ [')']) where
  opens := rfl
  closes := List.getLast?_concat
  inside t ht hne hall := by
    have hfront : t <+: '(' :: x := (List.prefix_concat_iff.1 ht).resolve_left hall
    obtain ⟨u, rfl, hu⟩ := (List.prefix_cons_iff.1 hfront).resolve_left hne
    rw [List.count_cons_self, List.count_cons_of_ne (by decide)]
    exact Nat.lt_succ_of_le (hx.front u hu)
  total := hx.enclose.total

/-- The quotes of a text tell whether a pair around it is read as such. -/
theorem unquoted_pair {inner : List Char} (h : Balanced (unquoted ('(' :: inner ++ [')'])))
    (hinner : Balanced (unquoted inner)) :
    unquoted ('(' :: inner ++ [')']) = '(' :: unquoted inner ++ [')'] := by
  obtain ⟨inside, happend⟩ := exists_unquotedFrom_append false inner
  have htext : unquoted ('(' :: inner ++ [')']) =
      '(' :: unquoted inner ++ unquotedFrom inside [')'] := by
    rw [List.cons_append, unquoted, unquotedFrom_cons (by decide), if_neg Bool.false_ne_true,
      happend]
    rfl
  cases inside with
  | false => rw [htext]; rfl
  | true =>
    -- Within a literal the last parenthesis would not count, so one would stay open.
    have hopen : unquoted ('(' :: inner ++ [')']) = '(' :: unquoted inner := by
      rw [htext]
      exact List.append_nil _
    have htotal := h.total
    rw [hopen, List.count_cons_self, List.count_cons_of_ne (by decide), hinner.total] at htotal
    omega

/-! ## The removal of a pair -/

/-- A text in a pair of parentheses is known by its ends. -/
theorem eq_pair_iff {s inner : List Char} :
    s = '(' :: inner ++ [')'] ↔
      2 ≤ s.length ∧ s.head? = some '(' ∧ s.getLast? = some ')' ∧ (s.drop 1).dropLast = inner := by
  constructor
  · rintro rfl
    refine ⟨by simp, rfl, List.getLast?_concat, ?_⟩
    rw [List.cons_append, List.drop_succ_cons, List.drop_zero, List.dropLast_concat]
  · rintro ⟨hlength, hhead, hlast, rfl⟩
    obtain ⟨r, rfl⟩ := List.head?_eq_some_iff.1 hhead
    have hr : r ≠ [] := by
      rintro rfl
      exact absurd hlength (by decide)
    have hend : r.getLast? = some ')' := by rwa [List.getLast?_cons_of_ne_nil hr] at hlast
    obtain ⟨inner, rfl⟩ := List.getLast?_eq_some_iff.1 hend
    simp

/-- A pair around a balanced text is taken away, and any other expression is only trimmed. -/
theorem stripParens_cases (expression : String) :
    (∃ inner, (trim expression).toList = '(' :: inner ++ [')'] ∧ Balanced inner ∧
      (stripParens expression).toList = trimChars inner) ∨
    (∀ inner, (trim expression).toList = '(' :: inner ++ [')'] → ¬Balanced inner) ∧
      stripParens expression = trim expression := by
  unfold stripParens
  simp only [toList_trim]
  split_ifs with h
  · obtain ⟨hlength, hhead, hlast, hbalanced⟩ := h
    exact .inl ⟨_, eq_pair_iff.2 ⟨hlength, hhead, hlast, rfl⟩, balancedFrom_zero_iff.1 hbalanced,
      by rw [String.toList_ofList]⟩
  · refine .inr ⟨fun inner hpair hinner => ?_, rfl⟩
    obtain ⟨hlength, hhead, hlast, rfl⟩ := eq_pair_iff.1 hpair
    exact h ⟨hlength, hhead, hlast, balancedFrom_zero_iff.2 hinner⟩

/-! ## The constraint -/

namespace Check

/-- The constraint checks its expression, or what stands in the pair around all of it, and what it
checks is balanced. -/
structure Keeps (c : Check) (checked : String) : Prop where
  text : c.fragment.text =
    framed "CONSTRAINT " (quotedName c.name) " " ++ "CHECK (" ++ checked ++ ")"
  same : checked = trim c.expression ∨
    ∃ inner, (trim c.expression).toList = '(' :: inner ++ [')'] ∧
      Enclosed (unquoted (trim c.expression).toList) ∧ checked.toList = trimChars inner
  balanced : Balanced (unquoted checked.toList)

/-- The expression stands in a pair that belongs together only if the literals are counted too. -/
def Misread (c : Check) : Prop :=
  ∃ inner, (trim c.expression).toList = '(' :: inner ++ [')'] ∧ Balanced inner ∧
    ¬Balanced (unquoted inner)

theorem text_fragment (c : Check) :
    c.fragment.text =
      framed "CONSTRAINT " (quotedName c.name) " " ++ "CHECK (" ++ stripParens c.expression ++
        ")" := by
  rw [fragment, Form.fill_checkConstraint]

/-- What is checked can be read off the constraint. -/
theorem Keeps.eq_stripParens {c : Check} {checked : String} (h : c.Keeps checked) :
    checked = stripParens c.expression := by
  have htext := h.text
  rw [text_fragment, ← String.toList_inj] at htext
  simpa [String.toList_inj, eq_comm] using htext

/-- **A constraint keeps the meaning of an expression** that is balanced outside its literals,
unless a pair is taken away that belongs together only if the literals are counted too. -/
theorem keeps_iff {c : Check} (h : Balanced (unquoted c.expression.toList)) :
    (∃ checked, c.Keeps checked) ↔ ¬c.Misread := by
  have htrim : Balanced (unquoted (trim c.expression).toList) := by
    rw [toList_trim]
    exact h.congr (parens_unquoted_trimChars _)
  constructor
  · rintro ⟨checked, hkeeps⟩ ⟨inner, hpair, hinner, hliterals⟩
    rcases stripParens_cases c.expression with ⟨inner', hpair', -, hstrip⟩ | ⟨hnot, -⟩
    · obtain rfl : inner = inner' := by
        rw [hpair] at hpair'
        simpa using hpair'
      have hbalanced := hkeeps.balanced
      rw [hkeeps.eq_stripParens, hstrip] at hbalanced
      exact hliterals (hbalanced.congr (parens_unquoted_trimChars inner).symm)
    · exact hnot inner hpair hinner
  · intro hread
    rcases stripParens_cases c.expression with ⟨inner, hpair, hinner, hstrip⟩ | ⟨-, hstrip⟩
    · have hliterals : Balanced (unquoted inner) := by
        by_contra hno
        exact hread ⟨inner, hpair, hinner, hno⟩
      refine ⟨_, c.text_fragment, .inr ⟨inner, hpair, ?_, hstrip⟩, ?_⟩
      · rw [hpair] at htrim ⊢
        rw [unquoted_pair htrim hliterals]
        exact .of_balanced hliterals
      · rw [hstrip]
        exact hliterals.congr (parens_unquoted_trimChars inner)
    · exact ⟨_, c.text_fragment, .inl hstrip, by rwa [hstrip]⟩

/-- A literal with a pair of its own does no harm. -/
theorem keeps_call_in_literal :
    Balanced (unquoted " (a IN ('x', 'y()')) ".toList) ∧
      ∃ checked, Keeps { expression := " (a IN ('x', 'y()')) " } checked := by
  refine ⟨by decide, (keeps_iff (c := { expression := " (a IN ('x', 'y()')) " }) (by decide)).2 ?_⟩
  rintro ⟨inner, hpair, -, hliterals⟩
  have htrim : (trim " (a IN ('x', 'y()')) ").toList = "(a IN ('x', 'y()'))".toList := by decide
  obtain rfl : "a IN ('x', 'y()')".toList = inner := by
    rw [htrim] at hpair
    exact (List.append_inj' (List.cons.inj hpair).2 rfl).1
  exact hliterals (by decide)

/-- Two groups are torn apart where the literals in them hold a parenthesis each. -/
theorem not_keeps_torn_groups :
    Balanced (unquoted "(a = '(') OR (b = ')')".toList) ∧
      ¬∃ checked, Keeps { expression := "(a = '(') OR (b = ')')" } checked := by
  refine ⟨by decide, ?_⟩
  rintro ⟨checked, h⟩
  have hstrip : stripParens "(a = '(') OR (b = ')')" = "a = '(') OR (b = ')'" := by decide
  have hbalanced := h.balanced
  rw [h.eq_stripParens, hstrip] at hbalanced
  exact absurd hbalanced (by decide)

end Check

end SchemaDelta
