import Mathlib.Data.List.Basic
import SchemaDelta.Sql.Name
import SchemaDelta.Text.Pieces

/-!
# Reading names in a statement

A quoted name is read back from the text that holds it, up to its closing quote and no further, and
nothing but a quoted name is read as one (`readEnclosed?_eq_some_iff`, `readDotted?_eq_some_iff`).
So the name of a table tells one table from another, whatever follows it.
-/

namespace SchemaDelta.Sql

open Text

/-- What follows the given front of a text. -/
def after? (front : String) (s : List Char) : Option (List Char) :=
  s.dropPrefix? front.toList

/-- The quoted identifier at the beginning of a text, and what follows it. -/
def identifier? (s : List Char) : Option (String × List Char) :=
  (readEnclosed? '"' s).map fun p => (String.ofList p.1, p.2)

@[simp] theorem after?_append (front : String) (s : List Char) :
    after? front (front.toList ++ s) = some s :=
  List.dropPrefix?_append_of_beq s BEq.rfl

theorem after?_eq_some_iff {front : String} {s r : List Char} :
    after? front s = some r ↔ s = front.toList ++ r := by
  simp [after?, List.dropPrefix?_eq_some_iff]

/-! ## What is read is what is written -/

/-- A body is read up to the first quote that is not doubled, and no other quote follows it. -/
theorem readBody?_eq_some_iff {q : Char} {s x r : List Char} :
    readBody? q s = some (x, r) ↔ s = doubled q x ++ q :: r ∧ r.head? ≠ some q := by
  constructor
  · intro h
    -- A character in front of a body stands as it is, or doubled.
    have hcons {c : Char} {t y u : List Char}
        (ih : ∀ {y u}, readBody? q t = some (y, u) → t = doubled q y ++ q :: u ∧ u.head? ≠ some q)
        (ht : ((readBody? q t).map fun p => (c :: p.1, p.2)) = some (y, u)) :
        (if c = q then [q, q] else [c]) ++ t = doubled q y ++ q :: u ∧ u.head? ≠ some q := by
      obtain ⟨⟨z, v⟩, hz, heq⟩ := Option.map_eq_some_iff.1 ht
      obtain ⟨rfl, rfl⟩ := Prod.mk.inj heq
      obtain ⟨rfl, hv⟩ := ih hz
      exact ⟨by rw [doubled_cons, List.append_assoc], hv⟩
    induction s using readBody?.induct q generalizing x r with
    | case1 => cases h
    | case2 =>
      rw [readBody?, if_pos rfl] at h
      obtain ⟨rfl, rfl⟩ := Prod.mk.inj (Option.some.inj h)
      exact ⟨rfl, by simp⟩
    | case3 c hc =>
      rw [readBody?, if_neg hc] at h
      cases h
    | case4 t ih =>
      rw [readBody?, if_pos rfl, if_pos rfl] at h
      simpa using hcons ih h
    | case5 d t hd =>
      rw [readBody?, if_pos rfl, if_neg hd] at h
      obtain ⟨rfl, rfl⟩ := Prod.mk.inj (Option.some.inj h)
      exact ⟨rfl, by simpa using hd⟩
    | case6 c d t hc ih =>
      rw [readBody?, if_neg hc] at h
      simpa [hc] using hcons ih h
  · rintro ⟨rfl, hr⟩
    exact readBody?_doubled q x hr

/-- What is read from quotes is what is written in them. -/
theorem readEnclosed?_eq_some_iff {q : Char} {s x r : List Char} :
    readEnclosed? q s = some (x, r) ↔ s = (enclosed q x).toList ++ r ∧ r.head? ≠ some q := by
  rw [toList_enclosed]
  cases s with
  | nil => simp [readEnclosed?]
  | cons c s =>
    rw [readEnclosed?]
    by_cases hc : c = q
    · rw [if_pos hc, readBody?_eq_some_iff, hc]
      simp
    · rw [if_neg hc]
      simp [hc]

/-- A text is read back from between its quotes. -/
theorem readEnclosed?_enclosed {q : Char} (s : List Char) {rest : List Char}
    (h : rest.head? ≠ some q) :
    readEnclosed? q ((enclosed q s).toList ++ rest) = some (s, rest) :=
  readEnclosed?_eq_some_iff.2 ⟨rfl, h⟩

/-- A name is read back from between its quotes, trimmed. -/
theorem identifier?_quote (name : String) {rest : List Char} (h : rest.head? ≠ some '"') :
    identifier? ((quote name).toList ++ rest) = some (trim name, rest) := by
  rw [identifier?, quote, readEnclosed?_enclosed _ h]
  rfl

/-- Identifiers in quotes, with dots between them. -/
def dotted (ids : List (List Char)) : String :=
  join "." (ids.map (enclosed '"'))

theorem toList_dotted_cons (x y : List Char) (ids : List (List Char)) (r : List Char) :
    (dotted (x :: y :: ids)).toList ++ r =
      (enclosed '"' x).toList ++ '.' :: ((dotted (y :: ids)).toList ++ r) := by
  rw [dotted, List.map_cons, List.map_cons, join_cons_cons, ← List.map_cons]
  simp [dotted, String.toList_append]

/-- What is read as identifiers is what is written so, and no dot follows the last of them. -/
theorem readDotted?_eq_some_iff {n : Nat} {s r : List Char} {ids : List (List Char)} :
    readDotted? n s = some (ids, r) ↔
      (ids ≠ [] ∧ ids.length ≤ n) ∧ s = (dotted ids).toList ++ r ∧
        r.head? ≠ some '"' ∧ r.head? ≠ some '.' := by
  induction n generalizing s ids with
  | zero =>
    have hlen : ¬(ids ≠ [] ∧ ids.length ≤ 0) := by simp
    exact iff_of_false (by simp [readDotted?]) fun h => hlen h.1
  | succ n ih =>
    rw [readDotted?]
    constructor
    · intro h
      split at h
      · next x t hx =>
        obtain ⟨⟨l, u⟩, hl, heq⟩ := Option.map_eq_some_iff.1 h
        obtain ⟨rfl, rfl⟩ := Prod.mk.inj heq
        obtain ⟨⟨hne, hlen⟩, rfl, hend⟩ := ih.1 hl
        obtain ⟨rfl, -⟩ := readEnclosed?_eq_some_iff.1 hx
        obtain ⟨y, ids, rfl⟩ := List.exists_cons_of_ne_nil hne
        exact ⟨⟨by simp, Nat.succ_le_succ hlen⟩, (toList_dotted_cons x y ids _).symm, hend⟩
      · next x t hdot hx =>
        obtain ⟨rfl, rfl⟩ := Prod.mk.inj (Option.some.inj h)
        obtain ⟨rfl, hquote⟩ := readEnclosed?_eq_some_iff.1 hx
        refine ⟨⟨by simp, by simp⟩, by simp [dotted, join_singleton], hquote, fun hr => ?_⟩
        obtain ⟨u, rfl⟩ := List.head?_eq_some_iff.1 hr
        exact hdot u rfl
      · cases h
    · rintro ⟨⟨hne, hlen⟩, rfl, hquote, hdot⟩
      obtain ⟨x, ids, rfl⟩ := List.exists_cons_of_ne_nil hne
      cases ids with
      | nil =>
        have hx : readEnclosed? '"' ((dotted [x]).toList ++ r) = some (x, r) :=
          readEnclosed?_eq_some_iff.2 ⟨by simp [dotted, join_singleton], hquote⟩
        rw [hx]
        split
        · next heq =>
          obtain ⟨rfl, rfl⟩ := Prod.mk.inj (Option.some.inj heq)
          exact absurd rfl hdot
        · next heq =>
          obtain ⟨rfl, rfl⟩ := Prod.mk.inj (Option.some.inj heq)
          rfl
        · next heq => cases heq
      | cons y ids =>
        have hrest : readDotted? n ((dotted (y :: ids)).toList ++ r) = some (y :: ids, r) :=
          ih.2 ⟨⟨by simp, Nat.le_of_succ_le_succ hlen⟩, rfl, hquote, hdot⟩
        have hx := readEnclosed?_eq_some_iff.2
          ⟨toList_dotted_cons x y ids r, show ('.' :: _).head? ≠ some '"' by simp⟩
        rw [hx]
        simp only [hrest, Option.map_some]

/-! ## Qualified names -/

/-- The identifiers of a qualified name: that of the schema, if there is one, and its own. -/
def identifiers (name : String) (schema : Option String) : List (List Char) :=
  ((schema.filter fun s => !blank s).map fun s => trimChars s.toList).toList ++
    [trimChars name.toList]

/-- The schema is trimmed, unless it is blank, and so is the name. -/
theorem identifiers_eq (name : String) (schema : Option String) :
    identifiers name schema =
      ((schema.bind trimmed?).toList ++ [trim name]).map String.toList := by
  have hschema : schema.bind trimmed? = (schema.filter fun s => !blank s).map trim := by
    cases schema with
    | none => rfl
    | some s =>
      rw [Option.bind_some, trimmed?, Option.filter_some]
      cases blank s <;> rfl
  rw [identifiers, hschema]
  cases schema.filter fun s => !blank s with
  | none => simp
  | some s => simp

/-- A qualified name begins and ends with a quote. -/
theorem exists_toList_qualified (name : String) (schema : Option String) :
    ∃ r, (qualified name schema).toList = '"' :: (r ++ ['"']) := by
  unfold qualified quote
  cases schema.filter fun s => !blank s with
  | none => exact ⟨doubled '"' (trimChars name.toList), by simp⟩
  | some s =>
    refine ⟨doubled '"' (trimChars s.toList) ++
      ('"' :: '.' :: '"' :: doubled '"' (trimChars name.toList)), ?_⟩
    simp [String.toList_append]

/-- A qualified name is its identifiers in quotes. -/
theorem qualified_eq_dotted (name : String) (schema : Option String) :
    qualified name schema = dotted (identifiers name schema) := by
  unfold qualified identifiers
  cases schema.filter fun s => !blank s with
  | none => simp [dotted, join_singleton, quote]
  | some s =>
    have hjoin := join_cons_cons "." (quote s) (quote name) []
    rw [join_singleton] at hjoin
    exact hjoin.symm

/-- A qualified name is read back as its identifiers. -/
theorem readDotted?_qualified (name : String) (schema : Option String) {rest : List Char}
    (hquote : rest.head? ≠ some '"') (hdot : rest.head? ≠ some '.') {n : Nat} (hn : 2 ≤ n) :
    readDotted? n ((qualified name schema).toList ++ rest) =
      some (identifiers name schema, rest) := by
  have hlen : (identifiers name schema).length ≤ 2 := by
    unfold identifiers
    cases schema.filter fun s => !blank s <;> simp
  have hne : identifiers name schema ≠ [] := by simp [identifiers]
  rw [qualified_eq_dotted]
  exact readDotted?_eq_some_iff.2 ⟨⟨hne, Nat.le_trans hlen hn⟩, rfl, hquote, hdot⟩

section

variable {name other : String} {schema otherSchema : Option String} {r s : List Char}

/-- Two texts that begin with a qualified name agree only if its identifiers do, and what follows
them. -/
theorem identifiers_eq_of_append (hr : r.head? ≠ some '"' ∧ r.head? ≠ some '.')
    (hs : s.head? ≠ some '"' ∧ s.head? ≠ some '.')
    (h : (qualified name schema).toList ++ r = (qualified other otherSchema).toList ++ s) :
    identifiers name schema = identifiers other otherSchema ∧ r = s := by
  have hread := readDotted?_qualified name schema hr.1 hr.2 (Nat.le_refl 2)
  rw [h, readDotted?_qualified other otherSchema hs.1 hs.2 (Nat.le_refl 2)] at hread
  obtain ⟨hids, hrest⟩ := Prod.mk.inj (Option.some.inj hread)
  exact ⟨hids.symm, hrest.symm⟩

/-- Two texts that begin with a qualified name and a space agree only if their names do. -/
theorem qualified_eq_of_append
    (h : (qualified name schema).toList ++ ' ' :: r =
      (qualified other otherSchema).toList ++ ' ' :: s) :
    qualified name schema = qualified other otherSchema := by
  obtain ⟨hids, -⟩ := identifiers_eq_of_append (by simp) (by simp) h
  rw [qualified_eq_dotted, qualified_eq_dotted, hids]

/-- Two qualified names are alike only if they have the same schema and the same name. -/
theorem qualified_eq_iff :
    qualified name schema = qualified other otherSchema ↔
      trim name = trim other ∧ schema.bind trimmed? = otherSchema.bind trimmed? := by
  have hids : qualified name schema = qualified other otherSchema ↔
      identifiers name schema = identifiers other otherSchema := by
    refine ⟨fun h => ?_, fun h => ?_⟩
    · exact (identifiers_eq_of_append (r := []) (s := []) (by simp) (by simp) (by rw [h])).1
    · rw [qualified_eq_dotted, qualified_eq_dotted, h]
  rw [hids, identifiers_eq, identifiers_eq,
    (List.map_injective_iff.2 fun _ _ => String.toList_inj.1).eq_iff]
  constructor
  · intro h
    obtain ⟨hschema, hname⟩ := List.append_inj' h rfl
    exact ⟨(List.cons.inj hname).1, by simpa using congrArg List.head? hschema⟩
  · rintro ⟨hname, hschema⟩
    rw [hname, hschema]

end

/-! ## Names and literals -/

/-- **What is written in quotes is read back**, with any text behind it that does not go on with
it: a qualified name as the identifiers of its schema and its own, and a literal as its text. So a
qualified name tells for which name and which schema it was written. -/
theorem quoted_reads_back :
    (∀ (name : String) (schema : Option String) (rest : List Char), rest.head? ≠ some '"' →
      rest.head? ≠ some '.' → ∀ n, 2 ≤ n →
        readDotted? n ((qualified name schema).toList ++ rest) =
          some (((schema.bind trimmed?).toList ++ [trim name]).map String.toList, rest)) ∧
      (∀ (name other : String) (schema otherSchema : Option String),
        qualified name schema = qualified other otherSchema ↔
          trim name = trim other ∧ schema.bind trimmed? = otherSchema.bind trimmed?) ∧
      ∀ (text : String) (rest : List Char), rest.head? ≠ some '\'' →
        readEnclosed? '\'' ((literal text).toList ++ rest) = some (text.toList, rest) := by
  refine ⟨fun name schema rest hquote hdot n hn => ?_, fun _ _ _ _ => qualified_eq_iff,
    fun text rest hquote => ?_⟩
  · rw [← identifiers_eq]
    exact readDotted?_qualified name schema hquote hdot hn
  · exact readEnclosed?_enclosed _ hquote

/-- A name is one name though it holds marks that look like the end of a schema, and so is an empty
name behind a schema that is made of quotes. -/
theorem quoted_reads_back_imitated :
    readDotted? 3 ((qualified " a\".\"b" (some "\t")).toList ++ " (".toList) =
        some (["a\".\"b".toList], " (".toList) ∧
      readDotted? 3 ((qualified "" (some "\"\" ")).toList ++ [';']) =
        some (["\"\"".toList, []], [';']) ∧
      readEnclosed? '\'' ((literal "it's '").toList ++ [';']) = some ("it's '".toList, [';']) := by
  obtain ⟨hname, -, hliteral⟩ := quoted_reads_back
  exact ⟨hname _ _ _ (by decide) (by decide) 3 (by decide),
    hname _ _ _ (by decide) (by decide) 3 (by decide), hliteral _ _ (by decide)⟩

end SchemaDelta.Sql
