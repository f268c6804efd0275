import Mathlib.Data.List.TakeWhile
import SchemaDelta.Proofs.Sql.Names
import SchemaDelta.Proofs.Text.Ends

/-!
# Identifiers with and without quotes

A name in quotes is an identifier as it stands, and one without quotes is its upper case. Which
characters a name without quotes may have depends on the character set of the database, so that is a
parameter. A name that is not in quotes denotes itself only if it has these characters, all of them
in upper case (`object?_eq_some_iff`).
-/

namespace SchemaDelta.Sql

open Text

/-! ## Reading -/

/-- The characters of names without quotes. -/
structure Charset where
  /-- The character may begin a name. -/
  begins : Char → Bool
  /-- The character may stand inside a name. -/
  continues : Char → Bool
  upper : Char → Char
  continues_of_begins : ∀ {c}, begins c = true → continues c = true
  /-- Quotes and the marks between names end a name. -/
  stops : ∀ c ∈ ['"', '.', '/', '(', ' '], continues c = false

/-- Names are made of letters, digits and three marks, and begin with a letter. -/
def Charset.ascii : Charset where
  begins := Char.isAlpha
  continues c := c.isAlphanum || c = '_' || c = '$' || c = '#'
  upper := Char.toUpper
  continues_of_begins h := by simp [Char.isAlphanum, h]
  stops c hc := by
    simp only [List.mem_cons, List.not_mem_nil, or_false] at hc
    rcases hc with rfl | rfl | rfl | rfl | rfl <;> rfl

/-- An object of the database: its schema and its own identifier. -/
structure ObjectName where
  schema : List Char
  name : List Char
deriving DecidableEq

namespace Charset

variable (C : Charset) (home : List Char)

/-- The identifier of a name without quotes, and what follows it. -/
def word? (s : List Char) : Option (List Char × List Char) :=
  if s.head?.any C.begins then
    some ((s.takeWhile C.continues).map C.upper, s.dropWhile C.continues)
  else none

/-- The identifier at the beginning of a text, and what follows it. -/
def name? (s : List Char) : Option (List Char × List Char) :=
  (readEnclosed? '"' s).or (C.word? s)

/-- The object that a text names at its beginning. Where there is no schema before the name, it is
the current one, which is called `home`. -/
def object? (s : List Char) : Option ObjectName :=
  match C.name? s with
  | some (x, '.' :: r) => (C.name? r).map fun p => ⟨x, p.1⟩
  | some (x, _) => some ⟨home, x⟩
  | none => none

/-- The name denotes itself without quotes. -/
structure Bare (s : List Char) : Prop where
  begins : s.head?.any C.begins = true
  continues : ∀ c ∈ s, C.continues c = true
  upper : ∀ c ∈ s, C.upper c = c

instance decidableBare (s : List Char) : Decidable (C.Bare s) :=
  decidable_of_iff ((s.head?.any C.begins && s.all C.continues && s.all fun c => C.upper c = c) =
    true) <| by
      simp only [Bool.and_eq_true, List.all_eq_true, decide_eq_true_eq, and_assoc]
      exact ⟨fun h => ⟨h.1, h.2.1, h.2.2⟩, fun h => ⟨h.1, h.2, h.3⟩⟩

end Charset

/-! ## Reading shortens a text -/

/-- Doubling makes no text shorter. -/
theorem length_le_doubled (q : Char) (s : List Char) : s.length ≤ (doubled q s).length := by
  induction s with
  | nil => exact Nat.le_refl 0
  | cons c s ih =>
    rw [doubled_cons, List.length_append, List.length_cons]
    split_ifs
    · simp only [List.length_cons, List.length_nil]
      omega
    · simp only [List.length_cons, List.length_nil]
      omega

/-- A text in quotes and what follows it are shorter than the whole by the two quotes. -/
theorem length_readEnclosed? {q : Char} {s x r : List Char}
    (h : readEnclosed? q s = some (x, r)) : x.length + r.length + 2 ≤ s.length := by
  obtain ⟨rfl, -⟩ := readEnclosed?_eq_some_iff.1 h
  have hlen := length_le_doubled q x
  simp only [toList_enclosed, List.length_append, List.length_cons, List.length_nil]
  omega

namespace Charset

variable {C : Charset} {home s t x r n : List Char}

/-- Only a quote begins a name in quotes. -/
theorem name?_eq_word? (h : s.head? ≠ some '"') : C.name? s = C.word? s := by
  have hnone : readEnclosed? '"' s = none := by
    cases s with
    | nil => rfl
    | cons c t =>
      have hc : c ≠ '"' := by simpa using h
      rw [readEnclosed?, if_neg hc]
  rw [name?, hnone, Option.none_or]

/-- A name that no dot follows is one of the current schema. -/
theorem object?_of_name? (h : C.name? s = some (x, r)) (hr : r.head? ≠ some '.') :
    C.object? home s = some ⟨home, x⟩ := by
  rw [object?, h]
  split
  · next heq =>
    obtain ⟨rfl, rfl⟩ := Prod.mk.inj (Option.some.inj heq)
    exact absurd rfl hr
  · next heq =>
    obtain ⟨rfl, rfl⟩ := Prod.mk.inj (Option.some.inj heq)
    rfl
  · next heq => cases heq

/-- What may begin a name goes on with it. -/
theorem head?_of_begins (h : s.head?.any C.begins = true) {d : Char} (hd : C.continues d = false) :
    s.head? ≠ some d := by
  intro hs
  rw [hs, Option.any_some] at h
  rw [C.continues_of_begins h] at hd
  exact absurd hd (by decide)

/-- A name that was read is shorter than the text, or it is a name without quotes. -/
theorem length_name? (h : C.name? s = some (x, r)) :
    x.length + r.length < s.length ∨ C.word? s = some (x, r) ∧ x.length + r.length = s.length := by
  rcases Option.or_eq_some_iff.1 h with hquoted | ⟨-, hword⟩
  · have hlen := length_readEnclosed? hquoted
    exact .inl (by omega)
  · refine .inr ⟨hword, ?_⟩
    unfold word? at hword
    split_ifs at hword
    obtain ⟨rfl, rfl⟩ := Prod.mk.inj (Option.some.inj hword)
    calc ((s.takeWhile C.continues).map C.upper).length + (s.dropWhile C.continues).length
        = (s.takeWhile C.continues ++ s.dropWhile C.continues).length := by
          rw [List.length_append, List.length_map]
      _ = s.length := by rw [List.takeWhile_append_dropWhile]

/-- A name that denotes itself is read back up to a character that does not belong to it. -/
theorem Bare.name?_append (h : C.Bare s) {rest : List Char}
    (hrest : ∀ c ∈ rest.head?, C.continues c = false) : C.name? (s ++ rest) = some (s, rest) := by
  have hhead : (s ++ rest).head?.any C.begins = true := by
    cases s with
    | nil => exact absurd h.begins (by simp)
    | cons c t => exact h.begins
  obtain ⟨htake, hdrop⟩ := span_append (p := C.continues) s hrest
  rw [List.takeWhile_eq_self_iff.2 h.continues] at htake
  rw [List.dropWhile_eq_nil_iff.2 h.continues, List.nil_append] at hdrop
  have hupper : s.map C.upper = s := by
    rw [List.map_congr_left h.upper, List.map_id']
  rw [name?_eq_word? (head?_of_begins hhead (C.stops _ (by simp))), word?, if_pos hhead, htake,
    hdrop, hupper]

/-- An identifier that is as long as the text was read without quotes and without a schema. -/
theorem of_length_le {o : ObjectName} (h : C.object? home s = some o)
    (hlen : s.length ≤ o.name.length) :
    o = ⟨home, s.map C.upper⟩ ∧ s.head?.any C.begins = true ∧ ∀ c ∈ s, C.continues c = true := by
  unfold object? at h
  split at h
  · -- The identifier after a dot is shorter than what stands there.
    next y t hname =>
    obtain ⟨⟨z, u⟩, hz, rfl⟩ := Option.map_eq_some_iff.1 h
    have hfirst : y.length + ('.' :: t).length ≤ s.length := by
      rcases length_name? hname with hlt | ⟨-, heq⟩
      · exact hlt.le
      · exact heq.le
    have hsecond : z.length + u.length ≤ t.length := by
      rcases length_name? hz with hlt | ⟨-, heq⟩
      · exact hlt.le
      · exact heq.le
    rw [List.length_cons] at hfirst
    simp only at hlen
    omega
  · next y t _ hname =>
    obtain rfl := Option.some.inj h
    simp only at hlen
    rcases length_name? hname with hlt | ⟨hword, heq⟩
    · omega
    · have hrest : t = [] := List.eq_nil_of_length_eq_zero (by omega)
      unfold word? at hword
      split_ifs at hword with hbegins
      obtain ⟨rfl, hdrop⟩ := Prod.mk.inj (Option.some.inj hword)
      rw [hrest] at hdrop
      have hall : ∀ c ∈ s, C.continues c = true := List.dropWhile_eq_nil_iff.1 hdrop
      rw [List.takeWhile_eq_self_iff.2 hall]
      exact ⟨rfl, hbegins, hall⟩
  · cases h

/-- A text that is no longer than a name denotes it only if it is the name, and the name denotes
itself without quotes. -/
theorem object?_eq_some_iff {schema : List Char} (h : s = n ∨ s.length < n.length) :
    C.object? home s = some ⟨schema, n⟩ ↔ (s = n ∧ C.Bare n) ∧ home = schema := by
  constructor
  · intro hread
    have hlen : s.length ≤ n.length := by
      rcases h with rfl | hlt
      · exact le_rfl
      · exact hlt.le
    obtain ⟨heq, hbegins, hall⟩ := of_length_le hread hlen
    obtain ⟨hschema, hname⟩ := ObjectName.mk.inj heq
    have hs : s = n := by
      rcases h with hs | hlt
      · exact hs
      · rw [hname, List.length_map] at hlt
        exact absurd hlt (lt_irrefl _)
    subst hs
    have hmap : s.map C.upper = s.map id := by rw [List.map_id, ← hname]
    exact ⟨⟨rfl, hbegins, hall, List.map_inj_left.1 hmap⟩, hschema.symm⟩
  · rintro ⟨⟨rfl, hbare⟩, rfl⟩
    have hname : C.name? (s ++ []) = some (s, []) := hbare.name?_append (by simp)
    rw [List.append_nil] at hname
    exact object?_of_name? hname (by simp)

/-- A name without quotes does not go on beyond the text where no character of a name follows. -/
theorem word?_append {rest : List Char} (hrest : ∀ c ∈ rest.head?, C.continues c = false) :
    C.word? (s ++ rest) = (C.word? s).map fun p => (p.1, p.2 ++ rest) := by
  obtain ⟨htake, hdrop⟩ := span_append (p := C.continues) s hrest
  have hbegins : (s ++ rest).head?.any C.begins = s.head?.any C.begins := by
    cases s with
    | cons c t => rfl
    | nil =>
      rw [List.nil_append, List.head?_nil, Option.any_none, Bool.eq_false_iff]
      intro h
      obtain ⟨c, hc, hcb⟩ := (Option.any_eq_true ..).1 h
      exact absurd (C.continues_of_begins hcb) (by rw [hrest c hc]; decide)
  rw [word?, word?, htake, hdrop, hbegins]
  split_ifs
  · rfl
  · rfl

/-- What begins with a parenthesis or a blank after a name does not belong to it. -/
theorem object?_append (hquote : '"' ∉ s) (hdot : '.' ∉ s) {rest : List Char}
    (hrest : ∀ c ∈ rest.head?, c = '(' ∨ c = ' ') :
    C.object? home (s ++ rest) = C.object? home s := by
  have hstop : ∀ c ∈ rest.head?, C.continues c = false := by
    intro c hc
    rcases hrest c hc with rfl | rfl
    · exact C.stops _ (by simp)
    · exact C.stops _ (by simp)
  have hhead {d : Char} (hd : d ∉ s) (hne : d ≠ '(' ∧ d ≠ ' ') {u : List Char} (hu : u ⊆ s) :
      (u ++ rest).head? ≠ some d := by
    intro h
    rw [List.head?_append] at h
    rcases Option.or_eq_some_iff.1 h with h | ⟨-, h⟩
    · exact hd (hu (List.mem_of_mem_head? h))
    · rcases hrest d h with rfl | rfl
      · exact hne.1 rfl
      · exact hne.2 rfl
  have hnameS : C.name? s = C.word? s := name?_eq_word? fun h => hquote (List.mem_of_mem_head? h)
  have hnameRest : C.name? (s ++ rest) = (C.word? s).map fun p => (p.1, p.2 ++ rest) := by
    rw [name?_eq_word? (hhead hquote (by decide) (List.Subset.refl s)), word?_append hstop]
  cases hword : C.word? s with
  | none =>
    rw [hword] at hnameS hnameRest
    rw [object?, object?, hnameS, hnameRest]
    rfl
  | some p =>
    obtain ⟨x, r⟩ := p
    rw [hword] at hnameS hnameRest
    -- What is left of the text after the name has no dot.
    have hr : r ⊆ s := by
      unfold word? at hword
      split_ifs at hword
      obtain ⟨-, rfl⟩ := Prod.mk.inj (Option.some.inj hword)
      exact (List.dropWhile_suffix _).subset
    rw [object?_of_name? hnameS fun h => hdot (hr (List.mem_of_mem_head? h)),
      object?_of_name? hnameRest (hhead hdot (by decide) hr)]

/-- A name in quotes is read with its schema. -/
theorem object?_qualified (name : String) (schema : Option String) {rest : List Char}
    (hquote : rest.head? ≠ some '"') (hdot : rest.head? ≠ some '.') :
    C.object? home ((qualified name schema).toList ++ rest) =
      some ⟨((schema.filter fun s => !blank s).map fun s => trimChars s.toList).getD home,
        trimChars name.toList⟩ := by
  have hown : C.name? ((quote name).toList ++ rest) = some (trimChars name.toList, rest) := by
    rw [Charset.name?, quote, readEnclosed?_enclosed _ hquote, Option.some_or]
  unfold qualified
  cases schema.filter fun s => !blank s with
  | none => exact object?_of_name? hown hdot
  | some s =>
    have hdotted : (quote s ++ "." ++ quote name).toList ++ rest =
        (enclosed '"' (trimChars s.toList)).toList ++ '.' :: ((quote name).toList ++ rest) := by
      simp [quote, String.toList_append]
    dsimp only
    rw [hdotted, object?, Charset.name?, readEnclosed?_enclosed _ (by simp), Option.some_or]
    simp only [hown, Option.map_some, Option.getD_some]

end Charset

end SchemaDelta.Sql
