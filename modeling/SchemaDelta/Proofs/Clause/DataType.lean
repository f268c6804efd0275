import SchemaDelta.Proofs.Model.Texts
import SchemaDelta.Proofs.Sql.Lists

/-!
# Type clauses are phrases

The name of a type is a text of the document or one of the native names; the qualifiers after it are
numbers and fixed words.
-/

namespace SchemaDelta

open Sql Text

variable {p : String → Prop} {b : Bool}

namespace DataType

/-- A number in parentheses may follow. -/
theorem phrase_parenthesized {x : String} (hx : Phrase p b x) (n : Option Nat) :
    Phrase p b (x ++ parenthesized n) := by
  cases n with
  | none =>
    rw [parenthesized, String.append_empty]
    exact hx
  | some n =>
    have h := Phrase.call hx (.word (isWord_showNat n))
    exact h.of_toList (by simp [parenthesized])

/-- Two arguments in parentheses may follow. -/
theorem phrase_pair {x y sep z : String} (hx : Phrase p b x) (hy : Phrase p b y)
    (hsep : isSeparator sep = true) (hz : Phrase p b z) :
    Phrase p b (x ++ "(" ++ y ++ sep ++ z ++ ")") := by
  have h := Phrase.call hx (.glue hy hsep hz)
  exact h.of_toList (by simp)

/-- The precision of a number is a phrase. -/
theorem phrase_numberPrecision (precision : Option Nat) :
    Phrase p b (numberPrecision precision) := by
  unfold numberPrecision
  split
  · exact .word (isWord_showNat _)
  · exact .star

/-- A time zone may follow. -/
theorem phrase_timeZone {x : String} (hx : Phrase p b x) (q : Qualifiers) :
    Phrase p b (x ++ timeZone q) := by
  unfold timeZone
  split_ifs
  · exact .trail hx (by decide)
  · exact .trail hx (by decide)
  · rwa [String.append_empty]

/-- The clause of a type without length is a phrase if its name is. -/
theorem phrase_temporalClause {t : String} (ht : Phrase p b t) (q : Qualifiers) :
    Phrase p b (temporalClause t q) := by
  unfold temporalClause
  split
  · exact phrase_timeZone (phrase_parenthesized (.word (by decide)) _) _
  · exact .trail (phrase_parenthesized (.word (by decide)) _) (by decide)
  · exact phrase_parenthesized (.trail (phrase_parenthesized (.word (by decide)) _) (by decide)) _
  · exact ht

/-- The clause of a number is a phrase if its name is. -/
theorem phrase_numericClause {t : String} (ht : Phrase p b t) (q : Qualifiers) :
    Phrase p b (numericClause t q) := by
  unfold numericClause
  split_ifs
  · split
    · exact ht
    · exact phrase_pair ht (phrase_numberPrecision _) (by decide) (.word (isWord_showNat _))
    · exact .call ht (phrase_numberPrecision _)
  · exact phrase_parenthesized ht _
  · exact phrase_temporalClause ht _

/-- The keyword of a unit is a word. -/
theorem isWord_keyword (u : LengthUnit) : isWord u.keyword = true := by
  cases u <;> decide

/-- A type clause is a phrase if the name of the type is. -/
theorem phrase_clause {typeName : String} (ht : Phrase p b (trim typeName)) (q : Qualifiers) :
    Phrase p b (clause typeName q) := by
  unfold clause
  simp only
  split
  · split
    · exact ht
    · split
      · exact phrase_pair ht (.word (isWord_showNat _)) (by decide) (.word (isWord_keyword _))
      · exact .call ht (.word (isWord_showNat _))
    · exact .call ht (.word (isWord_showNat _))
  · exact phrase_numericClause ht q

/-- A type without a name has an empty clause. -/
theorem clause_of_trim_eq_empty {typeName : String} (ht : trim typeName = "") (q : Qualifiers) :
    clause typeName q = "" := by
  unfold clause
  simp only [ht]
  rfl

/-- A type clause is a phrase or empty. -/
theorem optPhrase_clause (hc : TextClass p) {t : Native} (ht : p t.typeName) :
    OptPhrase p b t.clause := by
  -- A name that is blank is no name.
  rcases OptPhrase.given (b := b) (hc.trim ht) with h | h
  · exact .inl (clause_of_trim_eq_empty h t.qualifiers)
  · exact .of_phrase (phrase_clause h t.qualifiers)

/-! ## The names of types -/

/-- The native names that the program knows are plain. -/
theorem plain_kindDefault? {kind t : String} (h : kindDefault? kind = some t) :
    isPlainText t = true := by
  obtain ⟨l, m, hlm, -⟩ := List.lookup_eq_some_iff.1 h
  have hmem : (kind, t) ∈ kindDefaults := by rw [hlm]; simp
  have hall : ∀ e ∈ kindDefaults, isPlainText e.2 = true := by decide
  exact hall _ hmem

theorem plain_equivalent? {name : String} {r : Resolved} (h : equivalent? name = some r) :
    isPlainText r.typeName = true := by
  obtain ⟨l, m, hlm, -⟩ := List.lookup_eq_some_iff.1 h
  have hmem : ((trim name).toLower, r) ∈ equivalents := by rw [hlm]; simp
  have hall : ∀ e ∈ equivalents, isPlainText e.2.typeName = true := by decide
  exact hall _ hmem

/-- The native type of a column has a name of the class. -/
theorem given_ofColumn (hc : TextClass p) {mode kind : Option String} (hmode : ∀ s ∈ mode, p s)
    (hkind : ∀ s ∈ kind, p s) : p (ofColumn mode kind).typeName := by
  -- A name is of the document unless it has an equivalent.
  have hname {name : String} (hn : p name) : p (ofName name).typeName := by
    unfold ofName
    cases h : equivalent? name with
    | none => exact hn
    | some r => exact hc.plain (plain_equivalent? h)
  have hkind' : ∀ s ∈ kind.map (fun k => (kindDefault? k).getD k), p s := by
    intro s hs
    obtain ⟨k, hk, rfl⟩ := Option.map_eq_some_iff.1 hs
    cases h : kindDefault? k with
    | none => exact hkind k hk
    | some t => exact hc.plain (plain_kindDefault? h)
  unfold ofColumn
  split
  · next candidate hcand =>
    have hp : p candidate := by
      cases hm : mode with
      | some m =>
        rw [hm] at hcand
        obtain rfl : m = candidate := Option.some.inj hcand
        exact hmode m hm
      | none =>
        rw [hm] at hcand
        exact hkind' candidate hcand
    exact hc.upper (hc.trim (hname hp))
  · exact hc.plain (by decide)

/-- The name of a type in a release is of the class. -/
theorem given_inRelease (hc : TextClass p) {typeName : String} (h : p typeName)
    (release : Option String) : p (inRelease typeName release) := by
  unfold inRelease
  split_ifs
  · exact hc.plain (by decide)
  · exact h

/-- The type of a node has a name of the class. -/
theorem given_resolve (hc : TextClass p) {t : Model.Typing} (ht : t.Texts p)
    (release : Option String) : p (resolve t release).typeName := by
  unfold resolve
  split
  · next path hpath => exact ht.segment path hpath
  · exact given_inRelease hc (given_ofColumn hc (fun s hs => (ht.mode.orElse ht.childType s hs).1)
      fun s hs => (ht.kind s hs).1) release

end DataType

end SchemaDelta
