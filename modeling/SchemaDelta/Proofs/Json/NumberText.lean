import SchemaDelta.Json.Number
import SchemaDelta.Proofs.Sql.TextClass

/-!
# The texts of numbers

A number is written with digits, signs, a point and an exponent mark, so its text is plain.
-/

namespace SchemaDelta

open Text

namespace Decimal

/-- A digit or a point. -/
def isFigure (c : Char) : Bool :=
  c.isDigit || c = '.'

/-- Figures are plain. -/
theorem isPlain_of_isFigure {c : Char} (h : isFigure c = true) : isPlain c = true := by
  simp only [isFigure, Bool.or_eq_true, decide_eq_true_eq] at h
  rcases h with h | rfl
  · simp [isPlain, Char.isAlphanum, h]
  · decide

/-- No figure is a dash. -/
theorem dash_not_mem {s : List Char} (h : ∀ c ∈ s, isFigure c = true) : '-' ∉ s :=
  fun hmem => absurd (h _ hmem) (by decide)

/-- Decimal digits are figures. -/
theorem isFigure_of_mem_toDigits {n : Nat} {c : Char} (h : c ∈ Nat.toDigits 10 n) :
    isFigure c = true := by
  have hd : c.isDigit = true := Nat.isDigit_of_mem_toDigits (by decide : 0 < 10) (by decide) h
  simp [isFigure, hd]

/-- The significant digits of a number are figures. -/
theorem isFigure_significant {n : Nat} {c : Char} (h : c ∈ significant n) : isFigure c = true := by
  unfold significant at h
  split at h
  · rw [List.mem_singleton.1 h]
    decide
  · next hne hds =>
    refine isFigure_of_mem_toDigits (n := n) ?_
    rw [List.mem_reverse] at h
    exact List.mem_reverse.1 ((List.dropWhile_sublist _).subset h)

/-- Figures are laid out positionally with figures. -/
theorem isFigure_layPlain {ds : List Char} (hds : ∀ c ∈ ds, isFigure c = true) {e : Int} {c : Char}
    (h : c ∈ layPlain ds e) : isFigure c = true := by
  have hzero {k : Nat} (h : c ∈ List.replicate k '0') : isFigure c = true := by
    rw [(List.mem_replicate.1 h).2]
    decide
  unfold layPlain at h
  split_ifs at h
  -- Zeros before the digits, zeros after them, or the point among them.
  · simp only [List.cons_append, List.mem_cons, List.mem_append] at h
    rcases h with rfl | rfl | h | h
    · decide
    · decide
    · exact hzero h
    · exact hds c h
  · simp only at h
    split_ifs at h
    · simp only [List.mem_append, List.mem_cons, List.not_mem_nil, or_false] at h
      rcases h with (h | h) | rfl | rfl
      · exact hds c h
      · exact hzero h
      · decide
      · decide
    · simp only [List.mem_append, List.mem_cons] at h
      rcases h with h | rfl | h
      · exact hds c (List.mem_of_mem_take h)
      · decide
      · exact hds c (List.mem_of_mem_drop h)

/-- With an exponent, figures stand before its mark and figures after its sign. -/
theorem layScientific_eq {ds : List Char} (hds : ∀ c ∈ ds, isFigure c = true) (e : Int) :
    ∃ mantissa sign digits, layScientific ds e = mantissa ++ 'e' :: sign :: digits ∧
      (∀ c ∈ mantissa, isFigure c = true) ∧ isPlain sign = true ∧
      ∀ c ∈ digits, isFigure c = true := by
  refine ⟨_, _, _, rfl, ?_, ?_, fun c hc => isFigure_of_mem_toDigits hc⟩
  · intro c hc
    split at hc
    · next d r hr =>
      rcases List.mem_cons.1 hc with rfl | hc
      · exact hds _ (by simp)
      · rcases List.mem_cons.1 hc with rfl | hc
        · decide
        · exact hds c (List.mem_cons_of_mem _ hc)
    · exact hds c hc
  · split_ifs <;> decide

end Decimal

/-- Plain characters, before which a sign may stand: no dash is at the front, and no two of them are
side by side. -/
structure Unsigned (s : List Char) : Prop where
  plain : ∀ c ∈ s, isPlain c = true
  head_ne : s.head? ≠ some '-'
  no_dashes : ¬['-', '-'] <:+: s

/-- Figures may follow a sign. -/
theorem Unsigned.of_figures {s : List Char} (h : ∀ c ∈ s, Decimal.isFigure c = true) :
    Unsigned s where
  plain c hc := Decimal.isPlain_of_isFigure (h c hc)
  head_ne e := Decimal.dash_not_mem h (List.mem_of_head? e)
  no_dashes := not_pair_infix_of_left (Decimal.dash_not_mem h)

/-- A sign and what may follow it make a plain text. -/
theorem Unsigned.isPlainText {sign body : List Char} (h : Unsigned body)
    (hsign : sign = [] ∨ sign = ['-']) : isPlainText (String.ofList (sign ++ body)) = true := by
  have hpair : ¬['-', '-'] <:+: sign ++ body := by
    rcases hsign with rfl | rfl
    · exact h.no_dashes
    · exact not_pair_infix_append (by decide) h.no_dashes fun _ => h.head_ne
  have hall : (sign ++ body).all isPlain = true := by
    rw [List.all_append, List.all_eq_true.2 h.plain, Bool.and_true]
    rcases hsign with rfl | rfl <;> decide
  rw [← containsChars_iff, Bool.not_eq_true] at hpair
  rw [SchemaDelta.isPlainText, String.toList_ofList, hall, hpair]
  rfl

namespace Decimal

/-- A sign may stand before the text of a decimal, because a dash in it follows the mark of an
exponent. -/
theorem Digits.unsigned_text (d : Digits) : Unsigned d.text := by
  have hfigures : ∀ c ∈ significant d.digits, isFigure c = true := fun c hc =>
    isFigure_significant hc
  unfold text
  simp only
  split_ifs
  · exact .of_figures fun c hc => isFigure_layPlain hfigures hc
  · obtain ⟨mantissa, sign, digits, heq, hm, hsign, hd⟩ :=
      layScientific_eq hfigures (d.exponent + (Nat.toDigits 10 d.digits).length - 1)
    have hdigits : ¬['-', '-'] <:+: [sign] ++ digits :=
      not_pair_infix_after (not_pair_infix_singleton sign) (dash_not_mem hd) (dash_not_mem hd)
    have hexponent : ¬['-', '-'] <:+: 'e' :: sign :: digits :=
      not_pair_infix_before (x := ['e']) (by decide) hdigits
    rw [heq]
    refine ⟨?_, ?_, ?_⟩
    · intro c hc
      simp only [List.mem_append, List.mem_cons] at hc
      rcases hc with hc | rfl | rfl | hc
      · exact isPlain_of_isFigure (hm c hc)
      · decide
      · exact hsign
      · exact isPlain_of_isFigure (hd c hc)
    · intro h
      rw [List.head?_append, Option.or_eq_some_iff] at h
      rcases h with h | ⟨-, h⟩
      · exact dash_not_mem hm (List.mem_of_head? h)
      · exact absurd h (by simp)
    · exact not_pair_infix_before (dash_not_mem hm) hexponent

/-- The text of a double is plain. -/
theorem isPlainText_floatText (x : Float) : isPlainText (floatText x) = true := by
  have hbody (b : Binary) :
      Unsigned (if b.mantissa = 0 then ['0', '.', '0'] else b.shortest.text) := by
    split_ifs
    · exact .of_figures (List.all_eq_true.1 (by decide))
    · exact Digits.unsigned_text b.shortest
  refine (hbody (Binary.ofBits x.toBits)).isPlainText ?_
  split_ifs
  · exact .inr rfl
  · exact .inl rfl

end Decimal

/-- The text of a number is plain. -/
theorem Number.isPlainText_text (n : Number) : isPlainText n.text = true := by
  cases n with
  | real x => exact Decimal.isPlainText_floatText x
  | integer k =>
    have hfigures : ∀ c ∈ (showNat k.natAbs).toList, Decimal.isFigure c = true := by
      intro c hc
      rw [showNat, Nat.toList_repr] at hc
      exact Decimal.isFigure_of_mem_toDigits hc
    have hsigned {sign : List Char} (hsign : sign = [] ∨ sign = ['-']) :=
      (Unsigned.of_figures hfigures).isPlainText hsign
    simp only [text]
    split_ifs
    · have heq : String.ofList (['-'] ++ (showNat k.natAbs).toList) = "-" ++ showNat k.natAbs :=
        String.toList_inj.1 (by simp)
      rw [← heq]
      exact hsigned (.inr rfl)
    · simpa using hsigned (.inl rfl)

/-- The text of a double is not empty. -/
theorem Decimal.floatText_ne_empty (x : Float) : floatText x ≠ "" := by
  have hplain (ds : List Char) (e : Int) : layPlain ds e ≠ [] := by
    unfold layPlain
    split_ifs
    · simp
    · simp only
      split_ifs <;> simp
  have hbody : ∀ d : Digits, d.text ≠ [] := by
    intro d
    unfold Digits.text
    simp only
    split_ifs
    · exact hplain _ _
    · simp [layScientific]
  rw [floatText, Ne, ← String.toList_inj, String.toList_ofList]
  intro h
  have hnil := (List.append_eq_nil_iff.1 h).2
  split_ifs at hnil
  exact hbody _ hnil

/-- The text of a number is not empty. -/
theorem Number.text_ne_empty (n : Number) : n.text ≠ "" := by
  have hdigits (k : Nat) : showNat k ≠ "" := Nat.repr_ne_empty
  cases n with
  | real x => exact Decimal.floatText_ne_empty x
  | integer k =>
    simp only [text]
    split_ifs
    · simp
    · exact hdigits _

end SchemaDelta
