import Mathlib.Tactic.SplitIfs
import SchemaDelta.DataType.Clause
import SchemaDelta.Proofs.Text.Ends

/-!
# What a type carries

A type clause is the name of the type and what the type carries of its qualifiers. `clause_eq_iff`
says that nothing else stands in it and that nothing of it gets lost: numbers are runs of digits, so
each one ends at the mark that follows it, and what is left out begins with another mark.
-/

namespace SchemaDelta.DataType

open Text

/-- What a type carries of its qualifiers. -/
inductive Carrier where
  /-- A length, and its unit where there is a length. -/
  | unitLength
  | length
  /-- Precision and scale. -/
  | number
  | precision
  /-- Fractional seconds and a time zone. -/
  | timeStamp
  | years
  /-- The precisions of days and of fractional seconds. -/
  | days
  | nothing

namespace Carrier

/-- What the type with the given trimmed name carries. -/
def ofType (t : String) : Carrier :=
  if t ∈ ["CHAR", "VARCHAR2"] then unitLength
  else if t ∈ ["NCHAR", "NVARCHAR2", "RAW", "UROWID"] then length
  else if t = "NUMBER" then number
  else if t = "FLOAT" then precision
  else if t = "TIMESTAMP" then timeStamp
  else if t = "INTERVAL YEAR" then years
  else if t = "INTERVAL DAY" then days
  else nothing

/-- Two records agree on what a type carries. A precision of zero counts as none for a number, but
it is something that is set; a local time zone makes the other one irrelevant. -/
def Agree (q r : Qualifiers) : Carrier → Prop
  | unitLength => q.length = r.length ∧ (q.length ≠ none → q.lengthUnit = r.lengthUnit)
  | length => q.length = r.length
  | number =>
    (q.precision = none ∧ q.scale = none ↔ r.precision = none ∧ r.scale = none) ∧
      q.precision.filter (0 < ·) = r.precision.filter (0 < ·) ∧ q.scale = r.scale
  | precision => q.precision = r.precision
  | timeStamp =>
    q.fractSecPrecision = r.fractSecPrecision ∧ q.localTimeZone = r.localTimeZone ∧
      (q.localTimeZone = false → q.withTimeZone = r.withTimeZone)
  | years => q.yearPrecision = r.yearPrecision
  | days => q.dayPrecision = r.dayPrecision ∧ q.fractSecPrecision = r.fractSecPrecision
  | nothing => True

end Carrier

/-! ## Numbers in a text -/

variable {m n : Nat} {x y : String}

/-- A number ends where its digits do. -/
theorem showNat_append_inj (hx : ∀ c ∈ x.toList.head?, c.isDigit = false)
    (hy : ∀ c ∈ y.toList.head?, c.isDigit = false) (h : showNat m ++ x = showNat n ++ y) :
    m = n ∧ x = y := by
  -- The number is what comes before the first character that is no digit.
  have hspan (k : Nat) {z : String} (hz : ∀ c ∈ z.toList.head?, c.isDigit = false) :
      (showNat k ++ z).toList.takeWhile Char.isDigit = Nat.toDigits 10 k ∧
        (showNat k ++ z).toList.dropWhile Char.isDigit = z.toList := by
    have hdigits : ∀ c ∈ Nat.toDigits 10 k, c.isDigit = true := fun c hc =>
      Nat.isDigit_of_mem_toDigits (by decide) (by decide) hc
    obtain ⟨htake, hdrop⟩ := span_append (Nat.toDigits 10 k) hz
    rw [List.takeWhile_eq_self_iff.2 hdigits] at htake
    rw [List.dropWhile_eq_nil_iff.2 hdigits, List.nil_append] at hdrop
    rw [String.toList_append, showNat, Nat.toList_repr]
    exact ⟨htake, hdrop⟩
  obtain ⟨hdigits, hrest⟩ := hspan m hx
  rw [h, (hspan n hy).1] at hdigits
  rw [h, (hspan n hy).2] at hrest
  refine ⟨?_, (String.toList_inj.1 hrest).symm⟩
  rw [← Nat.ofDigitChars_ten_toDigits (n := m), ← hdigits, Nat.ofDigitChars_ten_toDigits]

/-- A number in parentheses is told from none by the mark that begins it. -/
theorem parenthesized_append_inj {o k : Option Nat} (hx : ∀ c ∈ x.toList.head?, c ≠ '(')
    (hy : ∀ c ∈ y.toList.head?, c ≠ '(') (h : parenthesized o ++ x = parenthesized k ++ y) :
    o = k ∧ x = y := by
  -- Only a number brings a parenthesis to the front.
  have hopen {n : Nat} {s t : String} (hs : ∀ c ∈ s.toList.head?, c ≠ '(')
      (heq : parenthesized none ++ s = parenthesized (some n) ++ t) : False := by
    refine hs '(' ?_ rfl
    have hlist := congrArg (fun u => u.toList.head?) heq
    simpa [parenthesized] using hlist
  cases o with
  | none =>
    cases k with
    | none => exact ⟨rfl, by simpa [parenthesized] using h⟩
    | some k => exact (hopen hx h).elim
  | some o =>
    cases k with
    | none => exact (hopen hy h.symm).elim
    | some k =>
      simp only [parenthesized, String.append_assoc, String.append_right_inj] at h
      obtain ⟨rfl, hrest⟩ := showNat_append_inj (by simp) (by simp) h
      exact ⟨rfl, by simpa using hrest⟩

/-- A number in parentheses alone. -/
theorem parenthesized_inj {o k : Option Nat} : parenthesized o = parenthesized k ↔ o = k := by
  refine ⟨fun h => ?_, fun h => by rw [h]⟩
  have happend : parenthesized o ++ "" = parenthesized k ++ "" := by rw [h]
  exact (parenthesized_append_inj (by simp) (by simp) happend).1

/-- The star of a missing precision is no digit. -/
theorem numberPrecision_append_inj {o k : Option Nat}
    (hx : ∀ c ∈ x.toList.head?, c.isDigit = false) (hy : ∀ c ∈ y.toList.head?, c.isDigit = false)
    (h : numberPrecision o ++ x = numberPrecision k ++ y) :
    o.filter (0 < ·) = k.filter (0 < ·) ∧ x = y := by
  have hstar {n : Nat} {s t : String} (heq : "*" ++ s = showNat n ++ t) : False := by
    obtain ⟨d, ds, hds⟩ := List.exists_cons_of_ne_nil (Nat.toDigits_ne_nil (n := n) (b := 10))
    have hdigit : d.isDigit = true := by
      refine Nat.isDigit_of_mem_toDigits (b := 10) (n := n) (by decide) (by decide) ?_
      rw [hds]
      exact List.mem_cons_self
    have hlist := congrArg (fun u => u.toList.head?) heq
    simp only [showNat, String.toList_append, Nat.toList_repr, hds] at hlist
    obtain rfl : '*' = d := by simpa using hlist
    exact absurd hdigit (by decide)
  -- A precision of zero is taken for none before anything is written.
  unfold numberPrecision at h
  generalize o.filter (0 < ·) = a at h ⊢
  generalize k.filter (0 < ·) = b at h ⊢
  cases a with
  | none =>
    cases b with
    | none => exact ⟨rfl, by simpa using h⟩
    | some k => exact (hstar h).elim
  | some o =>
    cases b with
    | none => exact (hstar h.symm).elim
    | some k =>
      obtain ⟨rfl, hrest⟩ := showNat_append_inj hx hy h
      exact ⟨rfl, hrest⟩

/-! ## The text after a name -/

/-- The unit of a length, if it has one. -/
def unitText (unit : Option LengthUnit) : String :=
  (unit.map fun u => " " ++ u.keyword).getD ""

/-- A length in parentheses, with its unit. -/
def lengthText (length : Option Nat) (unit : Option LengthUnit) : String :=
  match length with
  | some n => "(" ++ (showNat n ++ (unitText unit ++ ")"))
  | none => ""

/-- The scale of a number, if it has one. -/
def scaleText (scale : Option Nat) : String :=
  (scale.map fun s => "," ++ showNat s).getD ""

/-- Precision and scale in parentheses, if there is one of them. -/
def numberText (precision scale : Option Nat) : String :=
  if precision = none ∧ scale = none then ""
  else "(" ++ (numberPrecision precision ++ (scaleText scale ++ ")"))

namespace Carrier

/-- What a type carries, as it is written after its name. -/
def text (q : Qualifiers) : Carrier → String
  | unitLength => lengthText q.length q.lengthUnit
  | length => parenthesized q.length
  | number => numberText q.precision q.scale
  | precision => parenthesized q.precision
  | timeStamp => parenthesized q.fractSecPrecision ++ timeZone q
  | years => parenthesized q.yearPrecision ++ " TO MONTH"
  | days => parenthesized q.dayPrecision ++ " TO SECOND" ++ parenthesized q.fractSecPrecision
  | nothing => ""

end Carrier

variable {typeName : String}

/-- The clause of a type whose length has a unit. -/
theorem clause_of_unit (h : trim typeName ∈ unitTypes) (q : Qualifiers) :
    clause typeName q = trim typeName ++ lengthText q.length q.lengthUnit := by
  have hlength : trim typeName ∈ lengthTypes := List.mem_append_left _ h
  unfold clause lengthText unitText
  dsimp only
  rw [if_pos hlength]
  cases q.length with
  | none => exact String.append_empty.symm
  | some n => cases q.lengthUnit <;> simp [h, String.append_assoc]

/-- The clause of a type whose length has no unit. -/
theorem clause_of_length (h : trim typeName ∈ lengthTypes) (hunit : trim typeName ∉ unitTypes)
    (q : Qualifiers) : clause typeName q = trim typeName ++ parenthesized q.length := by
  unfold clause
  dsimp only
  rw [if_pos h]
  cases q.length with
  | none => simp [parenthesized]
  | some n => cases q.lengthUnit <;> simp [parenthesized, hunit, String.append_assoc]

theorem clause_of_not_length (h : trim typeName ∉ lengthTypes) (q : Qualifiers) :
    clause typeName q = numericClause (trim typeName) q := by
  unfold clause
  dsimp only
  rw [if_neg h]

/-- The clause of a number. -/
theorem numericClause_number {t : String} (h : t = "NUMBER") (q : Qualifiers) :
    numericClause t q = t ++ numberText q.precision q.scale := by
  rw [numericClause, if_pos h]
  unfold numberText scaleText
  cases q.precision <;> cases q.scale <;> simp [String.append_assoc]

/-- A clause is the name of the type with what the type carries. -/
theorem clause_eq (typeName : String) (q : Qualifiers) :
    clause typeName q = trim typeName ++ (Carrier.ofType (trim typeName)).text q := by
  unfold Carrier.ofType
  -- Either side looks for the name in the same order, the types with a length first.
  split_ifs with hunit hlength hnumber hfloat hstamp hyear hday
  · exact clause_of_unit hunit q
  · exact clause_of_length (List.mem_append_right ["CHAR", "VARCHAR2"] hlength) hunit q
  all_goals
    have hnot : trim typeName ∉ lengthTypes := fun hmem =>
      (List.mem_append (s := ["CHAR", "VARCHAR2"]).1 hmem).elim hunit hlength
    rw [clause_of_not_length hnot]
  · exact numericClause_number hnumber q
  · rw [hfloat, numericClause, if_neg (by decide), if_pos rfl, Carrier.text]
  all_goals
    rw [numericClause, if_neg hnumber, if_neg hfloat, Carrier.text]
  · rw [hstamp, temporalClause, String.append_assoc]
  · rw [hyear, temporalClause, String.append_assoc]
  · rw [hday, temporalClause]
    simp only [String.append_assoc]
  · rw [temporalClause.eq_4 _ _ hstamp hyear hday, String.append_empty]

/-! ## What the text tells -/

/-- A text in parentheses is not empty. -/
theorem open_ne_empty (s : String) : "(" ++ s ≠ "" := by simp

theorem unitText_inj {u v : Option LengthUnit} (h : unitText u = unitText v) : u = v := by
  rcases u with _ | _ | _ <;> rcases v with _ | _ | _ <;> first | rfl | exact absurd h (by decide)

theorem lengthText_inj {o k : Option Nat} {u v : Option LengthUnit} :
    lengthText o u = lengthText k v ↔ o = k ∧ (o ≠ none → u = v) := by
  have hmark (w : Option LengthUnit) :
      ∀ c ∈ (unitText w ++ ")").toList.head?, c.isDigit = false := by
    cases w <;> simp [unitText]
  cases o with
  | none =>
    cases k with
    | none => simp [lengthText]
    | some k => simp [lengthText]
  | some n =>
    cases k with
    | none => simp [lengthText]
    | some k =>
      refine ⟨fun h => ?_, fun ⟨hn, hu⟩ => by rw [hn, hu (Option.some_ne_none n)]⟩
      have hnumber := (String.append_right_inj _).1 h
      obtain ⟨rfl, hrest⟩ := showNat_append_inj (hmark u) (hmark v) hnumber
      exact ⟨rfl, fun _ => unitText_inj ((String.append_left_inj _).1 hrest)⟩

theorem scaleText_inj {s k : Option Nat} (h : scaleText s = scaleText k) : s = k := by
  cases s with
  | none => cases k with
    | none => rfl
    | some k => simp [scaleText] at h
  | some n => cases k with
    | none => simp [scaleText] at h
    | some k =>
      have hdigits : showNat n ++ "" = showNat k ++ "" := by simpa [scaleText] using h
      rw [(showNat_append_inj (by simp) (by simp) hdigits).1]

theorem numberText_inj {p o s k : Option Nat} :
    numberText p s = numberText o k ↔
      (p = none ∧ s = none ↔ o = none ∧ k = none) ∧
        p.filter (0 < ·) = o.filter (0 < ·) ∧ s = k := by
  have hmark (t : Option Nat) : ∀ c ∈ (scaleText t ++ ")").toList.head?, c.isDigit = false := by
    cases t <;> simp [scaleText]
  have hprecision (h : p.filter (0 < ·) = o.filter (0 < ·)) :
      numberPrecision p = numberPrecision o := by rw [numberPrecision, numberPrecision, h]
  unfold numberText
  by_cases hp : p = none ∧ s = none
  · by_cases ho : o = none ∧ k = none
    · simp [hp, ho]
    · rw [if_pos hp, if_neg ho]
      exact iff_of_false (open_ne_empty _).symm fun h => ho (h.1.1 hp)
  · by_cases ho : o = none ∧ k = none
    · rw [if_neg hp, if_pos ho]
      exact iff_of_false (open_ne_empty _) fun h => hp (h.1.2 ho)
    · rw [if_neg hp, if_neg ho, String.append_right_inj]
      refine ⟨fun h => ?_, fun ⟨_, hfilter, hscale⟩ => by rw [hprecision hfilter, hscale]⟩
      obtain ⟨hfilter, hrest⟩ := numberPrecision_append_inj (hmark s) (hmark k) h
      exact ⟨iff_of_false hp ho, hfilter, scaleText_inj ((String.append_left_inj _).1 hrest)⟩

/-- A time zone begins with a blank. -/
theorem head?_timeZone (q : Qualifiers) : ∀ c ∈ (timeZone q).toList.head?, c ≠ '(' := by
  unfold timeZone
  split_ifs <;> simp

theorem timeZone_inj {q r : Qualifiers} : timeZone q = timeZone r ↔
    q.localTimeZone = r.localTimeZone ∧
      (q.localTimeZone = false → q.withTimeZone = r.withTimeZone) := by
  unfold timeZone
  cases q.localTimeZone <;> cases r.localTimeZone <;> cases q.withTimeZone <;>
    cases r.withTimeZone <;> decide

/-- The text after the name tells what the type carries, and nothing else. -/
theorem Carrier.text_inj {q r : Qualifiers} (c : Carrier) :
    c.text q = c.text r ↔ c.Agree q r := by
  cases c with
  | unitLength => exact lengthText_inj
  | length => exact parenthesized_inj
  | number => exact numberText_inj
  | precision => exact parenthesized_inj
  | timeStamp =>
    refine ⟨fun h => ?_, fun h => ?_⟩
    · obtain ⟨hseconds, hzone⟩ := parenthesized_append_inj (head?_timeZone q) (head?_timeZone r) h
      exact ⟨hseconds, timeZone_inj.1 hzone⟩
    · rw [text, text, h.1, timeZone_inj.2 h.2]
  | years =>
    rw [text, text, String.append_left_inj]
    exact parenthesized_inj
  | days =>
    refine ⟨fun h => ?_, fun ⟨hdays, hseconds⟩ => by rw [text, text, hdays, hseconds]⟩
    rw [text, text, String.append_assoc, String.append_assoc] at h
    obtain ⟨hdays, hseconds⟩ := parenthesized_append_inj (by simp) (by simp) h
    exact ⟨hdays, parenthesized_inj.1 ((String.append_right_inj _).1 hseconds)⟩
  | nothing => exact iff_of_true rfl trivial

/-- **Type clauses are faithful.** A type has one clause with two records of qualifiers if and only
if these agree on what the type carries. -/
theorem clause_eq_iff (typeName : String) (q r : Qualifiers) :
    clause typeName q = clause typeName r ↔ (Carrier.ofType (trim typeName)).Agree q r := by
  rw [clause_eq, clause_eq, String.append_right_inj]
  exact Carrier.text_inj _

end SchemaDelta.DataType
