import SchemaDelta.DataType.Equivalents
import SchemaDelta.Proofs.Text.Case

/-!
# The native types of columns

A name is looked up trimmed and in small letters, and a native type is written trimmed and in
capitals, so neither case nor padding of a mode matters. No native type is the name of another one:
looked up again, it stands for itself (`ofColumn_settled`).
-/

namespace SchemaDelta.DataType

open Text

/-- A name is looked up without regard to its case and padding. -/
theorem equivalent?_congr {name other : String} (h : (trim name).toLower = (trim other).toLower) :
    equivalent? name = equivalent? other := by
  rw [equivalent?, equivalent?, h]

/-- No equivalent has an equivalent itself. -/
theorem equivalent?_ofName (name : String) : equivalent? (ofName name).typeName = none := by
  unfold ofName
  cases h : equivalent? name with
  | none => exact h
  | some r =>
    obtain ⟨front, back, htable, -⟩ := List.lookup_eq_some_iff.1 h
    have hmem : ((trim name).toLower, r) ∈ equivalents := by
      rw [htable]
      simp
    have hall : ∀ e ∈ equivalents, equivalent? e.2.typeName = none := by decide +kernel
    rw [Option.getD_some]
    exact hall ((trim name).toLower, r) hmem

/-- The native type of a column is trimmed and in capitals, and has no equivalent. -/
theorem ofColumn_native (mode kind : Option String) :
    (trim (ofColumn mode kind).typeName).toUpper = (ofColumn mode kind).typeName ∧
      equivalent? (ofColumn mode kind).typeName = none := by
  unfold ofColumn
  split
  · next candidate _ =>
    refine ⟨?_, ?_⟩
    · rw [trim_toUpper, trim_trim, toUpper_toUpper]
    · rw [← equivalent?_ofName candidate]
      refine equivalent?_congr ?_
      rw [trim_toUpper, trim_trim, toLower_toUpper]
  · decide +kernel

/-- A mode without an equivalent is the native type itself. -/
theorem ofColumn_of_equivalent?_eq_none {mode : String} (h : equivalent? mode = none)
    (kind : Option String) : ofColumn (some mode) kind = plain (trim mode).toUpper := by
  have hname : ofName mode = plain mode := by rw [ofName, h, Option.getD_none]
  show { ofName mode with typeName := (trim (ofName mode).typeName).toUpper } = _
  rw [hname]
  rfl

/-- Modes that differ in case and padding alone have one native type. -/
theorem ofColumn_congr {mode other : String} (h : (trim mode).toLower = (trim other).toLower)
    (kind : Option String) : ofColumn (some mode) kind = ofColumn (some other) kind := by
  have hlook := equivalent?_congr h
  cases hother : equivalent? other with
  | none =>
    rw [hother] at hlook
    rw [ofColumn_of_equivalent?_eq_none hlook, ofColumn_of_equivalent?_eq_none hother,
      ← toUpper_toLower, h, toUpper_toLower]
  | some r =>
    have hname : ofName mode = ofName other := by rw [ofName, ofName, hlook, hother]; rfl
    show { ofName mode with typeName := (trim (ofName mode).typeName).toUpper } = _
    rw [hname]
    rfl

/-- **Native types are settled.** The native type of a column, taken as a mode, is the same type
without qualifiers, and a mode has one native type in either case and with any padding. -/
theorem ofColumn_settled (mode kind other : Option String) (text : String) {front back : String}
    (hfront : blank front = true) (hback : blank back = true) :
    ofColumn (some (ofColumn mode kind).typeName) other = plain (ofColumn mode kind).typeName ∧
      ofColumn (some text.toUpper) kind = ofColumn (some text) kind ∧
      ofColumn (some text.toLower) kind = ofColumn (some text) kind ∧
      ofColumn (some (front ++ text ++ back)) kind = ofColumn (some text) kind := by
  refine ⟨?_, ofColumn_congr ?_ kind, ofColumn_congr ?_ kind, ofColumn_congr ?_ kind⟩
  · obtain ⟨hcapital, hnone⟩ := ofColumn_native mode kind
    rw [ofColumn_of_equivalent?_eq_none hnone, hcapital]
  · rw [trim_toUpper, toLower_toUpper]
  · rw [trim_toLower, toLower_toLower]
  · rw [trim_padded text hfront hback]

/-- A logical kind whose type has no equivalent, and a mode with one that brings a length, padded
with blanks beyond ASCII. -/
theorem ofColumn_settled_uuid :
    blank "\u3000\t" = true ∧ blank "\u2003" = true ∧
      ofColumn (some (ofColumn none (some "array")).typeName) none = plain "JSON" ∧
      ofColumn (some "Uuid".toUpper) (some "array") = ofColumn (some "Uuid") (some "array") ∧
      ofColumn (some "Uuid".toLower) (some "array") = ofColumn (some "Uuid") (some "array") ∧
      ofColumn (some ("\u3000\t" ++ "Uuid" ++ "\u2003")) (some "array") = withLength "CHAR" 36 := by
  have hfront : blank "\u3000\t" = true := by decide
  have hback : blank "\u2003" = true := by decide
  have hjson : (ofColumn none (some "array")).typeName = "JSON" := by decide +kernel
  have huuid : ofColumn (some "Uuid") (some "array") = withLength "CHAR" 36 := by decide +kernel
  obtain ⟨hsettled, hupper, hlower, hpadded⟩ :=
    ofColumn_settled none (some "array") none "Uuid" hfront hback
  exact ⟨hfront, hback, hjson ▸ hsettled, hupper, hlower, hpadded.trans huuid⟩

end SchemaDelta.DataType
