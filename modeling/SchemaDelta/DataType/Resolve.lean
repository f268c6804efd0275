import SchemaDelta.DataType.Equivalents
import SchemaDelta.DataType.Clause
import SchemaDelta.DataType.Release
import SchemaDelta.Model.Typing

/-!
# The data type of a node

A node either refers to a type of the model, which is named as it stands at the end of the path, or
declares a type that its equivalent and the release turn into a native one. Qualifiers of the node
come before those that the equivalent implies.
-/

namespace SchemaDelta.DataType

/-- A type name with its qualifiers. -/
structure Native where
  typeName : String
  qualifiers : Qualifiers

/-- The type clause. -/
def Native.clause (t : Native) : String :=
  DataType.clause t.typeName t.qualifiers

/-- What stands after the last slash of a path. -/
def lastSegment (path : String) : String :=
  String.ofList (path.toList.reverse.takeWhile (· ≠ '/')).reverse

/-- The qualifiers that a node sets. -/
def ownQualifiers (t : Model.Typing) : Qualifiers where
  length := t.length <|> t.maxLength
  lengthUnit := t.lengthSemantics.bind LengthUnit.ofName?
  precision := t.precision
  scale := t.scale
  fractSecPrecision := t.fractSecPrecision
  withTimeZone := t.withTimeZone
  localTimeZone := t.localTimeZone
  yearPrecision := t.yearPrecision
  dayPrecision := t.dayPrecision

/-- The data type of a node in a release. -/
def resolve (t : Model.Typing) (release : Option String) : Native :=
  let own := ownQualifiers t
  match t.reference with
  | some path => ⟨lastSegment path, own⟩
  | none =>
    let r := ofColumn (t.mode <|> t.childType) t.kind
    { typeName := inRelease r.typeName release
      qualifiers :=
        { own with
          length := own.length <|> r.length
          precision := own.precision <|> r.precision
          scale := own.scale <|> r.scale } }

end SchemaDelta.DataType
