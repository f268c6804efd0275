import SchemaDelta.Text.Pieces
import SchemaDelta.Sql.Comment

/-!
# Active and inactive fragments

What is deactivated stays in the script as a comment that holds its text. A leaf (a column, one
constraint, one statement) is commented where it stands. A composite (the body of a table, a list of
columns) keeps its active members live and gathers the inactive ones in one comment at its end.
Inside an inactive parent nothing is commented: the parent comments the whole text once.
-/

namespace SchemaDelta.Sql

open Text

/-- A piece of SQL, which is active or not. -/
structure Fragment where
  text : String
  active : Bool

namespace Fragment

/-- The fragment has no content. -/
def isBlank (f : Fragment) : Bool :=
  blank f.text

/-- The text of an active fragment, and the commented text of an inactive one. -/
def write (f : Fragment) : String :=
  if f.active then f.text else commented f.text

/-- The text of a fragment inside a parent. An inactive parent comments it already. -/
def writeIn (parentActive : Bool) (f : Fragment) : String :=
  if parentActive then f.write else f.text

@[simp] theorem write_active (text : String) : write ⟨text, true⟩ = text := rfl

@[simp] theorem write_inactive (text : String) : write ⟨text, false⟩ = commented text := rfl

end Fragment

/-- The separator without its comma. -/
def gapOf (sep : String) : String :=
  String.ofList (sep.toList.dropWhile (· = ','))

/-- The members with a separator between them: the active ones in order, then the inactive ones in
one comment. With an inactive parent all stand in their order. -/
def composite (members : List Fragment) (sep : String) (parentActive : Bool) : String :=
  if !parentActive then join sep (members.map Fragment.text)
  else
    let live := join sep ((members.filter Fragment.active).map Fragment.text)
    match members.filter fun m => !m.active with
    | [] => live
    | inactive =>
      let dead := commentedInline (join sep (inactive.map Fragment.text))
      if live.isEmpty then dead else live ++ gapOf sep ++ dead

/-- No member is active, and there is one. -/
def noneActive (members : List Fragment) : Bool :=
  !members.isEmpty && members.all fun m => !m.active

/-- A list of columns in parentheses. A list without an active column is plain, because its owner
is commented as a whole. -/
def columnTuple (columns : List Fragment) (parentActive : Bool) : String :=
  "(" ++ composite columns ", " (parentActive && !noneActive columns) ++ ")"

/-- Statements that are not blank, each written as a leaf, with a blank line between them. -/
def statementsText (units : List Fragment) : String :=
  join "\n\n" ((units.filter fun u => !u.isBlank).map Fragment.write)

/-- Inside an inactive parent all members stand in their order. -/
theorem composite_inactive (members : List Fragment) (sep : String) :
    composite members sep false = join sep (members.map Fragment.text) := rfl

/-- Where all members are active, all stand in their order. -/
theorem composite_of_active {members : List Fragment} (h : ∀ m ∈ members, m.active = true)
    (sep : String) : composite members sep true = join sep (members.map Fragment.text) := by
  have hn : (members.filter fun m => !m.active) = [] := by
    simp only [List.filter_eq_nil_iff]
    intro m hm; simp [h m hm]
  have hf : members.filter Fragment.active = members := List.filter_eq_self.2 h
  simp [composite, hn, hf]

end SchemaDelta.Sql
