import SchemaDelta.Script.Schemas
import SchemaDelta.Script.Tables
import SchemaDelta.Script.Types
import SchemaDelta.Script.Views
import SchemaDelta.Json.Reader

/-!
# Alter scripts

The script of a delta holds the steps of its schemas, tables, views and types, in this order, with a
blank line between any two statements. There is a script for the delta of a whole model only.
-/

namespace SchemaDelta

open Sql Text

/-- The steps of a script by category. -/
structure Script where
  schemas : List Step
  tables : List Step
  views : List Step
  types : List Step

namespace Script

/-- The script of a delta for a release of the database. -/
def ofDelta (d : Delta) (release : Option String) : Script where
  schemas := schemaSteps d.containers
  tables := tableSteps d.entities release
  views := viewSteps d.views
  types := typeSteps d.modelDefinitions release

/-- All steps, in order. -/
def steps (s : Script) : List Step :=
  s.schemas ++ s.tables ++ s.views ++ s.types

/-- All statements, in order. -/
def units (s : Script) : List Fragment :=
  s.steps.flatMap Step.units

/-- The text of a script. -/
def text (s : Script) : String :=
  statementsText s.units

/-- The number of steps of each category. -/
def counts (s : Script) : List Nat :=
  [s.schemas.length, s.tables.length, s.views.length, s.types.length]

end Script

/-- What a script is asked for. -/
inductive Scope where
  | model
  | view
  | container

namespace Scope

/-- The scope with the given name, without regard to case and padding. -/
def ofName? (name : String) : Option Scope :=
  match (trim name).toLower with
  | "model" => some model
  | "view" => some view
  | "container" => some container
  | _ => none

/-- The name of a scope. -/
def name : Scope → String
  | model => "model"
  | view => "view"
  | container => "container"

end Scope

/-- Why there is no script. -/
inductive ScriptError where
  | missingDeltaModel
  | invalidDocument
  | unsupportedScope (s : Scope)

/-- The text of an error. -/
def ScriptError.message : ScriptError → String
  | missingDeltaModel =>
    "Delta model is not found. Alter script can be generated only from Delta model"
  | invalidDocument => "Invalid delta document"
  | unsupportedScope s =>
    "Forward-Engineering of delta model on " ++ s.name ++ " level is not supported"

namespace Script

/-- The script of a document, which must be an object. -/
def ofJson (v : Json) (release : Option String) : Except ScriptError Script :=
  match Delta.ofJson? v with
  | some d => .ok (ofDelta d release)
  | none => .error .missingDeltaModel

/-- The script of the text of a document. A blank text holds no document. -/
def ofText (text : String) (release : Option String) : Except ScriptError Script :=
  if blank text then .error .missingDeltaModel
  else match Json.read? text with
    | some v => ofJson v release
    | none => .error .invalidDocument

/-- The script of the text of a document for a scope. -/
def forScope (scope : Scope) (text : String) (release : Option String) :
    Except ScriptError Script :=
  match scope with
  | .model => ofText text release
  | s => .error (.unsupportedScope s)

end Script

end SchemaDelta
