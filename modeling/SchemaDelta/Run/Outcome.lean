import SchemaDelta.Run.Split
import SchemaDelta.Sql.Statement

/-!
# Running a script

Statements run one at a time, in script order. A statement that finds its object already there is
tolerated; any other failure is logged, the run goes on, and it is reported as incomplete at its
end. Before each statement the run stops if it has been cancelled. Nothing is rolled back.
-/

namespace SchemaDelta.Run

open Text

/-- An error that the database reports for one statement. -/
structure DatabaseError where
  code : Nat
  message : String

/-- The text of an error. The code has five digits at least. -/
def DatabaseError.text (e : DatabaseError) : String :=
  let digits := showNat e.code
  "ORA-" ++ String.ofList (List.replicate (5 - digits.length) '0') ++ digits ++ ": " ++ e.message

/-- What comes of one statement. -/
structure Response where
  error : Option DatabaseError
  /-- The run was cancelled while the statement ran. -/
  cancels : Bool

/-- A connection that runs single statements and keeps a state of its own. -/
structure Executor (σ : Type) where
  execute : σ → String → Response × σ

/-- What a run reports while it goes on. -/
inductive Event where
  | executing (excerpt : String)
  | failed (error : DatabaseError) (statement : String)

/-- The most characters of a statement that a report shows. -/
def excerptLength : Nat := 150

/-- The beginning of the first line of a statement. -/
def excerpt (statement : String) : String :=
  String.ofList (((lines statement).headD "").toList.take excerptLength)

/-- What came of a run that was neither cancelled nor incomplete. -/
structure Report where
  executed : Nat := 0
  alreadyExisting : Nat := 0

/-- Why a run did not succeed. -/
inductive RunError where
  | incomplete (failed total : Nat)
  | cancelled (executed : Nat)

/-- The text of an error. -/
def RunError.message : RunError → String
  | incomplete failed total =>
    "Not all statements executed successfully (" ++ showNat failed ++ " of " ++ showNat total ++
      " failed)"
  | cancelled executed => "Apply cancelled after " ++ showNat executed ++ " statements"

/-- How far a run has come. -/
structure Progress (σ : Type) where
  state : σ
  cancelled : Bool
  report : Report := {}
  failed : Nat := 0
  /-- The statements that were run, in order. -/
  statements : List String := []
  /-- What was reported, in order. -/
  events : List Event := []

namespace Progress

variable {σ : Type}

/-- One statement is run. -/
def step (ex : Executor σ) (p : Progress σ) (statement : String) : Progress σ :=
  let (response, state) := ex.execute p.state statement
  let p := { p with
    state := state
    cancelled := p.cancelled || response.cancels
    statements := p.statements ++ [statement]
    events := p.events ++ [Event.executing (excerpt statement)] }
  match response.error with
  | none => { p with report := { p.report with executed := p.report.executed + 1 } }
  | some e =>
    if e.code = Sql.nameInUse then
      { p with report := { p.report with alreadyExisting := p.report.alreadyExisting + 1 } }
    else { p with failed := p.failed + 1, events := p.events ++ [Event.failed e statement] }

/-- The statements are run until the run is cancelled; whether it was before a statement. -/
def steps (ex : Executor σ) : Progress σ → List String → Progress σ × Bool
  | p, [] => (p, false)
  | p, s :: r => if p.cancelled then (p, true) else steps ex (p.step ex s) r

end Progress

/-- A run from its start to its end. -/
structure Outcome (σ : Type) where
  progress : Progress σ
  result : Except RunError Report

/-- A script is run from a state of the connection. The flag tells whether the run has been
cancelled before it starts. -/
def apply {σ : Type} (ex : Executor σ) (state : σ) (cancelled : Bool) (script : String) :
    Outcome σ :=
  let statements := split script
  let (p, stopped) := Progress.steps ex { state := state, cancelled := cancelled } statements
  { progress := p
    result :=
      if stopped then .error (.cancelled p.report.executed)
      else if 0 < p.failed then .error (.incomplete p.failed statements.length)
      else .ok p.report }

end SchemaDelta.Run
