import SchemaDelta.Run.Outcome

/-!
# Where a run stops

A run looks at its cancel flag before each statement, and what runs a statement may raise the flag.
`firstCancelled` is the first boundary at which the flag is up, told from the responses alone.
`apply_fresh` says what a run hands over and reports in terms of it: the statements before the
boundary, with a count of each kind of response. The flag is never taken down again, so a handle
that has been cancelled runs nothing more.

The proof follows the statements: `After.step` is what one statement adds to the progress of a run,
`After.foldl` what a list of statements adds, and `Progress.steps_eq` says which statements are run.
-/

namespace SchemaDelta.Run

/-! ## Responses -/

/-- The statement was executed. -/
def Response.succeeded (r : Response) : Bool :=
  r.error.isNone

/-- The object of the statement was already there. -/
def Response.existed (r : Response) : Bool :=
  r.error.any fun e => e.code == Sql.nameInUse

/-- The statement failed with an error that is not tolerated. -/
def Response.failed (r : Response) : Bool :=
  r.error.any fun e => e.code != Sql.nameInUse

/-- Each response is of one of three kinds. -/
theorem countP_responses (rs : List Response) :
    rs.countP Response.succeeded + rs.countP Response.existed + rs.countP Response.failed =
      rs.length := by
  induction rs with
  | nil => rfl
  | cons r rs ih =>
    simp only [List.countP_cons, List.length_cons]
    cases he : r.error with
    | none =>
      simp only [Response.succeeded, Response.existed, Response.failed, he] at ih ⊢
      simp
      omega
    | some e =>
      by_cases hcode : e.code = Sql.nameInUse
      · simp [Response.succeeded, Response.existed, Response.failed, he, hcode] at ih ⊢
        omega
      · simp [Response.succeeded, Response.existed, Response.failed, he, hcode] at ih ⊢
        omega

namespace Executor

variable {σ : Type} (ex : Executor σ)

/-- What comes of the statements when all of them are run, one after another. -/
def responses : σ → List String → List Response
  | _, [] => []
  | s, t :: ts => (ex.execute s t).1 :: responses (ex.execute s t).2 ts

/-- The state of the connection when all of the statements have been run. -/
def after (s : σ) (ts : List String) : σ :=
  ts.foldl (fun s t => (ex.execute s t).2) s

@[simp] theorem length_responses (s : σ) (ts : List String) :
    (ex.responses s ts).length = ts.length := by
  induction ts generalizing s with
  | nil => rfl
  | cons t ts ih => simp [responses, ih]

/-- The first statements have the first responses. -/
theorem responses_take (s : σ) (ts : List String) (k : Nat) :
    ex.responses s (ts.take k) = (ex.responses s ts).take k := by
  induction ts generalizing s k with
  | nil => simp [responses]
  | cons t ts ih =>
    cases k with
    | zero => rfl
    | succ k => simp [responses, ih]

end Executor

/-! ## Boundaries -/

/-- The number of statements before the first boundary at which the flag is up, and the number of
all statements where there is no such boundary. The flag is up from the start or because one of the
statements before the boundary has raised it. There is no boundary after the last statement. -/
def firstCancelled (cancelled : Bool) (rs : List Response) : Nat :=
  ((List.range rs.length).find? fun i => cancelled || (rs.take i).any Response.cancels).getD
    rs.length

@[simp] theorem firstCancelled_nil (cancelled : Bool) : firstCancelled cancelled [] = 0 := rfl

/-- A flag that is up from the start is seen before the first statement. -/
@[simp] theorem firstCancelled_true_cons (r : Response) (rs : List Response) :
    firstCancelled true (r :: rs) = 0 := by
  simp [firstCancelled, List.range_succ_eq_map]

/-- While the flag is down a statement is run, and its response says how the flag stands after. -/
@[simp] theorem firstCancelled_false_cons (r : Response) (rs : List Response) :
    firstCancelled false (r :: rs) = firstCancelled r.cancels rs + 1 := by
  simp only [firstCancelled, List.length_cons, List.range_succ_eq_map, Bool.false_or]
  rw [List.find?_cons_of_neg (by simp), List.find?_map]
  simp only [Function.comp_def, Nat.succ_eq_add_one, List.take_succ_cons, List.any_cons]
  cases (List.range rs.length).find? fun i => r.cancels || (rs.take i).any Response.cancels <;> rfl

/-- Where no response raises the flag, it is never up. -/
theorem firstCancelled_of_forall {rs : List Response} (h : ∀ r ∈ rs, r.cancels = false) :
    firstCancelled false rs = rs.length := by
  induction rs with
  | nil => rfl
  | cons r rs ih =>
    obtain ⟨hr, hrs⟩ := List.forall_mem_cons.1 h
    rw [firstCancelled_false_cons, hr, ih hrs, List.length_cons]

theorem firstCancelled_le (cancelled : Bool) (rs : List Response) :
    firstCancelled cancelled rs ≤ rs.length := by
  induction rs generalizing cancelled with
  | nil => simp
  | cons r rs ih =>
    cases cancelled with
    | true => simp
    | false => simpa using ih r.cancels

/-! ## The progress of a run -/

namespace Progress

variable {σ : Type} {ex : Executor σ}

/-- The progress `q` is what `p` has become when all the statements have been run. -/
structure After (ex : Executor σ) (p : Progress σ) (ts : List String) (q : Progress σ) : Prop where
  state : q.state = ex.after p.state ts
  cancelled : q.cancelled = (p.cancelled || (ex.responses p.state ts).any Response.cancels)
  statements : q.statements = p.statements ++ ts
  executed : q.report.executed =
    p.report.executed + (ex.responses p.state ts).countP Response.succeeded
  alreadyExisting : q.report.alreadyExisting =
    p.report.alreadyExisting + (ex.responses p.state ts).countP Response.existed
  failed : q.failed = p.failed + (ex.responses p.state ts).countP Response.failed

/-- One statement adds its response to the progress. -/
theorem After.step (ex : Executor σ) (p : Progress σ) (t : String) :
    After ex p [t] (p.step ex t) := by
  unfold Progress.step
  cases he : (ex.execute p.state t).1.error with
  | none =>
    constructor <;>
      simp [he, Executor.after, Executor.responses, Response.succeeded, Response.existed,
        Response.failed]
  | some e =>
    by_cases hcode : e.code = Sql.nameInUse <;> constructor <;>
      simp [he, hcode, Executor.after, Executor.responses, Response.succeeded, Response.existed,
        Response.failed]

/-- A statement and then more statements. -/
theorem After.cons {p q r : Progress σ} {t : String} {ts : List String} (hq : After ex p [t] q)
    (hr : After ex q ts r) : After ex p (t :: ts) r := by
  have hstate : q.state = (ex.execute p.state t).2 := hq.state
  constructor
  · rw [hr.state, hstate]
    rfl
  · rw [hr.cancelled, hq.cancelled, hstate]
    simp [Executor.responses, Bool.or_assoc]
  · rw [hr.statements, hq.statements]
    simp
  · rw [hr.executed, hq.executed, hstate]
    simp only [Executor.responses, List.countP_cons, List.countP_nil]
    omega
  · rw [hr.alreadyExisting, hq.alreadyExisting, hstate]
    simp only [Executor.responses, List.countP_cons, List.countP_nil]
    omega
  · rw [hr.failed, hq.failed, hstate]
    simp only [Executor.responses, List.countP_cons, List.countP_nil]
    omega

/-- A list of statements adds all their responses. -/
theorem After.foldl (ex : Executor σ) (p : Progress σ) (ts : List String) :
    After ex p ts (ts.foldl (Progress.step ex) p) := by
  induction ts generalizing p with
  | nil => constructor <;> simp [Executor.after, Executor.responses]
  | cons t ts ih => exact (After.step ex p t).cons (ih _)

/-- The statements before the first boundary at which the flag is up are run, and then the run
stops, unless there was no such boundary. -/
theorem steps_eq (ex : Executor σ) (p : Progress σ) (ts : List String) :
    steps ex p ts =
      ((ts.take (firstCancelled p.cancelled (ex.responses p.state ts))).foldl (Progress.step ex) p,
        decide (firstCancelled p.cancelled (ex.responses p.state ts) < ts.length)) := by
  induction ts generalizing p with
  | nil => simp [steps, Executor.responses]
  | cons t ts ih =>
    cases hp : p.cancelled with
    | true => simp [steps, hp, Executor.responses]
    | false =>
      have hstep := After.step ex p t
      have hstate : (p.step ex t).state = (ex.execute p.state t).2 := hstep.state
      have hflag : (p.step ex t).cancelled = (ex.execute p.state t).1.cancels := by
        simpa [hp, Executor.responses] using hstep.cancelled
      simp only [steps, hp, Bool.false_eq_true, if_false, Executor.responses,
        firstCancelled_false_cons, List.take_succ_cons, List.foldl_cons, List.length_cons,
        Nat.add_lt_add_iff_right]
      rw [ih, hstate, hflag]

end Progress

/-! ## Runs -/

section

variable {σ : Type} (ex : Executor σ) (state : σ) (script : String)

/-- What a run has come to is what its first statements add to an empty progress. -/
theorem after_apply (cancelled : Bool) :
    Progress.After ex { state := state, cancelled := cancelled }
      ((split script).take (firstCancelled cancelled (ex.responses state (split script))))
      (apply ex state cancelled script).progress := by
  have hprogress : (apply ex state cancelled script).progress =
      ((split script).take (firstCancelled cancelled (ex.responses state (split script)))).foldl
        (Progress.step ex) { state := state, cancelled := cancelled } := by
    simp [apply, Progress.steps_eq]
  rw [hprogress]
  exact Progress.After.foldl ex _ _

/-- What a run reports is told from its progress, and from whether it stopped at a boundary. -/
theorem result_apply (cancelled : Bool) :
    (apply ex state cancelled script).result =
      let p := (apply ex state cancelled script).progress
      if firstCancelled cancelled (ex.responses state (split script)) < (split script).length then
        .error (.cancelled p.report.executed)
      else if 0 < p.failed then .error (.incomplete p.failed (split script).length)
      else .ok p.report := by
  simp [apply, Progress.steps_eq]

/-- A run on a connection that never raises the flag executes all statements. -/
theorem state_apply (h : ∀ s t, (ex.execute s t).1.cancels = false) :
    (apply ex state false script).progress.state = ex.after state (split script) := by
  have hflags : ∀ r ∈ ex.responses state (split script), r.cancels = false := by
    generalize split script = ts
    induction ts generalizing state with
    | nil => simp [Executor.responses]
    | cons t ts ih => exact List.forall_mem_cons.2 ⟨h state t, ih _⟩
  rw [(after_apply ex state script false).state, firstCancelled_of_forall hflags,
    ex.length_responses, List.take_length]

/-- The flag of a handle that has been cancelled stays up. -/
theorem cancelled_apply_of_cancelled : (apply ex state true script).progress.cancelled = true := by
  simpa using (after_apply ex state script true).cancelled

/-- A run under a flag that is up from the start executes nothing. -/
theorem apply_of_cancelled (h : split script ≠ []) :
    (apply ex state true script).progress.statements = [] ∧
      (apply ex state true script).progress.state = state ∧
      (apply ex state true script).result = .error (.cancelled 0) := by
  obtain ⟨t, ts, hts⟩ := List.exists_cons_of_ne_nil h
  unfold apply
  simp [hts, Progress.steps]

end

/-- What is done with one handle: it is cancelled from outside, or a script is run on a connection
in some state. -/
inductive Use : Type 1 where
  | cancel
  | run {σ : Type} (ex : Executor σ) (state : σ) (script : String)

/-- How the flag of the handle stands after a use. -/
def Use.flag (cancelled : Bool) : Use → Bool
  | cancel => true
  | run ex state script => (apply ex state cancelled script).progress.cancelled

/-- No use takes the flag down. -/
theorem Use.foldl_flag_true (uses : List Use) : uses.foldl Use.flag true = true := by
  induction uses with
  | nil => rfl
  | cons u uses ih =>
    have hu : Use.flag true u = true := by
      cases u with
      | cancel => rfl
      | run ex state script => exact cancelled_apply_of_cancelled ex state script
    rw [List.foldl_cons, hu, ih]

/-- A run with a new handle executes the statements of its script in order, each once, up to the
first boundary at which the flag is up. If it stops there, it reports how many statements were
executed. Otherwise all were run: errors that are not tolerated make it incomplete, and without any
each statement was executed or found its object. Once the flag of a handle is up, whatever is done
with it next, a script with a statement executes nothing. -/
theorem apply_fresh {σ : Type} (ex : Executor σ) (state : σ) (script : String) :
    let statements := split script
    let responses := ex.responses state statements
    let boundary := firstCancelled false responses
    let outcome := apply ex state false script
    outcome.progress.statements = statements.take boundary ∧
      outcome.progress.state = ex.after state (statements.take boundary) ∧
      boundary ≤ statements.length ∧
      (boundary < statements.length →
        outcome.result =
          .error (.cancelled ((responses.take boundary).countP Response.succeeded))) ∧
      (boundary = statements.length → 0 < responses.countP Response.failed →
        outcome.result =
          .error (.incomplete (responses.countP Response.failed) statements.length)) ∧
      (boundary = statements.length → responses.countP Response.failed = 0 →
        ∃ report, outcome.result = .ok report ∧
          report.executed = responses.countP Response.succeeded ∧
          report.executed + report.alreadyExisting = statements.length) ∧
      ∀ before later : List Use, before.foldl Use.flag false = true →
        ∀ {τ : Type} (other : Executor τ) (start : τ) (next : String), split next ≠ [] →
          let refused := apply other start ((before ++ later).foldl Use.flag false) next
          refused.progress.statements = [] ∧ refused.progress.state = start ∧
            refused.result = .error (.cancelled 0) := by
  intro statements responses boundary outcome
  have hafter := after_apply ex state script false
  have hle : boundary ≤ statements.length := by
    simpa [responses] using firstCancelled_le false responses
  -- The counts of the progress are those of the responses before the boundary.
  have hexecuted : outcome.progress.report.executed =
      (responses.take boundary).countP Response.succeeded := by
    simpa [Executor.responses_take] using hafter.executed
  have hexisting : outcome.progress.report.alreadyExisting =
      (responses.take boundary).countP Response.existed := by
    simpa [Executor.responses_take] using hafter.alreadyExisting
  have hfailed : outcome.progress.failed = (responses.take boundary).countP Response.failed := by
    simpa [Executor.responses_take] using hafter.failed
  have hresult : outcome.result =
      if boundary < statements.length then .error (.cancelled outcome.progress.report.executed)
      else if 0 < outcome.progress.failed then
        .error (.incomplete outcome.progress.failed statements.length)
      else .ok outcome.progress.report := result_apply ex state script false
  have hall (heq : boundary = statements.length) : responses.take boundary = responses :=
    List.take_of_length_le (by simp [heq, responses])
  refine ⟨by simpa using hafter.statements, hafter.state, hle, ?_, ?_, ?_, ?_⟩
  · intro hlt
    rw [hresult, if_pos hlt, hexecuted]
  · intro heq hpos
    rw [hall heq] at hfailed
    rw [hresult, if_neg (by omega), hfailed, if_pos hpos]
  · intro heq hzero
    rw [hall heq] at hexecuted hexisting hfailed
    refine ⟨outcome.progress.report, ?_, hexecuted, ?_⟩
    · rw [hresult, if_neg (by omega), if_neg (by omega)]
    · have hcount := countP_responses responses
      have hlength : responses.length = statements.length := ex.length_responses state statements
      omega
  · intro before later hup τ other start next hnext
    rw [List.foldl_append, hup, Use.foldl_flag_true]
    exact apply_of_cancelled other start next hnext

/-- The first of two statements raises the flag: the second one is not run, and neither is the next
script. -/
theorem apply_fresh_raised :
    let ex : Executor Unit := ⟨fun s _ => (⟨none, true⟩, s)⟩
    (apply ex () false "DROP TABLE a;\n\nDROP TABLE b;").progress.statements = ["DROP TABLE a"] ∧
      (apply ex () false "DROP TABLE a;\n\nDROP TABLE b;").result = .error (.cancelled 1) ∧
      (apply ex () ([Use.run ex () "DROP TABLE a;"].foldl Use.flag false) "DROP TABLE b;").result =
        .error (.cancelled 0) := by
  intro ex
  have hlaw := apply_fresh ex () "DROP TABLE a;\n\nDROP TABLE b;"
  have hsplit : split "DROP TABLE a;\n\nDROP TABLE b;" = ["DROP TABLE a", "DROP TABLE b"] := by
    decide +kernel
  rw [hsplit] at hlaw
  obtain ⟨hstatements, -, -, hcancelled, -, -, hlater⟩ := hlaw
  have hup : [Use.run ex () "DROP TABLE a;"].foldl Use.flag false = true := by decide +kernel
  exact ⟨hstatements, hcancelled (by decide), (hlater _ [] hup ex () _ (by decide +kernel)).2.2⟩

end SchemaDelta.Run
