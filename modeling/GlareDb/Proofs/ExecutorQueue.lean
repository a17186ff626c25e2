import GlareDb.Sqlexec.Executor

set_option autoImplicit false

/-! The executor runs a script exactly as a sequential fold over its statements: pulling
`k` times executes the first `k` statements once each and in order, whatever each one
returns. A call that fails before reaching a handler leaves the session as it was. -/

namespace GlareDb.Proofs.ExecutorQueue
open GlareDb.Sqlexec

variable {σ Stmt π Physical Stream : Type}
  (session : Session σ Stmt π Physical Stream) (debug : LogicalPlan π → String)

/-- `k` successive calls to `execute_next`, with what each returned. -/
def run : Nat → Executor σ Stmt →
    List (Option (Except ExecError (ExecutionResult Stream))) × Executor σ Stmt
  | 0, executor => ([], executor)
  | k + 1, executor =>
    let (first, next) := executor.executeNext session debug
    let (rest, final) := run k next
    (first :: rest, final)

/-- What the script means: each statement executed once, in order, from the session the
previous one left, with no statement skipped after a failure. -/
def runScript : List Stmt → σ → List (Except ExecError (ExecutionResult Stream)) × σ
  | [], state => ([], state)
  | stmt :: rest, state =>
    let (first, next) := settle (executeStatement session debug stmt state)
    let (results, final) := runScript rest next
    (first :: results, final)

theorem executeStatement_plan_error {stmt : Stmt} {state : σ} {error : ExecError}
    (failed : session.planAst state stmt = .error error) :
    executeStatement session debug stmt state = .error error state := by
  simp only [executeStatement, bind, EStateM.bind, Session.plan, failed]

theorem executeStatement_unhandled {stmt : Stmt} {state : σ} {plan : LogicalPlan π}
    (planned : session.planAst state stmt = .ok plan) (unhandled : ¬ plan.Handled) :
    executeStatement session debug stmt state =
      .error (.internal s!"unimplemented logical plan: {debug plan}") state := by
  simp only [executeStatement, bind, EStateM.bind, Session.plan, planned]
  rcases plan with (_ | _ | _ | _ | _ | _ | _ | _) | _ | _ | _ <;>
    first | rfl | exact absurd trivial unhandled

theorem run_nil (k : Nat) (state : σ) :
    run session debug k ⟨[], state⟩ = (List.replicate k none, ⟨[], state⟩) := by
  induction k with
  | zero => rfl
  | succ k ih => simp only [run, Executor.executeNext, ih, List.replicate_succ]

/-- Pulling `k` times refines the script: the results are those of the first `k`
statements run in order, then one `None` per call past the end, and the queue keeps
exactly the statements not yet pulled. -/
theorem run_eq_runScript (k : Nat) (stmts : List Stmt) (state : σ) :
    run session debug k ⟨stmts, state⟩ =
      ((runScript session debug (stmts.take k) state).1.map some ++
          List.replicate (k - stmts.length) none,
        ⟨stmts.drop k, (runScript session debug (stmts.take k) state).2⟩) := by
  induction k generalizing stmts state with
  | zero => simp [run, runScript]
  | succ k ih =>
    cases stmts with
    | nil => simpa [runScript] using run_nil session debug (k + 1) state
    | cons stmt rest => simp only [run, Executor.executeNext, ih, runScript, List.take_succ_cons,
        List.drop_succ_cons, List.length_cons, List.map_cons, List.cons_append,
        Nat.add_sub_add_right]

theorem statementsRemaining_run (k : Nat) (stmts : List Stmt) (state : σ) :
    (run session debug k ⟨stmts, state⟩).2.statementsRemaining = stmts.length - min k stmts.length := by
  rw [run_eq_runScript]
  simp only [Executor.statementsRemaining, List.length_drop]
  omega

/-- The executor's queue discipline: every run of `k` calls on a script of `n` statements
executes exactly the first `min k n` statements, once each and in order, after failures
too; calls past the end return `None` and leave the session alone; `k` calls leave
`n - min k n` statements; and a call that fails in planning, or whose plan has no
handler, returns that error with the session unchanged and no session method invoked. -/
theorem execute_next_follows_script (stmts : List Stmt) (state : σ) (k : Nat) :
    run session debug k ⟨stmts, state⟩ =
        ((runScript session debug (stmts.take k) state).1.map some ++
            List.replicate (k - stmts.length) none,
          ⟨stmts.drop k, (runScript session debug (stmts.take k) state).2⟩) ∧
      (run session debug k ⟨stmts, state⟩).2.statementsRemaining =
        stmts.length - min k stmts.length ∧
      (∀ (executor : Executor σ Stmt) stmt rest error, executor.statements = stmt :: rest →
        session.planAst executor.session stmt = .error error →
        executor.executeNext session debug =
          (some (.error error), ⟨rest, executor.session⟩)) ∧
      (∀ (executor : Executor σ Stmt) stmt rest plan, executor.statements = stmt :: rest →
        session.planAst executor.session stmt = .ok plan → ¬ plan.Handled →
        executor.executeNext session debug =
          (some (.error (.internal s!"unimplemented logical plan: {debug plan}")),
            ⟨rest, executor.session⟩)) := by
  refine ⟨run_eq_runScript session debug k stmts state,
    statementsRemaining_run session debug k stmts state, ?_, ?_⟩
  · intro executor stmt rest error queued failed
    simp only [Executor.executeNext, queued, executeStatement_plan_error session debug failed, settle]
  · intro executor stmt rest plan queued planned unhandled
    simp only [Executor.executeNext, queued,
      executeStatement_unhandled session debug planned unhandled, settle]

end GlareDb.Proofs.ExecutorQueue
