import Mathlib.Data.List.Basic

set_option autoImplicit false

/-! Pull-based execution of a parsed script (`sqlexec/src/executor.rs`). The planner and
the session are parameters: every result about the executor holds for any behaviour of
either, failures included. -/

namespace GlareDb.Sqlexec

/-- `ExecError`. The executor only builds the internal variant; every other error comes
from the planner or the session and is passed through unchanged. -/
inductive ExecError where
  | internal (message : String)
  | other (message : String)
  deriving DecidableEq, Repr

/-- `DdlPlan`. Modelled from the spec: the plan types are not under `src/`. Payloads are
left abstract (`π`), since the executor only hands them to the session. -/
inductive DdlPlan (π : Type) where
  | createTable (plan : π)
  | createExternalTable (plan : π)
  | createTableAs (plan : π)
  | createSchema (plan : π)
  | dropTables (plan : π)
  | dropSchemas (plan : π)
  | alterTable (plan : π)
  | dropCredentials (plan : π)
  deriving DecidableEq, Repr

/-- `WritePlan`. Modelled from the spec. -/
inductive WritePlan (π : Type) where
  | insert (plan : π)
  deriving DecidableEq, Repr

/-- `ConfigurationPlan`. Modelled from the spec. -/
inductive ConfigurationPlan (π : Type) where
  | setConfiguration (plan : π)
  deriving DecidableEq, Repr

/-- `LogicalPlan`. Modelled from the spec: one top-level variant per parsed statement. -/
inductive LogicalPlan (π : Type) where
  | ddl (plan : DdlPlan π)
  | write (plan : WritePlan π)
  | query (plan : π)
  | configuration (plan : ConfigurationPlan π)
  deriving DecidableEq, Repr

/-- `ExecutionResult`, with the query stream left abstract. -/
inductive ExecutionResult (Stream : Type) where
  | query (stream : Stream)
  | begin
  | commit
  | rollback
  | writeSuccess
  | createTable
  | createSchema
  | setLocal
  | dropTables
  | dropSchemas

/-- The collaborators `execute_statement` calls. The planner only reads the session
(`SessionPlanner::new(&self.session.ctx)`); the session methods take `&mut self`, so
each may change the session whether it succeeds or fails. -/
structure Session (σ Stmt π Physical Stream : Type) where
  planAst : σ → Stmt → Except ExecError (LogicalPlan π)
  createTable : π → EStateM ExecError σ Unit
  createExternalTable : π → EStateM ExecError σ Unit
  createTableAs : π → EStateM ExecError σ Unit
  createSchema : π → EStateM ExecError σ Unit
  dropTables : π → EStateM ExecError σ Unit
  dropSchemas : π → EStateM ExecError σ Unit
  insert : π → EStateM ExecError σ Unit
  createPhysicalPlan : π → EStateM ExecError σ Physical
  executePhysical : Physical → EStateM ExecError σ Stream
  setConfiguration : π → EStateM ExecError σ Unit

variable {σ Stmt π Physical Stream : Type}

/-- Planning as a step of the session monad: it reads the session and never writes it. -/
def Session.plan (session : Session σ Stmt π Physical Stream) (stmt : Stmt) :
    EStateM ExecError σ (LogicalPlan π) := fun state =>
  match session.planAst state stmt with
  | .ok plan => .ok plan state
  | .error error => .error error state

/-- `Executor::execute_statement`. `debug` renders a plan as `{:?}` does. -/
def executeStatement (session : Session σ Stmt π Physical Stream) (debug : LogicalPlan π → String)
    (stmt : Stmt) : EStateM ExecError σ (ExecutionResult Stream) := do
  let plan ← session.plan stmt
  match plan with
  | .ddl (.createTable plan) => do session.createTable plan; pure .createTable
  | .ddl (.createExternalTable plan) => do session.createExternalTable plan; pure .createTable
  | .ddl (.createTableAs plan) => do session.createTableAs plan; pure .createTable
  | .ddl (.createSchema plan) => do session.createSchema plan; pure .createSchema
  | .ddl (.dropTables plan) => do session.dropTables plan; pure .dropTables
  | .ddl (.dropSchemas plan) => do session.dropSchemas plan; pure .dropSchemas
  | .write (.insert plan) => do session.insert plan; pure .writeSuccess
  | .query plan => do
    let physical ← session.createPhysicalPlan plan
    let stream ← session.executePhysical physical
    pure (.query stream)
  | .configuration (.setConfiguration plan) => do
    session.setConfiguration plan; pure .setLocal
  | other => throw (.internal s!"unimplemented logical plan: {debug other}")

/-- The plan variants `execute_statement` has a handler for. -/
def LogicalPlan.Handled : LogicalPlan π → Prop
  | .ddl (.alterTable _) | .ddl (.dropCredentials _) => False
  | _ => True

instance : DecidablePred (LogicalPlan.Handled (π := π)) := fun plan => by
  unfold LogicalPlan.Handled; split <;> infer_instance

/-- `Executor`: the parsed statements still queued, and the session it borrows. -/
structure Executor (σ Stmt : Type) where
  statements : List Stmt
  session : σ

/-- `Executor::new`. `parseSql` is `CustomParser::parse_sql`: a malformed script fails
before any queue exists. -/
def Executor.new (parseSql : String → Except ExecError (List Stmt)) (sql : String) (session : σ) :
    Except ExecError (Executor σ Stmt) := do
  let statements ← parseSql sql
  pure { statements, session }

/-- `Executor::statements_remaining`. -/
def Executor.statementsRemaining (executor : Executor σ Stmt) : Nat := executor.statements.length

/-- The value and the session a session-monad step ends with, as `(Result, session)`. -/
def settle {α : Type} : EStateM.Result ExecError σ α → Except ExecError α × σ
  | .ok value state => (.ok value, state)
  | .error error state => (.error error, state)

/-- `Executor::execute_next`: pop the front statement, then execute it. The statement is
gone from the queue whatever the outcome. -/
def Executor.executeNext (session : Session σ Stmt π Physical Stream)
    (debug : LogicalPlan π → String) (executor : Executor σ Stmt) :
    Option (Except ExecError (ExecutionResult Stream)) × Executor σ Stmt :=
  match executor.statements with
  | [] => (none, executor)
  | stmt :: rest =>
    let (result, state) := settle (executeStatement session debug stmt executor.session)
    (some result, { statements := rest, session := state })

end GlareDb.Sqlexec
