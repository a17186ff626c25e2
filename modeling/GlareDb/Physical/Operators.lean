import Mathlib.Data.List.Basic

set_option autoImplicit false

/-! The asynchronous side of the physical mutation operators. An operator's body is a
program of requests to its collaborators (the catalog mutator, the Delta table writer,
the input plan's metrics); a stream is the bodies its polls run, in order. Any behaviour
of the collaborators is a `Backend`. -/

namespace GlareDb.Physical

/-- `DataFusionError`, with the variants the operators build. -/
inductive DataFusionError where
  | execution (message : String)
  | internal (message : String)
  | external (cause : String)
  | plan (message : String)
  deriving DecidableEq, Repr

/-- The output schemas: `GENERIC_OPERATION_PHYSICAL_SCHEMA` and `COUNT_SCHEMA`. -/
inductive Schema where
  | genericOperation
  | count
  deriving DecidableEq, Repr

/-- The one-row batches the operators emit: `new_operation_batch(name)` and
`create_count_record_batch(count)`. -/
inductive RecordBatch where
  | operation (name : String)
  | count (rows : Nat)
  deriving DecidableEq, Repr

/-- `Mutation`, with the variant `AlterTableExec` submits. -/
inductive Mutation (Operation : Type) where
  | alterTable (schema name : String) (operation : Operation)
  deriving DecidableEq, Repr

/-- `deltalake::protocol::SaveMode`. -/
inductive SaveMode where
  | append
  | overwrite
  | errorIfExists
  | ignore
  deriving DecidableEq, Repr

/-- The input plan of an insert, as far as the insert can tell: whether it overrides
`ExecutionPlan::metrics` (the trait's default returns `None`), and whether its streams
count their rows in `OutputRows` metrics. -/
structure InputPlan where
  implementsMetrics : Bool
  recordsOutputRows : Bool
  deriving DecidableEq, Repr

/-- `MetricsSet`: the values of its `OutputRows` metrics, one per executed partition. -/
structure MetricsSet where
  outputRows : List Nat
  deriving DecidableEq, Repr

/-- `MetricsSet::output_rows`: the sum of the `OutputRows` metrics, `None` without any. -/
def MetricsSet.outputRowsTotal (metrics : MetricsSet) : Option Nat :=
  if metrics.outputRows = [] then none else some (metrics.outputRows.foldr (· + ·) 0)

/-- The requests an operator body sends, indexed by their reply. -/
inductive Request (Operation Store Snapshot : Type) : Type → Type where
  /-- `CatalogMutator::mutate_and_commit`. -/
  | mutateAndCommit (version : Nat) (mutations : List (Mutation Operation)) :
      Request Operation Store Snapshot (Except String Unit)
  /-- Awaiting a `WriteBuilder`: drive the input plan to completion into the table. -/
  | write (store : Store) (snapshot : Snapshot) (saveMode : SaveMode) (input : InputPlan) :
      Request Operation Store Snapshot (Except String Unit)
  /-- `ExecutionPlan::metrics` of a plan. -/
  | metrics (input : InputPlan) : Request Operation Store Snapshot (Option MetricsSet)

variable {Operation Store Snapshot : Type}

/-- A request with its reply type forgotten, as a trace records it. -/
abbrev Call (Operation Store Snapshot : Type) := Σ reply : Type, Request Operation Store Snapshot reply

/-- An async body: a result, or a request and what follows each reply. -/
inductive Program (Operation Store Snapshot : Type) (α : Type) where
  | pure (value : α)
  | request {reply : Type} (operation : Request Operation Store Snapshot reply)
      (next : reply → Program Operation Store Snapshot α)

/-- Any behaviour of the collaborators: a reply and a new state for every request. -/
abbrev Backend (Operation Store Snapshot σ : Type) :=
  {reply : Type} → Request Operation Store Snapshot reply → σ → reply × σ

/-- Run a body against a backend: its result, the final state, and the requests made. -/
def Program.run {σ α : Type} (backend : Backend Operation Store Snapshot σ) :
    Program Operation Store Snapshot α → σ → α × σ × List (Call Operation Store Snapshot)
  | .pure value, state => (value, state, [])
  | .request operation next, state =>
    let (reply, state) := backend operation state
    let (value, final, calls) := (next reply).run backend state
    (value, final, ⟨_, operation⟩ :: calls)

/-- `SendableRecordBatchStream` built by `RecordBatchStreamAdapter`: its schema and the
bodies its successive polls run, one item each. -/
structure RecordBatchStream (Operation Store Snapshot : Type) where
  schema : Schema
  polls : List (Program Operation Store Snapshot (Except DataFusionError RecordBatch))

/-- `futures::stream::once`: one poll runs the future and yields its output. -/
def streamOnce {α : Type} (future : Program Operation Store Snapshot α) :
    List (Program Operation Store Snapshot α) :=
  [future]

/-- Poll a stream until it ends: the items, the final state, and every request made. -/
def RecordBatchStream.drain {σ : Type} (backend : Backend Operation Store Snapshot σ)
    (stream : RecordBatchStream Operation Store Snapshot) (state : σ) :
    List (Except DataFusionError RecordBatch) × σ × List (Call Operation Store Snapshot) :=
  go stream.polls state
where
  go : List (Program Operation Store Snapshot (Except DataFusionError RecordBatch)) → σ →
      List (Except DataFusionError RecordBatch) × σ × List (Call Operation Store Snapshot)
    | [], state => ([], state, [])
    | poll :: rest, state =>
      let (item, state, calls) := poll.run backend state
      let (items, final, later) := go rest state
      (item :: items, final, calls ++ later)

/-- `Partitioning`, with the variant the mutation operators declare. -/
inductive Partitioning where
  | unknownPartitioning (count : Nat)
  deriving DecidableEq, Repr

/-- The catalog mutator handle a task context may carry; its requests are `Request`s. -/
structure CatalogMutator where
  deriving DecidableEq, Repr

/-- `TaskContext`, as far as the operators read it: the catalog mutator among the
extensions of its session config. -/
structure TaskContext where
  catalogMutator : Option CatalogMutator
  deriving DecidableEq, Repr

/-- A call whose `expect` may panic instead of returning. -/
inductive Panicking (α : Type 1) where
  | returns (value : α)
  | panics (message : String)

/-! ### `AlterTableExec`

`sqlexec/src/planner/physical_plan/alter_table.rs`: a single-partition operator whose stream
commits one `AlterTable` mutation. -/

/-- `AlterTableExec`. -/
structure AlterTableExec (Operation : Type) where
  catalogVersion : Nat
  schema : String
  name : String
  operation : Operation
  deriving DecidableEq, Repr

/-- `AlterTableExec::schema`. -/
def AlterTableExec.outputSchema (_plan : AlterTableExec Operation) : Schema := .genericOperation

/-- `AlterTableExec::output_partitioning`. -/
def AlterTableExec.outputPartitioning (_plan : AlterTableExec Operation) : Partitioning :=
  .unknownPartitioning 1

/-- `AlterTableExec::with_new_children`: only an empty list of children is accepted. -/
def AlterTableExec.withNewChildren {Child : Type} (plan : AlterTableExec Operation)
    (children : List Child) : Except DataFusionError (AlterTableExec Operation) :=
  if children.isEmpty then .ok plan
  else .error (.plan "Cannot change children for AlterTableRenameExec")

/-- `alter_table_rename`: commit the one mutation against the version the plan saw. -/
def alterTableRename (plan : AlterTableExec Operation) :
    Program Operation Store Snapshot (Except DataFusionError RecordBatch) :=
  .request (.mutateAndCommit plan.catalogVersion [.alterTable plan.schema plan.name plan.operation])
    fun reply =>
      match reply with
      | .ok _ => .pure (.ok (.operation "alter_table"))
      | .error error => .pure (.error (.execution ("failed to alter table: " ++ error)))

/-- `AlterTableExec::execute`. -/
def AlterTableExec.execute (plan : AlterTableExec Operation) (partition : Nat)
    (context : TaskContext) :
    Panicking (Except DataFusionError (RecordBatchStream Operation Store Snapshot)) :=
  if partition ≠ 0 then .returns (.error (.execution "AlterTableExec only supports 1 partition"))
  else
    match context.catalogMutator with
    | none => .panics "context should have catalog mutator"
    | some _ => .returns (.ok { schema := plan.outputSchema, polls := streamOnce (alterTableRename plan) })

/-! ### `NativeTableInsertExec`

`datasources/src/native/insert.rs`: a single-partition operator whose stream writes its input
into a Delta table and reports a row count read from the input's metrics. -/

/-- `NativeTableInsertExec`. -/
structure NativeTableInsertExec (Store Snapshot : Type) where
  input : InputPlan
  store : Store
  snapshot : Snapshot
  saveMode : SaveMode

/-- `NativeTableInsertExec::schema`. -/
def NativeTableInsertExec.outputSchema (_exec : NativeTableInsertExec Store Snapshot) : Schema :=
  .count

/-- The count the insert reports: `input.metrics().map(|m| m.output_rows().unwrap_or_default())
.unwrap_or_default()`. -/
def reportedCount (metrics : Option MetricsSet) : Nat :=
  (metrics.map fun metrics => metrics.outputRowsTotal.getD 0).getD 0

@[simp] theorem reportedCount_none : reportedCount none = 0 := rfl

/-- With metrics, the count is the sum of the `OutputRows` metrics, also when there are none. -/
@[simp] theorem reportedCount_some (metrics : MetricsSet) :
    reportedCount (some metrics) = metrics.outputRows.foldr (· + ·) 0 := by
  by_cases empty : metrics.outputRows = [] <;>
    simp [reportedCount, MetricsSet.outputRowsTotal, empty]

/-- The future of `NativeTableInsertExec::execute`: await the write, then read the count
from the input's metrics. -/
def NativeTableInsertExec.writeInput (exec : NativeTableInsertExec Store Snapshot) :
    Program Operation Store Snapshot (Except DataFusionError RecordBatch) :=
  .request (.write exec.store exec.snapshot exec.saveMode exec.input) fun reply =>
    match reply with
    | .error error => .pure (.error (.external error))
    | .ok _ => .request (.metrics exec.input) fun metrics => .pure (.ok (.count (reportedCount metrics)))

/-- `NativeTableInsertExec::execute`. -/
def NativeTableInsertExec.execute (exec : NativeTableInsertExec Store Snapshot) (partition : Nat)
    (_context : TaskContext) : Except DataFusionError (RecordBatchStream Operation Store Snapshot) :=
  if partition ≠ 0 then
    .error (.internal ("Invalid requested partition " ++ toString partition ++
      ". NativeTableInsertExec requires a single input partition."))
  else .ok { schema := exec.outputSchema, polls := streamOnce exec.writeInput }

end GlareDb.Physical
