import GlareDb.Physical.Operators

set_option autoImplicit false

/-! The mutation operators confine their side effect to partition 0: any other partition
is refused before a stream exists, and the stream of partition 0 makes its one
side-effecting request when drained and yields exactly one item, whatever the backend
answers. The insert's count is its input's `OutputRows` metric, not a count of rows. -/

namespace GlareDb.Proofs.MutationOperators
open GlareDb.Physical

variable {Operation Store Snapshot : Type}

theorem streamOnce_drain {σ : Type} (backend : Backend Operation Store Snapshot σ)
    (schema : Schema) (future : Program Operation Store Snapshot (Except DataFusionError RecordBatch))
    (state : σ) :
    (RecordBatchStream.mk schema (streamOnce future)).drain backend state =
      let (item, final, calls) := future.run backend state
      ([item], final, calls) := by
  simp [RecordBatchStream.drain, RecordBatchStream.drain.go, streamOnce]

/-- What draining an `AlterTableExec` stream does: one `mutate_and_commit` of the plan's
mutation against its catalog version, and one item telling how it went. -/
def alterOutcome {σ : Type} (plan : AlterTableExec Operation) (backend : Backend Operation Store Snapshot σ)
    (state : σ) :
    List (Except DataFusionError RecordBatch) × σ × List (Call Operation Store Snapshot) :=
  let operation : Request Operation Store Snapshot (Except String Unit) :=
    .mutateAndCommit plan.catalogVersion [.alterTable plan.schema plan.name plan.operation]
  let (reply, final) := backend operation state
  ([match reply with
    | .ok _ => .ok (.operation "alter_table")
    | .error error => .error (.execution ("failed to alter table: " ++ error))], final, [⟨_, operation⟩])

/-- What draining a `NativeTableInsertExec` stream does: one write of the input; after a
successful write one read of the input's metrics and the count batch, after a failed one
the error and nothing else. -/
def insertOutcome {σ : Type} (exec : NativeTableInsertExec Store Snapshot)
    (backend : Backend Operation Store Snapshot σ) (state : σ) :
    List (Except DataFusionError RecordBatch) × σ × List (Call Operation Store Snapshot) :=
  let write : Request Operation Store Snapshot (Except String Unit) :=
    .write exec.store exec.snapshot exec.saveMode exec.input
  let (reply, written) := backend write state
  match reply with
  | .error error => ([.error (.external error)], written, [⟨_, write⟩])
  | .ok _ =>
    let (metrics, final) := backend (.metrics exec.input) written
    ([.ok (.count (reportedCount metrics))], final, [⟨_, write⟩, ⟨_, .metrics exec.input⟩])

theorem alterTable_drain {σ : Type} (plan : AlterTableExec Operation)
    (backend : Backend Operation Store Snapshot σ) (state : σ) :
    (RecordBatchStream.mk plan.outputSchema (streamOnce (alterTableRename plan))).drain backend state =
      alterOutcome plan backend state := by
  simp only [streamOnce_drain, alterTableRename, alterOutcome, Program.run]
  cases (backend (.mutateAndCommit plan.catalogVersion _) state).1 <;> rfl

theorem insert_drain {σ : Type} (exec : NativeTableInsertExec Store Snapshot)
    (backend : Backend Operation Store Snapshot σ) (state : σ) :
    (RecordBatchStream.mk exec.outputSchema (streamOnce exec.writeInput)).drain backend state =
      insertOutcome exec backend state := by
  simp only [streamOnce_drain, NativeTableInsertExec.writeInput, insertOutcome, Program.run]
  cases (backend (.write exec.store exec.snapshot exec.saveMode exec.input) state).1 <;> rfl

/-- Both mutation operators refuse every partition but 0 with their error and no stream,
so nothing can run; at partition 0 (with the catalog mutator in the context) each returns
a stream that, drained against any backend from any state, makes exactly its one
side-effecting request and yields exactly one item: the one-row batch when that request
succeeded, the error when it failed. -/
theorem mutation_operators_single_partition (plan : AlterTableExec Operation)
    (exec : NativeTableInsertExec Store Snapshot) (context : TaskContext)
    (carries : context.catalogMutator.isSome) :
    (∀ partition, partition ≠ 0 →
      plan.execute partition context =
          (.returns (.error (.execution "AlterTableExec only supports 1 partition")) :
            Panicking (Except DataFusionError (RecordBatchStream Operation Store Snapshot))) ∧
        exec.execute partition context =
          (.error (.internal ("Invalid requested partition " ++ toString partition ++
            ". NativeTableInsertExec requires a single input partition.")) :
            Except DataFusionError (RecordBatchStream Operation Store Snapshot))) ∧
    (∃ stream : RecordBatchStream Operation Store Snapshot, plan.execute 0 context = .returns (.ok stream) ∧
      ∀ (σ : Type) (backend : Backend Operation Store Snapshot σ) (state : σ),
        stream.drain backend state = alterOutcome plan backend state) ∧
    (∃ stream : RecordBatchStream Operation Store Snapshot, exec.execute 0 context = .ok stream ∧
      ∀ (σ : Type) (backend : Backend Operation Store Snapshot σ) (state : σ),
        stream.drain backend state = insertOutcome exec backend state) := by
  obtain ⟨mutator, holds⟩ := Option.isSome_iff_exists.mp carries
  refine ⟨fun partition other => ⟨?_, ?_⟩, ⟨_, ?_, fun σ => alterTable_drain plan⟩,
    ⟨_, rfl, fun σ => insert_drain exec⟩⟩
  · simp [AlterTableExec.execute, other]
  · simp [NativeTableInsertExec.execute, other]
  · simp [AlterTableExec.execute, holds]

/-- An alter of a table by a sample operation, and an append of a sample input. -/
def samplePlan : AlterTableExec String := ⟨7, "public", "t", "rename to u"⟩

def sampleInsert : NativeTableInsertExec Unit Unit := ⟨⟨true, true⟩, (), (), .append⟩

theorem mutation_operators_single_partition_sample :
    (⟨some ⟨⟩⟩ : TaskContext).catalogMutator.isSome ∧
      samplePlan.execute 1 ⟨some ⟨⟩⟩ =
        (.returns (.error (.execution "AlterTableExec only supports 1 partition")) :
          Panicking (Except DataFusionError (RecordBatchStream String Unit Unit))) :=
  ⟨rfl, ((mutation_operators_single_partition samplePlan sampleInsert ⟨some ⟨⟩⟩ rfl).1 1
    (by decide)).1⟩

/-! DataFusion's side of an insert. An input plan instance keeps its metrics across
executions: each executed partition adds its row count as an `OutputRows` metric when
its stream records one, and `metrics()` shows them only when the plan implements it. -/

/-- The collaborators of an insert whose write succeeds, its input's partitions producing
`partitionRows`; the state is the input plan instance's metrics. -/
def executionBackend (partitionRows : List Nat) : Backend Operation Store Snapshot MetricsSet :=
  fun request registered =>
    match request with
    | .mutateAndCommit _ _ => (.ok (), registered)
    | .write _ _ _ input =>
      (.ok (), if input.recordsOutputRows then ⟨registered.outputRows ++ partitionRows⟩ else registered)
    | .metrics input => (if input.implementsMetrics then some registered else none, registered)

/-- The rows the input's partitions produce during one write. -/
def rowsProduced (partitionRows : List Nat) : Nat := partitionRows.foldr (· + ·) 0

private theorem foldr_add_start (rows : List Nat) (start : Nat) :
    rows.foldr (· + ·) start = rows.foldr (· + ·) 0 + start := by
  induction rows <;> simp_all [Nat.add_assoc]

/-- The count is not the rows the write produced: an input that does not implement
`metrics()` reports 0, and a re-executed input instance adds its earlier rows. -/
theorem insert_count_not_rows_produced :
    (∃ stream : RecordBatchStream String Unit Unit,
      NativeTableInsertExec.execute ⟨⟨false, true⟩, (), (), .append⟩ 0 ⟨none⟩ = .ok stream ∧
        (stream.drain (executionBackend [3]) ⟨[]⟩).1 = [.ok (.count 0)]) ∧
    (∃ stream : RecordBatchStream String Unit Unit,
      sampleInsert.execute 0 ⟨none⟩ = .ok stream ∧
        (stream.drain (executionBackend [3]) ⟨[4]⟩).1 = [.ok (.count 7)]) ∧
    rowsProduced [3] = 3 :=
  ⟨⟨_, rfl, rfl⟩, ⟨_, rfl, rfl⟩, rfl⟩

/-- After a successful write the count is the total of the input's `OutputRows` metrics:
those of earlier executions and, if its streams record them, this write's rows; 0 when the
input does not implement `metrics()`. For a fresh input that implements and records them,
that is the number of rows this write produced. -/
theorem insert_count_is_input_metric (exec : NativeTableInsertExec Store Snapshot)
    (context : TaskContext) (partitionRows : List Nat) (registered : MetricsSet) :
    ∃ stream : RecordBatchStream Operation Store Snapshot, exec.execute 0 context = .ok stream ∧
      let count :=
        if exec.input.implementsMetrics then
          rowsProduced registered.outputRows +
            if exec.input.recordsOutputRows then rowsProduced partitionRows else 0
        else 0
      (stream.drain (executionBackend partitionRows) registered).1 = [.ok (.count count)] ∧
      (exec.input.implementsMetrics → exec.input.recordsOutputRows → registered.outputRows = [] →
        count = rowsProduced partitionRows) := by
  refine ⟨_, rfl, ?_, fun implements records fresh => by simp [implements, records, fresh, rowsProduced]⟩
  rw [insert_drain]
  by_cases implements : exec.input.implementsMetrics <;>
    by_cases records : exec.input.recordsOutputRows <;>
    simp [insertOutcome, executionBackend, implements, records, rowsProduced, List.foldr_append]
  exact foldr_add_start _ _

theorem insert_count_is_input_metric_sample :
    sampleInsert.input.implementsMetrics ∧ sampleInsert.input.recordsOutputRows ∧
      ∃ stream : RecordBatchStream String Unit Unit, sampleInsert.execute 0 ⟨none⟩ = .ok stream ∧
        (stream.drain (executionBackend [2, 0, 5]) ⟨[]⟩).1 = [.ok (.count 7)] :=
  ⟨rfl, rfl, (insert_count_is_input_metric sampleInsert ⟨none⟩ [2, 0, 5] ⟨[]⟩).imp
    fun _ holds => ⟨holds.1, holds.2.1⟩⟩

end GlareDb.Proofs.MutationOperators
