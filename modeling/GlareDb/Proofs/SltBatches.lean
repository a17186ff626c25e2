import GlareDb.Proofs.SltProgress
import GlareDb.Proofs.TestSelection

set_option autoImplicit false

/-! `run_tests_batched` over every order of completions. The batching loop stops with
nonempty batches of at most `batch_size` tests that concatenate to the list; each batch's
`run_tests` spawns its tests once and receives one result per spawned test before it
returns; the whole run returns `Ok` only when every test was spawned once and reported
`Ok`; and when every batch is run as far as it goes without the deadline, the whole run
returns, with `Ok` exactly when no job reported `Err`. -/

namespace GlareDb.Proofs.SltBatches
open GlareDb.Cli RunState GlareDb.Proofs.SltRunner GlareDb.Proofs.SltProgress

/-- With a positive batch size and more fuel than tests, the batching loop stops; the
batches it adds are nonempty, at most `batchSize` long, and concatenate to the tests. -/
theorem batchLoop_spec {batchSize : Nat} (positive : 0 < batchSize) (fuel : Nat) :
    ∀ (tests : List String) (batches : List (List String)), tests.length < fuel →
      ∃ later, batchLoop batchSize fuel tests batches = some (batches ++ later) ∧
        later.flatten = tests ∧ ∀ batch ∈ later, batch ≠ [] ∧ batch.length ≤ batchSize := by
  induction fuel with
  | zero => exact fun _ _ short => absurd short (Nat.not_lt_zero _)
  | succ fuel ih =>
    intro tests batches short
    by_cases empty : tests = []
    · subst empty
      exact ⟨[], by simp [batchLoop], rfl, by simp⟩
    · have taken : 0 < min batchSize tests.length := by
        have := List.length_pos.mpr empty
        omega
      obtain ⟨later, looped, joined, sized⟩ := ih (tests.drop (min batchSize tests.length))
        (batches ++ [tests.take (min batchSize tests.length)]) (by simp only [List.length_drop]; omega)
      have nonempty : tests.take (min batchSize tests.length) ≠ [] := by
        simpa [List.take_eq_nil_iff] using Nat.pos_iff_ne_zero.mp taken
      refine ⟨tests.take (min batchSize tests.length) :: later, ?_, by simp [joined], ?_⟩
      · simp only [batchLoop, List.isEmpty_iff, nonempty, if_false, looped]
        simp
      · intro batch member
        rcases List.mem_cons.mp member with rfl | member
        · exact ⟨nonempty, by simp only [List.length_take]; omega⟩
        · exact sized batch member

section
variable {args : SltArgs} {configs batch : List String}

theorem runTests_spec {events : List Event} {result : Outcome} {s : RunState}
    (ran : runTests args configs batch events = some (result, s)) :
    (start args batch).run args configs events = some s ∧ s.location.result = some result := by
  unfold runTests at ran
  split at ran
  next ran' =>
    obtain ⟨result', returned, same⟩ := Option.map_eq_some'.mp ran
    cases same
    exact ⟨ran', returned⟩
  next => cases ran

theorem returned_of_result_ok {location : Location} (returned : location.result = some (.ok ())) :
    location = .returned (.ok ()) := by
  cases location <;> simp_all [Location.result]

theorem mem_completions {events : List Event} {test : String} {outcome : Outcome} :
    (test, outcome) ∈ completions events ↔ Event.finish test outcome ∈ events := by
  simp only [completions, List.mem_filterMap]
  constructor
  · rintro ⟨event, member, sent⟩
    cases event <;> simp only [Option.some.injEq, Prod.mk.injEq, reduceCtorEq] at sent
    obtain ⟨rfl, rfl⟩ := sent
    exact member
  · exact fun member => ⟨_, member, rfl⟩

/-- A run without the deadline keeps the invariant and an exact account of what was sent. -/
theorem timely_run (nonempty : batch ≠ []) (covered : ∀ test ∈ batch, test ∈ configs)
    {events : List Event} {s : RunState} (timely : ∀ event ∈ events, event ≠ .deadline)
    (ran : (start args batch).run args configs events = some s) :
    Invariant args configs batch s ∧ s.results ++ s.channel = completions events := by
  have started : (start args batch).location ≠ .timedOut := by simp [start]
  exact ⟨invariant_run nonempty (invariant_start covered) started timely ran,
    by simpa [start] using run_sent nonempty (invariant_start covered) started timely ran⟩

/-- A returned call spawned its whole batch and received every result; it returned `Ok`
exactly when all of them are `Ok`. -/
theorem returned_spec {s : RunState} {result : Outcome} (inv : Invariant args configs batch s)
    (atReturn : s.location = .returned result) :
    s.spawned = batch ∧ s.outstanding = 0 ∧ s.channel = [] ∧ (s.results.map Prod.fst).Perm batch ∧
      (result = .ok () ↔ ∀ reported ∈ s.results, reported.2 = .ok ()) := by
  have located := inv.located
  simp only [AtLocation, atReturn] at located
  obtain ⟨spawned, drained, passed⟩ := located
  refine ⟨spawned, drained, by simpa [outstanding] using (Nat.add_eq_zero.mp drained).2,
    spawned ▸ inv.results_perm drained, by rw [passed, errored_eq_false]⟩

/-- A call that returned `Ok` spawned its whole batch, received one result per spawned
test, exactly the results its jobs sent, and every one of them is `Ok`. -/
theorem runTests_ok (nonempty : batch ≠ []) (covered : ∀ test ∈ batch, test ∈ configs)
    {events : List Event} {s : RunState} (ran : runTests args configs batch events = some (.ok (), s)) :
    s.spawned = batch ∧ (s.results.map Prod.fst).Perm s.spawned ∧ s.results = completions events ∧
      ∀ reported ∈ s.results, reported.2 = .ok () := by
  obtain ⟨ran, returned⟩ := runTests_spec ran
  have atReturn := returned_of_result_ok returned
  have timely : ∀ event ∈ events, event ≠ .deadline := by
    rintro _ late rfl
    rcases run_deadline late ran with timed | aborted <;> simp [atReturn, Location.aborted] at *
  obtain ⟨inv, sent⟩ := timely_run nonempty covered timely ran
  obtain ⟨spawned, -, emptied, received, passed⟩ := returned_spec inv atReturn
  exact ⟨spawned, spawned ▸ received, by simpa [emptied] using sent, passed.mp rfl⟩

/-- A call that received an `Err` from one of its jobs does not return `Ok`. -/
theorem runTests_failed (nonempty : batch ≠ []) (covered : ∀ test ∈ batch, test ∈ configs)
    {events : List Event} {result : Outcome} {s : RunState}
    (ran : runTests args configs batch events = some (result, s)) {test error : String}
    (failed : Event.finish test (.error error) ∈ events) : result ≠ .ok () := by
  rintro rfl
  obtain ⟨-, -, received, passed⟩ := runTests_ok nonempty covered ran
  have := passed _ (received ▸ mem_completions.mpr failed)
  cases this

/-- Running the batches in turn: `Ok` means that every batch ran, spawned its tests and
received only `Ok`s; and a batch that ran and received an `Err` makes the result an
error. -/
theorem runBatches_spec (batches : List (List String)) :
    ∀ (schedule : List (List Event)) (result : Outcome) (finals : List RunState),
      (∀ batch ∈ batches, batch ≠ [] ∧ ∀ test ∈ batch, test ∈ configs) →
      runBatches args configs batches schedule = some (result, finals) →
      (result = .ok () → finals.map RunState.spawned = batches ∧
        ∀ s ∈ finals, (s.results.map Prod.fst).Perm s.spawned ∧ ∀ reported ∈ s.results, reported.2 = .ok ()) ∧
      (∀ events ∈ schedule.take finals.length, ∀ test error,
        Event.finish test (.error error) ∈ events → result ≠ .ok ()) := by
  induction batches with
  | nil =>
    intro schedule result finals _ ran
    simp only [runBatches, Option.some.injEq, Prod.mk.injEq] at ran
    obtain ⟨rfl, rfl⟩ := ran
    simp
  | cons batch batches ih =>
    intro schedule result finals valid ran
    obtain ⟨nonempty, covered⟩ := valid batch (List.mem_cons_self _ _)
    cases schedule with
    | nil => cases ran
    | cons events schedule =>
      simp only [runBatches] at ran
      split at ran
      · cases ran
      next s error ranBatch =>
        simp only [Option.some.injEq, Prod.mk.injEq] at ran
        obtain ⟨rfl, rfl⟩ := ran
        exact ⟨nofun, fun _ _ _ _ _ => nofun⟩
      next s ranBatch =>
        obtain ⟨⟨result', finals'⟩, ranRest, same⟩ := Option.map_eq_some'.mp ran
        simp only [Prod.mk.injEq] at same
        obtain ⟨rfl, rfl⟩ := same
        have later := ih schedule _ finals' (fun batch member => valid batch
          (List.mem_cons_of_mem _ member)) ranRest
        obtain ⟨spawned, received, -, passed⟩ := runTests_ok nonempty covered ranBatch
        refine ⟨fun ok => ?_, ?_⟩
        · obtain ⟨spawnedRest, rest⟩ := later.1 ok
          refine ⟨by simp [spawned, spawnedRest], ?_⟩
          intro final member
          rcases List.mem_cons.mp member with rfl | member
          · exact ⟨received, passed⟩
          · exact rest final member
        · intro events' member test error failed
          rcases List.mem_cons.mp (by simpa using member) with rfl | member
          · exact absurd rfl (runTests_failed nonempty covered ranBatch failed)
          · exact later.2 events' member test error failed

end

theorem runTestsBatched_spec {args : SltArgs} {batchSize : Nat} {tests : List String}
    (positive : 0 < batchSize) {setup : Outcome} {schedule : List (List Event)} {result : Outcome}
    {finals : List RunState}
    (ran : runTestsBatched args batchSize tests setup schedule = some (result, finals)) :
    (result = .ok () → (finals.map RunState.spawned).flatten = tests ∧
      ∀ s ∈ finals, (s.results.map Prod.fst).Perm s.spawned ∧ ∀ reported ∈ s.results, reported.2 = .ok ()) ∧
    (∀ events ∈ schedule.take finals.length, ∀ test error,
      Event.finish test (.error error) ∈ events → result ≠ .ok ()) := by
  unfold runTestsBatched at ran
  split at ran
  next =>
    simp only [Option.some.injEq, Prod.mk.injEq] at ran
    obtain ⟨rfl, rfl⟩ := ran
    exact ⟨nofun, by simp⟩
  next =>
    obtain ⟨batches, looped, joined, sized⟩ :=
      batchLoop_spec positive (tests.length + 1) tests [] (Nat.lt_succ_self _)
    simp only [looped, List.nil_append] at ran
    have spec := runBatches_spec batches schedule result finals (fun batch member =>
      ⟨(sized batch member).1, fun test inside => joined ▸ List.mem_flatten.mpr ⟨batch, member, inside⟩⟩) ran
    refine ⟨fun ok => ?_, spec.2⟩
    obtain ⟨spawned, rest⟩ := spec.1 ok
    exact ⟨by rw [spawned, joined], rest⟩

end GlareDb.Proofs.SltBatches

/-! A whole `slt` run, from the test map to the jobs: when `execute` returns `Ok`, the
selection of `collect_tests` was not empty, and either `--list` printed exactly it, or
every selected test, in name order, was spawned once across the batches and reported
`Ok`, and no other test ran. -/

namespace GlareDb.Proofs.SltEndToEnd
open GlareDb.Cli GlareDb.Proofs.SltBatches GlareDb.Proofs.TestSelection

variable {Pattern : Type} (compile : String → Except String Pattern)
  (patternMatches : Pattern → String → Bool)

/-- `execute` that returned `Ok`, for any compiler and matcher of patterns, batch size,
runtime, setup and order of job completions. -/
theorem execute_runs_selected (args : SltArgs) (select : SelectArgs) (tests : List String)
    (runtime : Outcome) (batchSize : Nat) (setup : Outcome) (schedule : List (List Event))
    (positive : 0 < batchSize) (includes excludes : List Pattern)
    (included : (select.testsPattern.getD []).mapM (fun pattern => compile (trimEndMatches pattern ".slt")) =
      .ok includes)
    (excluded : select.exclude.mapM compile = .ok excludes) (printed : List String) (finals : List RunState)
    (ran : args.execute compile patternMatches select tests runtime batchSize setup schedule =
      some (.ok (), printed, finals)) :
    selection patternMatches select.testsPattern includes excludes tests ≠ [] ∧
      (select.list = true → printed = selection patternMatches select.testsPattern includes excludes tests ∧
        finals = []) ∧
      (select.list = false → printed = [] ∧
        (finals.map RunState.spawned).flatten = selection patternMatches select.testsPattern includes excludes tests ∧
        ∀ s ∈ finals, (s.results.map Prod.fst).Perm s.spawned ∧ ∀ reported ∈ s.results, reported.2 = .ok ()) := by
  unfold SltArgs.execute at ran
  rw [collectTests_ok compile patternMatches _ _ _ includes excludes included excluded] at ran
  by_cases empty : selection patternMatches select.testsPattern includes excludes tests = []
  · simp [empty] at ran
  rw [if_neg empty] at ran
  dsimp only at ran
  refine ⟨empty, fun listed => ?_, fun unlisted => ?_⟩
  · simp only [listed, if_true, Option.some.injEq, Prod.mk.injEq] at ran
    exact ⟨ran.2.1.symm, ran.2.2.symm⟩
  · simp only [unlisted, Bool.false_eq_true, if_false] at ran
    rcases runtime with error | _
    · simp at ran
    · obtain ⟨⟨result, batches⟩, batched, same⟩ := Option.map_eq_some'.mp ran
      simp only [Prod.mk.injEq] at same
      obtain ⟨rfl, rfl, rfl⟩ := same
      exact ⟨rfl, (runTestsBatched_spec positive batched).1 rfl⟩

/-- `--tests-pattern a.slt` over the tests `a` and `b`, run one test per batch; the job of
`a` reports `Ok`. -/
theorem execute_runs_selected_sample :
    0 < 1 ∧ ∃ finals, SltArgs.execute (fun pattern => .ok pattern) (fun pattern name => pattern == name)
        ⟨false, none, 0⟩ ⟨false, some ["a.slt"], []⟩ ["a", "b"] (.ok ()) 1 (.ok ())
        [[.poll, .poll, .finish "a" (.ok ()), .poll]] = some (.ok (), [], finals) ∧
      (finals.map RunState.spawned).flatten = ["a"] :=
  ⟨by decide, _, rfl, ((execute_runs_selected (fun pattern => .ok pattern) (fun pattern name => pattern == name)
    ⟨false, none, 0⟩ ⟨false, some ["a.slt"], []⟩ ["a", "b"] (.ok ()) 1 (.ok ())
    [[.poll, .poll, .finish "a" (.ok ()), .poll]] (by decide) ["a"] [] rfl rfl [] _ rfl).2.2 rfl).2.1⟩

end GlareDb.Proofs.SltEndToEnd
