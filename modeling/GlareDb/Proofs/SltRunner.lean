import GlareDb.Cli.Slt

set_option autoImplicit false

/-! `run_tests` keeps an exact account of its jobs over every order in which they finish.
The tests are spawned in order, each once; the spawned jobs whose result is not yet
received never outnumber the initial `total_jobs`, so its checked `u8` arithmetic never
traps; no job sends to the closed channel; and the results received, followed by the
channel, are exactly the results the jobs sent, in the order sent. -/

namespace GlareDb.Proofs.SltRunner
open GlareDb.Cli RunState

private theorem toNat_pos_of_ne_zero {jobs : UInt8} (nonzero : jobs ≠ 0) : 0 < jobs.toNat := by
  have : jobs.toNat ≠ 0 := fun zero => nonzero (UInt8.toNat.inj (by rw [zero]; rfl))
  omega

private theorem toNat_sub_one {jobs : UInt8} (nonzero : jobs ≠ 0) :
    (jobs - 1).toNat = jobs.toNat - 1 := by
  have positive := toNat_pos_of_ne_zero nonzero
  have bound := jobs.toNat_lt_size
  show (jobs.toBitVec - 1).toNat = jobs.toNat - 1
  rw [BitVec.toNat_sub]
  simp only [UInt8.toNat] at *
  simp
  omega

@[simp] theorem errored_eq_false (results : List (String × Outcome)) :
    errored results = false ↔ ∀ result ∈ results, result.2 = .ok () := by
  simp only [errored, List.any_eq_false, Bool.not_eq_true', Except.toBool]
  refine forall₂_congr fun result _ => ?_
  cases result.2 <;> simp

@[simp] theorem spawn_location (configs : List String) (s : RunState) (test : String)
    (rest : List String) : (s.spawn configs test rest).location ≠ .timedOut := by
  unfold spawn RunState.panic
  split_ifs <;> simp

theorem spawn_of_free {configs : List String} {s : RunState} {test : String} {rest : List String}
    (free : s.totalJobs ≠ 0) (known : test ∈ configs) :
    s.spawn configs test rest =
      { s with totalJobs := s.totalJobs - 1, running := s.running ++ [test],
               spawned := s.spawned ++ [test], location := .spawnLoop rest } := by
  simp [spawn, free, known]

section
variable (args : SltArgs) (configs tests : List String)

/-- What holds at each location of a call on `tests`. -/
def AtLocation (s : RunState) : Prop :=
  match s.location with
  | .spawnLoop rest =>
    s.spawned ++ rest = tests ∧ (∀ test ∈ rest, test ∈ configs) ∧
      s.totalJobs.toNat + s.outstanding = args.jobLimit.toNat ∧
      (s.spawned = [] ∨ s.totalJobs.toNat < args.jobLimit.toNat) ∧ s.closed = false
  | .draining => s.spawned = tests ∧ s.results.length < tests.length ∧ s.closed = false
  | .awaitCtrlC => s.spawned = tests ∧ s.outstanding = 0 ∧ errored s.results = true
  | .returned result =>
    s.spawned = tests ∧ s.outstanding = 0 ∧ (result = .ok () ↔ errored s.results = false)
  | .timedOut => True
  | .panicked _ => False

/-- The invariant of `run_tests` on `tests`: every spawned test is running, in the
channel or received; the spawned tests are the first ones of the batch; and the
outstanding jobs fit in the initial `total_jobs`. -/
structure Invariant (s : RunState) : Prop where
  numTests : s.numTests = tests.length
  ledger : (s.results.map Prod.fst ++ s.channel.map Prod.fst ++ s.running).Perm s.spawned
  spawnedPrefix : s.spawned <+: tests
  withinLimit : s.totalJobs.toNat + s.outstanding ≤ args.jobLimit.toNat
  located : AtLocation args configs tests s

variable {args configs tests}

theorem Invariant.spawned_length {s : RunState} (inv : Invariant args configs tests s) :
    s.spawned.length = s.results.length + s.outstanding := by
  have := inv.ledger.length_eq
  simp only [List.length_append, List.length_map] at this
  simp only [outstanding]
  omega

/-- With nothing outstanding, the received results name exactly the spawned tests. -/
theorem Invariant.results_perm {s : RunState} (inv : Invariant args configs tests s)
    (drained : s.outstanding = 0) : (s.results.map Prod.fst).Perm s.spawned := by
  simp only [outstanding, Nat.add_eq_zero, List.length_eq_zero] at drained
  simpa [drained] using inv.ledger

theorem invariant_start (covered : ∀ test ∈ tests, test ∈ configs) :
    Invariant args configs tests (start args tests) :=
  ⟨rfl, by simp [start], List.nil_prefix, by simp [start, outstanding],
    ⟨rfl, covered, by simp [start, outstanding], .inl rfl, rfl⟩⟩

/-- A spawn from the loop's head keeps the invariant: `total_jobs` is positive and the
test has a config. -/
theorem invariant_spawn {s : RunState} {test : String} {rest : List String}
    (numTests : s.numTests = tests.length)
    (ledger : (s.results.map Prod.fst ++ s.channel.map Prod.fst ++ s.running).Perm s.spawned)
    (prefixed : s.spawned ++ test :: rest = tests) (covered : ∀ test' ∈ test :: rest, test' ∈ configs)
    (balanced : s.totalJobs.toNat + s.outstanding = args.jobLimit.toNat)
    (opened : s.closed = false) (free : s.totalJobs ≠ 0) :
    Invariant args configs tests (s.spawn configs test rest) := by
  rw [spawn_of_free free (covered test (List.mem_cons_self _ _))]
  have lowered := toNat_sub_one free
  have positive := toNat_pos_of_ne_zero free
  have prefixed' : s.spawned ++ [test] ++ rest = tests := by simpa using prefixed
  refine ⟨numTests, ?_, ⟨rest, prefixed'⟩, ?_, ?_⟩
  · simpa [List.append_assoc] using ledger.append_right [test]
  · simp only [outstanding, List.length_append, List.length_singleton, lowered] at balanced ⊢
    omega
  · simp only [outstanding, List.length_append, List.length_singleton] at balanced
    refine ⟨prefixed', fun test' mem => covered test' (List.mem_cons_of_mem _ mem), ?_,
      .inr (by simp only [lowered]; omega), opened⟩
    simp only [outstanding, List.length_append, List.length_singleton, lowered]
    omega

/-- The report after the last result: all spawned tests are received. -/
theorem report_located (s : RunState) (spawned : s.spawned = tests) (drained : s.outstanding = 0) :
    AtLocation args configs tests (s.report args) := by
  by_cases failed : errored s.results = true
  · by_cases kept : args.keepsServer = true
    · simpa [report, failed, kept, AtLocation] using ⟨spawned, drained⟩
    · simpa [report, failed, kept, AtLocation] using ⟨spawned, drained⟩
  · simpa [report, failed, AtLocation] using ⟨spawned, drained⟩

/-- Everything a poll of the runner can do. -/
theorem poll_cases {s s' : RunState} (polled : s.poll args configs = some s') :
    (s.location = .spawnLoop [] ∧ s' = { s with location := .draining }) ∨
    (∃ test rest, s.location = .spawnLoop (test :: rest) ∧
      ((s.totalJobs ≠ 0 ∧ s' = s.spawn configs test rest) ∨
        ∃ result channel, s.totalJobs = 0 ∧ s.channel = result :: channel ∧
          s' = { s with totalJobs := s.totalJobs + 1, channel,
                        results := s.results ++ [result] }.spawn configs test rest)) ∨
    (∃ result channel, s.location = .draining ∧ s.channel = result :: channel ∧
      s' = if (s.results ++ [result]).length = s.numTests then
          report args { s with channel, results := s.results ++ [result], closed := true }
        else { s with channel, results := s.results ++ [result] }) := by
  unfold poll at polled
  split at polled
  next atHead => exact .inl ⟨atHead, (Option.some.inj polled).symm⟩
  next test rest atHead =>
    refine .inr (.inl ⟨test, rest, atHead, ?_⟩)
    split at polled
    next exhausted =>
      split at polled
      · cases polled
      next result channel queued =>
        rw [if_neg (by simp [exhausted])] at polled
        exact .inr ⟨result, channel, exhausted, queued, (Option.some.inj polled).symm⟩
    next free => exact .inl ⟨free, (Option.some.inj polled).symm⟩
  next atDrain =>
    split at polled
    · cases polled
    next result channel queued =>
      refine .inr (.inr ⟨result, channel, atDrain, queued, ?_⟩)
      split at polled <;> simp_all
  next => cases polled

/-- Everything a job's finishing can do: it sends, or panics on a closed or dropped
receiver. -/
theorem finish_cases {s s' : RunState} {test : String} {outcome : Outcome}
    (finished : s.step args configs (.finish test outcome) = some s') :
    s.location.aborted = false ∧ test ∈ s.running ∧
      (((s.closed || !s.location.active) = true ∧ ∃ message, s' = s.panic message) ∨
        (s.closed = false ∧ s.location.active = true ∧
          s' = { s with running := s.running.erase test, channel := s.channel ++ [(test, outcome)] })) := by
  simp only [step] at finished
  split at finished
  next enabled =>
    refine ⟨enabled.1, enabled.2, ?_⟩
    split at finished
    next stopped => exact .inl ⟨stopped, _, (Option.some.inj finished).symm⟩
    next listening =>
      simp only [Bool.or_eq_true, Bool.not_eq_true', not_or, Bool.not_eq_false] at listening
      exact .inr ⟨by simpa using listening.1, listening.2, (Option.some.inj finished).symm⟩
  next => cases finished

theorem deadline_cases {s s' : RunState} (stepped : s.step args configs .deadline = some s') :
    s.waitsOnRecv = true ∧ s' = { s with location := .timedOut } := by
  simp only [step] at stepped
  split at stepped
  next waits => exact ⟨waits, (Option.some.inj stepped).symm⟩
  next => cases stepped

theorem ctrlC_cases {s s' : RunState} {outcome : Outcome}
    (stepped : s.step args configs (.ctrlC outcome) = some s') :
    s.location = .awaitCtrlC ∧ ∃ error, s' = { s with location := .returned (.error error) } := by
  simp only [step] at stepped
  split at stepped
  next waiting =>
    refine ⟨waiting, ?_⟩
    cases outcome <;> exact ⟨_, (Option.some.inj stepped).symm⟩
  next => cases stepped

/-- What every allowed event preserves holds after every run of allowed events. -/
theorem run_preserves (holds : RunState → Prop) (allowed : Event → Prop)
    (preserved : ∀ {s s' : RunState} {event : Event}, allowed event → holds s →
      s.step args configs event = some s' → holds s')
    {s s' : RunState} {events : List Event} (initially : holds s) (all : ∀ event ∈ events, allowed event)
    (ran : s.run args configs events = some s') : holds s' := by
  induction events generalizing s with
  | nil =>
    simp only [run, Option.some.injEq] at ran
    exact ran ▸ initially
  | cons event events ih =>
    simp only [run, Option.bind_eq_some] at ran
    obtain ⟨next, stepped, ran⟩ := ran
    exact ih (preserved (all event (List.mem_cons_self _ _)) initially stepped)
      (fun other member => all other (List.mem_cons_of_mem _ member)) ran

/-- The runner's step from one await to the next keeps the invariant. -/
theorem invariant_poll (nonempty : tests ≠ []) {s s' : RunState}
    (inv : Invariant args configs tests s) (polled : s.poll args configs = some s') :
    Invariant args configs tests s' := by
  have counted := inv.spawned_length
  obtain ⟨numTests, ledger, spawnedPrefix, withinLimit, located⟩ := inv
  rcases poll_cases polled with
    ⟨atHead, rfl⟩ | ⟨test, rest, atHead, ⟨free, rfl⟩ | ⟨result, channel, exhausted, queued, rfl⟩⟩ |
    ⟨result, channel, atDrain, queued, rfl⟩
  · simp only [AtLocation, atHead, List.append_nil] at located
    obtain ⟨spawned, -, balanced, started, opened⟩ := located
    refine ⟨numTests, ledger, spawnedPrefix, withinLimit, spawned, ?_, opened⟩
    rcases started with empty | below
    · exact absurd (spawned ▸ empty) nonempty
    · have := congrArg List.length spawned
      dsimp only
      omega
  · simp only [AtLocation, atHead] at located
    obtain ⟨prefixed, covered, balanced, -, opened⟩ := located
    exact invariant_spawn numTests ledger prefixed covered balanced opened free
  · simp only [AtLocation, atHead] at located
    obtain ⟨prefixed, covered, balanced, -, opened⟩ := located
    refine invariant_spawn numTests ?_ prefixed covered ?_ opened (by simp [exhausted])
    · simpa [queued] using ledger
    · simp only [outstanding, queued, List.length_cons, exhausted] at balanced ⊢
      simp at balanced ⊢
      omega
  · simp only [AtLocation, atDrain] at located
    obtain ⟨spawned, below, opened⟩ := located
    have sameLength := congrArg List.length spawned
    have ledger' : ((s.results ++ [result]).map Prod.fst ++ channel.map Prod.fst ++ s.running).Perm
        s.spawned := by simpa [queued] using ledger
    simp only [outstanding, queued, List.length_cons] at counted withinLimit
    split
    next complete =>
      simp only [List.length_append, List.length_singleton, numTests] at complete
      refine ⟨numTests, ledger', spawnedPrefix, by simp only [report, outstanding]; omega,
        report_located _ spawned ?_⟩
      simp only [outstanding]
      omega
    next incomplete =>
      refine ⟨numTests, ledger', spawnedPrefix, by simp only [outstanding]; omega, ?_⟩
      simp only [AtLocation, atDrain]
      refine ⟨spawned, ?_, opened⟩
      simp only [List.length_append, List.length_singleton, numTests] at incomplete ⊢
      omega

theorem AtLocation.congr {s s' : RunState} (located : AtLocation args configs tests s)
    (location : s'.location = s.location) (spawned : s'.spawned = s.spawned)
    (results : s'.results = s.results) (totalJobs : s'.totalJobs = s.totalJobs)
    (closed : s'.closed = s.closed) (outstanding : s'.outstanding = s.outstanding) :
    AtLocation args configs tests s' := by
  simpa only [AtLocation, location, spawned, results, totalJobs, closed, outstanding] using located

/-- Once the receiver is closed, or `run_tests` has returned without a timeout, no job is
left to send: `tx.send(..).unwrap()` never meets a closed or dropped receiver. -/
theorem Invariant.running_of_stopped {s : RunState} (inv : Invariant args configs tests s)
    (notTimedOut : s.location ≠ .timedOut) (stopped : (s.closed || !s.location.active) = true) :
    s.running = [] := by
  have located := inv.located
  unfold AtLocation at located
  split at located
  · simp_all [Location.active]
  · simp_all [Location.active]
  all_goals simp_all [outstanding]

theorem invariant_finish {s s' : RunState} {test : String} {outcome : Outcome}
    (inv : Invariant args configs tests s) (notTimedOut : s.location ≠ .timedOut)
    (finished : s.step args configs (.finish test outcome) = some s') :
    Invariant args configs tests s' := by
  obtain ⟨-, member, ⟨stopped, -⟩ | ⟨-, -, rfl⟩⟩ := finish_cases finished
  · simp [inv.running_of_stopped notTimedOut stopped] at member
  have kept : (s.running.erase test).length + (s.channel ++ [(test, outcome)]).length =
      s.outstanding := by
    have := List.length_pos_of_mem member
    simp only [outstanding, List.length_erase_of_mem member, List.length_append,
      List.length_singleton]
    omega
  refine ⟨inv.numTests, ?_, inv.spawnedPrefix, ?_, inv.located.congr rfl rfl rfl rfl rfl kept⟩
  · have reordered : s.results.map Prod.fst ++ (s.channel ++ [(test, outcome)]).map Prod.fst ++
        s.running.erase test =
        s.results.map Prod.fst ++ s.channel.map Prod.fst ++ (test :: s.running.erase test) := by
      simp
    dsimp only
    rw [reordered]
    exact ((List.perm_cons_erase member).symm.append_left _).trans inv.ledger
  · show s.totalJobs.toNat + ((s.running.erase test).length + _) ≤ _
    rw [kept]
    exact inv.withinLimit

theorem invariant_deadline {s s' : RunState} (inv : Invariant args configs tests s)
    (stepped : s.step args configs .deadline = some s') : Invariant args configs tests s' := by
  obtain ⟨-, rfl⟩ := deadline_cases stepped
  exact ⟨inv.numTests, inv.ledger, inv.spawnedPrefix, inv.withinLimit, trivial⟩

theorem invariant_ctrlC {s s' : RunState} {outcome : Outcome} (inv : Invariant args configs tests s)
    (stepped : s.step args configs (.ctrlC outcome) = some s') : Invariant args configs tests s' := by
  obtain ⟨waiting, error, rfl⟩ := ctrlC_cases stepped
  have located := inv.located
  simp only [AtLocation, waiting] at located
  obtain ⟨spawned, drained, failed⟩ := located
  exact ⟨inv.numTests, inv.ledger, inv.spawnedPrefix, inv.withinLimit, spawned, drained,
    by simp [failed]⟩

/-- Only the deadline makes `run_tests` return early. -/
theorem step_timedOut {s s' : RunState} {event : Event} (stepped : s.step args configs event = some s')
    (timed : s'.location = .timedOut) : event = .deadline := by
  cases event with
  | poll =>
    exfalso
    rcases poll_cases stepped with
      ⟨-, rfl⟩ | ⟨test, rest, -, ⟨-, rfl⟩ | ⟨result, channel, -, -, rfl⟩⟩ |
      ⟨result, channel, atDrain, -, rfl⟩
    · cases timed
    · exact spawn_location configs _ test rest timed
    · exact spawn_location configs _ test rest timed
    · split at timed
      · simp only [report] at timed
        split_ifs at timed
      · simp [atDrain] at timed
  | finish test outcome =>
    obtain ⟨-, -, ⟨-, message, rfl⟩ | ⟨-, active, rfl⟩⟩ := finish_cases stepped
    · cases timed
    · rw [show s.location = .timedOut from timed] at active
      cases active
  | deadline => rfl
  | ctrlC =>
    obtain ⟨-, error, rfl⟩ := ctrlC_cases stepped
    cases timed

/-- Every event keeps the invariant, before a timeout. -/
theorem invariant_step (nonempty : tests ≠ []) {s s' : RunState} {event : Event}
    (inv : Invariant args configs tests s) (notTimedOut : s.location ≠ .timedOut)
    (stepped : s.step args configs event = some s') : Invariant args configs tests s' := by
  cases event with
  | poll => exact invariant_poll nonempty inv stepped
  | finish => exact invariant_finish inv notTimedOut stepped
  | deadline => exact invariant_deadline inv stepped
  | ctrlC => exact invariant_ctrlC inv stepped

/-- Every run without the deadline keeps the invariant. -/
theorem invariant_run (nonempty : tests ≠ []) {s s' : RunState} {events : List Event}
    (inv : Invariant args configs tests s) (notTimedOut : s.location ≠ .timedOut)
    (timely : ∀ event ∈ events, event ≠ .deadline) (ran : s.run args configs events = some s') :
    Invariant args configs tests s' :=
  (run_preserves (fun s => Invariant args configs tests s ∧ s.location ≠ .timedOut) (· ≠ .deadline)
    (fun early ⟨inv, notTimedOut⟩ stepped => ⟨invariant_step nonempty inv notTimedOut stepped,
      fun timed => early (step_timedOut stepped timed)⟩) ⟨inv, notTimedOut⟩ timely ran).1

theorem completions_cons (event : Event) (events : List Event) :
    completions (event :: events) = completions [event] ++ completions events := by
  cases event <;> rfl

/-- A poll moves results from the channel's front to `results`, in order. -/
theorem poll_sent {s s' : RunState} (polled : s.poll args configs = some s') :
    s'.results ++ s'.channel = s.results ++ s.channel := by
  rcases poll_cases polled with
    ⟨-, rfl⟩ | ⟨test, rest, -, ⟨-, rfl⟩ | ⟨result, channel, -, queued, rfl⟩⟩ |
    ⟨result, channel, -, queued, rfl⟩
  · rfl
  · simp
  · simp [queued]
  · split <;> simp [report, queued]

/-- Every result a job sends joins the channel's back; nothing else touches it. -/
theorem step_sent {s s' : RunState} {event : Event} (inv : Invariant args configs tests s)
    (notTimedOut : s.location ≠ .timedOut) (stepped : s.step args configs event = some s') :
    s'.results ++ s'.channel = s.results ++ s.channel ++ completions [event] := by
  cases event with
  | poll => simpa [completions] using poll_sent stepped
  | finish test outcome =>
    obtain ⟨-, member, ⟨stopped, -⟩ | ⟨-, -, rfl⟩⟩ := finish_cases stepped
    · simp [inv.running_of_stopped notTimedOut stopped] at member
    · simp [completions]
  | deadline =>
    obtain ⟨-, rfl⟩ := deadline_cases stepped
    simp [completions]
  | ctrlC =>
    obtain ⟨-, error, rfl⟩ := ctrlC_cases stepped
    simp [completions]

/-- Along a run without the deadline, the received results followed by the channel are
exactly the results the jobs sent, in the order sent: none is lost, duplicated or
reordered. -/
theorem run_sent (nonempty : tests ≠ []) {s s' : RunState} {events : List Event}
    (inv : Invariant args configs tests s) (notTimedOut : s.location ≠ .timedOut)
    (timely : ∀ event ∈ events, event ≠ .deadline) (ran : s.run args configs events = some s') :
    s'.results ++ s'.channel = s.results ++ s.channel ++ completions events := by
  induction events generalizing s with
  | nil =>
    simp only [run, Option.some.injEq] at ran
    simp [ran, completions]
  | cons event events ih =>
    simp only [run, Option.bind_eq_some] at ran
    obtain ⟨next, stepped, ran⟩ := ran
    have early : event ≠ .deadline := timely event (List.mem_cons_self _ _)
    rw [ih (invariant_step nonempty inv notTimedOut stepped)
      (fun timed => early (step_timedOut stepped timed))
      (fun other member => timely other (List.mem_cons_of_mem _ member)) ran,
      step_sent inv notTimedOut stepped, completions_cons event events]
    simp

/-- After a timeout or an abort, only a timeout or an abort can follow. -/
theorem step_halted {s s' : RunState} {event : Event}
    (halted : s.location = .timedOut ∨ s.location.aborted = true)
    (stepped : s.step args configs event = some s') :
    s'.location = .timedOut ∨ s'.location.aborted = true := by
  cases event with
  | poll =>
    rcases poll_cases stepped with ⟨position, -⟩ | ⟨test, rest, position, -⟩ |
      ⟨result, channel, position, -⟩ <;> simp [position, Location.aborted] at halted
  | finish test outcome =>
    obtain ⟨notAborted, -, ⟨-, message, rfl⟩ | ⟨-, active, -⟩⟩ := finish_cases stepped
    · exact .inr rfl
    · rcases halted with timed | aborted
      · simp [timed, Location.active] at active
      · simp [aborted] at notAborted
  | deadline =>
    obtain ⟨-, rfl⟩ := deadline_cases stepped
    exact .inl rfl
  | ctrlC =>
    obtain ⟨waiting, -⟩ := ctrlC_cases stepped
    simp [waiting, Location.aborted] at halted

theorem run_halted {s s' : RunState} {events : List Event}
    (halted : s.location = .timedOut ∨ s.location.aborted = true)
    (ran : s.run args configs events = some s') :
    s'.location = .timedOut ∨ s'.location.aborted = true :=
  run_preserves (fun s => s.location = .timedOut ∨ s.location.aborted = true) (fun _ => True)
    (fun _ => step_halted) halted (fun _ _ => trivial) ran

/-- A run through the deadline ends timed out or aborted, never returned. -/
theorem run_deadline {s s' : RunState} {events : List Event} (late : .deadline ∈ events)
    (ran : s.run args configs events = some s') :
    s'.location = .timedOut ∨ s'.location.aborted = true := by
  induction events generalizing s with
  | nil => cases late
  | cons event events ih =>
    simp only [run, Option.bind_eq_some] at ran
    obtain ⟨next, stepped, ran⟩ := ran
    rcases List.mem_cons.mp late with rfl | later
    · obtain ⟨-, rfl⟩ := deadline_cases stepped
      exact run_halted (.inl rfl) ran
    · exact ih later ran

end

end GlareDb.Proofs.SltRunner
