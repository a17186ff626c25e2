import GlareDb.Cli.RunTest

set_option autoImplicit false

/-! The protocol of one test job, whatever the client, the hooks and the test reply. The
job connects first and, if that fails, calls nothing else and fails with that error.
Otherwise the pre-test hooks whose pattern matches the test's name are called in order
until the first that fails or returns `false`; the test runs only when every one of them
returned `true`; after a passing test the same hooks' post-test parts run in order until the
first that fails; and the client is closed last, exactly once. The job's result is the
first error met, and `Ok` when a hook returned `false` or everything passed. -/

namespace GlareDb.Proofs.TestJob
open GlareDb.Cli

variable {Vars σ : Type} (env : TestEnv Vars σ)

/-- Running `a.bind f` runs `a`, then `f` on its result from where `a` left the state. -/
theorem run_bind {α β : Type} (program : TestProgram Vars α) (next : α → TestProgram Vars β)
    (state : σ) :
    (program.bind next).run env state =
      let first := program.run env state
      let second := (next first.1).run env first.2.1
      (second.1, second.2.1, first.2.2 ++ second.2.2) := by
  induction program generalizing state with
  | pure value => rfl
  | request call rest ih => simp only [TestProgram.bind, TestProgram.run, ih, List.cons_append]

/-- Calls of hooks that all returned `Ok(true)`. -/
def passedPre (hooks : List Nat) : List TestCall := hooks.map fun hook => .pre hook (.ok true)

/-- Calls of post-test hooks that all returned `Ok`. -/
def passedPost (hooks : List Nat) : List TestCall := hooks.map fun hook => .post hook (.ok ())

@[simp] theorem passedPre_cons (hook : Nat) (hooks : List Nat) :
    passedPre (hook :: hooks) = .pre hook (.ok true) :: passedPre hooks := rfl

@[simp] theorem passedPost_cons (hook : Nat) (hooks : List Nat) :
    passedPost (hook :: hooks) = .post hook (.ok ()) :: passedPost hooks := rfl

/-- The ways a test job can go, with the replies of its calls: a failed connection ends the
job with its error and nothing else is called; otherwise the matching pre-test hooks are
called in order until the first that fails or returns `false`, the test runs only when all
of them returned `true`, the matching post-test hooks run after a passing test in order
until the first that fails, and the client is closed last, exactly once. -/
inductive JobTrace (matching : List Nat) : Outcome → List TestCall → Prop where
  | connectFailed (error : String) : JobTrace matching (.error error) [.connect (.error error)]
  /-- A pre-test hook failed: the test is skipped and the job fails with the hook's error. -/
  | preFailed (ran rest : List Nat) (hook : Nat) (error : String) (split : matching = ran ++ hook :: rest) :
      JobTrace matching (.error error)
        (.connect (.ok ()) :: passedPre ran ++ [.pre hook (.error error), .close])
  /-- A pre-test hook returned `false`: the test is skipped and the job passes. -/
  | preSkipped (ran rest : List Nat) (hook : Nat) (split : matching = ran ++ hook :: rest) :
      JobTrace matching (.ok ()) (.connect (.ok ()) :: passedPre ran ++ [.pre hook (.ok false), .close])
  /-- The test failed: no post-test hook runs. -/
  | testFailed (error : String) :
      JobTrace matching (.error error)
        (.connect (.ok ()) :: passedPre matching ++ [.execute (.error error), .close])
  /-- A post-test hook failed after the test passed. -/
  | postFailed (ran rest : List Nat) (hook : Nat) (error : String) (split : matching = ran ++ hook :: rest) :
      JobTrace matching (.error error)
        (.connect (.ok ()) :: passedPre matching ++ .execute (.ok ()) :: passedPost ran ++
          [.post hook (.error error), .close])
  | passed :
      JobTrace matching (.ok ())
        (.connect (.ok ()) :: passedPre matching ++ .execute (.ok ()) :: passedPost matching ++ [.close])

/-- The pre-hook loop: all hooks passed, or it stopped at the first that failed or
returned `false`. -/
theorem preHooks_calls : ∀ (hooks : List Nat) (vars : Vars) (state : σ),
    (∃ final, ((preHooks hooks vars).run env state).1 = .ok (some final) ∧
        ((preHooks hooks vars).run env state).2.2 = passedPre hooks) ∨
      (∃ ran rest hook error, hooks = ran ++ hook :: rest ∧
        ((preHooks hooks vars).run env state).1 = .error error ∧
        ((preHooks hooks vars).run env state).2.2 = passedPre ran ++ [.pre hook (.error error)]) ∨
      (∃ ran rest hook, hooks = ran ++ hook :: rest ∧
        ((preHooks hooks vars).run env state).1 = .ok none ∧
        ((preHooks hooks vars).run env state).2.2 = passedPre ran ++ [.pre hook (.ok false)])
  | [], vars, state => .inl ⟨vars, rfl, rfl⟩
  | hook :: rest, vars, state => by
    simp only [preHooks, TestProgram.run]
    obtain ⟨⟨reply, vars⟩, state⟩ := env (.pre hook vars) state
    rcases reply with error | _ | _
    · exact .inr (.inl ⟨[], rest, hook, error, rfl, rfl, rfl⟩)
    · exact .inr (.inr ⟨[], rest, hook, rfl, rfl, rfl⟩)
    · dsimp only
      rcases preHooks_calls rest vars state with ⟨final, passed, calls⟩ |
        ⟨ran, later, failing, error, split, failed, calls⟩ | ⟨ran, later, skipping, split, skipped, calls⟩
      · exact .inl ⟨final, passed, by rw [calls]; rfl⟩
      · exact .inr (.inl ⟨hook :: ran, later, failing, error, by rw [split]; rfl, failed, by rw [calls]; rfl⟩)
      · exact .inr (.inr ⟨hook :: ran, later, skipping, by rw [split]; rfl, skipped, by rw [calls]; rfl⟩)

/-- The post-hook loop: all hooks passed, or it stopped at the first that failed. -/
theorem postHooks_calls : ∀ (hooks : List Nat) (vars : Vars) (state : σ),
    (((postHooks hooks vars).run env state).1 = .ok () ∧
        ((postHooks hooks vars).run env state).2.2 = passedPost hooks) ∨
      ∃ ran rest hook error, hooks = ran ++ hook :: rest ∧
        ((postHooks hooks vars).run env state).1 = .error error ∧
        ((postHooks hooks vars).run env state).2.2 = passedPost ran ++ [.post hook (.error error)]
  | [], vars, state => .inl ⟨rfl, rfl⟩
  | hook :: rest, vars, state => by
    simp only [postHooks, TestProgram.run]
    obtain ⟨reply, state⟩ := env (.post hook vars) state
    rcases reply with error | _
    · exact .inr ⟨[], rest, hook, error, rfl, rfl, rfl⟩
    · rcases postHooks_calls rest vars state with ⟨passed, calls⟩ |
        ⟨ran, later, failing, error, split, failed, calls⟩
      · exact .inl ⟨passed, by rw [calls]; rfl⟩
      · exact .inr ⟨hook :: ran, later, failing, error, by rw [split]; rfl, failed, by rw [calls]; rfl⟩

/-- `run_test_inner` after a successful connection, closed afterwards. -/
theorem runTestInner_calls (hooks : List Nat) (vars : Vars) (state : σ) :
    JobTrace hooks ((runTestInner hooks vars).run env state).1
      (.connect (.ok ()) :: ((runTestInner hooks vars).run env state).2.2 ++ [.close]) := by
  rw [runTestInner, run_bind]
  dsimp only
  rcases preHooks_calls env hooks vars state with ⟨final, passed, calls⟩ |
    ⟨ran, rest, hook, error, split, failed, calls⟩ | ⟨ran, rest, hook, split, skipped, calls⟩
  · rw [passed, calls]
    simp only [TestProgram.run]
    obtain ⟨⟨outcome, vars⟩, state⟩ := env (.execute final) ((preHooks hooks vars).run env state).2.1
    rcases outcome with error | _
    · simpa using @JobTrace.testFailed hooks error
    · rcases postHooks_calls env hooks vars state with ⟨posted, calls⟩ |
        ⟨ran, rest, hook, error, split, failed, calls⟩
      · simpa [posted, calls] using @JobTrace.passed hooks
      · simpa [failed, calls] using JobTrace.postFailed ran rest hook error split
  · rw [failed, calls]
    simpa [TestProgram.run] using JobTrace.preFailed ran rest hook error split
  · rw [skipped, calls]
    simpa [TestProgram.run] using JobTrace.preSkipped ran rest hook split

/-- Every run of `run_test`, against any client, hooks and test, follows `JobTrace` over
the hooks whose pattern matches the test's name. -/
theorem run_test_protocol {Pattern : Type} (mode : ClientProtocol) (patternMatches : Pattern → String → Bool)
    (hooks : List Pattern) (testName : String) (vars : Vars) (state : σ) :
    JobTrace (matchingHooks patternMatches hooks testName)
      ((runTest mode patternMatches hooks testName vars).run env state).1
      ((runTest mode patternMatches hooks testName vars).run env state).2.2 := by
  simp only [runTest, TestProgram.run]
  obtain ⟨connected, state⟩ := env (.connect mode) state
  rcases connected with error | _
  · exact .connectFailed error
  · simp only [run_bind, TestProgram.run]
    exact runTestInner_calls env _ vars state

end GlareDb.Proofs.TestJob
