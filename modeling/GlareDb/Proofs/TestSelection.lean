import GlareDb.Cli.Slt

set_option autoImplicit false

/-! Which tests `collect_tests` selects, for any compiler and matcher of glob patterns: the
exclude loop drops, one pattern after another, what amounts to one filter by all of them,
and the include step keeps what any of its patterns matches, so the selection is one filter
of the tests in name order. Each error is the first pattern that does not compile. -/

namespace GlareDb.Proofs.TestSelection
open GlareDb.Cli

variable {Pattern : Type} (compile : String → Except String Pattern)
  (patternMatches : Pattern → String → Bool)

/-- Whether a compiled pattern among `patterns` matches the test. -/
def matchesAny (patterns : List Pattern) (name : String) : Bool :=
  patterns.any fun pattern => patternMatches pattern name

/-- `trim_end_matches` removes every trailing copy of a nonempty suffix, and only those. -/
theorem trimEndMatchesLoop_spec (suffix : List Char) (nonempty : suffix ≠ []) :
    ∀ (fuel : Nat) (text : List Char), text.length ≤ fuel →
      ∃ copies, trimEndMatchesLoop suffix fuel text ++ (List.replicate copies suffix).flatten = text ∧
        ¬ suffix <:+ trimEndMatchesLoop suffix fuel text
  | 0, text, short => by
    obtain rfl : text = [] := List.eq_nil_of_length_eq_zero (Nat.le_zero.mp short)
    exact ⟨0, rfl, fun ended => nonempty (List.suffix_nil.mp ended)⟩
  | fuel + 1, text, short => by
    have present : suffix.isEmpty = false := by
      cases suffix with
      | nil => exact absurd rfl nonempty
      | cons => rfl
    simp only [trimEndMatchesLoop, present, Bool.not_false, Bool.true_and]
    by_cases ended : suffix <:+ text
    · rw [if_pos (List.isSuffixOf_iff_suffix.mpr ended)]
      have split := List.suffix_iff_eq_append.mp ended
      have longer : 0 < suffix.length := List.length_pos.mpr nonempty
      obtain ⟨copies, rebuilt, trimmed⟩ := trimEndMatchesLoop_spec suffix nonempty fuel
        (text.take (text.length - suffix.length)) (by simp only [List.length_take]; omega)
      refine ⟨copies + 1, ?_, trimmed⟩
      rw [List.replicate_succ', List.flatten_append, ← List.append_assoc, rebuilt, List.flatten_singleton,
        split]
    · rw [if_neg (mt List.isSuffixOf_iff_suffix.mp ended)]
      exact ⟨0, by simp, ended⟩

/-- A `mapM` over a nonempty list that succeeded: on the head and on the rest. -/
theorem mapM_cons_ok {α : Type} {f : α → Except String Pattern} {first : α} {rest : List α}
    {results : List Pattern} (mapped : (first :: rest).mapM f = .ok results) :
    ∃ result others, f first = .ok result ∧ rest.mapM f = .ok others ∧ results = result :: others := by
  rw [List.mapM_cons] at mapped
  cases compiled : f first <;> cases others : rest.mapM f <;> rw [compiled, others] at mapped <;>
    cases mapped
  exact ⟨_, _, rfl, rfl, rfl⟩

/-- The exclude loop, when every pattern compiles, is one filter. -/
theorem excludeTests_ok : ∀ (exclude : List String) (excludes : List Pattern) (tests : List String),
    exclude.mapM compile = .ok excludes →
    excludeTests compile patternMatches exclude tests =
      .ok (tests.filter fun name => !matchesAny patternMatches excludes name)
  | [], excludes, tests, compiled => by
    simp only [List.mapM_nil, pure, Except.pure, Except.ok.injEq] at compiled
    subst compiled
    simp [excludeTests, matchesAny]
  | pattern :: rest, excludes, tests, compiled => by
    obtain ⟨first, others, compiledFirst, compiledRest, rfl⟩ := mapM_cons_ok compiled
    simp only [excludeTests, compiledFirst, excludeTests_ok rest others _ compiledRest, List.filter_filter]
    congr 2
    funext name
    simp [matchesAny, Bool.and_comm]

/-- The exclude loop fails at the first pattern that does not compile, naming it. -/
theorem excludeTests_error : ∀ (before : List String) (compiled : List Pattern) (pattern : String)
    (after : List String) (error : String) (tests : List String),
    before.mapM compile = .ok compiled → compile pattern = .error error →
    excludeTests compile patternMatches (before ++ pattern :: after) tests =
      .error ("Invalid glob pattern `" ++ pattern ++ "`: " ++ error)
  | [], _, pattern, after, error, tests, _, failed => by simp [excludeTests, failed]
  | first :: before, compiled, pattern, after, error, tests, compiledBefore, failed => by
    obtain ⟨result, others, compiledFirst, compiledRest, -⟩ := mapM_cons_ok compiledBefore
    simp only [List.cons_append, excludeTests, compiledFirst]
    exact excludeTests_error before others pattern after error _ compiledRest failed

/-- The tests the include patterns keep, when they all compile. -/
theorem includeTests_ok (testsPattern : Option (List String)) (includes : List Pattern) (tests : List String)
    (compiled : (testsPattern.getD []).mapM (fun pattern => compile (trimEndMatches pattern ".slt")) =
      .ok includes) :
    includeTests compile patternMatches testsPattern tests =
      .ok (tests.filter fun name => testsPattern.isNone || matchesAny patternMatches includes name) := by
  cases testsPattern with
  | none => simp [includeTests, pure, Except.pure]
  | some patterns =>
    simp only [Option.getD_some] at compiled
    simp only [includeTests]
    rw [compiled]
    rfl

/-- The tests selected when every pattern compiles: one filter, in name order. -/
def selection (testsPattern : Option (List String)) (includes excludes : List Pattern)
    (tests : List String) : List String :=
  tests.filter fun name =>
    (testsPattern.isNone || matchesAny patternMatches includes name) && !matchesAny patternMatches excludes name

/-- `collect_tests` when every pattern compiles. -/
theorem collectTests_ok (testsPattern : Option (List String)) (exclude tests : List String)
    (includes excludes : List Pattern)
    (included : (testsPattern.getD []).mapM (fun pattern => compile (trimEndMatches pattern ".slt")) =
      .ok includes)
    (excluded : exclude.mapM compile = .ok excludes) :
    collectTests compile patternMatches testsPattern exclude tests =
      if selection patternMatches testsPattern includes excludes tests = [] then
        .error "No tests to run. Exiting..."
      else .ok (selection patternMatches testsPattern includes excludes tests) := by
  rw [collectTests, includeTests_ok compile patternMatches testsPattern includes tests included]
  simp only [bind, Except.bind, excludeTests_ok compile patternMatches exclude excludes _ excluded,
    List.filter_filter, selection]
  have same : (fun name => !matchesAny patternMatches excludes name &&
      (testsPattern.isNone || matchesAny patternMatches includes name)) =
      fun name => (testsPattern.isNone || matchesAny patternMatches includes name) &&
        !matchesAny patternMatches excludes name := funext fun _ => Bool.and_comm _ _
  rw [same]
  generalize List.filter _ tests = selected
  cases selected <;> rfl

/-- `collect_tests` on any tests and patterns. When every pattern compiles, it keeps, in name
order, exactly the tests that match some `tests_pattern` pattern (all of them without one)
and no `exclude` pattern, and fails with "No tests to run. Exiting..." when that leaves
none. Otherwise it fails with the error of the first `tests_pattern` pattern that does not
compile or, if all of those compile, with the first `exclude` pattern that does not,
named in the message. A pattern is trimmed of every trailing `.slt`, and of nothing else. -/
theorem collect_tests_selects (testsPattern : Option (List String)) (exclude tests : List String) :
    (∀ includes excludes,
      (testsPattern.getD []).mapM (fun pattern => compile (trimEndMatches pattern ".slt")) = .ok includes →
      exclude.mapM compile = .ok excludes →
      collectTests compile patternMatches testsPattern exclude tests =
        let selected := tests.filter fun name =>
          (testsPattern.isNone || matchesAny patternMatches includes name) &&
            !matchesAny patternMatches excludes name
        if selected = [] then .error "No tests to run. Exiting..." else .ok selected) ∧
    (∀ patterns error, testsPattern = some patterns →
      patterns.mapM (fun pattern => compile (trimEndMatches pattern ".slt")) = .error error →
      collectTests compile patternMatches testsPattern exclude tests = .error error) ∧
    (∀ includes before pattern after compiled error,
      (testsPattern.getD []).mapM (fun pattern => compile (trimEndMatches pattern ".slt")) = .ok includes →
      exclude = before ++ pattern :: after → before.mapM compile = .ok compiled →
      compile pattern = .error error →
      collectTests compile patternMatches testsPattern exclude tests =
        .error ("Invalid glob pattern `" ++ pattern ++ "`: " ++ error)) ∧
    (∀ pattern, ∃ copies,
      (trimEndMatches pattern ".slt").data ++ (List.replicate copies ".slt".data).flatten = pattern.data ∧
        ¬ ".slt".data <:+ (trimEndMatches pattern ".slt").data) := by
  refine ⟨fun includes excludes included excluded => ?_, fun patterns error given failed => ?_,
    fun includes before pattern after compiled error included split compiledBefore failed => ?_,
    fun pattern => trimEndMatchesLoop_spec _ (by decide) _ _ le_rfl⟩
  · exact collectTests_ok compile patternMatches testsPattern exclude tests includes excludes included excluded
  · subst given
    simp only [collectTests, includeTests]
    rw [failed]
    rfl
  · rw [collectTests, includeTests_ok compile patternMatches testsPattern includes tests included, split]
    simp only [bind, Except.bind, excludeTests_error compile patternMatches before compiled pattern after error _
      compiledBefore failed]

end GlareDb.Proofs.TestSelection
