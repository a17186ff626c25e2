import Mathlib.Data.List.Basic

set_option autoImplicit false

/-! The sqllogictest runner of the CLI (`cli/src/args/slt.rs`). `run_tests` is a state
machine: the runner task moves from one await to the next, spawned jobs finish in any
order and send their result on the channel, the deadline may pass while the runner waits,
and CTRL-C may arrive. `run_tests_batched` cuts the tests into batches and runs them one
after another. A test is its name; what it reports is up to the environment. -/

namespace GlareDb.Cli

/-- `Result<()>` of a test or of a run, with the error's message. -/
abbrev Outcome := Except String Unit

/-- The fields of `SltArgs` the runner reads. -/
structure SltArgs where
  keepRunning : Bool
  connectionString : Option String
  jobs : UInt8
  deriving DecidableEq, Repr

/-- Whether a failed run keeps the embedded server up for debugging. -/
def SltArgs.keepsServer (args : SltArgs) : Bool :=
  args.connectionString.isNone && args.keepRunning

/-- The initial `total_jobs`: `jobs`, or `u8::MAX` when it is 0. -/
def SltArgs.jobLimit (args : SltArgs) : UInt8 :=
  if args.jobs > 0 then args.jobs else 255

/-- Where `run_tests` is. -/
inductive Location where
  /-- At the head of `for (test_name, test) in tests`, with `rest` still to spawn. -/
  | spawnLoop (rest : List String)
  /-- In the drain loop, waiting on `recv`. -/
  | draining
  /-- A test failed and the server is kept running: waiting on `ctrl_c()`. -/
  | awaitCtrlC
  /-- Returned with this result. -/
  | returned (result : Outcome)
  /-- Returned early by the `?` on a `recv` that passed the deadline. -/
  | timedOut
  /-- Panicked with this message; the panic hook of `execute` aborts the process. -/
  | panicked (message : String)
  deriving Repr

/-- What `run_tests` returned, once it has. -/
def Location.result : Location → Option Outcome
  | .returned result => some result
  | .timedOut => some (.error "deadline has elapsed")
  | _ => none

/-- Whether `run_tests` is still running, so that its receiver is still there. -/
def Location.active : Location → Bool
  | .spawnLoop _ | .draining | .awaitCtrlC => true
  | _ => false

/-- Whether the process has aborted: the panic hook of `execute` aborts on every panic. -/
def Location.aborted : Location → Bool
  | .panicked _ => true
  | _ => false

/-- The state of one call of `run_tests`. -/
structure RunState where
  location : Location
  numTests : Nat
  totalJobs : UInt8
  /-- Sent on `jobs_tx` and not yet received: the queue of the unbounded channel. -/
  channel : List (String × Outcome)
  /-- The spawned jobs that have not sent their result yet. -/
  running : List String
  results : List (String × Outcome)
  /-- Whether `jobs_rx.close()` was called. -/
  closed : Bool
  /-- A ghost: the tests passed to `tokio::spawn`, in order. -/
  spawned : List String
  deriving Repr

/-- What can happen next: the runner is polled, a job finishes and sends its result, the
deadline passes while the runner waits, or `ctrl_c()` resolves. -/
inductive Event where
  | poll
  | finish (test : String) (outcome : Outcome)
  | deadline
  | ctrlC (outcome : Outcome)
  deriving Repr

/-- The results the jobs sent during a run, in order. -/
def completions (events : List Event) : List (String × Outcome) :=
  events.filterMap fun
    | .finish test outcome => some (test, outcome)
    | _ => none

/-- Whether some result is an error: `errored` after the loop over the errors. -/
def errored (results : List (String × Outcome)) : Bool :=
  results.any fun result => !result.2.toBool

namespace RunState

/-- `run_tests` called on `tests`, before its first await. -/
def start (args : SltArgs) (tests : List String) : RunState where
  location := .spawnLoop tests
  numTests := tests.length
  totalJobs := args.jobLimit
  channel := []
  running := []
  results := []
  closed := false
  spawned := []

/-- The spawned jobs whose result the runner has not received. -/
def outstanding (s : RunState) : Nat := s.running.length + s.channel.length

def panic (s : RunState) (message : String) : RunState := { s with location := .panicked message }

/-- `total_jobs -= 1`, checked as in a debug build, then the job for `test` is spawned
with its config, looked up with `unwrap`. -/
def spawn (configs : List String) (s : RunState) (test : String) (rest : List String) :
    RunState :=
  if s.totalJobs = 0 then s.panic "attempt to subtract with overflow"
  else if test ∈ configs then
    { s with totalJobs := s.totalJobs - 1, running := s.running ++ [test],
             spawned := s.spawned ++ [test], location := .spawnLoop rest }
  else s.panic "called `Option::unwrap()` on a `None` value"

@[simp] theorem spawn_results (configs : List String) (s : RunState) (test : String)
    (rest : List String) : (s.spawn configs test rest).results = s.results := by
  unfold spawn panic; split_ifs <;> rfl

@[simp] theorem spawn_channel (configs : List String) (s : RunState) (test : String)
    (rest : List String) : (s.spawn configs test rest).channel = s.channel := by
  unfold spawn panic; split_ifs <;> rfl

/-- After the drain loop: `Err("Test failures")` when some result is an error, waiting
for CTRL-C first when the server is kept running. -/
def report (args : SltArgs) (s : RunState) : RunState :=
  { s with
    location :=
      if errored s.results then
        if args.keepsServer then .awaitCtrlC else .returned (.error "Test failures")
      else .returned (.ok ()) }

/-- The runner is polled: it runs to its next await, or stays blocked on an empty
channel (`none`). -/
def poll (args : SltArgs) (configs : List String) (s : RunState) : Option RunState :=
  match s.location with
  | .spawnLoop [] => some { s with location := .draining }
  | .spawnLoop (test :: rest) =>
    if s.totalJobs = 0 then
      match s.channel with
      | [] => none
      | result :: channel =>
        if s.totalJobs = 255 then some (s.panic "attempt to add with overflow")
        else
          some ({ s with totalJobs := s.totalJobs + 1, channel,
                         results := s.results ++ [result] }.spawn configs test rest)
    else some (s.spawn configs test rest)
  | .draining =>
    match s.channel with
    | [] => none
    | result :: channel =>
      if (s.results ++ [result]).length = s.numTests then
        some (report args { s with channel, results := s.results ++ [result], closed := true })
      else some { s with channel, results := s.results ++ [result] }
  | _ => none

/-- Whether the runner waits on `recv`, where the deadline applies. -/
def waitsOnRecv (s : RunState) : Bool :=
  match s.location with
  | .spawnLoop (_ :: _) => s.totalJobs = 0
  | .draining => true
  | _ => false

/-- One event. A job sends with `unwrap`, which panics once the receiver is closed, or
dropped because `run_tests` has returned; nothing happens once the process has aborted. -/
def step (args : SltArgs) (configs : List String) (s : RunState) : Event → Option RunState
  | .poll => s.poll args configs
  | .finish test outcome =>
    if s.location.aborted = false ∧ test ∈ s.running then
      if (s.closed || !s.location.active) = true then
        some (s.panic "called `Result::unwrap()` on an `Err` value: SendError \x7b .. \x7d")
      else some { s with running := s.running.erase test, channel := s.channel ++ [(test, outcome)] }
    else none
  | .deadline => if s.waitsOnRecv then some { s with location := .timedOut } else none
  | .ctrlC outcome =>
    match s.location with
    | .awaitCtrlC =>
      some { s with location := .returned (match outcome with
        | .ok () => .error "Test failures"
        | .error error => .error error) }
    | _ => none

/-- A run: the events in order, each of which must be possible. -/
def run (args : SltArgs) (configs : List String) : RunState → List Event → Option RunState
  | s, [] => some s
  | s, event :: events => (s.step args configs event).bind fun s => s.run args configs events

end RunState

/-- The batching loop of `run_tests_batched`: drain `min(batch_size, len)` tests into a
batch until a batch is empty. `fuel` bounds the iterations. -/
def batchLoop (batchSize : Nat) : Nat → List String → List (List String) → Option (List (List String))
  | 0, _, _ => none
  | fuel + 1, tests, batches =>
    let batch := tests.take (min batchSize tests.length)
    if batch.isEmpty then some batches
    else batchLoop batchSize fuel (tests.drop (min batchSize tests.length)) (batches ++ [batch])

/-- One call of `run_tests` on `batch` along `events`: its result and final state, when
the events take it to a return. -/
def runTests (args : SltArgs) (configs batch : List String) (events : List Event) :
    Option (Outcome × RunState) :=
  match (RunState.start args batch).run args configs events with
  | some s => s.location.result.map fun result => (result, s)
  | none => none

/-- `for batch in batches { self.run_tests(..).await?; }`, each batch along its own
events: the result, and the final state of each batch that ran. -/
def runBatches (args : SltArgs) (configs : List String) :
    List (List String) → List (List Event) → Option (Outcome × List RunState)
  | [], _ => some (.ok (), [])
  | _ :: _, [] => none
  | batch :: batches, events :: schedule =>
    match runTests args configs batch events with
    | none => none
    | some (.error error, s) => some (.error error, [s])
    | some (.ok (), s) =>
      (runBatches args configs batches schedule).map fun (result, finals) => (result, s :: finals)

/-- `run_tests_batched`. `setup` is how creating the temporary directory and the client
configs went (parsing the connection string, or starting the embedded server); every
test then has a config. -/
def runTestsBatched (args : SltArgs) (batchSize : Nat) (tests : List String) (setup : Outcome)
    (schedule : List (List Event)) : Option (Outcome × List RunState) :=
  match setup with
  | .error error => some (.error error, [])
  | .ok () =>
    match batchLoop batchSize (tests.length + 1) tests [] with
    | none => none
    | some batches => runBatches args tests batches schedule

/-! ### `collect_tests` and `execute`

`collect_tests` gives the tests a run selects. The tests come from a `BTreeMap`, so in name
order; each is its name here. A pattern is compiled by
`glob::Pattern::new` and matched by `Pattern::matches`, both parameters, with the compile
error given by its message. -/

/-- The loop of `str::trim_end_matches` with a string pattern, with the iterations it has
left: a trailing copy of `suffix` is removed while there is one. -/
def trimEndMatchesLoop (suffix : List Char) : Nat → List Char → List Char
  | 0, text => text
  | fuel + 1, text =>
    if !suffix.isEmpty && suffix.isSuffixOf text then
      trimEndMatchesLoop suffix fuel (text.take (text.length - suffix.length))
    else text

/-- `str::trim_end_matches(suffix)`: every trailing copy of `suffix` removed. -/
def trimEndMatches (text suffix : String) : String :=
  ⟨trimEndMatchesLoop suffix.data text.length text.data⟩

section Selection
variable {Pattern : Type} (compile : String → Except String Pattern)
  (patternMatches : Pattern → String → Bool)

/-- The tests `tests_pattern` selects: those some of its patterns, each with its trailing
`.slt` removed, matches; all of them without it. A pattern that does not compile is the
error. -/
def includeTests (testsPattern : Option (List String)) (tests : List String) :
    Except String (List String) :=
  match testsPattern with
  | some patterns => do
    let compiled ← patterns.mapM fun pattern => compile (trimEndMatches pattern ".slt")
    pure (tests.filter fun name => compiled.any fun pattern => patternMatches pattern name)
  | none => pure tests

/-- The loop over `self.exclude`: each pattern compiled, with the pattern named in its error,
then the tests it matches dropped. -/
def excludeTests : List String → List String → Except String (List String)
  | [], tests => .ok tests
  | pattern :: rest, tests =>
    match compile pattern with
    | .error error => .error ("Invalid glob pattern `" ++ pattern ++ "`: " ++ error)
    | .ok compiled => excludeTests rest (tests.filter fun name => !patternMatches compiled name)

/-- `collect_tests`: the tests `tests_pattern` selects, less those an `exclude` pattern
matches; an error when none is left. -/
def collectTests (testsPattern : Option (List String)) (exclude tests : List String) :
    Except String (List String) := do
  let selected ← includeTests compile patternMatches testsPattern tests
  let selected ← excludeTests compile patternMatches exclude selected
  if selected.isEmpty then throw "No tests to run. Exiting..."
  pure selected

/-- The fields of `SltArgs` that `execute` and `collect_tests` read, besides those in
`SltArgs` above. -/
structure SelectArgs where
  list : Bool
  testsPattern : Option (List String)
  exclude : List String
  deriving DecidableEq, Repr

/-- `SltArgs::execute`: collect the tests, then either print their names (`--list`) or run
them in batches of `num_cpus::get()` on a new multi-threaded runtime. On the tests of the
map, in name order: its result, the names it printed, and the final state of each batch's
`run_tests`. `runtime` is how building the runtime went, `batchSize` is `num_cpus::get()`,
and `setup` and `schedule` are as for `run_tests_batched`. -/
def SltArgs.execute (args : SltArgs) (select : SelectArgs) (tests : List String) (runtime : Outcome)
    (batchSize : Nat) (setup : Outcome) (schedule : List (List Event)) :
    Option (Outcome × List String × List RunState) :=
  match collectTests compile patternMatches select.testsPattern select.exclude tests with
  | .error error => some (.error error, [], [])
  | .ok tests =>
    if select.list then some (.ok (), tests, [])
    else
      match runtime with
      | .error error => some (.error error, [], [])
      | .ok () =>
        (runTestsBatched args batchSize tests setup schedule).map fun (result, finals) =>
          (result, [], finals)

end Selection

end GlareDb.Cli
