import GlareDb.Cli.Slt

set_option autoImplicit false

/-! One job of the sqllogictest runner: `run_test` and `run_test_inner` of
`cli/src/args/slt.rs`. The job connects a client of the chosen protocol, runs the pre-test
hooks whose pattern matches the test's name, then the test, then the post-test hooks of the
same hooks, and closes the client. The client, the hooks and the test are the environment:
each call is a request whose reply the environment picks, and `local_vars` is threaded
through the calls that take it. -/

namespace GlareDb.Cli

/-- `ClientProtocol`. -/
inductive ClientProtocol where
  | postgres
  | rpc
  | flightSql
  deriving DecidableEq, Repr

/-- The requests of a test job, indexed by their reply. A hook is named by its index in
`TestHooks`; `Vars` is `local_vars`. -/
inductive TestRequest (Vars : Type) : Type → Type where
  /-- `PgTestClient::new`, `RpcTestClient::new` or `FlightSqlTestClient::new`. -/
  | connect (mode : ClientProtocol) : TestRequest Vars Outcome
  /-- `hook.pre(client_config, client.clone(), &mut local_vars)`. -/
  | pre (hook : Nat) (vars : Vars) : TestRequest Vars (Except String Bool × Vars)
  /-- `test.execute(client_config, client.clone(), &mut local_vars)`. -/
  | execute (vars : Vars) : TestRequest Vars (Outcome × Vars)
  /-- `hook.post(client_config, client.clone(), &local_vars)`. -/
  | post (hook : Nat) (vars : Vars) : TestRequest Vars Outcome
  /-- `client.close()`. -/
  | close : TestRequest Vars Outcome

/-- A request with its reply, as a trace records it: the hook's verdict, the test's or a
hook's outcome, how connecting went. What `close` returns is ignored by the code. -/
inductive TestCall where
  | connect (outcome : Outcome)
  | pre (hook : Nat) (reply : Except String Bool)
  | execute (outcome : Outcome)
  | post (hook : Nat) (outcome : Outcome)
  | close
  deriving Repr

def TestRequest.call {Vars reply : Type} : TestRequest Vars reply → reply → TestCall
  | .connect _, outcome => .connect outcome
  | .pre hook _, (reply, _) => .pre hook reply
  | .execute _, (outcome, _) => .execute outcome
  | .post hook _, outcome => .post hook outcome
  | .close, _ => .close

/-- An async body of the job: a result, or a request and what follows each reply. -/
inductive TestProgram (Vars α : Type) where
  | pure (value : α)
  | request {reply : Type} (call : TestRequest Vars reply) (next : reply → TestProgram Vars α)

variable {Vars : Type}

/-- `.await` of a body, then the rest. -/
def TestProgram.bind {α β : Type} : TestProgram Vars α → (α → TestProgram Vars β) → TestProgram Vars β
  | .pure value, next => next value
  | .request call rest, next => .request call fun reply => (rest reply).bind next

/-- Any behaviour of the client, the hooks and the test: a reply and a new state for every
request. -/
abbrev TestEnv (Vars σ : Type) := {reply : Type} → TestRequest Vars reply → σ → reply × σ

/-- Run a body against an environment: its result, the final state, and the calls made,
each with its reply. -/
def TestProgram.run {σ α : Type} (env : TestEnv Vars σ) : TestProgram Vars α → σ → α × σ × List TestCall
  | .pure value, state => (value, state, [])
  | .request call next, state =>
    let (reply, state) := env call state
    let (value, final, calls) := (next reply).run env state
    (value, final, call.call reply :: calls)

/-- The hooks whose pattern matches the test's name, in order:
`hooks.iter().filter(|(pattern, _)| pattern.matches(test_name))`. `glob`'s matching is a
parameter. -/
def matchingHooks {Pattern : Type} (patternMatches : Pattern → String → Bool) (hooks : List Pattern)
    (testName : String) : List Nat :=
  hooks.enum.filterMap fun (index, pattern) => if patternMatches pattern testName then some index else none

/-- The pre-hook loop: `?` on an error, `return Ok(())` on `false`. The variables the
hooks leave when all of them returned `true`, `none` when one returned `false`. -/
def preHooks : List Nat → Vars → TestProgram Vars (Except String (Option Vars))
  | [], vars => .pure (.ok (some vars))
  | hook :: rest, vars =>
    .request (.pre hook vars) fun (reply, vars) =>
      match reply with
      | .error error => .pure (.error error)
      | .ok false => .pure (.ok none)
      | .ok true => preHooks rest vars

/-- The post-hook loop: `?` on an error. -/
def postHooks : List Nat → Vars → TestProgram Vars Outcome
  | [], _ => .pure (.ok ())
  | hook :: rest, vars =>
    .request (.post hook vars) fun
      | .error error => .pure (.error error)
      | .ok () => postHooks rest vars

/-- `run_test_inner`, given the matching hooks and a fresh `local_vars`. -/
def runTestInner (hooks : List Nat) (vars : Vars) : TestProgram Vars Outcome :=
  (preHooks hooks vars).bind fun
    | .error error => .pure (.error error)
    | .ok none => .pure (.ok ())
    | .ok (some vars) =>
      .request (.execute vars) fun (outcome, vars) =>
        match outcome with
        | .error error => .pure (.error error)
        | .ok () => postHooks hooks vars

/-- `run_test`: the client's constructor under `?`, then `run_test_inner`, then
`let _ = client.close().await`; the job's result is the inner one. -/
def runTest {Pattern : Type} (mode : ClientProtocol) (patternMatches : Pattern → String → Bool)
    (hooks : List Pattern) (testName : String) (vars : Vars) : TestProgram Vars Outcome :=
  .request (.connect mode) fun
    | .error error => .pure (.error error)
    | .ok () =>
      (runTestInner (matchingHooks patternMatches hooks testName) vars).bind fun result =>
        .request .close fun _ => .pure result

end GlareDb.Cli
