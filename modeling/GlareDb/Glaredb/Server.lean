import Mathlib.Data.List.Basic

set_option autoImplicit false

/-! The server of `glaredb/src/server.rs`. `Server::connect` ensures the temporary directory,
opens the metadata object store of the configured kind, scopes it to the database's name,
opens the stable store on it and builds the engine; `Server::serve` accepts connections for
ever and hands each, with a fresh id, to the protocol handler in a task of its own. The
filesystem, the object stores, the engine, the listener and `Uuid::new_v4` are the
environment: each call is a request whose reply the environment picks, and a run records
every request with its reply. -/

namespace GlareDb.Glaredb

/-- `ObjectStoreKind`. -/
inductive ObjectStoreKind where
  | localTemporary
  | «local» (objectStorePath : String)
  | memory
  | gcs (serviceAccountPath bucketName : String)
  | s3
  deriving DecidableEq, Repr

/-- `ObjectStoreConfig`, with the fields `connect` reads. -/
structure ObjectStoreConfig where
  dbName : String
  objectStore : ObjectStoreKind
  deriving DecidableEq, Repr

/-- `DbConfig`, with the field `connect` reads. -/
structure DbConfig where
  access : ObjectStoreConfig
  deriving DecidableEq, Repr

/-- `ProtocolHandler::new(engine, local)`. -/
structure ProtocolHandler (Engine : Type) where
  engine : Engine
  «local» : Bool
  deriving DecidableEq, Repr

/-- `Server`. -/
structure Server (Engine : Type) where
  pgHandler : ProtocolHandler Engine
  deriving DecidableEq, Repr

section Requests

variable (Store Storage Engine Conn Uuid : Type)

/-- The requests of the server, indexed by their reply. Errors are `anyhow` messages. -/
inductive ServerRequest : Type → Type where
  /-- `env::temp_dir()`. -/
  | tempDir : ServerRequest String
  /-- `fs::create_dir_all(path)`. -/
  | createDirAll (path : String) : ServerRequest (Except String Unit)
  /-- `TempObjectStore::new()`. -/
  | tempObjectStore : ServerRequest (Except String Store)
  /-- `LocalFileSystem::new_with_prefix(path)`. -/
  | localFileSystem (path : String) : ServerRequest (Except String Store)
  /-- `object_store::memory::InMemory::new()`. -/
  | inMemory : ServerRequest Store
  /-- `GoogleCloudStorageBuilder::new()` with the service account path and the bucket name,
  then `build()`. -/
  | googleCloudStorage (serviceAccountPath bucketName : String) : ServerRequest (Except String Store)
  /-- `ObjectStableStore::open(PrefixObjectStore::new(db_name, store))`. -/
  | openStableStore (dbName : String) (store : Store) : ServerRequest (Except String Storage)
  /-- `Engine::new(storage)`. -/
  | newEngine (storage : Storage) : ServerRequest (Except String Engine)
  /-- `conf.pg_listener.accept()`; the client's address is only logged. -/
  | accept : ServerRequest (Except String Conn)
  /-- `Uuid::new_v4()`. -/
  | newV4 : ServerRequest Uuid
  /-- `tokio::spawn` of `pg_handler.handle_connection(conn_id, conn)`: the task runs on its
  own, and its outcome is only logged. -/
  | spawn (handler : ProtocolHandler Engine) (connId : Uuid) (conn : Conn) : ServerRequest Unit

/-- A request with its reply, as a run records it. -/
abbrev Exchange := Σ reply : Type, ServerRequest Store Storage Engine Conn Uuid reply × reply

/-- An async body of the server: a result, or a request and what follows each reply. -/
inductive ServerProgram (α : Type) where
  | pure (value : α)
  | request {reply : Type} (call : ServerRequest Store Storage Engine Conn Uuid reply)
      (next : reply → ServerProgram α)

/-- Any behaviour of the environment: a reply and a new state for every request. -/
abbrev ServerEnv (σ : Type) :=
  {reply : Type} → ServerRequest Store Storage Engine Conn Uuid reply → σ → reply × σ

end Requests

variable {Store Storage Engine Conn Uuid : Type}

/-- `.await` of a body, then the rest. -/
def ServerProgram.bind {α β : Type} :
    ServerProgram Store Storage Engine Conn Uuid α → (α → ServerProgram Store Storage Engine Conn Uuid β) →
      ServerProgram Store Storage Engine Conn Uuid β
  | .pure value, next => next value
  | .request call rest, next => .request call fun reply => (rest reply).bind next

/-- Run a body against an environment: its result, the final state, and every request made
with its reply. -/
def ServerProgram.run {σ α : Type} (env : ServerEnv Store Storage Engine Conn Uuid σ) :
    ServerProgram Store Storage Engine Conn Uuid α → σ →
      α × σ × List (Exchange Store Storage Engine Conn Uuid)
  | .pure value, state => (value, state, [])
  | .request call next, state =>
    let (reply, state) := env call state
    let (value, final, exchanges) := (next reply).run env state
    (value, final, ⟨_, call, reply⟩ :: exchanges)

/-- `open_object_store`: the metadata store of the configured kind. -/
def openObjectStore (conf : ObjectStoreConfig) :
    ServerProgram Store Storage Engine Conn Uuid (Except String Store) :=
  match conf.objectStore with
  | .localTemporary => .request .tempObjectStore .pure
  | .«local» objectStorePath =>
    .request (.createDirAll objectStorePath) fun
      | .error error => .pure (.error error)
      | .ok () => .request (.localFileSystem objectStorePath) .pure
  | .memory => .request .inMemory fun store => .pure (.ok store)
  | .gcs serviceAccountPath bucketName => .request (.googleCloudStorage serviceAccountPath bucketName) .pure
  | .s3 => .pure (.error "s3 object store currently not supported")

/-- `Server::connect`: every step under `?`. -/
def connect (config : DbConfig) («local» : Bool) :
    ServerProgram Store Storage Engine Conn Uuid (Except String (Server Engine)) :=
  .request .tempDir fun envTmp =>
    .request (.createDirAll envTmp) fun
      | .error error => .pure (.error error)
      | .ok () =>
        (openObjectStore config.access).bind fun
          | .error error => .pure (.error error)
          | .ok store =>
            .request (.openStableStore config.access.dbName store) fun
              | .error error => .pure (.error error)
              | .ok storage =>
                .request (.newEngine storage) fun
                  | .error error => .pure (.error error)
                  | .ok engine => .pure (.ok ⟨⟨engine, «local»⟩⟩)

/-- `Server::serve`, for at most `fuel` turns of its endless loop: accept under `?`, a fresh
connection id, and the handler spawned on the connection. `none` is a server still
listening when the fuel ran out. -/
def Server.serve (server : Server Engine) :
    Nat → ServerProgram Store Storage Engine Conn Uuid (Option (Except String Unit))
  | 0 => .pure none
  | fuel + 1 =>
    .request .accept fun
      | .error error => .pure (some (.error error))
      | .ok conn =>
        .request .newV4 fun connId =>
          .request (.spawn server.pgHandler connId conn) fun () => server.serve fuel

end GlareDb.Glaredb

/-! What the server's accept loop does over every run, whatever the listener and
`Uuid::new_v4` return: each turn that accepts a connection draws an id and spawns the
server's own handler on exactly that connection and that id, in the order of the accepts;
the loop stops only at the first failed accept and returns its error, so `serve` never
returns `Ok`. -/

namespace GlareDb.Proofs.ServerLoop
open GlareDb.Glaredb

variable {Store Storage Engine Conn Uuid σ : Type}

/-- The requests and replies of the turns that accepted a connection: the accept with the
connection, the id drawn for it, and the handler spawned on both. -/
def served (handler : ProtocolHandler Engine) (accepted : List (Conn × Uuid)) :
    List (Exchange Store Storage Engine Conn Uuid) :=
  (accepted.map fun (conn, connId) =>
    [⟨_, .accept, .ok conn⟩, ⟨_, .newV4, connId⟩, ⟨_, .spawn handler connId conn, ()⟩]).flatten

@[simp] theorem served_cons (handler : ProtocolHandler Engine) (conn : Conn) (connId : Uuid)
    (accepted : List (Conn × Uuid)) :
    (served handler ((conn, connId) :: accepted) : List (Exchange Store Storage Engine Conn Uuid)) =
      ⟨_, .accept, .ok conn⟩ :: ⟨_, .newV4, connId⟩ :: ⟨_, .spawn handler connId conn, ()⟩ ::
        served handler accepted := rfl

variable (env : ServerEnv Store Storage Engine Conn Uuid σ)

/-- `Server::serve`, over every run of every length: still listening after one spawned
handler per turn, or stopped by the first failed accept, whose error it returns. -/
theorem serve_spawns_accepted (server : Server Engine) : ∀ (fuel : Nat) (state : σ),
    ∃ accepted : List (Conn × Uuid),
      (((server.serve fuel).run env state).1 = none ∧ accepted.length = fuel ∧
        ((server.serve fuel).run env state).2.2 = served server.pgHandler accepted) ∨
      ∃ error, ((server.serve fuel).run env state).1 = some (.error error) ∧ accepted.length < fuel ∧
        ((server.serve fuel).run env state).2.2 = served server.pgHandler accepted ++ [⟨_, .accept, .error error⟩]
  | 0, _ => ⟨[], .inl ⟨rfl, rfl, rfl⟩⟩
  | fuel + 1, state => by
    simp only [Server.serve, ServerProgram.run]
    obtain ⟨reply, state⟩ := env .accept state
    rcases reply with error | conn
    · exact ⟨[], .inr ⟨error, rfl, Nat.succ_pos fuel, rfl⟩⟩
    · simp only [ServerProgram.run]
      obtain ⟨connId, state⟩ := env .newV4 state
      obtain ⟨_, state⟩ := env (.spawn server.pgHandler connId conn) state
      obtain ⟨accepted, ⟨listening, turns, exchanges⟩ | ⟨error, failed, turns, exchanges⟩⟩ :=
        serve_spawns_accepted server fuel state
      · exact ⟨(conn, connId) :: accepted, .inl ⟨listening, by simp [turns], by simp [exchanges]⟩⟩
      · exact ⟨(conn, connId) :: accepted, .inr ⟨error, failed, by simp [turns],
          by simp [exchanges]⟩⟩

end GlareDb.Proofs.ServerLoop
