import RemoteCall.Reconnect
import RemoteCall.Service.Builtin
import RemoteCall.Service.Registry

/-!
# Sessions

A session is a client with everything around it: the clock, every connection that was ever made, the
far ends that answer by themselves, those who wait for calls, and those who hold façades.
-/

namespace RemoteCall

/-- What became of the last attempt to connect, or that the connection was released. -/
inductive Phase where
  | down
  | up
  deriving DecidableEq, Repr

/-- The name of a phase in messages. -/
def Phase.name : Phase → String
  | .down => "Down"
  | .up => "Up"

/-- A client. -/
structure Client where
  config : Config
  connector : Memory.Connector := {}
  /-- How the façades that are made for it carry values. -/
  codec : Codec := .json
  /-- What became of the last attempt to connect, if there was one. -/
  phase : Option Phase := none
  /-- The connection in use, by its place in the order of all. -/
  installed : Option Nat := none
  /-- All façades that were made. -/
  facades : List Facade := []
  registry : Registry := {}
  /-- The façade of the command service, if it was asked for. -/
  command : Option FacadeId := none
  /-- The façade of the data service, if it was asked for. -/
  data : Option FacadeId := none
  /-- All tasks that were started to make lost connections again. -/
  tasks : List ReconnectTask := []
  /-- The task that a stop would cancel. -/
  task : Option Nat := none
  /-- How often the owner heard of a new connection. -/
  callbacks : Nat := 0
  /-- Whether its owner still holds it. -/
  owned : Bool := true
  /-- Whether nobody holds it any more, so that all it had is given up. -/
  released : Bool := false

/-- What a caller waits for. -/
inductive Purpose where
  /-- The result of a method, called through a façade. -/
  | result (facade : FacadeId)
  /-- Whether the connection lives. -/
  | liveness
  /-- A response itself. -/
  | response
  deriving DecidableEq, Repr

/-- What a caller gets. -/
inductive Answer where
  | result (r : Except CallError Json)
  | liveness (alive : Bool)
  | response (r : Pending.Outcome)

/-- Where a caller stands. -/
inductive CallerStage where
  | waiting (w : Waiting)
  | ended (moment : Nat) (a : Answer)
  /-- It went away before it got anything. -/
  | gone

/-- Someone who called and may be waiting. -/
structure Caller where
  purpose : Purpose
  stage : CallerStage

namespace Caller

/-- What a caller is waiting for, if it is. -/
def waiting? (c : Caller) : Option Waiting :=
  match c.stage with
  | .waiting w => some w
  | _ => none

/-- The façade that a waiting caller holds. -/
def facade? (c : Caller) : Option FacadeId :=
  match c.purpose, c.stage with
  | .result id, .waiting _ => some id
  | _, _ => none

/-- Whether a caller holds the client. -/
def holdsClient (c : Caller) : Bool :=
  match c.purpose, c.stage with
  | .liveness, .waiting _ => true
  | _, _ => false

end Caller

/-- A client with everything around it. -/
structure Session where
  now : Nat := 0
  /-- Every connection that was made, in order. -/
  connections : List Connection := []
  /-- The far ends that answer by themselves. -/
  handlers : List (Nat × Memory.Link.Handler) := []
  callers : List Caller := []
  /-- The façades that the owner holds, by the names that it gave them. -/
  holders : Dictionary FacadeId := []
  client : Client

namespace Session

/-- A session that begins. The client carries values as JSON if it is not given another codec. -/
def ofConfig (config : Config) (codec : Codec := .json) : Session := { client := { config, codec } }

/-- A session of one connection that belongs to no client. -/
def ofConnection (c : Connection) : Session :=
  { connections := [c], client := { config := {} } }

/-! ### Connections -/

/-- Changes a connection. -/
def modify (i : Nat) (f : Connection → Connection) (s : Session) : Session :=
  { s with connections := s.connections.modify i f }

/-- Changes a connection, and gives what that gave. -/
def onConnection {α : Type} (i : Nat) (f : Connection → α × Connection) (s : Session) :
    Option α × Session :=
  match s.connections[i]? with
  | some c => (some (f c).1, { s with connections := s.connections.set i (f c).2 })
  | none => (none, s)

/-- Changes the calls of a connection that wait. -/
def onTable {α : Type} (i : Nat) (f : Pending.Table → α × Pending.Table) (s : Session) :
    Option α × Session :=
  s.onConnection i (Connection.onTable f)

/-- Changes the client. -/
def onClient (f : Client → Client) (s : Session) : Session := { s with client := f s.client }

/-! ### Façades -/

/-- Whether someone holds a façade. -/
def isLive (s : Session) (id : FacadeId) : Bool :=
  s.holders.any (fun h => h.2 == id) || s.client.command == some id || s.client.data == some id
    || s.callers.any fun c => c.facade? == some id

/-- The façade with a number. -/
def facade? (s : Session) (id : FacadeId) : Option Facade := s.client.facades[id]?

/-- The façade under the name that is asked for if it is held and `reusable`, and else a new one. -/
def obtain (r : FacadeRequest) (reusable : Facade → Bool) (s : Session) :
    Registry.Found × Session :=
  match s.client.registry.getOrCreate s.isLive r.service
      (fun id => (s.facade? id).any reusable) s.client.facades.length with
  | (.reused id, _) => (.reused id, s)
  | (.built id, registry) =>
    (.built id, s.onClient fun c => { c with registry, facades := c.facades ++ [.make r c.codec] })

/-- The façade that was asked for: the one under its name if it is held and answers, and else a new one. -/
def newFacade (r : FacadeRequest) (s : Session) : FacadeId × Session :=
  let (found, s) := s.obtain r fun f => f.answers r.definition r.timeoutMs r.naming
  (found.id, s)

/-- The façade of a definition, with the name and the time limit that it sets. -/
def newInstance (d : ServiceDefinition) (s : Session) : FacadeId × Session :=
  s.newFacade ⟨d, d.defaultTimeout, d.defaultServiceName, declaredNames⟩

/-- The façade of the command service, made when it is asked for first. -/
def commandFacade (s : Session) : FacadeId × Session :=
  match s.client.command with
  | some id => (id, s)
  | none =>
    let (id, s) := s.newInstance commandService
    (id, s.onClient fun c => { c with command := some id })

/-- The façade of the data service, made when it is asked for first. -/
def dataFacade (s : Session) : FacadeId × Session :=
  match s.client.data with
  | some id => (id, s)
  | none =>
    let (id, s) := s.newInstance dataService
    (id, s.onClient fun c => { c with data := some id })

/-- The façade under a service name, if it is held. -/
def lookup (service : String) (s : Session) : Option FacadeId :=
  s.client.registry.get? s.isLive service

/-- Takes the entries of façades that nobody holds out of the registry; how many there were. -/
def prune (s : Session) : Nat × Session :=
  let (gone, registry) := s.client.registry.prune s.isLive
  (gone, s.onClient fun c => { c with registry })

/-- Holds a façade under a name, in place of the one that was held there. -/
def hold (name : String) (id : FacadeId) (s : Session) : Session :=
  { s with holders := s.holders.insert name id }

/-- Lets go of the façade under a name. -/
def letGo (name : String) (s : Session) : Session :=
  { s with holders := s.holders.filter fun h => h.1 != name }

end Session

end RemoteCall
