import RemoteCall.Session.State

/-!
# The life of a connection in use

Every request goes through `channel`, which gives the connection in use, or the reason why there is none to
use. A connection that is made takes the place of the one before, which is torn down.
-/

namespace RemoteCall.Session

/-- The connection in use, which has to be active and writable. -/
def channel (s : Session) : Except CallError Nat :=
  if s.client.released then .error (.connectFailure "" .clientDropped)
  else
    let addr := s.client.config.remoteAddr
    match s.client.installed with
    | none => .error (.connectFailure addr .noConnection)
    | some i =>
      match s.connections[i]? with
      | none => .error (.connectFailure addr .noConnection)
      | some c =>
        if !c.link.active then .error (.connectFailure addr .inactive)
        else if !c.link.isWritable then .error (.connectFailure addr .notWritable)
        else .ok i

/-- Whether there is a connection in use, and it is active. -/
def isTransportActive (s : Session) : Bool :=
  (s.client.installed.bind fun i => s.connections[i]?).any fun c => c.link.active

/-- Tears down the connection in use. -/
def teardownInstalled (s : Session) : Session :=
  match s.client.installed with
  | some i => s.modify i Connection.teardown
  | none => s

/-- Makes a connection; whether it was accepted. The new one is in use from then on. A refusal
leaves the one in use as it is. -/
def connect (s : Session) : Bool × Session :=
  let (attempt, connector) := s.client.connector.connect s.client.config.remoteAddr
  let s := s.onClient fun c => { c with connector }
  match attempt with
  | .error _ => (false, s.onClient fun c => { c with phase := some .down })
  | .ok link =>
    let i := s.connections.length
    let c := Connection.start s.now link (i + 1) s.client.config.dispatcher
    let s := s.teardownInstalled
    (true,
      { s with connections := s.connections ++ [c] }.onClient
        fun c => { c with installed := some i, phase := some .up })

/-- Releases the connection in use. -/
def disconnect (s : Session) : Session :=
  s.teardownInstalled.onClient fun c =>
    { c with installed := none, phase := if c.phase = some .up then some .down else c.phase }

/-- Starts a task that makes lost connections again, in place of the one before. -/
def enableReconnect (plan : ReconnectPlan) (s : Session) : Session :=
  s.onClient fun c =>
    let tasks := match c.task with
      | some j => c.tasks.modify j ReconnectTask.cancel
      | none => c.tasks
    { c with tasks := tasks ++ [.start s.now plan], task := some tasks.length }

/-- Makes a connection, and starts the task that the configuration asks for. -/
def start (s : Session) : Bool × Session :=
  let (accepted, s) := s.connect
  match s.client.config.autoReconnect with
  | some settings => (accepted, s.enableReconnect (.ofSettings settings))
  | none => (accepted, s)

/-- Cancels the task that makes lost connections again, and releases the connection in use. -/
def stop (s : Session) : Session :=
  (s.onClient fun c =>
    match c.task with
    | some j => { c with tasks := c.tasks.modify j ReconnectTask.cancel, task := none }
    | none => c).disconnect

/-! ### The end of a client -/

/-- Whether someone holds the client: its owner, a caller that asks whether the connection lives, or
a task inside a tick. -/
def isHeld (s : Session) : Bool :=
  s.client.owned || s.callers.any Caller.holdsClient || s.client.tasks.any ReconnectTask.isProbing

/-- Gives up all that a client has. Its tasks end before their next tick. -/
def release (s : Session) : Session :=
  (match s.client.installed with
    | some i => s.modify i Connection.release
    | none => s).onClient fun c =>
      { c with
        released := true, installed := none, command := none, data := none, task := none,
        tasks := c.tasks.map ReconnectTask.cancel }

/-- Gives up all that a client has once nobody holds it. -/
def releaseUnheld (s : Session) : Session :=
  if s.isHeld || s.client.released then s else s.release

/-- The owner drops the client. -/
def dropClient (s : Session) : Session :=
  (s.onClient fun c => { c with owned := false }).releaseUnheld

/-! ### Words -/

/-- The phase in words. -/
def phaseText (s : Session) : String :=
  match s.client.phase with
  | none => "None"
  | some p => s!"Some({p.name})"

/-- The client in few words. -/
def display (s : Session) : String :=
  s!"RpcClient[{s.client.config.remoteAddr}]\x7bstate={s.phaseText}\x7d"

/-- The client in more words. -/
def text (s : Session) : String :=
  s!"RpcClient \x7b remote_addr: {Quoted.quote s.client.config.remoteAddr}, state: {s.phaseText}, facades: {s.client.registry.size} \x7d"

end RemoteCall.Session
