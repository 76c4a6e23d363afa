import RemoteCall.Session.Tick

/-!
# Runs

Everything that happens in a session is a step that nothing interrupts: something the owner does, something the
far end of a connection does, one turn of a task, or the passing of time. A run is any sequence of them.
The schedule that is followed here lets all tasks come to rest before time passes, and lets time pass from one
timer to the next.
-/

namespace RemoteCall.Session

/-! ### Turns of tasks -/

/-- A task that can take a turn. -/
inductive Turn where
  /-- The dispatcher of a connection. -/
  | dispatcher (i : Nat)
  /-- The far end of a connection that answers by itself. -/
  | server (i : Nat)
  | caller (k : Nat)
  | task (j : Nat)
  deriving DecidableEq, Repr

/-- The far end of a connection does something to its link. -/
def peerActs (i : Nat) (act : Memory.Link.PeerAct) (s : Session) : Session :=
  s.modify i fun c => { c with link := c.link.act act }

/-- The far end of a connection answers by itself from now on. -/
def letServe (i : Nat) (handler : Memory.Link.Handler) (s : Session) : Session :=
  { s with handlers := s.handlers ++ [(i, handler)] }

/-- The far end of a connection answers one packet. -/
def serve (i : Nat) (s : Session) : Session :=
  match s.handlers.lookup i with
  | some handler => s.peerActs i (.serve handler)
  | none => s

/-- A task takes its turn. -/
def take (t : Turn) (s : Session) : Session :=
  match t with
  | .dispatcher i => s.modify i (Connection.dispatch s.now)
  | .server i => s.serve i
  | .caller k => s.resume k
  | .task j => s.runTask j

/-- Whether a task would do something in its turn. -/
def isReady (s : Session) (t : Turn) : Bool :=
  match t with
  | .dispatcher i => s.connections[i]?.any (Connection.isReady s.now)
  | .server i =>
    (s.handlers.lookup i).isSome && s.connections[i]?.any fun c => !c.link.outbound.isEmpty
  | .caller k => (s.callers[k]?.bind Caller.waiting?).any fun w => (s.outcome? w).isSome
  | .task j =>
    s.client.tasks[j]?.any fun t =>
      match t.stage with
      | .over => false
      | .probing w => (s.outcome? w).isSome
      | .resting => t.cancelled || t.next ≤ s.now

/-- All tasks there are. -/
def turns (s : Session) : List Turn :=
  (List.range s.connections.length).map .dispatcher ++ s.handlers.map (fun h => .server h.1) ++
    (List.range s.callers.length).map .caller ++ (List.range s.client.tasks.length).map .task

/-- Whether no task has anything to do. -/
def AtRest (s : Session) : Prop := ∀ t ∈ s.turns, s.isReady t = false

/-- How many turns can be left before all tasks rest: one for each packet, response, caller, timer and end of a connection, and a
reserve for what these lead to. -/
def backlog (s : Session) : Nat :=
  let packets := s.connections.foldl (fun n c => n + c.link.inbound.length + c.link.outbound.length + 2) 0
  64 + 8 * (packets + s.callers.length + s.client.tasks.length)

/-- Lets ready tasks take turns until none is ready, at most `fuel` times. -/
def settleWithin : (fuel : Nat) → Session → Session
  | 0, s => s
  | fuel + 1, s =>
    match s.turns.find? s.isReady with
    | none => s
    | some t => settleWithin fuel (s.take t)

/-- Lets all tasks come to rest. -/
def settle (s : Session) : Session := s.settleWithin s.backlog

/-! ### Time -/

/-- The moments at which tasks have something to do by themselves. -/
def timers (s : Session) : List Nat :=
  s.connections.filterMap Connection.timer? ++
    (s.callers.filterMap Caller.waiting?).filterMap s.deadline? ++
    s.client.tasks.filterMap fun t =>
      match t.stage with
      | .over => none
      | .probing w => s.deadline? w
      | .resting => some t.next

/-- The first timer after now, up to a moment. -/
def nextTimer? (s : Session) (limit : Nat) : Option Nat :=
  (s.timers.filter fun t => s.now < t ∧ t ≤ limit).min?

/-- Lets time pass up to a moment, with a halt at each timer for all that it leads to. -/
def passTo (limit : Nat) : (fuel : Nat) → Session → Session
  | 0, s => s
  | fuel + 1, s =>
    match s.nextTimer? limit with
    | none => ({ s with now := limit }).settle
    | some t => passTo limit fuel (({ s with now := t }).settle)

/-- Lets some time pass. -/
def advance (ms : Nat) (s : Session) : Session := s.passTo (s.now + ms) (ms + 1)

/-! ### Steps -/

/-- What can happen in a session. -/
inductive Action where
  /-- The owner makes a connection. -/
  | connect
  /-- The owner makes a connection, and has it made again as its configuration says. -/
  | start
  | stop
  | dropClient
  | enableReconnect (plan : ReconnectPlan)
  /-- Attempts to connect are refused from now on, or accepted. -/
  | refuse (refuse : Bool)
  /-- The owner asks for a façade, and holds it under a name. -/
  | newFacade (r : FacadeRequest) (name : String)
  /-- The owner asks for the command service. -/
  | commandFacade
  /-- The owner asks for the data service. -/
  | dataFacade
  | letGo (name : String)
  /-- Someone calls a method through a façade. -/
  | call (id : FacadeId) (method : String) (args : List Json)
  | askLiveness
  /-- A caller goes away. -/
  | abort (k : Nat)
  /-- The far end of a connection does something to its link. -/
  | peer (i : Nat) (act : Memory.Link.PeerAct)
  /-- A task takes its turn. -/
  | turn (t : Turn)
  /-- Time passes. -/
  | pass (ms : Nat)

/-- What comes of something that happens. -/
def perform (a : Action) (s : Session) : Session :=
  match a with
  | .connect => s.connect.2
  | .start => s.start.2
  | .stop => s.stop
  | .dropClient => s.dropClient
  | .enableReconnect plan => s.enableReconnect plan
  | .refuse refuse => s.onClient fun c => { c with connector := c.connector.setRefuse refuse }
  | .newFacade r name => let (id, s) := s.newFacade r; s.hold name id
  | .commandFacade => s.commandFacade.2
  | .dataFacade => s.dataFacade.2
  | .letGo name => s.letGo name
  | .call id method args => (s.call id method args).2
  | .askLiveness => s.askLiveness.2
  | .abort k => s.abort k
  | .peer i act => s.peerActs i act
  | .turn t => s.take t
  | .pass ms => { s with now := s.now + ms }

/-- What comes of one thing after another. -/
def run (actions : List Action) (s : Session) : Session := actions.foldl (fun s a => s.perform a) s

@[simp] theorem run_nil (s : Session) : s.run [] = s := rfl

@[simp] theorem run_cons (a : Action) (actions : List Action) (s : Session) :
    s.run (a :: actions) = (s.perform a).run actions := rfl

theorem run_append (first second : List Action) (s : Session) :
    s.run (first ++ second) = (s.run first).run second := by
  simp [run, List.foldl_append]

end RemoteCall.Session
