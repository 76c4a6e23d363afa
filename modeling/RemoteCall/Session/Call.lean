import RemoteCall.Session.Lifecycle

/-!
# Calls

A call is checked, encoded and sent over the connection in use. Its caller then waits at that
connection, whatever becomes of the client, until the call has an outcome or the caller goes away.
-/

namespace RemoteCall.Session

/-! ### Sending -/

/-- Sends the call of a method through a façade. Unanswered methods have no one to wait. The faults are looked for
in this order: no such method, wrong number of arguments, arguments that cannot be encoded, no
connection to use, an id that is taken, and a request that cannot be written. -/
def invoke (f : Facade) (method : String) (args : List Json) (s : Session) :
    Except CallError (Option Waiting) × Session :=
  match f.outgoing method args with
  | .error e => (.error e, s)
  | .ok o =>
    match s.channel with
    | .error e => (.error e, s)
    | .ok i =>
      match s.onConnection i (Connection.send s.now o) with
      | (none, s) => (.error .connectionClosed, s)
      | (some (.error e), s) => (.error e, s)
      | (some (.ok ticket), s) => (.ok (ticket.map fun t => ⟨i, t⟩), s)

/-! ### Waiting -/

/-- What came of a call by now, if anything did. -/
def outcome? (s : Session) (w : Waiting) : Option Pending.Outcome :=
  s.connections[w.connection]?.bind fun c => c.generation.table.outcome? s.now w.ticket

/-- The caller of a call has got its outcome. -/
def finish (w : Waiting) (s : Session) : Session :=
  (s.onTable w.connection fun t => ((), t.finish w.ticket)).2

/-- The caller of a call goes away. -/
def forget (w : Waiting) (s : Session) : Session :=
  (s.onTable w.connection fun t => ((), t.forget w.ticket)).2

/-- The moment at which a call that waits will be late. -/
def deadline? (s : Session) (w : Waiting) : Option Nat :=
  s.connections[w.connection]?.bind fun c => c.generation.table.deadline? w.ticket

/-- The result of the method that was called, from what came of the call. -/
def resultOf (s : Session) (id : FacadeId) (o : Pending.Outcome) : Except CallError Json :=
  o.bind fun r =>
    match s.facade? id with
    | some f => f.result r
    | none => .error (.payload .unreadable)

/-! ### Whether a connection lives -/

/-- A ping was answered if its result is a text. -/
def isPong (r : Except CallError Json) : Bool :=
  match CallError.typed String r with
  | .ok _ => true
  | .error _ => false

/-- What asking whether the connection lives gives. -/
inductive Probe where
  | answered (alive : Bool)
  /-- A ping was sent, whose answer decides. -/
  | asked (w : Waiting)
  deriving DecidableEq, Repr

/-- Asks whether the connection lives. Without the command service an active connection counts
as alive. -/
def probe (s : Session) : Probe × Session :=
  if !s.isTransportActive then (.answered false, s)
  else
    match s.client.command.bind s.facade? with
    | none => (.answered true, s)
    | some f =>
      match s.invoke f "ping" [] with
      | (.ok (some w), s) => (.asked w, s)
      | (.ok none, s) => (.answered (isPong (.ok .null)), s)
      | (.error _, s) => (.answered false, s)

/-- The answer that the outcome of a ping gives. -/
def isAlive (s : Session) (o : Pending.Outcome) : Bool :=
  match s.client.command with
  | some id => isPong (s.resultOf id o)
  | none => false

/-! ### Callers -/

/-- Someone begins to wait, or has an answer at once; its place in the order of callers. -/
def addCaller (purpose : Purpose) (stage : CallerStage) (s : Session) : Nat × Session :=
  (s.callers.length, { s with callers := s.callers ++ [⟨purpose, stage⟩] })

/-- Someone calls a method through a façade. -/
def call (id : FacadeId) (method : String) (args : List Json) (s : Session) : Nat × Session :=
  match s.facade? id with
  | none =>
    s.addCaller (.result id) (.ended s.now (.result (.error (.unknownMethod "" method))))
  | some f =>
    match s.invoke f method args with
    | (.error e, s) => s.addCaller (.result id) (.ended s.now (.result (.error e)))
    | (.ok none, s) => s.addCaller (.result id) (.ended s.now (.result (.ok .null)))
    | (.ok (some w), s) => s.addCaller (.result id) (.waiting w)

/-- Someone asks whether the connection lives. -/
def askLiveness (s : Session) : Nat × Session :=
  match s.probe with
  | (.answered alive, s) => s.addCaller .liveness (.ended s.now (.liveness alive))
  | (.asked w, s) => s.addCaller .liveness (.waiting w)

/-- Someone waits for the response to a registered call. -/
def awaitResponse (w : Waiting) (s : Session) : Nat × Session :=
  s.addCaller .response (.waiting w)

/-- The answer that the outcome of its call gives to a caller. -/
def answerOf (s : Session) (p : Purpose) (o : Pending.Outcome) : Answer :=
  match p with
  | .result id => .result (s.resultOf id o)
  | .liveness => .liveness (s.isAlive o)
  | .response => .response o

/-- A caller takes the answer if there is one. -/
def resume (k : Nat) (s : Session) : Session :=
  match s.callers[k]? with
  | none => s
  | some c =>
    match c.waiting? with
    | none => s
    | some w =>
      match s.outcome? w with
      | none => s
      | some o =>
        let ended := CallerStage.ended s.now (s.answerOf c.purpose o)
        let s := s.finish w
        ({ s with callers := s.callers.set k { c with stage := ended } }).releaseUnheld

/-- A caller goes away. -/
def abort (k : Nat) (s : Session) : Session :=
  match s.callers[k]? with
  | none => s
  | some c =>
    match c.waiting? with
    | none => s
    | some w =>
      let s := s.forget w
      ({ s with callers := s.callers.set k { c with stage := .gone } }).releaseUnheld

end RemoteCall.Session
