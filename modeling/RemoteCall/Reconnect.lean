import RemoteCall.Config
import RemoteCall.Connection

/-!
# When a lost connection is made again

A plan says how often a connection is looked at. A task follows one plan: it rests up to its next tick, and
during a tick it may wait for the answer to a ping. A tick that comes late moves all later ones.
-/

namespace RemoteCall

/-- How often a connection is looked at, and whether the owner wants to hear of a new one. -/
structure ReconnectPlan where
  intervalMs : Nat := 20000
  logEvents : Bool := true
  callback : Bool := false
  deriving DecidableEq, Repr

namespace ReconnectPlan

/-- The plan in words of configuration text. -/
def ofSettings (r : ReconnectSettings) : ReconnectPlan :=
  { intervalMs := r.intervalSecs.toNat * 1000, logEvents := r.logEvents }

/-- A plan in words. -/
def text (p : ReconnectPlan) : String :=
  s!"ReconnectConfig \x7b interval: {Duration.text p.intervalMs}, log_events: {p.logEvents}, on_success: {p.callback} \x7d"

/-- Whether a plan that begins at a moment can be followed: its interval is some time, and its
first tick is within the range of the clock. -/
def isFollowable (now : Nat) (p : ReconnectPlan) : Bool :=
  0 < p.intervalMs ∧ now + p.intervalMs < Connection.clockEnd

end ReconnectPlan

/-- A call on its way: the connection, by its place in their order, and its ticket there. -/
structure Waiting where
  connection : Nat
  ticket : Pending.Ticket
  deriving DecidableEq, Repr

/-- What a task that follows a plan is doing. -/
inductive TaskStage where
  /-- It rests up to its next tick. -/
  | resting
  /-- It is in a tick and waits for the answer to a ping. -/
  | probing (w : Waiting)
  /-- It has ended. -/
  | over
  deriving DecidableEq, Repr

/-- A task that follows a plan. -/
structure ReconnectTask where
  plan : ReconnectPlan
  /-- The moment of the next tick. -/
  next : Nat
  /-- Whether it ends instead of ticking again. -/
  cancelled : Bool := false
  stage : TaskStage := .resting
  deriving DecidableEq, Repr

namespace ReconnectTask

/-- By how many milliseconds a tick may be late without moving later ones. -/
def tolerance : Nat := 5

/-- A task that begins at a moment. A plan that cannot be followed ends it at once. -/
def start (now : Nat) (plan : ReconnectPlan) : ReconnectTask :=
  if plan.isFollowable now then { plan, next := now + plan.intervalMs }
  else { plan, next := now, stage := .over }

/-- A task that takes the tick that is due at a moment. -/
def takeTick (now : Nat) (t : ReconnectTask) : ReconnectTask :=
  { t with next := (if t.next + tolerance < now then now else t.next) + t.plan.intervalMs }

/-- Ends a task before its next tick. -/
def cancel (t : ReconnectTask) : ReconnectTask := { t with cancelled := true }

/-- Whether a task is inside a tick. -/
def isProbing (t : ReconnectTask) : Bool := t.stage matches .probing _

theorem next_le_takeTick (now : Nat) (t : ReconnectTask) :
    t.next + t.plan.intervalMs ≤ (t.takeTick now).next := by
  unfold takeTick
  split <;> simp only <;> omega

end ReconnectTask

/-- What a tick came to. -/
inductive TickOutcome where
  | healthy
  | reconnected
  | failed
  deriving DecidableEq, Repr

end RemoteCall
