import RemoteCall.Session.Call

/-!
# Ticks

At each tick a task asks whether the connection lives. If it does not, the connection is released
and one attempt is made to make another.
-/

namespace RemoteCall.Session

/-- Changes a task. -/
def modifyTask (j : Nat) (f : ReconnectTask → ReconnectTask) (s : Session) : Session :=
  s.onClient fun c => { c with tasks := c.tasks.modify j f }

/-- What a tick does once it is known whether the connection lives. -/
def conclude (callback : Bool) (alive : Bool) (s : Session) : TickOutcome × Session :=
  if alive then (.healthy, s)
  else
    match s.disconnect.connect with
    | (true, s) =>
      (.reconnected, s.onClient fun c =>
        if callback then { c with callbacks := c.callbacks + 1 } else c)
    | (false, s) => (.failed, s)

/-- The end of a tick: the task rests again, and lets go of the client. -/
def endTick (j : Nat) (t : ReconnectTask) (alive : Bool) (s : Session) : Session :=
  ((s.conclude t.plan.callback alive).2.modifyTask j
    fun t => { t with stage := .resting }).releaseUnheld

/-- A tick begins. -/
def beginTick (j : Nat) (t : ReconnectTask) (s : Session) : Session :=
  let s := s.modifyTask j (ReconnectTask.takeTick s.now)
  match s.probe with
  | (.answered alive, s) => s.endTick j t alive
  | (.asked w, s) => s.modifyTask j fun t => { t with stage := .probing w }

/-- A task goes on as far as it can. Whether it was cancelled is looked at only between
ticks. -/
def runTask (j : Nat) (s : Session) : Session :=
  match s.client.tasks[j]? with
  | none => s
  | some t =>
    match t.stage with
    | .over => s
    | .probing w =>
      match s.outcome? w with
      | none => s
      | some o =>
        let alive := s.isAlive o
        (s.finish w).endTick j t alive
    | .resting =>
      if t.cancelled then s.modifyTask j fun t => { t with stage := .over }
      else if s.now < t.next then s
      else if s.client.released then s.modifyTask j fun t => { t with stage := .over }
      else s.beginTick j t

end RemoteCall.Session
