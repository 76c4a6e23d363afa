import RemoteCall.Proofs.Session.Frames
import RemoteCall.Proofs.Session.Requests

/-!
# Refused attempts disturb nothing

An attempt to connect that is refused leaves a note: the phase of the client and the count of attempts. No function of a
session reads either to decide anything. So a run with more refused attempts goes as it does without them, but for
these notes.

* `noting`: a session with other notes.
* `Alike`: sessions that differ at most in their notes. Every step keeps it, and a refused attempt does as well.
* `Interspersed`: a run in which refused attempts were put between the steps of another.
* `Matches`: what can be seen of two sessions is the same.
* `refused_attempts_disturb_nothing`: runs with and without refused attempts match at all moments.
-/

namespace RemoteCall

/-- A client that notes something else of its attempts to connect. -/
def Client.noting (phase : Option Phase) (attempts : Nat) (c : Client) : Client :=
  { c with phase, connector := { c.connector with attempts } }

namespace Session

section Defs

/-- A session in which something else is noted of the attempts to connect. -/
def noting (phase : Option Phase) (attempts : Nat) (s : Session) : Session := s.onClient (Client.noting phase attempts)

/-- Two sessions differ at most in what is noted of the attempts to connect. -/
def Alike (s t : Session) : Prop := ∃ phase attempts, t = s.noting phase attempts

/-- In a run there are some attempts to connect more than in another, all of them refused. The connector refuses at that
time anyway, or it refuses this one attempt. -/
inductive Interspersed : List Action → List Action → Session → Prop
  | done (t : Session) : Interspersed [] [] t
  | step {actions extended : List Action} {t : Session} (a : Action)
    (h : Interspersed actions extended (t.perform a)) : Interspersed (a :: actions) (a :: extended) t
  | refused {actions extended : List Action} {t : Session} (hr : t.accepts = false)
    (h : Interspersed actions extended (t.perform .connect)) : Interspersed actions (.connect :: extended) t
  | refusedOnce {actions extended : List Action} {t : Session} (hr : t.accepts = true)
    (h : Interspersed actions extended (t.run [.refuse true, .connect, .refuse false])) :
    Interspersed actions (.refuse true :: .connect :: .refuse false :: extended) t

/-- What two sessions do and show is the same, but for the phase, and the count of attempts. -/
structure Matches (s t : Session) : Prop where
  rest : t = s.noting t.client.phase t.client.connector.attempts
  /-- Those who called wait for the same, or had the same answer at the same moment. -/
  callers : t.callers = s.callers
  /-- Also the links, the generations with their ids and numbers, and the calls that wait. -/
  connections : t.connections = s.connections
  installed : t.client.installed = s.client.installed
  channel : t.channel = s.channel
  invoke : ∀ f method args, (t.invoke f method args).1 = (s.invoke f method args).1
  probe : t.probe.1 = s.probe.1
  connect : t.connect.1 = s.connect.1 ∧ t.connect.2.connections = s.connect.2.connections
  isReady : t.isReady = s.isReady
  timers : t.timers = s.timers

end Defs

variable {s t : Session} {phase : Option Phase} {attempts : Nat} {a : Action} {actions extended : List Action}

/-! ## Functions that read no note -/

section Fields

variable (phase : Option Phase) (attempts : Nat) (s : Session)

theorem connections_noting : (s.noting phase attempts).connections = s.connections := rfl

theorem callers_noting : (s.noting phase attempts).callers = s.callers := rfl

theorem handlers_noting : (s.noting phase attempts).handlers = s.handlers := rfl

theorem now_noting : (s.noting phase attempts).now = s.now := rfl

theorem installed_noting : (s.noting phase attempts).client.installed = s.client.installed := rfl

theorem facades_noting : (s.noting phase attempts).client.facades = s.client.facades := rfl

theorem registry_noting : (s.noting phase attempts).client.registry = s.client.registry := rfl

theorem command_noting : (s.noting phase attempts).client.command = s.client.command := rfl

theorem data_noting : (s.noting phase attempts).client.data = s.client.data := rfl

theorem tasks_noting : (s.noting phase attempts).client.tasks = s.client.tasks := rfl

theorem isLive_noting : (s.noting phase attempts).isLive = s.isLive := rfl

theorem facade?_noting : (s.noting phase attempts).facade? = s.facade? := rfl

theorem channel_noting : (s.noting phase attempts).channel = s.channel := rfl

theorem isTransportActive_noting : (s.noting phase attempts).isTransportActive = s.isTransportActive := rfl

theorem outcome?_noting : (s.noting phase attempts).outcome? = s.outcome? := rfl

end Fields

theorem onClient_noting {f : Client → Client}
    (hf : ∀ c : Client, f (c.noting phase attempts) = (f c).noting phase attempts) (s : Session) :
    (s.noting phase attempts).onClient f = (s.onClient f).noting phase attempts := by
  show { s with client := f (s.client.noting phase attempts) } = _
  rw [hf]
  rfl

theorem onConnection_noting {α : Type} (i : Nat) (f : Connection → α × Connection) (s : Session) :
    (s.noting phase attempts).onConnection i f =
      ((s.onConnection i f).1, (s.onConnection i f).2.noting phase attempts) := by
  rw [onConnection, onConnection, connections_noting]
  cases s.connections[i]? <;> rfl

theorem finish_noting (w : Waiting) (s : Session) :
    (s.noting phase attempts).finish w = (s.finish w).noting phase attempts :=
  congrArg Prod.snd (onConnection_noting _ _ s)

theorem forget_noting (w : Waiting) (s : Session) :
    (s.noting phase attempts).forget w = (s.forget w).noting phase attempts :=
  congrArg Prod.snd (onConnection_noting _ _ s)

theorem teardownInstalled_noting (s : Session) :
    (s.noting phase attempts).teardownInstalled = s.teardownInstalled.noting phase attempts := by
  rw [teardownInstalled, teardownInstalled, installed_noting]
  cases s.client.installed <;> rfl

theorem releaseUnheld_noting (s : Session) :
    (s.noting phase attempts).releaseUnheld = s.releaseUnheld.noting phase attempts := by
  have hrelease : (s.noting phase attempts).release = s.release.noting phase attempts := by
    rw [release, release, installed_noting]
    cases s.client.installed <;> rfl
  show (if s.isHeld || s.client.released then s.noting phase attempts else (s.noting phase attempts).release) = _
  unfold releaseUnheld
  rw [hrelease]
  split <;> rfl

theorem newFacade_noting (r : FacadeRequest) (s : Session) : (s.noting phase attempts).newFacade r =
    ((s.newFacade r).1, (s.newFacade r).2.noting phase attempts) := by
  have hobtain (reusable : Facade → Bool) : (s.noting phase attempts).obtain r reusable =
      ((s.obtain r reusable).1, (s.obtain r reusable).2.noting phase attempts) := by
    rw [obtain, obtain, registry_noting, isLive_noting, facade?_noting, facades_noting]
    rcases s.client.registry.getOrCreate s.isLive r.service _ _ with ⟨_ | _, registry⟩ <;> rfl
  unfold newFacade
  rw [hobtain]

theorem commandFacade_noting (s : Session) : (s.noting phase attempts).commandFacade =
    (s.commandFacade.1, s.commandFacade.2.noting phase attempts) := by
  rw [commandFacade, commandFacade, command_noting]
  cases s.client.command with
  | some id => rfl
  | none => simp only [newInstance, newFacade_noting]; rfl

theorem dataFacade_noting (s : Session) : (s.noting phase attempts).dataFacade =
    (s.dataFacade.1, s.dataFacade.2.noting phase attempts) := by
  rw [dataFacade, dataFacade, data_noting]
  cases s.client.data with
  | some id => rfl
  | none => simp only [newInstance, newFacade_noting]; rfl

/-! ## Calls -/

theorem invoke_noting (f : Facade) (method : String) (args : List Json) (s : Session) :
    (s.noting phase attempts).invoke f method args =
      ((s.invoke f method args).1, (s.invoke f method args).2.noting phase attempts) := by
  unfold invoke
  cases f.outgoing method args with
  | error e => rfl
  | ok o =>
    simp only [channel_noting]
    cases s.channel with
    | error e => rfl
    | ok i =>
      simp only [onConnection_noting, now_noting]
      rcases s.onConnection i (Connection.send s.now o) with ⟨(_ | (e | ticket)), s'⟩ <;> rfl

theorem probe_noting (s : Session) :
    (s.noting phase attempts).probe = (s.probe.1, s.probe.2.noting phase attempts) := by
  rw [probe, probe, isTransportActive_noting, command_noting, facade?_noting]
  cases s.isTransportActive with
  | false => rfl
  | true =>
    cases s.client.command.bind s.facade? with
    | none => rfl
    | some f =>
      simp only [invoke_noting]
      rcases s.invoke f "ping" [] with ⟨(e | (_ | w)), s'⟩ <;> rfl

theorem call_noting (id : FacadeId) (method : String) (args : List Json) (s : Session) :
    (s.noting phase attempts).call id method args =
      ((s.call id method args).1, (s.call id method args).2.noting phase attempts) := by
  rw [call, call, facade?_noting]
  cases s.facade? id with
  | none => rfl
  | some f =>
    simp only [invoke_noting]
    rcases s.invoke f method args with ⟨(e | (_ | w)), s'⟩ <;> rfl

theorem askLiveness_noting (s : Session) : (s.noting phase attempts).askLiveness =
    (s.askLiveness.1, s.askLiveness.2.noting phase attempts) := by
  unfold askLiveness
  rw [probe_noting]
  rcases s.probe with ⟨alive | w, s'⟩ <;> rfl

theorem resume_noting (k : Nat) (s : Session) :
    (s.noting phase attempts).resume k = (s.resume k).noting phase attempts := by
  cases hk : s.callers[k]? with
  | none =>
    have hk' : (s.noting phase attempts).callers[k]? = none := hk
    rw [resume, resume, hk, hk']
  | some c =>
    have hk' : (s.noting phase attempts).callers[k]? = some c := hk
    cases hw : c.waiting? with
    | none => rw [resume_of_not_waiting hk hw, resume_of_not_waiting hk' hw]
    | some w =>
      cases ho : s.outcome? w with
      | none => rw [resume_of_no_outcome hk hw ho, resume_of_no_outcome hk' hw ho]
      | some o =>
        have ho' : (s.noting phase attempts).outcome? w = some o := ho
        rw [resume_of_outcome hk hw ho, resume_of_outcome hk' hw ho', finish_noting]
        exact releaseUnheld_noting { s.finish w with
          callers := s.callers.set k { c with stage := .ended s.now (s.answerOf c.purpose o) } }

theorem abort_noting (k : Nat) (s : Session) :
    (s.noting phase attempts).abort k = (s.abort k).noting phase attempts := by
  rw [abort, abort, callers_noting]
  cases s.callers[k]? with
  | none => rfl
  | some c =>
    dsimp only
    cases c.waiting? with
    | none => rfl
    | some w =>
      dsimp only
      rw [forget_noting]
      exact releaseUnheld_noting { s.forget w with
        callers := (s.forget w).callers.set k { c with stage := .gone } }

/-! ## Attempts to connect -/

theorem Alike.refl (s : Session) : s.Alike s := ⟨s.client.phase, s.client.connector.attempts, rfl⟩

/-- What comes of an attempt does not depend on what is noted of those before. -/
theorem Alike.connect (h : s.Alike t) : t.connect.1 = s.connect.1 ∧ s.connect.2.Alike t.connect.2 := by
  obtain ⟨phase, attempts, rfl⟩ := h
  cases hr : s.client.connector.refusal with
  | some cause =>
    have hr' : (s.noting phase attempts).client.connector.refusal = some cause := hr
    rw [connect_of_refusal hr, connect_of_refusal hr']
    exact ⟨rfl, some .down, attempts + 1, rfl⟩
  | none =>
    have hr' : (s.noting phase attempts).client.connector.refusal = none := hr
    rw [connect_of_accepted hr, connect_of_accepted hr', teardownInstalled_noting]
    exact ⟨rfl, some .up, attempts + 1, rfl⟩

/-- An attempt that is refused leaves nothing but a note. -/
theorem Alike.refused (h : s.Alike t) (hr : t.accepts = false) : s.Alike t.connect.2 := by
  obtain ⟨phase, attempts, rfl⟩ := h
  obtain ⟨cause, hcause⟩ := Option.isSome_iff_exists.mp (Option.isNone_eq_false_iff.mp hr)
  have hsame : s.client.connector.refusal = some cause := hcause
  rw [connect_of_refusal hcause]
  refine ⟨some .down, attempts + 1, ?_⟩
  simp only [noting, Client.noting, onClient, hsame]

/-- A connector that refuses one attempt leaves nothing but a note of it. -/
theorem Alike.refusedOnce (h : s.Alike t) (hr : t.accepts = true) :
    s.Alike (t.run [.refuse true, .connect, .refuse false]) := by
  obtain ⟨phase, attempts, rfl⟩ := h
  have hsame : s.client.connector.refusal = none := Option.isNone_iff_eq_none.mp hr
  have hcause : ((s.noting phase attempts).perform (.refuse true)).client.connector.refusal =
      some Memory.Connector.refusedInMemory := rfl
  refine ⟨some .down, attempts + 1, ?_⟩
  show (((s.noting phase attempts).perform (.refuse true)).connect.2.perform (.refuse false)) = _
  rw [connect_of_refusal hcause]
  simp [noting, Client.noting, perform, onClient, Memory.Connector.setRefuse, hsame]

/-- The one function that looks at a note, to note something else. -/
theorem Alike.disconnect (h : s.Alike t) : s.disconnect.Alike t.disconnect := by
  obtain ⟨phase, attempts, rfl⟩ := h
  refine ⟨if phase = some .up then some .down else phase, attempts, ?_⟩
  unfold Session.disconnect
  rw [teardownInstalled_noting]
  rfl

theorem Alike.onClient {f : Client → Client} (h : s.Alike t) (hf : ∀ (c : Client) (phase : Option Phase)
    (attempts : Nat), f (c.noting phase attempts) = (f c).noting phase attempts) :
    (s.onClient f).Alike (t.onClient f) := by
  obtain ⟨phase, attempts, rfl⟩ := h
  exact ⟨phase, attempts, onClient_noting (fun c => hf c phase attempts) s⟩

theorem Alike.enableReconnect (h : s.Alike t) (plan : ReconnectPlan) :
    (s.enableReconnect plan).Alike (t.enableReconnect plan) := by
  obtain ⟨phase, attempts, rfl⟩ := h
  exact ⟨phase, attempts, rfl⟩

theorem Alike.releaseUnheld (h : s.Alike t) : s.releaseUnheld.Alike t.releaseUnheld := by
  obtain ⟨phase, attempts, rfl⟩ := h
  exact ⟨phase, attempts, releaseUnheld_noting s⟩

theorem Alike.modifyTask (h : s.Alike t) (j : Nat) (f : ReconnectTask → ReconnectTask) :
    (s.modifyTask j f).Alike (t.modifyTask j f) :=
  h.onClient fun _ _ _ => rfl

/-! ## Ticks -/

theorem Alike.conclude (h : s.Alike t) (callback alive : Bool) :
    (s.conclude callback alive).2.Alike (t.conclude callback alive).2 := by
  cases alive with
  | true => exact h
  | false =>
    have hconnect := h.disconnect.connect
    unfold Session.conclude
    generalize s.disconnect.connect = x at hconnect
    generalize t.disconnect.connect = y at hconnect
    obtain ⟨accepted, s'⟩ := x
    obtain ⟨accepted', t'⟩ := y
    obtain ⟨rfl, halike⟩ : accepted' = accepted ∧ s'.Alike t' := hconnect
    cases accepted' with
    | false => exact halike
    | true =>
      cases callback with
      | false => exact halike
      | true => exact halike.onClient (f := fun c => { c with callbacks := c.callbacks + 1 }) fun _ _ _ => rfl

theorem Alike.endTick (h : s.Alike t) (j : Nat) (task : ReconnectTask) (alive : Bool) :
    (s.endTick j task alive).Alike (t.endTick j task alive) :=
  ((h.conclude task.plan.callback alive).modifyTask j _).releaseUnheld

theorem Alike.beginTick (h : s.Alike t) (j : Nat) (task : ReconnectTask) :
    (s.beginTick j task).Alike (t.beginTick j task) := by
  obtain ⟨phase, attempts, rfl⟩ := h
  have htick : (s.noting phase attempts).modifyTask j (ReconnectTask.takeTick s.now) =
      (s.modifyTask j (ReconnectTask.takeTick s.now)).noting phase attempts := rfl
  rw [beginTick_eq, beginTick_eq, show (s.noting phase attempts).now = s.now from rfl, htick, probe_noting]
  generalize (s.modifyTask j (ReconnectTask.takeTick s.now)).probe = x
  obtain ⟨alive | w, s'⟩ := x
  · exact Alike.endTick ⟨phase, attempts, rfl⟩ j task alive
  · exact Alike.modifyTask ⟨phase, attempts, rfl⟩ j _

theorem Alike.runTask (h : s.Alike t) (j : Nat) : (s.runTask j).Alike (t.runTask j) := by
  obtain ⟨phase, attempts, rfl⟩ := h
  have hsame : s.Alike (s.noting phase attempts) := ⟨phase, attempts, rfl⟩
  rw [runTask, runTask, tasks_noting]
  cases s.client.tasks[j]? with
  | none => exact hsame
  | some task =>
    dsimp only
    cases task.stage with
    | probing w =>
      dsimp only
      rw [outcome?_noting]
      cases s.outcome? w with
      | none => exact hsame
      | some o =>
        dsimp only
        rw [finish_noting]
        exact Alike.endTick ⟨phase, attempts, rfl⟩ j task (s.isAlive o)
    | resting =>
      show (if task.cancelled then _ else if s.now < task.next then s else if s.client.released then _ else
        s.beginTick j task : Session).Alike (if task.cancelled then _ else if s.now < task.next then
          s.noting phase attempts else if s.client.released then _ else (s.noting phase attempts).beginTick j task)
      split
      · exact hsame.modifyTask j _
      · split
        · exact hsame
        · split
          · exact hsame.modifyTask j _
          · exact hsame.beginTick j task
    | _ => exact hsame

/-! ## Steps -/

theorem Alike.start (h : s.Alike t) : s.start.2.Alike t.start.2 := by
  have hconnect := h.connect.2
  have hconfig : t.connect.2.client.config = s.connect.2.client.config := by
    obtain ⟨phase, attempts, heq⟩ := hconnect
    rw [heq]
    rfl
  unfold Session.start
  dsimp only
  rw [hconfig]
  cases s.connect.2.client.config.autoReconnect with
  | none => exact hconnect
  | some settings => exact hconnect.enableReconnect _

theorem Alike.stop (h : s.Alike t) : s.stop.Alike t.stop := by
  rw [stop_eq, stop_eq]
  refine Alike.disconnect (h.onClient fun c phase attempts => ?_)
  have htask : (c.noting phase attempts).task = c.task := rfl
  rw [cancelTask, cancelTask, htask]
  cases c.task <;> rfl

/-- Every step leaves sessions alike that were alike. -/
theorem Alike.perform (h : s.Alike t) (a : Action) : (s.perform a).Alike (t.perform a) := by
  have hcommutes {f : Session → Session}
      (hf : ∀ (phase : Option Phase) (attempts : Nat), f (s.noting phase attempts) = (f s).noting phase attempts) :
      (f s).Alike (f t) := by
    obtain ⟨phase, attempts, rfl⟩ := h
    exact ⟨phase, attempts, hf phase attempts⟩
  cases a with
  | connect => exact h.connect.2
  | start => exact h.start
  | stop => exact h.stop
  | dropClient => exact (h.onClient (f := fun c => { c with owned := false }) fun _ _ _ => rfl).releaseUnheld
  | enableReconnect plan => exact h.enableReconnect plan
  | refuse refuse =>
    exact h.onClient (f := fun c => { c with connector := c.connector.setRefuse refuse }) fun _ _ _ => rfl
  | newFacade r name =>
    refine hcommutes (f := fun s => (s.newFacade r).2.hold name (s.newFacade r).1) fun phase attempts => ?_
    rw [newFacade_noting]
    rfl
  | commandFacade => exact hcommutes fun phase attempts => congrArg Prod.snd (commandFacade_noting s)
  | dataFacade => exact hcommutes fun phase attempts => congrArg Prod.snd (dataFacade_noting s)
  | letGo name => exact hcommutes fun _ _ => rfl
  | call id method args => exact hcommutes fun phase attempts => congrArg Prod.snd (call_noting id method args s)
  | askLiveness => exact hcommutes fun phase attempts => congrArg Prod.snd (askLiveness_noting s)
  | abort k => exact hcommutes fun phase attempts => abort_noting k s
  | peer i act => exact hcommutes fun _ _ => rfl
  | pass ms => exact hcommutes fun _ _ => rfl
  | turn turn =>
    cases turn with
    | dispatcher i => exact hcommutes fun _ _ => rfl
    | server i =>
      refine hcommutes (f := serve i) fun phase attempts => ?_
      rw [serve, serve, handlers_noting]
      cases s.handlers.lookup i <;> rfl
    | caller k => exact hcommutes fun phase attempts => resume_noting k s
    | task j => exact h.runTask j

/-! ## Runs -/

theorem Alike.matches (h : s.Alike t) : s.Matches t where
  rest := by
    obtain ⟨phase, attempts, rfl⟩ := h
    rfl
  callers := by
    obtain ⟨phase, attempts, rfl⟩ := h
    rfl
  connections := by
    obtain ⟨phase, attempts, rfl⟩ := h
    rfl
  installed := by
    obtain ⟨phase, attempts, rfl⟩ := h
    rfl
  channel := by
    obtain ⟨phase, attempts, rfl⟩ := h
    rfl
  invoke f method args := by
    obtain ⟨phase, attempts, rfl⟩ := h
    rw [invoke_noting]
  probe := by
    obtain ⟨phase, attempts, rfl⟩ := h
    rw [probe_noting]
  connect := by
    obtain ⟨hfirst, phase, attempts, hsecond⟩ := h.connect
    exact ⟨hfirst, by rw [hsecond]; rfl⟩
  isReady := by
    obtain ⟨phase, attempts, rfl⟩ := h
    rfl
  timers := by
    obtain ⟨phase, attempts, rfl⟩ := h
    rfl

/-- Runs with and without refused attempts leave sessions that are alike. -/
theorem Interspersed.alike (h : Interspersed actions extended t) (hs : s.Alike t) :
    (s.run actions).Alike (t.run extended) := by
  induction h generalizing s with
  | done t => exact hs
  | step a _ ih => exact ih (hs.perform a)
  | refused hr _ ih => exact ih (hs.refused hr)
  | refusedOnce hr _ ih => exact ih (hs.refusedOnce hr)

theorem taken?_of_alike (h : s.Alike t) (i : Nat) (a : Action) : t.taken? i a = s.taken? i a := by
  obtain ⟨phase, attempts, rfl⟩ := h
  rfl

/-- The far ends receive the same with and without refused attempts. -/
theorem Interspersed.received (h : Interspersed actions extended t) (hs : s.Alike t) (i : Nat) :
    received i extended t = received i actions s := by
  induction h generalizing s with
  | done t => rfl
  | step a _ ih =>
    rw [Session.received, Session.received, taken?_of_alike hs, ih (hs.perform a)]
  | refused hr _ ih => exact ih (hs.refused hr)
  | refusedOnce hr _ ih => exact ih (hs.refusedOnce hr)

/-- Up to each step of the one run there is a part of the other that goes as far. -/
theorem Interspersed.split {first rest : List Action} (h : Interspersed (first ++ rest) extended t) :
    ∃ first' rest', extended = first' ++ rest' ∧ Interspersed first first' t := by
  generalize hall : first ++ rest = actions at h
  induction h generalizing first with
  | done t =>
    obtain ⟨rfl, rfl⟩ := List.append_eq_nil_iff.mp hall
    exact ⟨[], [], rfl, .done t⟩
  | step a _ ih =>
    cases first with
    | nil => exact ⟨[], _, rfl, .done _⟩
    | cons b first =>
      obtain ⟨rfl, hrest⟩ := List.cons.inj hall
      obtain ⟨first', rest', rfl, h'⟩ := ih hrest
      exact ⟨b :: first', rest', rfl, .step b h'⟩
  | refused hr _ ih =>
    obtain ⟨first', rest', rfl, h'⟩ := ih hall
    exact ⟨.connect :: first', rest', rfl, .refused hr h'⟩
  | refusedOnce hr _ ih =>
    obtain ⟨first', rest', rfl, h'⟩ := ih hall
    exact ⟨.refuse true :: .connect :: .refuse false :: first', rest', rfl, .refusedOnce hr h'⟩

/-! ## Main statement -/

/-- **Refused attempts disturb nothing.** Take any run of a client, and put any number of attempts to connect between
its steps, all of which are refused. At each moment of the run, and at its end, what can be seen is the same: what those
who called got and when, what the far ends received, the connection in use and all connections with their generations,
and what comes of a call, of a question whether the connection lives and of an attempt to connect. Only the phase and
the count of attempts may differ. -/
theorem refused_attempts_disturb_nothing (config : Config) (codec : Codec) (actions extended : List Action)
    (h : Interspersed actions extended (ofConfig config codec)) :
    ((ofConfig config codec).run actions).Matches ((ofConfig config codec).run extended) ∧
    (∀ i, received i extended (ofConfig config codec) = received i actions (ofConfig config codec)) ∧
    ∀ first rest, actions = first ++ rest → ∃ first' rest', extended = first' ++ rest' ∧
      ((ofConfig config codec).run first).Matches ((ofConfig config codec).run first') ∧
      ∀ i, received i first' (ofConfig config codec) = received i first (ofConfig config codec) := by
  have hstart := Alike.refl (ofConfig config codec)
  refine ⟨(h.alike hstart).matches, h.received hstart, ?_⟩
  rintro first rest rfl
  obtain ⟨first', rest', hsplit, h'⟩ := h.split
  exact ⟨first', rest', hsplit, (h'.alike hstart).matches, h'.received hstart⟩

/-- A client that waits for the answer to a ping, with three refused attempts and without them. -/
theorem refused_attempts_beside_ping :
    let actions : List Action := [.connect, .commandFacade, .askLiveness, .refuse true, .pass 5]
    let extended : List Action := [.connect, .refuse true, .connect, .refuse false, .commandFacade, .askLiveness,
      .refuse true, .connect, .pass 5, .connect]
    ∃ s t, s = (ofConfig {}).run actions ∧ t = (ofConfig {}).run extended ∧
      Interspersed actions extended (ofConfig {}) ∧ s.Matches t ∧
      (s.client.phase = some .up ∧ s.client.connector.attempts = 1) ∧
      t.client.phase = some .down ∧ t.client.connector.attempts = 4 := by
  intro actions extended
  have h : Interspersed actions extended (ofConfig {}) :=
    .step .connect (.refusedOnce (by decide +kernel) (.step .commandFacade (.step .askLiveness (.step (.refuse true)
      (.refused (by decide +kernel) (.step (.pass 5) (.refused (by decide +kernel) (.done _))))))))
  exact ⟨_, _, rfl, rfl, h, (refused_attempts_disturb_nothing {} .json actions extended h).1, by decide +kernel,
    by decide +kernel⟩

end Session

end RemoteCall
