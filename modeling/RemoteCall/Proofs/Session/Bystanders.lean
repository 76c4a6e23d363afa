import RemoteCall.Proofs.Session.Frames

/-!
# Callers who wait for nothing

A caller who has ended stays in the order of callers, and that is all. So a session with one more of them goes on as it
does without, but that the callers after it stand one place further on.

* `withCaller`: a session with one more caller.
* `Action.without`: what an action is to the session without that caller.
* `perform_withCaller` and `run_withCaller`: steps and runs with and without it agree.
-/

namespace RemoteCall

namespace Session

section Defs

/-- One more caller, in front of those from a place on. -/
def withCaller (n : Nat) (x : Caller) (s : Session) : Session := { s with callers := s.callers.insertIdx n x }

/-- Where the caller at a place stands if the one at place `n` is not there. -/
def placeWithout (n k : Nat) : Option Nat := if k < n then some k else if k = n then none else some (k - 1)

/-- What an action is if the caller at place `n` is not there. What is the matter of that caller is nothing. -/
def Action.without (n : Nat) : Action → Option Action
  | .abort k => (placeWithout n k).map .abort
  | .turn (.caller k) => (placeWithout n k).map fun k => .turn (.caller k)
  | a => some a

end Defs

variable {s : Session} {n k : Nat} {x c : Caller}

/-! ## Places -/

section Places

variable {α : Type} {l : List α} {a b : α}

theorem any_insertIdx {p : α → Bool} (ha : p a = false) (n : Nat) (l : List α) : (l.insertIdx n a).any p = l.any p := by
  by_cases hn : n ≤ l.length
  · rw [Bool.eq_iff_iff, List.any_eq_true, List.any_eq_true]
    simp [List.mem_insertIdx hn, ha]
  · rw [List.insertIdx_of_length_lt (Nat.lt_of_not_le hn)]

theorem insertIdx_concat (hn : n ≤ l.length) : l.insertIdx n a ++ [b] = (l ++ [b]).insertIdx n a := by
  apply List.ext_getElem?
  grind

/-- At each place but the new one stands what stood there without it. -/
theorem getElem?_insertIdx_of_placeWithout {j : Nat} (hj : placeWithout n k = some j) : (l.insertIdx n a)[k]? = l[j]? := by
  unfold placeWithout at hj
  grind

theorem set_insertIdx_of_placeWithout {j : Nat} (hn : n ≤ l.length) (hj : placeWithout n k = some j) :
    (l.insertIdx n a).set k b = (l.set j b).insertIdx n a := by
  apply List.ext_getElem?
  unfold placeWithout at hj
  grind

end Places

/-! ## Functions that read no callers -/

section Fields

variable (n : Nat) (x : Caller) (s : Session)

theorem connections_withCaller : (s.withCaller n x).connections = s.connections := rfl

theorem client_withCaller : (s.withCaller n x).client = s.client := rfl

theorem channel_withCaller : (s.withCaller n x).channel = s.channel := rfl

theorem facade?_withCaller : (s.withCaller n x).facade? = s.facade? := rfl

theorem isTransportActive_withCaller : (s.withCaller n x).isTransportActive = s.isTransportActive := rfl

theorem outcome?_withCaller : (s.withCaller n x).outcome? = s.outcome? := rfl

end Fields

theorem onConnection_withCaller {α : Type} (i : Nat) (f : Connection → α × Connection) (n : Nat) (x : Caller)
    (s : Session) : (s.withCaller n x).onConnection i f =
      ((s.onConnection i f).1, (s.onConnection i f).2.withCaller n x) := by
  rw [onConnection, onConnection, connections_withCaller]
  cases s.connections[i]? <;> rfl

theorem finish_withCaller (w : Waiting) (n : Nat) (x : Caller) (s : Session) :
    (s.withCaller n x).finish w = (s.finish w).withCaller n x :=
  congrArg Prod.snd (onConnection_withCaller _ _ n x s)

theorem teardownInstalled_withCaller (n : Nat) (x : Caller) (s : Session) :
    (s.withCaller n x).teardownInstalled = s.teardownInstalled.withCaller n x := by
  rw [teardownInstalled, teardownInstalled, client_withCaller]
  cases s.client.installed <;> rfl

theorem disconnect_withCaller (n : Nat) (x : Caller) (s : Session) :
    (s.withCaller n x).disconnect = s.disconnect.withCaller n x := by
  rw [disconnect, disconnect, teardownInstalled_withCaller]
  rfl

theorem connect_withCaller (n : Nat) (x : Caller) (s : Session) :
    (s.withCaller n x).connect = (s.connect.1, s.connect.2.withCaller n x) := by
  cases hr : s.client.connector.refusal with
  | some cause =>
    have hr' : (s.withCaller n x).client.connector.refusal = some cause := hr
    rw [connect_of_refusal hr, connect_of_refusal hr']
    rfl
  | none =>
    have hr' : (s.withCaller n x).client.connector.refusal = none := hr
    rw [connect_of_accepted hr, connect_of_accepted hr', teardownInstalled_withCaller]
    rfl

theorem start_withCaller (n : Nat) (x : Caller) (s : Session) :
    (s.withCaller n x).start.2 = s.start.2.withCaller n x := by
  unfold start
  simp only [connect_withCaller, client_withCaller]
  cases s.connect.2.client.config.autoReconnect <;> rfl

theorem stop_withCaller (n : Nat) (x : Caller) (s : Session) : (s.withCaller n x).stop = s.stop.withCaller n x :=
  disconnect_withCaller n x (s.onClient cancelTask)

theorem release_withCaller (n : Nat) (x : Caller) (s : Session) :
    (s.withCaller n x).release = s.release.withCaller n x := by
  rw [release, release, client_withCaller]
  cases s.client.installed <;> rfl

theorem conclude_withCaller (callback alive : Bool) (n : Nat) (s : Session) :
    ((s.withCaller n x).conclude callback alive).2 = (s.conclude callback alive).2.withCaller n x := by
  cases alive with
  | true => rfl
  | false =>
    unfold conclude
    simp only [disconnect_withCaller, connect_withCaller]
    rcases s.disconnect.connect with ⟨_ | _, s'⟩ <;> rfl

/-! ## Calls -/

theorem invoke_withCaller (f : Facade) (method : String) (args : List Json) (n : Nat) (x : Caller) (s : Session) :
    (s.withCaller n x).invoke f method args =
      ((s.invoke f method args).1, (s.invoke f method args).2.withCaller n x) := by
  unfold invoke
  cases f.outgoing method args with
  | error e => rfl
  | ok o =>
    simp only [channel_withCaller]
    cases s.channel with
    | error e => rfl
    | ok i =>
      simp only [onConnection_withCaller, show (s.withCaller n x).now = s.now from rfl]
      rcases s.onConnection i (Connection.send s.now o) with ⟨(_ | (e | ticket)), s'⟩ <;> rfl

theorem probe_withCaller (n : Nat) (x : Caller) (s : Session) :
    (s.withCaller n x).probe = (s.probe.1, s.probe.2.withCaller n x) := by
  rw [probe, probe, isTransportActive_withCaller, client_withCaller, facade?_withCaller]
  cases s.isTransportActive with
  | false => rfl
  | true =>
    cases s.client.command.bind s.facade? with
    | none => rfl
    | some f =>
      simp only [invoke_withCaller]
      rcases s.invoke f "ping" [] with ⟨(e | (_ | w)), s'⟩ <;> rfl

/-- A new caller comes last, with and without the other one. -/
theorem addCaller_withCaller (hn : n ≤ s.callers.length) (purpose : Purpose) (stage : CallerStage) :
    ((s.withCaller n x).addCaller purpose stage).2 = (s.addCaller purpose stage).2.withCaller n x := by
  simp only [addCaller, withCaller, insertIdx_concat hn]

theorem call_withCaller (hn : n ≤ s.callers.length) (id : FacadeId) (method : String) (args : List Json) :
    ((s.withCaller n x).call id method args).2 = (s.call id method args).2.withCaller n x := by
  rw [call, call, facade?_withCaller]
  cases s.facade? id with
  | none => exact addCaller_withCaller hn _ _
  | some f =>
    have hn' : n ≤ (s.invoke f method args).2.callers.length := by rwa [(apart_invoke f method args s).callers]
    simp only [invoke_withCaller]
    generalize s.invoke f method args = p at hn'
    rcases p with ⟨e | (_ | w), s'⟩ <;> exact addCaller_withCaller hn' _ _

theorem askLiveness_withCaller (hn : n ≤ s.callers.length) :
    (s.withCaller n x).askLiveness.2 = s.askLiveness.2.withCaller n x := by
  have hn' : n ≤ s.probe.2.callers.length := by rwa [(apart_probe s).callers]
  simp only [askLiveness, probe_withCaller]
  generalize s.probe = p at hn'
  rcases p with ⟨alive | w, s'⟩ <;> exact addCaller_withCaller hn' _ _

/-! ## The order of callers -/

theorem getElem?_withCaller_self (hn : n ≤ s.callers.length) : (s.withCaller n x).callers[n]? = some x := by
  rw [withCaller, List.getElem?_insertIdx_self, if_pos hn]

/-- The one caller at the new place, or another. -/
theorem place_cases (n k : Nat) : k = n ∧ placeWithout n k = none ∨ ∃ j, placeWithout n k = some j := by
  unfold placeWithout
  grind

theorem length_resume (k : Nat) (s : Session) : (s.resume k).callers.length = s.callers.length := by
  cases hc : s.callers[k]? with
  | none => rw [resume, hc]
  | some c =>
    cases hw : c.waiting? with
    | none => rw [resume_of_not_waiting hc hw]
    | some w =>
      cases ho : s.outcome? w with
      | none => rw [resume_of_no_outcome hc hw ho]
      | some o => rw [resume_of_outcome hc hw ho, (apart_releaseUnheld _).callers, List.length_set]

theorem length_abort (k : Nat) (s : Session) : (s.abort k).callers.length = s.callers.length := by
  unfold abort
  split
  · rfl
  · split
    · rfl
    · dsimp only
      rw [forget_eq, (apart_releaseUnheld _).callers, List.length_set]
      rfl

/-- No one is ever taken out of the order of callers. -/
theorem length_callers_perform (a : Action) (s : Session) : s.callers.length ≤ (s.perform a).callers.length := by
  by_contra hlt
  rw [Nat.not_le] at hlt
  obtain ⟨c, hc⟩ : ∃ c, s.callers[(s.perform a).callers.length]? = some c := ⟨_, List.getElem?_eq_getElem hlt⟩
  have hown : a.caller? = some (s.perform a).callers.length := by
    by_contra hne
    exact absurd (callers_perform hc hne) (by simp)
  have hsame : (s.perform a).callers.length = s.callers.length := by
    cases a with
    | abort k => exact length_abort k s
    | turn t =>
      cases t with
      | caller k => exact length_resume k s
      | _ => cases hown
    | _ => cases hown
  omega

/-! ## What one who has ended holds -/

section Idle

variable (hx : x.waiting? = none)

include hx

theorem isLive_withCaller (n : Nat) (s : Session) : (s.withCaller n x).isLive = s.isLive := by
  have hnone : x.facade? = none := by
    unfold Caller.facade?
    unfold Caller.waiting? at hx
    grind
  funext id
  simp only [isLive, withCaller]
  rw [any_insertIdx (by rw [hnone]; rfl)]

theorem isHeld_withCaller (n : Nat) (s : Session) : (s.withCaller n x).isHeld = s.isHeld := by
  have hnone : x.holdsClient = false := by
    unfold Caller.holdsClient
    unfold Caller.waiting? at hx
    grind
  simp only [isHeld, withCaller]
  rw [any_insertIdx hnone]

theorem releaseUnheld_withCaller (n : Nat) (s : Session) :
    (s.withCaller n x).releaseUnheld = s.releaseUnheld.withCaller n x := by
  rw [releaseUnheld, releaseUnheld, isHeld_withCaller hx, release_withCaller, client_withCaller]
  split <;> rfl

theorem newFacade_withCaller (r : FacadeRequest) (n : Nat) (s : Session) :
    (s.withCaller n x).newFacade r = ((s.newFacade r).1, (s.newFacade r).2.withCaller n x) := by
  have hobtain (reusable : Facade → Bool) : (s.withCaller n x).obtain r reusable =
      ((s.obtain r reusable).1, (s.obtain r reusable).2.withCaller n x) := by
    rw [obtain, obtain, client_withCaller, isLive_withCaller hx, facade?_withCaller]
    rcases s.client.registry.getOrCreate s.isLive r.service _ _ with ⟨_ | _, registry⟩ <;> rfl
  unfold newFacade
  rw [hobtain]

theorem commandFacade_withCaller (n : Nat) (s : Session) :
    (s.withCaller n x).commandFacade = (s.commandFacade.1, s.commandFacade.2.withCaller n x) := by
  rw [commandFacade, commandFacade, client_withCaller]
  cases s.client.command with
  | some id => rfl
  | none => simp only [newInstance, newFacade_withCaller hx]; rfl

theorem dataFacade_withCaller (n : Nat) (s : Session) :
    (s.withCaller n x).dataFacade = (s.dataFacade.1, s.dataFacade.2.withCaller n x) := by
  rw [dataFacade, dataFacade, client_withCaller]
  cases s.client.data with
  | some id => rfl
  | none => simp only [newInstance, newFacade_withCaller hx]; rfl

/-! ## Ticks -/

theorem endTick_withCaller (j : Nat) (t : ReconnectTask) (alive : Bool) (n : Nat) (s : Session) :
    (s.withCaller n x).endTick j t alive = (s.endTick j t alive).withCaller n x := by
  rw [endTick, endTick, conclude_withCaller, ← releaseUnheld_withCaller hx]
  rfl

theorem runTask_withCaller (j n : Nat) (s : Session) :
    (s.withCaller n x).runTask j = (s.runTask j).withCaller n x := by
  have hbegin (t : ReconnectTask) : (s.withCaller n x).beginTick j t = (s.beginTick j t).withCaller n x := by
    have htake : (s.withCaller n x).modifyTask j (ReconnectTask.takeTick (s.withCaller n x).now) =
        (s.modifyTask j (ReconnectTask.takeTick s.now)).withCaller n x := rfl
    rw [beginTick_eq, beginTick_eq, htake, probe_withCaller]
    generalize (s.modifyTask j (ReconnectTask.takeTick s.now)).probe = p
    rcases p with ⟨alive | w, s'⟩
    · exact endTick_withCaller hx j t alive n s'
    · rfl
  rw [runTask, runTask, client_withCaller]
  cases s.client.tasks[j]? with
  | none => rfl
  | some t =>
    dsimp only
    cases t.stage with
    | probing w =>
      dsimp only
      rw [outcome?_withCaller]
      cases s.outcome? w with
      | none => rfl
      | some o =>
        dsimp only
        rw [finish_withCaller]
        exact endTick_withCaller hx j t (s.isAlive o) n (s.finish w)
    | resting =>
      dsimp only
      rw [hbegin]
      show (if _ then _ else if s.now < t.next then _ else _) = _
      split
      · rfl
      · split
        · rfl
        · split <;> rfl
    | _ => rfl

/-! ## Callers who go on or go away -/

/-- A caller leaves its place, with and without the other one. -/
theorem leaveCaller_withCaller (hn : n ≤ s.callers.length) {j : Nat} (hj : placeWithout n k = some j) (c : Caller) :
    ({ s.withCaller n x with callers := (s.withCaller n x).callers.set k c } : Session).releaseUnheld =
      ({ s with callers := s.callers.set j c } : Session).releaseUnheld.withCaller n x := by
  rw [← releaseUnheld_withCaller hx]
  simp only [withCaller, set_insertIdx_of_placeWithout hn hj]

theorem resume_withCaller (hn : n ≤ s.callers.length) (k : Nat) :
    (s.withCaller n x).resume k = ((placeWithout n k).elim s fun j => s.resume j).withCaller n x := by
  rcases place_cases n k with ⟨rfl, hnone⟩ | ⟨j, hj⟩
  · rw [hnone]
    exact resume_of_not_waiting (getElem?_withCaller_self hn) hx
  · have hget : (s.withCaller n x).callers[k]? = s.callers[j]? := getElem?_insertIdx_of_placeWithout hj
    rw [hj, Option.elim_some]
    cases hc : s.callers[j]? with
    | none => rw [resume, resume, hget, hc]
    | some c =>
      rw [hc] at hget
      cases hw : c.waiting? with
      | none => rw [resume_of_not_waiting hc hw, resume_of_not_waiting hget hw]
      | some w =>
        cases ho : s.outcome? w with
        | none => rw [resume_of_no_outcome hc hw ho, resume_of_no_outcome hget hw ho]
        | some o =>
          rw [resume_of_outcome hc hw ho, resume_of_outcome hget hw ho, finish_eq, finish_eq]
          exact leaveCaller_withCaller (s := s.modify w.connection _) hx hn hj _

theorem abort_withCaller (hn : n ≤ s.callers.length) (k : Nat) :
    (s.withCaller n x).abort k = ((placeWithout n k).elim s fun j => s.abort j).withCaller n x := by
  rcases place_cases n k with ⟨rfl, hnone⟩ | ⟨j, hj⟩
  · rw [hnone, abort, getElem?_withCaller_self hn]
    simp only [hx]
    rfl
  · have hget : (s.withCaller n x).callers[k]? = s.callers[j]? := getElem?_insertIdx_of_placeWithout hj
    rw [hj, Option.elim_some, abort, abort, hget]
    cases s.callers[j]? with
    | none => rfl
    | some c =>
      dsimp only
      cases c.waiting? with
      | none => rfl
      | some w =>
        dsimp only
        rw [forget_eq, forget_eq]
        exact leaveCaller_withCaller (s := s.modify w.connection _) hx hn hj _

/-! ## Steps and runs -/

/-- A step with one more caller, who waits for nothing, is the step without it. -/
theorem perform_withCaller (hn : n ≤ s.callers.length) (a : Action) :
    (s.withCaller n x).perform a = ((a.without n).elim s fun b => s.perform b).withCaller n x := by
  cases a with
  | connect => exact congrArg Prod.snd (connect_withCaller n x s)
  | start => exact start_withCaller n x s
  | stop => exact stop_withCaller n x s
  | dropClient => exact releaseUnheld_withCaller hx n (s.onClient fun c => { c with owned := false })
  | enableReconnect plan => rfl
  | refuse refuse => rfl
  | newFacade r name =>
    show ((s.withCaller n x).newFacade r).2.hold name ((s.withCaller n x).newFacade r).1 = _
    rw [newFacade_withCaller hx]
    rfl
  | commandFacade => exact congrArg Prod.snd (commandFacade_withCaller hx n s)
  | dataFacade => exact congrArg Prod.snd (dataFacade_withCaller hx n s)
  | letGo name => rfl
  | call id method args => exact call_withCaller hn id method args
  | askLiveness => exact askLiveness_withCaller hn
  | abort k =>
    refine (abort_withCaller hx hn k).trans ?_
    rw [Action.without, Option.elim_map]
    rfl
  | peer i act => rfl
  | pass ms => rfl
  | turn turn =>
    cases turn with
    | dispatcher i => rfl
    | server i =>
      show (s.withCaller n x).serve i = (s.serve i).withCaller n x
      rw [serve, serve, show (s.withCaller n x).handlers = s.handlers from rfl]
      cases s.handlers.lookup i <;> rfl
    | caller k =>
      refine (resume_withCaller hx hn k).trans ?_
      rw [Action.without, Option.elim_map]
      rfl
    | task j => exact runTask_withCaller hx j n s

end Idle

/-- A run with one more caller, who waits for nothing, is the run without it. -/
theorem run_withCaller (hx : x.waiting? = none) (hn : n ≤ s.callers.length) (actions : List Action) :
    (s.withCaller n x).run actions = (s.run (actions.filterMap (Action.without n))).withCaller n x := by
  induction actions generalizing s with
  | nil => rfl
  | cons a actions ih =>
    rw [run_cons, perform_withCaller hx hn, List.filterMap_cons]
    cases a.without n with
    | none => exact ih hn
    | some b => exact ih (hn.trans (length_callers_perform b s))

end Session

end RemoteCall
