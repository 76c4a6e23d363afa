import RemoteCall.Proofs.Session.Endings
import RemoteCall.Proofs.Session.Ticks

/-!
# What a tick does to the client

A tick asks whether the connection lives. If it does nothing changes. If not, whatever the reason and whether there was a
connection or not, the tick releases what there is, ends all calls that wait there, and makes one attempt to connect.

* `Returns`: what a tick has made of the client when it is known whether the connection lives.
* `TickEnds`: the end of a tick as a step.
* `asked_cases`: a tick whose answer does not come at once has sent its ping over the connection in use.
* `tick_effect`: what a tick does to the client from its begin to its end.
-/

namespace RemoteCall.Session

open Pending (Call Table)

section Defs

/-- What a tick has made of the client when it returns. It began in `s`, and in `m` it is known whether the connection
lives. -/
structure Returns (callback alive : Bool) (s m : Session) (outcome : TickOutcome) (r : Session) : Prop where
  /-- It found the connection healthy just if it lives. -/
  healthy : outcome = .healthy ↔ alive = true
  /-- Then all is as it was. -/
  untouched : alive = true → s.Steady r ∧ r.client.callbacks = s.client.callbacks
  /-- Otherwise the connection in use was torn down first. -/
  closed : alive = false → ∀ i, s.client.installed = some i →
    m.disconnect.FinishedAt i ∧ m.disconnect.attempts = s.attempts ∧ r.FinishedAt i
  /-- And one attempt was made then. -/
  attempted : alive = false → r.attempts = s.attempts + 1
  /-- If it was accepted, a fresh connection with the next number is in use. -/
  reconnected : alive = false → m.accepts = true → outcome = .reconnected ∧ r.client.phase = some .up ∧
    r.client.installed = some s.connections.length ∧
    r.client.callbacks = s.client.callbacks + (if callback then 1 else 0) ∧
    ∃ c, r.connections[s.connections.length]? = some c ∧ c.Fresh s.connections.length ∧ c.link.active = true ∧
      c.running = true ∧ ∀ d, s.connections.getLast? = some d → c.generation.number = d.generation.number + 1
  /-- If it was refused there is none. -/
  refused : alive = false → m.accepts = false → outcome = .failed ∧ r.client.phase = some .down ∧
    r.client.installed = none ∧ r.client.callbacks = s.client.callbacks

/-- The end of a tick, in a step from `u`. The task rests when the tick has returned, and lets go of the client. -/
structure TickEnds (j : Nat) (callback alive : Bool) (s u m ended : Session) : Prop where
  returns : Returns callback alive s m (m.conclude callback alive).1 (m.conclude callback alive).2
  rests : ended = ((m.conclude callback alive).2.modifyTask j fun t => { t with stage := .resting }).releaseUnheld
  /-- If the connection does not live all calls that wait there have come to their end. -/
  calls : alive = false → ∀ i w, s.client.installed = some i → w ∈ u.waiters → w.connection = i →
    Settled w (.turn (.task j)) u ended

/-- A tick of a task has begun and waits for the answer to its ping. -/
structure Pings (j : Nat) (t : ReconnectTask) (w : Waiting) (s begun : Session) : Prop where
  task : begun.client.tasks[j]? = some { t.takeTick s.now with stage := .probing w }
  steady : s.Steady begun
  callbacks : begun.client.callbacks = s.client.callbacks
  /-- The time of the ping runs from the moment at which the tick began. -/
  call : ∃ id, begun.board.call? w = some (Table.newCall s.now id 5000)

end Defs

variable {s s' m u ended : Session} {i j : Nat} {c : Connection} {w : Waiting} {t : ReconnectTask} {a : Action}
  {actions : List Action} {E : List Event}

/-! ## When it is known whether the connection lives -/

theorem accepts_disconnect (s : Session) : s.disconnect.accepts = s.accepts := by
  unfold accepts
  rw [client_disconnect]

theorem fst_connect (s : Session) : s.connect.1 = s.accepts := by
  cases hr : s.client.connector.refusal with
  | some cause => rw [connect_of_refusal hr, accepts, hr]; rfl
  | none => rw [connect_of_accepted hr, accepts, hr]; rfl

theorem callbacks_connect (s : Session) : s.connect.2.client.callbacks = s.client.callbacks := by
  cases hr : s.client.connector.refusal with
  | some cause => rw [connect_of_refusal hr]; rfl
  | none => rw [connect_of_accepted hr]

/-- What a tick does that finds no life. -/
theorem conclude_dead (callback : Bool) (s : Session) :
    (s.conclude callback false).1 = (if s.accepts then .reconnected else .failed) ∧
      (s.conclude callback false).2 = s.disconnect.connect.2.onClient fun c =>
        { c with callbacks := s.client.callbacks + if s.accepts && callback then 1 else 0 } := by
  have hfst := fst_connect s.disconnect
  have hcallbacks : s.disconnect.connect.2.client.callbacks = s.client.callbacks := by
    rw [callbacks_connect, client_disconnect]
  rw [accepts_disconnect] at hfst
  unfold conclude
  rw [if_neg Bool.false_ne_true, ← hfst, ← hcallbacks]
  split
  · rename_i s' heq
    rw [heq]
    cases callback <;> exact ⟨rfl, rfl⟩
  · rename_i s' heq
    rw [heq]
    exact ⟨rfl, rfl⟩

/-- The connection that an accepted attempt puts into use. -/
theorem started_connect (h : s.accepts = true) : ∃ c, s.connect.2.connections[s.connections.length]? = some c ∧
    c.Fresh s.connections.length ∧ c.link.active = true ∧ c.running = true := by
  rw [accepts, Option.isNone_iff_eq_none] at h
  rw [connect_of_accepted h]
  refine ⟨.start s.now { addr := s.client.config.remoteAddr } (s.connections.length + 1) s.client.config.dispatcher, ?_,
    Connection.fresh_start _ _ _ _, rfl, rfl⟩
  have hlength := length_teardownInstalled s
  rw [List.getElem?_append_right (Nat.le_of_eq hlength), hlength, Nat.sub_self]
  rfl

/-- What a tick has made of a client that is as it was when the tick began. -/
theorem returns_conclude (hlived : Lived E s) (hsteady : s.Steady m)
    (hcallbacks : m.client.callbacks = s.client.callbacks)
    (hinside : ∀ i, s.client.installed = some i → i < s.connections.length) (callback alive : Bool) :
    Returns callback alive s m (m.conclude callback alive).1 (m.conclude callback alive).2 := by
  cases alive with
  | true => exact ⟨⟨fun _ => rfl, fun _ => rfl⟩, fun _ => ⟨hsteady, hcallbacks⟩, nofun, nofun, nofun, nofun⟩
  | false =>
    obtain ⟨houtcome, hr⟩ := conclude_dead callback m
    have hattempts : m.disconnect.attempts = s.attempts := (quiet_disconnect m).attempts.trans hsteady.attempts
    have hlength : m.disconnect.connections.length = s.connections.length :=
      (length_teardownInstalled m).trans hsteady.length
    obtain ⟨hinstalled, hphase⟩ := life_connect m.disconnect
    rw [accepts_disconnect] at hinstalled hphase
    rw [houtcome, hr]
    refine ⟨⟨fun h => ?_, nofun⟩, nofun, fun _ i hi => ?_, fun _ => ?_, fun _ ha => ?_, fun _ ha => ?_⟩
    · split at h <;> cases h
    · obtain ⟨c, hc⟩ : ∃ c, m.connections[i]? = some c :=
        ⟨_, List.getElem?_eq_getElem (hsteady.length ▸ hinside i hi)⟩
      have hdown := connections_teardownInstalled hc
      rw [if_pos (hsteady.installed.trans hi)] at hdown
      have hfinished : m.disconnect.FinishedAt i := ⟨_, hdown, c.finished_teardown⟩
      have hattempt : Course True m.disconnect [.attempt m.disconnect.accepts] m.disconnect.connect.2 := .attempt _
      have hlater : m.disconnect.connect.2.FinishedAt i := hfinished.course hattempt
      exact ⟨hfinished, hattempts, hlater⟩
    · exact (attempts_connect m.disconnect).trans (congrArg (· + 1) hattempts)
    · rw [ha, if_pos rfl] at hinstalled hphase
      obtain ⟨c, hc, hfresh, hactive, hrunning⟩ := started_connect ((accepts_disconnect m).trans ha)
      rw [hlength] at hinstalled hc hfresh
      refine ⟨by rw [ha]; rfl, hphase, hinstalled, ?_, c, hc, hfresh, hactive, hrunning, fun d hd => ?_⟩
      · rw [ha, ← hcallbacks]
        rfl
      · rw [List.getLast?_eq_getElem?] at hd
        have hnumber := hlived.number _ d hd
        have hlt := (List.getElem?_eq_some_iff.mp hd).1
        rw [hfresh.number, hnumber]
        omega
    · rw [ha, if_neg Bool.false_ne_true] at hinstalled hphase
      refine ⟨by rw [ha]; rfl, hphase, hinstalled.trans ?_, ?_⟩
      · rw [client_disconnect]
      · rw [ha, ← hcallbacks]
        rfl

theorem steady_modifyTask (j : Nat) (f : ReconnectTask → ReconnectTask) (s : Session) : s.Steady (s.modifyTask j f) :=
  steady_of_connections rfl rfl rfl rfl rfl

/-- The end of a tick as a step, if the client was as it was when the tick began. -/
theorem tickEnds_of_endTick (hs : u.board.Sound) (howned : u.Owned) (hlived : Lived E s) (hu : s.Steady u)
    (hsteady : s.Steady m) (hcallbacks : m.client.callbacks = s.client.callbacks) {alive : Bool}
    (hended : u.perform (.turn (.task j)) = m.endTick j t alive) :
    TickEnds j t.plan.callback alive s u m (u.perform (.turn (.task j))) := by
  have hinside (i : Nat) (hi : s.client.installed = some i) : i < s.connections.length := by
    rw [← hu.length]
    exact hs.inside i (hu.installed.trans hi)
  have hreturns := returns_conclude hlived hsteady hcallbacks hinside t.plan.callback alive
  refine ⟨hreturns, hended, fun hdead i w hi hw hwi => ?_⟩
  have hattempts : (u.perform (.turn (.task j))).attempts = u.attempts + 1 := by
    rw [hended, hu.attempts, ← hreturns.attempted hdead]
    exact (quiet_releaseUnheld _).attempts
  have hrelease : Event.release ∈ u.events (.turn (.task j)) := by
    simp only [events]
    rw [if_neg (by omega)]
    exact List.mem_cons_self
  exact settled_of_ends (.released (hu.installed.trans hi) hrelease) hs howned hw hwi

/-! ## While a tick waits for the answer to its ping -/

/-- A ping that is waited for was sent with the command service over the connection in use. -/
theorem asked_cases {codec : Codec} (heq : s.Equipped codec) (hr : s.client.released = false)
    (h : s.probe = (.asked w, m)) :
    ∃ o c, (Facade.make commandRequest codec).outgoing "ping" [] = .ok o ∧
      s.connections[w.connection]? = some c ∧ (c.send s.now o).1 = .ok (some w.ticket) ∧
      m = { s with connections := s.connections.set w.connection (c.send s.now o).2 } := by
  obtain ⟨f, hf, hinvoke⟩ := invoke_of_asked h
  obtain ⟨id, hcommand, hid⟩ := Option.bind_eq_some_iff.mp hf
  obtain rfl : f = .make commandRequest codec := Option.some.inj (hid.symm.trans (heq hr id hcommand))
  rcases invoke_cases (.make commandRequest codec) "ping" [] s with ⟨e, hfails⟩ | ⟨i, c, o, ho, -, hc, -, hsends⟩
  · cases hinvoke.symm.trans hfails
  · obtain ⟨hresult, rfl⟩ := Prod.mk.inj (hinvoke.symm.trans hsends)
    cases hsend : (c.send s.now o).1 with
    | error e => simp [hsend, Except.map] at hresult
    | ok ticket =>
      rw [hsend, Except.map, Except.ok.injEq] at hresult
      obtain ⟨n, rfl, rfl⟩ := Option.map_eq_some_iff.mp hresult.symm
      exact ⟨o, c, ho, hc, hsend, rfl⟩

/-- The call of a ping that is waited for. Its time runs from the moment at which it was sent. -/
theorem call?_of_asked {o : Outgoing} (hsend : (c.send s.now o).1 = .ok (some w.ticket))
    (hc : s.connections[w.connection]? = some c)
    (hm : m = { s with connections := s.connections.set w.connection (c.send s.now o).2 }) :
    m.board.call? w = some (Table.newCall s.now c.generation.nextId o.timeoutMs) := by
  subst hm
  obtain ⟨hcall, -⟩ := Connection.sent_of_ticket hsend
  exact Switchboard.call?_eq_some_iff.mpr ⟨_, Switchboard.getElem?_send (b := s.board) hc, hcall⟩

theorem pings_of_asked {codec : Codec} (heq : s.Equipped codec) (hdue : s.Due j t)
    (h : (s.modifyTask j (ReconnectTask.takeTick s.now)).probe = (.asked w, m)) :
    Pings j t w s (s.perform (.turn (.task j))) := by
  have hbegun := hdue.perform_of_asked h
  have hclient := tasks_probe (s.modifyTask j (ReconnectTask.takeTick s.now))
  have hsteady : s.Steady (s.modifyTask j (ReconnectTask.takeTick s.now)).probe.2 :=
    (steady_modifyTask j _ s).trans (asked_probe _).steady
  rw [h] at hclient hsteady
  replace hclient : m.client = (s.modifyTask j (ReconnectTask.takeTick s.now)).client := hclient
  obtain ⟨o, c, ho, hc, hsend, hm⟩ := asked_cases (s := s.modifyTask j (ReconnectTask.takeTick s.now)) heq hdue.held h
  have hcall := call?_of_asked hsend hc hm
  rw [timeoutMs_outgoing ho] at hcall
  rw [hbegun]
  refine ⟨task_modifyTask ?_ _, hsteady.trans (steady_modifyTask j _ m), ?_,
    c.generation.nextId, hcall⟩
  · rw [hclient]
    exact task_modifyTask hdue.task _
  · show m.client.callbacks = _
    rw [hclient]
    rfl

/-- A task is inside its tick in all steps but its own turns. -/
theorem Probes.perform_of_ne (h : s.Probes j w) (howned : s.Owned) (ha : a ≠ .turn (.task j)) :
    (s.perform a).Probes j w := by
  obtain ⟨t, ht, hstage⟩ := h
  obtain ⟨x, t', hmove, ht', hleft⟩ := task_perform howned ht a
  have hx : x.stage = .probing w := by
    cases hmove with
    | stays => exact hstage
    | begins hturn => exact absurd hturn ha
    | ends hturn => exact absurd hturn ha
    | retires hturn => exact absurd hturn ha
  refine ⟨t', ht', ?_⟩
  rcases hleft with rfl | ⟨rfl, -⟩ <;> exact hx

theorem Probes.held (h : (s.perform a).Probes j w) (hr : s.client.released = false) :
    (s.perform a).client.released = false := by
  obtain ⟨t, ht, hstage⟩ := h
  refine released_of_holds hr (Bool.or_eq_true_iff.mpr (.inr (List.any_eq_true.mpr ⟨t, List.mem_of_getElem? ht, ?_⟩)))
  rw [ReconnectTask.isProbing, hstage]

/-- In a step without attempts the owner hears of no new connection. -/
theorem callbacks_perform (ha : a ≠ .turn (.task j)) (he : s.events a = [])
    (hattempts : (s.perform a).attempts = s.attempts) : (s.perform a).client.callbacks = s.client.callbacks := by
  cases hends : a.endsTask s.client.config with
  | false => exact (spared_perform hends ha).callbacks hattempts
  | true =>
    cases a with
    | enableReconnect plan => rfl
    | start => cases he
    | stop => cases he
    | _ => cases hends

/-- The client is as it was when a tick began while nobody asks for a connection or releases one. -/
theorem steady_while_probing (howned : s.Owned) (hprobes : s.Probes j w) (hr : s.client.released = false)
    (hturn : .turn (.task j) ∉ actions) (hnone : history actions s = []) :
    (s.run actions).Probes j w ∧ s.Steady (s.run actions) ∧ (s.run actions).client.callbacks = s.client.callbacks := by
  induction actions generalizing s with
  | nil => exact ⟨hprobes, .refl s, rfl⟩
  | cons a actions ih =>
    rw [List.mem_cons, not_or] at hturn
    have ha : a ≠ .turn (.task j) := fun heq => hturn.1 heq.symm
    obtain ⟨hevents, hrest⟩ := List.append_eq_nil_iff.mp hnone
    have hprobes' := hprobes.perform_of_ne howned ha
    have hr' := hprobes'.held hr
    have hstep := steady_perform hevents hr'
    obtain ⟨hlast, hsteady, hcallbacks⟩ := ih (owned_perform howned a) hprobes' hr' hturn.2 hrest
    exact ⟨hlast, hstep.trans hsteady, hcallbacks.trans (callbacks_perform ha hevents hstep.attempts)⟩

/-- What becomes of a tick that waits for the answer to its ping. -/
theorem Pings.ends {begun : Session} (h : Pings j t w s begun) (hs : begun.board.Sound) (howned : begun.Owned)
    (hlived : Lived E s) (hr : s.client.released = false) {during : List Action} (hturn : .turn (.task j) ∉ during)
    (hnone : history during begun = []) :
    let u := begun.run during
    let ended := u.perform (.turn (.task j))
    u.Probes j w ∧ s.Steady u ∧ u.client.callbacks = s.client.callbacks ∧
      (u.outcome? w = none → u.now < s.now + 5000 ∧ ended = u) ∧
      ∀ o, u.outcome? w = some o → TickEnds j t.plan.callback (u.isAlive o) s u (u.finish w) ended := by
  intro u ended
  obtain ⟨hprobes, hrest, hcallbacks⟩ := steady_while_probing howned ⟨_, h.task, rfl⟩
    (h.steady.released.trans hr) hturn hnone
  have hsteady : s.Steady u := h.steady.trans hrest
  have hheard : u.client.callbacks = s.client.callbacks := hcallbacks.trans h.callbacks
  refine ⟨hprobes, hsteady, hheard, fun ho => ⟨?_, runTask_of_no_outcome hprobes ho⟩, fun o ho => ?_⟩
  · obtain ⟨id, hx⟩ := h.call
    obtain ⟨y, hy, hxy⟩ := call?_run hx during
    have htime := (open_of_outcome? hy ho).2
    rwa [hxy.deadline] at htime
  · obtain ⟨t', ht', hplan⟩ := plan_run howned h.task during
    obtain ⟨t'', ht'', hstage⟩ := hprobes
    rw [ht'] at ht''
    cases ht''
    have hfinish : s.Steady (u.finish w) := by
      rw [finish_eq]
      exact hsteady.trans (steady_modify (fun c => (c.carried_leave (.inl rfl)).onward) _ _)
    have hends := tickEnds_of_endTick (sound_run hs during) (owned_run howned during) hlived hsteady hfinish
      (by rw [finish_eq]; exact hheard) (perform_of_probing ht' hstage ho)
    rw [hplan] at hends
    exact hends

/-! ## Main statement -/

/-- **A tick replaces a connection just if it does not live.** It may know at once whether the connection lives, or waits
for the answer to a ping for five seconds at most. If meanwhile nobody else asks for a connection or releases one, it finds
the client as it was. -/
theorem tick_effect (config : Config) (codec : Codec) (before : List Action) (j : Nat) (t : ReconnectTask) :
    let s := (ofConfig config codec).run before
    let begun := s.perform (.turn (.task j))
    let asking := (s.modifyTask j (ReconnectTask.takeTick s.now)).probe
    s.Due j t →
    (∃ alive m, asking = (.answered alive, m) ∧ TickEnds j t.plan.callback alive s s m begun) ∨
      ∃ w m, asking = (.asked w, m) ∧ ∀ during, .turn (.task j) ∉ during → history during begun = [] →
        let u := begun.run during
        let ended := u.perform (.turn (.task j))
        u.Probes j w ∧ s.Steady u ∧ u.client.callbacks = s.client.callbacks ∧
          (u.outcome? w = none → u.now < s.now + 5000 ∧ ended = u) ∧
          ∀ o, u.outcome? w = some o → TickEnds j t.plan.callback (u.isAlive o) s u (u.finish w) ended := by
  intro s begun asking hdue
  have hs : s.board.Sound := sound_run (sound_ofConfig config codec) before
  have howned : s.Owned := owned_run (owned_ofConfig config codec) before
  have hlived := lived_run config codec before
  cases hasking : asking with
  | mk answer m =>
    cases answer with
    | answered alive =>
      have hbegun : begun = m.endTick j t alive := hdue.perform_of_answered hasking
      have hsteady : s.Steady asking.2 :=
        (steady_modifyTask j _ s).trans (asked_probe _).steady
      have hclient : asking.2.client = (s.modifyTask j (ReconnectTask.takeTick s.now)).client := tasks_probe _
      rw [hasking] at hsteady hclient
      have hcallbacks : m.client.callbacks = s.client.callbacks := by
        rw [show m.client = _ from hclient]
        rfl
      exact .inl ⟨alive, m, rfl, tickEnds_of_endTick hs howned hlived (.refl s) hsteady hcallbacks hbegun⟩
    | asked w =>
      have hpings := pings_of_asked (equipped_run config codec before) hdue hasking
      exact .inr ⟨w, m, rfl, fun during hturn hnone =>
        hpings.ends (sound_perform hs _) (owned_perform howned _) hlived hdue.held hturn hnone⟩

/-- The far end never answers the ping of a tick. When the ping is late the tick puts another connection in its place. -/
theorem half_open_connection_replaced :
    let plan : ReconnectPlan := { intervalMs := 1000, callback := true }
    let t : ReconnectTask := { plan, next := 1000 }
    let s := (ofConfig {}).run [.connect, .commandFacade, .enableReconnect plan, .pass 1000]
    let begun := s.perform (.turn (.task 0))
    let u := begun.run [.pass 5000]
    let ended := u.perform (.turn (.task 0))
    s.Due 0 t ∧ u.Probes 0 ⟨0, 0⟩ ∧ u.outcome? ⟨0, 0⟩ = some (.error (.callTimeout 0 5000)) ∧
      TickEnds 0 true false s u (u.finish ⟨0, 0⟩) ended ∧
      ended.client.installed = some 1 ∧ ended.attempts = 2 ∧ ended.client.callbacks = 1 := by
  intro plan t s begun u ended
  have hdue : s.Due 0 t := ⟨by decide +kernel, rfl, rfl, by decide +kernel, by decide +kernel⟩
  have hasking : (s.modifyTask 0 (ReconnectTask.takeTick s.now)).probe.1 = .asked ⟨0, 0⟩ := by decide +kernel
  have hout : u.outcome? ⟨0, 0⟩ = some (.error (.callTimeout 0 5000)) := by decide +kernel
  have hended : ended.client.installed = some 1 ∧ ended.attempts = 2 ∧ ended.client.callbacks = 1 := by decide +kernel
  rcases tick_effect {} .json _ 0 t hdue with ⟨alive, m, hanswered, -⟩ | ⟨w, m, hasked, hrest⟩
  · cases hasking.symm.trans (congrArg Prod.fst hanswered)
  · cases hasking.symm.trans (congrArg Prod.fst hasked)
    obtain ⟨hprobes, -, -, -, hends⟩ := hrest [.pass 5000] (by simp) rfl
    have hdead : u.isAlive (.error (.callTimeout 0 5000)) = false := isAlive_error _ u
    exact ⟨hdue, hprobes, hout, hdead ▸ hends _ hout, hended⟩

end RemoteCall.Session
