import RemoteCall.Proofs.Session.Lively

/-!
# Ticks and congestion

A link that is not writable is no sign of a dead connection, but a tick that begins then takes it for one, for its ping
is not even written. Once a ping is written it does not matter any more whether the link is writable.

* `not_congestionIsHarmless`: a tick replaces a connection whose far end is lively.
* `Pressed` and `Strayed`: the two occasions on which a tick does so.
* `probe_of_pressed` and `attempts_turn`: what a turn does on the first, and on neither.
* `tick_at_lively_connection`: when a tick replaces a connection whose far end is lively.
-/

namespace RemoteCall.Session

open Pending (Call Outcome)

section Defs

/-- A tick is due that cannot write its ping, because the link in use is not writable. -/
def Pressed (i j : Nat) (s : Session) : Prop :=
  ∃ t c, s.Due j t ∧ s.client.command.isSome = true ∧ s.connections[i]? = some c ∧ c.link.writable = false

/-- The ping of a tick went over another connection than the one in use, and failed. -/
def Strayed (i j : Nat) (s : Session) : Prop :=
  ∃ w o, s.Probes j w ∧ w.connection ≠ i ∧ s.outcome? w = some o ∧ s.isAlive o = false

/-- Nobody has attempted to connect. Unless the client was given up, a connection is in use, runs and is active, and the
calls that wait there are as they were. -/
structure Spares (i : Nat) (s ended : Session) : Prop where
  attempts : ended.attempts = s.attempts
  inUse : ended.client.released = false → ended.client.installed = some i ∧
    ∃ c, ended.connections[i]? = some c ∧ c.running = true ∧ c.link.active = true
  calls : ended.client.released = false → ∀ w ∈ s.waiters, w.connection = i → ended.outcome? w = s.outcome? w

/-- As long as its far end is lively no tick takes a connection out of use, and no call that waits there ends with it. -/
def CongestionIsHarmless : Prop :=
  ∀ (config : Config) (before : List Action) (i j : Nat),
    let s := (ofConfig config).run before
    let ended := s.perform (.turn (.task j))
    Lively i before (ofConfig config) → s.client.owned = true → s.client.command.isSome = true →
      s.client.installed = some i →
        ended.client.installed = some i ∧ ∀ w ∈ s.waiters, w.connection = i → s.outcome? w = none →
          ended.outcome? w ≠ some (.error .connectionClosed)

end Defs

variable {s m : Session} {i j : Nat} {c c' : Connection} {w : Waiting} {t : ReconnectTask}

/-- The far end makes the link not writable before a tick begins, and the tick replaces the connection. -/
theorem not_congestionIsHarmless : ¬ CongestionIsHarmless := by
  intro h
  have hlively : Lively 0 [.connect, .commandFacade, .enableReconnect { intervalMs := 1000 },
      .peer 0 (.setWritable false), .pass 1000] (ofConfig {}) :=
    ⟨livelyAt_of_absent rfl _, livelyAt_of_none rfl nofun, livelyAt_of_none rfl nofun, livelyAt_setWritable _ _ _,
      livelyAt_pass (by decide +kernel) _, trivial⟩
  have hended := (h {} _ 0 0 hlively (by decide +kernel) (by decide +kernel) (by decide +kernel)).1
  revert hended
  decide +kernel

/-! ## Turns -/

theorem attempts_endTick_alive (j : Nat) (t : ReconnectTask) (s : Session) :
    (s.endTick j t true).attempts = s.attempts :=
  (quiet_releaseUnheld _).attempts

/-- A tick that begins under congestion finds no life at once. -/
theorem probe_of_pressed (hdue : s.Due j t) (heq : s.Equipped .json) (hcommand : s.client.command.isSome = true)
    (hi : s.client.installed = some i) (hc : s.connections[i]? = some c) (hactive : c.link.active = true)
    (hwritable : c.link.writable = false) : (s.modifyTask j (ReconnectTask.takeTick s.now)).probe =
      (.answered false, s.modifyTask j (ReconnectTask.takeTick s.now)) := by
  generalize hbegun : s.modifyTask j (ReconnectTask.takeTick s.now) = m
  obtain ⟨id, hid⟩ := Option.isSome_iff_exists.mp hcommand
  have hcommands : m.Commands id := by
    subst hbegun
    exact ⟨hdue.held, hid, heq hdue.held id hid⟩
  have hinstalled : m.client.installed = some i := hbegun ▸ hi
  have hconnection : m.connections[i]? = some c := hbegun ▸ hc
  have hchannel : m.channel = .error (.connectFailure m.client.config.remoteAddr .notWritable) := by
    simp [channel, hcommands.released, hinstalled, hconnection, hactive, Memory.Link.isWritable, hwritable]
  rw [probe_of_command (isTransportActive_iff.mpr ⟨i, c, hinstalled, hconnection, hactive⟩) hcommands]
  simp only [invoke, outgoing_ping, hchannel]

/-- A tick that begins without congestion sends its ping, or needs none. -/
theorem probe_of_not_pressed (hdue : s.Due j t) (heq : s.Equipped .json) (hi : s.client.installed = some i)
    (hc : s.connections[i]? = some c) (hsturdy : Sturdy c)
    (hid : c.generation.table.holds c.generation.nextId = false) (hno : ¬ s.Pressed i j) :
    (s.modifyTask j (ReconnectTask.takeTick s.now)).probe.1 ≠ .answered false := by
  generalize hbegun : s.modifyTask j (ReconnectTask.takeTick s.now) = m
  have hinstalled : m.client.installed = some i := hbegun ▸ hi
  have hconnection : m.connections[i]? = some c := hbegun ▸ hc
  have hactive := isTransportActive_iff.mpr ⟨i, c, hinstalled, hconnection, hsturdy.active⟩
  cases hcommand : s.client.command with
  | none =>
    have hnone : m.client.command = none := hbegun ▸ hcommand
    simp [probe, hactive, hnone]
  | some id =>
    have hcommands : m.Commands id := by
      subst hbegun
      exact ⟨hdue.held, hcommand, heq hdue.held id hcommand⟩
    have hwritable : c.link.isWritable = true := by
      rw [Memory.Link.isWritable, hsturdy.active, Bool.true_and]
      by_contra hcongested
      exact hno ⟨t, c, hdue, by rw [hcommand]; rfl, hc, by simpa using hcongested⟩
    have hchannel := channel_eq_ok_iff.mpr
      ⟨hcommands.released, hinstalled, c, hconnection, hsturdy.active, hwritable⟩
    rw [probe_of_command hactive hcommands, invoke_ping hchannel hconnection, Connection.send_ping hid hsturdy.takes]
    intro hanswered
    cases hanswered

/-- The ping of a tick was answered with a sign of life, unless it went over another connection. -/
theorem isAlive_of_hale {o : Outcome} {id : FacadeId} (hale : Hale i c s) (hprobes : s.Probes j w)
    (ho : s.outcome? w = some o) (hcommands : s.Commands id) (hstrayed : ¬ s.Strayed i j) : s.isAlive o = true := by
  by_cases hw : w.connection = i
  · obtain ⟨x, hx, hvital | hunderway⟩ := hale.pings j w hprobes hw
    · obtain ⟨r, hr, hsign⟩ := hvital.outcome? s.now
      rw [outcome?_of_call hx, hr] at ho
      cases ho
      rw [hcommands.isAlive]
      exact (isPong_iff _).mpr ⟨r, rfl, hsign⟩
    · rw [outcome?_of_call hx, hunderway.outcome?] at ho
      cases ho
  · by_contra hdead
    exact hstrayed ⟨w, o, hprobes, hw, ho, Bool.eq_false_iff.mpr hdead⟩

/-- A turn without congestion and stray pings makes no attempt. -/
theorem attempts_turn (heq : s.Equipped .json) (hcommands : ∀ w, s.Probes j w → ∃ id, s.Commands id)
    (hi : s.client.installed = some i) (hc : s.connections[i]? = some c) (hale : Hale i c s)
    (hid : c.generation.table.holds c.generation.nextId = false) (hpressed : ¬ s.Pressed i j)
    (hstrayed : ¬ s.Strayed i j) : (s.perform (.turn (.task j))).attempts = s.attempts := by
  have hturn := taskTurn j s
  show (s.runTask j).attempts = s.attempts
  generalize s.runTask j = s' at hturn ⊢
  cases hturn with
  | idle => rfl
  | @ends t w o ht hstage ho =>
    have hprobes : s.Probes j w := ⟨t, ht, hstage⟩
    obtain ⟨id, hservice⟩ := hcommands w hprobes
    rw [isAlive_of_hale hale hprobes ho hservice hstrayed, attempts_endTick_alive, finish_eq]
    rfl
  | @begins t hdue =>
    have hprobe := probe_of_not_pressed hdue heq hi hc hale.toSturdy hid hpressed
    have hsame := (asked_probe (s.modifyTask j (ReconnectTask.takeTick s.now))).steady.attempts
    rw [beginTick_eq]
    generalize (s.modifyTask j (ReconnectTask.takeTick s.now)).probe = p at hprobe hsame
    obtain ⟨answer, m⟩ := p
    cases answer with
    | answered alive =>
      cases alive with
      | true => exact (attempts_endTick_alive j t m).trans hsame
      | false => exact absurd rfl hprobe
    | asked w => exact hsame
  | retires => rfl

/-- In its turn a task leaves the calls on a connection that stays in use as they were. -/
theorem outcome?_turn (hs : s.board.Sound) (howned : s.Owned) (hale : Hale i c s)
    (hc' : (s.perform (.turn (.task j))).connections[i]? = some c') (hrun : c'.running = true) (hw : w ∈ s.waiters)
    (hwi : w.connection = i) : (s.perform (.turn (.task j))).outcome? w = s.outcome? w := by
  obtain ⟨x, hx, -⟩ := hs.waited w hw
  have hnow : (s.perform (.turn (.task j))).now = s.now := (beside_perform (fun _ h => by cases h) s).now
  cases hopen : x.isOpen with
  | false =>
    obtain ⟨y, hy, hxy⟩ := call?_perform hx (.turn (.task j))
    rw [outcome?_of_call hx, outcome?_of_call hy]
    exact hxy.outcome? hopen _ _
  | true =>
    by_cases hown : s.Probes j w
    · -- its own ping is still underway
      obtain ⟨y, hy, hvital | hunderway⟩ := hale.pings j w hown hwi
      · obtain ⟨r, hr, -⟩ := hvital
        cases hx.symm.trans hy
        rw [Call.isOpen_iff.mp hopen] at hr
        cases hr
      · have hnone : s.outcome? w = none := by rw [outcome?_of_call hy, hunderway.outcome?]
        rw [show s.perform (.turn (.task j)) = s from runTask_of_no_outcome hown hnone]
    · have hstill : w ∈ (s.perform (.turn (.task j))).waiters := by
        rcases waiters_cases hw with ⟨k, hwaits⟩ | ⟨l, hprobes⟩
        · obtain ⟨caller, hcaller, hwait⟩ := Option.bind_eq_some_iff.mp hwaits
          refine mem_waiters (k := k) ?_
          rw [waitsFor?, callers_perform hcaller fun h => by cases h]
          exact hwait
        · refine (hprobes.perform_of_ne howned ?_).mem_waiters
          rintro heq
          cases heq
          exact hown hprobes
      rcases dispatch_or_step (.turn (.task j)) s with ⟨l, heq⟩ | ⟨-, hstep⟩
      · cases heq
      · obtain ⟨y, hy, hxy, ⟨hexit, -⟩ | ⟨-, hhalted⟩⟩ := hstep.fate hs hstill hx hopen
        · rw [outcome?_of_call hx, outcome?_of_call hy, Call.outcome?_of_open hopen,
            Call.outcome?_of_open (Call.isOpen_iff.mpr hexit), hxy.deadline, hxy.timedOut, hnow]
        · rw [hwi, Switchboard.isRunning_of_getElem? (b := (s.perform _).board) hc', hrun] at hhalted
          cases hhalted

/-! ## Main statement -/

/-- **When a tick replaces a connection whose far end is lively.** It does so if it begins while the link is not writable,
and if its ping went over an earlier connection and failed. The connection is torn down then, all calls that wait there
end with it, and one attempt is made to connect. No other turn of a task touches the connection or the calls there: once a
ping is written it is on its way without time passing until it is answered with a sign of life, whether the link stays
writable or not. -/
theorem tick_at_lively_connection (config : Config) (before : List Action) (i j : Nat) :
    let s := (ofConfig config).run before
    let ended := s.perform (.turn (.task j))
    Lively i before (ofConfig config) → handedOut i before (ofConfig config) < 2 ^ 32 →
    s.client.installed = some i →
    (s.Pressed i j ∨ s.Strayed i j → ∃ t m, s.client.tasks[j]? = some t ∧
      TickEnds j t.plan.callback false s s m ended) ∧
    (¬ (s.Pressed i j ∨ s.Strayed i j) → s.Spares i ended) ∧
    ∀ w, s.Probes j w → w.connection = i → ∃ c x, s.connections[i]? = some c ∧ s.board.call? w = some x ∧
      (Vital x ∨ Underway s.now c.link x) := by
  intro s ended hlively hids hi
  have hs : s.board.Sound := sound_run (sound_ofConfig config .json) before
  have howned : s.Owned := owned_run (owned_ofConfig config .json) before
  have heq : s.Equipped .json := equipped_run config .json before
  have hn := counted_run (counted_ofConfig i config .json) before (by simpa using hids)
  have hthrives : s.Thrives i := thrives_run config hlively hids
  obtain ⟨c, hc⟩ : ∃ c, s.connections[i]? = some c := ⟨_, List.getElem?_eq_getElem (hs.inside i hi)⟩
  have hale := hthrives c hi hc
  have hlived := lived_run config .json before
  refine ⟨?_, fun hno => ?_, fun w hprobes hw => ?_⟩
  · rintro (⟨t, d, hdue, hcommand, hd, hwritable⟩ | ⟨w, o, ⟨t, ht, hstage⟩, -, ho, hdead⟩)
    · cases hc.symm.trans hd
      have hprobe := probe_of_pressed hdue heq hcommand hi hc hale.active hwritable
      have hended : ended = (s.modifyTask j (ReconnectTask.takeTick s.now)).endTick j t false :=
        hdue.perform_of_answered hprobe
      exact ⟨t, _, hdue.task, tickEnds_of_endTick hs howned hlived (.refl s) (steady_modifyTask j _ s) rfl hended⟩
    · have hended : ended = (s.finish w).endTick j t false := hdead ▸ perform_of_probing ht hstage ho
      have hfinish : s.Steady (s.finish w) := by
        rw [finish_eq]
        exact steady_modify (fun c => (c.carried_leave (.inl rfl)).onward) _ _
      exact ⟨t, _, ht, tickEnds_of_endTick hs howned hlived (.refl s) hfinish (by rw [finish_eq]; rfl) hended⟩
  · obtain ⟨hpressed, hstrayed⟩ := not_or.mp hno
    have hattempts := attempts_turn heq (fun w hprobes => commands_of_probes config before hprobes) hi hc hale
      (free_of_counted hn hc) hpressed hstrayed
    have hsteady (hr : ended.client.released = false) : s.Steady ended := steady_perform (if_pos hattempts) hr
    have hinUse (hr : ended.client.released = false) : ended.client.installed = some i ∧
        ∃ c', ended.connections[i]? = some c' ∧ c'.running = true ∧ c'.link.active = true := by
      have hi' : ended.client.installed = some i := (hsteady hr).installed.trans hi
      obtain ⟨c', hc', -⟩ := (hsteady hr).onward i c hc
      refine ⟨hi', c', hc', ?_⟩
      rcases inUse_perform hi' hc' with ⟨d, -, hd, hgoes⟩ | ⟨hnone, -⟩
      · cases hc.symm.trans hd
        cases hgoes with
        | acted act hp => cases hp
        | turned hturn => cases hturn
        | kept written hr hlink => exact ⟨hr.trans hale.running, by rw [hlink]; exact hale.active⟩
      · cases hc.symm.trans hnone
    refine ⟨hattempts, hinUse, fun hr w hw hwi => ?_⟩
    obtain ⟨-, c', hc', hrun, -⟩ := hinUse hr
    exact outcome?_turn hs howned hale hc' hrun hw hwi
  · obtain ⟨x, hx⟩ := hale.pings j w hprobes hw
    exact ⟨c, x, hc, hx⟩

/-- The far end makes the link not writable after a ping was written and answers it, and the connection stays in use. It
does so before a ping is written, and the connection is replaced. -/
theorem congestion_after_and_before_ping :
    let handler : Memory.Link.Handler := fun q => some (.success q.id [34, 34])
    let opening : List Action := [.connect, .commandFacade, .enableReconnect { intervalMs := 1000 }]
    let after : List Action := opening ++ [.pass 1000, .turn (.task 0), .peer 0 (.setWritable false),
      .peer 0 (.serve handler), .turn (.dispatcher 0)]
    let before : List Action := opening ++ [.peer 0 (.setWritable false), .pass 1000]
    let s := (ofConfig {}).run after
    let t := (ofConfig {}).run before
    (Lively 0 after (ofConfig {}) ∧ Lively 0 before (ofConfig {}) ∧ handedOut 0 after (ofConfig {}) < 2 ^ 32 ∧
      handedOut 0 before (ofConfig {}) < 2 ^ 32 ∧ s.client.installed = some 0 ∧ t.client.installed = some 0) ∧
      s.Spares 0 (s.perform (.turn (.task 0))) ∧
      t.Pressed 0 0 ∧ ∃ m, TickEnds 0 false false t t m (t.perform (.turn (.task 0))) := by
  intro handler opening after before s t
  have hserve : LivelyAt 0 (.peer 0 (.serve handler)) ((ofConfig {}).run (opening ++ [.pass 1000, .turn (.task 0),
      .peer 0 (.setWritable false)])) := by
    refine livelyAt_peer fun c hc => ?_
    generalize hs : (ofConfig {}).run _ = s at hc
    have hlink : s.connections[0]?.map (fun c => (c.link.readerHeld, c.link.outbound, c.generation.nextId)) =
        some (true, [.request (pingCall.request 0)], 1) := by
      subst hs
      decide +kernel
    rw [hc, Option.map_some, Option.some.injEq, Prod.mk.injEq, Prod.mk.injEq] at hlink
    obtain ⟨hreader, hout, hid⟩ := hlink
    refine actsLively_serve (fun q => ⟨_, rfl, rfl, rfl, "", by rfl⟩) hreader (fun q hq => ?_) 0 s
    rw [hout, List.mem_singleton] at hq
    cases hq
    rw [hid]
    decide
  have hafter : Lively 0 after (ofConfig {}) :=
    ⟨livelyAt_of_absent rfl _, livelyAt_of_none rfl nofun, livelyAt_of_none rfl nofun,
      livelyAt_pass (by decide +kernel) _, livelyAt_of_none rfl nofun, livelyAt_setWritable _ _ _, hserve,
      livelyAt_of_none rfl nofun, trivial⟩
  have hbefore : Lively 0 before (ofConfig {}) :=
    ⟨livelyAt_of_absent rfl _, livelyAt_of_none rfl nofun, livelyAt_of_none rfl nofun, livelyAt_setWritable _ _ _,
      livelyAt_pass (by decide +kernel) _, trivial⟩
  have hids : handedOut 0 after (ofConfig {}) < 2 ^ 32 := Nat.lt_of_le_of_lt (handedOut_le 0 after _) (by decide)
  have hids' : handedOut 0 before (ofConfig {}) < 2 ^ 32 := Nat.lt_of_le_of_lt (handedOut_le 0 before _) (by decide)
  have hi : s.client.installed = some 0 := by decide +kernel
  have hi' : t.client.installed = some 0 := by decide +kernel
  have hprobes : s.Probes 0 ⟨0, 0⟩ := ⟨_, rfl, by decide +kernel⟩
  have hnot : ¬ (s.Pressed 0 0 ∨ s.Strayed 0 0) := by
    obtain ⟨task, htask, hstage⟩ : s.Probes 0 ⟨0, 0⟩ := ⟨_, rfl, by decide +kernel⟩
    rintro (⟨task', c, hdue, -⟩ | ⟨w, o, ⟨task', htask', hstage'⟩, hw, -⟩)
    · cases htask.symm.trans hdue.task
      cases hstage.symm.trans hdue.resting
    · cases htask.symm.trans htask'
      cases hstage.symm.trans hstage'
      exact hw rfl
  have hdue : t.Due 0 { plan := { intervalMs := 1000 }, next := 1000 } :=
    ⟨by decide +kernel, rfl, rfl, by decide +kernel, by decide +kernel⟩
  have hpressed : t.Pressed 0 0 := by
    have hwritable : t.connections[0]?.map (fun c => c.link.writable) = some false := by decide +kernel
    obtain ⟨c, hc, hw⟩ := Option.map_eq_some_iff.mp hwritable
    exact ⟨_, c, hdue, by decide +kernel, hc, hw⟩
  obtain ⟨task, m, htask, hends⟩ := (tick_at_lively_connection {} before 0 0 hbefore hids' hi').1 (.inl hpressed)
  cases hdue.task.symm.trans htask
  exact ⟨⟨hafter, hbefore, hids, hids', hi, hi'⟩, (tick_at_lively_connection {} after 0 0 hafter hids hi).2.1 hnot,
    hpressed, m, hends⟩

end RemoteCall.Session
