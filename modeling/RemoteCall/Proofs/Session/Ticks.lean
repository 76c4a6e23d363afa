import RemoteCall.Proofs.Session.Liveness
import RemoteCall.Proofs.Session.Waiting

/-!
# What a step does to a task

A task is a matter of its own turns. In one it takes a tick that is due, ends the tick that it is in, or ends for good. All
other steps leave it as it is, but for those that cancel it: a stop, a task that takes its place, and the end of the client.

* `TaskMove`: what a task does in a step, and `task_perform`, that it does nothing else.
* `Spared`: what a step that is neither its own turn nor cancels it leaves of a task.
* `halted_of_endsTask`: a stop and a new task end all tasks there are.
-/

namespace RemoteCall.Session

open Pending (Outcome)

section Defs

/-- The plan for which something that the owner does starts a task. -/
def Action.enables? (config : Config) : Action → Option ReconnectPlan
  | .enableReconnect plan => some plan
  | .start => config.autoReconnect.map .ofSettings
  | _ => none

/-- Whether something that the owner does cancels the task there is. -/
def Action.endsTask (config : Config) : Action → Bool
  | .stop => true
  | a => (a.enables? config).isSome

/-- A task is as it was, or the client was given up and the task cancelled with it. The owner heard of no new connection
without an attempt to connect. -/
structure Spared (j : Nat) (s s' : Session) : Prop where
  task : s'.client.tasks[j]? = s.client.tasks[j]? ∧ s'.client.released = s.client.released ∨
    s'.client.tasks[j]? = s.client.tasks[j]?.map ReconnectTask.cancel ∧ s'.client.released = true
  attempts : s.attempts ≤ s'.attempts
  callbacks : s'.attempts = s.attempts → s'.client.callbacks = s.client.callbacks

/-- What a task does in a step. -/
inductive TaskMove (j : Nat) (a : Action) (s : Session) (t : ReconnectTask) : ReconnectTask → Prop
  | stays : TaskMove j a s t t
  /-- It takes a tick, which may end in the same turn. -/
  | begins (ha : a = .turn (.task j)) (h : Due j t s) (stage : TaskStage) (hstage : stage ≠ .over) :
      TaskMove j a s t { t.takeTick s.now with stage }
  /-- The tick that it is in ends. -/
  | ends (ha : a = .turn (.task j)) {w : Waiting} {o : Outcome} (hstage : t.stage = .probing w)
      (ho : s.outcome? w = some o) : TaskMove j a s t { t with stage := .resting }
  /-- It ends for good. -/
  | retires (ha : a = .turn (.task j)) (hstage : t.stage = .resting)
      (hno : t.cancelled = true ∨ s.client.released = true) : TaskMove j a s t { t with stage := .over }

end Defs

variable {s s' : Session} {j l : Nat} {t t' : ReconnectTask} {a : Action} {config : Config}

/-! ## What spares a task -/

theorem spared_of_eq (ht : s'.client.tasks = s.client.tasks) (hr : s'.client.released = s.client.released)
    (ha : s'.attempts = s.attempts) (hc : s'.client.callbacks = s.client.callbacks) : s.Spared j s' :=
  ⟨.inl ⟨by rw [ht], hr⟩, Nat.le_of_eq ha.symm, fun _ => hc⟩

theorem spared_of_client (h : s'.client = s.client) : s.Spared j s' := by
  refine spared_of_eq ?_ ?_ ?_ ?_
  · rw [h]
  · rw [h]
  · rw [attempts, attempts, h]
  · rw [h]

theorem Spared.refl (s : Session) : s.Spared j s := spared_of_client rfl

theorem Spared.trans {a b c : Session} (h : a.Spared j b) (h' : b.Spared j c) : a.Spared j c where
  task := by
    rcases h'.task with ⟨htask', hr'⟩ | ⟨htask', hr'⟩
    · rcases h.task with ⟨htask, hr⟩ | ⟨htask, hr⟩
      · exact .inl ⟨htask'.trans htask, hr'.trans hr⟩
      · exact .inr ⟨htask'.trans htask, hr'.trans hr⟩
    · refine .inr ⟨htask'.trans ?_, hr'⟩
      rcases h.task with ⟨htask, -⟩ | ⟨htask, -⟩
      · rw [htask]
      · -- to cancel it twice makes no difference
        rw [htask, Option.map_map]
        rfl
  attempts := Nat.le_trans h.attempts h'.attempts
  callbacks heq := by
    have hle := h.attempts
    have hle' := h'.attempts
    exact (h'.callbacks (by omega)).trans (h.callbacks (by omega))

theorem spared_release (s : Session) : s.Spared j s.release := by
  refine ⟨.inr ⟨?_, ?_⟩, Nat.le_of_eq (quiet_release s).attempts.symm, fun _ => ?_⟩ <;> rw [client_release]
  exact List.getElem?_map

theorem spared_releaseUnheld (s : Session) : s.Spared j s.releaseUnheld := by
  unfold releaseUnheld
  split
  · exact .refl s
  · exact spared_release s

theorem spared_connect (s : Session) : s.Spared j s.connect.2 := by
  have hremains : s.Remains True s.connect.2 := remains_connect s
  have hmore := attempts_connect s
  refine ⟨.inl ⟨by rw [tasks_connect], hremains.released⟩, ?_, fun hsame => ?_⟩ <;> omega

theorem spared_conclude (callback alive : Bool) (s : Session) : s.Spared j (s.conclude callback alive).2 := by
  rcases conclude_cases callback alive s with h | ⟨n, h⟩
  · rw [h]
    exact .refl s
  · have hmore : (s.conclude callback alive).2.attempts = s.attempts + 1 := by
      rw [h]
      exact (attempts_connect s.disconnect).trans (congrArg (· + 1) (quiet_disconnect s).attempts)
    have hr : (s.conclude callback alive).2.client.released = s.client.released := by
      have hremains : s.Remains True s.disconnect.connect.2 := (remains_disconnect s).trans (remains_connect _)
      rw [h]
      exact hremains.released
    refine ⟨.inl ⟨by rw [tasks_conclude], hr⟩, ?_, fun hsame => ?_⟩ <;> omega

theorem spared_modifyTask_of_ne (hne : l ≠ j) (f : ReconnectTask → ReconnectTask) (s : Session) :
    s.Spared j (s.modifyTask l f) :=
  ⟨.inl ⟨List.getElem?_modify_ne _ _ hne, rfl⟩, Nat.le_refl _, fun _ => rfl⟩

/-- The end of the tick of another task. -/
theorem spared_endTick_of_ne (hne : l ≠ j) (t : ReconnectTask) (alive : Bool) (s : Session) :
    s.Spared j (s.endTick l t alive) :=
  ((spared_conclude _ _ s).trans (spared_modifyTask_of_ne hne _ _)).trans (spared_releaseUnheld _)

/-- The turn of another task. -/
theorem spared_runTask_of_ne (hne : l ≠ j) (s : Session) : s.Spared j (s.runTask l) := by
  have hturn := taskTurn l s
  generalize s.runTask l = s' at hturn ⊢
  cases hturn with
  | idle => exact .refl s
  | @ends t w o ht hstage ho =>
    have hfinish : s.Spared j (s.finish w) := spared_of_client (by rw [finish_eq]; rfl)
    exact hfinish.trans (spared_endTick_of_ne hne t _ _)
  | @begins t hdue =>
    rw [beginTick_eq]
    refine (spared_modifyTask_of_ne hne (ReconnectTask.takeTick s.now) s).trans ?_
    have hclient := tasks_probe (s.modifyTask l (ReconnectTask.takeTick s.now))
    generalize (s.modifyTask l (ReconnectTask.takeTick s.now)).probe = p at hclient
    obtain ⟨answer, s₂⟩ := p
    refine (spared_of_client hclient).trans ?_
    cases answer with
    | answered alive => exact spared_endTick_of_ne hne t alive s₂
    | asked w => exact spared_modifyTask_of_ne hne _ s₂
  | retires => exact spared_modifyTask_of_ne hne _ s

theorem spared_addCaller (purpose : Purpose) (stage : CallerStage) (s : Session) :
    s.Spared j (s.addCaller purpose stage).2 := spared_of_client rfl

theorem spared_call (id : FacadeId) (method : String) (args : List Json) (s : Session) :
    s.Spared j (s.call id method args).2 := by
  unfold call
  split
  · exact spared_addCaller _ _ s
  · rename_i f hf
    have h : s.Spared j (s.invoke f method args).2 := by
      obtain ⟨connections, heq⟩ := invoke_frame f method args s
      exact spared_of_client (by rw [heq])
    split
    all_goals
      rename_i heq
      rw [heq] at h
      exact h.trans (spared_addCaller _ _ _)

theorem spared_askLiveness (s : Session) : s.Spared j s.askLiveness.2 := by
  have h : s.Spared j s.probe.2 := spared_of_client (tasks_probe s)
  unfold askLiveness
  split
  all_goals
    rename_i heq
    rw [heq] at h
    exact h.trans (spared_addCaller _ _ _)

theorem spared_leaveCaller (w : Waiting) (f : Pending.Table → Pending.Table) (callers : List Caller) (s : Session) :
    s.Spared j ({ s.modify w.connection (Switchboard.onTable f) with callers } : Session).releaseUnheld := by
  have hleave : s.Spared j { s.modify w.connection (Switchboard.onTable f) with callers } := spared_of_client rfl
  exact hleave.trans (spared_releaseUnheld _)

theorem spared_resume (k : Nat) (s : Session) : s.Spared j (s.resume k) := by
  unfold resume
  split
  · exact .refl s
  · split
    · exact .refl s
    · rename_i w hw
      split
      · exact .refl s
      · dsimp only
        rw [finish_eq]
        exact spared_leaveCaller w _ _ s

theorem spared_abort (k : Nat) (s : Session) : s.Spared j (s.abort k) := by
  unfold abort
  split
  · exact .refl s
  · split
    · exact .refl s
    · rename_i w hw
      dsimp only
      rw [forget_eq]
      exact spared_leaveCaller w _ _ s

theorem spared_newFacade (r : FacadeRequest) (s : Session) : s.Spared j (s.newFacade r).2 := by
  unfold newFacade obtain
  dsimp only
  split <;> exact spared_of_eq rfl rfl rfl rfl

theorem spared_commandFacade (s : Session) : s.Spared j s.commandFacade.2 := by
  unfold commandFacade
  split
  · exact .refl s
  · exact (spared_newFacade _ s).trans (spared_of_eq rfl rfl rfl rfl)

theorem spared_dataFacade (s : Session) : s.Spared j s.dataFacade.2 := by
  unfold dataFacade
  split
  · exact .refl s
  · exact (spared_newFacade _ s).trans (spared_of_eq rfl rfl rfl rfl)

theorem config_connect (s : Session) : s.connect.2.client.config = s.client.config := config_perform .connect s

theorem start_of_no_plan (h : Action.enables? s.client.config .start = none) : s.start = s.connect := by
  have hnone : s.connect.2.client.config.autoReconnect = none := by
    rw [config_connect]
    exact Option.map_eq_none_iff.mp h
  unfold start
  simp only [hnone]

/-- What is neither its own turn nor cancels it spares a task. -/
theorem spared_perform (hends : a.endsTask s.client.config = false) (ha : a ≠ .turn (.task j)) :
    s.Spared j (s.perform a) := by
  cases a with
  | connect => exact spared_connect s
  | start =>
    show s.Spared j s.start.2
    rw [start_of_no_plan (Option.not_isSome_iff_eq_none.mp (Bool.eq_false_iff.mp hends))]
    exact spared_connect s
  | stop => cases hends
  | enableReconnect plan => cases hends
  | dropClient =>
    have hdrop : s.Spared j (s.onClient fun c => { c with owned := false }) := spared_of_eq rfl rfl rfl rfl
    exact hdrop.trans (spared_releaseUnheld _)
  | refuse refuse => exact spared_of_eq rfl rfl rfl rfl
  | newFacade r name => exact (spared_newFacade r s).trans (spared_of_client rfl)
  | commandFacade => exact spared_commandFacade s
  | dataFacade => exact spared_dataFacade s
  | letGo name => exact spared_of_client rfl
  | call id method args => exact spared_call id method args s
  | askLiveness => exact spared_askLiveness s
  | abort k => exact spared_abort k s
  | peer i act => exact spared_of_client rfl
  | pass ms => exact spared_of_client rfl
  | turn turn =>
    cases turn with
    | dispatcher i => exact spared_of_client rfl
    | server i =>
      show s.Spared j (s.serve i)
      unfold serve
      split
      · exact spared_of_client rfl
      · exact .refl s
    | caller k => exact spared_resume k s
    | task l => exact spared_runTask_of_ne (fun heq => ha (by rw [heq])) s

/-- What is left of a task that was spared. -/
theorem Spared.left (h : s.Spared j s') (ht : s.client.tasks[j]? = some t) :
    ∃ t', s'.client.tasks[j]? = some t' ∧ (t' = t ∨ t' = t.cancel ∧ s'.client.released = true) := by
  rcases h.task with ⟨htask, -⟩ | ⟨htask, hr⟩
  · exact ⟨t, htask.trans ht, .inl rfl⟩
  · exact ⟨t.cancel, by rw [htask, ht]; rfl, .inr ⟨rfl, hr⟩⟩

/-! ## Its own turn -/

theorem Due.perform (h : s.Due j t) : s.perform (.turn (.task j)) = s.beginTick j t := by
  show s.runTask j = _
  have htime := Nat.not_lt.mpr h.time
  simp only [runTask, h.task, h.resting, h.going, h.held, Bool.false_eq_true, if_false, htime]

/-- A tick that knows at once whether the connection lives ends in the same turn. -/
theorem Due.perform_of_answered {alive : Bool} (h : s.Due j t)
    (hp : (s.modifyTask j (ReconnectTask.takeTick s.now)).probe = (.answered alive, s')) :
    s.perform (.turn (.task j)) = s'.endTick j t alive :=
  h.perform.trans (congrArg (goOn j t) hp)

/-- A tick that has sent a ping waits for the answer. -/
theorem Due.perform_of_asked {w : Waiting} (h : s.Due j t)
    (hp : (s.modifyTask j (ReconnectTask.takeTick s.now)).probe = (.asked w, s')) :
    s.perform (.turn (.task j)) = s'.modifyTask j fun t => { t with stage := .probing w } :=
  h.perform.trans (congrArg (goOn j t) hp)

theorem task_modifyTask (ht : s.client.tasks[j]? = some t) (f : ReconnectTask → ReconnectTask) :
    (s.modifyTask j f).client.tasks[j]? = some (f t) := by
  simp only [modifyTask, onClient, List.getElem?_modify_eq, ht, Option.map_eq_map, Option.map_some]

/-- A task rests after its tick, and was cancelled if the client was given up then. -/
theorem task_endTick (ht : s.client.tasks[j]? = some t) (t₀ : ReconnectTask) (alive : Bool) :
    ∃ t', (s.endTick j t₀ alive).client.tasks[j]? = some t' ∧ (t' = { t with stage := .resting } ∨
      t' = ReconnectTask.cancel { t with stage := .resting } ∧ (s.endTick j t₀ alive).client.released = true) := by
  refine (spared_releaseUnheld _).left ?_
  rw [← tasks_conclude t₀.plan.callback alive s] at ht
  exact task_modifyTask ht _

/-- What a task does in its own turn. -/
theorem task_runTask (ht : s.client.tasks[j]? = some t) : ∃ x t', TaskMove j (.turn (.task j)) s t x ∧
    (s.runTask j).client.tasks[j]? = some t' ∧ (t' = x ∨ t' = x.cancel ∧ (s.runTask j).client.released = true) := by
  have hturn := taskTurn j s
  generalize s.runTask j = s' at hturn ⊢
  cases hturn with
  | idle => exact ⟨t, t, .stays, ht, .inl rfl⟩
  | @ends t' w o ht' hstage ho =>
    cases ht.symm.trans ht'
    have htask : (s.finish w).client.tasks[j]? = some t := by
      rw [finish_eq]
      exact ht
    obtain ⟨r, hr, hleft⟩ := task_endTick htask t (s.isAlive o)
    exact ⟨_, r, .ends rfl hstage ho, hr, hleft⟩
  | begins hdue =>
    cases ht.symm.trans hdue.task
    rw [beginTick_eq]
    have htake := task_modifyTask ht (ReconnectTask.takeTick s.now)
    rw [← tasks_probe] at htake
    generalize (s.modifyTask j (ReconnectTask.takeTick s.now)).probe = p at htake
    obtain ⟨answer, s₂⟩ := p
    cases answer with
    | answered alive =>
      obtain ⟨r, hr, hleft⟩ := task_endTick htake t alive
      exact ⟨_, r, .begins rfl hdue .resting (by decide), hr, hleft⟩
    | asked w => exact ⟨_, _, .begins rfl hdue (.probing w) (by simp), task_modifyTask htake _, .inl rfl⟩
  | retires ht' hstage hno =>
    cases ht.symm.trans ht'
    exact ⟨_, _, .retires rfl hstage hno, task_modifyTask ht _, .inl rfl⟩

/-! ## Stops and new tasks -/

/-- What starts a task for a plan does so after an attempt to connect or by itself. -/
theorem perform_of_enables {plan : ReconnectPlan} (h : a.enables? s.client.config = some plan) :
    s.perform a = s.enableReconnect plan ∨ s.perform a = s.connect.2.enableReconnect plan := by
  cases a with
  | enableReconnect p =>
    cases h
    exact .inl rfl
  | start =>
    obtain ⟨settings, hsettings, rfl⟩ := Option.map_eq_some_iff.mp h
    refine .inr ?_
    have hsome : s.connect.2.client.config.autoReconnect = some settings := by
      rw [config_connect]
      exact hsettings
    show s.start.2 = _
    unfold start
    simp only [hsome]
  | _ => cases h

/-- A task may be cancelled, and nothing else. -/
theorem task_cancelTask (ht : s.client.tasks[j]? = some t) :
    ∃ t', s.stop.client.tasks[j]? = some t' ∧ (t' = t ∨ t' = t.cancel) := by
  rw [tasks_stop]
  split
  · rename_i l hl
    by_cases hlj : l = j
    · subst hlj
      exact ⟨t.cancel, by rw [List.getElem?_modify_eq, ht]; rfl, .inr rfl⟩
    · exact ⟨t, (List.getElem?_modify_ne _ _ hlj).trans ht, .inl rfl⟩
  · exact ⟨t, ht, .inl rfl⟩

/-- The tasks after a new one was started are those that a stop would leave, and the new one. -/
theorem tasks_enableReconnect (plan : ReconnectPlan) (s : Session) :
    (s.enableReconnect plan).client.tasks = s.stop.client.tasks ++ [.start s.now plan] := by
  rw [tasks_stop]
  rfl

theorem length_tasks_stop (s : Session) : s.stop.client.tasks.length = s.client.tasks.length := by
  rw [tasks_stop]
  split
  · exact List.length_modify ..
  · rfl

/-- The task that is started for a plan. -/
theorem task_of_enables {plan : ReconnectPlan} (h : a.enables? s.client.config = some plan) :
    (s.perform a).client.tasks[s.client.tasks.length]? = some (.start s.now plan) ∧
      (s.perform a).client.tasks.length = s.client.tasks.length + 1 := by
  have hnew (m : Session) (hm : m.client.tasks = s.client.tasks) (hnow : m.now = s.now) :
      (m.enableReconnect plan).client.tasks[s.client.tasks.length]? = some (.start s.now plan) ∧
        (m.enableReconnect plan).client.tasks.length = s.client.tasks.length + 1 := by
    rw [tasks_enableReconnect, hnow, ← hm, ← length_tasks_stop m]
    exact ⟨List.getElem?_concat_length, List.length_append⟩
  rcases perform_of_enables h with heq | heq <;> rw [heq]
  · exact hnew s rfl rfl
  · exact hnew _ (tasks_connect s) (apart_connect s).now

/-- A stop and a new task leave no task going that there was. -/
theorem halted_of_endsTask (howned : s.Owned) (h : a.endsTask s.client.config = true)
    (ht : s.client.tasks[j]? = some t) : ∃ t', (s.perform a).client.tasks[j]? = some t' ∧
      (t' = t ∨ t' = t.cancel) ∧ (t'.cancelled = true ∨ t'.stage = .over) := by
  have hstop (m : Session) (hm : m.client.tasks = s.client.tasks) (hown : m.Owned) :
      ∃ t', m.stop.client.tasks[j]? = some t' ∧ (t' = t ∨ t' = t.cancel) ∧
        (t'.cancelled = true ∨ t'.stage = .over) := by
    obtain ⟨t', ht', hleft⟩ := task_cancelTask (s := m) (hm ▸ ht)
    exact ⟨t', ht', hleft, calm_stop hown t' (List.mem_of_getElem? ht')⟩
  have hnew (m : Session) (plan : ReconnectPlan) (hm : m.client.tasks = s.client.tasks) (hown : m.Owned) :
      ∃ t', (m.enableReconnect plan).client.tasks[j]? = some t' ∧ (t' = t ∨ t' = t.cancel) ∧
        (t'.cancelled = true ∨ t'.stage = .over) := by
    obtain ⟨t', ht', hleft⟩ := hstop m hm hown
    refine ⟨t', ?_, hleft⟩
    rw [tasks_enableReconnect, List.getElem?_append_left (List.getElem?_eq_some_iff.mp ht').1, ht']
  cases hplan : a.enables? s.client.config with
  | some plan =>
    rcases perform_of_enables hplan with heq | heq <;> rw [heq]
    · exact hnew s plan rfl howned
    · exact hnew _ plan (tasks_connect s) (howned.wanes (wanes_connect s))
  | none =>
    cases a with
    | stop => exact hstop s rfl howned
    | _ => simp [Action.endsTask, hplan] at h

/-! ## Steps -/

/-- **What a task does in a step.** It does one thing at most, and may be cancelled, by a stop, a new task or the end of the
client. -/
theorem task_perform (howned : s.Owned) (ht : s.client.tasks[j]? = some t) (a : Action) :
    ∃ x t', TaskMove j a s t x ∧ (s.perform a).client.tasks[j]? = some t' ∧
      (t' = x ∨ t' = x.cancel ∧ ((s.perform a).client.released = true ∨ a.endsTask s.client.config = true)) := by
  by_cases ha : a = .turn (.task j)
  · subst ha
    obtain ⟨x, t', hmove, ht', hleft⟩ := task_runTask ht
    exact ⟨x, t', hmove, ht', hleft.imp_right fun h => ⟨h.1, .inl h.2⟩⟩
  · cases hends : a.endsTask s.client.config with
    | false =>
      obtain ⟨t', ht', hleft⟩ := (spared_perform hends ha).left ht
      exact ⟨t, t', .stays, ht', hleft.imp_right fun h => ⟨h.1, .inl h.2⟩⟩
    | true =>
      obtain ⟨t', ht', hleft, -⟩ := halted_of_endsTask howned hends ht
      exact ⟨t, t', .stays, ht', hleft.imp_right fun h => ⟨h, .inr rfl⟩⟩

/-- What neither starts a task nor is the turn of one that there is makes none. -/
theorem no_task_perform {l : Nat} (hl : s.client.tasks[l]? = none) (h : a.endsTask s.client.config = false) :
    (s.perform a).client.tasks[l]? = none := by
  by_cases ha : a = .turn (.task l)
  · subst ha
    show (s.runTask l).client.tasks[l]? = none
    simp only [runTask, hl]
  · rcases (spared_perform h ha).task with ⟨htask, -⟩ | ⟨htask, -⟩
    · rw [htask, hl]
    · rw [htask, hl]
      rfl

/-- A task that was not there before a step was started in it. -/
theorem task_of_new (hnone : s.client.tasks[j]? = none) (ht : (s.perform a).client.tasks[j]? = some t) :
    ∃ plan, a.enables? s.client.config = some plan ∧ t = .start s.now plan ∧
      j + 1 = (s.perform a).client.tasks.length := by
  have hle := List.getElem?_eq_none_iff.mp hnone
  have hlt := (List.getElem?_eq_some_iff.mp ht).1
  cases hplan : a.enables? s.client.config with
  | none =>
    cases hends : a.endsTask s.client.config with
    | false =>
      rw [no_task_perform hnone hends] at ht
      cases ht
    | true =>
      cases a with
      | stop =>
        rw [show (s.perform .stop).client.tasks.length = s.client.tasks.length from length_tasks_stop s] at hlt
        exact absurd hlt (Nat.not_lt_of_le hle)
      | _ => simp [Action.endsTask, hplan] at hends
  | some plan =>
    obtain ⟨hnew, hlength⟩ := task_of_enables hplan
    obtain rfl : j = s.client.tasks.length := by omega
    exact ⟨plan, rfl, Option.some.inj (ht.symm.trans hnew), hlength.symm⟩

/-- A task follows one plan. -/
theorem plan_perform (howned : s.Owned) (ht : s.client.tasks[j]? = some t) (a : Action) :
    ∃ t', (s.perform a).client.tasks[j]? = some t' ∧ t'.plan = t.plan := by
  obtain ⟨x, t', hmove, ht', hleft⟩ := task_perform howned ht a
  refine ⟨t', ht', ?_⟩
  have hx : x.plan = t.plan := by cases hmove <;> rfl
  rcases hleft with rfl | ⟨rfl, -⟩ <;> exact hx

theorem plan_run (howned : s.Owned) (ht : s.client.tasks[j]? = some t) (actions : List Action) :
    ∃ t', (s.run actions).client.tasks[j]? = some t' ∧ t'.plan = t.plan := by
  induction actions generalizing s t with
  | nil => exact ⟨t, ht, rfl⟩
  | cons a actions ih =>
    obtain ⟨t', ht', hplan⟩ := plan_perform howned ht a
    obtain ⟨t'', ht'', hplan'⟩ := ih (owned_perform howned a) ht'
    exact ⟨t'', ht'', hplan'.trans hplan⟩

end RemoteCall.Session
