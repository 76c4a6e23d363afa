import RemoteCall.Proofs.Session.Steps

/-!
# What a stop leaves behind

A stop cancels the task that makes lost connections again and releases the connection in use. A task looks at its
cancellation only between ticks, so a tick that is under way goes on and may still make one attempt to connect.

* `not_stopIsFinal`: a tick under way at a stop makes a connection after it.
* `Calm`: every task is cancelled or over. A stop brings this about, and nothing but the owner ends it.
* `stop_leaves_ticks`: after a stop no tick begins, and each attempt to connect is the end of a tick that was under
  way.
-/

namespace RemoteCall.Session

open Pending (Table)

section Defs

/-- Whether something that the owner does asks for a connection. -/
def Action.asksForConnection : Action → Bool
  | .connect => true
  | .start => true
  | .enableReconnect _ => true
  | _ => false

/-- How often a connection was asked for. -/
def attempts (s : Session) : Nat := s.client.connector.attempts

/-- How many ticks are under way. -/
def ticking (s : Session) : Nat := s.client.tasks.countP ReconnectTask.isProbing

/-- After a stop there is no attempt and no connection in use until the owner asks for one. -/
def StopIsFinal : Prop :=
  ∀ (config : Config) (before after : List Action), (∀ a ∈ after, a.asksForConnection = false) →
    let stopped := ((ofConfig config).run before).perform .stop
    (stopped.run after).attempts = stopped.attempts ∧ (stopped.run after).client.installed = none

/-- Every task has been cancelled or is over. -/
def Calm (s : Session) : Prop := ∀ t ∈ s.client.tasks, t.cancelled = true ∨ t.stage = .over

/-- The only task that goes on is the one that a stop would cancel. -/
def Owned (s : Session) : Prop :=
  ∀ (j : Nat) (t : ReconnectTask), s.client.tasks[j]? = some t → t.cancelled = false → t.stage ≠ .over →
    s.client.task = some j

/-- No task was started or taken up again. -/
structure Wanes (s s' : Session) : Prop where
  tasks : ∀ (j : Nat) (t' : ReconnectTask), s'.client.tasks[j]? = some t' → ∃ t, s.client.tasks[j]? = some t ∧
    (t'.cancelled = false → t.cancelled = false) ∧ (t'.stage ≠ .over → t.stage ≠ .over)
  task : s'.client.task = s.client.task ∨ s'.Calm

/-- No tick began or ended, and nothing was asked for. -/
structure Quiet (s s' : Session) : Prop extends s.Wanes s' where
  stages : s'.client.tasks.map ReconnectTask.stage = s.client.tasks.map ReconnectTask.stage
  attempts : s'.attempts = s.attempts
  installed : s'.client.installed = s.client.installed ∨ s'.client.installed = none

/-- No tick began, and every attempt was the end of a tick. -/
structure Ebbs (s s' : Session) : Prop where
  calm : s'.Calm
  ticks : ∀ (j : Nat) (t' : ReconnectTask) (w : Waiting), s'.client.tasks[j]? = some t' → t'.stage = .probing w →
    ∃ t, s.client.tasks[j]? = some t ∧ t.stage = .probing w
  attempts_le : s.attempts ≤ s'.attempts
  ebb : s'.attempts + s'.ticking ≤ s.attempts + s.ticking
  installed : s'.client.installed ≠ none → s.client.installed ≠ none ∨ s.attempts < s'.attempts

end Defs

/-- A tick is under way when the owner stops the client, and makes a connection after that. -/
theorem not_stopIsFinal : ¬ StopIsFinal := by
  intro h
  have hrun := h {} [.connect, .commandFacade, .enableReconnect { intervalMs := 1000 }, .pass 1000, .turn (.task 0)]
    [.turn (.task 0)] (by decide)
  revert hrun
  decide +kernel

variable {s s' : Session} {j : Nat}

/-! ## Tasks -/

theorem Wanes.refl (s : Session) : s.Wanes s :=
  ⟨fun _ t ht => ⟨t, ht, fun h => h, fun h => h⟩, .inl rfl⟩

theorem Calm.wanes (h : s.Calm) (hw : s.Wanes s') : s'.Calm := by
  intro t' ht'
  obtain ⟨j, hj⟩ := List.mem_iff_getElem?.mp ht'
  obtain ⟨t, ht, hcancelled, hover⟩ := hw.tasks j t' hj
  by_contra hnot
  rw [not_or, Bool.not_eq_true] at hnot
  rcases h t (List.mem_of_getElem? ht) with hc | ho
  · rw [hcancelled hnot.1] at hc
    cases hc
  · exact hover hnot.2 ho

theorem Wanes.trans {a b c : Session} (h : a.Wanes b) (h' : b.Wanes c) : a.Wanes c where
  tasks j z hz := by
    obtain ⟨y, hy, hyc, hyo⟩ := h'.tasks j z hz
    obtain ⟨x, hx, hxc, hxo⟩ := h.tasks j y hy
    exact ⟨x, hx, fun hc => hxc (hyc hc), fun ho => hxo (hyo ho)⟩
  task := by
    rcases h'.task with heq | hcalm
    · rcases h.task with heq' | hcalm
      · exact .inl (heq.trans heq')
      · exact .inr (hcalm.wanes h')
    · exact .inr hcalm

theorem Owned.wanes (h : s.Owned) (hw : s.Wanes s') : s'.Owned := by
  intro j t' ht' hc ho
  obtain ⟨t, ht, hcancelled, hover⟩ := hw.tasks j t' ht'
  rcases hw.task with heq | hcalm
  · rw [heq]
    exact h j t ht (hcancelled hc) (hover ho)
  · rcases hcalm t' (List.mem_of_getElem? ht') with hc' | ho'
    · rw [hc] at hc'
      cases hc'
    · exact absurd ho' ho

theorem Quiet.refl (s : Session) : s.Quiet s := ⟨.refl s, rfl, rfl, .inl rfl⟩

theorem Quiet.trans {a b c : Session} (h : a.Quiet b) (h' : b.Quiet c) : a.Quiet c where
  toWanes := h.toWanes.trans h'.toWanes
  stages := h'.stages.trans h.stages
  attempts := h'.attempts.trans h.attempts
  installed := by
    rcases h'.installed with heq | hnone
    · rw [heq]
      exact h.installed
    · exact .inr hnone

/-- What concerns neither tasks nor connections in use is quiet. -/
theorem quiet_of_eq (ht : s'.client.tasks = s.client.tasks) (hk : s'.client.task = s.client.task)
    (ha : s'.client.connector.attempts = s.client.connector.attempts)
    (hi : s'.client.installed = s.client.installed ∨ s'.client.installed = none) : s.Quiet s' where
  tasks j t h := ⟨t, ht ▸ h, fun h => h, fun h => h⟩
  task := .inl hk
  stages := by rw [ht]
  attempts := ha
  installed := hi

theorem Quiet.ticking (h : s.Quiet s') : s'.ticking = s.ticking := by
  have hprobing : ReconnectTask.isProbing =
      (fun st : TaskStage => decide (st ≠ .resting ∧ st ≠ .over)) ∘ ReconnectTask.stage := by
    funext t
    cases ht : t.stage <;> simp [ReconnectTask.isProbing, ht]
  rw [Session.ticking, Session.ticking, hprobing, ← List.countP_map, ← List.countP_map, h.stages]

theorem Quiet.ebbs (h : s.Quiet s') (hc : s.Calm) : s.Ebbs s' where
  calm := hc.wanes h.toWanes
  ticks j t' w ht' hw := by
    have hmap := congrArg (·[j]?) h.stages
    simp only [List.getElem?_map, ht', Option.map_some] at hmap
    obtain ⟨t, ht, hst⟩ := Option.map_eq_some_iff.mp hmap.symm
    exact ⟨t, ht, hst.trans hw⟩
  attempts_le := Nat.le_of_eq h.attempts.symm
  ebb := by rw [h.attempts, h.ticking]
  installed hi := by
    rcases h.installed with heq | hnone
    · exact .inl (heq ▸ hi)
    · exact absurd hnone hi

theorem Ebbs.trans {a b c : Session} (h : a.Ebbs b) (h' : b.Ebbs c) : a.Ebbs c where
  calm := h'.calm
  ticks j z w hz hw := by
    obtain ⟨y, hy, hyw⟩ := h'.ticks j z w hz hw
    exact h.ticks j y w hy hyw
  attempts_le := Nat.le_trans h.attempts_le h'.attempts_le
  ebb := Nat.le_trans h'.ebb h.ebb
  installed hi := by
    have hle := h.attempts_le
    have hle' := h'.attempts_le
    rcases h'.installed hi with hb | hlt
    · rcases h.installed hb with ha | hlt
      · exact .inl ha
      · exact .inr (Nat.lt_of_lt_of_le hlt hle')
    · exact .inr (Nat.lt_of_le_of_lt hle hlt)

/-! ## What is quiet -/

theorem quiet_modify (i : Nat) (f : Connection → Connection) (s : Session) : s.Quiet (s.modify i f) :=
  quiet_of_eq rfl rfl rfl (.inl rfl)

theorem quiet_disconnect (s : Session) : s.Quiet s.disconnect := by
  have hclient := tasks_teardownInstalled s
  refine quiet_of_eq ?_ ?_ ?_ (.inr rfl) <;> simp only [disconnect, onClient, hclient]

/-- To cancel tasks is quiet. -/
theorem quiet_of_cancel (ht : ∀ j : Nat, s'.client.tasks[j]? = s.client.tasks[j]? ∨
      s'.client.tasks[j]? = s.client.tasks[j]?.map ReconnectTask.cancel)
    (hk : s'.client.task = s.client.task ∨ s'.Calm) (ha : s'.attempts = s.attempts)
    (hi : s'.client.installed = none) : s.Quiet s' where
  tasks j t' ht' := by
    rcases ht j with heq | heq
    · exact ⟨t', heq ▸ ht', fun h => h, fun h => h⟩
    · rw [heq] at ht'
      obtain ⟨t, hj, rfl⟩ := Option.map_eq_some_iff.mp ht'
      exact ⟨t, hj, (fun h => by cases h), fun h => h⟩
  task := hk
  stages := by
    apply List.ext_getElem?
    intro j
    rw [List.getElem?_map, List.getElem?_map]
    rcases ht j with heq | heq
    · rw [heq]
    · rw [heq, Option.map_map]
      rfl
  attempts := ha
  installed := .inr hi

theorem tasks_release (s : Session) : s.release.client.tasks = s.client.tasks.map ReconnectTask.cancel := by
  unfold release
  split <;> rfl

theorem quiet_release (s : Session) : s.Quiet s.release := by
  refine quiet_of_cancel (fun j => .inr ?_) (.inr fun t ht => ?_) ?_ rfl
  · rw [tasks_release, List.getElem?_map]
  · rw [tasks_release] at ht
    obtain ⟨t₀, -, rfl⟩ := List.mem_map.mp ht
    exact .inl rfl
  · unfold release
    split <;> rfl

theorem quiet_releaseUnheld (s : Session) : s.Quiet s.releaseUnheld := by
  unfold releaseUnheld
  split
  · exact .refl s
  · exact quiet_release s

theorem quiet_invoke (f : Facade) (method : String) (args : List Json) (s : Session) :
    s.Quiet (s.invoke f method args).2 := by
  obtain ⟨connections, h⟩ := invoke_frame f method args s
  rw [h]
  exact quiet_of_eq rfl rfl rfl (.inl rfl)

theorem quiet_probe (s : Session) : s.Quiet s.probe.2 := by
  rcases probe_cases s with ⟨alive, h⟩ | ⟨f, ⟨alive, h, -⟩ | ⟨w, h, -⟩⟩ <;> rw [h]
  · exact .refl s
  · exact quiet_invoke f "ping" [] s
  · exact quiet_invoke f "ping" [] s

theorem quiet_call (id : FacadeId) (method : String) (args : List Json) (s : Session) :
    s.Quiet (s.call id method args).2 := by
  unfold call
  split
  · exact quiet_of_eq rfl rfl rfl (.inl rfl)
  · rename_i f hf
    have h := quiet_invoke f method args s
    split
    all_goals
      rename_i heq
      rw [heq] at h
      exact h.trans (quiet_of_eq rfl rfl rfl (.inl rfl))

theorem quiet_askLiveness (s : Session) : s.Quiet s.askLiveness.2 := by
  have h := quiet_probe s
  unfold askLiveness
  split
  all_goals
    rename_i heq
    rw [heq] at h
    exact h.trans (quiet_of_eq rfl rfl rfl (.inl rfl))

theorem quiet_leaveCaller (w : Waiting) (f : Table → Table) (callers : List Caller) (s : Session) :
    s.Quiet ({ s.modify w.connection (Switchboard.onTable f) with callers } : Session).releaseUnheld := by
  have hleave : s.Quiet { s.modify w.connection (Switchboard.onTable f) with callers } :=
    quiet_of_eq rfl rfl rfl (.inl rfl)
  exact hleave.trans (quiet_releaseUnheld _)

theorem quiet_resume (k : Nat) (s : Session) : s.Quiet (s.resume k) := by
  unfold resume
  split
  · exact .refl s
  · split
    · exact .refl s
    · rename_i w hw
      split
      · exact .refl s
      · dsimp only
        rw [finish_eq]
        exact quiet_leaveCaller w _ _ s

theorem quiet_abort (k : Nat) (s : Session) : s.Quiet (s.abort k) := by
  unfold abort
  split
  · exact .refl s
  · split
    · exact .refl s
    · rename_i w hw
      dsimp only
      rw [forget_eq]
      exact quiet_leaveCaller w _ _ s

theorem quiet_newFacade (r : FacadeRequest) (s : Session) : s.Quiet (s.newFacade r).2 := by
  unfold newFacade obtain
  dsimp only
  split
  · exact .refl s
  · exact quiet_of_eq rfl rfl rfl (.inl rfl)

theorem quiet_commandFacade (s : Session) : s.Quiet s.commandFacade.2 := by
  unfold commandFacade
  split
  · exact .refl s
  · exact (quiet_newFacade _ s).trans (quiet_of_eq rfl rfl rfl (.inl rfl))

theorem quiet_dataFacade (s : Session) : s.Quiet s.dataFacade.2 := by
  unfold dataFacade
  split
  · exact .refl s
  · exact (quiet_newFacade _ s).trans (quiet_of_eq rfl rfl rfl (.inl rfl))

theorem quiet_dropClient (s : Session) : s.Quiet s.dropClient := by
  have hdrop : s.Quiet (s.onClient fun c => { c with owned := false }) := quiet_of_eq rfl rfl rfl (.inl rfl)
  exact hdrop.trans (quiet_releaseUnheld _)

theorem tasks_stop (s : Session) : s.stop.client.tasks =
    match s.client.task with
    | some j => s.client.tasks.modify j ReconnectTask.cancel
    | none => s.client.tasks := by
  rw [stop_eq, tasks_disconnect]
  simp only [onClient, cancelTask]
  cases s.client.task <;> rfl

/-- After a stop every task is cancelled or over. -/
theorem calm_stop (h : s.Owned) : s.stop.Calm := by
  intro t' ht'
  obtain ⟨j, hj⟩ := List.mem_iff_getElem?.mp ht'
  by_contra hnot
  rw [not_or, Bool.not_eq_true] at hnot
  obtain ⟨hc, ho⟩ := hnot
  rw [tasks_stop] at hj
  split at hj
  · rename_i i hi
    by_cases hij : i = j
    · subst hij
      rw [List.getElem?_modify_eq] at hj
      obtain ⟨t, -, rfl⟩ := Option.map_eq_some_iff.mp hj
      cases hc
    · rw [List.getElem?_modify_ne _ _ hij] at hj
      have hi' := h j t' hj hc ho
      rw [hi] at hi'
      exact hij (Option.some.inj hi')
  · rename_i hnone
    have hj' := h j t' hj hc ho
    rw [hnone] at hj'
    cases hj'

theorem quiet_stop (h : s.Owned) : s.Quiet s.stop := by
  refine quiet_of_cancel (fun j => ?_) (.inr (calm_stop h)) ?_ rfl
  · rw [tasks_stop]
    split
    · rename_i i hi
      by_cases hij : i = j
      · subst hij
        exact .inr (List.getElem?_modify_eq ..)
      · exact .inl (List.getElem?_modify_ne _ _ hij)
    · exact .inl rfl
  · rw [stop_eq, (quiet_disconnect _).attempts]
    unfold Session.attempts
    simp only [onClient, cancelTask]
    split <;> rfl

/-! ## What wanes -/

theorem attempts_connect (s : Session) : s.connect.2.attempts = s.attempts + 1 := by
  cases hr : s.client.connector.refusal with
  | some cause =>
    rw [connect_of_refusal hr]
    rfl
  | none =>
    rw [connect_of_accepted hr]
    rfl

theorem wanes_connect (s : Session) : s.Wanes s.connect.2 := by
  have htask : s.connect.2.client.task = s.client.task := by
    cases hr : s.client.connector.refusal with
    | some cause =>
      rw [connect_of_refusal hr]
      rfl
    | none => rw [connect_of_accepted hr]
  exact ⟨fun j t h => ⟨t, tasks_connect s ▸ h, fun h => h, fun h => h⟩, .inl htask⟩

/-- A tick that has come to its end makes one attempt at most. -/
theorem attempts_conclude (callback alive : Bool) (s : Session) :
    (s.conclude callback alive).2.client.installed = s.client.installed ∧
        (s.conclude callback alive).2.attempts = s.attempts ∨
      (s.conclude callback alive).2.attempts = s.attempts + 1 := by
  rcases conclude_cases callback alive s with h | ⟨n, h⟩ <;> rw [h]
  · exact .inl ⟨rfl, rfl⟩
  · right
    have hconnect := attempts_connect s.disconnect
    rw [(quiet_disconnect s).attempts] at hconnect
    exact hconnect

theorem wanes_conclude (callback alive : Bool) (s : Session) : s.Wanes (s.conclude callback alive).2 := by
  rcases conclude_cases callback alive s with h | ⟨n, h⟩ <;> rw [h]
  · exact .refl s
  · have hconnect := wanes_connect s.disconnect
    exact (quiet_disconnect s).toWanes.trans ⟨hconnect.tasks, hconnect.task⟩

theorem wanes_modifyTask {t : ReconnectTask} (ht : s.client.tasks[j]? = some t)
    {f : ReconnectTask → ReconnectTask} (hf : (f t).cancelled = t.cancelled) (ho : t.stage ≠ .over) :
    s.Wanes (s.modifyTask j f) where
  tasks i t' ht' := by
    simp only [modifyTask, onClient] at ht'
    by_cases hji : j = i
    · subst hji
      rw [List.getElem?_modify_eq, ht] at ht'
      obtain rfl : f t = t' := Option.some.inj ht'
      exact ⟨t, ht, fun h => hf ▸ h, fun _ => ho⟩
    · rw [List.getElem?_modify_ne _ _ hji] at ht'
      exact ⟨t', ht', fun h => h, fun h => h⟩
  task := .inl rfl

theorem wanes_endTick {t : ReconnectTask} (ht : s.client.tasks[j]? = some t) (ho : t.stage ≠ .over)
    (t₀ : ReconnectTask) (alive : Bool) : s.Wanes (s.endTick j t₀ alive) := by
  have ht' : (s.conclude t₀.plan.callback alive).2.client.tasks[j]? = some t := by
    rw [tasks_conclude]
    exact ht
  have hmodify : Wanes _ (Session.modifyTask j (fun t => { t with stage := .resting }) _) :=
    wanes_modifyTask ht' rfl ho
  exact ((wanes_conclude _ _ s).trans hmodify).trans (quiet_releaseUnheld _).toWanes

theorem tasks_probe (s : Session) : s.probe.2.client = s.client := by
  rcases probe_cases s with ⟨alive, h⟩ | ⟨f, hcases⟩
  · rw [h]
  · obtain ⟨connections, hframe⟩ := invoke_frame f "ping" [] s
    rcases hcases with ⟨alive, h, -⟩ | ⟨w, h, -⟩
    · rw [h, hframe]
    · rw [h, hframe]

theorem wanes_beginTick {t : ReconnectTask} (ht : s.client.tasks[j]? = some t) (ho : t.stage ≠ .over) :
    s.Wanes (s.beginTick j t) := by
  have htake : s.Wanes (s.modifyTask j (ReconnectTask.takeTick s.now)) := wanes_modifyTask ht rfl ho
  have ht' : (s.modifyTask j (ReconnectTask.takeTick s.now)).client.tasks[j]? = some (t.takeTick s.now) := by
    simp [modifyTask, onClient, ht]
  rw [beginTick_eq]
  generalize s.modifyTask j (ReconnectTask.takeTick s.now) = s₁ at htake ht'
  have hprobe := quiet_probe s₁
  have hclient := tasks_probe s₁
  refine htake.trans (hprobe.toWanes.trans ?_)
  generalize hp : s₁.probe = p at hclient
  obtain ⟨answer, s₂⟩ := p
  have ht₂ : s₂.client.tasks[j]? = some (t.takeTick s.now) := by
    rw [show s₂.client = s₁.client from hclient]
    exact ht'
  cases answer with
  | answered alive => exact wanes_endTick ht₂ ho t alive
  | asked w => exact wanes_modifyTask ht₂ rfl ho

theorem wanes_runTask (j : Nat) (s : Session) : s.Wanes (s.runTask j) := by
  have hturn := taskTurn j s
  generalize s.runTask j = s' at hturn ⊢
  cases hturn with
  | idle => exact .refl s
  | @ends t w o ht hstage ho =>
    have hfinish : s.Wanes (s.finish w) := by
      rw [finish_eq]
      exact (quiet_modify _ _ s).toWanes
    have ht' : (s.finish w).client.tasks[j]? = some t := by
      rw [finish_eq]
      exact ht
    exact hfinish.trans (wanes_endTick ht' (by simp [hstage]) t _)
  | begins h => exact wanes_beginTick h.task (by simp [h.resting])
  | retires ht hstage hno => exact wanes_modifyTask ht rfl (by simp [hstage])

/-! ## The owner -/

theorem owned_ofConfig (config : Config) (codec : Codec) : (ofConfig config codec).Owned := by
  intro j t ht
  simp [ofConfig] at ht

/-- A new task takes the place of the one before, which is cancelled. -/
theorem Owned.enableReconnect (h : s.Owned) (plan : ReconnectPlan) : (s.enableReconnect plan).Owned := by
  intro j t' ht' hc ho
  have htasks : (s.enableReconnect plan).client.tasks = s.stop.client.tasks ++ [.start s.now plan] := by
    rw [tasks_stop]
    rfl
  have htask : (s.enableReconnect plan).client.task = some s.stop.client.tasks.length := by
    rw [tasks_stop]
    rfl
  rw [htasks] at ht'
  rcases Pending.getElem?_concat ht' with hold | ⟨rfl, -⟩
  · rcases calm_stop h t' (List.mem_of_getElem? hold) with hc' | ho'
    · rw [hc] at hc'
      cases hc'
    · exact absurd ho' ho
  · exact htask

/-- What neither asks for a connection nor is a turn of a task is quiet. -/
theorem quiet_perform (h : s.Owned) {a : Action} (ha : a.asksForConnection = false)
    (ht : ∀ j, a ≠ .turn (.task j)) : s.Quiet (s.perform a) := by
  have hsame {s' : Session} (hc : s'.client = s.client) : s.Quiet s' := by
    refine quiet_of_eq ?_ ?_ ?_ (.inl ?_) <;> rw [hc]
  cases a with
  | connect => cases ha
  | start => cases ha
  | enableReconnect plan => cases ha
  | stop => exact quiet_stop h
  | dropClient => exact quiet_dropClient s
  | refuse refuse => exact quiet_of_eq rfl rfl rfl (.inl rfl)
  | newFacade r name => exact (quiet_newFacade r s).trans (quiet_of_eq rfl rfl rfl (.inl rfl))
  | commandFacade => exact quiet_commandFacade s
  | dataFacade => exact quiet_dataFacade s
  | letGo name => exact hsame rfl
  | call id method args => exact quiet_call id method args s
  | askLiveness => exact quiet_askLiveness s
  | abort k => exact quiet_abort k s
  | peer i act => exact hsame rfl
  | pass ms => exact hsame rfl
  | turn t =>
    cases t with
    | dispatcher i => exact hsame rfl
    | server i =>
      show s.Quiet (s.serve i)
      unfold serve
      split
      · exact hsame rfl
      · exact .refl s
    | caller k => exact quiet_resume k s
    | task j => exact absurd rfl (ht j)

theorem owned_perform (h : s.Owned) (a : Action) : (s.perform a).Owned := by
  by_cases ht : ∃ j, a = .turn (.task j)
  · obtain ⟨j, rfl⟩ := ht
    exact h.wanes (wanes_runTask j s)
  · cases ha : a.asksForConnection with
    | false => exact h.wanes (quiet_perform h ha fun j hj => ht ⟨j, hj⟩).toWanes
    | true =>
      cases a with
      | connect => exact h.wanes (wanes_connect s)
      | start =>
        show s.start.2.Owned
        rcases start_eq s with heq | ⟨settings, heq⟩ <;> rw [heq]
        · exact h.wanes (wanes_connect s)
        · exact (h.wanes (wanes_connect s)).enableReconnect _
      | enableReconnect plan => exact h.enableReconnect plan
      | _ => cases ha

theorem owned_run (h : s.Owned) (actions : List Action) : (s.run actions).Owned := by
  induction actions generalizing s with
  | nil => exact h
  | cons a actions ih => exact ih (owned_perform h a)

/-! ## After a stop -/

theorem Calm.owned (h : s.Calm) : s.Owned := by
  intro j t ht hc ho
  rcases h t (List.mem_of_getElem? ht) with hc' | ho'
  · rw [hc] at hc'
    cases hc'
  · exact absurd ho' ho

/-- No tick is due, so that none begins. -/
theorem Calm.not_due (h : s.Calm) (j : Nat) (t : ReconnectTask) : ¬ s.Due j t := by
  intro hdue
  rcases h t (List.mem_of_getElem? hdue.task) with hcancelled | hover
  · rw [hdue.going] at hcancelled
    cases hcancelled
  · rw [hdue.resting] at hover
    cases hover

theorem ticking_modifyTask {t : ReconnectTask} (ht : s.client.tasks[j]? = some t)
    {f : ReconnectTask → ReconnectTask} (hf : (f t).isProbing = false) :
    (s.modifyTask j f).ticking + (if t.isProbing then 1 else 0) = s.ticking := by
  obtain ⟨hlt, rfl⟩ := List.getElem?_eq_some_iff.mp ht
  have hcount : (s.modifyTask j f).ticking = (s.client.tasks.set j (f s.client.tasks[j])).countP _ :=
    congrArg (List.countP ReconnectTask.isProbing) (modify_eq_set f ht)
  rw [hcount, List.countP_set hlt, hf, ticking]
  by_cases hp : s.client.tasks[j].isProbing = true
  · have hpos : 0 < s.client.tasks.countP ReconnectTask.isProbing :=
      List.countP_pos_iff.mpr ⟨_, List.getElem_mem hlt, hp⟩
    simp only [hp, if_true, Bool.false_eq_true, if_false]
    omega
  · simp only [hp, Bool.false_eq_true, if_false]
    omega

theorem ticks_modifyTask {f : ReconnectTask → ReconnectTask} (hf : ∀ t w, (f t).stage ≠ .probing w) {i : Nat}
    {t' : ReconnectTask} {w : Waiting} (ht' : (s.modifyTask j f).client.tasks[i]? = some t')
    (hw : t'.stage = .probing w) : s.client.tasks[i]? = some t' := by
  simp only [modifyTask, onClient] at ht'
  by_cases hji : j = i
  · subst hji
    cases ht : s.client.tasks[j]? with
    | none =>
      rw [List.getElem?_modify_eq, ht] at ht'
      cases ht'
    | some t =>
      rw [List.getElem?_modify_eq, ht] at ht'
      obtain rfl : f t = t' := Option.some.inj ht'
      exact absurd hw (hf t w)
  · rwa [List.getElem?_modify_ne _ _ hji] at ht'

/-- The end of a tick: one tick less, and one attempt more at most. -/
theorem ebbs_endTick (hc : s.Calm) {t : ReconnectTask} {w : Waiting} (ht : s.client.tasks[j]? = some t)
    (hw : t.stage = .probing w) (t₀ : ReconnectTask) (alive : Bool) : s.Ebbs (s.endTick j t₀ alive) := by
  have hwanes := wanes_conclude t₀.plan.callback alive s
  have htasks := tasks_conclude t₀.plan.callback alive s
  have hattempts := attempts_conclude t₀.plan.callback alive s
  unfold endTick
  generalize (s.conclude t₀.plan.callback alive).2 = m at hwanes htasks hattempts
  have ht' : m.client.tasks[j]? = some t := htasks ▸ ht
  have hrest : s.Ebbs (m.modifyTask j fun t => { t with stage := .resting }) := by
    have hticking := ticking_modifyTask ht' (f := fun t => { t with stage := .resting }) rfl
    have hone : t.isProbing = true := by simp [ReconnectTask.isProbing, hw]
    rw [hone, if_pos rfl] at hticking
    have hm : m.ticking = s.ticking := by rw [ticking, ticking, htasks]
    refine ⟨?_, fun i t' w' hi hw' => ⟨t', ?_, hw'⟩, ?_, ?_, fun hi => ?_⟩
    · exact (hc.wanes hwanes).wanes (wanes_modifyTask ht' rfl (by simp [hw]))
    · exact htasks ▸ ticks_modifyTask (fun t w => by simp) hi hw'
    · show s.attempts ≤ m.attempts
      omega
    · show m.attempts + _ ≤ _
      omega
    · rcases hattempts with ⟨heq, -⟩ | hmore
      · exact .inl (heq ▸ hi)
      · right
        show s.attempts < m.attempts
        omega
  exact hrest.trans ((quiet_releaseUnheld _).ebbs hrest.calm)

/-- A task that was cancelled begins no tick. -/
theorem ebbs_runTask (hc : s.Calm) (j : Nat) : s.Ebbs (s.runTask j) := by
  have hturn := taskTurn j s
  generalize s.runTask j = s' at hturn ⊢
  cases hturn with
  | idle => exact (Quiet.refl s).ebbs hc
  | @ends t w o ht hstage ho =>
    have hfinish : s.Ebbs (s.finish w) := by
      rw [finish_eq]
      exact (quiet_modify _ _ s).ebbs hc
    have ht' : (s.finish w).client.tasks[j]? = some t := by
      rw [finish_eq]
      exact ht
    exact hfinish.trans (ebbs_endTick hfinish.calm ht' hstage t _)
  | begins h => exact absurd h (hc.not_due j _)
  | retires ht hstage hno =>
    have hticking := ticking_modifyTask ht (f := fun t => { t with stage := .over }) rfl
    refine ⟨hc.wanes (wanes_modifyTask ht rfl (by simp [hstage])),
      fun i t' w' hi hw' => ⟨t', ticks_modifyTask (fun t w => by simp) hi hw', hw'⟩, Nat.le_refl _, ?_, .inl⟩
    show s.attempts + _ ≤ _
    omega

theorem ebbs_perform (h : s.Calm) {a : Action} (ha : a.asksForConnection = false) : s.Ebbs (s.perform a) := by
  by_cases ht : ∃ j, a = .turn (.task j)
  · obtain ⟨j, rfl⟩ := ht
    exact ebbs_runTask h j
  · exact (quiet_perform h.owned ha fun j hj => ht ⟨j, hj⟩).ebbs h

theorem ebbs_run (h : s.Calm) {actions : List Action} (ha : ∀ a ∈ actions, a.asksForConnection = false) :
    s.Ebbs (s.run actions) := by
  induction actions generalizing s with
  | nil => exact (Quiet.refl s).ebbs h
  | cons a actions ih =>
    have hstep := ebbs_perform h (ha a List.mem_cons_self)
    exact hstep.trans (ih hstep.calm fun b hb => ha b (List.mem_cons_of_mem a hb))

/-! ## Main statement -/

/-- **A stop is final but for the ticks that are under way.** Until the owner asks for a connection again, every task is
cancelled or over and no tick is due, so that none begins, not even one that would end in the same turn. Every attempt
is the end of a tick that was under way at the stop, and only such an attempt puts a connection in use. -/
theorem stop_leaves_ticks (config : Config) (codec : Codec) (before after : List Action)
    (hafter : ∀ a ∈ after, a.asksForConnection = false) :
    let stopped := ((ofConfig config codec).run before).perform .stop
    let s := stopped.run after
    stopped.client.installed = none ∧ s.Calm ∧ (∀ (j : Nat) (t : ReconnectTask), ¬ s.Due j t) ∧
      (∀ (j : Nat) (t : ReconnectTask) (w : Waiting), s.client.tasks[j]? = some t → t.stage = .probing w →
        ∃ t₀, stopped.client.tasks[j]? = some t₀ ∧ t₀.stage = .probing w) ∧
      s.attempts + s.ticking ≤ stopped.attempts + stopped.ticking ∧
      (s.client.installed ≠ none → stopped.attempts < s.attempts) ∧
      (stopped.ticking = 0 → s.attempts = stopped.attempts ∧ s.client.installed = none) := by
  intro stopped s
  have howned : ((ofConfig config codec).run before).Owned := owned_run (owned_ofConfig config codec) before
  have hcalm : stopped.Calm := calm_stop howned
  have hnone : stopped.client.installed = none := rfl
  have hebbs : stopped.Ebbs s := ebbs_run hcalm hafter
  have hinstalled (hi : s.client.installed ≠ none) : stopped.attempts < s.attempts :=
    (hebbs.installed hi).resolve_left fun h => h hnone
  have hle := hebbs.attempts_le
  have hebb := hebbs.ebb
  refine ⟨hnone, hebbs.calm, hebbs.calm.not_due, hebbs.ticks, hebb, hinstalled, fun hzero => ?_⟩
  have heq : s.attempts = stopped.attempts := by omega
  refine ⟨heq, ?_⟩
  by_contra hi
  have hlt := hinstalled hi
  omega

/-- The one tick under way at a stop makes the one attempt after it. -/
theorem one_attempt_after_stop :
    let before : List Action :=
      [.connect, .commandFacade, .enableReconnect { intervalMs := 1000 }, .pass 1000, .turn (.task 0)]
    let after : List Action := [.turn (.task 0), .pass 1000, .turn (.task 0)]
    let stopped := ((ofConfig {}).run before).perform .stop
    let s := stopped.run after
    (stopped.attempts = 1 ∧ stopped.ticking = 1 ∧ s.ticking = 0 ∧ s.client.installed = some 1) ∧
      stopped.attempts < s.attempts ∧ s.attempts ≤ 2 := by
  intro before after stopped s
  have hrun : stopped.attempts = 1 ∧ stopped.ticking = 1 ∧ s.ticking = 0 ∧ s.client.installed = some 1 := by
    decide +kernel
  obtain ⟨hattempts, hticking, hover, hi⟩ := hrun
  obtain ⟨-, -, -, -, hebb, hmore, -⟩ := stop_leaves_ticks {} .json before after (by decide)
  have hlt : stopped.attempts < s.attempts := hmore (by rw [hi]; simp)
  have hle : s.attempts + s.ticking ≤ stopped.attempts + stopped.ticking := hebb
  exact ⟨⟨hattempts, hticking, hover, hi⟩, hlt, by omega⟩

end RemoteCall.Session
