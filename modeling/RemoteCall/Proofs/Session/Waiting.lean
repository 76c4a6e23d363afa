import RemoteCall.Proofs.Session.Probing

/-!
# Who waits on

A call without an outcome is waited for until its caller goes away. Callers and tasks that wait leave their place
only in a turn of their own, and a turn in which nothing has come does nothing.

* `Probes.perform`: a task inside a tick stays there while its ping has no outcome.
* `waits_on`: in any step that sends no caller away, who waits for a call without an outcome waits on.
-/

namespace RemoteCall.Session

variable {s s' : Session} {j k l : Nat} {w : Waiting} {a : Action}

/-! ## Tasks -/

theorem Probes.of_stages (h : s.Probes j w)
    (heq : s'.client.tasks.map ReconnectTask.stage = s.client.tasks.map ReconnectTask.stage) : s'.Probes j w := by
  obtain ⟨t, ht, hstage⟩ := h
  have hmap := congrArg (·[j]?) heq
  simp only [List.getElem?_map, ht, Option.map_some] at hmap
  obtain ⟨t', ht', hsame⟩ := Option.map_eq_some_iff.mp hmap
  exact ⟨t', ht', hsame.trans hstage⟩

theorem Probes.of_tasks (h : s.Probes j w) (heq : s'.client.tasks = s.client.tasks) : s'.Probes j w :=
  h.of_stages (congrArg _ heq)

theorem Probes.modifyTask_of_ne (h : s.Probes j w) (hne : l ≠ j) (f : ReconnectTask → ReconnectTask) :
    (s.modifyTask l f).Probes j w := by
  obtain ⟨t, ht, hstage⟩ := h
  exact ⟨t, (List.getElem?_modify_ne _ _ hne).trans ht, hstage⟩

theorem Probes.endTick (h : s.Probes j w) (hne : l ≠ j) (t : ReconnectTask) (alive : Bool) :
    (s.endTick l t alive).Probes j w := by
  have hconclude : (s.conclude t.plan.callback alive).2.Probes j w := h.of_tasks (tasks_conclude _ _ s)
  exact (hconclude.modifyTask_of_ne hne _).of_stages (quiet_releaseUnheld _).stages

/-- The turn of another task. -/
theorem Probes.runTask_of_ne (h : s.Probes j w) (hne : l ≠ j) : (s.runTask l).Probes j w := by
  have hturn := taskTurn l s
  generalize s.runTask l = s' at hturn ⊢
  cases hturn with
  | idle => exact h
  | @ends t w' o ht hstage ho =>
    rw [finish_eq]
    have hleft : (s.modify w'.connection (Switchboard.onTable (Pending.Table.finish w'.ticket))).Probes j w := h
    exact hleft.endTick hne t _
  | @begins t hdue =>
    rw [beginTick_eq]
    have htake := h.modifyTask_of_ne hne (ReconnectTask.takeTick s.now)
    have hprobe : (s.modifyTask l (ReconnectTask.takeTick s.now)).probe.2.Probes j w :=
      htake.of_tasks (by rw [tasks_probe])
    generalize (s.modifyTask l (ReconnectTask.takeTick s.now)).probe = p at hprobe
    obtain ⟨answer, s₂⟩ := p
    cases answer with
    | answered alive => exact hprobe.endTick hne t alive
    | asked w' => exact hprobe.modifyTask_of_ne hne _
  | retires => exact h.modifyTask_of_ne hne _

/-- A task whose ping has no outcome does nothing in its turn. -/
theorem runTask_of_no_outcome (h : s.Probes j w) (ho : s.outcome? w = none) : s.runTask j = s := by
  obtain ⟨t, ht, hstage⟩ := h
  simp only [runTask, ht, hstage, ho]

theorem Probes.enableReconnect (h : s.Probes j w) (howned : s.Owned) (plan : ReconnectPlan) :
    (s.enableReconnect plan).Probes j w := by
  -- the tasks are those that a stop would leave, and a new one
  obtain ⟨t, ht, hstage⟩ := h.of_stages (quiet_stop howned).stages
  have htasks : (s.enableReconnect plan).client.tasks = s.stop.client.tasks ++ [.start s.now plan] := by
    rw [tasks_stop]
    rfl
  refine ⟨t, ?_, hstage⟩
  rw [htasks, List.getElem?_append_left (List.getElem?_eq_some_iff.mp ht).1, ht]

/-- A task inside a tick stays there while its ping has no outcome. -/
theorem Probes.perform (h : s.Probes j w) (howned : s.Owned) (ho : s.outcome? w = none) (a : Action) :
    (s.perform a).Probes j w := by
  have hconnect : s.connect.2.Probes j w := h.of_tasks (tasks_connect s)
  by_cases htask : ∃ l, a = .turn (.task l)
  · obtain ⟨l, rfl⟩ := htask
    show (s.runTask l).Probes j w
    by_cases hl : l = j
    · rw [hl, runTask_of_no_outcome h ho]
      exact h
    · exact h.runTask_of_ne hl
  · cases ha : a.asksForConnection with
    | false => exact h.of_stages (quiet_perform howned ha fun l hl => htask ⟨l, hl⟩).stages
    | true =>
      cases a with
      | connect => exact hconnect
      | start =>
        show s.start.2.Probes j w
        rcases start_eq s with heq | ⟨settings, heq⟩ <;> rw [heq]
        · exact hconnect
        · exact hconnect.enableReconnect (howned.wanes (wanes_connect s)) _
      | enableReconnect plan => exact h.enableReconnect howned plan
      | _ => cases ha

/-! ## Callers -/

/-- Whose call has no outcome waits on, unless it goes away. -/
theorem waitsFor?_perform (h : s.waitsFor? k = some w) (ho : s.outcome? w = none) (ha : a ≠ .abort k) :
    (s.perform a).waitsFor? k = some w := by
  obtain ⟨c, hc, hw⟩ := Option.bind_eq_some_iff.mp h
  by_cases hturn : a.caller? = some k
  · rw [eq_turn_of_caller? hturn ha]
    show (s.resume k).waitsFor? k = some w
    rw [resume_of_no_outcome hc hw ho]
    exact h
  · rw [waitsFor?, callers_perform hc hturn]
    exact hw

/-- Who waits is a caller, or a task inside a tick. -/
theorem waiters_cases (hw : w ∈ s.waiters) : (∃ k, s.waitsFor? k = some w) ∨ ∃ j, s.Probes j w := by
  rcases Multiset.mem_add.mp hw with hcaller | htask
  · obtain ⟨c, hc, hwait⟩ := List.mem_filterMap.mp (Multiset.mem_coe.mp hcaller)
    obtain ⟨k, hk⟩ := List.mem_iff_getElem?.mp hc
    exact .inl ⟨k, by simp [waitsFor?, hk, hwait]⟩
  · obtain ⟨t, ht, hprobe⟩ := List.mem_filterMap.mp (Multiset.mem_coe.mp htask)
    obtain ⟨j, hj⟩ := List.mem_iff_getElem?.mp ht
    refine .inr ⟨j, t, hj, ?_⟩
    unfold ReconnectTask.probing? at hprobe
    split at hprobe
    · rename_i w' hstage
      rw [hstage, Option.some.inj hprobe]
    · cases hprobe

/-- In a step that sends no caller away, who waits for a call without an outcome waits on. -/
theorem waits_on (howned : s.Owned) (hw : w ∈ s.waiters) (ho : s.outcome? w = none) (ha : ∀ k, a ≠ .abort k) :
    w ∈ (s.perform a).waiters := by
  rcases waiters_cases hw with ⟨k, hwaits⟩ | ⟨j, hprobes⟩
  · exact mem_waiters (waitsFor?_perform hwaits ho (ha k))
  · exact (hprobes.perform howned ho a).mem_waiters

end RemoteCall.Session
