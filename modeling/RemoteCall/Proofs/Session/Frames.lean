import RemoteCall.Proofs.Session.Steps

/-!
# What a step leaves as it was

Time passes in no step but one, no façade is ever lost, and only its own turn and its going away change where a caller
stands.

* `beside_perform`: the frame of a step in which no time passes.
* `resume_of_outcome`: what a caller gets in its turn.
-/

namespace RemoteCall.Session

section Defs

/-- The caller whose matter something is. -/
def Action.caller? : Action → Option Nat
  | .abort k => some k
  | .turn (.caller k) => some k
  | _ => none

/-- No time has passed, no façade was lost, and all callers but one are as they were. -/
structure Beside (one : Option Nat) (s s' : Session) : Prop where
  now : s'.now = s.now
  callers : ∀ (k : Nat) (c : Caller), one ≠ some k → s.callers[k]? = some c → s'.callers[k]? = some c
  facades : s.client.facades <+: s'.client.facades

end Defs

variable {s s' : Session} {k : Nat} {c : Caller} {w : Waiting} {one : Option Nat}

/-! ## The turn of a caller -/

/-- A caller takes its answer: its call is finished, and it has ended. -/
theorem resume_of_outcome {o : Pending.Outcome} (hk : s.callers[k]? = some c) (hw : c.waiting? = some w)
    (ho : s.outcome? w = some o) : s.resume k = ({ s.finish w with
      callers := s.callers.set k { c with stage := .ended s.now (s.answerOf c.purpose o) } } :
        Session).releaseUnheld := by
  simp only [resume, hk, hw, ho]
  rw [finish_eq]
  rfl

theorem resume_of_no_outcome (hk : s.callers[k]? = some c) (hw : c.waiting? = some w)
    (ho : s.outcome? w = none) : s.resume k = s := by
  simp only [resume, hk, hw, ho]

theorem resume_of_not_waiting (hk : s.callers[k]? = some c) (hw : c.waiting? = none) : s.resume k = s := by
  simp only [resume, hk, hw]

/-! ## Frames -/

theorem Apart.beside (h : s.Apart s') (one : Option Nat) : s.Beside one s' :=
  ⟨h.now, fun k c _ hk => by rw [h.callers, hk], h.facades⟩

theorem beside_setCaller (w : Waiting) (f : Pending.Table → Pending.Table) (k : Nat) (c : Caller) (s : Session) :
    s.Beside (some k) ({ s.modify w.connection (Switchboard.onTable f) with
      callers := s.callers.set k c } : Session).releaseUnheld := by
  have hrelease := apart_releaseUnheld ({ s.modify w.connection (Switchboard.onTable f) with
    callers := s.callers.set k c } : Session)
  refine ⟨hrelease.now, fun j d hjk hj => ?_, hrelease.facades⟩
  rw [hrelease.callers]
  show (s.callers.set k c)[j]? = some d
  rw [List.getElem?_set_ne fun h => hjk (congrArg some h), hj]

theorem beside_resume (k : Nat) (s : Session) : s.Beside (some k) (s.resume k) := by
  have hrefl := (Apart.refl s).beside (some k)
  unfold resume
  split
  · exact hrefl
  · split
    · exact hrefl
    · rename_i w hw
      split
      · exact hrefl
      · dsimp only
        rw [finish_eq]
        exact beside_setCaller w _ k _ s

theorem beside_abort (k : Nat) (s : Session) : s.Beside (some k) (s.abort k) := by
  have hrefl := (Apart.refl s).beside (some k)
  unfold abort
  split
  · exact hrefl
  · split
    · exact hrefl
    · rename_i w hw
      dsimp only
      rw [forget_eq]
      exact beside_setCaller w _ k _ s

/-- A new caller leaves all others as they were. -/
theorem beside_addCaller (h : s.Apart s') (purpose : Purpose) (stage : CallerStage) :
    s.Beside one (s'.addCaller purpose stage).2 := by
  refine ⟨h.now, fun k c _ hk => ?_, h.facades⟩
  show (s'.callers ++ [_])[k]? = some c
  rw [h.callers, List.getElem?_append_left (List.getElem?_eq_some_iff.mp hk).1, hk]

theorem beside_call (id : FacadeId) (method : String) (args : List Json) (s : Session) :
    s.Beside one (s.call id method args).2 := by
  unfold call
  split
  · exact beside_addCaller (.refl s) _ _
  · rename_i f hf
    have h := apart_invoke f method args s
    split
    all_goals
      rename_i heq
      rw [heq] at h
      exact beside_addCaller h _ _

theorem apart_probe (s : Session) : s.Apart s.probe.2 := by
  rcases probe_cases s with ⟨alive, h⟩ | ⟨f, ⟨alive, h, -⟩ | ⟨w, h, -⟩⟩ <;> rw [h]
  · exact .refl s
  · exact apart_invoke f "ping" [] s
  · exact apart_invoke f "ping" [] s

theorem beside_askLiveness (s : Session) : s.Beside one s.askLiveness.2 := by
  have h := apart_probe s
  unfold askLiveness
  split
  all_goals
    rename_i heq
    rw [heq] at h
    exact beside_addCaller h _ _

theorem apart_modifyTask (j : Nat) (f : ReconnectTask → ReconnectTask) (s : Session) :
    s.Apart (s.modifyTask j f) :=
  ⟨rfl, rfl, List.prefix_rfl⟩

theorem apart_goOn (j : Nat) (t : ReconnectTask) (s : Session) : s.Apart (goOn j t s.probe) := by
  have h := apart_probe s
  generalize s.probe = p at h
  obtain ⟨answer, s'⟩ := p
  cases answer with
  | answered alive => exact h.trans (apart_endTick j t alive s')
  | asked w => exact h.trans (apart_modifyTask j _ s')

theorem apart_runTask (j : Nat) (s : Session) : s.Apart (s.runTask j) := by
  have hturn := taskTurn j s
  generalize s.runTask j = s' at hturn ⊢
  cases hturn with
  | idle => exact .refl s
  | ends ht hstage ho =>
    rw [finish_eq]
    exact (apart_modify _ _ s).trans (apart_endTick j _ _ _)
  | begins h =>
    rw [beginTick_eq]
    exact (apart_modifyTask j _ s).trans (apart_goOn j _ _)
  | retires => exact apart_modifyTask j _ s

/-- The frame of a step in which no time passes. -/
theorem beside_perform {a : Action} (hpass : ∀ ms, a ≠ .pass ms) (s : Session) :
    s.Beside a.caller? (s.perform a) := by
  have hsame {s' : Session} (hn : s'.now = s.now) (hc : s'.callers = s.callers)
      (hf : s'.client.facades = s.client.facades) : s.Beside a.caller? s' :=
    Apart.beside ⟨hn, hc, hf ▸ List.prefix_rfl⟩ _
  cases a with
  | connect => exact (apart_connect s).beside _
  | start => exact (apart_start s).beside _
  | stop => exact (apart_stop s).beside _
  | dropClient => exact (apart_dropClient s).beside _
  | enableReconnect plan => exact hsame rfl rfl rfl
  | refuse refuse => exact hsame rfl rfl rfl
  | newFacade r name =>
    have h := apart_newFacade r s
    exact ⟨h.now, (h.beside _).callers, h.facades⟩
  | commandFacade => exact (apart_commandFacade s).beside _
  | dataFacade => exact (apart_dataFacade s).beside _
  | letGo name => exact hsame rfl rfl rfl
  | call id method args => exact beside_call id method args s
  | askLiveness => exact beside_askLiveness s
  | abort k => exact beside_abort k s
  | peer i act => exact hsame rfl rfl rfl
  | pass ms => exact absurd rfl (hpass ms)
  | turn t =>
    cases t with
    | dispatcher i => exact hsame rfl rfl rfl
    | server i =>
      show s.Beside _ (s.serve i)
      unfold serve
      split
      · exact hsame rfl rfl rfl
      · exact (Apart.refl s).beside _
    | caller k => exact beside_resume k s
    | task j => exact (apart_runTask j s).beside _

theorem pass_or_beside (a : Action) (s : Session) :
    (∃ ms, a = .pass ms) ∨ s.Beside a.caller? (s.perform a) := by
  by_cases hpass : ∃ ms, a = .pass ms
  · exact .inl hpass
  · exact .inr (beside_perform (fun ms hms => hpass ⟨ms, hms⟩) s)

theorem facade?_perform {f : Facade} {id : FacadeId} (h : s.facade? id = some f) (a : Action) :
    (s.perform a).facade? id = some f := by
  rcases pass_or_beside a s with ⟨ms, rfl⟩ | hb
  · exact h
  · obtain ⟨more, hmore⟩ := hb.facades
    show (s.perform a).client.facades[id]? = some f
    rw [← hmore, List.getElem?_append_left (List.getElem?_eq_some_iff.mp h).1]
    exact h

theorem callers_perform {a : Action} (hk : s.callers[k]? = some c) (ha : a.caller? ≠ some k) :
    (s.perform a).callers[k]? = some c := by
  rcases pass_or_beside a s with ⟨ms, rfl⟩ | hb
  · exact hk
  · exact hb.callers k c ha hk

/-- Time does not run backwards. -/
theorem now_le_perform (a : Action) (s : Session) : s.now ≤ (s.perform a).now := by
  rcases pass_or_beside a s with ⟨ms, rfl⟩ | hb
  · exact Nat.le_add_right s.now ms
  · rw [hb.now]

end RemoteCall.Session
