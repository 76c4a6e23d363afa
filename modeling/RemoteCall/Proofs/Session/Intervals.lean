import RemoteCall.Config.File
import RemoteCall.Proofs.Session.Schedule
import RemoteCall.Proofs.Session.Lively

/-!
# Which intervals make lost connections again

The interval between the ticks of a task is any number of seconds that a configuration gives, and nothing looks at it
before the task does. A task that can follow its plan makes one attempt at each multiple of the interval while all attempts
are refused. One that cannot has ended when its client has started: the client never makes a lost connection again, and
nobody hears of it.

* `tries`: the attempts to connect that a task makes in a run.
* `CutOff`: nothing is connected, and attempts are refused. `CutOff.perform`: it stays so.
* `InVain`: what a step of a client that is cut off adds to the attempts and to the diary of a task.
* `EveryIntervalServes`: that every configuration keeps a client trying. `not_everyIntervalServes`: an interval of zero does
  not.
* `intervals_that_serve`: which intervals do.
-/

namespace RemoteCall.Session

section Defs

/-- No connection is active, and attempts to connect are refused. -/
structure CutOff (s : Session) : Prop where
  inactive : s.isTransportActive = false
  refused : s.accepts = false

/-- The moments of the attempts to connect that a task makes in a step. -/
def triesIn (j : Nat) (a : Action) (s : Session) : List Nat :=
  match a with
  | .turn (.task k) => if k = j then List.replicate ((s.perform a).attempts - s.attempts) s.now else []
  | _ => []

/-- The moments of the attempts to connect that a task makes in a run. -/
def tries (j : Nat) : List Action → Session → List Nat
  | [], _ => []
  | a :: actions, s => s.triesIn j a ++ tries j actions (s.perform a)

/-- The moments up to now that lie a number of whole intervals after a moment. -/
def multiples (start interval now : Nat) : List Nat :=
  (List.range ((now - start) / interval)).map fun n => start + (n + 1) * interval

/-- A client that has started keeps trying to connect, whatever interval its configuration gives: its task has not ended,
and if it is cut off the task makes an attempt at each multiple of the interval. -/
def EveryIntervalServes : Prop :=
  ∀ (name : String) (content : Bytes) (config : Config) (settings : ReconnectSettings) (before after : List Action),
    Config.load name (some content) = .ok config → config.autoReconnect = some settings →
    let s := (ofConfig config).run before
    let started := s.perform .start
    let final := started.run after
    let j := s.client.tasks.length
    (∃ t, started.client.tasks[j]? = some t ∧ t.stage ≠ .over) ∧
      (started.CutOff → (∀ a ∈ after, a ≠ .refuse false) → OnClock after started →
        (∀ a ∈ after, a.endsTask config = false) → final.client.released = false → final.AtRest →
        started.tries j after = multiples s.now (settings.intervalSecs.toNat * 1000) final.now)

/-- What a step adds to the attempts and to the diary of a task if the client is cut off: nothing, or a tick that makes one
attempt and ends. -/
inductive InVain (now : Nat) : List Nat → List Mark → Prop
  | nothing : InVain now [] []
  | tick : InVain now [now] [.began now, .ended now]

end Defs

/-- The task of a client with an interval of zero has ended when the client has started. -/
theorem not_everyIntervalServes : ¬ EveryIntervalServes := by
  intro h
  obtain ⟨⟨t, ht, hgoing⟩, -⟩ := h "client.json" (Utf8.octets "\x7b\x22auto_reconnect\x22:\x7b\x22interval_secs\x22:0\x7d\x7d")
    { autoReconnect := some { intervalSecs := 0 } } { intervalSecs := 0 } [] [] (by decide +kernel) rfl
  have hover : ((ofConfig { autoReconnect := some { intervalSecs := 0 } }).perform .start).client.tasks[0]? =
      some { plan := { intervalMs := 0 }, next := 0, stage := .over } := rfl
  cases ht.symm.trans hover
  exact hgoing rfl

variable {s s' : Session} {i j : Nat} {c c' : Connection} {t : ReconnectTask} {a : Action} {actions : List Action}
  {marks : List Mark} {last start interval now m : Nat} {kept : Prop} {E : List Event}

/-! ## While attempts are refused -/

theorem Deed.accepts (h : s.Deed kept E s') : s'.accepts = s.accepts := by
  have hasked {m : Session} (ha : s.Asked m) : m.accepts = s.accepts := by
    obtain ⟨connections, rfl⟩ := ha.frame
    rfl
  cases h with
  | held ha hc => exact hc.accepts.trans (hasked ha)
  | @givenUp m u ha hc h hno =>
    have hrelease : u.release.accepts = u.accepts := by rw [Session.accepts, client_release, Session.accepts]
    rw [h, hrelease]
    exact hc.accepts.trans (hasked ha)

theorem accepts_newFacade (r : FacadeRequest) (s : Session) : (s.newFacade r).2.accepts = s.accepts := by
  unfold newFacade obtain
  dsimp only
  split <;> rfl

/-- Whether attempts are accepted is decided outside of the client. -/
theorem accepts_perform (ha : ∀ refuse, a ≠ .refuse refuse) : (s.perform a).accepts = s.accepts := by
  have hdeed {E : List Event} {s' : Session} (h : s.Deed True E s') : s'.accepts = s.accepts := h.accepts
  cases a with
  | connect => exact hdeed (.held .nothing (.attempt s))
  | start => exact hdeed (.held .nothing (course_start s))
  | stop => exact hdeed (.held .nothing (course_stop s))
  | dropClient =>
    have hdrop : Deed True (s.onClient fun c => { c with owned := false }) [] s.dropClient :=
      deed_releaseUnheld .nothing (.refl _)
    exact hdrop.accepts
  | enableReconnect plan => rfl
  | refuse refuse => exact absurd rfl (ha refuse)
  | newFacade r name => exact accepts_newFacade r s
  | commandFacade =>
    show s.commandFacade.2.accepts = _
    unfold commandFacade
    split
    · rfl
    · exact accepts_newFacade _ s
  | dataFacade =>
    show s.dataFacade.2.accepts = _
    unfold dataFacade
    split
    · rfl
    · exact accepts_newFacade _ s
  | letGo name => rfl
  | call id method args => exact hdeed (deed_call id method args s)
  | askLiveness => exact hdeed (deed_askLiveness s)
  | abort k => exact hdeed (deed_abort k s)
  | peer i act => rfl
  | pass ms => rfl
  | turn turn =>
    cases turn with
    | dispatcher i => rfl
    | server i =>
      show (s.serve i).accepts = _
      unfold serve
      split <;> rfl
    | caller k => exact hdeed (deed_resume k s)
    | task k => exact hdeed (deed_task k s)

theorem Course.length_of_refused (h : Course kept s E s') (hr : s.accepts = false) :
    s'.connections.length = s.connections.length := by
  induction h with
  | aside h => rw [h.connections]
  | leave hf => exact List.length_modify ..
  | attempt s => rw [length_connect, hr]; rfl
  | disconnect s => exact length_teardownInstalled s
  | trans h h' ih ih' => exact (ih' (h.accepts.trans hr)).trans (ih hr)

theorem Deed.length_of_refused (h : s.Deed kept E s') (hr : s.accepts = false) :
    s'.connections.length = s.connections.length := by
  have hasked {m : Session} (ha : s.Asked m) : m.accepts = false := by
    obtain ⟨connections, rfl⟩ := ha.frame
    exact hr
  cases h with
  | held ha hc => exact (hc.length_of_refused (hasked ha)).trans ha.length
  | givenUp ha hc h hno => exact h ▸ (length_release _).trans ((hc.length_of_refused (hasked ha)).trans ha.length)

/-- No step makes a connection while attempts are refused. -/
theorem length_of_refused (hr : s.accepts = false) (a : Action) :
    (s.perform a).connections.length = s.connections.length := by
  cases manner a s with
  | peer i act hp he h => rw [h]; exact List.length_modify ..
  | dispatcher i h => subst h; exact List.length_modify ..
  | facade ha hp he h => rw [h.connections]
  | idle hp he h hs => rw [h.connections]
  | deed hp h => exact h.length_of_refused hr

theorem Goes.inactive (h : Goes a s i c c') (ha : c.link.active = false) : c'.link.active = false := by
  cases h with
  | acted act hp h => exact h ▸ (c.onward_act act).inactive ha
  | turned hturn h => exact h ▸ (c.onward_dispatch s.now).inactive ha
  | kept written hr hl => rw [hl]; exact ha

/-- A client that is cut off stays so as long as attempts are refused. -/
theorem CutOff.perform (h : s.CutOff) (ha : a ≠ .refuse false) : (s.perform a).CutOff where
  refused := by
    by_cases hrefuse : ∃ refuse, a = .refuse refuse
    · obtain ⟨refuse, rfl⟩ := hrefuse
      cases refuse with
      | false => exact absurd rfl ha
      | true => rfl
    · exact (accepts_perform fun refuse hr => hrefuse ⟨refuse, hr⟩).trans h.refused
  inactive := by
    by_contra hactive
    rw [Bool.not_eq_false, isTransportActive_iff] at hactive
    obtain ⟨i, c', hi, hc', hlive⟩ := hactive
    rcases inUse_perform hi hc' with ⟨c, hinstalled, hc, hgoes⟩ | ⟨hnone, -⟩
    · have hdead : c.link.active = false := by
        by_contra hlink
        have hbefore := isTransportActive_iff.mpr ⟨i, c, hinstalled, hc, Bool.not_eq_false _ ▸ hlink⟩
        rw [h.inactive] at hbefore
        cases hbefore
      rw [hgoes.inactive hdead] at hlive
      cases hlive
    · have hlt := (List.getElem?_eq_some_iff.mp hc').1
      rw [length_of_refused h.refused] at hlt
      exact absurd hlt (Nat.not_lt_of_le (List.getElem?_eq_none_iff.mp hnone))

/-! ## Ticks in vain -/

theorem attempts_endTick (j : Nat) (t : ReconnectTask) (s : Session) :
    (s.endTick j t false).attempts = s.attempts + 1 := by
  have hconclude : (s.conclude t.plan.callback false).2.attempts = s.attempts + 1 := by
    rw [(conclude_dead t.plan.callback s).2]
    exact (attempts_connect s.disconnect).trans (congrArg (· + 1) (quiet_disconnect s).attempts)
  exact (quiet_releaseUnheld _).attempts.trans hconclude

theorem triesIn_turn (j : Nat) (s : Session) : s.triesIn j (.turn (.task j)) =
    List.replicate ((s.perform (.turn (.task j))).attempts - s.attempts) s.now := if_pos rfl

theorem triesIn_of_ne (ha : a ≠ .turn (.task j)) : s.triesIn j a = [] := by
  unfold triesIn
  split
  · exact if_neg fun heq => ha (by rw [heq])
  · rfl

/-- In a step that is not its own turn a task is left as it is, or is cancelled. -/
theorem left_of_ne (howned : s.Owned) (ht : s.client.tasks[j]? = some t) (ha : a ≠ .turn (.task j)) :
    ∃ t', (s.perform a).client.tasks[j]? = some t' ∧ (t' = t ∨ t' = t.cancel) := by
  obtain ⟨x, t', hmove, ht', hleft⟩ := task_perform howned ht a
  cases hmove with
  | stays => exact ⟨t', ht', hleft.imp_right And.left⟩
  | begins hturn => exact absurd hturn ha
  | ends hturn => exact absurd hturn ha
  | retires hturn => exact absurd hturn ha

/-- A task that is not inside a tick and takes none adds nothing to its diary. -/
theorem marks_of_same {t' : ReconnectTask} (ht : s.client.tasks[j]? = some t)
    (ht' : (s.perform a).client.tasks[j]? = some t') (hnext : t'.next = t.next) (hrest : t.isProbing = false) :
    s.marks j a = [] := by
  rw [marks_eq ht ht', hnext, hrest]
  simp

/-- A tick that begins while a client is cut off makes one attempt and ends. -/
theorem inVain_tick (h : s.CutOff) (hdue : Due j t s) (hpos : 0 < t.plan.intervalMs) :
    ∃ t', (s.perform (.turn (.task j))).client.tasks[j]? = some t' ∧ t'.plan = t.plan ∧ t'.isProbing = false ∧
      InVain s.now (s.triesIn j (.turn (.task j))) (s.marks j (.turn (.task j))) := by
  -- the tick knows at once that nothing is connected
  have hprobe : (s.modifyTask j (ReconnectTask.takeTick s.now)).probe =
      (.answered false, s.modifyTask j (ReconnectTask.takeTick s.now)) := by
    have hinactive : (s.modifyTask j (ReconnectTask.takeTick s.now)).isTransportActive = false := h.inactive
    simp [probe, hinactive]
  have hperform := hdue.perform_of_answered hprobe
  obtain ⟨t', ht', hleft⟩ := task_endTick (task_modifyTask hdue.task (ReconnectTask.takeTick s.now)) t false
  have hsame : t'.plan = t.plan ∧ t'.next = (t.takeTick s.now).next ∧ t'.isProbing = false := by
    rcases hleft with rfl | ⟨rfl, -⟩ <;> exact ⟨rfl, rfl, rfl⟩
  obtain ⟨hplan, hnext, hafter⟩ := hsame
  have htries : s.triesIn j (.turn (.task j)) = [s.now] := by
    rw [triesIn_turn, hperform, attempts_endTick, show (s.modifyTask j (ReconnectTask.takeTick s.now)).attempts + 1 -
      s.attempts = 1 from Nat.add_sub_cancel_left ..]
    rfl
  have hmarks : s.marks j (.turn (.task j)) = [.began s.now, .ended s.now] := by
    have hmore := ReconnectTask.next_le_takeTick s.now t
    have hne : (t.next != t'.next) = true := bne_iff_ne.mpr (by omega)
    rw [marks_eq hdue.task (hperform ▸ ht'), hne, hafter]
    rfl
  rw [htries, hmarks]
  exact ⟨t', hperform ▸ ht', hplan, hafter, .tick⟩

/-- What any step adds to the attempts and to the diary of a task if the client is cut off. -/
theorem inVain_perform (h : s.CutOff) (howned : s.Owned) (ht : s.client.tasks[j]? = some t)
    (hpos : 0 < t.plan.intervalMs) (hrest : t.isProbing = false) (a : Action) :
    ∃ t', (s.perform a).client.tasks[j]? = some t' ∧ t'.plan = t.plan ∧ t'.isProbing = false ∧
      InVain s.now (s.triesIn j a) (s.marks j a) := by
  by_cases ha : a = .turn (.task j)
  · subst ha
    obtain ⟨s', hs', hturn⟩ : ∃ s', s.perform (.turn (.task j)) = s' ∧ TaskTurn j s s' := ⟨_, rfl, taskTurn j s⟩
    cases hturn with
    | idle =>
      have ht' : (s.perform (.turn (.task j))).client.tasks[j]? = some t := by rw [hs', ht]
      rw [triesIn_turn, marks_of_same ht ht' rfl hrest, hs', Nat.sub_self]
      exact ⟨t, ht, rfl, hrest, .nothing⟩
    | ends ht' hstage ho =>
      cases ht.symm.trans ht'
      simp [ReconnectTask.isProbing, hstage] at hrest
    | begins hdue =>
      cases ht.symm.trans hdue.task
      exact inVain_tick h hdue hpos
    | retires ht' hstage hno =>
      cases ht.symm.trans ht'
      have hover : (s.perform (.turn (.task j))).client.tasks[j]? = some { t with stage := .over } := by
        rw [hs']
        exact task_modifyTask ht _
      have hattempts : (s.perform (.turn (.task j))).attempts = s.attempts := by
        rw [hs']
        rfl
      rw [triesIn_turn, marks_of_same ht hover rfl hrest, hattempts, Nat.sub_self]
      exact ⟨_, hover, rfl, rfl, .nothing⟩
  · obtain ⟨t', ht', hleft⟩ := left_of_ne howned ht ha
    have hsame : t'.plan = t.plan ∧ t'.next = t.next ∧ t'.isProbing = t.isProbing := by
      rcases hleft with rfl | rfl <;> exact ⟨rfl, rfl, rfl⟩
    obtain ⟨hplan, hnext, hinside⟩ := hsame
    rw [triesIn_of_ne ha, marks_of_same ht ht' hnext hrest]
    exact ⟨t', ht', hplan, hinside.trans hrest, .nothing⟩

/-- While a client is cut off each tick of a task makes one attempt, and takes no time. -/
theorem tries_of_cutOff (h : s.CutOff) (howned : s.Owned) (ht : s.client.tasks[j]? = some t)
    (hpos : 0 < t.plan.intervalMs) (hrest : t.isProbing = false) (hrefuse : ∀ a ∈ actions, a ≠ .refuse false)
    (last : Nat) : s.tries j actions = begins (s.diary j actions) ∧ Brief last (s.diary j actions) ∧
      (s.run actions).isTicking j = false := by
  induction actions generalizing s t last with
  | nil =>
    refine ⟨rfl, trivial, ?_⟩
    rw [run_nil, isTicking, ht, Option.any_some, hrest]
  | cons a actions ih =>
    obtain ⟨t', ht', hplan, hrest', hadds⟩ := inVain_perform h howned ht hpos hrest a
    have hlater := ih (h.perform (hrefuse a List.mem_cons_self)) (owned_perform howned a) ht' (hplan ▸ hpos) hrest'
      fun b hb => hrefuse b (List.mem_cons_of_mem a hb)
    rw [tries, diary]
    generalize s.triesIn j a = moments at hadds ⊢
    generalize s.marks j a = new at hadds ⊢
    cases hadds with
    | nothing => exact hlater last
    | tick =>
      obtain ⟨htries, hbrief, hticking⟩ := hlater s.now
      exact ⟨congrArg (s.now :: ·) htries, ⟨rfl, hbrief⟩, hticking⟩

/-! ## Tasks that have ended -/

theorem idle_of_over (ht : s.client.tasks[j]? = some t) (hover : t.stage = .over) :
    s.perform (.turn (.task j)) = s := by
  show s.runTask j = s
  simp only [runTask, ht, hover]

/-- A task that has ended stays so, and does nothing. -/
theorem over_perform (howned : s.Owned) (ht : s.client.tasks[j]? = some t) (hover : t.stage = .over) (a : Action) :
    s.triesIn j a = [] ∧ ∃ t', (s.perform a).client.tasks[j]? = some t' ∧ t'.stage = .over := by
  by_cases ha : a = .turn (.task j)
  · subst ha
    rw [triesIn_turn, idle_of_over ht hover, Nat.sub_self]
    exact ⟨rfl, t, ht, hover⟩
  · obtain ⟨t', ht', hleft⟩ := left_of_ne howned ht ha
    refine ⟨triesIn_of_ne ha, t', ht', ?_⟩
    rcases hleft with rfl | rfl <;> exact hover

theorem over_run (howned : s.Owned) (ht : s.client.tasks[j]? = some t) (hover : t.stage = .over)
    (actions : List Action) : s.tries j actions = [] ∧
      (s.run actions).perform (.turn (.task j)) = s.run actions := by
  induction actions generalizing s t with
  | nil => exact ⟨rfl, idle_of_over ht hover⟩
  | cons a actions ih =>
    obtain ⟨hnone, t', ht', hover'⟩ := over_perform howned ht hover a
    obtain ⟨htries, hidle⟩ := ih (owned_perform howned a) ht' hover'
    exact ⟨by rw [tries, hnone, htries]; rfl, hidle⟩

/-! ## Attempts and multiples -/

theorem now_le_run (actions : List Action) (s : Session) : s.now ≤ (s.run actions).now := by
  induction actions generalizing s with
  | nil => exact Nat.le_refl _
  | cons a actions ih => exact Nat.le_trans (now_le_perform a s) (ih _)

theorem le_now_of_mem_tries (h : m ∈ s.tries j actions) : m ≤ (s.run actions).now := by
  induction actions generalizing s with
  | nil => cases h
  | cons a actions ih =>
    rw [tries, List.mem_append] at h
    rcases h with h | h
    · refine Nat.le_trans ?_ (Nat.le_trans (now_le_perform a s) (now_le_run actions _))
      unfold triesIn at h
      split at h
      · split at h
        · exact Nat.le_of_eq (List.eq_of_mem_replicate h)
        · cases h
      · cases h
    · exact ih h

theorem onClock_append {first second : List Action} :
    OnClock (first ++ second) s ↔ OnClock first s ∧ OnClock second (s.run first) := by
  induction first generalizing s with
  | nil => exact ⟨fun h => ⟨trivial, h⟩, fun h => h.2⟩
  | cons a first ih => exact (and_congr_right fun _ => ih).trans and_assoc.symm

theorem diary_append (j : Nat) (first second : List Action) (s : Session) :
    s.diary j (first ++ second) = s.diary j first ++ (s.run first).diary j second := by
  induction first generalizing s with
  | nil => rfl
  | cons a first ih => rw [List.cons_append, diary, ih, ← List.append_assoc, diary, run_cons]

/-- Moments that follow each other at the distance of an interval are the first multiples, and all up to now if the next one
is still to come. -/
theorem prefix_multiples {moments : List Nat} (hpos : 0 < interval)
    (h : ∀ n m, moments[n]? = some m → m = start + (n + 1) * interval) (hle : ∀ m ∈ moments, m ≤ now) :
    moments <+: multiples start interval now ∧
      (now < start + (moments.length + 1) * interval → moments = multiples start interval now) := by
  have hlength : moments.length ≤ (now - start) / interval := by
    rw [Nat.le_div_iff_mul_le hpos]
    rcases Nat.eq_zero_or_pos moments.length with hnone | hsome
    · rw [hnone, Nat.zero_mul]
      exact Nat.zero_le _
    · have hlast := List.getElem?_eq_getElem (Nat.sub_one_lt_of_lt hsome)
      have hm := h _ _ hlast
      have hnow := hle _ (List.mem_of_getElem? hlast)
      rw [Nat.sub_add_cancel hsome] at hm
      omega
  have htake : (multiples start interval now).take moments.length = moments := by
    rw [multiples, ← List.map_take, List.take_range, Nat.min_eq_left hlength]
    refine List.ext_getElem (by simp) fun n hn hn' => ?_
    rw [List.getElem_map, List.getElem_range]
    exact (h n _ (List.getElem?_eq_getElem hn')).symm
  refine ⟨htake ▸ List.take_prefix _ _, fun hnext => ?_⟩
  have hall : (multiples start interval now).length ≤ moments.length := by
    have hlt : (now - start) / interval < moments.length + 1 := by
      have hmore : 0 < (moments.length + 1) * interval := Nat.mul_pos (Nat.succ_pos _) hpos
      rw [Nat.div_lt_iff_lt_mul hpos]
      omega
    rw [multiples, List.length_map, List.length_range]
    omega
  exact htake.symm.trans (List.take_of_length_le hall)

/-- The attempts of a task that follows its plan on a virtual clock while its client is cut off. -/
theorem tries_eq_multiples (h : s.CutOff) (howned : s.Owned) (ht : s.client.tasks[j]? = some t)
    (hpos : 0 < t.plan.intervalMs) (hrest : t.isProbing = false) (hnext : t.next = s.now + t.plan.intervalMs)
    (hrefuse : ∀ a ∈ actions, a ≠ .refuse false) (hclock : OnClock actions s) :
    s.tries j actions <+: multiples s.now t.plan.intervalMs (s.run actions).now ∧
      (¬ Halted t → (∀ a ∈ actions, a.endsTask s.client.config = false) → (s.run actions).client.released = false →
        (s.run actions).AtRest → s.tries j actions = multiples s.now t.plan.intervalMs (s.run actions).now) := by
  obtain ⟨htries, hbrief, hticking⟩ := tries_of_cutOff h howned ht hpos hrest hrefuse s.now
  have hmoments := (scheduled_diary howned ht hpos hrest hnext hclock).brief hbrief
  rw [← htries] at hmoments
  obtain ⟨hbegin, hall⟩ := prefix_multiples hpos hmoments fun m hm => le_now_of_mem_tries hm
  refine ⟨hbegin, fun hgoing hends hheld hatRest => hall ?_⟩
  -- nothing is due, so that time could pass
  have hclock' : OnClock (actions ++ [.pass 1]) s := by
    refine onClock_append.mpr ⟨hclock, fun ms hms => ?_, trivial⟩
    cases hms
    exact ⟨hatRest, fun m _ hlt => hlt⟩
  have hends' : ∀ a ∈ actions ++ [.pass 1], a.endsTask s.client.config = false := by
    intro a ha
    rcases List.mem_append.mp ha with ha | ha
    · exact hends a ha
    · rw [List.mem_singleton.mp ha]
      rfl
  have hrun : s.run (actions ++ [.pass 1]) = (s.run actions).perform (.pass 1) := run_append actions [.pass 1] s
  have hdiary : s.diary j (actions ++ [.pass 1]) = s.diary j actions := by
    rw [diary_append, diary, marks_pass, diary]
    exact List.append_nil _
  have hkeeps := keepsUp_diary howned ht hpos hrest hnext hclock' hgoing hends' (by rw [hrun]; exact hheld)
  rw [hrun, hdiary] at hkeeps
  have hlate := hkeeps.brief hbrief hticking
  rw [← htries] at hlate
  exact hlate

/-! ## Main statement -/

/-- **Which intervals keep a client trying.** When a client has started whose configuration asks for it, its task has ended
already if the interval is zero or its first tick would be out of the range of the clock, and then it never makes an attempt.
Any other interval serves: while the client is cut off the task makes one attempt at each multiple of it, and has made all
up to now when nothing is left to do, unless the task was ended. -/
theorem intervals_that_serve (config : Config) (codec : Codec) (settings : ReconnectSettings)
    (before after : List Action) :
    config.autoReconnect = some settings →
    let s := (ofConfig config codec).run before
    let started := s.perform .start
    let final := started.run after
    let j := s.client.tasks.length
    let interval := settings.intervalSecs.toNat * 1000
    (∃ t, started.client.tasks[j]? = some t ∧
      (t.stage = .over ↔ interval = 0 ∨ Connection.clockEnd ≤ s.now + interval)) ∧
    (interval = 0 ∨ Connection.clockEnd ≤ s.now + interval →
      started.tries j after = [] ∧ final.perform (.turn (.task j)) = final) ∧
    (0 < interval → s.now + interval < Connection.clockEnd → started.CutOff → (∀ a ∈ after, a ≠ .refuse false) →
      OnClock after started →
      started.tries j after <+: multiples s.now interval final.now ∧
        ((∀ a ∈ after, a.endsTask config = false) → final.client.released = false → final.AtRest →
          started.tries j after = multiples s.now interval final.now)) := by
  intro hsettings s started final j interval
  have hconfig : s.client.config = config := config_run before _
  have hconfig' : started.client.config = config := (config_perform .start s).trans hconfig
  have howned : started.Owned := owned_perform (owned_run (owned_ofConfig config codec) before) .start
  have hnow : started.now = s.now := by
    rcases pass_or_beside .start s with ⟨ms, hpass⟩ | hb
    · cases hpass
    · exact hb.now
  have henables : Action.enables? s.client.config .start = some (.ofSettings settings) := by
    rw [hconfig, Action.enables?, hsettings]
    rfl
  obtain ⟨ht, -⟩ := task_of_enables henables
  have hfollowable : (ReconnectPlan.ofSettings settings).isFollowable s.now = true ↔
      0 < interval ∧ s.now + interval < Connection.clockEnd := decide_eq_true_iff
  have hdead (h : interval = 0 ∨ Connection.clockEnd ≤ s.now + interval) :
      started.client.tasks[j]? = some { plan := .ofSettings settings, next := s.now, stage := .over } := by
    rw [ReconnectTask.start, if_neg (by rw [hfollowable]; omega)] at ht
    exact ht
  have halive (h : 0 < interval ∧ s.now + interval < Connection.clockEnd) :
      started.client.tasks[j]? = some { plan := .ofSettings settings, next := s.now + interval } := by
    rw [ReconnectTask.start, if_pos (hfollowable.mpr h)] at ht
    exact ht
  refine ⟨?_, fun h => over_run howned (hdead h) rfl after, fun hpos hrange hcut hrefuse hclock => ?_⟩
  · by_cases h : 0 < interval ∧ s.now + interval < Connection.clockEnd
    · refine ⟨_, halive h, fun hover => ?_, fun hno => by omega⟩
      cases hover
    · have hno : interval = 0 ∨ Connection.clockEnd ≤ s.now + interval := by omega
      exact ⟨_, hdead hno, fun _ => hno, fun _ => rfl⟩
  · obtain ⟨hbegin, hall⟩ := tries_eq_multiples hcut howned (halive ⟨hpos, hrange⟩) hpos rfl (by rw [hnow]; rfl)
      hrefuse hclock
    rw [hnow] at hbegin hall
    exact ⟨hbegin, fun hends hheld => hall (by simp [Halted]) (hconfig'.symm ▸ hends) hheld⟩

/-- Attempts are refused for two intervals of a second, and two were made. -/
theorem two_attempts_in_vain :
    let settings : ReconnectSettings := { intervalSecs := 1 }
    let config : Config := { autoReconnect := some settings }
    let before : List Action := [.refuse true]
    let after : List Action := [.pass 1000, .turn (.task 0), .pass 1000, .turn (.task 0)]
    let started := ((ofConfig config).run before).perform .start
    let final := started.run after
    started.CutOff ∧ OnClock after started ∧ final.AtRest ∧ final.client.released = false ∧
      started.tries 0 after = [1000, 2000] := by
  intro settings config before after started final
  have hcut : started.CutOff := ⟨by decide +kernel, by decide +kernel⟩
  have hclock : OnClock after started := by
    refine ⟨fun ms hms => ?_, nofun, fun ms hms => ?_, nofun, trivial⟩
    all_goals
      cases hms
      decide +kernel
  have hrefuse : ∀ a ∈ after, a ≠ .refuse false := by simp [after]
  have hends : ∀ a ∈ after, a.endsTask config = false := by decide
  obtain ⟨-, -, hserves⟩ := intervals_that_serve config .json settings before after rfl
  obtain ⟨-, hall⟩ := hserves (by decide) (by decide +kernel) hcut hrefuse hclock
  have htries := hall hends (by decide +kernel) (by decide +kernel)
  exact ⟨hcut, hclock, by decide +kernel, by decide +kernel, htries.trans (by decide +kernel)⟩

end RemoteCall.Session
