import Mathlib.Data.List.Induction
import RemoteCall.Proofs.Session.Course
import RemoteCall.Proofs.Session.Probing

/-!
# The life of a client by its attempts and releases

The phase of a client, its connection in use, and the numbers and the liveness of all its connections are changed in
different places. They agree with the attempts to connect and the releases that there were, in whatever order.

* `history`: the attempts and the releases of a run.
* `Lived`: the invariant. It is kept by each part of a course (`Lived.course`), and so by each step.
* `CameIntoUse`: the step that made the connection in use.
* `accounted_run`: what a client is after a run, by the history of the run.
-/

namespace RemoteCall.Session

section Defs

/-- The attempts to connect and the releases of a run, in their order. -/
def history : List Action → Session → List Event
  | [], _ => []
  | a :: actions, s => s.events a ++ history actions (s.perform a)

/-- The life of the client is as it was, and no connection was made or began again. -/
structure Steady (s s' : Session) : Prop where
  attempts : s'.attempts = s.attempts
  phase : s'.client.phase = s.client.phase
  installed : s'.client.installed = s.client.installed
  released : s'.client.released = s.client.released
  length : s'.connections.length = s.connections.length
  onward : ∀ (i : Nat) (c : Connection), s.connections[i]? = some c →
    ∃ c', s'.connections[i]? = some c' ∧ c.Onward c'

/-- What a session is after some attempts and releases. As long as someone holds the client, only the connection in use
can be active. -/
structure Lived (E : List Event) (s : Session) : Prop where
  attempts : s.attempts = E.countP Event.isAttempt
  made : s.connections.length = E.count (.attempt true)
  number : ∀ (i : Nat) (c : Connection), s.connections[i]? = some c → c.generation.number = i + 1
  newest : ∀ i, s.client.installed = some i → i + 1 = s.connections.length
  untried : s.client.phase = none ↔ E.countP Event.isAttempt = 0
  last : s.client.phase = some .up ↔ E.getLast? = some (.attempt true)
  inUse : s.client.released = false → s.client.phase = some .up → s.client.installed ≠ none
  inactive : s.client.released = false → ∀ (i : Nat) (c : Connection), s.connections[i]? = some c →
    s.client.installed ≠ some i → c.link.active = false

/-- The owner of a client holds it, so nothing of it was given up. -/
def Held (s : Session) : Prop := s.client.owned = true ∧ s.client.released = false

/-- A connection was made in a step of a run, and no other one after it. When the step was done it was in use and
fresh. -/
def CameIntoUse (i : Nat) (actions : List Action) (start : Session) : Prop :=
  ∃ (first : List Action) (a : Action) (rest : List Action) (c : Connection), actions = first ++ a :: rest ∧
    .attempt true ∈ (start.run first).events a ∧
    .attempt true ∉ history rest ((start.run first).perform a) ∧
    (start.run first).connections[i]? = none ∧
    ((start.run first).perform a).client.installed = some i ∧
    ((start.run first).perform a).connections[i]? = some c ∧ c.Fresh i

/-- What a client is after a run, by the attempts and releases of the run. -/
structure Accounted (start : Session) (actions : List Action) (s : Session) : Prop where
  /-- There is no phase as long as no attempt has finished. -/
  untried : s.client.phase = none ↔ ∀ accepted, .attempt accepted ∉ history actions start
  /-- And then there is no connection. -/
  empty : s.client.phase = none → s.client.installed = none ∧ s.connections = []
  /-- The phase is up if the last attempt was accepted and there was no release after it, and only then. -/
  last : s.client.phase = some .up ↔ (history actions start).getLast? = some (.attempt true)
  /-- The client is held as long as its owner does not drop it. -/
  held : .dropClient ∉ actions → s.client.released = false
  /-- If the phase is up a connection is in use, as long as the client is held. -/
  inUse : s.client.released = false → s.client.phase = some .up → ∃ i, s.client.installed = some i
  /-- The number of the connection in use says how many attempts were accepted. It was made by the last one of
  these, and was fresh then. -/
  installed : ∀ i, s.client.installed = some i → ∃ c, s.connections[i]? = some c ∧
    c.generation.number = (history actions start).count (.attempt true) ∧ CameIntoUse i actions start
  /-- Every other connection is inactive. -/
  others : s.client.released = false → ∀ (i : Nat) (c : Connection), s.connections[i]? = some c →
    s.client.installed ≠ some i → c.link.active = false
  /-- No two connections are active. -/
  single : s.client.released = false → ∀ (i j : Nat) (c d : Connection), s.connections[i]? = some c →
    s.connections[j]? = some d → c.link.active = true → d.link.active = true → i = j

end Defs

variable {s s' m : Session} {i : Nat} {E E' : List Event} {a : Action} {actions : List Action}

theorem history_append (first second : List Action) (s : Session) :
    history (first ++ second) s = history first s ++ history second (s.run first) := by
  induction first generalizing s with
  | nil => rfl
  | cons a first ih =>
    rw [List.cons_append, history, history, ih, List.append_assoc, run_cons]

/-! ## What is steady -/

theorem steady_of_connections (hc : s'.connections = s.connections) (ha : s'.attempts = s.attempts)
    (hp : s'.client.phase = s.client.phase) (hi : s'.client.installed = s.client.installed)
    (hr : s'.client.released = s.client.released) : s.Steady s' :=
  ⟨ha, hp, hi, hr, by rw [hc], fun _ c h => ⟨c, hc ▸ h, .refl c⟩⟩

theorem Same.steady {kept : Prop} (h : s.Same kept s') : s.Steady s' :=
  steady_of_connections h.connections h.attempts h.phase h.installed h.released

theorem steady_modify {f : Connection → Connection} (hf : ∀ c : Connection, c.Onward (f c)) (i : Nat) (s : Session) :
    s.Steady (s.modify i f) := by
  refine ⟨rfl, rfl, rfl, rfl, by simp [modify], fun j c hc => ?_⟩
  by_cases hij : i = j
  · subst hij
    exact ⟨f c, Switchboard.getElem?_modify_self (b := s.board) hc, hf c⟩
  · exact ⟨c, (Switchboard.getElem?_modify_of_ne (b := s.board) hij).trans hc, .refl c⟩

theorem Asked.steady (h : s.Asked m) : s.Steady m := by
  obtain ⟨connections, hframe⟩ := h.frame
  refine ⟨?_, ?_, ?_, ?_, h.length, fun i c hc => ?_⟩
  · rw [hframe]
    rfl
  · rw [hframe]
  · rw [hframe]
  · rw [hframe]
  · obtain ⟨d, hd, rfl | ⟨f, method, args, o, -, -, rfl⟩⟩ := h.connection hc
    · exact ⟨d, hd, .refl d⟩
    · exact ⟨_, hd, c.onward_send s.now o⟩

theorem Steady.refl (s : Session) : s.Steady s := steady_of_connections rfl rfl rfl rfl rfl

theorem Steady.trans {a b c : Session} (h : a.Steady b) (h' : b.Steady c) : a.Steady c where
  attempts := h'.attempts.trans h.attempts
  phase := h'.phase.trans h.phase
  installed := h'.installed.trans h.installed
  released := h'.released.trans h.released
  length := h'.length.trans h.length
  onward i x hx := by
    obtain ⟨y, hy, hxy⟩ := h.onward i x hx
    obtain ⟨z, hz, hyz⟩ := h'.onward i y hy
    exact ⟨z, hz, hxy.trans hyz⟩

/-- A course without attempts and releases is steady. -/
theorem Course.steady {kept : Prop} (h : Course kept s E s') (hE : E = []) : s.Steady s' := by
  induction h with
  | aside h => exact h.toSame.steady
  | leave hf => exact steady_modify (fun c => (c.carried_leave hf).onward) _ _
  | attempt s => cases hE
  | disconnect s => cases hE
  | trans _ _ ih ih' =>
    obtain ⟨hfirst, hsecond⟩ := List.append_eq_nil_iff.mp hE
    exact (ih hfirst).trans (ih' hsecond)

/-- A step without attempts and releases is steady while the client is held. -/
theorem steady_perform (he : s.events a = []) (hr : (s.perform a).client.released = false) : s.Steady (s.perform a) := by
  cases manner a s with
  | peer i act hp he h => exact h ▸ steady_modify (fun c => c.onward_act act) i s
  | dispatcher i h => exact h ▸ steady_modify (fun c => c.onward_dispatch s.now) i s
  | facade ha hp he h => exact h.steady
  | idle hp he h hs => exact h.steady
  | deed hp h =>
    cases h with
    | held ha hc => exact ha.steady.trans (hc.steady he)
    | givenUp ha hc h hno =>
      rw [h, client_release] at hr
      cases hr

/-- What is steady brings no connection. -/
theorem Steady.origin (h : s.Steady s') {c' : Connection} (hc' : s'.connections[i]? = some c') :
    ∃ c, s.connections[i]? = some c ∧ c.Onward c' := by
  have hlt := (List.getElem?_eq_some_iff.mp hc').1
  rw [h.length] at hlt
  obtain ⟨d, hd, honward⟩ := h.onward i _ (List.getElem?_eq_getElem hlt)
  rw [hc'] at hd
  exact ⟨_, List.getElem?_eq_getElem hlt, Option.some.inj hd ▸ honward⟩

/-! ## The invariant -/

theorem Lived.steady (h : Lived E s) (hs : s.Steady s') : Lived E s' where
  attempts := hs.attempts.trans h.attempts
  made := hs.length.trans h.made
  number i c' hc' := by
    obtain ⟨c, hc, honward⟩ := hs.origin hc'
    exact honward.number.trans (h.number i c hc)
  newest i hi := by
    rw [hs.length]
    exact h.newest i (hs.installed ▸ hi)
  untried := by rw [hs.phase, h.untried]
  last := by rw [hs.phase, h.last]
  inUse hr hp := by
    rw [hs.installed]
    exact h.inUse (hs.released ▸ hr) (hs.phase ▸ hp)
  inactive hr i c' hc' hi := by
    obtain ⟨c, hc, honward⟩ := hs.origin hc'
    exact honward.inactive (h.inactive (hs.released ▸ hr) i c hc (hs.installed ▸ hi))

theorem Lived.attempt (h : Lived E s) : Lived (E ++ [.attempt s.accepts]) s.connect.2 := by
  obtain ⟨hinstalled, hphase⟩ := life_connect s
  have hremains : s.Remains True s.connect.2 := remains_connect s
  have hlength := length_connect s
  have hnew {i : Nat} {c' : Connection} (hc' : s.connect.2.connections[i]? = some c') :
      (∃ c, s.connections[i]? = some c ∧
        c' = if s.accepts = true ∧ s.client.installed = some i then c.teardown else c) ∨
      (c'.Fresh i ∧ s.accepts = true ∧ i = s.connections.length) := by
    cases hc : s.connections[i]? with
    | none => exact .inr (fresh_connect hc hc')
    | some c =>
      rw [connections_connect hc] at hc'
      exact .inl ⟨c, rfl, (Option.some.inj hc').symm⟩
  constructor
  · rw [attempts_connect, h.attempts, List.countP_append]
    rfl
  · rw [hlength, h.made, List.count_append]
    cases s.accepts <;> rfl
  · intro i c' hc'
    rcases hnew hc' with ⟨c, hc, rfl⟩ | ⟨hfresh, -⟩
    · split
      · exact h.number i c hc
      · exact h.number i c hc
    · exact hfresh.number
  · intro i hi
    rw [hinstalled] at hi
    rw [hlength]
    split at hi
    · rename_i ha
      rw [if_pos ha, Option.some.inj hi]
    · rename_i ha
      rw [if_neg ha, Nat.add_zero]
      exact h.newest i hi
  · rw [hphase, List.countP_append]
    simp [Event.isAttempt]
  · rw [hphase, List.getLast?_concat]
    cases s.accepts <;> simp
  · intro hr hp
    rw [hphase] at hp
    rw [hinstalled]
    split at hp
    · rename_i ha
      simp [ha]
    · cases hp
  · intro hr i c' hc' hi
    rw [hremains.released] at hr
    rw [hinstalled] at hi
    rcases hnew hc' with ⟨c, hc, rfl⟩ | ⟨-, ha, rfl⟩
    · by_cases ha : s.accepts = true
      · split
        · rfl
        · rename_i hnot
          exact h.inactive hr i c hc fun heq => hnot ⟨ha, heq⟩
      · rw [if_neg ha] at hi
        rw [if_neg fun heq => ha heq.1]
        exact h.inactive hr i c hc hi
    · rw [if_pos ha] at hi
      exact absurd rfl hi

theorem Lived.disconnect (h : Lived E s) : Lived (E ++ [.release]) s.disconnect := by
  have hclient := client_disconnect s
  have hlength : s.disconnect.connections.length = s.connections.length := length_teardownInstalled s
  have hold {i : Nat} {c' : Connection} (hc' : s.disconnect.connections[i]? = some c') :
      ∃ c, s.connections[i]? = some c ∧ c' = if s.client.installed = some i then c.teardown else c := by
    have hlt := (List.getElem?_eq_some_iff.mp hc').1
    rw [hlength] at hlt
    have hc := List.getElem?_eq_getElem hlt
    have hc'' : s.teardownInstalled.connections[i]? = some c' := hc'
    rw [connections_teardownInstalled hc] at hc''
    exact ⟨_, hc, (Option.some.inj hc'').symm⟩
  constructor
  · rw [(quiet_disconnect s).attempts, h.attempts, List.countP_append]
    rfl
  · rw [hlength, h.made, List.count_append]
    rfl
  · intro i c' hc'
    obtain ⟨c, hc, rfl⟩ := hold hc'
    split
    · exact h.number i c hc
    · exact h.number i c hc
  · intro i hi
    rw [hclient] at hi
    cases hi
  · rw [hclient, List.countP_append]
    have hsame : List.countP Event.isAttempt [.release] = 0 := rfl
    rw [hsame, Nat.add_zero, ← h.untried]
    cases hp : s.client.phase with
    | none => simp
    | some p => cases p <;> simp
  · rw [hclient, List.getLast?_concat]
    cases hp : s.client.phase with
    | none => simp
    | some p => cases p <;> simp
  · intro hr hp
    rw [hclient] at hp
    cases hp' : s.client.phase with
    | none => simp [hp'] at hp
    | some p => cases p <;> simp [hp'] at hp
  · intro hr i c' hc' hi
    rw [hclient] at hr
    obtain ⟨c, hc, rfl⟩ := hold hc'
    split
    · rfl
    · rename_i hnot
      exact h.inactive hr i c hc hnot

theorem Lived.course {kept : Prop} (hc : Course kept s E' s') (h : Lived E s) : Lived (E ++ E') s' := by
  induction hc generalizing E with
  | aside ha =>
    rw [List.append_nil]
    exact h.steady ha.toSame.steady
  | leave hf =>
    rw [List.append_nil]
    exact h.steady (steady_modify (fun c => (c.carried_leave hf).onward) _ _)
  | attempt s => exact h.attempt
  | disconnect s => exact h.disconnect
  | trans _ _ ih ih' =>
    rw [← List.append_assoc]
    exact ih' (ih h)

theorem Lived.release (h : Lived E s) : Lived E s.release := by
  have hclient := client_release s
  constructor
  · rw [(quiet_release s).attempts, h.attempts]
  · rw [length_release, h.made]
  · intro i c' hc'
    have hlt := (List.getElem?_eq_some_iff.mp hc').1
    rw [length_release] at hlt
    obtain ⟨d, hd, hcarried⟩ := carried_of_release (List.getElem?_eq_getElem hlt)
    rw [hc'] at hd
    rw [Option.some.inj hd, hcarried.number]
    exact h.number i _ (List.getElem?_eq_getElem hlt)
  · intro i hi
    rw [hclient] at hi
    cases hi
  · rw [hclient]
    exact h.untried
  · rw [hclient]
    exact h.last
  · intro hr
    rw [hclient] at hr
    cases hr
  · intro hr
    rw [hclient] at hr
    cases hr

/-- Every step keeps the invariant. -/
theorem Lived.perform (h : Lived E s) (a : Action) : Lived (E ++ s.events a) (s.perform a) := by
  cases manner a s with
  | peer i act hp he heq =>
    rw [he, heq, List.append_nil]
    exact h.steady (steady_modify (fun c => c.onward_act act) i s)
  | dispatcher i heq =>
    subst heq
    rw [show s.events (.turn (.dispatcher i)) = [] from rfl, List.append_nil]
    exact h.steady (steady_modify (fun c => c.onward_dispatch s.now) i s)
  | facade ha hp he hs =>
    rw [he, List.append_nil]
    exact h.steady hs.steady
  | idle hp he hs _ =>
    rw [he, List.append_nil]
    exact h.steady hs.steady
  | deed hp hd =>
    cases hd with
    | held ha hc => exact .course hc (h.steady ha.steady)
    | givenUp ha hc heq =>
      rw [heq]
      exact (Lived.course hc (h.steady ha.steady)).release

theorem Lived.run (h : Lived E s) (actions : List Action) :
    Lived (E ++ history actions s) (s.run actions) := by
  induction actions generalizing s E with
  | nil =>
    rw [history, List.append_nil]
    exact h
  | cons a actions ih =>
    rw [history, ← List.append_assoc]
    exact ih (h.perform a)

theorem lived_ofConfig (config : Config) (codec : Codec) : Lived [] (ofConfig config codec) where
  attempts := rfl
  made := rfl
  number i c hc := by simp [ofConfig] at hc
  newest i hi := by cases hi
  untried := ⟨fun _ => rfl, fun _ => rfl⟩
  last := by simp [ofConfig]
  inUse _ hp := by cases hp
  inactive _ i c hc := by simp [ofConfig] at hc

theorem lived_run (config : Config) (codec : Codec) (actions : List Action) :
    Lived (history actions (ofConfig config codec)) ((ofConfig config codec).run actions) :=
  (lived_ofConfig config codec).run actions

/-! ## The step that made the connection in use -/

/-- A connection that is in use after a step and was there before was in use before. -/
theorem installed_before (hi : (s.perform a).client.installed = some i) (hlt : i < s.connections.length) :
    s.client.installed = some i := by
  by_contra hnot
  exact (retired_run (i := i) ⟨hlt, hnot⟩ [a]).2 hi

theorem cameIntoUse (config : Config) (codec : Codec) (actions : List Action)
    (hi : ((ofConfig config codec).run actions).client.installed = some i) :
    CameIntoUse i actions (ofConfig config codec) := by
  induction actions using List.reverseRecOn with
  | nil => cases hi
  | append_singleton first a ih =>
    have hlived := lived_run config codec first
    have hlived' := hlived.perform a
    rw [run_append] at hi
    generalize hs : (ofConfig config codec).run first = s at ih hi hlived hlived'
    have hnewest := hlived'.newest i hi
    rw [hlived'.made, List.count_append, ← hlived.made] at hnewest
    by_cases hlt : i < s.connections.length
    · -- it was there before, so nothing was made in this step
      obtain ⟨before, b, rest, c, hfirst, hattempt, hnone, hfresh⟩ := ih (installed_before hi hlt)
      refine ⟨before, b, rest ++ [a], c, by rw [hfirst, List.append_assoc]; rfl, hattempt, ?_, hfresh⟩
      have hcount : (s.events a).count (.attempt true) = 0 := by omega
      have hrun : ((((ofConfig config codec).run before).perform b).run rest) = s := by
        rw [← hs, hfirst, run_append]
        rfl
      rw [history_append, hrun, List.mem_append, not_or]
      refine ⟨hnone, ?_⟩
      rw [history, history, List.append_nil]
      exact List.count_eq_zero.mp hcount
    · have hgone : s.connections[i]? = none := List.getElem?_eq_none (Nat.le_of_not_lt hlt)
      have hcount : 0 < (s.events a).count (.attempt true) := by omega
      have hlt' : i < (s.perform a).connections.length := by
        have := hlived'.newest i hi
        omega
      have hc := List.getElem?_eq_getElem hlt'
      refine ⟨first, a, [], _, rfl, ?_, ?_, ?_, ?_, ?_, fresh_perform hgone hc⟩
      · rw [hs]
        exact List.count_pos_iff.mp hcount
      · simp [history]
      · rw [hs, hgone]
      · rw [hs]
        exact hi
      · rw [hs]
        exact hc

/-! ## Who holds the client -/

/-- Only when its owner drops a client it may be given up. -/
theorem Held.perform (h : s.Held) (ha : a ≠ .dropClient) : (s.perform a).Held := by
  have hcourse {m t : Session} (hasked : s.Asked m) (hc : Course (a ≠ .dropClient) m (s.events a) t) : t.Held := by
    obtain ⟨connections, rfl⟩ := hasked.frame
    exact ⟨(hc.remains.owned ha).trans h.1, hc.remains.released.trans h.2⟩
  cases manner a s with
  | peer i act hp he heq => exact heq ▸ h
  | dispatcher i heq => exact heq ▸ h
  | facade hmakes hp he hs => exact ⟨(hs.owned ha).trans h.1, hs.released.trans h.2⟩
  | idle hp he hs hshelf => exact ⟨(hs.owned ha).trans h.1, hs.released.trans h.2⟩
  | deed hp hd =>
    cases hd with
    | held hasked hc => exact hcourse hasked hc
    | givenUp hasked hc heq hno =>
      -- the owner holds it, so it is not given up
      rw [isHeld, (hcourse hasked hc).1] at hno
      cases hno

theorem Held.run (h : s.Held) (hdrop : .dropClient ∉ actions) : (s.run actions).Held := by
  induction actions generalizing s with
  | nil => exact h
  | cons a actions ih =>
    rw [List.mem_cons, not_or] at hdrop
    exact ih (h.perform fun heq => hdrop.1 heq.symm) hdrop.2

/-! ## Main statement -/

/-- **The life of a client is what its attempts and releases have made of it.** -/
theorem accounted_run (config : Config) (codec : Codec) (actions : List Action) :
    Accounted (ofConfig config codec) actions ((ofConfig config codec).run actions) := by
  have h := lived_run config codec actions
  have hcame {i : Nat} := cameIntoUse (i := i) config codec actions
  have hsound := sound_run (sound_ofConfig config codec) actions
  have hheld (hdrop : .dropClient ∉ actions) : ((ofConfig config codec).run actions).Held :=
    Held.run (s := ofConfig config codec) ⟨rfl, rfl⟩ hdrop
  generalize (ofConfig config codec).run actions = s at h hcame hsound hheld ⊢
  have huntried : s.client.phase = none ↔ ∀ accepted, .attempt accepted ∉ history actions (ofConfig config codec) := by
    rw [h.untried, List.countP_eq_zero]
    constructor
    · intro hall accepted hmem
      exact hall _ hmem rfl
    · intro hnot e he hattempt
      cases e with
      | attempt accepted => exact hnot accepted he
      | release => cases hattempt
  refine ⟨huntried, fun hnone => ?_, h.last, fun hdrop => (hheld hdrop).2, fun hr hp => ?_, fun i hi => ?_, h.inactive, ?_⟩
  · have hcount : (history actions (ofConfig config codec)).count (.attempt true) = 0 :=
      List.count_eq_zero.mpr (huntried.mp hnone true)
    have hempty : s.connections.length = 0 := h.made.trans hcount
    refine ⟨?_, List.eq_nil_of_length_eq_zero hempty⟩
    cases hi : s.client.installed with
    | none => rfl
    | some i =>
      have hnewest := h.newest i hi
      omega
  · exact Option.ne_none_iff_exists'.mp (h.inUse hr hp)
  · have hlt := hsound.inside i hi
    have hc : s.connections[i]? = some _ := List.getElem?_eq_getElem hlt
    refine ⟨_, hc, ?_, hcame hi⟩
    rw [h.number i _ hc, h.newest i hi, h.made]
  · intro hr i j c d hc hd hactive hactive'
    have hused {k : Nat} {e : Connection} (he : s.connections[k]? = some e) (ha : e.link.active = true) :
        s.client.installed = some k := by
      by_contra hnot
      rw [h.inactive hr k e he hnot] at ha
      cases ha
    exact Option.some.inj ((hused hc hactive).symm.trans (hused hd hactive'))

end RemoteCall.Session
