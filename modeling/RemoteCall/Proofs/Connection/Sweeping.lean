import Mathlib.Data.List.Induction
import RemoteCall.Proofs.Connection.Timeline

/-!
# How long late calls stand

A dispatcher looks for late calls when it has heard nothing for the idle time, and when a packet comes in and it has not
looked for that long. So a call that is late or has lost its caller does not stand for two idle times.

* `staleFrom`: the moment from which on a call is late or has no caller.
* `Pending.Table.Grew`: what an incident does to the calls of a table, and which calls it adds.
* `Took.swept`: a turn that does not look for late calls comes less than an idle time after one that did.
* `Swept`: the invariant, which ties the timer to the moment of the last look, and the calls that stand to that moment.
* `late_calls_leave`: a call that stands is in time and has its caller, or has not been stale for two idle times.
-/

namespace RemoteCall

namespace Pending.Table

/-- The calls of a table are still there later, and those that were added have their callers and are not late. -/
structure Grew (now : Nat) (t t' : Table) : Prop where
  follows : t.Follows t'
  added : ∀ (n : Ticket) (c : Call), t'.calls[n]? = some c → t.calls[n]? = none →
    c.callerPresent = true ∧ now ≤ c.deadline

variable {t t' : Table} {now : Nat}

theorem grew_of_length (h : t.Follows t') (hl : t'.calls.length = t.calls.length) : t.Grew now t' where
  follows := h
  added n c hc hnone := by
    obtain ⟨x, hx, -⟩ := h.exists_of hl hc
    rw [hnone] at hx
    cases hx

/-- A call that is added may have left again at once. -/
theorem grew_of_append {id : UInt32} {timeoutMs : Nat} {e : Option Exit}
    (h : t'.calls = t.calls ++ [{ newCall now id timeoutMs with exit := e }]) : t.Grew now t' where
  follows n c hc := by
    refine ⟨c, ?_, .refl c⟩
    rw [h, List.getElem?_append_left (List.getElem?_eq_some_iff.mp hc).1]
    exact hc
  added n c hc hnone := by
    rw [h] at hc
    rcases getElem?_concat hc with hold | ⟨-, rfl⟩
    · rw [hnone] at hold
      cases hold
    · exact ⟨rfl, Nat.le_add_right _ _⟩

end Pending.Table

namespace Connection

open Pending (Call Ticket Table)

section Defs

/-- Whether the caller of a call is there. -/
def Scene.hasCaller (n : Ticket) (x : Scene) : Bool :=
  x.connection.generation.table.calls[n]?.any Call.callerPresent

/-- Whether the caller of a call goes away in an incident. -/
def Scene.loses (n : Ticket) (a : Incident) (x : Scene) : Bool := x.hasCaller n && !(x.perform a).hasCaller n

/-- The moment at which the caller of a call goes away. -/
def leftAt? (n : Ticket) : List Incident → Scene → Option Nat
  | [], _ => none
  | a :: incidents, x => if x.loses n a then some x.now else leftAt? n incidents (x.perform a)

/-- The moment from which on a call is stale: its deadline, or the moment at which its caller goes away if that is
before. -/
def staleFrom (n : Ticket) (c : Call) (incidents : List Incident) (x : Scene) : Nat :=
  (leftAt? n incidents x).elim c.deadline (min c.deadline)

/-- The dispatcher began to wait at a moment, less than an idle time after it looked for late calls. No call that stands
was stale when it looked. The callers that have gone away did so at the moments that are given. -/
structure Swept (idleMs : Nat) (left : Ticket → Option Nat) (x : Scene) : Prop where
  configured : x.connection.settings.idleMs = idleMs
  window : x.connection.running = true → ∃ w, w ≤ x.now ∧ x.connection.idleAt = after w idleMs ∧
    x.connection.lastSweep ≤ w ∧ w < x.connection.lastSweep + idleMs
  absent : ∀ n : Ticket, x.connection.generation.table.calls[n]? = none → left n = none
  present : ∀ (n : Ticket) (c : Call), x.connection.generation.table.calls[n]? = some c →
    c.callerPresent = true → left n = none
  gone : ∀ (n : Ticket) (c : Call), x.connection.generation.table.calls[n]? = some c → c.callerPresent = false →
    ∃ t, left n = some t ∧ t ≤ x.now ∧
      (x.connection.running = true → c.isOpen = true → x.connection.lastSweep ≤ t)
  late : ∀ (n : Ticket) (c : Call), x.connection.generation.table.calls[n]? = some c → c.isOpen = true →
    x.connection.running = true → x.connection.lastSweep ≤ c.deadline

end Defs

variable {c c' : Connection} {a : Incident} {incidents : List Incident} {now idleMs : Nat} {x : Scene} {n : Ticket}
  {left : Ticket → Option Nat}

/-! ## One incident -/

/-- What an incident does to the calls. -/
theorem grew_undergo (now : Nat) (a : Incident) (c : Connection) :
    c.generation.table.Grew now (c.undergo now a).generation.table := by
  cases a with
  | turn =>
    have h := (turned_dispatch now c).table
    exact Table.grew_of_length h.follows h.length
  | send o =>
    obtain ⟨-, -, -, ⟨-, htable | ⟨-, htable⟩⟩ | ⟨-, -, htable, -⟩⟩ := send_cases now o c
    · rw [undergo, htable]
      exact Table.grew_of_length (.refl _) rfl
    · exact Table.grew_of_append htable
    · exact Table.grew_of_append (e := none) htable
  | register id timeoutMs =>
    show c.generation.table.Grew now (c.generation.table.register now id timeoutMs).2
    cases hid : c.generation.table.holds id with
    | true =>
      rw [Table.register_of_holds hid]
      exact Table.grew_of_length (.refl _) rfl
    | false =>
      rw [Table.register_of_not_holds hid]
      exact Table.grew_of_append (e := none) rfl
  | leave p e => exact Table.grew_of_length (Table.follows_leave p e _) (Table.length_leave p e _)
  | forget m => exact Table.grew_of_length (Table.follows_forget m _) (Table.length_forget m _)
  | _ => exact Table.grew_of_length (.refl _) rfl

/-- After a search for late calls those that stand are in time and have their callers. -/
theorem live_of_sweep {t : Table} {y : Call} (h : (t.sweep now).2.calls[n]? = some y) (ho : y.isOpen = true) :
    y.callerPresent = true ∧ now < y.deadline := by
  obtain ⟨z, -, rfl⟩ := Table.exists_of_leave h
  rw [Call.isOpen_leaveIf, Bool.and_eq_true, Bool.not_eq_true'] at ho
  have hlive := ho.2
  rw [Call.isStale, Bool.or_eq_false_iff, decide_eq_false_iff_not, Bool.not_eq_false'] at hlive
  rw [Call.callerPresent_leaveIf, Call.deadline_leaveIf]
  exact ⟨hlive.2, Nat.lt_of_not_le hlive.1⟩

/-- A turn after which the dispatcher runs changes nothing, or begins a wait. It does so right after a search for late
calls, or less than an idle time after the one before. -/
theorem Took.swept (h : c.Took now c') (hr : c'.running = true) : c' = c ∨
    c.running = true ∧ c'.idleAt = after now c.settings.idleMs ∧
      (c'.lastSweep = c.lastSweep ∧ now - c.lastSweep < c.settings.idleMs ∨
        c'.lastSweep = now ∧ ∀ (n : Ticket) (y : Call), c'.generation.table.calls[n]? = some y →
          y.isOpen = true → y.callerPresent = true ∧ now < y.deadline) := by
  cases h with
  | halted => exact .inl rfl
  | @heard p rest d hrun _ _ hframe =>
    refine .inr ⟨hrun, ?_⟩
    have hsettings : d.settings = c.settings := (congrArg Connection.settings hframe).trans rfl
    have hsweep : d.lastSweep = c.lastSweep := (congrArg Connection.lastSweep hframe).trans rfl
    rw [← hsettings, ← hsweep]
    split
    · exact ⟨rfl, .inr ⟨rfl, fun n y => live_of_sweep⟩⟩
    · rename_i hrecent
      exact ⟨rfl, .inl ⟨rfl, Nat.lt_of_not_le hrecent⟩⟩
  | ended => cases hr
  | beat hrun => exact .inr ⟨hrun, rfl, .inr ⟨rfl, fun n y => live_of_sweep⟩⟩
  | failed => cases hr
  | idle => exact .inl rfl

/-! ## The invariant -/

theorem hasCaller_of_getElem? {y : Call} (h : x.connection.generation.table.calls[n]? = some y) :
    x.hasCaller n = y.callerPresent := by
  rw [Scene.hasCaller, h, Option.any_some]

theorem hasCaller_of_none (h : x.connection.generation.table.calls[n]? = none) : x.hasCaller n = false := by
  rw [Scene.hasCaller, h, Option.any_none]

/-- A dispatcher that runs after an incident ran before it, and no call that stands was stale when it looked last. -/
theorem Swept.lastSweep (h : Swept idleMs left x) (hr : (x.perform a).connection.running = true) :
    x.connection.running = true ∧ (x.perform a).connection.lastSweep ≤ x.now ∧
      ((x.perform a).connection.lastSweep = x.connection.lastSweep ∨
        (x.perform a).connection.lastSweep = x.now ∧
          ∀ (n : Ticket) (y : Call), (x.perform a).connection.generation.table.calls[n]? = some y →
            y.isOpen = true → y.callerPresent = true ∧ x.now < y.deadline) := by
  have hold (hrun : x.connection.running = true)
      (heq : (x.perform a).connection.lastSweep = x.connection.lastSweep) :
      (x.perform a).connection.lastSweep ≤ x.now := by
    obtain ⟨w, hw, -, hle, -⟩ := h.window hrun
    rw [heq]
    exact Nat.le_trans hle hw
  by_cases ha : a = .turn
  · subst ha
    rcases (took_dispatch x.now x.connection).swept hr with heq | ⟨hrun, -, hlast⟩
    · have heq' : (x.perform .turn).connection = x.connection := heq
      have hrun : x.connection.running = true := heq' ▸ hr
      exact ⟨hrun, hold hrun (by rw [heq']), .inl (by rw [heq'])⟩
    · rcases hlast with ⟨heq, -⟩ | ⟨heq, hlive⟩
      · exact ⟨hrun, hold hrun heq, .inl heq⟩
      · exact ⟨hrun, Nat.le_of_eq heq, .inr ⟨heq, hlive⟩⟩
  · have hsteady := steady_undergo ha x.now x.connection
    have hrun := hsteady.running hr
    exact ⟨hrun, hold hrun hsteady.lastSweep, .inl hsteady.lastSweep⟩

/-- The dispatcher waits on, or it begins to wait less than an idle time after it looked for late calls. -/
theorem Swept.window_perform (hd : 0 < idleMs) (h : Swept idleMs left x)
    (hr : (x.perform a).connection.running = true) : ∃ w, w ≤ (x.perform a).now ∧
      (x.perform a).connection.idleAt = after w idleMs ∧ (x.perform a).connection.lastSweep ≤ w ∧
        w < (x.perform a).connection.lastSweep + idleMs := by
  have hnow := Scene.now_le_perform a x
  obtain ⟨hrun, hle, -⟩ := h.lastSweep hr
  obtain ⟨w, hw, hidle, hlow, hhigh⟩ := h.window hrun
  by_cases ha : a = .turn
  · subst ha
    rcases (took_dispatch x.now x.connection).swept hr with heq | ⟨-, hnext, hlast⟩
    · have heq' : (x.perform .turn).connection = x.connection := heq
      rw [heq']
      exact ⟨w, hw, hidle, hlow, hhigh⟩
    · rw [h.configured] at hnext hlast
      refine ⟨x.now, hnow, hnext, hle, ?_⟩
      rcases hlast with ⟨heq, hrecent⟩ | ⟨heq, -⟩
      · have heq' : (x.perform .turn).connection.lastSweep = x.connection.lastSweep := heq
        omega
      · have heq' : (x.perform .turn).connection.lastSweep = x.now := heq
        omega
  · have hsteady := steady_undergo ha x.now x.connection
    refine ⟨w, Nat.le_trans hw hnow, hsteady.idleAt.trans hidle, ?_, ?_⟩
    · exact Nat.le_trans (Nat.le_of_eq hsteady.lastSweep) hlow
    · exact Nat.lt_of_lt_of_eq hhigh (congrArg (· + idleMs) hsteady.lastSweep.symm)

/-- Every incident keeps the invariant. -/
theorem Swept.perform (hd : 0 < idleMs) (h : Swept idleMs left x) (a : Incident) :
    Swept idleMs (fun n => (left n).or (if x.loses n a then some x.now else none)) (x.perform a) := by
  have hgrew := grew_undergo x.now a x.connection
  -- a call that is there after the incident was there before, or its caller has just come
  have hback {n : Ticket} {y : Call} (hy : (x.perform a).connection.generation.table.calls[n]? = some y) :
      (∃ z, x.connection.generation.table.calls[n]? = some z ∧ z.Follows y) ∨
        x.connection.generation.table.calls[n]? = none ∧ y.callerPresent = true ∧ x.now ≤ y.deadline := by
    cases hz : x.connection.generation.table.calls[n]? with
    | none => exact .inr ⟨rfl, hgrew.added n y hy hz⟩
    | some z =>
      obtain ⟨y', hy', hf⟩ := hgrew.follows n z hz
      have heq : some y' = some y := hy'.symm.trans hy
      cases heq
      exact .inl ⟨z, rfl, hf⟩
  have hpresent {n : Ticket} {y z : Call} (hz : x.connection.generation.table.calls[n]? = some z)
      (hf : z.Follows y) (hp : y.callerPresent = true) : z.callerPresent = true := by
    by_contra hgone
    rw [hf.absent (Bool.eq_false_iff.mpr hgone)] at hp
    cases hp
  refine ⟨?_, h.window_perform hd, fun n hnone => ?_, fun n y hy hp => ?_, fun n y hy hp => ?_, fun n y hy ho hr => ?_⟩
  · rw [Scene.settings_perform]
    exact h.configured
  · have hnone' : x.connection.generation.table.calls[n]? = none := by
      cases hz : x.connection.generation.table.calls[n]? with
      | none => rfl
      | some z =>
        obtain ⟨y, hy, -⟩ := hgrew.follows n z hz
        have heq : none = some y := hnone.symm.trans hy
        cases heq
    simp [h.absent n hnone', Scene.loses, hasCaller_of_none hnone']
  · rcases hback hy with ⟨z, hz, hf⟩ | ⟨hnone, -⟩
    · simp [h.present n z hz (hpresent hz hf hp), Scene.loses, hasCaller_of_getElem? hy, hp]
    · simp [h.absent n hnone, Scene.loses, hasCaller_of_none hnone]
  · have hnow := Scene.now_le_perform a x
    rcases hback hy with ⟨z, hz, hf⟩ | ⟨-, hp', -⟩
    · cases hzp : z.callerPresent with
      | true =>
        refine ⟨x.now, ?_, hnow, fun hr _ => (h.lastSweep hr).2.1⟩
        simp [h.present n z hz hzp, Scene.loses, hasCaller_of_getElem? hz, hasCaller_of_getElem? hy, hp, hzp]
      | false =>
        obtain ⟨t, ht, hle, hlow⟩ := h.gone n z hz hzp
        refine ⟨t, by simp [ht], Nat.le_trans hle hnow, fun hr ho => ?_⟩
        obtain ⟨hrun, -, heq | ⟨-, hlive⟩⟩ := h.lastSweep hr
        · rw [heq]
          exact hlow hrun (hf.isOpen ho)
        · rw [(hlive n y hy ho).1] at hp
          cases hp
    · rw [hp'] at hp
      cases hp
  · obtain ⟨hrun, hle, heq | ⟨heq, hlive⟩⟩ := h.lastSweep hr
    · rcases hback hy with ⟨z, hz, hf⟩ | ⟨-, -, hdeadline⟩
      · rw [heq, hf.deadline]
        exact h.late n z hz (hf.isOpen ho) hrun
      · exact Nat.le_trans hle hdeadline
    · rw [heq]
      exact Nat.le_of_lt (hlive n y hy ho).2

theorem leftAt?_cons (n : Ticket) (a : Incident) (incidents : List Incident) (x : Scene) :
    leftAt? n (a :: incidents) x =
      (if x.loses n a then some x.now else none).or (leftAt? n incidents (x.perform a)) := by
  rw [leftAt?]
  split <;> rfl

theorem Swept.run (hd : 0 < idleMs) (h : Swept idleMs left x) (incidents : List Incident) :
    Swept idleMs (fun n => (left n).or (leftAt? n incidents x)) (x.run incidents) := by
  induction incidents generalizing x left with
  | nil => simpa [leftAt?] using h
  | cons a incidents ih =>
    have hrun := ih (h.perform hd a)
    simpa only [leftAt?_cons, Option.or_assoc, Scene.run_cons] using hrun

theorem swept_opening (hd : 0 < idleMs) (start : Nat) (link : Memory.Link) (number : Nat) {settings : DispatcherConfig}
    (hs : settings.idleMs = idleMs) : Swept idleMs (fun _ => none) (.opening start link number settings) where
  configured := hs
  window _ := ⟨start, Nat.le_refl _, congrArg (after start) hs, Nat.le_refl _, Nat.lt_add_of_pos_right hd⟩
  absent _ _ := rfl
  present _ _ _ _ := rfl
  gone _ _ hc := by cases hc
  late _ _ hc := by cases hc

/-! ## Main statement -/

/-- A dispatcher that has nothing to do looked for late calls less than two idle times ago. -/
theorem Swept.lt_lastSweep (h : Swept idleMs left x) (hr : x.connection.running = true) (hrest : x.isAtRest = true)
    (hclock : x.now < clockEnd) : x.now < x.connection.lastSweep + 2 * idleMs := by
  obtain ⟨w, -, hidle, -, hw⟩ := h.window hr
  have hlt := Scene.lt_idleAt_of_isAtRest hrest hr
  have hnext : x.now < w + idleMs := by
    by_cases hin : w + idleMs < clockEnd
    · rwa [hidle, after_of_lt hin] at hlt
    · exact Nat.lt_of_lt_of_le hclock (Nat.le_of_not_lt hin)
  omega

/-- **Late calls do not stand for two idle times.** Whatever comes in, whoever sends, registers or goes away, and
whenever the dispatcher gets its turns: a few turns bring it to rest, and when it has nothing to do and still runs, each
call that stands is in time and has its caller, or it became stale less than two idle times ago. -/
theorem late_calls_leave (start : Nat) (link : Memory.Link) (number : Nat) (settings : DispatcherConfig)
    (incidents : List Incident) (hd : 0 < settings.idleMs) :
    let x := Scene.opening start link number settings
    let y := x.run incidents
    y.Settles ∧
      (y.connection.running = true → y.isAtRest = true → y.now < clockEnd →
        ∀ (n : Ticket) (c : Call), y.connection.generation.table.calls[n]? = some c → c.isOpen = true →
          c.callerPresent = true ∧ y.now < c.deadline ∨
            staleFrom n c incidents x ≤ y.now ∧ y.now < staleFrom n c incidents x + 2 * settings.idleMs) := by
  intro x y
  refine ⟨Scene.settles_run_opening start link number hd incidents, fun hr hrest hclock n c hc ho => ?_⟩
  have h : Swept settings.idleMs (fun n => leftAt? n incidents x) y :=
    (swept_opening hd start link number rfl).run hd incidents
  have hsweep := h.lt_lastSweep hr hrest hclock
  have hlate := h.late n c hc ho hr
  cases hp : c.callerPresent with
  | true =>
    rw [staleFrom, h.present n c hc hp, Option.elim_none]
    by_cases hd : y.now < c.deadline
    · exact .inl ⟨rfl, hd⟩
    · exact .inr ⟨Nat.le_of_not_lt hd, by omega⟩
  | false =>
    obtain ⟨t, ht, hle, hlow⟩ := h.gone n c hc hp
    have hlow := hlow hr ho
    rw [staleFrom, ht, Option.elim_some]
    exact .inr ⟨by omega, by omega⟩

/-- A call that is late just after the dispatcher has looked, and stands while packets come in. -/
theorem late_call_stands_a_while :
    let incidents : List Incident := [.register 7 100, .pass 999, .peer (.send (.packet .pong)), .turn, .pass 999]
    let c : Call := { id := 7, deadline := 100, timeoutMs := 100 }
    ∃ x y : Scene, x = .opening 0 { addr := "mem:a" } 1 { idleMs := 1000 } ∧ y = x.run incidents ∧
      (y.connection.running = true ∧ y.isAtRest = true ∧ y.now < clockEnd) ∧
      y.connection.generation.table.calls[(0 : Ticket)]? = some c ∧ staleFrom 0 c incidents x = 100 ∧
      staleFrom 0 c incidents x ≤ y.now ∧ y.now < staleFrom 0 c incidents x + 2 * 1000 := by
  intro incidents c
  have hlate := (late_calls_leave 0 { addr := "mem:a" } 1 { idleMs := 1000 } incidents (by decide)).2
    (by decide +kernel) (by decide +kernel) (by decide +kernel) 0 c (by decide +kernel) rfl
  refine ⟨_, _, rfl, rfl, by decide +kernel, by decide +kernel, by decide +kernel, ?_⟩
  rcases hlate with ⟨-, hlt⟩ | hbound
  · exact absurd hlt (by decide +kernel)
  · exact hbound

end Connection

end RemoteCall
