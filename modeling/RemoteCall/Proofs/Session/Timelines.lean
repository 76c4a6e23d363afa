import RemoteCall.Proofs.Connection.Timeline
import RemoteCall.Proofs.Session.Routing

/-!
# The connections of a client in time

Whatever a client does to a connection is a sequence of incidents there. So each connection of a client that runs on a
virtual clock has a timeline, and what holds of timelines holds of the connections of clients.

* `Scene.Leads`: a timeline from one scene to another.
* `Switchboard.Moved`: the connections after a move were there before, or are new, and have timelines between.
* `timeline_of_run`: every connection of a client on a virtual clock has a timeline from its begin.
-/

namespace RemoteCall

open Connection (Scene Incident)
open Pending (Table Ticket)

/-- A timeline leads from one scene to another. -/
def Connection.Scene.Leads (x y : Scene) : Prop :=
  ∃ incidents : List Incident, x.punctual incidents = true ∧ x.run incidents = y

/-- A connection at a moment has a timeline from its begin. -/
def Connection.Scene.Begun (y : Scene) : Prop :=
  ∃ (start : Nat) (link : Memory.Link) (number : Nat) (settings : DispatcherConfig),
    (Scene.opening start link number settings).Leads y

/-- All connections after a change were there before, or are new, and have timelines between. -/
def Switchboard.Moved (now : Nat) (b b' : Switchboard) : Prop :=
  ∀ (i : Nat) (c' : Connection), b'.connections[i]? = some c' →
    (∃ c, b.connections[i]? = some c ∧ Scene.Leads ⟨now, c⟩ ⟨now, c'⟩) ∨ Scene.Begun ⟨now, c'⟩

namespace Connection.Scene

variable {x y z : Scene}

theorem punctual_append (first rest : List Incident) (x : Scene) :
    x.punctual (first ++ rest) = (x.punctual first && (x.run first).punctual rest) := by
  induction first generalizing x with
  | nil => rfl
  | cons a first ih => rw [List.cons_append, punctual, ih, punctual, Bool.and_assoc, run_cons]

theorem Leads.refl (x : Scene) : x.Leads x := ⟨[], rfl, rfl⟩

theorem Leads.trans (h : x.Leads y) (h' : y.Leads z) : x.Leads z := by
  obtain ⟨first, hfirst, rfl⟩ := h
  obtain ⟨rest, hrest, rfl⟩ := h'
  exact ⟨first ++ rest, by rw [punctual_append, hfirst, hrest]; rfl, run_append first rest x⟩

theorem Begun.trans (h : x.Begun) (h' : x.Leads y) : y.Begun := by
  obtain ⟨start, link, number, settings, hx⟩ := h
  exact ⟨start, link, number, settings, hx.trans h'⟩

theorem leads_of_incident {a : Incident} (h : x.onTime a = true) : x.Leads (x.perform a) :=
  ⟨[a], by rw [punctual, h]; rfl, rfl⟩

variable (now : Nat) (c : Connection)

theorem leads_teardown : Leads ⟨now, c⟩ ⟨now, c.teardown⟩ :=
  ⟨[.close, .leave (fun _ => true) .abandoned, .halt], rfl, rfl⟩

theorem leads_release : Leads ⟨now, c⟩ ⟨now, c.release⟩ :=
  ⟨[.halt, .leave (fun _ => true) .abandoned], rfl, rfl⟩

theorem leads_forget (n : Ticket) : Leads ⟨now, c⟩ ⟨now, Switchboard.onTable (Table.forget n) c⟩ :=
  ⟨[.forget n], rfl, rfl⟩

theorem leads_finish (n : Ticket) : Leads ⟨now, c⟩ ⟨now, Switchboard.onTable (Table.finish n) c⟩ := by
  cases hy : c.generation.table.calls[n]? with
  | none =>
    have hsame : Switchboard.onTable (Table.finish n) c = c := by simp [Switchboard.onTable, Table.finish, hy]
    rw [hsame]
    exact .refl _
  | some y =>
    cases ho : y.isOpen with
    | true =>
      have hleft : Switchboard.onTable (Table.finish n) c =
          Switchboard.onTable (fun t => ((t.forget n).evict y.id).2) c := by
        simp [Switchboard.onTable, Table.finish, hy, ho]
      rw [hleft]
      exact ⟨[.forget n, .leave (fun z => z.id == y.id && !z.callerPresent) .evicted], rfl, rfl⟩
    | false =>
      have hleft : Switchboard.onTable (Table.finish n) c = Switchboard.onTable (Table.forget n) c := by
        simp [Switchboard.onTable, Table.finish, hy, ho]
      rw [hleft]
      exact leads_forget now c n

end Connection.Scene

namespace Switchboard

open Connection.Scene

variable {b b' b'' : Switchboard} {now : Nat}

theorem Moved.refl (now : Nat) (b : Switchboard) : Moved now b b := fun _ c hc => .inl ⟨c, hc, .refl _⟩

theorem Moved.trans (h : Moved now b b') (h' : Moved now b' b'') : Moved now b b'' := by
  intro i c'' hc''
  rcases h' i c'' hc'' with ⟨c', hc', hleads⟩ | hbegun
  · rcases h i c' hc' with ⟨c, hc, hleads'⟩ | hbegun
    · exact .inl ⟨c, hc, hleads'.trans hleads⟩
    · exact .inr (hbegun.trans hleads)
  · exact .inr hbegun

theorem moved_modify {f : Connection → Connection} (hf : ∀ c : Connection, Leads ⟨now, c⟩ ⟨now, f c⟩) (i : Nat) :
    Moved now b (b.modify i f) := by
  intro j c' hc'
  obtain ⟨c, hc, rfl⟩ := exists_of_modify hc'
  refine .inl ⟨c, hc, ?_⟩
  split
  · exact hf c
  · exact .refl _

theorem Move.moved (h : Move now b b') : Moved now b b' := by
  cases h with
  | @uninstall i f hi hf =>
    refine moved_modify (fun c => ?_) i
    rcases hf with rfl | rfl
    · exact leads_teardown now c
    · exact leads_release now c
  | install link number settings hi =>
    intro j c' hc'
    rcases Pending.getElem?_concat hc' with hold | ⟨-, rfl⟩
    · exact .inl ⟨c', hold, .refl _⟩
    · exact .inr ⟨now, link, number, settings, .refl _⟩
  | @leave w rest f hw hf =>
    refine moved_modify (fun c => ?_) w.connection
    rcases hf with rfl | rfl
    · exact leads_finish now c w.ticket
    · exact leads_forget now c w.ticket
  | @act i a => exact moved_modify (fun c => leads_of_incident (a := .peer a) rfl) i

theorem Moves.moved (h : Moves now b b') : Moved now b b' := by
  induction h with
  | refl => exact .refl now b
  | tail _ hm ih => exact ih.trans hm.moved

theorem Send.moved (h : Send now b b') : Moved now b b' := by
  cases h with
  | @request i c o hi hc ha =>
    intro j c' hc'
    by_cases hij : i = j
    · subst hij
      rw [List.getElem?_set_self (List.getElem?_eq_some_iff.mp hc).1] at hc'
      cases hc'
      exact .inl ⟨c, hc, leads_of_incident (a := .send o) rfl⟩
    · rw [List.getElem?_set_ne hij] at hc'
      exact .inl ⟨c', hc', .refl _⟩

theorem Step.moved_board (h : Step now b b') : Moved now b b' := by
  cases h with
  | moved hm => exact Moves.moved hm
  | sent hs => exact hs.moved
  | failed hs _ hm => exact hs.moved.trans (Moves.moved hm)

end Switchboard

namespace Session

open Connection.Scene

variable {s : Session} {a : Action} {actions : List Action}

/-- While time passes on a virtual clock, it passes on time for every connection. -/
theorem leads_pass {ms i : Nat} {c : Connection} (hrest : s.AtRest) (htimers : ∀ t ∈ s.timers, s.now < t → s.now + ms ≤ t)
    (hc : s.connections[i]? = some c) : Leads ⟨s.now, c⟩ ⟨s.now + ms, c⟩ := by
  have hturn : Turn.dispatcher i ∈ s.turns := by
    have hlt := (List.getElem?_eq_some_iff.mp hc).1
    simp [turns, hlt]
  have hready : c.isReady s.now = false := by
    have h := hrest _ hturn
    rwa [isReady, hc, Option.any_some] at h
  refine leads_of_incident (a := .pass ms) ?_
  show (isAtRest ⟨s.now, c⟩ && c.timer?.all fun t => s.now + ms ≤ t) = true
  rw [isAtRest, hready, Bool.not_false, Bool.true_and, Connection.timer?]
  cases hr : c.running with
  | false => rfl
  | true =>
    have hatRest : isAtRest ⟨s.now, c⟩ = true := by rw [isAtRest, hready]; rfl
    have htimer : c.idleAt ∈ s.timers := by
      refine List.mem_append_left _ (List.mem_append_left _ (List.mem_filterMap.mpr ⟨c, List.mem_of_getElem? hc, ?_⟩))
      rw [Connection.timer?, if_pos hr]
    simpa using htimers _ htimer (lt_idleAt_of_isAtRest hatRest hr)

/-- What a step on a virtual clock does to the connections. -/
theorem begun_perform (hbegun : ∀ (i : Nat) (c : Connection), s.connections[i]? = some c → Begun ⟨s.now, c⟩)
    (hpass : ∀ ms, a = .pass ms → s.AtRest ∧ ∀ t ∈ s.timers, s.now < t → s.now + ms ≤ t) :
    ∀ (i : Nat) (c : Connection), (s.perform a).connections[i]? = some c → Begun ⟨(s.perform a).now, c⟩ := by
  have hmoved {b : Switchboard} (h : Switchboard.Moved s.now s.board b) {i : Nat} {c : Connection}
      (hc : b.connections[i]? = some c) : Begun ⟨s.now, c⟩ := by
    rcases h i c hc with ⟨c₀, hc₀, hleads⟩ | hnew
    · exact (hbegun i c₀ hc₀).trans hleads
    · exact hnew
  intro i c hc
  rcases pass_or_beside a s with ⟨ms, rfl⟩ | hbeside
  · obtain ⟨hrest, htimers⟩ := hpass ms rfl
    exact (hbegun i c hc).trans (leads_pass hrest htimers hc)
  · rw [hbeside.now]
    rcases dispatch_or_step a s with ⟨j, rfl⟩ | ⟨-, hstep⟩
    · exact hmoved (Switchboard.moved_modify (fun c => leads_of_incident (a := .turn) rfl) j) hc
    · exact hmoved hstep.moved_board hc

theorem begun_run (hclock : OnClock actions s)
    (hbegun : ∀ (i : Nat) (c : Connection), s.connections[i]? = some c → Begun ⟨s.now, c⟩) :
    ∀ (i : Nat) (c : Connection), (s.run actions).connections[i]? = some c → Begun ⟨(s.run actions).now, c⟩ := by
  induction actions generalizing s with
  | nil => exact hbegun
  | cons a actions ih => exact ih hclock.2 (begun_perform hbegun hclock.1)

/-- **The connections of a client have timelines.** On a virtual clock, what became of a connection since its begin is a
sequence of incidents that are all on time. -/
theorem timeline_of_run (config : Config) (codec : Codec) (h : OnClock actions (ofConfig config codec)) :
    let s := (ofConfig config codec).run actions
    ∀ (i : Nat) (c : Connection), s.connections[i]? = some c → Begun ⟨s.now, c⟩ :=
  begun_run h fun i c hc => by simp [ofConfig] at hc

end Session

end RemoteCall
