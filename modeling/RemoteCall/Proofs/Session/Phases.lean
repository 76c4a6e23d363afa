import RemoteCall.Proofs.Session.Chronicle
import RemoteCall.Proofs.Session.Requests

/-!
# What the phase of a client tells

The phase of a client says what became of its last attempt to connect, or that the connection was released after it.
A refused attempt leaves the connection in use as it is, so a client whose phase is down may still have one.

* `not_downIsUnusable`: a client whose phase is down sends requests over the connection that it has.
* `connected`: whether attempts and releases leave a connection in use.
* `Attached`: the invariant. It is kept by each part of a course, and so by each step.
* `down_client`: what a client can do while its phase is down, by the history of the run.
-/

namespace RemoteCall.Session

section Defs

/-- A client can send nothing: there is no connection to use, and whatever comes next writes no request. -/
structure Unusable (s : Session) : Prop where
  channel : ∃ addr reason, s.channel = .error (.connectFailure addr reason)
  silent : ∀ (a : Action) (i : Nat), ∀ p ∈ s.written i a, p.request? = none

/-- A client whose phase is down can send nothing. -/
def DownIsUnusable : Prop :=
  ∀ (config : Config) (actions : List Action), ((ofConfig config).run actions).client.phase = some .down →
    ((ofConfig config).run actions).Unusable

/-- Whether a connection is in use after an event: an accepted attempt brings one, a release takes it away, and a
refused attempt changes nothing. -/
def Event.leaves (before : Bool) : Event → Bool
  | attempt accepted => accepted || before
  | release => false

/-- Whether attempts and releases leave a connection in use. -/
def connected (E : List Event) : Bool := E.foldl Event.leaves false

/-- As long as someone holds the client, its attempts and releases tell whether a connection is in use. -/
def Attached (E : List Event) (s : Session) : Prop :=
  s.client.released = false → s.client.installed.isSome = connected E

/-- The connection of an earlier attempt is still in use, and only refused attempts came after it. It is as usable as
its link is, and requests go over no other. -/
structure KeepsEarlier (E : List Event) (s : Session) : Prop where
  refused : ∃ before n, E = before ++ .attempt true :: List.replicate (n + 1) (.attempt false)
  inUse : ∃ i c, s.client.installed = some i ∧ s.connections[i]? = some c ∧
    c.generation.number = E.count (.attempt true) ∧
    s.channel = (if c.link.active = false then .error (.connectFailure s.client.config.remoteAddr .inactive)
      else if c.link.isWritable = false then .error (.connectFailure s.client.config.remoteAddr .notWritable)
      else .ok i) ∧
    ∀ (a : Action) (j : Nat), ∀ p ∈ s.written j a, p.request? ≠ none → j = i

end Defs

/-- The client is connected, its next attempt is refused, and it sends a request after that. -/
theorem not_downIsUnusable : ¬ DownIsUnusable := by
  intro h
  obtain ⟨-, hsilent⟩ := h {} [.connect, .commandFacade, .refuse true, .connect] (by decide +kernel)
  have hwritten := hsilent (.call 0 "ping" []) 0
  revert hwritten
  decide +kernel

variable {s s' : Session} {i : Nat} {E E' : List Event} {a : Action}

/-! ## Attempts and releases -/

@[simp] theorem connected_nil : connected [] = false := rfl

@[simp] theorem connected_concat (E : List Event) (e : Event) :
    connected (E ++ [e]) = e.leaves (connected E) := by
  simp [connected]

/-- What leaves a connection in use is an accepted attempt with refused ones after it. -/
theorem exists_of_connected (h : connected E = true) :
    ∃ before n, E = before ++ .attempt true :: List.replicate n (.attempt false) := by
  induction E using List.reverseRecOn with
  | nil => cases h
  | append_singleton E e ih =>
    rw [connected_concat] at h
    match e with
    | .release => cases h
    | .attempt true => exact ⟨E, 0, rfl⟩
    | .attempt false =>
      obtain ⟨before, n, rfl⟩ := ih (by simpa [Event.leaves] using h)
      refine ⟨before, n + 1, ?_⟩
      rw [List.replicate_succ', List.append_assoc]
      rfl

/-! ## The invariant -/

theorem Attached.of_eq (h : Attached E s) (hi : s'.client.installed = s.client.installed)
    (hr : s'.client.released = s.client.released) : Attached E s' := by
  intro hheld
  rw [hi]
  exact h (hr ▸ hheld)

theorem Attached.attempt (h : Attached E s) : Attached (E ++ [.attempt s.accepts]) s.connect.2 := by
  intro hheld
  have hremains : s.Remains True s.connect.2 := remains_connect s
  rw [connected_concat, (life_connect s).1, ← h (hremains.released ▸ hheld)]
  cases s.accepts <;> rfl

theorem Attached.disconnect (s : Session) : Attached (E ++ [.release]) s.disconnect := by
  intro _
  rw [connected_concat, client_disconnect]
  rfl

theorem Attached.course {kept : Prop} (hc : Course kept s E' s') (h : Attached E s) : Attached (E ++ E') s' := by
  induction hc generalizing E with
  | aside ha =>
    rw [List.append_nil]
    exact h.of_eq ha.installed ha.released
  | leave hf =>
    rw [List.append_nil]
    exact h.of_eq rfl rfl
  | attempt s => exact h.attempt
  | disconnect s => exact .disconnect s
  | trans _ _ ih ih' =>
    rw [← List.append_assoc]
    exact ih' (ih h)

/-- Every step keeps the invariant. -/
theorem Attached.perform (h : Attached E s) (a : Action) : Attached (E ++ s.events a) (s.perform a) := by
  have hasked {m : Session} (ha : s.Asked m) : Attached E m := by
    obtain ⟨connections, rfl⟩ := ha.frame
    exact h
  cases manner a s with
  | peer i act hp he heq =>
    rw [he, heq, List.append_nil]
    exact h
  | dispatcher i heq =>
    subst heq
    rw [show s.events (.turn (.dispatcher i)) = [] from rfl, List.append_nil]
    exact h
  | facade ha hp he hs =>
    rw [he, List.append_nil]
    exact h.of_eq hs.installed hs.released
  | idle hp he hs _ =>
    rw [he, List.append_nil]
    exact h.of_eq hs.installed hs.released
  | deed hp hd =>
    cases hd with
    | held ha hc => exact (hasked ha).course hc
    | givenUp ha hc heq =>
      intro hheld
      rw [heq, client_release] at hheld
      cases hheld

theorem Attached.run (h : Attached E s) (actions : List Action) :
    Attached (E ++ history actions s) (s.run actions) := by
  induction actions generalizing s E with
  | nil =>
    rw [history, List.append_nil]
    exact h
  | cons a actions ih =>
    rw [history, ← List.append_assoc]
    exact ih (h.perform a)

theorem attached_run (config : Config) (codec : Codec) (actions : List Action) :
    Attached (history actions (ofConfig config codec)) ((ofConfig config codec).run actions) :=
  Attached.run (E := []) (s := ofConfig config codec) (fun _ => rfl) actions

/-! ## What can be sent -/

/-- Every request that a step writes goes over the connection that `channel` gives. -/
theorem channel_of_written {p : Packet} (hp : p ∈ s.written i a) (hr : p.request? ≠ none) : s.channel = .ok i := by
  rcases written_cases i a s with hno | ⟨-, -, -, -, -, hchannel, -⟩
  · exact absurd (hno p hp) hr
  · exact hchannel

/-- If there is no connection to use, no step writes a request. -/
theorem unusable_of_channel {addr : String} {reason : ConnectReason}
    (h : s.channel = .error (.connectFailure addr reason)) : s.Unusable where
  channel := ⟨addr, reason, h⟩
  silent a i p hp := by
    by_contra hr
    rw [channel_of_written hp hr] at h
    cases h

theorem unusable_of_released (h : s.client.released = true) : s.Unusable := by
  have hchannel : s.channel = .error (.connectFailure "" .clientDropped) := by simp [channel, h]
  exact unusable_of_channel hchannel

theorem unusable_of_none (h : s.client.installed = none) : s.Unusable := by
  cases hr : s.client.released with
  | true => exact unusable_of_released hr
  | false =>
    have hchannel : s.channel = .error (.connectFailure s.client.config.remoteAddr .noConnection) := by
      simp [channel, hr, h]
    exact unusable_of_channel hchannel

/-- With a connection in use `channel` gives that one, if its link is active and writable. -/
theorem channel_of_installed {c : Connection} (hr : s.client.released = false) (hi : s.client.installed = some i)
    (hc : s.connections[i]? = some c) : s.channel =
      if c.link.active = false then .error (.connectFailure s.client.config.remoteAddr .inactive)
      else if c.link.isWritable = false then .error (.connectFailure s.client.config.remoteAddr .notWritable)
      else .ok i := by
  simp [channel, hr, hi, hc]

/-- A client that is connected while its phase is down has the connection of its last accepted attempt. -/
theorem keepsEarlier (hlived : Lived E s) (hattached : Attached E s) (hsound : s.board.Sound)
    (hp : s.client.phase = some .down) (hr : s.client.released = false) (hc : connected E = true) :
    s.KeepsEarlier E := by
  constructor
  · obtain ⟨before, n, rfl⟩ := exists_of_connected hc
    cases n with
    | zero =>
      -- an accepted attempt at the end would have left the phase up
      have hup := hlived.last.mpr (by simp)
      rw [hp] at hup
      cases hup
    | succ n => exact ⟨before, n, rfl⟩
  · obtain ⟨i, hi⟩ := Option.isSome_iff_exists.mp ((hattached hr).trans hc)
    have hget : s.connections[i]? = some _ := List.getElem?_eq_getElem (hsound.inside i hi)
    refine ⟨i, _, hi, hget, ?_, channel_of_installed hr hi hget, fun a j p hp hreq => ?_⟩
    · rw [hlived.number i _ hget, hlived.newest i hi, hlived.made]
    · obtain ⟨-, hj, -⟩ := channel_eq_ok_iff.mp (channel_of_written hp hreq)
      exact Option.some.inj (hj.symm.trans hi)

/-! ## Main statement -/

/-- **What a client can do while its phase is down.** If its attempts and releases have left a connection in use, and
someone holds the client, then only refused attempts came after the one that made it, and the client works on over
that connection. Otherwise the client can send nothing. -/
theorem down_client (config : Config) (codec : Codec) (actions : List Action) :
    let s := (ofConfig config codec).run actions
    let E := history actions (ofConfig config codec)
    s.client.phase = some .down →
      if s.client.released = false ∧ connected E = true then s.KeepsEarlier E else s.Unusable := by
  intro s E hp
  have hattached : Attached E s := attached_run config codec actions
  split
  · rename_i h
    have hsound := sound_run (sound_ofConfig config codec) actions
    exact keepsEarlier (lived_run config codec actions) hattached hsound hp h.1 h.2
  · rename_i h
    cases hr : s.client.released with
    | true => exact unusable_of_released hr
    | false =>
      have hnone : s.client.installed.isSome = false := by
        rw [hattached hr]
        exact Bool.eq_false_iff.mpr fun hc => h ⟨hr, hc⟩
      exact unusable_of_none (Option.not_isSome_iff_eq_none.mp (Bool.eq_false_iff.mp hnone))

/-- An attempt that is refused after an accepted one. -/
theorem down_after_refusal :
    let actions : List Action := [.connect, .refuse true, .connect]
    let s := (ofConfig {}).run actions
    s.client.phase = some .down ∧ s.channel = .ok 0 ∧ s.KeepsEarlier (history actions (ofConfig {})) := by
  intro actions s
  have hdown : s.client.phase = some .down := by decide +kernel
  have hconnected : s.client.released = false ∧ connected (history actions (ofConfig {})) = true := by decide +kernel
  have h := down_client {} .json actions hdown
  rw [if_pos hconnected] at h
  exact ⟨hdown, by decide +kernel, h⟩

end RemoteCall.Session
