import RemoteCall.Proofs.Connection.Sending
import RemoteCall.Proofs.Session.Course

/-!
# Calls that cannot be sent

A call can fail before it has an id, and then nothing has happened. It can also fail after it got one: the id is taken,
or the request cannot be written. Then the id is spent, and that is all.

* `Facade.send`: a call through a façade, over whatever channel its accessor gives.
* `Facade.Unready`: the failures before a call has an id, in their order.
* `Traceless`: what the failures leave behind, and that there are no others.
* `failed_call`: a call that cannot be sent leaves no trace, on any channel and in any session.
-/

namespace RemoteCall

open Pending (Ticket)

section Defs

namespace Facade

/-- Sends the call of a method over the channel that an accessor gives. -/
def send (now : Nat) (method : String) (args : List Json) (access : Except CallError Channel) (f : Facade) :
    Except CallError (Option Ticket) × Except CallError Channel :=
  match f.outgoing method args with
  | .error e => (.error e, access)
  | .ok o =>
    match access with
    | .error e => (.error e, access)
    | .ok ch => ((ch.send now o).1, .ok (ch.send now o).2)

/-- Why a call gets no id: no such method, wrong number of arguments, arguments that cannot be encoded, or no channel.
Each counts only if those before it do not apply. -/
inductive Unready {α : Type} (f : Facade) (method : String) (args : List Json) (access : Except CallError α) :
    CallError → Prop
  | unknownMethod (hm : f.routes.lookup method = none) :
    Unready f method args access (.unknownMethod f.service method)
  | wrongArity {route : Route} (hm : f.routes.lookup method = some route)
    (hn : args.length ≠ route.names.length) :
    Unready f method args access (.payload (.wrongArity f.service method route.names.length args.length))
  | unencodable {route : Route} {fault : PayloadFault} (hm : f.routes.lookup method = some route)
    (hn : args.length = route.names.length) (hd : f.codec.encode (arguments route.names args) = .error fault) :
    Unready f method args access (.payload fault)
  | noChannel {route : Route} {data : Bytes} {e : CallError} (hm : f.routes.lookup method = some route)
    (hn : args.length = route.names.length) (hd : f.codec.encode (arguments route.names args) = .ok data)
    (ha : access = .error e) : Unready f method args access e

end Facade

/-- What the failures of an attempt leave behind: the early ones nothing, and the late ones what is spent. There are
no others. -/
structure Traceless {σ α : Type} (early late : CallError → Prop) (spent : σ → Prop) (s : σ)
    (result : Except CallError α × σ) : Prop where
  untouched : ∀ e, early e → result = (.error e, s)
  charged : ∀ e, late e → result.1 = .error e ∧ spent result.2
  only : ∀ e, result.1 = .error e → early e ∨ late e

end Defs

/-! ## Calls -/

namespace Facade

variable {f : Facade} {method : String} {args : List Json}

/-- A call that gets no id fails before it is sent, and one that can be sent has its data. -/
theorem outgoing_cases (f : Facade) (method : String) (args : List Json) :
    (∃ e, f.outgoing method args = .error e ∧
      ∀ {α : Type} (access : Except CallError α), f.Unready method args access e) ∨
      ∃ route data, f.routes.lookup method = some route ∧ args.length = route.names.length ∧
        f.codec.encode (arguments route.names args) = .ok data ∧
        f.outgoing method args = .ok ⟨f.service, method, data, route.ack, f.timeoutMs⟩ := by
  unfold outgoing
  cases hm : f.routes.lookup method with
  | none => exact .inl ⟨_, rfl, fun _ => .unknownMethod hm⟩
  | some route =>
    by_cases hn : args.length = route.names.length
    · cases hd : f.codec.encode (arguments route.names args) with
      | error fault => exact .inl ⟨_, by simp [hn, hd], fun _ => .unencodable hm hn hd⟩
      | ok data => exact .inr ⟨route, data, rfl, hn, hd, by simp [hn, hd]⟩
    · exact .inl ⟨_, by simp [hn], fun _ => .wrongArity hm hn⟩

/-- A call that gets no id fails for want of arguments that can be sent, or of a channel. -/
theorem Unready.cases {α : Type} {access : Except CallError α} {e : CallError}
    (h : f.Unready method args access e) :
    f.outgoing method args = .error e ∨ (∃ o, f.outgoing method args = .ok o) ∧ access = .error e := by
  cases h with
  | unknownMethod hm => exact .inl (by simp [outgoing, hm])
  | wrongArity hm hn => exact .inl (by simp [outgoing, hm, hn])
  | unencodable hm hn hd => exact .inl (by simp [outgoing, hm, hn, hd])
  | noChannel hm hn hd ha => exact .inr ⟨⟨_, by simp [outgoing, hm, hn, hd]; rfl⟩, ha⟩

/-- A call leaves no trace if it fails early for what its façade or its accessor says, and late as sending over the
channel `a` does. -/
theorem traceless {σ α β : Type} {access : Except CallError α} {refuses : Outgoing → α → CallError → Prop}
    {spent : σ → Prop} {s : σ} {result : Except CallError β × σ}
    (hout : ∀ e, f.outgoing method args = .error e → result = (.error e, s))
    (hnone : ∀ o e, f.outgoing method args = .ok o → access = .error e → result = (.error e, s))
    (hlate : ∀ o a e, f.outgoing method args = .ok o → access = .ok a → refuses o a e →
      result.1 = .error e ∧ spent result.2)
    (honly : ∀ o a e, f.outgoing method args = .ok o → access = .ok a → result.1 = .error e → refuses o a e) :
    Traceless (f.Unready method args access)
      (fun e => ∃ o a, f.outgoing method args = .ok o ∧ access = .ok a ∧ refuses o a e) spent s result where
  untouched e he := by
    rcases he.cases with ho | ⟨⟨o, ho⟩, ha⟩
    · exact hout e ho
    · exact hnone o e ho ha
  charged := fun e ⟨o, a, ho, ha, hr⟩ => hlate o a e ho ha hr
  only e he := by
    rcases outgoing_cases f method args with ⟨e', ho, hunready⟩ | ⟨route, data, hm, hn, hd, ho⟩
    · rw [hout e' ho] at he
      cases he
      exact .inl (hunready access)
    · cases ha : access with
      | error e' =>
        rw [hnone _ e' ho ha] at he
        cases he
        exact .inl (.noChannel hm hn hd rfl)
      | ok a => exact .inr ⟨_, a, ho, rfl, honly _ a e ho ha he⟩

/-- A call that cannot be sent leaves no trace on the channel that its façade is given. -/
theorem traceless_send (f : Facade) (method : String) (args : List Json) (now : Nat)
    (access : Except CallError Channel) :
    Traceless (f.Unready method args access)
      (fun e => ∃ o ch, f.outgoing method args = .ok o ∧ access = .ok ch ∧ ch.Refuses o e)
      (fun access' => ∃ ch generation, access = .ok ch ∧ ch.generation.Spent generation ∧
        access' = .ok { ch with generation })
      access (f.send now method args access) := by
  refine traceless ?_ ?_ ?_ ?_
  · intro e ho
    simp [send, ho]
  · intro o e ho ha
    simp [send, ho, ha]
  · intro o ch e ho ha hr
    obtain ⟨generation, hspent, hsend⟩ := Channel.send_of_refuses hr now
    simp only [send, ho, ha, hsend]
    exact ⟨trivial, ch, generation, rfl, hspent, rfl⟩
  · intro o ch e ho ha he
    simp only [send, ho, ha] at he
    exact Channel.refuses_of_send he

end Facade

namespace Session

variable {s : Session} {i : Nat}

/-- When there is no connection to use, that is the error. -/
theorem connectFailure_of_channel {e : CallError} (h : s.channel = .error e) :
    ∃ addr reason, e = .connectFailure addr reason := by
  unfold channel at h
  grind

/-- A call that cannot be sent leaves no trace in its session. -/
theorem traceless_invoke (f : Facade) (method : String) (args : List Json) (s : Session) :
    Traceless (f.Unready method args s.channel)
      (fun e => ∃ o i, f.outgoing method args = .ok o ∧ s.channel = .ok i ∧
        ∃ c, s.connections[i]? = some c ∧ c.channel.Refuses o e)
      (fun s' => ∃ i c generation, s.channel = .ok i ∧ s.connections[i]? = some c ∧
        c.generation.Spent generation ∧ s' = { s with connections := s.connections.set i { c with generation } })
      s (s.invoke f method args) := by
  refine Facade.traceless ?_ ?_ ?_ ?_
  · intro e ho
    simp [invoke, ho]
  · intro o e ho hi
    simp [invoke, ho, hi]
  · rintro o i e ho hi ⟨c, hc, hr⟩
    obtain ⟨generation, hspent, hsend⟩ := Channel.send_of_refuses hr s.now
    obtain ⟨link, generation', hchannel, hafter⟩ := Connection.send_channel s.now o c
    rw [hsend] at hchannel
    obtain ⟨hresult, hhandle⟩ := Prod.mk.inj hchannel
    cases hhandle
    simp only [invoke, ho, hi, onConnection, hc, ← hresult, hafter]
    exact ⟨trivial, i, c, generation, rfl, hc, hspent, rfl⟩
  · intro o i e ho hi he
    obtain ⟨-, -, c, hc, -⟩ := channel_eq_ok_iff.mp hi
    obtain ⟨link, generation, hchannel, -⟩ := Connection.send_channel s.now o c
    simp only [invoke, ho, hi, onConnection, hc] at he
    have hsend : (c.channel.send s.now o).1 = (c.send s.now o).1 := by rw [hchannel]
    refine ⟨c, hc, Channel.refuses_of_send (hsend.trans ?_)⟩
    cases hr : (c.send s.now o).1 with
    | error e' =>
      simp only [hr] at he
      cases he
      rfl
    | ok ticket =>
      simp only [hr] at he
      cases he

/-! ## Main statement -/

/-- **A call that cannot be sent leaves no trace.** If there is no such method, the number of arguments is wrong, they
cannot be encoded, or there is no channel, the call fails for the first of these reasons and nothing changes. If the id
is taken or the request cannot be written, the call fails for that reason, the handle is as it was, one id is spent and
all calls are as they were. A call fails to be sent for no other reason. This holds for any channel of either kind that
an accessor gives, and for the channel in use of a session, where nothing else changes either. -/
theorem failed_call (f : Facade) (method : String) (args : List Json) :
    (∀ (now : Nat) (access : Except CallError Channel),
      Traceless (f.Unready method args access)
        (fun e => ∃ o ch, f.outgoing method args = .ok o ∧ access = .ok ch ∧ ch.Refuses o e)
        (fun access' => ∃ ch generation, access = .ok ch ∧ ch.generation.Spent generation ∧
          access' = .ok { ch with generation })
        access (f.send now method args access)) ∧
    ∀ s : Session, (∀ e, s.channel = .error e → ∃ addr reason, e = .connectFailure addr reason) ∧
      Traceless (f.Unready method args s.channel)
        (fun e => ∃ o i, f.outgoing method args = .ok o ∧ s.channel = .ok i ∧
          ∃ c, s.connections[i]? = some c ∧ c.channel.Refuses o e)
        (fun s' => ∃ i c generation, s.channel = .ok i ∧ s.connections[i]? = some c ∧
          c.generation.Spent generation ∧ s' = { s with connections := s.connections.set i { c with generation } })
        s (s.invoke f method args) :=
  ⟨f.traceless_send method args, fun s => ⟨fun _ => connectFailure_of_channel, traceless_invoke f method args s⟩⟩

end Session

end RemoteCall
