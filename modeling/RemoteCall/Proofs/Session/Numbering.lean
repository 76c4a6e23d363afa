import RemoteCall.Proofs.Connection.Numbering
import RemoteCall.Proofs.Session.Bystanders
import RemoteCall.Proofs.Session.Ticks

/-!
# Ids in a session

Whatever happens in a session, each of its connections hands out its ids in turn: one for each call that is sent over it
while it is in use, and for each ping that asks whether it lives.

* `asks?`: what a step wants to have sent. It may be sent over the connection in use (`afterSending`), and what follows
  in the step sends nothing (`retains_perform`).
* `draws`: the ids that a connection hands out in a run.
* `history_draws`: they are the history of its channel.
-/

namespace RemoteCall

open Switchboard (Moves)

namespace Session

section Defs

/-- The ping of someone who asks whether the connection lives. -/
def ping? (s : Session) : Option Outgoing :=
  (s.client.command.bind s.facade?).bind fun f => (f.outgoing "ping" []).toOption

/-- Whether a task begins a tick in its turn. -/
def isDue (j : Nat) (s : Session) : Bool :=
  s.client.tasks[j]?.any fun t => t.stage = .resting ∧ t.cancelled = false ∧ t.next ≤ s.now ∧ s.client.released = false

/-- What a step wants to have sent: the call of someone who calls, or a ping. -/
def asks? (a : Action) (s : Session) : Option Outgoing :=
  match a with
  | .call id method args => (s.facade? id).bind fun f => (f.outgoing method args).toOption
  | .askLiveness => s.ping?
  | .turn (.task j) => if s.isDue j then s.ping? else none
  | _ => none

/-- The connections after something was sent over the one in use, if there is one. -/
def afterSending (o? : Option Outgoing) (s : Session) : List Connection :=
  match o?, s.channel with
  | some o, .ok i => s.connections.modify i fun c => (c.send s.now o).2
  | _, _ => s.connections

/-- The id that a connection hands out for something that is to be sent: if it is the one in use. -/
def draw? (i : Nat) (o? : Option Outgoing) (s : Session) : Option Draw :=
  match o?, s.channel, s.connections[i]? with
  | some o, .ok j, some c => if j = i then some ⟨c.channel, s.now, o⟩ else none
  | _, _, _ => none

/-- The ids that a connection hands out in a run, the first one first. -/
def draws (i : Nat) : List Action → Session → List Draw
  | [], _ => []
  | a :: actions, s => (s.draw? i (s.asks? a)).toList ++ draws i actions (s.perform a)

/-- One more id of a connection was handed out, and nothing else has changed. -/
def spendId (i : Nat) (s : Session) : Session := s.modify i fun c => { c with generation := c.generation.skipId }

/-- All connections are there still, and none has handed out an id. -/
def Retains (l l' : List Connection) : Prop :=
  ∀ (i : Nat) (c : Connection), l[i]? = some c → ∃ c', l'[i]? = some c' ∧ c.Kept c'

end Defs

variable {s s' : Session} {i j : Nat} {c : Connection} {a : Action} {l l' l'' : List Connection}

/-! ## What a step sends -/

theorem Retains.refl (l : List Connection) : Retains l l := fun _ c hc => ⟨c, hc, .refl c⟩

theorem Retains.trans (h : Retains l l') (h' : Retains l' l'') : Retains l l'' := by
  intro i c hc
  obtain ⟨d, hd, hcd⟩ := h i c hc
  obtain ⟨e, he, hde⟩ := h' i d hd
  exact ⟨e, he, hcd.trans hde⟩

theorem retains_of_moves {b b' : Switchboard} {now : Nat} (h : Moves now b b') :
    Retains b.connections b'.connections :=
  fun _ _ hc => h.kept hc

theorem retains_modify {f : Connection → Connection} (hf : ∀ c : Connection, c.Kept (f c)) (j : Nat) (s : Session) :
    Retains s.connections (s.modify j f).connections :=
  fun _ _ hc => Switchboard.kept_modify (b := s.board) hf hc j

theorem retains_finish (w : Waiting) (s : Session) : Retains s.connections (s.finish w).connections := by
  rw [finish_eq]
  exact retains_modify (Switchboard.kept_leave (.inl rfl)) _ s

theorem retains_endTick (j : Nat) (t : ReconnectTask) (alive : Bool) (s : Session) :
    Retains s.connections (s.endTick j t alive).connections :=
  retains_of_moves (moves_endTick rfl t alive)

theorem connections_invoke (f : Facade) (method : String) (args : List Json) (s : Session) :
    (s.invoke f method args).2.connections = s.afterSending (f.outgoing method args).toOption := by
  unfold invoke
  cases f.outgoing method args with
  | error e => rfl
  | ok o =>
    simp only [afterSending, Except.toOption]
    cases hi : s.channel with
    | error e => rfl
    | ok i =>
      obtain ⟨-, c, hc, -⟩ := channel_eq_ok hi
      simp only [onConnection, hc, modify_eq_set _ hc]
      cases (c.send s.now o).1 <;> rfl

/-- Where nothing can be sent, nothing is. -/
theorem afterSending_of_inactive (h : s.isTransportActive = false) (o? : Option Outgoing) :
    s.afterSending o? = s.connections := by
  cases o? with
  | none => rfl
  | some o =>
    cases hi : s.channel with
    | error e => simp only [afterSending, hi]
    | ok i =>
      obtain ⟨hinstalled, c, hc, hactive⟩ := channel_eq_ok hi
      simp [isTransportActive, hinstalled, hc, hactive] at h

theorem connections_probe (s : Session) : s.probe.2.connections = s.afterSending s.ping? := by
  unfold probe
  cases hactive : s.isTransportActive with
  | false => exact (afterSending_of_inactive hactive _).symm
  | true =>
    unfold ping?
    cases s.client.command.bind s.facade? with
    | none => rfl
    | some f =>
      refine .trans ?_ (connections_invoke f "ping" [] s)
      simp only [Bool.not_true, Bool.false_eq_true, if_false]
      rcases s.invoke f "ping" [] with ⟨e | (_ | w), s'⟩ <;> rfl

theorem connections_call (id : FacadeId) (method : String) (args : List Json) (s : Session) :
    (s.call id method args).2.connections = s.afterSending (s.asks? (.call id method args)) := by
  simp only [call, asks?]
  cases s.facade? id with
  | none => rfl
  | some f =>
    refine .trans ?_ (connections_invoke f method args s)
    simp only
    rcases s.invoke f method args with ⟨e | (_ | w), s'⟩ <;> rfl

theorem connections_askLiveness (s : Session) :
    s.askLiveness.2.connections = s.afterSending (s.asks? .askLiveness) := by
  refine .trans ?_ (connections_probe s)
  unfold askLiveness
  rcases s.probe with ⟨alive | w, s'⟩ <;> rfl

theorem isDue_iff : s.isDue j = true ↔ ∃ t, s.Due j t := by
  unfold isDue
  rw [Option.any_eq_true]
  constructor
  · rintro ⟨t, ht, hdue⟩
    obtain ⟨hstage, hgoing, htime, hheld⟩ := of_decide_eq_true hdue
    exact ⟨t, ht, hstage, hgoing, htime, hheld⟩
  · rintro ⟨t, h⟩
    exact ⟨t, h.task, decide_eq_true ⟨h.resting, h.going, h.time, h.held⟩⟩

/-- A tick that begins sends a ping, and what follows sends nothing. -/
theorem retains_beginTick (j : Nat) (t : ReconnectTask) (s : Session) :
    Retains (s.afterSending s.ping?) (s.beginTick j t).connections := by
  have hprobe : (s.modifyTask j (ReconnectTask.takeTick s.now)).probe.2.connections = s.afterSending s.ping? :=
    connections_probe _
  rw [beginTick_eq, ← hprobe]
  rcases (s.modifyTask j (ReconnectTask.takeTick s.now)).probe with ⟨alive | w, s'⟩
  · exact retains_endTick j t alive s'
  · exact .refl _

theorem retains_runTask (j : Nat) (s : Session) :
    Retains (s.afterSending (s.asks? (.turn (.task j)))) (s.runTask j).connections := by
  cases hdue : s.isDue j with
  | true =>
    obtain ⟨t, ht⟩ := isDue_iff.mp hdue
    have hbegin : s.runTask j = s.beginTick j t := ht.perform
    rw [asks?, hdue, if_pos rfl, hbegin]
    exact retains_beginTick j t s
  | false =>
    rw [asks?, hdue, if_neg Bool.false_ne_true]
    show Retains s.connections (s.runTask j).connections
    have hturn := taskTurn j s
    generalize s.runTask j = s' at hturn
    cases hturn with
    | idle => exact .refl _
    | @ends t w o ht hstage ho => exact (retains_finish w s).trans (retains_endTick j t _ _)
    | @begins t h =>
      rw [isDue_iff.mpr ⟨t, h⟩] at hdue
      cases hdue
    | retires => exact .refl _

/-- In every step something may be sent, and what follows sends nothing. -/
theorem retains_perform (a : Action) (s : Session) :
    Retains (s.afterSending (s.asks? a)) (s.perform a).connections := by
  have hmoves {s' : Session} (h : Moves s.now s.board s'.board) : Retains s.connections s'.connections :=
    retains_of_moves h
  have hact (i : Nat) (act : Memory.Link.PeerAct) : Retains s.connections (s.peerActs i act).connections :=
    retains_modify (fun c => (c.turned_act act).kept) i s
  cases a with
  | connect => exact hmoves (moves_connect_board s)
  | start => exact hmoves (moves_start s)
  | stop => exact hmoves (moves_stop s)
  | dropClient => exact hmoves (moves_dropClient s)
  | enableReconnect plan => exact .refl _
  | refuse refuse => exact .refl _
  | newFacade r name =>
    have h : s.Same True (s.newFacade r).2 := same_newFacade r s
    show Retains s.connections (s.newFacade r).2.connections
    rw [h.connections]
    exact .refl _
  | commandFacade =>
    have h : s.Same True s.commandFacade.2 := same_commandFacade s
    show Retains s.connections s.commandFacade.2.connections
    rw [h.connections]
    exact .refl _
  | dataFacade =>
    have h : s.Same True s.dataFacade.2 := same_dataFacade s
    show Retains s.connections s.dataFacade.2.connections
    rw [h.connections]
    exact .refl _
  | letGo name => exact .refl _
  | call id method args =>
    rw [← connections_call]
    exact .refl _
  | askLiveness =>
    rw [← connections_askLiveness]
    exact .refl _
  | abort k => exact hmoves (moves_abort k s)
  | peer i act => exact hact i act
  | pass ms => exact .refl _
  | turn turn =>
    cases turn with
    | dispatcher i => exact retains_modify (fun c => (c.turned_dispatch s.now).kept) i s
    | server i =>
      show Retains s.connections (s.serve i).connections
      unfold serve
      split
      · exact hact i _
      · exact .refl _
    | caller k => exact hmoves (moves_resume k s)
    | task j => exact retains_runTask j s

/-! ## The ids of a connection -/

theorem draw?_of_none (hc : s.connections[i]? = none) (o? : Option Outgoing) : s.draw? i o? = none := by
  unfold draw?
  rw [hc]
  split <;> trivial

/-- Nothing is sent over a connection, or something is, and it gets the next id. -/
theorem afterSending_cases (hc : s.connections[i]? = some c) (o? : Option Outgoing) :
    (s.draw? i o? = none ∧ (s.afterSending o?)[i]? = some c) ∨
      ∃ o, s.draw? i o? = some ⟨c.channel, s.now, o⟩ ∧ (s.afterSending o?)[i]? = some (c.send s.now o).2 := by
  cases o? with
  | none => exact .inl ⟨rfl, hc⟩
  | some o =>
    cases hj : s.channel with
    | error e => exact .inl (by simp only [draw?, afterSending, hj, hc, and_self])
    | ok j =>
      simp only [draw?, afterSending, hj, hc]
      by_cases hji : j = i
      · subst hji
        exact .inr ⟨o, if_pos rfl, Switchboard.getElem?_modify_self (b := s.board) hc⟩
      · exact .inl ⟨if_neg hji, (Switchboard.getElem?_modify_of_ne (b := s.board) hji).trans hc⟩

theorem channel_send (now : Nat) (o : Outgoing) (c : Connection) :
    (c.send now o).2.channel = (c.channel.send now o).2 := by
  obtain ⟨link, generation, hsend, hafter⟩ := Connection.send_channel now o c
  rw [hsend, hafter]
  rfl

/-- What is sent over a connection continues its history. -/
theorem history_afterSending {D : List Draw} (hc : s.connections[i]? = some c) (h : Channel.History D c.channel)
    (o? : Option Outgoing) : ∃ d, (s.afterSending o?)[i]? = some d ∧
      Channel.History (D ++ (s.draw? i o?).toList) d.channel := by
  rcases afterSending_cases hc o? with ⟨hno, hsame⟩ | ⟨o, hdraw, hsent⟩
  · refine ⟨c, hsame, ?_⟩
    rw [hno, Option.toList_none, List.append_nil]
    exact h
  · refine ⟨_, hsent, ?_⟩
    rw [hdraw, channel_send]
    exact .draw h s.now o

/-- Each step adds the id that it hands out to those of a connection. -/
theorem history_perform {D : List Draw} (h : ∀ c, s.connections[i]? = some c → Channel.History D c.channel)
    (hnone : s.connections[i]? = none → D = []) (hc : (s.perform a).connections[i]? = some c) :
    Channel.History (D ++ (s.draw? i (s.asks? a)).toList) c.channel := by
  cases hold : s.connections[i]? with
  | none =>
    have hfresh := fresh_perform hold hc
    rw [hnone hold, draw?_of_none hold]
    exact .fresh hfresh.nextId hfresh.calls
  | some b =>
    obtain ⟨d, hd, hhistory⟩ := history_afterSending hold (h b hold) (s.asks? a)
    obtain ⟨c', hc', hkept⟩ := retains_perform a s i d hd
    rw [hc] at hc'
    cases hc'
    exact .kept hhistory ⟨hkept.nextId, hkept.length, hkept.follows⟩

theorem history_run {D : List Draw} (h : ∀ c, s.connections[i]? = some c → Channel.History D c.channel)
    (hnone : s.connections[i]? = none → D = []) (actions : List Action)
    (hc : (s.run actions).connections[i]? = some c) : Channel.History (D ++ draws i actions s) c.channel := by
  induction actions generalizing s D with
  | nil =>
    rw [draws, List.append_nil]
    exact h c hc
  | cons a actions ih =>
    rw [draws, ← List.append_assoc]
    refine ih (fun d hd => history_perform h hnone hd) (fun hstill => ?_) hc
    have hbefore : s.connections[i]? = none := by
      by_contra hsome
      obtain ⟨b, hb⟩ := Option.ne_none_iff_exists'.mp hsome
      obtain ⟨c', hc', -⟩ := progress hb a
      rw [hstill] at hc'
      cases hc'
    rw [hnone hbefore, draw?_of_none hbefore]
    rfl

/-- The ids that a connection has handed out since the session began. -/
theorem history_draws (config : Config) (codec : Codec) (actions : List Action)
    (hc : ((ofConfig config codec).run actions).connections[i]? = some c) :
    Channel.History (draws i actions (ofConfig config codec)) c.channel :=
  history_run (D := []) (fun c hc => by cases hc) (fun _ => rfl) actions hc

/-- The first id that a connection hands out is its next one. -/
theorem id_of_head? {d : Draw} (hc : s.connections[i]? = some c) (actions : List Action)
    (hd : (draws i actions s).head? = some d) : d.id = c.generation.nextId := by
  induction actions generalizing s c with
  | nil => cases hd
  | cons a actions ih =>
    rw [draws] at hd
    rcases afterSending_cases hc (s.asks? a) with ⟨hno, hsame⟩ | ⟨o, hdraw, -⟩
    · obtain ⟨c', hc', hkept⟩ := retains_perform a s i c hsame
      rw [hno] at hd
      rw [ih hc' hd, hkept.nextId]
    · rw [hdraw] at hd
      cases hd
      rfl

end Session

end RemoteCall
