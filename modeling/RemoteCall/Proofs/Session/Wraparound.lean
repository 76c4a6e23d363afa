import RemoteCall.Proofs.Session.Numbering
import RemoteCall.Proofs.Session.Requests

/-!
# A call whose id is taken

When the ids of a connection begin again, a call may find that an older one still waits under its id. It fails then, and
nothing else comes of it: one id is spent, and everything goes on as if nobody had called.

* `Unharmed`: what holds of a session in which a call has found its id taken.
* `invoke_eq_taken_iff`: when a call finds its id taken, and `unharmed_of_taken`: what comes of it.
* `Reaches.calls`: calls without an answer spend one id each.
* `ids_begin_again`: the ids of a connection are counted with 32 bits, and it does no harm that they begin again.
-/

namespace RemoteCall

open Pending (Table)

namespace Session

section Defs

/-- A call through a façade has found the id taken that it got on a connection, and done no harm. -/
structure Unharmed (i : Nat) (f : Facade) (method : String) (args : List Json) (id : UInt32) (s : Session) : Prop where
  /-- One id of the connection is spent, and nothing else has changed. -/
  spent : (s.invoke f method args).2 = s.spendId i
  /-- Nothing was written over any connection. -/
  silent : ∀ j, (s.invoke f method args).2.outbound j = s.outbound j
  /-- Each call stands as it stood, with its id and its deadline. -/
  kept : ∀ w, (s.invoke f method args).2.board.call? w = s.board.call? w
  /-- The next id goes to the next call that gets as far as the connection, whoever makes it and whatever comes first. -/
  next : ∀ (t : Session) (later : List Action) (d : Draw), t.connections = (s.spendId i).connections →
    (draws i later t).head? = some d → d.id = id + 1
  /-- What follows is what would follow if the id had been spent and nobody had called, but that the one who called
  stands behind those who called before, and has an error. -/
  call : ∀ (facade : FacadeId) (later : List Action), s.facade? facade = some f →
    (s.perform (.call facade method args)).run later =
      ((s.spendId i).run (later.filterMap (Action.without s.callers.length))).withCaller s.callers.length
        ⟨.result facade, .ended s.now (.result (.error (.duplicateId id)))⟩
  /-- Likewise for the ping of one who asks whether the connection lives. -/
  ping : ∀ later : List Action, s.client.command.bind s.facade? = some f → method = "ping" → args = [] →
    (s.perform .askLiveness).run later =
      ((s.spendId i).run (later.filterMap (Action.without s.callers.length))).withCaller s.callers.length
        ⟨.liveness, .ended s.now (.liveness false)⟩
  /-- So those who called before stand at each later moment where they would stand without the call. -/
  elders : ∀ (facade : FacadeId) (later : List Action) (k : Nat), s.facade? facade = some f → k < s.callers.length →
    ((s.perform (.call facade method args)).run later).callers[k]? =
      ((s.spendId i).run (later.filterMap (Action.without s.callers.length))).callers[k]?

/-- A façade has a connection to use, whose generation is known. -/
structure Reaches (i : Nat) (id : FacadeId) (f : Facade) (g : Generation) (s : Session) : Prop where
  facade : s.facade? id = some f
  channel : s.channel = .ok i
  generation : ∃ c, s.connections[i]? = some c ∧ c.generation = g

end Defs

variable {s : Session} {i : Nat} {c : Connection} {f : Facade} {method : String} {args : List Json} {o : Outgoing}
  {id : UInt32}

/-! ## A call whose id is taken -/

theorem invoke_of_taken (hi : s.channel = .ok i) (hc : s.connections[i]? = some c)
    (ho : f.outgoing method args = .ok o) (hack : o.ack = .yes)
    (hid : c.generation.table.holds c.generation.nextId = true) :
    s.invoke f method args = (.error (.duplicateId c.generation.nextId), s.spendId i) := by
  simp only [invoke, ho, hi, onConnection, hc, Connection.send, hack, Generation.takeId, Connection.onTable,
    Generation.onTable, Table.register_of_holds hid, spendId, modify, modify_eq_set _ hc]
  rfl

/-- A call fails because its id is taken just if it is an answered one, there is a connection to use, and a call stands
there under the next id. -/
theorem invoke_eq_taken_iff : (s.invoke f method args).1 = .error (.duplicateId id) ↔
    ∃ i c, s.channel = .ok i ∧ s.connections[i]? = some c ∧ id = c.generation.nextId ∧
      (∃ o, f.outgoing method args = .ok o ∧ o.ack = .yes) ∧
        c.generation.table.holds c.generation.nextId = true := by
  constructor
  · intro herr
    rcases (traceless_invoke f method args s).only _ herr with hearly | ⟨o, i, ho, hi, c, hc, hr⟩
    · rcases hearly.cases with hout | ⟨-, hi⟩
      · exact absurd rfl (Facade.ne_duplicateId_of_outgoing hout id)
      · obtain ⟨addr, reason, heq⟩ := connectFailure_of_channel hi
        cases heq
    · obtain ⟨generation, -, hsend⟩ := Channel.send_of_refuses hr s.now
      have htaken := Channel.send_eq_taken_iff.mp (congrArg Prod.fst hsend)
      exact ⟨i, c, hi, hc, htaken.1, ⟨o, ho, htaken.2.1⟩, htaken.2.2⟩
  · rintro ⟨i, c, hi, hc, rfl, ⟨o, ho, hack⟩, hid⟩
    rw [invoke_of_taken hi hc ho hack hid]

/-! ## One more caller with an error -/

theorem addCaller_eq_withCaller (purpose : Purpose) (stage : CallerStage) (s : Session) :
    (s.addCaller purpose stage).2 = s.withCaller s.callers.length ⟨purpose, stage⟩ := by
  rw [addCaller, withCaller, List.insertIdx_length_self]

/-- Someone who has an answer at once leaves all that follows as it is without it. -/
theorem run_addCaller (purpose : Purpose) (moment : Nat) (answer : Answer) (later : List Action) (s : Session) :
    (s.addCaller purpose (.ended moment answer)).2.run later =
      (s.run (later.filterMap (Action.without s.callers.length))).withCaller s.callers.length
        ⟨purpose, .ended moment answer⟩ := by
  rw [addCaller_eq_withCaller]
  exact run_withCaller rfl (Nat.le_refl _) later

theorem unharmed_of_taken (hi : s.channel = .ok i) (herr : (s.invoke f method args).1 = .error (.duplicateId id)) :
    s.Unharmed i f method args id := by
  obtain ⟨j, c, hj, hc, rfl, ⟨o, ho, hack⟩, hid⟩ := invoke_eq_taken_iff.mp herr
  rw [hi] at hj
  cases hj
  have hinvoke := invoke_of_taken hi hc ho hack hid
  have hc' : (s.spendId i).connections[i]? = some { c with generation := c.generation.skipId } :=
    Switchboard.getElem?_modify_self (b := s.board) hc
  have hsame (j : Nat) (hji : i ≠ j) : (s.spendId i).connections[j]? = s.connections[j]? :=
    Switchboard.getElem?_modify_of_ne (b := s.board) hji
  have hlater (facade : FacadeId) (later : List Action) (hf : s.facade? facade = some f) :
      (s.perform (.call facade method args)).run later =
        ((s.spendId i).run (later.filterMap (Action.without s.callers.length))).withCaller s.callers.length
          ⟨.result facade, .ended s.now (.result (.error (.duplicateId c.generation.nextId)))⟩ := by
    have hcall : s.perform (.call facade method args) =
        ((s.spendId i).addCaller (.result facade)
          (.ended s.now (.result (.error (.duplicateId c.generation.nextId))))).2 := by
      simp only [perform, Session.call, hf, hinvoke]
      rfl
    rw [hcall]
    exact run_addCaller _ _ _ later (s.spendId i)
  constructor
  case spent => rw [hinvoke]
  case silent =>
    intro j
    rw [hinvoke]
    by_cases hji : i = j
    · subst hji
      rw [outbound_of_getElem? hc, outbound_of_getElem? hc']
    · simp only [outbound, hsame j hji]
  case kept =>
    intro w
    rw [hinvoke]
    by_cases hwi : i = w.connection
    · subst hwi
      have hnew := Switchboard.call?_of_getElem? (b := (s.spendId w.connection).board) hc'
      have hold := Switchboard.call?_of_getElem? (b := s.board) hc
      exact hnew.trans hold.symm
    · exact Switchboard.call?_modify_of_ne (b := s.board) hwi
  case next =>
    intro t later d ht hd
    exact id_of_head? (ht ▸ hc') later hd
  case call => exact hlater
  case elders =>
    intro facade later k hf hk
    rw [hlater facade later hf]
    exact List.getElem?_insertIdx_of_lt hk
  case ping =>
    rintro later hf rfl rfl
    have hactive : s.isTransportActive = true := by
      obtain ⟨hinstalled, d, hd, hactive⟩ := channel_eq_ok hi
      simp [isTransportActive, hinstalled, hd, hactive]
    have hask : s.perform .askLiveness =
        ((s.spendId i).addCaller .liveness (.ended s.now (.liveness false))).2 := by
      simp only [perform, askLiveness, probe, hactive, hf, hinvoke]
      rfl
    rw [hask]
    exact run_addCaller _ _ _ later (s.spendId i)

/-! ## Many calls without an answer -/

/-- A call without an answer spends an id, and leaves the calls that stand as they are. -/
theorem Reaches.call {facade : FacadeId} {g : Generation} (h : s.Reaches i facade f g)
    (ho : f.outgoing method args = .ok o) (hack : o.ack = .no) :
    (s.perform (.call facade method args)).Reaches i facade f g.skipId := by
  obtain ⟨c, hc, rfl⟩ := h.generation
  obtain ⟨hheld, hi, d, hd, hactive, hwritable⟩ := channel_eq_ok_iff.mp h.channel
  rw [hc] at hd
  cases hd
  obtain ⟨link, hlink, hsend⟩ : ∃ link : Memory.Link, (link.active = true ∧ link.isWritable = true) ∧
      (c.send s.now o).2 = { c with link, generation := c.generation.skipId } := by
    refine ⟨(c.link.write (.request (o.request c.generation.nextId))).2, ?_, ?_⟩
    · rcases Connection.write_cases (.request (o.request c.generation.nextId)) c.link with ⟨e, hw⟩ | hw <;> rw [hw]
      · exact ⟨hactive, hwritable⟩
      · exact ⟨hactive, hwritable⟩
    · simp only [Connection.send, hack]
      rfl
  obtain ⟨callers, hperform⟩ : ∃ callers, s.perform (.call facade method args) =
      { s with connections := s.connections.set i { c with link, generation := c.generation.skipId }, callers } := by
    simp only [perform, Session.call, h.facade, invoke, ho, h.channel, onConnection, hc, hsend]
    rcases (c.send s.now o).1 with e | (_ | ticket) <;> exact ⟨_, rfl⟩
  have hget : (s.perform (.call facade method args)).connections[i]? =
      some { c with link, generation := c.generation.skipId } := by
    rw [hperform]
    exact List.getElem?_set_self (List.getElem?_eq_some_iff.mp hc).1
  refine ⟨facade?_perform h.facade _, channel_eq_ok_iff.mpr ⟨?_, ?_, _, hget, hlink.1, hlink.2⟩, _, hget, rfl⟩
  · rw [hperform]
    exact hheld
  · rw [hperform]
    exact hi

theorem Reaches.calls {facade : FacadeId} {g : Generation} (h : s.Reaches i facade f g)
    (ho : f.outgoing method args = .ok o) (hack : o.ack = .no) (n : Nat) :
    (s.run (List.replicate n (.call facade method args))).Reaches i facade f
      { g with nextId := g.nextId + UInt32.ofNat n } := by
  induction n generalizing s g with
  | zero => simpa using h
  | succ n ih =>
    have hrun := ih (h.call ho hack)
    rw [List.replicate_succ, run_cons]
    simpa [Generation.skipId, UInt32.add_assoc, UInt32.add_comm] using hrun

/-! ## Main statement -/

/-- **It does no harm that ids begin again.** Take any channel, and whatever becomes of it between its calls. The id that
is handed out after `k` others is `k` modulo 2³², whether its call has an answer or none, or fails; so no two of 2³² ids
in a row are the same. A call through a façade finds its id taken just if it is an answered one, and an answered call
still stands that got its id some positive multiple of 2³² ids earlier. The channel is then as before, but that the id
is spent.

In each run of a session this holds of every connection with the ids that were handed out on it. A call there finds its
id taken for no other reason, also if it is the ping of someone who asks whether the connection lives. Then nothing is
written over any connection, each call that stands keeps its id and its deadline, and the next call that gets to the
connection has the next id. Whatever happens later happens as if the id had been spent without a call; so who called
before gets what it would have got. What the one who called makes of the error is its own matter: a task that finds no
life on account of it releases the connection, as after any ping that fails. -/
theorem ids_begin_again : (∀ (D : List Draw) (ch : Channel), Channel.History D ch → Channel.Wraps D ch) ∧
    ∀ (config : Config) (codec : Codec) (actions : List Action),
      let start := ofConfig config codec
      let s := start.run actions
      (∀ i c, s.connections[i]? = some c → Channel.Wraps (draws i actions start) c.channel) ∧
      (∀ f method args id, (s.invoke f method args).1 = .error (.duplicateId id) ↔
        ∃ i c, s.channel = .ok i ∧ s.connections[i]? = some c ∧ id = c.generation.nextId ∧
          (∃ o, f.outgoing method args = .ok o ∧ o.ack = .yes) ∧
            Channel.Meets (draws i actions start) c.generation.table) ∧
      ∀ i f method args id, s.channel = .ok i → (s.invoke f method args).1 = .error (.duplicateId id) →
        s.Unharmed i f method args id := by
  refine ⟨fun D ch h => h.wraps, fun config codec actions => ?_⟩
  intro start s
  refine ⟨fun i c hc => (history_draws config codec actions hc).wraps, fun f method args id => ?_,
    fun i f method args id hi herr => unharmed_of_taken hi herr⟩
  rw [invoke_eq_taken_iff]
  have hmeets (i : Nat) (c : Connection) (hc : s.connections[i]? = some c) :
      c.generation.table.holds c.generation.nextId = true ↔
        Channel.Meets (draws i actions start) c.generation.table :=
    (history_draws config codec actions hc).numbered.holds_iff
  constructor
  · rintro ⟨i, c, hi, hc, hid, hack, hholds⟩
    exact ⟨i, c, hi, hc, hid, hack, (hmeets i c hc).mp hholds⟩
  · rintro ⟨i, c, hi, hc, hid, hack, hmeet⟩
    exact ⟨i, c, hi, hc, hid, hack, (hmeets i c hc).mpr hmeet⟩

/-- A call still waits when all other ids have been handed out to calls without an answer, and the next call finds its
id taken. -/
theorem id_taken_after_all_others :
    let service : ServiceDefinition := { simpleName := "Desk", methods := [⟨"ask", [], false⟩, ⟨"tell", [], true⟩] }
    let setup : List Action := [.newFacade ⟨service, 1000, "/desk", declaredNames⟩ "desk", .connect, .call 0 "ask" []]
    let actions := setup ++ List.replicate (2 ^ 32 - 1) (.call 0 "tell" [])
    let s := (ofConfig {}).run actions
    ∃ f c, s.facade? 0 = some f ∧ (s.invoke f "ask" []).1 = .error (.duplicateId 0) ∧ s.Unharmed 0 f "ask" [] 0 ∧
      s.connections[0]? = some c ∧ c.generation.table.calls = [Table.newCall 0 0 1000] ∧
        Channel.History (draws 0 actions (ofConfig {})) c.channel ∧
          Channel.Wraps (draws 0 actions (ofConfig {})) c.channel ∧
            Channel.Meets (draws 0 actions (ofConfig {})) c.generation.table := by
  intro service setup actions s
  have hrequests : (((ofConfig {}).run setup).facade? 0).map (fun f => (f.outgoing "ask" [], f.outgoing "tell" [])) =
      some (.ok ⟨"/desk", "ask", [123, 125], .yes, 1000⟩, .ok ⟨"/desk", "tell", [123, 125], .no, 1000⟩) := by
    decide +kernel
  have hgeneration : (((ofConfig {}).run setup).connections[0]?).map Connection.generation =
      some { number := 1, nextId := 1, table := ⟨[Table.newCall 0 0 1000]⟩ } := by decide +kernel
  obtain ⟨f, hf, hboth⟩ := Option.map_eq_some_iff.mp hrequests
  obtain ⟨hasks, htells⟩ := Prod.mk.inj hboth
  have hsetup : ((ofConfig {}).run setup).Reaches 0 0 f
      { number := 1, nextId := 1, table := ⟨[Table.newCall 0 0 1000]⟩ } :=
    ⟨hf, by decide +kernel, Option.map_eq_some_iff.mp hgeneration⟩
  have hafter : s.Reaches 0 0 f { number := 1, nextId := 0, table := ⟨[Table.newCall 0 0 1000]⟩ } := by
    have hrun := hsetup.calls htells rfl (2 ^ 32 - 1)
    rw [← run_append] at hrun
    exact hrun
  obtain ⟨c, hc, hg⟩ := hafter.generation
  have herr : (s.invoke f "ask" []).1 = .error (.duplicateId 0) := by
    rw [invoke_of_taken hafter.channel hc hasks rfl (by rw [hg]; rfl), hg]
  obtain ⟨hany, hall⟩ := ids_begin_again
  obtain ⟨hwraps, htaken, hunharmed⟩ := hall {} .json actions
  obtain ⟨i, d, hi, hd, -, -, hmeets⟩ := (htaken f "ask" [] 0).mp herr
  rw [hafter.channel] at hi
  cases hi
  rw [hc] at hd
  cases hd
  have hhistory := history_draws {} .json actions hc
  exact ⟨f, c, hafter.facade, herr, hunharmed 0 f "ask" [] 0 hafter.channel herr, hc, by rw [hg], hhistory,
    hany _ _ hhistory, hmeets⟩

end Session

end RemoteCall
