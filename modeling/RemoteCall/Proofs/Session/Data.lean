import RemoteCall.Proofs.Session.Delivery
import RemoteCall.Proofs.Session.Routing

/-!
# The data service

What the methods of the data service are called, how many arguments they have and what these mean is written down twice:
in the definition of the service, and in the commands, whose arguments go by their places. Both agree. And what was put
can be got back: octets as a request of put carries them are read by get as the same octets, also if there are none,
which is not the same as no value.

* `DataCommand.members`: what the request of a command has to say, under the names that are declared.
* `DataCommand.Says`: a call is the one request of a command.
* `keepsData_perform`, `dataMade_run`: a client asks for the data service as it is defined, in every run.
* `got_of_put`: get undoes put.
* `data_service_agrees`: all of it, for every command in every run.
-/

namespace RemoteCall

section Defs

/-- How the data service is asked for. -/
def dataRequest : FacadeRequest where
  definition := dataService
  timeoutMs := dataService.defaultTimeout
  service := dataService.defaultServiceName
  naming := declaredNames

/-- Octets as an array of numbers. -/
def Json.octets (bs : Bytes) : Json := .list (bs.map fun b => .whole (.ofByte b))

/-- Whether a call was made wrongly: there is no such method, or it has another number of arguments. -/
def CallError.isMisuse : CallError → Bool
  | .unknownMethod _ _ => true
  | .payload (.wrongArity _ _ _ _) => true
  | _ => false

namespace DataCommand

/-- What the request of a command has to say, under the names that are declared for it. -/
def members (group : Option String) : DataCommand → List (String × Json)
  | exist key => [("key", .text key), ("group", groupJson group)]
  | put key data expireSeconds =>
    [("key", .text key), ("data", .octets data), ("expireSecond", .whole (.ofInt64 expireSeconds.toInt64)),
      ("group", groupJson group)]
  | get key => [("key", .text key), ("group", groupJson group)]
  | count => [("group", groupJson group)]
  | changeKey old new => [("oldKey", .text old), ("newKey", .text new), ("group", groupJson group)]
  | remove key => [("key", .text key), ("group", groupJson group)]
  | removeBatch keys => [("keys", .list (keys.map .text)), ("group", groupJson group)]
  | setMaxSize size => [("maxSize", .whole (.ofUInt64 size.toUInt64)), ("group", groupJson group)]

/-- A call is the request of a command: it goes to the data service, is answered, and its data are read as an object
with what the command has to say, and no other key. -/
structure Says (c : DataCommand) (group : Option String) (o : Outgoing) : Prop where
  service : o.service = "/_nrpc/db"
  method : o.method = c.method
  ack : o.ack = .yes
  data : ∃ fields : Dictionary Json, Codec.json.decode o.data = .ok (.object fields) ∧ fields.Sorted ∧
    fields.Perm (c.members group)

/-- Data are the text of what a request of put says under the name of the data. -/
def IsPut (bs data : Bytes) : Prop :=
  ∃ (key : String) (expireSeconds : Int32) (group : Option String) (o : Outgoing) (fields : Dictionary Json) (v : Json),
    (Facade.make dataRequest).outgoing "put" ((put key bs expireSeconds).args group) = .ok o ∧
      Codec.json.decode o.data = .ok (.object fields) ∧ fields.lookup "data" = some v ∧ data = v.bytes

/-- A command agrees with the definition of the service. -/
structure Agrees (c : DataCommand) (group : Option String) : Prop where
  /-- What it has to say stands under the names that are declared for its method. -/
  declared : ∃ m, dataService.Routes m ∧ m.name = c.method ∧
    m.params = (c.members group).map fun member => some member.1
  /-- There is one request to send. Every channel that takes it has written it and nothing else; and if a channel
  refuses it, nothing has been written, and not because the call was made wrongly. -/
  sent : ∃ o, (Facade.make dataRequest).outgoing c.method (c.args group) = .ok o ∧ c.Says group o ∧
    ∀ (now : Nat) (ch : Channel),
      (∃ ch', (Facade.make dataRequest).send now c.method (c.args group) (.ok ch) = (.ok (ch.ticket? o), .ok ch') ∧
        ch.Sent now o ch') ∨
      ∃ e generation, (Facade.make dataRequest).send now c.method (c.args group) (.ok ch) =
        (.error e, .ok { ch with generation }) ∧ e.isMisuse = false

/-- What get gives for what a response holds. -/
structure Undoes (r : Response) (key : String) (result : Except CallError Json) : Prop where
  value : ∀ bs, IsPut bs r.data → (get key).reply result = .ok (.data (some bs))
  none : r.data = Json.null.bytes ∨ r.data = [] → (get key).reply result = .ok (.data none)

end DataCommand

namespace Session

/-- Nothing becomes of the data service but that it is given up. -/
def KeepsData (s s' : Session) : Prop := s'.client.data = s.client.data ∨ s'.client.data = none

/-- The façade of the data service is the one that would be made. -/
def DataMade (s : Session) : Prop := ∀ id, s.client.data = some id → s.facade? id = some (.make dataRequest)

/-- What can be relied on by those who use the data service of a session. -/
structure ServesData (s : Session) (id : FacadeId) : Prop where
  /-- On a connection that can be used, the call of a command sends one request for a new caller, which says what the
  command has to say; or the connection refuses it, nothing is sent, and not because the call was made wrongly. -/
  called : ∀ (c : DataCommand) (group : Option String) (i : Nat), s.channel = .ok i →
    ∃ conn o, s.connections[i]? = some conn ∧ c.Says group o ∧
      ((∃ s', s.call id c.method (c.args group) = (s.callers.length, s') ∧ s.Called id o i conn s') ∨
        ∃ e generation, e.isMisuse = false ∧ s.call id c.method (c.args group) = (s.callers.length,
          { s with
            connections := s.connections.set i { conn with generation }
            callers := s.callers ++ [⟨.result id, .ended s.now (.result (.error e))⟩] }))
  /-- A caller whose call has an outcome gets a result that is no failure of a call made wrongly, and get undoes put. -/
  answered : ∀ (k : Nat) (w : Waiting) (o : Pending.Outcome), s.callers[k]? = some ⟨.result id, .waiting w⟩ →
    s.outcome? w = some o → ∃ result,
      (s.perform (.turn (.caller k))).callers[k]? = some ⟨.result id, .ended s.now (.result result)⟩ ∧
      (∀ (c : DataCommand) (e : CallError), c.reply result = .error e → e.isMisuse = false) ∧
      ∀ r, o = .ok r → r.status = .ok → ∀ key, DataCommand.Undoes r key result

end Session

end Defs

/-! ## Values -/

namespace Json

theorem portable_null : null.Portable := ⟨by simp, by simp, (kept_of_leaf .null 126).1⟩

theorem portable_whole (n : Whole) : (whole n).Portable := ⟨by simp, by simp, (kept_of_leaf (.whole n) 126).1⟩

theorem portable_text (s : String) : (text s).Portable := ⟨by simp, by simp, (kept_of_leaf (.text s) 126).1⟩

theorem portable_list {items : List Json} (h : ∀ v ∈ items, v.Portable ∧ v.depth ≤ 125) : (list items).Portable where
  exact := floatFree_list_iff.mpr fun v hv => (h v hv).1.exact
  ordered := ordered_list_iff.mpr fun v hv => (h v hv).1.ordered
  depth := depth_list_le_iff.mpr fun v hv => (h v hv).2

theorem portable_octets (bs : Bytes) : (octets bs).Portable := by
  refine portable_list fun v hv => ?_
  obtain ⟨b, -, rfl⟩ := List.mem_map.mp hv
  exact ⟨portable_whole _, (kept_of_leaf (.whole _) 125).1⟩

theorem read?_byte (b : UInt8) : read? UInt8 (whole (.ofByte b)) = some b := by
  have hread (n : Whole) : read? UInt8 (whole n) =
      if 0 ≤ n.val ∧ n.val < 256 then some (UInt8.ofNat n.val.toNat) else none := rfl
  have hval : (Whole.ofByte b).val = b.toNat := rfl
  have hrange := b.toNat_lt
  rw [hread, hval, if_pos (by omega), Int.toNat_natCast, UInt8.ofNat_toNat]

/-- Octets are read as the same octets. -/
theorem read?_octets (bs : Bytes) : read? (List UInt8) (octets bs) = some bs := by
  have hread : read? (List UInt8) (octets bs) =
      (bs.map fun b => whole (.ofByte b)).mapM (read? UInt8) := rfl
  rw [hread]
  clear hread
  induction bs with
  | nil => rfl
  | cons b bs ih => rw [List.map_cons, List.mapM_cons, read?_byte, ih]; rfl

end Json

/-! ## Commands and their methods -/

namespace DataCommand

variable {c : DataCommand} {group : Option String} {o : Outgoing} {r : Response}

theorem portable_groupJson (group : Option String) : (groupJson group).Portable := by
  cases group with
  | none => exact Json.portable_null
  | some name => exact Json.portable_text name

/-- The arguments are what a command has to say, without the names. -/
theorem args_eq (c : DataCommand) (group : Option String) : c.args group = (c.members group).map Prod.snd := by
  cases c <;> rfl

theorem portable_members (c : DataCommand) (group : Option String) : ∀ member ∈ c.members group, member.2.Portable := by
  have hgroup := portable_groupJson group
  cases c with
  | exist key | get key | remove key => simpa [members] using ⟨Json.portable_text key, hgroup⟩
  | put key data expireSeconds =>
    simpa [members] using ⟨Json.portable_text key, Json.portable_octets data, Json.portable_whole _, hgroup⟩
  | count => simpa [members] using hgroup
  | changeKey old new => simpa [members] using ⟨Json.portable_text old, Json.portable_text new, hgroup⟩
  | removeBatch keys =>
    have hkeys : (Json.list (keys.map .text)).Portable := by
      refine Json.portable_list fun v hv => ?_
      obtain ⟨key, -, rfl⟩ := List.mem_map.mp hv
      exact ⟨Json.portable_text key, (Json.kept_of_leaf (.text key) 125).1⟩
    simpa [members] using ⟨hkeys, hgroup⟩
  | setMaxSize size => simpa [members] using ⟨Json.portable_whole _, hgroup⟩

/-- Each command has a method, which is answered and declares the names of what the command has to say. -/
theorem exists_method (c : DataCommand) (group : Option String) : ∃ m ∈ dataService.methods, m.name = c.method ∧
    m.oneWay = false ∧ m.params = (c.members group).map fun member => some member.1 := by
  cases c with
  | exist key => exact ⟨⟨"exist", _, false⟩, by simp [dataService], rfl, rfl, rfl⟩
  | put key data expireSeconds => exact ⟨⟨"put", _, false⟩, by simp [dataService], rfl, rfl, rfl⟩
  | get key => exact ⟨⟨"get", _, false⟩, by simp [dataService], rfl, rfl, rfl⟩
  | count => exact ⟨⟨"count", _, false⟩, by simp [dataService], rfl, rfl, rfl⟩
  | changeKey old new => exact ⟨⟨"changeKey", _, false⟩, by simp [dataService], rfl, rfl, rfl⟩
  | remove key => exact ⟨⟨"remove", _, false⟩, by simp [dataService], rfl, rfl, rfl⟩
  | removeBatch keys => exact ⟨⟨"removeBatch", _, false⟩, by simp [dataService], rfl, rfl, rfl⟩
  | setMaxSize size => exact ⟨⟨"setMaxSize", _, false⟩, by simp [dataService], rfl, rfl, rfl⟩

/-- No two methods of the data service have one name. -/
theorem routes_of_mem {m : Method} (hm : m ∈ dataService.methods) : dataService.Routes m := by
  have hnames : (dataService.methods.map Method.name).Nodup := by decide
  obtain ⟨before, after, hsplit⟩ := List.append_of_mem hm
  refine ⟨before, after, hsplit, fun m' hm' heq => ?_⟩
  rw [hsplit, List.map_append, List.map_cons] at hnames
  have hafter := (List.nodup_cons.mp (List.nodup_append.mp hnames).2.1).1
  exact hafter (heq ▸ List.mem_map_of_mem hm')

theorem nodup_members (c : DataCommand) (group : Option String) : ((c.members group).map Prod.fst).Nodup := by
  cases c <;> simp [members]

/-- Parameters that all have declared names are named so. -/
theorem declaredNames_of_params {m : Method} {names : List String} (h : m.params = names.map some) :
    declaredNames m = names := by
  refine List.ext_getElem? fun i => ?_
  rw [getElem?_declaredNames, h, List.getElem?_map, Option.map_map]
  cases names[i]? <;> rfl

/-- There is one request of a command to send. -/
theorem exists_request (c : DataCommand) (group : Option String) :
    ∃ o, (Facade.make dataRequest).outgoing c.method (c.args group) = .ok o ∧ c.Says group o := by
  obtain ⟨m, hm, hname, htwoWay, hparams⟩ := exists_method c group
  have hnames : declaredNames m = (c.members group).map Prod.fst :=
    declaredNames_of_params (by rw [hparams, List.map_map]; rfl)
  have hnodup : (declaredNames m).Nodup := hnames ▸ nodup_members c group
  have hlen : (c.args group).length = (declaredNames m).length := by
    rw [hnames, args_eq, List.length_map, List.length_map]
  have hargs : ∀ v ∈ c.args group, v.Portable := by
    intro v hv
    rw [args_eq] at hv
    obtain ⟨member, hmember, rfl⟩ := List.mem_map.mp hv
    exact portable_members c group member hmember
  obtain ⟨o, ho, hcarries⟩ := Facade.outgoing_carries (r := dataRequest) (routes_of_mem hm) hnodup hlen hargs
  obtain ⟨fields, hdecode, hunder⟩ := hcarries.data
  have hmembers : c.members group = (declaredNames m).zip (c.args group) :=
    List.zip_of_prod hnames.symm (args_eq c group).symm
  refine ⟨o, hname ▸ ho, hcarries.service, hcarries.method.trans hname, ?_, fields, hdecode, hunder.sorted, ?_⟩
  · cases hack : o.ack with
    | yes => rfl
    | no =>
      rw [hcarries.ack.mp hack] at htwoWay
      cases htwoWay
  · rw [hmembers]
    exact hunder.perm

/-! ## Failures -/

theorem isMisuse_of_refuses {p : Packet} {h : Handle} {e : CallError} (hr : h.Refuses p e) : e.isMisuse = false := by
  cases hr <;> rfl

theorem isMisuse_of_channel {ch : Channel} {e : CallError} (hr : ch.Refuses o e) : e.isMisuse = false := by
  cases hr with
  | taken => rfl
  | unwritten _ hw => exact isMisuse_of_refuses hw

/-- A call ends without a response for want of time, or with its connection. -/
theorem isMisuse_of_outcome? {s : Session} {w : Waiting} {e : CallError} (h : s.outcome? w = some (.error e)) :
    e.isMisuse = false := by
  obtain ⟨x, -, hout⟩ := Option.bind_eq_some_iff.mp h
  obtain ⟨call, -, hcall⟩ := Option.bind_eq_some_iff.mp hout
  unfold Pending.Call.outcome? at hcall
  split at hcall
  · cases hcall
  · cases hcall; rfl
  · cases hcall; rfl
  · cases hcall; rfl
  · cases hcall; rfl
  · split at hcall
    · cases hcall; rfl
    · cases hcall

/-- A response that tells of a failure, or holds no value, is not about how the call was made. -/
theorem isMisuse_of_result {q : FacadeRequest} {e : CallError} (h : (Facade.make q).result r = .error e) :
    e.isMisuse = false := by
  unfold Facade.result at h
  split at h
  · have hcodec : (Facade.make q).codec = .json := rfl
    rw [hcodec] at h
    cases hdecode : Codec.json.decode r.data with
    | ok v => rw [hdecode] at h; cases h
    | error fault =>
      rw [hdecode] at h
      cases h
      simp only [Codec.json] at hdecode
      split at hdecode
      · cases hdecode
      · split at hdecode
        · cases hdecode
        · cases hdecode; rfl
  · cases h; rfl

theorem isMisuse_of_typed {α : Type} [Json.Readable α] {result : Except CallError Json} {e : CallError}
    (h : CallError.typed α result = .error e) (hresult : ∀ e', result = .error e' → e'.isMisuse = false) :
    e.isMisuse = false := by
  cases result with
  | error e' =>
    cases h
    exact hresult e rfl
  | ok v =>
    simp only [CallError.typed, Except.bind] at h
    split at h
    · cases h
    · cases h; rfl

/-- What a command gives is a failure of a call made wrongly only if its result is. -/
theorem isMisuse_of_reply {result : Except CallError Json} {e : CallError} (h : c.reply result = .error e)
    (hresult : ∀ e', result = .error e' → e'.isMisuse = false) : e.isMisuse = false := by
  have hmap {α β : Type} {f : α → β} {x : Except CallError α} (hx : x.map f = .error e) : x = .error e := by
    cases x with
    | error e' => cases hx; rfl
    | ok a => cases hx
  cases c <;> exact isMisuse_of_typed (hmap h) hresult

/-! ## What was put -/

/-- The only request that a put sends says the octets. -/
theorem decode_of_isPut {bs data : Bytes} (h : IsPut bs data) : Codec.json.decode data = .ok (.octets bs) := by
  obtain ⟨key, expireSeconds, group, o, fields, v, ho, hdecode, hlookup, rfl⟩ := h
  obtain ⟨o', ho', hsays⟩ := exists_request (put key bs expireSeconds) group
  obtain rfl : o' = o := Except.ok.inj (ho'.symm.trans ho)
  obtain ⟨fields', hdecode', hsorted, hperm⟩ := hsays.data
  obtain rfl : fields' = fields := by
    rw [hdecode] at hdecode'
    cases hdecode'
    rfl
  have hmember : ("data", Json.octets bs) ∈ fields' := hperm.mem_iff.mpr (by simp [members])
  rw [Dictionary.mem_iff_lookup hsorted, hlookup, Option.some.injEq] at hmember
  have hportable := Json.portable_octets bs
  rw [hmember]
  exact Codec.decode_bytes hportable.exact hportable.ordered (Nat.le_trans hportable.depth (by decide))

/-- **Get undoes put**, and tells no octets from no value. -/
theorem got_of_put (hr : r.status = .ok) (key : String) : Undoes r key ((Facade.make dataRequest).result r) := by
  have hresult : (Facade.make dataRequest).result r = (Codec.json.decode r.data).mapError CallError.payload := by
    unfold Facade.result
    rw [hr]
    rfl
  constructor
  · intro bs hput
    have hread : Json.read? (Option (List UInt8)) (Json.octets bs) = (Json.read? (List UInt8) (Json.octets bs)).map some :=
      rfl
    rw [hresult, decode_of_isPut hput]
    simp only [reply, CallError.typed, Except.mapError, Except.bind, hread, Json.read?_octets]
    rfl
  · intro hnull
    have hdecode : Codec.json.decode r.data = .ok .null := by
      rcases hnull with hnull | hempty
      · rw [hnull]
        have hportable := Json.portable_null
        exact Codec.decode_bytes hportable.exact hportable.ordered (Nat.le_trans hportable.depth (by decide))
      · rw [hempty]
        rfl
    rw [hresult, hdecode]
    rfl

/-! ## Channels -/

/-- A channel takes the request of a command, or refuses it without a trace. -/
theorem agrees (c : DataCommand) (group : Option String) : c.Agrees group := by
  obtain ⟨m, hm, hname, -, hparams⟩ := exists_method c group
  obtain ⟨o, ho, hsays⟩ := exists_request c group
  refine ⟨⟨m, routes_of_mem hm, hname, hparams⟩, o, ho, hsays, fun now ch => ?_⟩
  simp only [Facade.send, ho]
  rcases Channel.ready_or_refuses o ch with hready | ⟨e, hrefuses⟩
  · obtain ⟨ch', hsend, hsent⟩ := Channel.send_of_ready hready now
    exact .inl ⟨ch', by rw [hsend], hsent⟩
  · obtain ⟨generation, -, hsend⟩ := Channel.send_of_refuses hrefuses now
    exact .inr ⟨e, generation, by rw [hsend], isMisuse_of_channel hrefuses⟩

end DataCommand

/-! ## Sessions -/

namespace Session

variable {s s' m : Session} {id : FacadeId}

theorem KeepsData.refl (s : Session) : s.KeepsData s := .inl rfl

theorem keepsData_of_client (h : s'.client.data = s.client.data) : s.KeepsData s' := .inl h

theorem KeepsData.trans (h : s.KeepsData m) (h' : m.KeepsData s') : s.KeepsData s' := by
  rcases h' with h' | h'
  · rw [KeepsData, h']
    exact h
  · exact .inr h'

theorem keepsData_connect (s : Session) : s.KeepsData s.connect.2 := by
  cases hr : s.client.connector.refusal with
  | some cause => rw [connect_of_refusal hr]; exact .inl rfl
  | none => rw [connect_of_accepted hr]; exact .inl rfl

theorem keepsData_disconnect (s : Session) : s.KeepsData s.disconnect :=
  .inl (by rw [client_disconnect])

theorem keepsData_releaseUnheld (s : Session) : s.KeepsData s.releaseUnheld := by
  unfold releaseUnheld
  split
  · exact .refl s
  · exact .inr (by rw [client_release])

theorem keepsData_newFacade (r : FacadeRequest) (s : Session) : s.KeepsData (s.newFacade r).2 := by
  unfold newFacade obtain
  dsimp only
  split <;> exact .inl rfl

theorem keepsData_invoke (f : Facade) (method : String) (args : List Json) (s : Session) :
    s.KeepsData (s.invoke f method args).2 := by
  obtain ⟨connections, h⟩ := (asked_invoke f method args s).frame
  rw [h]
  exact .inl rfl

theorem keepsData_probe (s : Session) : s.KeepsData s.probe.2 := by
  obtain ⟨connections, h⟩ := (asked_probe s).frame
  rw [h]
  exact .inl rfl

theorem keepsData_call (id : FacadeId) (method : String) (args : List Json) (s : Session) :
    s.KeepsData (s.call id method args).2 := by
  unfold call
  split
  · exact .inl rfl
  · rename_i f hf
    have h := keepsData_invoke f method args s
    split
    all_goals
      rename_i heq
      rw [heq] at h
      exact h

theorem keepsData_askLiveness (s : Session) : s.KeepsData s.askLiveness.2 := by
  have h := keepsData_probe s
  unfold askLiveness
  split
  all_goals
    rename_i heq
    rw [heq] at h
    exact h

theorem keepsData_resume (k : Nat) (s : Session) : s.KeepsData (s.resume k) := by
  unfold resume
  split
  · exact .refl s
  · split
    · exact .refl s
    · rename_i w hw
      split
      · exact .refl s
      · dsimp only
        rw [finish_eq]
        exact .trans (.inl rfl) (keepsData_releaseUnheld _)

theorem keepsData_abort (k : Nat) (s : Session) : s.KeepsData (s.abort k) := by
  unfold abort
  split
  · exact .refl s
  · split
    · exact .refl s
    · rename_i w hw
      dsimp only
      rw [forget_eq]
      exact .trans (.inl rfl) (keepsData_releaseUnheld _)

theorem keepsData_endTick (j : Nat) (t : ReconnectTask) (alive : Bool) (s : Session) :
    s.KeepsData (s.endTick j t alive) := by
  have hconclude : s.KeepsData (s.conclude t.plan.callback alive).2 := by
    rcases conclude_cases t.plan.callback alive s with h | ⟨callbacks, h⟩ <;> rw [h]
    · exact .refl s
    · exact ((keepsData_disconnect s).trans (keepsData_connect _)).trans (.inl rfl)
  exact (hconclude.trans (.inl rfl)).trans (keepsData_releaseUnheld _)

theorem keepsData_runTask (j : Nat) (s : Session) : s.KeepsData (s.runTask j) := by
  have hturn := taskTurn j s
  generalize s.runTask j = s' at hturn ⊢
  cases hturn with
  | idle => exact .refl s
  | @ends t w o ht hstage ho =>
    have hfinish : s.KeepsData (s.finish w) := keepsData_of_client (by rw [finish_eq]; rfl)
    exact hfinish.trans (keepsData_endTick j t _ _)
  | @begins t h =>
    have htake : s.KeepsData (s.modifyTask j (ReconnectTask.takeTick s.now)) := keepsData_of_client rfl
    have hprobe := htake.trans (keepsData_probe _)
    rw [beginTick_eq]
    generalize (s.modifyTask j (ReconnectTask.takeTick s.now)).probe = p at hprobe
    obtain ⟨answer, s₂⟩ := p
    cases answer with
    | answered alive => exact hprobe.trans (keepsData_endTick j t alive s₂)
    | asked w => exact hprobe.trans (.inl rfl)
  | retires => exact .inl rfl

/-- Only the owner can ask for the data service. -/
theorem keepsData_perform {a : Action} (ha : a ≠ .dataFacade) (s : Session) : s.KeepsData (s.perform a) := by
  cases a with
  | connect => exact keepsData_connect s
  | start =>
    show s.KeepsData s.start.2
    rcases start_eq s with h | ⟨settings, h⟩ <;> rw [h]
    · exact keepsData_connect s
    · exact (keepsData_connect s).trans (.inl rfl)
  | stop =>
    have hcancel : s.KeepsData (s.onClient cancelTask) := by
      refine .inl ?_
      simp only [onClient, cancelTask]
      split <;> rfl
    exact hcancel.trans (keepsData_disconnect _)
  | dropClient => exact .trans (.inl rfl) (keepsData_releaseUnheld _)
  | enableReconnect plan => exact .inl rfl
  | refuse refuse => exact .inl rfl
  | newFacade r name => exact (keepsData_newFacade r s).trans (.inl rfl)
  | commandFacade =>
    show s.KeepsData s.commandFacade.2
    unfold commandFacade
    split
    · exact .refl s
    · exact (keepsData_newFacade _ s).trans (.inl rfl)
  | dataFacade => exact absurd rfl ha
  | letGo name => exact .inl rfl
  | call id method args => exact keepsData_call id method args s
  | askLiveness => exact keepsData_askLiveness s
  | abort k => exact keepsData_abort k s
  | peer i act => exact .inl rfl
  | turn t =>
    cases t with
    | dispatcher i => exact .inl rfl
    | server i =>
      show s.KeepsData (s.serve i)
      unfold serve
      split <;> exact .inl rfl
    | caller k => exact keepsData_resume k s
    | task j => exact keepsData_runTask j s
  | pass ms => exact .inl rfl

/-- A client asks for the data service as it is defined. -/
theorem dataMade_perform (hstocked : s.Stocked) (hcodec : s.client.codec = .json) (h : s.DataMade) (a : Action) :
    (s.perform a).DataMade := by
  intro id hid
  by_cases ha : a = .dataFacade
  · subst ha
    change s.dataFacade.2.client.data = some id at hid
    show s.dataFacade.2.facade? id = _
    unfold dataFacade at hid ⊢
    split at hid
    · rename_i hsome
      exact h id hid
    · have hnew := facade?_newFacade hstocked dataRequest
      rw [hcodec] at hnew
      cases hid
      exact hnew
  · rcases keepsData_perform ha s with hsame | hnone
    · exact facade?_perform (h id (hsame ▸ hid)) a
    · rw [hnone] at hid
      cases hid

theorem dataMade_run (hstocked : s.Stocked) (hcodec : s.client.codec = .json) (h : s.DataMade)
    (actions : List Action) : (s.run actions).DataMade := by
  induction actions generalizing s with
  | nil => exact h
  | cons a actions ih =>
    exact ih (hstocked.perform a) ((codec_perform a s).trans hcodec) (dataMade_perform hstocked hcodec h a)

theorem data_dataFacade (s : Session) : s.dataFacade.2.client.data = some s.dataFacade.1 := by
  unfold dataFacade
  split
  · assumption
  · rfl

theorem facade?_run {f : Facade} (h : s.facade? id = some f) (actions : List Action) :
    (s.run actions).facade? id = some f := by
  induction actions generalizing s with
  | nil => exact h
  | cons a actions ih => exact ih (facade?_perform h a)

/-- The call of a command over the connection in use is sent, or refused without a trace. -/
theorem servesData_of_facade? (hf : s.facade? id = some (.make dataRequest)) : s.ServesData id where
  called c group i hi := by
    obtain ⟨-, -, conn, hc, -⟩ := channel_eq_ok_iff.mp hi
    obtain ⟨o, ho, hsays⟩ := DataCommand.exists_request c group
    refine ⟨conn, o, hc, hsays, ?_⟩
    rcases Channel.ready_or_refuses o conn.channel with hready | ⟨e, hrefuses⟩
    · exact .inl (called_of_ready hf ho hi hc hready)
    · obtain ⟨generation, -, hsend⟩ := Channel.send_of_refuses hrefuses s.now
      obtain ⟨link, generation', hchannel, hafter⟩ := Connection.send_channel s.now o conn
      rw [hsend] at hchannel
      obtain ⟨hresult, hhandle⟩ := Prod.mk.inj hchannel
      cases hhandle
      refine .inr ⟨e, generation, DataCommand.isMisuse_of_channel hrefuses, ?_⟩
      simp only [call, hf, invoke, ho, hi, onConnection, hc, ← hresult, hafter]
      rfl
  answered k w o hk ho := by
    refine ⟨o.bind (Facade.make dataRequest).result, ?_, fun c e he => ?_, ?_⟩
    · rw [callers_resume hk ho, answerOf_result hf]
    · refine DataCommand.isMisuse_of_reply he fun e' he' => ?_
      cases o with
      | error e'' =>
        cases he'
        exact DataCommand.isMisuse_of_outcome? ho
      | ok r => exact DataCommand.isMisuse_of_result he'
    · rintro r rfl hstatus key
      exact DataCommand.got_of_put hstatus key

end Session

/-! ## Main statement -/

/-- **The data service does what its definition says, and get undoes put.** The arguments of each command stand under the
names that are declared for its method, in one request to the data service, which a channel takes or refuses as a whole.
In every run the data service that a client has asked for sends these requests over the connection in use, none of its
calls fails for being made wrongly, and what a put sent as its data is got back as it was. -/
theorem data_service_agrees :
    (∀ (c : DataCommand) (group : Option String), c.Agrees group) ∧
    ∀ (config : Config) (actions more : List Session.Action),
      let s := (Session.ofConfig config).run actions
      s.dataFacade.2.client.data = some s.dataFacade.1 ∧
        ∀ id, s.client.data = some id → (s.run more).ServesData id := by
  refine ⟨DataCommand.agrees, fun config actions more => ⟨Session.data_dataFacade _, fun id hid => ?_⟩⟩
  have hmade : ((Session.ofConfig config).run actions).DataMade :=
    Session.dataMade_run (Session.stocked_ofConfig config .json) rfl nofun actions
  exact Session.servesData_of_facade? (Session.facade?_run (hmade id hid) more)

/-- The octets of an empty value are got back, and no value is told from them. -/
theorem empty_value_got_back :
    let s := (Session.ofConfig {}).run [.connect, .dataFacade]
    let answer : Memory.Link.Handler := fun r => some ⟨r.id, .ok, "", [91, 93]⟩
    let more : List Session.Action :=
      [.call 0 "get" [.text "key", .null], .peer 0 (.serve answer), .turn (.dispatcher 0)]
    s.client.data = some 0 ∧ DataCommand.IsPut [] [91, 93] ∧ ∃ result,
      ((s.run more).perform (.turn (.caller 0))).callers[0]? = some ⟨.result 0, .ended 0 (.result result)⟩ ∧
        (DataCommand.get "key").reply result = .ok (.data (some [])) := by
  intro s answer more
  have hput : DataCommand.IsPut [] [91, 93] := by
    obtain ⟨o, ho, hsays⟩ := DataCommand.exists_request (.put "key" [] 0) none
    obtain ⟨fields, hdecode, hsorted, hperm⟩ := hsays.data
    have hmember : ("data", Json.octets []) ∈ fields := hperm.mem_iff.mpr (by simp [DataCommand.members])
    exact ⟨"key", 0, none, o, fields, _, ho, hdecode, (Dictionary.mem_iff_lookup hsorted).mp hmember, by decide +kernel⟩
  have hdata : s.client.data = some 0 := rfl
  obtain ⟨-, hserves⟩ := data_service_agrees.2 {} [.connect, .dataFacade] more
  obtain ⟨result, hended, -, hundoes⟩ := (hserves 0 hdata).answered 0 ⟨0, 0⟩ (.ok ⟨0, .ok, "", [91, 93]⟩) rfl
    (by decide +kernel)
  exact ⟨hdata, hput, result, hended, (hundoes _ rfl rfl "key").value [] hput⟩

end RemoteCall
