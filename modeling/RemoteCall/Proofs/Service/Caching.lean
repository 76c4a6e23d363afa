import RemoteCall.Proofs.Dictionary
import RemoteCall.Proofs.Session.Course

/-!
# Façades that are used again

Who asks for a façade may get one that was made before, if it is still held and has the time limit and the routes that
are asked for. Its name and the order of its methods are not compared. Still it is the façade that would have been made.
Who asks with a definition alone asks in the same way, with the name and the time limit that the definition sets.

* `ServiceDefinition.route?`: how a method is called; of two methods with one name the later counts.
* `Stocked`: the invariant. What stands in the registry under a name was made for that name.
* `new_facade_is_made`: whoever asks for a façade gets what would be made, and the one that is held under its name just
  if that has the time limit and the routes.
-/

namespace RemoteCall

/-! ## Routes -/

/-- How a method of a service is called. Of two methods with one name the later counts. -/
def ServiceDefinition.route? (d : ServiceDefinition) (naming : Naming) (name : String) : Option Route :=
  (d.methods.reverse.find? fun m => m.name == name).map fun m => ⟨naming m, if m.oneWay then .no else .yes⟩

theorem lookup_map_find (f : Method → Route) (name : String) (methods : List Method) :
    (methods.map fun m => (m.name, f m)).lookup name = (methods.find? fun m => m.name == name).map f := by
  induction methods with
  | nil => rfl
  | cons m methods ih =>
    rw [List.map_cons, List.lookup_cons, List.find?_cons, BEq.comm]
    cases m.name == name with
    | true => rfl
    | false => exact ih

theorem lookup_routes (d : ServiceDefinition) (naming : Naming) (name : String) :
    (d.routes naming).lookup name = d.route? naming name := by
  rw [ServiceDefinition.routes, Dictionary.lookup_ofPairs, ← List.map_reverse, lookup_map_find]
  rfl

/-- The routes of a façade are those of a definition if each method is called in the same way. -/
theorem routes_eq_iff {routes : Routes} (h : routes.Sorted) (d : ServiceDefinition) (naming : Naming) :
    routes = d.routes naming ↔ ∀ name, routes.lookup name = d.route? naming name := by
  constructor
  · intro heq name
    rw [heq, lookup_routes]
  · intro hall
    refine Dictionary.eq_of_lookup h (Dictionary.sorted_ofPairs _) fun name => ?_
    rw [hall, lookup_routes]

namespace Session

section Defs

/-- Every façade is what would be made, and what stands in the registry under a name was made for that name. -/
structure Stocked (s : Session) : Prop where
  made : ∀ (id : FacadeId) (f : Facade), s.facade? id = some f → ∃ r, f = .make r s.client.codec
  named : ∀ (name : String) (id : FacadeId), (name, id) ∈ s.client.registry.entries →
    ∃ f, s.facade? id = some f ∧ f.service = name

/-- The façade that is held under the name that is asked for has the time limit and the routes that are asked for. -/
def Answered (id : FacadeId) (r : FacadeRequest) (s : Session) : Prop :=
  s.lookup r.service = some id ∧ ∃ f, s.facade? id = some f ∧ f.timeoutMs = r.timeoutMs ∧
    ∀ method, f.routes.lookup method = r.definition.route? r.naming method

end Defs

variable {s s' : Session} {id : FacadeId} {r : FacadeRequest} {f : Facade} {codec : Codec}

/-! ## The registry -/

theorem answers_iff (h : s.Stocked) (hf : s.facade? id = some f) (r : FacadeRequest) :
    f.answers r.definition r.timeoutMs r.naming = true ↔
      f.timeoutMs = r.timeoutMs ∧ ∀ method, f.routes.lookup method = r.definition.route? r.naming method := by
  obtain ⟨r', rfl⟩ := h.made id f hf
  have hsorted : (Facade.make r' s.client.codec).routes.Sorted := Dictionary.sorted_ofPairs _
  simp only [Facade.answers, decide_eq_true_eq, routes_eq_iff hsorted]

/-- A façade that is held under the name and has what is asked for is given again, and nothing is made. -/
theorem newFacade_of_answered (h : s.Stocked) (ha : s.Answered id r) : s.newFacade r = (id, s) := by
  obtain ⟨hlookup, f, hf, hanswers⟩ := ha
  have hreusable := (answers_iff h hf r).mpr hanswers
  simp only [newFacade, obtain, Registry.getOrCreate]
  rw [show s.client.registry.get? s.isLive r.service = some id from hlookup]
  simp [Option.filter, hf, hreusable, Registry.Found.id]

/-- Otherwise a new one is made. -/
theorem newFacade_of_not_answered (h : s.Stocked) (hno : ∀ id, ¬ s.Answered id r) :
    ∃ registry, s.newFacade r = (s.client.facades.length,
        s.onClient fun c => { c with registry, facades := c.facades ++ [.make r c.codec] }) ∧
      ∀ e ∈ registry.entries, e = (r.service, s.client.facades.length) ∨ e ∈ s.client.registry.entries := by
  have hnone : (s.client.registry.get? s.isLive r.service).filter
      (fun id => (s.facade? id).any fun f => f.answers r.definition r.timeoutMs r.naming) = none := by
    refine Option.filter_eq_none_iff.mpr ?_
    intro id hlookup hany
    refine hno id ⟨hlookup, ?_⟩
    cases hf : s.facade? id with
    | none => simp [hf] at hany
    | some f =>
      rw [hf, Option.any_some] at hany
      exact ⟨f, rfl, (answers_iff h hf r).mp hany⟩
  simp only [newFacade, obtain, Registry.getOrCreate, hnone]
  refine ⟨_, rfl, fun e he => ?_⟩
  obtain ⟨hin, -⟩ := List.mem_filter.mp he
  exact Dictionary.mem_insert hin

/-! ## The codec -/

theorem codec_newFacade (r : FacadeRequest) (s : Session) : (s.newFacade r).2.client.codec = s.client.codec := by
  unfold newFacade obtain
  dsimp only
  split <;> rfl

/-- A client keeps the codec that it was given. -/
theorem codec_perform (a : Action) (s : Session) : (s.perform a).client.codec = s.client.codec := by
  cases manner a s with
  | peer i act hp he heq => rw [heq]; rfl
  | dispatcher i heq => rw [heq]; rfl
  | idle hp he hsame hshelf => exact hshelf.codec
  | deed hp hdeed => exact hdeed.shelf.codec
  | facade ha hp he hsame =>
    cases a with
    | newFacade r name => exact codec_newFacade r s
    | commandFacade =>
      show s.commandFacade.2.client.codec = s.client.codec
      unfold commandFacade
      split
      · rfl
      · exact codec_newFacade _ s
    | dataFacade =>
      show s.dataFacade.2.client.codec = s.client.codec
      unfold dataFacade
      split
      · rfl
      · exact codec_newFacade _ s
    | _ => cases ha

theorem codec_run (actions : List Action) (s : Session) : (s.run actions).client.codec = s.client.codec := by
  induction actions generalizing s with
  | nil => rfl
  | cons a actions ih => exact (ih (s.perform a)).trans (codec_perform a s)

/-! ## The invariant -/

theorem Stocked.of_facades (h : s.Stocked) (hfacades : s'.client.facades = s.client.facades)
    (hregistry : s'.client.registry = s.client.registry) (hcodec : s'.client.codec = s.client.codec) : s'.Stocked := by
  have hfacade (id : FacadeId) : s'.facade? id = s.facade? id := congrArg (·[id]?) hfacades
  refine ⟨fun id f hf => ?_, fun name id he => ?_⟩
  · rw [hcodec]
    exact h.made id f (hfacade id ▸ hf)
  · rw [hfacade]
    exact h.named name id (hregistry ▸ he)

theorem Stocked.shelf (h : s.Stocked) (hs : s.Shelf s') : s'.Stocked :=
  h.of_facades hs.facades hs.registry hs.codec

theorem Stocked.newFacade (h : s.Stocked) (r : FacadeRequest) : (s.newFacade r).2.Stocked := by
  by_cases ha : ∃ id, s.Answered id r
  · obtain ⟨id, ha⟩ := ha
    rw [newFacade_of_answered h ha]
    exact h
  · obtain ⟨registry, heq, hentries⟩ := newFacade_of_not_answered h fun id hid => ha ⟨id, hid⟩
    rw [heq]
    constructor
    · intro id f hf
      rcases Pending.getElem?_concat hf with hold | ⟨-, rfl⟩
      · exact h.made id f hold
      · exact ⟨r, rfl⟩
    · intro name id he
      rcases hentries _ he with heq | hold
      · obtain ⟨rfl, rfl⟩ := Prod.mk.inj heq
        exact ⟨_, List.getElem?_concat_length, rfl⟩
      · obtain ⟨f, hf, hservice⟩ := h.named name id hold
        refine ⟨f, ?_, hservice⟩
        exact (List.getElem?_append_left (List.getElem?_eq_some_iff.mp hf).1).trans hf

theorem Stocked.perform (h : s.Stocked) (a : Action) : (s.perform a).Stocked := by
  cases manner a s with
  | peer i act hp he heq => exact h.shelf (heq ▸ shelf_of_client rfl)
  | dispatcher i heq => exact h.shelf (heq ▸ shelf_of_client rfl)
  | idle hp he hsame hshelf => exact h.shelf hshelf
  | deed hp hdeed => exact h.shelf hdeed.shelf
  | facade ha hp he hsame =>
    cases a with
    | newFacade r name => exact (h.newFacade r).of_facades rfl rfl rfl
    | commandFacade =>
      show s.commandFacade.2.Stocked
      unfold commandFacade
      split
      · exact h
      · exact (h.newFacade _).of_facades rfl rfl rfl
    | dataFacade =>
      show s.dataFacade.2.Stocked
      unfold dataFacade
      split
      · exact h
      · exact (h.newFacade _).of_facades rfl rfl rfl
    | _ => cases ha

theorem Stocked.run (h : s.Stocked) (actions : List Action) : (s.run actions).Stocked := by
  induction actions generalizing s with
  | nil => exact h
  | cons a actions ih => exact ih (h.perform a)

theorem stocked_ofConfig (config : Config) (codec : Codec) : (ofConfig config codec).Stocked where
  made id f hf := by simp [facade?, ofConfig] at hf
  named name id he := by simp [ofConfig] at he

/-! ## Main statement -/

/-- A façade that answers what is asked for is the one that would be made. -/
theorem eq_make_of_answered (h : s.Stocked) (ha : s.Answered id r) :
    s.facade? id = some (.make r s.client.codec) := by
  obtain ⟨hlookup, f, hf, htime, hroutes⟩ := ha
  obtain ⟨r', rfl⟩ := h.made id f hf
  have hentry : (r.service, id) ∈ s.client.registry.entries :=
    Dictionary.mem_of_lookup (Option.filter_eq_some_iff.mp hlookup).1
  obtain ⟨f', hf', hservice⟩ := h.named r.service id hentry
  rw [hf] at hf'
  obtain rfl := Option.some.inj hf'
  have hsame : r'.definition.routes r'.naming = r.definition.routes r.naming :=
    (routes_eq_iff (Dictionary.sorted_ofPairs _) r.definition r.naming).mpr hroutes
  rw [hf]
  exact congrArg some (by simp only [Facade.make] at hservice htime ⊢; rw [hservice, htime, hsame])

/-- Who asks for a façade gets what would be made. -/
theorem facade?_newFacade (h : s.Stocked) (r : FacadeRequest) :
    (s.newFacade r).2.facade? (s.newFacade r).1 = some (.make r s.client.codec) := by
  by_cases ha : ∃ id, s.Answered id r
  · obtain ⟨id, ha⟩ := ha
    rw [newFacade_of_answered h ha]
    exact eq_make_of_answered h ha
  · obtain ⟨registry, heq, -⟩ := newFacade_of_not_answered h fun id hid => ha ⟨id, hid⟩
    rw [heq]
    exact List.getElem?_concat_length

/-- **To use a façade again makes no difference.** In every run of a client, whatever its codec, whoever asks for a façade
gets one with the name and the time limit asked for, whose calls are in every respect those of a new one. It is the one
that is held under the name, and nothing is made, just if that one has the time limit and the routes asked for. -/
theorem new_facade_is_made (config : Config) (codec : Codec) (actions : List Action) (r : FacadeRequest) :
    let s := (ofConfig config codec).run actions
    (∃ f, (s.newFacade r).2.facade? (s.newFacade r).1 = some f ∧ f.service = r.service ∧ f.timeoutMs = r.timeoutMs ∧
      (∀ method args, f.outgoing method args = (Facade.make r codec).outgoing method args) ∧
      ∀ (t : Session) (method : String) (args : List Json),
        t.invoke f method args = t.invoke (.make r codec) method args) ∧
    (∀ id, s.lookup r.service = some id → (s.newFacade r = (id, s) ↔ s.Answered id r)) ∧
    ((∀ id, ¬ s.Answered id r) → (s.newFacade r).1 = s.client.facades.length ∧
      (s.newFacade r).2.client.facades = s.client.facades ++ [.make r codec]) := by
  intro s
  have h : s.Stocked := (stocked_ofConfig config codec).run actions
  have hcodec : s.client.codec = codec := codec_run actions (ofConfig config codec)
  have hmade := facade?_newFacade h r
  rw [hcodec] at hmade
  refine ⟨⟨.make r codec, hmade, rfl, rfl, fun _ _ => rfl, fun _ _ _ => rfl⟩, ?_, ?_⟩
  · intro id hlookup
    constructor
    · intro heq
      by_contra hnot
      have hno (id' : FacadeId) (ha : s.Answered id' r) : False := by
        have hid : id' = id := Option.some.inj (ha.1.symm.trans hlookup)
        exact hnot (hid ▸ ha)
      -- what is made would make the list of façades longer
      obtain ⟨registry, hbuilt, -⟩ := newFacade_of_not_answered h hno
      have hfacades := congrArg (fun p => p.2.client.facades.length) (heq.symm.trans hbuilt)
      simp [onClient] at hfacades
    · intro ha
      exact newFacade_of_answered h ha
  · intro hno
    obtain ⟨registry, heq, -⟩ := newFacade_of_not_answered h hno
    rw [heq, ← hcodec]
    exact ⟨rfl, rfl⟩

/-- A service is asked for again with its methods in another order, and one of them given twice. -/
theorem reordered_service_used_again :
    let get : Method := ⟨"get", [some "key"], false⟩
    let put : Method := ⟨"put", [some "key", none], true⟩
    let r : FacadeRequest := ⟨⟨"Store", none, none, [get, put]⟩, 1000, "/store", declaredNames⟩
    let r' : FacadeRequest := ⟨⟨"Store", none, none, [⟨"put", [], false⟩, put, get]⟩, 1000, "/store", declaredNames⟩
    let s := (ofConfig {}).run [.newFacade r "first"]
    s.lookup r'.service = some 0 ∧ s.Answered 0 r' ∧ s.newFacade r' = (0, s) := by
  intro get put r r' s
  have hlookup : s.lookup r'.service = some 0 := by decide +kernel
  have hroutes : (Facade.make r).routes = r'.definition.routes r'.naming := by decide +kernel
  have hanswered : s.Answered 0 r' :=
    ⟨hlookup, .make r, rfl, rfl, (routes_eq_iff (Dictionary.sorted_ofPairs _) _ _).mp hroutes⟩
  exact ⟨hlookup, hanswered, ((new_facade_is_made {} .json _ r').2.1 0 hlookup).mpr hanswered⟩

end Session

end RemoteCall
