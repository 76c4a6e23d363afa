import Mathlib.Data.List.Dedup
import Mathlib.Data.List.Perm.Basic
import RemoteCall.Proofs.Service.Caching

/-!
# What the registry gives

The registry keeps no façade alive. Who holds a façade may let go of it at any time, its entry stays until the next
pruning, and a façade that was replaced may still be held. Whatever is done in whatever order, the registry gives the
façade that was made last for a name as long as someone holds it, and nothing else.

* `Errand`: what is done with a registry and with the façades that it gives.
* `newest?`: the façade that was made last for a name, and `heldNames`, how many names have one that is held.
* `InOrder`: the invariant. Entries stand for the façades that were made last, and those that are held have one.
* `lookup_eq`: what is found under a name.
* `registry_gives_newest`: all that can be relied on after any errands.
-/

namespace RemoteCall

/-- What is done with a registry and with the façades that it gives. Everyone holds a façade in a hand, and lets go of the
one that was there. -/
inductive Errand where
  /-- Someone asks for a façade and says which one would do. -/
  | obtain (r : FacadeRequest) (reusable : Facade → Bool) (hand : String)
  /-- Someone asks for the façade under a name, and takes it if there is one. -/
  | lookup (service : String) (hand : String)
  | prune
  /-- Someone shares a façade with another. -/
  | share (giver taker : String)
  | letGo (hand : String)

namespace Session

section Defs

/-- What comes of an errand. -/
def errand (e : Errand) (s : Session) : Session :=
  match e with
  | .obtain r reusable hand => let (found, s) := s.obtain r reusable; s.hold hand found.id
  | .lookup service hand =>
    match s.lookup service with
    | some id => s.hold hand id
    | none => s
  | .prune => s.prune.2
  | .share giver taker =>
    match s.holders.lookup giver with
    | some id => s.hold taker id
    | none => s
  | .letGo hand => s.letGo hand

/-- What comes of one errand after another. -/
def errands (es : List Errand) (s : Session) : Session := es.foldl (fun s e => s.errand e) s

/-- Of façades in the order in which they were made, the last one for a name. -/
def lastFor (service : String) (facades : List Facade) : Option FacadeId :=
  facades.zipIdx.foldl (fun last e => if e.1.service = service then some e.2 else last) none

/-- The façade that was made last for a name. -/
def newest? (service : String) (s : Session) : Option FacadeId := lastFor service s.client.facades

/-- A session in which a façade was made for who asks. Entries of façades that nobody holds are gone. -/
def made (r : FacadeRequest) (s : Session) : Session :=
  s.onClient fun c => { c with
    registry := ⟨(c.registry.entries.insert r.service c.facades.length).keep
      fun id => id = c.facades.length ∨ s.isLive id⟩
    facades := c.facades ++ [.make r c.codec] }

/-- How many names there are whose façade that was made last is held. -/
def heldNames (s : Session) : Nat :=
  (s.client.facades.map Facade.service).dedup.countP fun service => (s.newest? service).any s.isLive

/-- The name of the façade in a hand. -/
def inHand? (hand : String) (s : Session) : Option String :=
  ((s.holders.lookup hand).bind s.facade?).map Facade.service

/-- Whether an errand has to do with a name: a façade of this name is asked for, or let go. -/
def Concerns (service : String) (s : Session) : Errand → Prop
  | .obtain r _ hand => r.service = service ∨ s.inHand? hand = some service
  | .lookup _ hand => s.inHand? hand = some service
  | .prune => False
  | .share _ taker => s.inHand? taker = some service
  | .letGo hand => s.inHand? hand = some service

/-- Each entry stands for the façade that was made last for its name, and there is one if that is held. -/
structure InOrder (s : Session) : Prop where
  hands : s.holders.Sorted
  sorted : s.client.registry.entries.Sorted
  newest : ∀ (service : String) (id : FacadeId), (service, id) ∈ s.client.registry.entries →
    s.newest? service = some id
  held : ∀ (service : String) (id : FacadeId), s.newest? service = some id → s.isLive id = true →
    (service, id) ∈ s.client.registry.entries

/-- What can be relied on when a façade is asked for. -/
structure Obtains (r : FacadeRequest) (reusable : Facade → Bool) (s : Session) : Prop where
  /-- One is made just if none is held under the name or that one would not do. -/
  builds : (s.obtain r reusable).1.isBuilt = true ↔
    ∀ id f, s.lookup r.service = some id → s.facade? id = some f → reusable f = false
  /-- Otherwise the one under the name is given, and nothing changes. -/
  reuses : (s.obtain r reusable).1.isBuilt = false →
    ∃ id, s.lookup r.service = some id ∧ s.obtain r reusable = (.reused id, s)
  /-- Only about that one it is asked whether it would do. -/
  asks : ∀ reusable' : Facade → Bool, (∀ id f, s.lookup r.service = some id → s.facade? id = some f →
    reusable' f = reusable f) → s.obtain r reusable' = s.obtain r reusable
  /-- Right after one was made, in a hand that was empty, all entries are held. -/
  fresh : (s.obtain r reusable).1.isBuilt = true → ∀ hand, s.holders.lookup hand = none →
    let t := s.errand (.obtain r reusable hand)
    t.facade? s.client.facades.length = some (.make r s.client.codec) ∧
      t.lookup r.service = some s.client.facades.length ∧
      (∀ e ∈ t.client.registry.entries, t.isLive e.2 = true) ∧ t.client.registry.size = t.heldNames ∧ t.prune.1 = 0

/-- What can be relied on of the registry of a client with a codec. -/
structure Reliable (codec : Codec) (s : Session) : Prop where
  /-- The façades that are made have this codec. -/
  codec : s.client.codec = codec
  /-- Under a name stands the façade that was made last for it, if it is held. -/
  gives : ∀ service, s.lookup service = (s.newest? service).filter s.isLive
  /-- A façade that was replaced is never found again. -/
  replaced : ∀ id f, s.facade? id = some f → s.newest? f.service ≠ some id →
    ∀ more service, (s.errands more).lookup service ≠ some id
  obtains : ∀ r reusable, s.Obtains r reusable
  /-- Pruning takes away all entries but those of names whose façade is held. -/
  pruned : s.prune.1 + s.heldNames = s.client.registry.size ∧ s.prune.2.client.registry.size = s.heldNames
  /-- No errand changes what is found under names with which it has nothing to do. -/
  others : ∀ e service, ¬ s.Concerns service e → (s.errand e).lookup service = s.lookup service

end Defs

variable {s s' : Session} {id : FacadeId} {service hand : String} {f : Facade}

/-! ## The façade made last -/

@[simp] theorem lastFor_nil (service : String) : lastFor service [] = none := rfl

theorem lastFor_concat (service : String) (facades : List Facade) (f : Facade) :
    lastFor service (facades ++ [f]) = if f.service = service then some facades.length else lastFor service facades := by
  simp [lastFor, List.zipIdx_append, List.foldl_append]

theorem getElem?_of_lastFor {facades : List Facade} (h : lastFor service facades = some id) :
    ∃ f, facades[id]? = some f ∧ f.service = service := by
  induction facades using List.reverseRecOn with
  | nil => cases h
  | append_singleton facades f ih =>
    rw [lastFor_concat] at h
    split at h
    · rename_i hservice
      cases h
      exact ⟨f, List.getElem?_concat_length, hservice⟩
    · obtain ⟨g, hg, hservice⟩ := ih h
      exact ⟨g, (List.getElem?_append_left (List.getElem?_eq_some_iff.mp hg).1).trans hg, hservice⟩

/-- When more façades are made, the last one for a name stays so or makes way for a later one. -/
theorem lastFor_append (service : String) (facades more : List Facade) :
    lastFor service (facades ++ more) = lastFor service facades ∨
      ∃ id, lastFor service (facades ++ more) = some id ∧ facades.length ≤ id := by
  induction more using List.reverseRecOn with
  | nil => exact .inl (by rw [List.append_nil])
  | append_singleton more f ih =>
    rw [← List.append_assoc, lastFor_concat]
    split
    · exact .inr ⟨_, rfl, by simp⟩
    · exact ih

theorem facade?_of_newest (h : s.newest? service = some id) : ∃ f, s.facade? id = some f ∧ f.service = service :=
  getElem?_of_lastFor h

theorem lt_of_newest (h : s.newest? service = some id) : id < s.client.facades.length := by
  obtain ⟨f, hf, -⟩ := facade?_of_newest h
  exact (List.getElem?_eq_some_iff.mp hf).1

/-! ## Who holds a façade -/

theorem isLive_iff : s.isLive id = true ↔ (∃ h ∈ s.holders, h.2 = id) ∨ s.client.command = some id ∨
    s.client.data = some id ∨ ∃ c ∈ s.callers, c.facade? = some id := by
  simp [isLive, List.any_eq_true, or_assoc]

/-- Who takes a façade makes it held, and no other one. -/
theorem isLive_of_hold {id' : FacadeId} (h : (s.hold hand id').isLive id = true) : id = id' ∨ s.isLive id = true := by
  rw [isLive_iff] at h ⊢
  rcases h with ⟨e, he, rfl⟩ | hrest
  · rcases Dictionary.mem_insert he with rfl | hold
    · exact .inl rfl
    · exact .inr (.inl ⟨e, hold, rfl⟩)
  · exact .inr (.inr hrest)

theorem isLive_hold_self (hand : String) (id : FacadeId) (s : Session) : (s.hold hand id).isLive id = true :=
  isLive_iff.mpr (.inl ⟨_, Dictionary.mem_of_lookup (Dictionary.lookup_insert_self hand id s.holders), rfl⟩)

/-- A façade that is held stays so if another one was in the hand that takes one. -/
theorem isLive_hold (hs : s.holders.Sorted) {id' : FacadeId} (h : s.isLive id = true)
    (hne : s.holders.lookup hand ≠ some id) : (s.hold hand id').isLive id = true := by
  rw [isLive_iff] at h ⊢
  rcases h with ⟨e, he, rfl⟩ | hrest
  · refine .inl ⟨e, (Dictionary.mem_insert_iff hs).mpr ?_, rfl⟩
    rw [if_neg fun heq : e.1 = hand => hne (heq ▸ (Dictionary.mem_iff_lookup hs).mp he)]
    exact he
  · exact .inr hrest

theorem isLive_of_letGo (h : (s.letGo hand).isLive id = true) : s.isLive id = true := by
  rw [isLive_iff] at h ⊢
  exact h.imp_left fun ⟨e, he, heq⟩ => ⟨e, (List.mem_filter.mp he).1, heq⟩

theorem isLive_letGo (hs : s.holders.Sorted) (h : s.isLive id = true) (hne : s.holders.lookup hand ≠ some id) :
    (s.letGo hand).isLive id = true := by
  rw [isLive_iff] at h ⊢
  rcases h with ⟨e, he, rfl⟩ | hrest
  · refine .inl ⟨e, List.mem_filter.mpr ⟨he, ?_⟩, rfl⟩
    exact bne_iff_ne.mpr fun heq => hne (heq ▸ (Dictionary.mem_iff_lookup hs).mp he)
  · exact .inr hrest

theorem isLive_of_lookup (h : s.lookup service = some id) : s.isLive id = true :=
  (Option.filter_eq_some_iff.mp h).2

/-! ## The invariant -/

/-- Under a name stands the façade that was made last for it, if it is held. -/
theorem InOrder.lookup_eq (h : s.InOrder) (service : String) : s.lookup service = (s.newest? service).filter s.isLive := by
  apply Option.ext
  intro id
  show (s.client.registry.entries.lookup service).filter s.isLive = some id ↔ _
  rw [Option.filter_eq_some_iff, Option.filter_eq_some_iff]
  constructor
  · rintro ⟨hentry, hlive⟩
    exact ⟨h.newest service id (Dictionary.mem_of_lookup hentry), hlive⟩
  · rintro ⟨hnewest, hlive⟩
    exact ⟨(Dictionary.mem_iff_lookup h.sorted).mp (h.held service id hnewest hlive), hlive⟩

theorem inOrder_ofConfig (config : Config) (codec : Codec) : (ofConfig config codec).InOrder where
  hands := List.Pairwise.nil
  sorted := List.Pairwise.nil
  newest _ _ h := by cases h
  held _ _ h := by cases h

/-- Whatever makes no façade held that was not held keeps the registry in order. -/
theorem InOrder.of_live (h : s.InOrder) (hhands : s'.holders.Sorted) (hfacades : s'.client.facades = s.client.facades)
    (hregistry : s'.client.registry = s.client.registry) (hlive : ∀ id, s'.isLive id = true → s.isLive id = true) :
    s'.InOrder := by
  have hnewest (service : String) : s'.newest? service = s.newest? service := by rw [newest?, newest?, hfacades]
  refine ⟨hhands, hregistry ▸ h.sorted, fun service id he => ?_, fun service id hn hl => ?_⟩
  · rw [hnewest]
    exact h.newest service id (hregistry ▸ he)
  · rw [hregistry]
    exact h.held service id (hnewest service ▸ hn) (hlive id hl)

/-- Someone takes a façade that is held. -/
theorem InOrder.hold (h : s.InOrder) (hlive : s.isLive id = true) (hand : String) : (s.hold hand id).InOrder := by
  refine h.of_live (Dictionary.sorted_insert h.hands hand id) rfl rfl fun id' hl => ?_
  rcases isLive_of_hold hl with rfl | hold
  · exact hlive
  · exact hold

theorem InOrder.letGo (h : s.InOrder) (hand : String) : (s.letGo hand).InOrder :=
  h.of_live (h.hands.filter _) rfl rfl fun _ => isLive_of_letGo

theorem InOrder.prune (h : s.InOrder) : s.prune.2.InOrder where
  hands := h.hands
  sorted := h.sorted.filter _
  newest service id he := h.newest service id (List.mem_filter.mp he).1
  held service id hn hl := List.mem_filter.mpr ⟨h.held service id hn hl, hl⟩

/-! ## Façades that are asked for -/

/-- What asking for a façade gives: the one under the name, if it would do, or else a new one. -/
theorem obtain_cases (r : FacadeRequest) (reusable : Facade → Bool) (s : Session) :
    (∃ id, s.lookup r.service = some id ∧ (s.facade? id).any reusable = true ∧
        s.obtain r reusable = (.reused id, s)) ∨
      ((∀ id, s.lookup r.service = some id → (s.facade? id).any reusable = false) ∧
        s.obtain r reusable = (.built s.client.facades.length, s.made r)) := by
  have hlookup : s.client.registry.get? s.isLive r.service = s.lookup r.service := rfl
  cases hfound : (s.lookup r.service).filter fun id => (s.facade? id).any reusable with
  | some id =>
    obtain ⟨hid, hany⟩ := Option.filter_eq_some_iff.mp hfound
    refine .inl ⟨id, hid, hany, ?_⟩
    simp only [obtain, Registry.getOrCreate, hlookup, hfound]
  | none =>
    refine .inr ⟨fun id hid => Bool.eq_false_iff.mpr (Option.filter_eq_none_iff.mp hfound id hid), ?_⟩
    simp only [obtain, Registry.getOrCreate, hlookup, hfound]
    rfl

theorem newest?_made (r : FacadeRequest) (service : String) (s : Session) : (s.made r).newest? service =
    if r.service = service then some s.client.facades.length else s.newest? service :=
  lastFor_concat service s.client.facades (.make r s.client.codec)

theorem mem_made (h : s.InOrder) {r : FacadeRequest} : (service, id) ∈ (s.made r).client.registry.entries ↔
    (if service = r.service then id = s.client.facades.length else (service, id) ∈ s.client.registry.entries) ∧
      (id = s.client.facades.length ∨ s.isLive id = true) := by
  simp only [made, onClient, Dictionary.keep]
  rw [List.mem_filter, Dictionary.mem_insert_iff h.sorted, decide_eq_true_iff]

/-- Someone takes the façade that was made. -/
theorem InOrder.made (h : s.InOrder) (r : FacadeRequest) (hand : String) :
    ((s.made r).hold hand s.client.facades.length).InOrder where
  hands := Dictionary.sorted_insert h.hands hand _
  sorted := (Dictionary.sorted_insert h.sorted r.service _).filter _
  newest service id he := by
    show (s.made r).newest? service = some id
    obtain ⟨hentry, -⟩ := (mem_made h).mp he
    rw [newest?_made]
    split at hentry
    · rename_i heq
      rw [if_pos heq.symm, hentry]
    · rename_i hne
      rw [if_neg fun heq => hne heq.symm]
      exact h.newest service id hentry
  held service id hn hl := by
    replace hn : (s.made r).newest? service = some id := hn
    rw [newest?_made] at hn
    refine (mem_made h).mpr ?_
    split at hn
    · rename_i heq
      rw [if_pos heq.symm]
      exact ⟨(Option.some.inj hn).symm, .inl (Option.some.inj hn).symm⟩
    · rename_i hne
      rw [if_neg fun heq => hne heq.symm]
      -- an older façade, held before as well
      have hlive : s.isLive id = true := by
        refine (isLive_of_hold (s := s.made r) hl).resolve_left fun heq => ?_
        exact Nat.lt_irrefl _ (heq ▸ lt_of_newest hn)
      exact ⟨h.held service id hn hlive, .inr hlive⟩

/-- Every errand keeps the registry in order. -/
theorem InOrder.errand (h : s.InOrder) (e : Errand) : (s.errand e).InOrder := by
  cases e with
  | obtain r reusable hand =>
    rcases obtain_cases r reusable s with ⟨id, hid, -, heq⟩ | ⟨-, heq⟩
    · simp only [Session.errand, heq]
      exact h.hold (isLive_of_lookup hid) hand
    · simp only [Session.errand, heq]
      exact h.made r hand
  | lookup service hand =>
    simp only [Session.errand]
    split
    · rename_i id hid
      exact h.hold (isLive_of_lookup hid) hand
    · exact h
  | prune => exact h.prune
  | share giver taker =>
    simp only [Session.errand]
    split
    · rename_i id hid
      exact h.hold (isLive_iff.mpr (.inl ⟨_, Dictionary.mem_of_lookup hid, rfl⟩)) taker
    · exact h
  | letGo hand => exact h.letGo hand

theorem InOrder.errands (h : s.InOrder) (es : List Errand) : (s.errands es).InOrder := by
  induction es generalizing s with
  | nil => exact h
  | cons e es ih => exact ih (h.errand e)

/-! ## How many names there are -/

/-- As many entries are held as there are names whose façade that was made last is held. -/
theorem InOrder.countP_entries (h : s.InOrder) :
    s.client.registry.entries.countP (fun e => s.isLive e.2) = s.heldNames := by
  let kept := (s.client.registry.entries.filter fun e => s.isLive e.2).map Prod.fst
  let names := (s.client.facades.map Facade.service).dedup.filter fun service => (s.newest? service).any s.isLive
  have hkept : kept.Nodup := Dictionary.nodup_keys (h.sorted.filter _)
  have hnames : names.Nodup := (List.nodup_dedup _).filter _
  have hmem (service : String) : service ∈ kept ↔ service ∈ names := by
    simp only [kept, names, List.mem_map, List.mem_filter, List.mem_dedup, Option.any_eq_true]
    constructor
    · rintro ⟨⟨_, id⟩, ⟨he, hlive⟩, rfl⟩
      have hn := h.newest _ id he
      obtain ⟨f, hf, hservice⟩ := facade?_of_newest hn
      exact ⟨⟨f, List.mem_of_getElem? hf, hservice⟩, id, hn, hlive⟩
    · rintro ⟨-, id, hn, hlive⟩
      exact ⟨(service, id), ⟨h.held service id hn hlive, hlive⟩, rfl⟩
  have hlength := ((List.perm_ext_iff_of_nodup hkept hnames).mpr hmem).length_eq
  rw [heldNames, List.countP_eq_length_filter, List.countP_eq_length_filter]
  simpa [kept, names] using hlength

/-- Pruning takes away all entries but those of names whose façade is held. -/
theorem InOrder.pruned (h : s.InOrder) :
    s.prune.1 + s.heldNames = s.client.registry.size ∧ s.prune.2.client.registry.size = s.heldNames := by
  have hcount : (s.client.registry.entries.keep s.isLive).length = s.heldNames := by
    rw [Dictionary.keep, ← List.countP_eq_length_filter]
    exact h.countP_entries
  have hle : (s.client.registry.entries.keep s.isLive).length ≤ s.client.registry.entries.length :=
    List.length_filter_le _ _
  refine ⟨?_, hcount⟩
  show s.client.registry.entries.length - (s.client.registry.entries.keep s.isLive).length + _ = _
  rw [← hcount]
  exact Nat.sub_add_cancel hle

/-! ## Names with which an errand has nothing to do -/

/-- A hand that holds a façade of another name does not hold the one made last for a name. -/
theorem ne_of_inHand (h : s.inHand? hand ≠ some service) (hn : s.newest? service = some id) :
    s.holders.lookup hand ≠ some id := by
  intro hid
  obtain ⟨f, hf, hservice⟩ := facade?_of_newest hn
  exact h (by simp [inHand?, hid, hf, hservice])

/-- What leaves the façade made last for a name as it is, and those who hold it, leaves what is found under the name. -/
theorem lookup_of_live (h : s.InOrder) (h' : s'.InOrder) (hn : s'.newest? service = s.newest? service)
    (hlive : ∀ id, s.newest? service = some id → (s'.isLive id = true ↔ s.isLive id = true)) :
    s'.lookup service = s.lookup service := by
  rw [h.lookup_eq, h'.lookup_eq, hn]
  cases hid : s.newest? service with
  | none => rfl
  | some id => simp only [Option.filter_some, Bool.eq_iff_iff.mpr (hlive id hid)]

/-- Someone takes a façade that is held, and lets go of one with another name. -/
theorem lookup_hold (h : s.InOrder) (hlive : s.isLive id = true) (hno : s.inHand? hand ≠ some service) :
    (s.hold hand id).lookup service = s.lookup service := by
  refine lookup_of_live h (h.hold hlive hand) rfl fun id' hn => ⟨fun hl => ?_, fun hl => ?_⟩
  · rcases isLive_of_hold hl with rfl | hold
    · exact hlive
    · exact hold
  · exact isLive_hold h.hands hl (ne_of_inHand hno hn)

/-- No errand changes what is found under names with which it has nothing to do. -/
theorem InOrder.others (h : s.InOrder) {e : Errand} (hno : ¬ s.Concerns service e) :
    (s.errand e).lookup service = s.lookup service := by
  have hafter := h.errand e
  cases e with
  | obtain r reusable hand =>
    obtain ⟨hname, hhand⟩ := not_or.mp hno
    rcases obtain_cases r reusable s with ⟨id, hid, -, heq⟩ | ⟨-, heq⟩
    · simp only [Session.errand, heq]
      exact lookup_hold h (isLive_of_lookup hid) hhand
    · simp only [Session.errand, heq] at hafter ⊢
      have hnewest : (s.made r).newest? service = s.newest? service := by rw [newest?_made, if_neg hname]
      refine lookup_of_live h hafter hnewest fun id hn => ⟨fun hl => ?_, fun hl => ?_⟩
      · refine (isLive_of_hold (s := s.made r) hl).resolve_left fun heq => ?_
        exact Nat.lt_irrefl _ (heq ▸ lt_of_newest hn)
      · exact isLive_hold (s := s.made r) h.hands hl (ne_of_inHand (s := s) hhand hn)
  | lookup name hand =>
    simp only [Session.errand]
    split
    · rename_i id hid
      exact lookup_hold h (isLive_of_lookup hid) hno
    · rfl
  | prune => exact lookup_of_live h hafter rfl fun _ _ => Iff.rfl
  | share giver taker =>
    simp only [Session.errand]
    split
    · rename_i id hid
      exact lookup_hold h (isLive_iff.mpr (.inl ⟨_, Dictionary.mem_of_lookup hid, rfl⟩)) hno
    · rfl
  | letGo hand =>
    exact lookup_of_live h hafter rfl fun id hn =>
      ⟨isLive_of_letGo, fun hl => isLive_letGo h.hands hl (ne_of_inHand hno hn)⟩

/-! ## The codec -/

theorem codec_errand (e : Errand) (s : Session) : (s.errand e).client.codec = s.client.codec := by
  cases e with
  | obtain r reusable hand =>
    rcases obtain_cases r reusable s with ⟨id, -, -, heq⟩ | ⟨-, heq⟩ <;> simp only [Session.errand, heq] <;> rfl
  | lookup service hand =>
    simp only [Session.errand]
    split <;> rfl
  | prune => rfl
  | share giver taker =>
    simp only [Session.errand]
    split <;> rfl
  | letGo hand => rfl

theorem codec_errands (es : List Errand) (s : Session) : (s.errands es).client.codec = s.client.codec := by
  induction es generalizing s with
  | nil => rfl
  | cons e es ih => exact (ih (s.errand e)).trans (codec_errand e s)

/-! ## Façades that were replaced -/

/-- Errands make façades, and take none away. -/
theorem facades_errand (e : Errand) (s : Session) : s.client.facades <+: (s.errand e).client.facades := by
  cases e with
  | obtain r reusable hand =>
    rcases obtain_cases r reusable s with ⟨id, -, -, heq⟩ | ⟨-, heq⟩
    · simp only [Session.errand, heq]
      exact List.prefix_rfl
    · simp only [Session.errand, heq]
      exact List.prefix_append _ _
  | lookup service hand =>
    simp only [Session.errand]
    split <;> exact List.prefix_rfl
  | prune => exact List.prefix_rfl
  | share giver taker =>
    simp only [Session.errand]
    split <;> exact List.prefix_rfl
  | letGo hand => exact List.prefix_rfl

theorem facades_errands (es : List Errand) (s : Session) : s.client.facades <+: (s.errands es).client.facades := by
  induction es generalizing s with
  | nil => exact List.prefix_rfl
  | cons e es ih => exact (facades_errand e s).trans (ih (s.errand e))

/-- A façade that was replaced is never found again. -/
theorem InOrder.replaced (h : s.InOrder) (hf : s.facade? id = some f) (hno : s.newest? f.service ≠ some id)
    (more : List Errand) (service : String) : (s.errands more).lookup service ≠ some id := by
  intro hid
  rw [(h.errands more).lookup_eq] at hid
  have hn := (Option.filter_eq_some_iff.mp hid).1
  obtain ⟨later, hlater⟩ := facades_errands more s
  have hlt := (List.getElem?_eq_some_iff.mp hf).1
  -- a façade keeps its name
  have hname : f.service = service := by
    obtain ⟨g, hg, hservice⟩ := facade?_of_newest hn
    rw [facade?, ← hlater, List.getElem?_append_left hlt, show s.client.facades[id]? = some f from hf] at hg
    cases hg
    exact hservice
  subst hname
  rw [newest?, ← hlater] at hn
  rcases lastFor_append f.service s.client.facades later with hsame | ⟨id', hid', hle⟩
  · exact hno (hsame.symm.trans hn)
  · rw [hn] at hid'
    cases hid'
    exact Nat.lt_irrefl _ (Nat.lt_of_lt_of_le hlt hle)

/-! ## Main statement -/

/-- Right after a façade was made, in a hand that was empty, all entries are held. -/
theorem InOrder.fresh (h : s.InOrder) (r : FacadeRequest) (hand : String) (hempty : s.holders.lookup hand = none) :
    let t := (s.made r).hold hand s.client.facades.length
    t.lookup r.service = some s.client.facades.length ∧ (∀ e ∈ t.client.registry.entries, t.isLive e.2 = true) ∧
      t.client.registry.size = t.heldNames ∧ t.prune.1 = 0 := by
  intro t
  have ht : t.InOrder := h.made r hand
  have hself : t.isLive s.client.facades.length = true := isLive_hold_self hand _ _
  have hlive : ∀ e ∈ t.client.registry.entries, t.isLive e.2 = true := by
    rintro ⟨service, id⟩ he
    rcases ((mem_made h).mp he).2 with rfl | hl
    · exact hself
    · exact isLive_hold (s := s.made r) h.hands hl (by rw [show (s.made r).holders = s.holders from rfl, hempty]; nofun)
  have hsize : t.client.registry.size = t.heldNames := by
    rw [← ht.countP_entries, List.countP_eq_length.mpr hlive]
    rfl
  refine ⟨?_, hlive, hsize, Nat.add_right_cancel (ht.pruned.1.trans (hsize.trans (Nat.zero_add _).symm))⟩
  rw [ht.lookup_eq, show t.newest? r.service = (s.made r).newest? r.service from rfl, newest?_made, if_pos rfl,
    Option.filter_some, if_pos hself]

theorem InOrder.obtains (h : s.InOrder) (r : FacadeRequest) (reusable : Facade → Bool) : s.Obtains r reusable := by
  rcases obtain_cases r reusable s with ⟨id, hid, hany, heq⟩ | ⟨hno, heq⟩
  · obtain ⟨f, hf, hgood⟩ := (Option.any_eq_true _ _).mp hany
    refine ⟨?_, fun _ => ⟨id, hid, heq⟩, fun reusable' hsame => ?_, fun hbuilt => ?_⟩
    · rw [heq]
      exact ⟨nofun, fun hbad => absurd (hgood.symm.trans (hbad id f hid hf)) (by decide)⟩
    · rcases obtain_cases r reusable' s with ⟨id', hid', -, heq'⟩ | ⟨hno', -⟩
      · rw [heq, heq', Option.some.inj (hid'.symm.trans hid)]
      · have hbad := hno' id hid
        rw [hf, Option.any_some, hsame id f hid hf, hgood] at hbad
        cases hbad
    · rw [heq] at hbuilt
      cases hbuilt
  · have hbad (id : FacadeId) (f : Facade) (hid : s.lookup r.service = some id) (hf : s.facade? id = some f) :
        reusable f = false := by
      have hany := hno id hid
      rwa [hf, Option.any_some] at hany
    refine ⟨?_, fun hreused => ?_, fun reusable' hsame => ?_, fun _ hand hempty => ?_⟩
    · rw [heq]
      exact ⟨fun _ => hbad, fun _ => rfl⟩
    · rw [heq] at hreused
      cases hreused
    · rcases obtain_cases r reusable' s with ⟨id, hid, hany, -⟩ | ⟨-, heq'⟩
      · obtain ⟨f, hf, hgood⟩ := (Option.any_eq_true _ _).mp hany
        rw [hsame id f hid hf, hbad id f hid hf] at hgood
        cases hgood
      · rw [heq, heq']
    · have hmade : s.errand (.obtain r reusable hand) = (s.made r).hold hand s.client.facades.length := by
        simp only [Session.errand, heq]
        rfl
      rw [hmade]
      exact ⟨List.getElem?_concat_length, h.fresh r hand hempty⟩

/-- **The registry gives the façade that was made last for a name as long as someone holds it, and nothing else.** -/
theorem registry_gives_newest (config : Config) (codec : Codec) (es : List Errand) :
    ((ofConfig config codec).errands es).Reliable codec := by
  have h : ((ofConfig config codec).errands es).InOrder := (inOrder_ofConfig config codec).errands es
  exact ⟨codec_errands es (ofConfig config codec), h.lookup_eq,
    fun _ _ hf hno more service => h.replaced hf hno more service, h.obtains, h.pruned, fun _ _ hno => h.others hno⟩

end Session

end RemoteCall
