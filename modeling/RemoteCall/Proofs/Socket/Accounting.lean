import Mathlib.Data.List.Perm.Basic
import RemoteCall.Socket.Stream

/-!
# The octets that wait to be sent

Tasks write to a connection at the same time. Each of them looks whether the connection is active, counts the octets of
its frame, and puts the frame into the queue, which fails once the writer has stopped; then the octets are taken off the
count again. The writer takes one frame after the other, puts it on the socket, and takes it off the count. It may
do so on what it saw before the end of the connection. Between any two of these steps others can do theirs.

* `Traffic`: a connection with the writes that are under way, and what became of all frames so far.
* `Traffic.Balanced`: the invariant. Each frame that was accepted has been sent whole, is being sent, or is queued.
* `Traffic.Balanced.write_eq_run`: a write at once is one whose steps follow each other.
* `Traffic.exists_run_of_sendWithin`: the loop of the writer is made of its steps.
* `octets_accounted`: the count is that of the octets that wait, and what is sent is what was accepted, in its order.
-/

namespace RemoteCall.Socket

section Defs

/-- How many octets some frames have. -/
def octets (frames : List Bytes) : Nat := frames.flatten.length

namespace Stream

/-- The frame that the writer is sending, if there is one. -/
def inHand (s : Stream) : List Bytes := s.sending.toList.map Prod.fst

/-- What has not been put on the socket of the frame that the writer is sending. -/
def unsentPart (s : Stream) : Bytes := (s.sending.map Prod.snd).getD []

/-- The writer does something before it notices whether the connection has ended. -/
def unnoticed (f : Stream → Stream) (s : Stream) : Stream :=
  { f { s with active := true } with active := s.active }

end Stream

/-- A connection with the writes that are under way, and what became of all frames so far. -/
structure Traffic where
  stream : Stream
  /-- Frames of writes that found the connection active, and have not counted them yet. -/
  checked : List Bytes := []
  /-- Frames of writes that have counted them, and have not queued them yet. -/
  counted : List Bytes := []
  /-- Whether the writer has stopped, after which nothing can be queued. -/
  stopped : Bool := false
  /-- The frames of all packets that were accepted, in their order. -/
  accepted : List Bytes := []
  /-- Those of them that were sent whole. -/
  completed : List Bytes := []

namespace Traffic

/-- What the tasks that write and the writer do. A write is done at once, or it begins, counts its frame, and queues it.
The writer takes a frame, sends it as far as there is room, or stops. And someone closes the connection. -/
inductive Action where
  | write (p : Packet)
  | check (p : Packet)
  | count (place : Nat)
  | enqueue (place : Nat)
  | take
  | send (room : Nat)
  | stop
  | close

/-- Whether this is one of the steps of a write. -/
def Action.isPart : Action → Bool
  | check _ | count _ | enqueue _ => true
  | _ => false

/-- The frames that were accepted and not sent whole yet. -/
def unsent (t : Traffic) : List Bytes := t.accepted.drop t.completed.length

/-- A write is done at once. If it succeeds its packet is accepted, whatever it has queued. -/
def write (p : Packet) (t : Traffic) : Traffic :=
  match t.stream.write p with
  | (.ok _, stream) => { t with stream, accepted := t.accepted ++ [Frame.ofBody p.body] }
  | (.error _, stream) => { t with stream }

/-- A write looks whether the connection is active and makes its frame, or it fails. -/
def check (p : Packet) (t : Traffic) : Traffic :=
  if t.stream.active then
    match Frame.encode p with
    | .ok frame => { t with checked := t.checked ++ [frame] }
    | .error _ => t
  else t

/-- A write counts the octets of its frame. -/
def count (place : Nat) (t : Traffic) : Traffic :=
  match t.checked[place]? with
  | some frame =>
    { t with
      checked := t.checked.eraseIdx place
      counted := t.counted ++ [frame]
      stream := { t.stream with pending := t.stream.pending + frame.length } }
  | none => t

/-- A write queues its frame and is done, or takes it off the count again and fails, if the writer has stopped. -/
def enqueue (place : Nat) (t : Traffic) : Traffic :=
  match t.counted[place]? with
  | some frame =>
    if t.stopped then
      { t with
        counted := t.counted.eraseIdx place
        stream := { t.stream with pending := t.stream.pending - frame.length } }
    else
      { t with
        counted := t.counted.eraseIdx place
        stream := { t.stream with queue := t.stream.queue ++ [frame] }
        accepted := t.accepted ++ [frame] }
  | none => t

/-- The writer takes the next frame. -/
def take (t : Traffic) : Traffic :=
  if t.stopped then t else { t with stream := t.stream.unnoticed Stream.takeFrame }

/-- The writer puts some octets of its frame on the socket, and is done with it if they were all. -/
def send (room : Nat) (t : Traffic) : Traffic :=
  if t.stopped then t
  else
    let stream := t.stream.unnoticed fun s => (s.sendSome room).complete
    { t with stream, completed := t.completed ++ if stream.sending.isNone then t.stream.inHand else [] }

/-- The writer stops, if the connection has ended. -/
def stop (t : Traffic) : Traffic := if t.stream.active then t else { t with stopped := true }

/-- Someone closes the connection. -/
def close (t : Traffic) : Traffic := { t with stream := t.stream.shut }

/-- Does what one of them does. -/
def perform : Action → Traffic → Traffic
  | .write p, t => t.write p
  | .check p, t => t.check p
  | .count place, t => t.count place
  | .enqueue place, t => t.enqueue place
  | .take, t => t.take
  | .send room, t => t.send room
  | .stop, t => t.stop
  | .close, t => t.close

/-- Does what they do, one after another. -/
def run (actions : List Action) (t : Traffic) : Traffic := actions.foldl (fun t a => t.perform a) t

/-- A new connection. -/
def start (settings : SocketConfig) : Traffic := { stream := { settings } }

/-- Each frame that was accepted has been sent whole, is being sent, or is queued, and the count has the octets of those
that are not sent and of those that wait to be queued. -/
structure Balanced (t : Traffic) : Prop where
  order : t.accepted = t.completed ++ t.stream.inHand ++ t.stream.queue
  pending : t.stream.pending = octets (t.stream.inHand ++ t.stream.queue) + octets t.counted
  sent : ∃ part, t.stream.inHand.flatten = part ++ t.stream.unsentPart ∧ t.stream.sent = t.completed.flatten ++ part
  unfinished : t.stream.sending = none ∨ t.stream.unsentPart ≠ []
  framed : ∀ frame ∈ t.checked ++ t.counted ++ t.stream.queue, frame ≠ []
  ended : t.stopped = true → t.stream.active = false

/-- What can be relied on at any moment. -/
structure Accounted (settings : SocketConfig) (t : Traffic) : Prop where
  /-- The count has the octets of the frames that were accepted and not sent whole, and of those that are counted and
  not queued yet. -/
  pending : t.stream.pending = octets t.unsent + octets t.counted
  /-- Nothing is ever taken off the count that it does not have. -/
  covered : ∀ frame ∈ t.stream.inHand ++ t.counted, frame.length ≤ t.stream.pending
  /-- More can be written as long as that is below the mark. -/
  writable : t.stream.active = true →
    (t.stream.isWritable = true ↔ octets t.unsent + octets t.counted < settings.highWater)
  /-- When all has been sent and no write is under way, nothing is counted. -/
  idle : t.stream.sent = t.accepted.flatten → t.counted = [] → t.stream.pending = 0
  /-- Whole frames have been sent in the order in which they were accepted, and then the beginning of the next. -/
  completed : t.completed <+: t.accepted
  sent : t.completed.flatten <+: t.stream.sent ∧ t.stream.sent <+: t.accepted.flatten
  /-- A write that is refused changes nothing. -/
  refused : ∀ p, t.stream.active = false ∨ Frame.maxBody < p.bodySize →
    (∃ e, t.stream.write p = (.error e, t.stream)) ∧ t.perform (.write p) = t ∧ t.perform (.check p) = t

end Traffic

end Defs

/-! ## Octets -/

@[simp] theorem octets_nil : octets [] = 0 := rfl

@[simp] theorem octets_append (frames frames' : List Bytes) :
    octets (frames ++ frames') = octets frames + octets frames' := by
  simp [octets]

@[simp] theorem octets_cons (frame : Bytes) (frames : List Bytes) :
    octets (frame :: frames) = frame.length + octets frames := by
  simp [octets]

theorem octets_eraseIdx {frames : List Bytes} {place : Nat} {frame : Bytes} (h : frames[place]? = some frame) :
    octets (frames.eraseIdx place) + frame.length = octets frames := by
  obtain ⟨hlt, rfl⟩ := List.getElem?_eq_some_iff.mp h
  rw [Nat.add_comm, ← octets_cons]
  exact (List.getElem_cons_eraseIdx_perm hlt).flatten.length_eq

theorem length_le_octets {frames : List Bytes} {frame : Bytes} (h : frame ∈ frames) : frame.length ≤ octets frames :=
  (List.sublist_flatten_of_mem h).length_le

theorem ne_nil_of_encode {p : Packet} {frame : Bytes} (h : Frame.encode p = .ok frame) : frame ≠ [] := by
  obtain ⟨-, rfl⟩ := Frame.encode_eq_ok_iff.mp h
  refine List.ne_nil_of_length_pos ?_
  simp only [Frame.ofBody, Frame.lengthSize, List.length_append, Wire.length_big]
  omega

theorem eraseIdx_concat_length (frames : List Bytes) (frame : Bytes) :
    (frames ++ [frame]).eraseIdx frames.length = frames := by
  rw [List.eraseIdx_append_of_length_le Nat.le.refl, Nat.sub_self, List.eraseIdx_cons_zero, List.append_nil]

/-! ## The writer before the end -/

namespace Stream

variable {f : Stream → Stream} {s : Stream}

theorem unnoticed_eq_self (h : f { s with active := true } = { s with active := true }) : s.unnoticed f = s := by
  rw [unnoticed, h]

/-- Before the end of the connection there is nothing that the writer could fail to notice. -/
theorem unnoticed_of_active (hs : s.active = true) (hf : (f s).active = true) : s.unnoticed f = f s := by
  have hsame : { s with active := true } = s := by rw [← hs]
  rw [unnoticed, hsame, hs, ← hf]

theorem active_takeFrame (s : Stream) : s.takeFrame.active = s.active := by
  unfold takeFrame
  split <;> simp_all

theorem active_sendSome (count : Nat) (s : Stream) : (s.sendSome count).active = s.active := by
  unfold sendSome
  split <;> simp_all

theorem active_complete (s : Stream) : s.complete.active = s.active := by
  unfold complete
  split <;> simp_all

end Stream

namespace Traffic

variable {t : Traffic}

/-! ## Steps of a write -/

theorem check_of_refused {p : Packet} (h : t.stream.active = false ∨ Frame.maxBody < p.bodySize) : t.check p = t := by
  unfold check
  split
  · rename_i hactive
    have hlarge := h.resolve_left (by simp [hactive])
    rw [Frame.encode, if_pos hlarge]
  · rfl

theorem write_of_refused {s : Stream} {p : Packet} (h : s.active = false ∨ Frame.maxBody < p.bodySize) :
    ∃ e, s.write p = (.error e, s) := by
  unfold Stream.write
  cases hactive : s.active with
  | false => exact ⟨_, rfl⟩
  | true =>
    have hlarge := h.resolve_left (by simp [hactive])
    exact ⟨_, by rw [Frame.encode, if_pos hlarge]; rfl⟩

theorem count_of_none {place : Nat} (h : t.checked.length ≤ place) : t.count place = t := by
  rw [count, List.getElem?_eq_none h]

theorem enqueue_of_none {place : Nat} (h : t.counted.length ≤ place) : t.enqueue place = t := by
  rw [enqueue, List.getElem?_eq_none h]

/-! ## Steps of the writer -/

/-- The writer takes a frame if it has none. -/
theorem take_cases (t : Traffic) : t.take = t ∨ ∃ frame queue, t.stream.sending = none ∧
    t.stream.queue = frame :: queue ∧
    t.take = { t with stream := { t.stream with queue, sending := some (frame, frame) } } := by
  unfold take
  split
  · exact .inl rfl
  · cases hsending : t.stream.sending with
    | some held => exact .inl (by rw [Stream.unnoticed_eq_self (by simp [Stream.takeFrame, hsending])])
    | none =>
      cases hqueue : t.stream.queue with
      | nil => exact .inl (by rw [Stream.unnoticed_eq_self (by simp [Stream.takeFrame, hsending, hqueue])])
      | cons frame queue =>
        exact .inr ⟨frame, queue, rfl, rfl, by simp [Stream.unnoticed, Stream.takeFrame, hsending, hqueue]⟩

/-- The writer sends a part of its frame, or the rest of it. -/
theorem send_cases (room : Nat) (t : Traffic) : t.send room = t ∨ ∃ frame rest, t.stream.sending = some (frame, rest) ∧
    (rest.drop room ≠ [] ∧ t.send room = { t with stream := { t.stream with
        sending := some (frame, rest.drop room), sent := t.stream.sent ++ rest.take room } } ∨
      t.send room = { t with
        stream := { t.stream with
          sending := none, sent := t.stream.sent ++ rest, pending := t.stream.pending - frame.length },
        completed := t.completed ++ [frame] }) := by
  unfold send
  split
  · exact .inl rfl
  · cases hsending : t.stream.sending with
    | none =>
      have hsame : t.stream.unnoticed (fun s => (s.sendSome room).complete) = t.stream :=
        Stream.unnoticed_eq_self (by simp [Stream.sendSome, Stream.complete, hsending])
      exact .inl (by simp [hsame, Stream.inHand, hsending])
    | some held =>
      obtain ⟨frame, rest⟩ := held
      refine .inr ⟨frame, rest, rfl, ?_⟩
      cases hrest : rest.drop room with
      | nil =>
        have hall : rest.take room = rest := List.take_of_length_le (List.drop_eq_nil_iff.mp hrest)
        exact .inr (by simp [Stream.unnoticed, Stream.sendSome, Stream.complete, Stream.inHand, hsending, hrest, hall])
      | cons b bs =>
        exact .inl (by simp [Stream.unnoticed, Stream.sendSome, Stream.complete, hsending, hrest])

/-! ## The loop of the writer -/

theorem stream_take (hactive : t.stream.active = true) (hgoing : t.stopped = false) :
    t.take.stream = t.stream.takeFrame := by
  rw [take, if_neg (by simp [hgoing])]
  exact Stream.unnoticed_of_active hactive (by rwa [Stream.active_takeFrame])

theorem stream_send (hactive : t.stream.active = true) (hgoing : t.stopped = false) (room : Nat) :
    (t.send room).stream = (t.stream.sendSome room).complete := by
  have hstays : (t.stream.sendSome room).complete.active = true := by
    rwa [Stream.active_complete, Stream.active_sendSome]
  rw [send, if_neg (by simp [hgoing])]
  exact Stream.unnoticed_of_active (f := fun s => (s.sendSome room).complete) hactive hstays

theorem stopped_take (t : Traffic) : t.take.stopped = t.stopped := by
  unfold take
  split <;> rfl

theorem stopped_send (room : Nat) (t : Traffic) : (t.send room).stopped = t.stopped := by
  unfold send
  split <;> rfl

/-- The loop of the writer is made of its steps. -/
theorem exists_run_of_sendWithin (hactive : t.stream.active = true) (hgoing : t.stopped = false) (count room : Nat) :
    ∃ actions, (∀ a ∈ actions, a = .take ∨ ∃ n, a = .send n) ∧
      (t.run actions).stream = t.stream.sendWithin count room := by
  induction count generalizing room t with
  | zero => exact ⟨[], nofun, rfl⟩
  | succ count ih =>
    have htake := stream_take hactive hgoing
    rw [Stream.sendWithin, ← htake]
    cases hsending : t.take.stream.sending with
    | none => exact ⟨[.take], by simp, rfl⟩
    | some held =>
      obtain ⟨frame, rest⟩ := held
      have hactive : t.take.stream.active = true := by rwa [htake, Stream.active_takeFrame]
      have hgoing : t.take.stopped = false := by rwa [stopped_take]
      have hsend := stream_send hactive hgoing room
      obtain ⟨actions, hsteps, hrun⟩ := ih (t := t.take.send room)
        (by rwa [hsend, Stream.active_complete, Stream.active_sendSome]) (by rwa [stopped_send]) (room - rest.length)
      refine ⟨.take :: .send room :: actions, ?_, ?_⟩
      · exact List.forall_mem_cons.mpr ⟨.inl rfl, List.forall_mem_cons.mpr ⟨.inr ⟨room, rfl⟩, hsteps⟩⟩
      · show ((t.take.send room).run actions).stream = _
        rw [hrun, hsend]

/-! ## The invariant -/

namespace Balanced

theorem start (settings : SocketConfig) : (start settings).Balanced where
  order := rfl
  pending := rfl
  sent := ⟨[], rfl, rfl⟩
  unfinished := .inl rfl
  framed := nofun
  ended := nofun

theorem check (h : t.Balanced) (p : Packet) : (t.check p).Balanced := by
  unfold Traffic.check
  split
  · split
    · rename_i frame hframe
      refine { h with framed := fun f hf => ?_ }
      simp only [List.mem_append, List.mem_singleton] at hf
      rcases hf with ((hf | rfl) | hf) | hf
      · exact h.framed f (by simp [hf])
      · exact ne_nil_of_encode hframe
      · exact h.framed f (by simp [hf])
      · exact h.framed f (by simp [hf])
    · exact h
  · exact h

theorem count (h : t.Balanced) (place : Nat) : (t.count place).Balanced := by
  unfold Traffic.count
  split
  · rename_i frame hframe
    refine { h with pending := ?_, framed := fun f hf => h.framed f ?_ }
    · show t.stream.pending + frame.length =
        octets (t.stream.inHand ++ t.stream.queue) + octets (t.counted ++ [frame])
      rw [h.pending, octets_append _ [frame], octets_cons, octets_nil, Nat.add_zero, Nat.add_assoc]
    · simp only [List.mem_append, List.mem_singleton] at hf ⊢
      rcases hf with (hf | hf | rfl) | hf
      · exact .inl (.inl (List.mem_of_mem_eraseIdx hf))
      · exact .inl (.inr hf)
      · exact .inl (.inl (List.mem_of_getElem? hframe))
      · exact .inr hf
  · exact h

theorem enqueue (h : t.Balanced) (place : Nat) : (t.enqueue place).Balanced := by
  unfold Traffic.enqueue
  split
  · rename_i frame hframe
    have hoctets := octets_eraseIdx hframe
    have hpending := h.pending
    have hframed : ∀ f ∈ t.checked ++ t.counted.eraseIdx place ++ t.stream.queue, f ≠ [] := by
      intro f hf
      refine h.framed f ?_
      simp only [List.mem_append] at hf ⊢
      exact hf.imp_left (Or.imp_right List.mem_of_mem_eraseIdx)
    split
    · refine { h with pending := ?_, framed := hframed }
      show t.stream.pending - frame.length =
        octets (t.stream.inHand ++ t.stream.queue) + octets (t.counted.eraseIdx place)
      omega
    · refine { h with order := ?_, pending := ?_, framed := ?_ }
      · show t.accepted ++ [frame] = t.completed ++ t.stream.inHand ++ (t.stream.queue ++ [frame])
        rw [h.order, List.append_assoc _ t.stream.queue]
      · show t.stream.pending =
          octets (t.stream.inHand ++ (t.stream.queue ++ [frame])) + octets (t.counted.eraseIdx place)
        rw [← List.append_assoc, octets_append _ [frame], octets_cons, octets_nil]
        omega
      · rw [← List.append_assoc]
        refine List.forall_mem_append.mpr ⟨hframed, List.forall_mem_singleton.mpr ?_⟩
        exact h.framed frame (by simp [List.mem_of_getElem? hframe])
  · exact h

theorem take (h : t.Balanced) : t.take.Balanced := by
  obtain heq | ⟨frame, queue, hsending, hqueue, heq⟩ := take_cases t
  · rwa [heq]
  · have hhand : t.stream.inHand = [] := by simp [Stream.inHand, hsending]
    have horder := h.order
    have hpending := h.pending
    have hframed := h.framed
    obtain ⟨part, hpart, hsent⟩ := h.sent
    rw [hhand, hqueue, List.append_nil] at horder
    rw [hhand, hqueue] at hpending
    rw [hqueue] at hframed
    have hnone : part = [] := (List.append_eq_nil_iff.mp (by rw [← hpart, hhand, List.flatten_nil])).1
    rw [heq]
    refine { h with
      order := ?_, pending := hpending, sent := ⟨[], List.flatten_singleton, ?_⟩, unfinished := .inr ?_,
      framed := fun f hf => ?_ }
    · show t.accepted = t.completed ++ [frame] ++ queue
      rw [horder, List.append_assoc, List.singleton_append]
    · rw [← hnone, hsent]
    · exact hframed frame (by simp)
    · refine hframed f ?_
      simp only [List.mem_append, List.mem_cons] at hf ⊢
      exact hf.imp_right .inr

theorem send (h : t.Balanced) (room : Nat) : (t.send room).Balanced := by
  obtain heq | ⟨frame, rest, hsending, hcases⟩ := send_cases room t
  · rwa [heq]
  · have hhand : t.stream.inHand = [frame] := by simp [Stream.inHand, hsending]
    have hrest : t.stream.unsentPart = rest := by simp [Stream.unsentPart, hsending]
    have horder := h.order
    have hpending := h.pending
    obtain ⟨part, hpart, hsent⟩ := h.sent
    rw [hhand] at horder
    rw [hhand, List.singleton_append, octets_cons] at hpending
    rw [hhand, hrest, List.flatten_singleton] at hpart
    obtain ⟨hleft, heq⟩ | heq := hcases
    · rw [heq]
      refine { h with
        order := horder, pending := ?_, sent := ⟨part ++ rest.take room, ?_, ?_⟩, unfinished := .inr hleft }
      · show t.stream.pending = octets (frame :: t.stream.queue) + octets t.counted
        rw [octets_cons, hpending]
      · show [frame].flatten = part ++ rest.take room ++ rest.drop room
        rw [List.flatten_singleton, List.append_assoc, List.take_append_drop, hpart]
      · show t.stream.sent ++ rest.take room = _
        rw [hsent, List.append_assoc]
    · rw [heq]
      refine { h with order := ?_, pending := ?_, sent := ⟨[], rfl, ?_⟩, unfinished := .inl rfl }
      · show t.accepted = t.completed ++ [frame] ++ [] ++ t.stream.queue
        rw [horder, List.append_nil]
      · show t.stream.pending - frame.length = octets t.stream.queue + octets t.counted
        omega
      · show t.stream.sent ++ rest = (t.completed ++ [frame]).flatten ++ []
        rw [List.append_nil, List.flatten_append, List.flatten_singleton, hsent, hpart, List.append_assoc]

theorem stop (h : t.Balanced) : t.stop.Balanced := by
  unfold Traffic.stop
  split
  · exact h
  · exact { h with ended := fun _ => by simpa using ‹¬ t.stream.active = true› }

theorem close (h : t.Balanced) : t.close.Balanced := { h with ended := fun _ => rfl }

/-- A write at once is one whose steps follow each other. -/
theorem write_eq_run (h : t.Balanced) (p : Packet) :
    t.write p = t.run [.check p, .count t.checked.length, .enqueue t.counted.length] := by
  show t.write p = ((t.check p).count t.checked.length).enqueue t.counted.length
  by_cases hrefused : t.stream.active = false ∨ Frame.maxBody < p.bodySize
  · obtain ⟨e, hwrite⟩ := write_of_refused hrefused
    rw [check_of_refused hrefused, count_of_none Nat.le.refl, enqueue_of_none Nat.le.refl, Traffic.write, hwrite]
  · obtain ⟨hactive, hsize⟩ := not_or.mp hrefused
    have hactive : t.stream.active = true := by simpa using hactive
    have hframe := Frame.encode_eq_ok_iff.mpr ⟨Nat.not_lt.mp hsize, rfl⟩
    have hgoing : t.stopped = false := by
      by_contra hstopped
      simp [h.ended (by simpa using hstopped)] at hactive
    simp [Traffic.write, Stream.write, Traffic.check, Traffic.count, Traffic.enqueue, hactive, hframe, hgoing,
      eraseIdx_concat_length]

theorem perform (h : t.Balanced) (a : Action) : (t.perform a).Balanced := by
  cases a with
  | write p =>
    show (t.write p).Balanced
    rw [h.write_eq_run]
    exact ((h.check p).count _).enqueue _
  | check p => exact h.check p
  | count place => exact h.count place
  | enqueue place => exact h.enqueue place
  | take => exact h.take
  | send room => exact h.send room
  | stop => exact h.stop
  | close => exact h.close

theorem run (h : t.Balanced) (actions : List Action) : (t.run actions).Balanced := by
  induction actions generalizing t with
  | nil => exact h
  | cons a actions ih => exact ih (h.perform a)

theorem unsent_eq (h : t.Balanced) : t.unsent = t.stream.inHand ++ t.stream.queue := by
  rw [unsent, h.order, List.append_assoc, List.drop_left]

theorem pending_eq (h : t.Balanced) : t.stream.pending = octets t.unsent + octets t.counted := by
  rw [h.pending, h.unsent_eq]

/-- A connection on whose socket everything has been put has nothing left to send. -/
theorem pending_of_sent (h : t.Balanced) (hsent : t.stream.sent = t.accepted.flatten) (hcounted : t.counted = []) :
    t.stream.pending = 0 := by
  obtain ⟨part, hpart, heq⟩ := h.sent
  have hlength : part.length = octets t.stream.inHand + octets t.stream.queue := by
    have := congrArg List.length (heq.symm.trans hsent)
    simp only [h.order, octets, List.flatten_append, List.length_append] at this ⊢
    omega
  have hhand : octets t.stream.inHand = part.length + t.stream.unsentPart.length := by
    rw [octets, hpart, List.length_append]
  have hnone : t.stream.sending = none :=
    h.unfinished.resolve_right fun hne => hne (List.eq_nil_of_length_eq_zero (by omega))
  have hempty : t.stream.inHand = [] := by simp [Stream.inHand, hnone]
  rw [hempty, octets_nil] at hhand
  rw [h.pending, hempty, hcounted, List.nil_append, octets_nil]
  omega

theorem sent_prefix (h : t.Balanced) :
    t.completed.flatten <+: t.stream.sent ∧ t.stream.sent <+: t.accepted.flatten := by
  obtain ⟨part, hpart, hsent⟩ := h.sent
  refine ⟨⟨part, hsent.symm⟩, t.stream.unsentPart ++ t.stream.queue.flatten, ?_⟩
  rw [hsent, h.order, List.flatten_append, List.flatten_append, hpart]
  simp only [List.append_assoc]

theorem accounted (h : t.Balanced) : t.Accounted t.stream.settings where
  pending := h.pending_eq
  covered frame hframe := by
    have hle : frame.length ≤ octets (t.stream.inHand ++ t.counted) := length_le_octets hframe
    have hpending := h.pending
    rw [octets_append] at hle hpending
    omega
  writable hactive := by rw [Stream.isWritable, hactive, Bool.true_and, decide_eq_true_iff, h.pending_eq]
  idle := h.pending_of_sent
  completed := ⟨_, by rw [h.order, List.append_assoc]⟩
  sent := h.sent_prefix
  refused p hrefused := by
    obtain ⟨e, hwrite⟩ := write_of_refused hrefused
    exact ⟨⟨e, hwrite⟩, by rw [Traffic.perform, Traffic.write, hwrite], check_of_refused hrefused⟩

end Balanced

/-! ## What steps leave alone -/

theorem settings_perform (a : Action) (t : Traffic) : (t.perform a).stream.settings = t.stream.settings := by
  cases a with
  | write p =>
    simp only [perform, write, Stream.write]
    cases t.stream.active with
    | false => rfl
    | true => cases Frame.encode p <;> rfl
  | check p =>
    simp only [perform, check]
    split
    · split <;> rfl
    · rfl
  | count place =>
    simp only [perform, count]
    split <;> rfl
  | enqueue place =>
    simp only [perform, enqueue]
    split
    · split <;> rfl
    · rfl
  | take =>
    obtain heq | ⟨frame, queue, -, -, heq⟩ := take_cases t <;> rw [perform, heq]
  | send room =>
    obtain heq | ⟨frame, rest, -, ⟨-, heq⟩ | heq⟩ := send_cases room t <;> rw [perform, heq]
  | stop =>
    simp only [perform, stop]
    split <;> rfl
  | close => rfl

/-- Only a write that is under way counts a frame before it queues it. -/
theorem counted_perform {a : Action} (h : a.isPart = false) (t : Traffic) : (t.perform a).counted = t.counted := by
  cases a with
  | write p =>
    simp only [perform, write]
    split <;> rfl
  | take =>
    obtain heq | ⟨frame, queue, -, -, heq⟩ := take_cases t <;> rw [perform, heq]
  | send room =>
    obtain heq | ⟨frame, rest, -, ⟨-, heq⟩ | heq⟩ := send_cases room t <;> rw [perform, heq]
  | stop =>
    simp only [perform, stop]
    split <;> rfl
  | close => rfl
  | _ => cases h

theorem settings_run (actions : List Action) (t : Traffic) : (t.run actions).stream.settings = t.stream.settings := by
  induction actions generalizing t with
  | nil => rfl
  | cons a actions ih => exact (ih (t.perform a)).trans (settings_perform a t)

theorem counted_run {actions : List Action} (h : ∀ a ∈ actions, a.isPart = false) (t : Traffic) :
    (t.run actions).counted = t.counted := by
  induction actions generalizing t with
  | nil => rfl
  | cons a actions ih =>
    obtain ⟨ha, hactions⟩ := List.forall_mem_cons.mp h
    exact (ih hactions (t.perform a)).trans (counted_perform ha t)

end Traffic

/-! ## Main statement -/

/-- **The count has the octets that wait, and what is sent is what was accepted.** Take a new connection, and any
sequence of writes, of steps of the writer, and of closes, where others may come between the steps of a write. Then the
count has the octets of the frames that were accepted and not sent whole, and of those that are counted and not queued
yet, of which there are none if each write is done at once. It never goes below nothing, an active connection is
writable just if it is below the mark, and it is back at nothing when all has been sent. The octets on the socket are
the first of those of the accepted frames in their order. A write that is refused changes nothing. -/
theorem octets_accounted (settings : SocketConfig) (actions : List Traffic.Action) :
    ((Traffic.start settings).run actions).Accounted settings ∧
      ((∀ a ∈ actions, a.isPart = false) → ((Traffic.start settings).run actions).counted = []) := by
  have hbalanced := (Traffic.Balanced.start settings).run actions
  have haccounted := hbalanced.accounted
  rw [Traffic.settings_run] at haccounted
  exact ⟨haccounted, fun hwhole => Traffic.counted_run hwhole (Traffic.start settings)⟩

/-- Of two packets that were accepted one is sent whole and the other in part when the connection ends, and a third is
refused. -/
theorem ended_while_sending :
    let actions : List Traffic.Action :=
      [.write .pong, .take, .write .pong, .send 100, .take, .send 3, .close, .write .pong, .stop]
    let t := (Traffic.start {}).run actions
    (∀ a ∈ actions, a.isPart = false) ∧ t.Accounted {} ∧ t.counted = [] ∧
      t.accepted.length = 2 ∧ t.completed.length = 1 ∧ t.stream.pending = 8 ∧ t.stream.sent.length = 11 := by
  intro actions t
  have hwhole : ∀ a ∈ actions, a.isPart = false := by simp [actions, Traffic.Action.isPart]
  obtain ⟨haccounted, hcounted⟩ := octets_accounted {} actions
  exact ⟨hwhole, haccounted, hcounted hwhole, by decide⟩

/-- The connection ends after a write found it active. The write counts its frame, which cannot be queued any more, and
takes it off the count again. -/
example :
    let t := (Traffic.start {}).run [.check .pong, .close, .stop, .count 0]
    t.stream.pending = 8 ∧ (t.perform (.enqueue 0)).stream.pending = 0 ∧ (t.perform (.enqueue 0)).accepted = [] := by
  decide

end RemoteCall.Socket
