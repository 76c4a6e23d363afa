import Mathlib.Data.List.Induction
import RemoteCall.Proofs.Connection.Reading
import RemoteCall.Proofs.Socket.Accounting
import RemoteCall.Proofs.Socket.Receiving

/-!
# The end of a connection over a socket

Tasks write, the writer takes and sends frames, the reader receives, and the handle may be closed. What a task does from
one point at which it waits to the next is one step. Some of these steps end the connection, and no other does. After
that both halves are shut for good: nothing is accepted or sent, and the reader gives what its buffer still
holds and then the end, which stops the dispatcher.

* `Line`: a connection with what became of all that was done with it.
* `Ends`: what ends a connection.
* `active_perform`: a connection goes on until one of these happens.
* `Line.linger`: what is still done after the end.
* `after_run`: what is so from then on, whatever happens.
* `dispatcher_stops`: the dispatcher stops once it has taken the whole frames that are left.
* `shuts_once`: all of it, for every run.
-/

namespace RemoteCall.Socket

open Memory (Received Inbound)

section Defs

/-- What taking a frame off the buffer means to a reader of a connection that has ended. -/
def ofTaken : Except CallError (Option Packet) → Received Inbound
  | .ok (some p) => .item (.packet p)
  | .ok none => .finished
  | .error e => .item (.fault e)

/-- Whether the connection ends with what was received. -/
def isLast : Received Inbound → Bool
  | .item (.fault _) | .finished => true
  | .item (.packet _) | .pending => false

/-- A connection with what became of all that was done with it. -/
structure Line where
  stream : Stream
  /-- The frames that the writer took, in their order. -/
  taken : List Bytes := []
  /-- What those who wrote got. -/
  answers : List (Except CallError Unit) := []
  /-- What the reader got each time. -/
  heard : List (Received Inbound) := []

/-- What is done with a connection. A packet is written. The writer takes a frame, sends some of it, or has not been able
to for too long. The handle is closed. Octets or their end arrive, and one receives, with reads of these sizes. -/
inductive Action where
  | write (p : Packet)
  | take
  | send (room : Nat)
  | timeOut
  | close
  | arrive (bs : Bytes)
  | finish
  | receive (sizes : List Nat)

namespace Action

/-- What this is to the reading half. -/
def event? : Action → Option Stream.Event
  | .arrive bs => some (.arrive bs)
  | .finish => some .finish
  | .receive sizes => some (.receive sizes)
  | _ => none

def isWrite : Action → Bool
  | .write _ => true
  | _ => false

def isReceive : Action → Bool
  | .receive _ => true
  | _ => false

end Action

namespace Line

/-- A new connection. -/
def start (settings : SocketConfig) : Line := { stream := { settings } }

/-- A packet is written. -/
def write (p : Packet) (t : Line) : Except CallError Unit × Line :=
  let (r, stream) := t.stream.write p
  (r, { t with stream, answers := t.answers ++ [r] })

/-- One receives. -/
def receive (sizes : List Nat) (t : Line) : Received Inbound × Line :=
  let (r, stream) := t.stream.receiveBy sizes
  (r, { t with stream, heard := t.heard ++ [r] })

/-- The writer takes the next frame. -/
def take (t : Line) : Line :=
  let stream := t.stream.takeFrame
  { t with stream, taken := t.taken ++ stream.inHand.drop t.stream.inHand.length }

/-- The handle is closed. -/
def close (t : Line) : Line := { t with stream := t.stream.shut }

/-- Does one thing. Nothing arrives after the end of what arrives. -/
def perform : Action → Line → Line
  | .write p, t => (t.write p).2
  | .take, t => t.take
  | .send room, t => { t with stream := (t.stream.sendSome room).complete }
  | .timeOut, t => { t with stream := t.stream.writeTimeout }
  | .close, t => t.close
  | .arrive bs, t => { t with stream := if t.stream.peerEnded then t.stream else t.stream.peerWrite bs }
  | .finish, t => { t with stream := t.stream.peerEnd }
  | .receive sizes, t => (t.receive sizes).2

/-- Does one thing after the other. -/
def run (actions : List Action) (t : Line) : Line := actions.foldl (fun t a => t.perform a) t

/-- The line as a link of a dispatcher, which reads with these sizes. -/
def transport (sizes : List Nat) : Transport Line where
  receive := receive sizes
  write := write
  close := close
  dropReader t := t

end Line

/-- What ends a connection: the handle is closed, a frame is not sent in time, or one receives and finds the end of the
octets, after whole frames or inside one, a length over the limit, or a body that is no packet. -/
inductive Ends (s : Stream) : Action → Prop
  | closed : Ends s .close
  | timedOut (hsending : s.sending ≠ none) : Ends s .timeOut
  | cleanEnd {sizes : List Nat} (hended : s.peerEnded = true) (hempty : s.buffer ++ s.arrived = []) :
      Ends s (.receive sizes)
  | midFrame {sizes : List Nat} (hended : s.peerEnded = true) (hsome : s.buffer ++ s.arrived ≠ [])
      (hfirst : Frame.first (s.buffer ++ s.arrived) = .incomplete) : Ends s (.receive sizes)
  | tooLarge {sizes : List Nat} {size : Nat} (hfirst : Frame.first (s.buffer ++ s.arrived) = .tooLarge size) :
      Ends s (.receive sizes)
  | undecodable {sizes : List Nat} {body rest : Bytes} {e : CallError}
      (hfirst : Frame.first (s.buffer ++ s.arrived) = .whole body rest) (hbody : Frame.decode body = .error e) :
      Ends s (.receive sizes)

/-- What happens while a dispatcher reads: something is done with the line, or the dispatcher takes a step. -/
inductive Incident where
  | act (a : Action)
  | dispatch (now : Nat) (sizes : List Nat)

def Incident.isDispatch : Incident → Bool
  | .dispatch .. => true
  | .act _ => false

/-- Something happens. -/
def happen : Incident → Dispatcher Line → Dispatcher Line
  | .act a, d => { d with link := d.link.perform a }
  | .dispatch now sizes, d => d.dispatch (Line.transport sizes) now

/-- One thing happens after the other. -/
def happenAll (incidents : List Incident) (d : Dispatcher Line) : Dispatcher Line :=
  incidents.foldl (fun d i => happen i d) d

/-- Whether a dispatcher has stopped, and no call waits for it. -/
structure HasStopped (d : Dispatcher Line) : Prop where
  running : d.running = false
  size : d.generation.table.size = 0

/-- What is so after a connection has ended and more was done with it. -/
structure After (t : Line) (later : List Action) (t' : Line) : Prop where
  active : t'.stream.active = false
  unwritable : t'.stream.isWritable = false
  /-- Each write fails, and nothing is queued. -/
  answers : t'.answers = t.answers ++ List.replicate (later.countP Action.isWrite) (.error .connectionClosed)
  queue : t'.stream.queue = t.stream.queue
  /-- The writer takes no frame, and sends nothing of the one that it has. -/
  taken : t'.taken = t.taken
  sent : t'.stream.sent = t.stream.sent
  /-- Nothing that arrives is read. -/
  arrived : t'.stream.arrived =
    t.stream.arrived ++ Stream.arrivals t.stream.peerEnded (later.filterMap Action.event?)
  /-- One receives what taking frames off the buffer gives, again and again. -/
  heard : t'.heard = t.heard ++
    ((Frame.run (List.replicate (later.countP Action.isReceive) .take) t.stream.buffer).1.map ofTaken)
  buffer : t'.stream.buffer = (Frame.run (List.replicate (later.countP Action.isReceive) .take) t.stream.buffer).2

/-- A connection on which some things were done ends once, for both halves. -/
structure EndsOnce (settings : SocketConfig) (actions : List Action) (t : Line) : Prop where
  /-- It has ended if and only if something was done that ends it. -/
  causes : t.stream.active = false ↔
    ∃ first a rest, actions = first ++ a :: rest ∧ Ends ((Line.start settings).run first).stream a
  /-- What is so from then on. -/
  after : t.stream.active = false → ∀ later, After t later (t.run later)
  /-- A buffer without a whole frame gives the end every time, and one with a length over the limit gives that. -/
  settled : t.stream.active = false → ∀ r,
    (Frame.first t.stream.buffer = .incomplete ∧ r = .finished ∨
      ∃ size, Frame.first t.stream.buffer = .tooLarge size ∧ r = .item (.fault (.frameTooLarge size Frame.maxBody))) →
    ∀ later, (t.run later).heard = t.heard ++ List.replicate (later.countP Action.isReceive) r
  /-- A reader that waits gets the end without anything more coming in, and its dispatcher stops. -/
  waiting : t.stream.active = false → t.heard.getLast? = some .pending →
    (∀ sizes, t.stream.receiveBy sizes = (.finished, t.stream)) ∧
    ∀ d : Dispatcher Line, d.link = t → d.running = true →
      ∀ now sizes, HasStopped (d.dispatch (Line.transport sizes) now)
  /-- Any dispatcher stops after one packet for each whole frame that is left, and one step more. -/
  dispatcher : t.stream.active = false → ∀ d : Dispatcher Line, d.link = t → d.running = true → ∀ incidents,
    (Frame.split t.stream.buffer).bodies.length < incidents.countP Incident.isDispatch →
      HasStopped (happenAll incidents d)

end Defs

variable {s : Stream} {t : Line} {bs : Bytes}

/-! ## Taking frames again and again -/

/-- If taking a frame leaves the buffer as it is, it gives the same every time. -/
theorem run_replicate_take (h : (Frame.take bs).2 = bs) (n : Nat) :
    Frame.run (List.replicate n .take) bs = (List.replicate n (Frame.take bs).1, bs) := by
  induction n with
  | zero => rfl
  | succ n ih => rw [List.replicate_succ, Frame.run, h, ih, List.replicate_succ]

theorem take_of_incomplete (h : Frame.first bs = .incomplete) : Frame.take bs = (.ok none, bs) := by
  rw [Frame.take_eq, h]

theorem take_of_tooLarge {size : Nat} (h : Frame.first bs = .tooLarge size) :
    Frame.take bs = (.error (.frameTooLarge size Frame.maxBody), bs) := by
  rw [Frame.take_eq, h]

/-- The beginning of a frame that is not whole is no whole frame either. -/
theorem first_of_append {more : Bytes} (h : Frame.first (bs ++ more) = .incomplete) : Frame.first bs = .incomplete := by
  cases hfirst : Frame.first bs with
  | incomplete => rfl
  | tooLarge size => rw [Frame.first_append_of_tooLarge hfirst] at h; cases h
  | whole body rest => rw [Frame.first_append_of_whole hfirst] at h; cases h

theorem bodies_take_le (bs : Bytes) : (Frame.split (Frame.take bs).2).bodies.length ≤ (Frame.split bs).bodies.length := by
  cases hfirst : Frame.first bs with
  | incomplete => exact Nat.le_of_eq (by rw [take_of_incomplete hfirst])
  | tooLarge size => exact Nat.le_of_eq (by rw [take_of_tooLarge hfirst])
  | whole body rest => rw [Frame.take_of_whole hfirst, Frame.split_of_whole hfirst]; exact Nat.le_succ _

/-! ## What ends a connection -/

namespace Stream

/-- Taking a frame off the buffer ends a connection if it gives a fault. -/
theorem active_takeBuffered (s : Stream) : s.takeBuffered = (none, s) ∨
    ∃ r s', s.takeBuffered = (some r, s') ∧ s'.active = (s.active && !isLast r) := by
  unfold takeBuffered
  cases hfirst : Frame.first s.buffer with
  | incomplete => exact .inl (by rw [take_of_incomplete hfirst])
  | tooLarge size =>
    rw [take_of_tooLarge hfirst]
    exact .inr ⟨_, _, rfl, (Bool.and_false _).symm⟩
  | whole body rest =>
    rw [Frame.take_of_whole hfirst]
    cases Frame.decode body with
    | ok p => exact .inr ⟨_, _, rfl, (Bool.and_true _).symm⟩
    | error e => exact .inr ⟨_, _, rfl, (Bool.and_false _).symm⟩

theorem active_atEnd (s : Stream) : s.atEnd.2.active = (s.active && !isLast s.atEnd.1) := by
  unfold atEnd
  split <;> exact (Bool.and_false _).symm

/-- Without a whole frame in the buffer and on the socket one waits, or the connection ends. -/
theorem active_endOrWait (s : Stream) :
    (if s.peerEnded then s.atEnd else (.pending, s)).2.active =
      (s.active && !isLast (if s.peerEnded then s.atEnd else (.pending, s)).1) := by
  split
  · exact active_atEnd s
  · exact (Bool.and_true _).symm

theorem active_receive (s : Stream) : s.receive.2.active = (s.active && !isLast s.receive.1) := by
  unfold receive
  obtain htake | ⟨r, s', htake, hactive⟩ := active_takeBuffered s
  · rw [htake]
    dsimp only
    cases hs : s.active with
    | false => exact hs
    | true =>
      by_cases harrived : s.arrived.isEmpty = true
      · simpa [harrived, hs] using active_endOrWait s
      · obtain htake' | ⟨r, s', htake', hactive'⟩ := active_takeBuffered s.fill
        · have hfill : s.fill.active = true := hs
          simpa [harrived, htake', hfill] using active_endOrWait s.fill
        · have hfill : s.fill.active = true := hs
          simpa [harrived, htake', hfill] using hactive'
  · rw [htake]
    exact hactive

/-- The connection ends with what is received if that is a fault or the end. -/
theorem active_receiveBy (sizes : List Nat) (s : Stream) :
    (s.receiveBy sizes).2.active = (s.active && !isLast (s.receiveBy sizes).1) := by
  induction sizes generalizing s with
  | nil => exact active_receive s
  | cons size sizes ih =>
    unfold receiveBy
    obtain htake | ⟨r, s', htake, hactive⟩ := active_takeBuffered s
    · rw [htake]
      dsimp only
      cases hs : s.active with
      | false => exact hs
      | true =>
        by_cases harrived : s.arrived.isEmpty = true
        · simpa [harrived, hs] using active_endOrWait s
        · have hfill : (s.fillSome (size + 1)).active = true := hs
          simpa [harrived, hfill] using ih (s.fillSome (size + 1))
    · rw [htake]
      exact hactive

end Stream

/-- One receives a fault or the end if and only if that is what the octets have next. -/
theorem isLast_receiveBy (hactive : s.active = true) (sizes : List Nat) :
    isLast (s.receiveBy sizes).1 = true ↔ Ends s (.receive sizes) := by
  have hnext := Stream.next_receiveBy (s := s) ⟨hactive, rfl, rfl⟩ sizes
  generalize s.receiveBy sizes = r at hnext
  constructor
  · intro hlast
    cases hnext with
    | waits => cases hlast
    | ends hfirst hended =>
      by_cases hempty : s.buffer ++ s.arrived = []
      · exact .cleanEnd hended hempty
      · exact .midFrame hended hempty hfirst
    | tooLarge hfirst => exact .tooLarge hfirst
    | packet => cases hlast
    | fault hfirst hbody => exact .undecodable hfirst hbody
  · intro hends
    cases hnext with
    | waits hfirst hended _ =>
      cases hends with
      | cleanEnd hend _ | midFrame hend _ _ => rw [hended] at hend; cases hend
      | tooLarge hfirst' | undecodable hfirst' _ => rw [hfirst] at hfirst'; cases hfirst'
    | ends =>
      unfold Stream.endOf
      split <;> rfl
    | tooLarge => rfl
    | packet hfirst hbody _ =>
      cases hends with
      | cleanEnd _ hempty => rw [hempty] at hfirst; cases hfirst
      | midFrame _ _ hfirst' | tooLarge hfirst' => rw [hfirst] at hfirst'; cases hfirst'
      | undecodable hfirst' hbody' =>
        rw [hfirst] at hfirst'
        cases hfirst'
        rw [hbody] at hbody'
        cases hbody'
    | fault => rfl

theorem active_writeTimeout (hactive : s.active = true) :
    s.writeTimeout.active = false ↔ s.sending ≠ none := by
  unfold Stream.writeTimeout
  rw [hactive]
  cases s.sending with
  | none => simp [hactive]
  | some held => simp [Stream.shut]

theorem active_write (p : Packet) (s : Stream) : (s.write p).2.active = s.active := by
  unfold Stream.write
  split
  · rfl
  · split <;> rfl

namespace Line

/-- **A connection goes on until something ends it.** -/
theorem active_perform (hactive : t.stream.active = true) (a : Action) :
    (t.perform a).stream.active = false ↔ Ends t.stream a := by
  have hgoesOn {a : Action} (hsame : (t.perform a).stream.active = t.stream.active) (hno : ¬ Ends t.stream a) :
      (t.perform a).stream.active = false ↔ Ends t.stream a := by
    rw [hsame, hactive]
    exact ⟨nofun, fun h => absurd h hno⟩
  cases a with
  | write p => exact hgoesOn (active_write p t.stream) nofun
  | take => exact hgoesOn (Stream.active_takeFrame _) nofun
  | send room => exact hgoesOn ((Stream.active_complete _).trans (Stream.active_sendSome ..)) nofun
  | timeOut =>
    refine (active_writeTimeout hactive).trans ⟨.timedOut, fun h => ?_⟩
    cases h with
    | timedOut hsending => exact hsending
  | close => exact ⟨fun _ => .closed, fun _ => rfl⟩
  | arrive bs =>
    refine hgoesOn ?_ nofun
    simp only [perform]
    split <;> rfl
  | finish => exact hgoesOn rfl nofun
  | receive sizes =>
    have hreceive : ((t.perform (.receive sizes)).stream.active = false) ↔
        isLast (t.stream.receiveBy sizes).1 = true := by
      have hshut := Stream.active_receiveBy sizes t.stream
      rw [hactive, Bool.true_and] at hshut
      show (t.stream.receiveBy sizes).2.active = false ↔ _
      rw [hshut, Bool.not_eq_false']
    exact hreceive.trans (isLast_receiveBy hactive sizes)

/-! ## After the end -/

theorem shut_of_ended (hended : s.active = false) : s.shut = s := by
  rw [Stream.shut, ← hended]

/-- After the end a fault changes nothing more. -/
theorem takeBuffered_of_ended (hended : s.active = false) :
    s.takeBuffered = (none, s) ∧ Frame.take s.buffer = (.ok none, s.buffer) ∨
      s.takeBuffered = (some (ofTaken (Frame.take s.buffer).1), { s with buffer := (Frame.take s.buffer).2 }) := by
  have hshut (buffer : Bytes) : ({ s with buffer } : Stream).shut = { s with buffer } := shut_of_ended hended
  unfold Stream.takeBuffered
  cases hfirst : Frame.first s.buffer with
  | incomplete => exact .inl (by rw [take_of_incomplete hfirst]; exact ⟨rfl, rfl⟩)
  | tooLarge size => exact .inr (by rw [take_of_tooLarge hfirst]; exact congrArg (Prod.mk _) (hshut _))
  | whole body rest =>
    refine .inr ?_
    rw [Frame.take_of_whole hfirst]
    cases Frame.decode body with
    | ok p => rfl
    | error e => exact congrArg (Prod.mk _) (hshut rest)

/-- After the end one receives what taking a frame off the buffer gives. -/
theorem receiveBy_of_ended (hended : s.active = false) (sizes : List Nat) : s.receiveBy sizes =
    (ofTaken (Frame.take s.buffer).1, { s with buffer := (Frame.take s.buffer).2 }) := by
  have hinactive : (!s.active) = true := by rw [hended]; rfl
  obtain ⟨htake, hnone⟩ | htake := takeBuffered_of_ended hended
  · rw [hnone]
    cases sizes with
    | nil => rw [Stream.receiveBy, Stream.receive, htake]; exact if_pos hinactive
    | cons size sizes => rw [Stream.receiveBy, htake]; exact if_pos hinactive
  · cases sizes with
    | nil => rw [Stream.receiveBy, Stream.receive, htake]
    | cons size sizes => rw [Stream.receiveBy, htake]

theorem write_of_ended (hended : s.active = false) (p : Packet) : s.write p = (.error .connectionClosed, s) := by
  rw [Stream.write, hended]
  rfl

/-- What is so right after the end. -/
theorem after_nil (hended : t.stream.active = false) : After t [] t where
  active := hended
  unwritable := by rw [Stream.isWritable, hended]; rfl
  answers := (List.append_nil _).symm
  queue := rfl
  taken := rfl
  sent := rfl
  arrived := (List.append_nil _).symm
  heard := (List.append_nil _).symm
  buffer := rfl

/-- What is still done after the end: a write is answered, octets and their end arrive, and one receives what the
buffer holds. -/
def linger : Action → Line → Line
  | .write _, t => { t with answers := t.answers ++ [.error .connectionClosed] }
  | .arrive bs, t => { t with stream := if t.stream.peerEnded then t.stream else t.stream.peerWrite bs }
  | .finish, t => { t with stream := t.stream.peerEnd }
  | .receive _, t =>
    { t with
      stream := { t.stream with buffer := (Frame.take t.stream.buffer).2 }
      heard := t.heard ++ [ofTaken (Frame.take t.stream.buffer).1] }
  | .take, t | .send _, t | .timeOut, t | .close, t => t

theorem perform_of_ended (hended : t.stream.active = false) (a : Action) : t.perform a = t.linger a := by
  have hhand : t.stream.inHand.drop t.stream.inHand.length = [] := List.drop_length
  cases a with
  | write p => simp only [perform, write, write_of_ended hended, linger]
  | take => simp [perform, linger, take, Stream.takeFrame, hended, hhand]
  | send room => simp [perform, linger, Stream.sendSome, Stream.complete, hended]
  | timeOut => simp [perform, linger, Stream.writeTimeout, hended]
  | close => simp [perform, linger, close, shut_of_ended hended]
  | arrive bs => rfl
  | finish => rfl
  | receive sizes => simp only [perform, receive, receiveBy_of_ended hended, linger]

theorem active_linger (a : Action) (t : Line) : (t.linger a).stream.active = t.stream.active := by
  cases a with
  | arrive bs =>
    simp only [linger]
    split <;> rfl
  | _ => rfl

/-- Something is done after the end, and then more. -/
theorem after_cons {a : Action} {later : List Action} {t' : Line} (h : After (t.linger a) later t') :
    After t (a :: later) t' := by
  cases a with
  | write p =>
    refine ⟨h.active, h.unwritable, ?_, h.queue, h.taken, h.sent, h.arrived, h.heard, h.buffer⟩
    rw [h.answers, linger, List.append_assoc, ← List.replicate_one, List.replicate_append_replicate,
      List.countP_cons_of_pos rfl, Nat.add_comm]
  | take | send | timeOut | close =>
    exact ⟨h.active, h.unwritable, h.answers, h.queue, h.taken, h.sent, h.arrived, h.heard, h.buffer⟩
  | arrive bs =>
    cases hend : t.stream.peerEnded with
    | true =>
      have hsame : t.linger (.arrive bs) = t := by simp only [linger, hend, if_true]
      rw [hsame] at h
      refine ⟨h.active, h.unwritable, h.answers, h.queue, h.taken, h.sent, ?_, h.heard, h.buffer⟩
      rw [h.arrived, hend]
      rfl
    | false =>
      have hmore : t.linger (.arrive bs) = { t with stream := t.stream.peerWrite bs } := by simp [linger, hend]
      rw [hmore] at h
      refine ⟨h.active, h.unwritable, h.answers, h.queue, h.taken, h.sent, ?_, h.heard, h.buffer⟩
      have hstill : (t.stream.peerWrite bs).peerEnded = false := hend
      rw [h.arrived, hstill, hend, Stream.peerWrite, List.append_assoc]
      rfl
  | finish =>
    refine ⟨h.active, h.unwritable, h.answers, h.queue, h.taken, h.sent, ?_, h.heard, h.buffer⟩
    rw [h.arrived]
    cases t.stream.peerEnded <;> rfl
  | receive sizes =>
    refine ⟨h.active, h.unwritable, h.answers, h.queue, h.taken, h.sent, ?_, ?_, ?_⟩
    · rw [h.arrived, linger]
      cases t.stream.peerEnded <;> rfl
    · rw [h.heard, linger, List.append_assoc, List.countP_cons_of_pos rfl, List.replicate_succ]
      rfl
    · rw [h.buffer, List.countP_cons_of_pos rfl, List.replicate_succ]
      rfl

/-- **What is so after the end, whatever happens then.** -/
theorem after_run (hended : t.stream.active = false) (later : List Action) : After t later (t.run later) := by
  induction later generalizing t with
  | nil => exact after_nil hended
  | cons a later ih =>
    rw [run, List.foldl_cons, perform_of_ended hended]
    exact after_cons (ih ((active_linger a t).trans hended))

theorem run_append (first later : List Action) (t : Line) : t.run (first ++ later) = (t.run first).run later :=
  List.foldl_append ..

/-- A connection has ended if and only if something was done that ends it. -/
theorem active_run (hactive : t.stream.active = true) (actions : List Action) :
    (t.run actions).stream.active = false ↔
      ∃ first a rest, actions = first ++ a :: rest ∧ Ends (t.run first).stream a := by
  constructor
  · intro hended
    induction actions using List.reverseRecOn with
    | nil =>
      change t.stream.active = false at hended
      rw [hactive] at hended
      cases hended
    | append_singleton first a ih =>
      cases hfirst : (t.run first).stream.active with
      | false =>
        obtain ⟨before, b, rest, rfl, hends⟩ := ih hfirst
        exact ⟨before, b, rest ++ [a], by simp, hends⟩
      | true =>
        rw [run_append] at hended
        exact ⟨first, a, [], rfl, (active_perform hfirst a).mp hended⟩
  · rintro ⟨first, a, rest, rfl, hends⟩
    cases hfirst : (t.run first).stream.active with
    | false =>
      rw [run_append]
      exact (after_run hfirst (a :: rest)).active
    | true =>
      rw [List.append_cons, run_append, run_append]
      exact (after_run ((active_perform hfirst a).mpr hends) rest).active

/-- What one receives after the end does not change any more once taking a frame leaves the buffer as it is. -/
theorem heard_of_settled (hended : t.stream.active = false)
    (hsettled : (Frame.take t.stream.buffer).2 = t.stream.buffer) (later : List Action) :
    (t.run later).heard =
      t.heard ++ List.replicate (later.countP Action.isReceive) (ofTaken (Frame.take t.stream.buffer).1) := by
  rw [(after_run hended later).heard, run_replicate_take hsettled, List.map_replicate]

/-! ## A reader that waits -/

theorem ofTaken_ne_pending (r : Except CallError (Option Packet)) : ofTaken r ≠ .pending := by
  match r with
  | .ok (some p) | .ok none | .error e => exact nofun

/-- One waits only without a whole frame in the buffer. -/
theorem first_of_pending (sizes : List Nat) (h : (s.receiveBy sizes).1 = .pending) :
    Frame.first (s.receiveBy sizes).2.buffer = .incomplete := by
  cases hactive : s.active with
  | false =>
    rw [receiveBy_of_ended hactive] at h
    exact absurd h (ofTaken_ne_pending _)
  | true =>
    have hnext := Stream.next_receiveBy (s := s) ⟨hactive, rfl, rfl⟩ sizes
    revert h
    generalize s.receiveBy sizes = r at hnext
    intro h
    cases hnext with
    | waits hfirst _ hs =>
      rw [← hs.octets] at hfirst
      exact first_of_append hfirst
    | ends => exact absurd h (Stream.endOf_ne_pending _)
    | tooLarge | packet | fault => cases h

theorem buffer_takeFrame (s : Stream) : s.takeFrame.buffer = s.buffer := by
  unfold Stream.takeFrame
  split <;> rfl

theorem buffer_send (room : Nat) (s : Stream) : (s.sendSome room).complete.buffer = s.buffer := by
  unfold Stream.sendSome Stream.complete
  split <;> split <;> rfl

theorem buffer_writeTimeout (s : Stream) : s.writeTimeout.buffer = s.buffer := by
  unfold Stream.writeTimeout
  split <;> rfl

theorem buffer_write (p : Packet) (s : Stream) : (s.write p).2.buffer = s.buffer := by
  unfold Stream.write
  split
  · rfl
  · split <;> rfl

/-- Only the reader takes anything off the buffer, or puts anything into it. -/
theorem reader_perform {a : Action} (ha : a.isReceive = false) (t : Line) :
    (t.perform a).stream.buffer = t.stream.buffer ∧ (t.perform a).heard = t.heard := by
  cases a with
  | write p => exact ⟨buffer_write p t.stream, rfl⟩
  | take => exact ⟨buffer_takeFrame t.stream, rfl⟩
  | send room => exact ⟨buffer_send room t.stream, rfl⟩
  | timeOut => exact ⟨buffer_writeTimeout t.stream, rfl⟩
  | close => exact ⟨rfl, rfl⟩
  | arrive bs =>
    refine ⟨?_, rfl⟩
    simp only [perform]
    split <;> rfl
  | finish => exact ⟨rfl, rfl⟩
  | receive sizes => cases ha

/-- While a reader waits, the buffer has no whole frame. -/
theorem first_of_waiting (settings : SocketConfig) (actions : List Action)
    (h : ((start settings).run actions).heard.getLast? = some .pending) :
    Frame.first ((start settings).run actions).stream.buffer = .incomplete := by
  induction actions using List.reverseRecOn with
  | nil => cases h
  | append_singleton first a ih =>
    rw [run_append] at h ⊢
    change ((((start settings).run first).perform a).heard).getLast? = _ at h
    change Frame.first (((start settings).run first).perform a).stream.buffer = _
    cases ha : a.isReceive with
    | false =>
      obtain ⟨hbuffer, hheard⟩ := reader_perform ha ((start settings).run first)
      rw [hheard] at h
      rw [hbuffer]
      exact ih h
    | true =>
      cases a with
      | receive sizes =>
        simp only [perform, receive, List.getLast?_concat, Option.some.injEq] at h
        exact first_of_pending sizes h
      | _ => cases ha

end Line

/-! ## The dispatcher -/

variable {d : Dispatcher Line}

theorem HasStopped.happen (h : HasStopped d) (i : Incident) : HasStopped (Socket.happen i d) := by
  cases i with
  | act a => exact ⟨h.running, h.size⟩
  | dispatch now sizes =>
    rw [Socket.happen, Dispatcher.dispatch_of_stopped h.running]
    exact h

theorem HasStopped.happenAll (h : HasStopped d) (incidents : List Incident) :
    HasStopped (Socket.happenAll incidents d) := by
  induction incidents generalizing d with
  | nil => exact h
  | cons i incidents ih => exact ih (h.happen i)

/-- A step of a dispatcher after the end stops it, or takes a whole frame off the buffer. -/
theorem dispatch_of_ended (hended : d.link.stream.active = false) (hrunning : d.running = true) (now : Nat)
    (sizes : List Nat) : HasStopped (d.dispatch (Line.transport sizes) now) ∨
      (d.dispatch (Line.transport sizes) now).link.stream.active = false ∧
      (d.dispatch (Line.transport sizes) now).running = true ∧
      (Frame.split d.link.stream.buffer).bodies.length =
        (Frame.split (d.dispatch (Line.transport sizes) now).link.stream.buffer).bodies.length + 1 := by
  have hreceive : (Line.transport sizes).receive d.link = d.link.receive sizes := rfl
  rw [Line.receive, Line.receiveBy_of_ended hended] at hreceive
  have hstops {r : Received Inbound} {link : Line} (h : (Line.transport sizes).receive d.link = (r, link))
      (hr : r = .finished ∨ ∃ e, r = .item (.fault e)) : HasStopped (d.dispatch (Line.transport sizes) now) := by
    rw [Dispatcher.dispatch_of_ended hrunning h hr]
    exact ⟨rfl, Dispatcher.size_stop ..⟩
  cases hfirst : Frame.first d.link.stream.buffer with
  | incomplete =>
    rw [take_of_incomplete hfirst] at hreceive
    exact .inl (hstops hreceive (.inl rfl))
  | tooLarge size =>
    rw [take_of_tooLarge hfirst] at hreceive
    exact .inl (hstops hreceive (.inr ⟨_, rfl⟩))
  | whole body rest =>
    rw [Frame.take_of_whole hfirst] at hreceive
    cases hbody : Frame.decode body with
    | error e =>
      rw [hbody] at hreceive
      exact .inl (hstops hreceive (.inr ⟨_, rfl⟩))
    | ok p =>
      rw [hbody] at hreceive
      rw [Dispatcher.dispatch_of_packet hrunning hreceive, Dispatcher.link_goOn, Dispatcher.running_goOn,
        Dispatcher.running_onPacket, Frame.split_of_whole hfirst]
      have hwrite (u : Line) : ((Line.transport sizes).write .pong u).2.stream = (u.stream.write .pong).2 := rfl
      obtain hlink | hlink := Dispatcher.link_onPacket (Line.transport sizes) p _
      · rw [hlink]
        exact .inr ⟨hended, hrunning, rfl⟩
      · rw [hlink, hwrite, active_write, Line.buffer_write]
        exact .inr ⟨hended, hrunning, rfl⟩

/-- **The dispatcher stops** once it has taken the whole frames that are left in the buffer. -/
theorem dispatcher_stops (hended : d.link.stream.active = false) (hrunning : d.running = true)
    (incidents : List Incident)
    (h : (Frame.split d.link.stream.buffer).bodies.length < incidents.countP Incident.isDispatch) :
    HasStopped (happenAll incidents d) := by
  induction incidents generalizing d with
  | nil => cases h
  | cons i incidents ih =>
    cases i with
    | act a =>
      have hfewer : (Frame.split (d.link.perform a).stream.buffer).bodies.length ≤
          (Frame.split d.link.stream.buffer).bodies.length := by
        have hbuffer := (Line.after_run hended [a]).buffer
        change (d.link.perform a).stream.buffer = _ at hbuffer
        rw [hbuffer]
        cases ha : a.isReceive with
        | false => rw [List.countP_cons_of_neg (by simp [ha])]; exact Nat.le_refl _
        | true => rw [List.countP_cons_of_pos ha]; exact bodies_take_le _
      exact ih (d := { d with link := d.link.perform a }) (Line.after_run hended [a]).active hrunning
        (Nat.lt_of_le_of_lt hfewer h)
    | dispatch now sizes =>
      rw [List.countP_cons_of_pos rfl] at h
      obtain hstopped | ⟨hstill, hgoing, hfewer⟩ := dispatch_of_ended hended hrunning now sizes
      · exact hstopped.happenAll incidents
      · exact ih (d := d.dispatch (Line.transport sizes) now) hstill hgoing (by omega)

/-! ## Main statement -/

/-- **A connection over a socket ends once, for both halves**, whatever ends it and whatever is done then. -/
theorem shuts_once (settings : SocketConfig) (actions : List Action) :
    EndsOnce settings actions ((Line.start settings).run actions) where
  causes := Line.active_run rfl actions
  after := Line.after_run
  settled hended r hr later := by
    obtain ⟨hfirst, rfl⟩ | ⟨size, hfirst, rfl⟩ := hr
    · have htake := take_of_incomplete hfirst
      rw [Line.heard_of_settled hended (by rw [htake]), htake]
      rfl
    · have htake := take_of_tooLarge hfirst
      rw [Line.heard_of_settled hended (by rw [htake]), htake]
      rfl
  waiting hended hwaiting := by
    have hfirst := Line.first_of_waiting settings actions hwaiting
    refine ⟨fun sizes => ?_, fun d hlink hrunning now sizes => ?_⟩
    · rw [Line.receiveBy_of_ended hended, take_of_incomplete hfirst]
      rfl
    · refine dispatcher_stops (hlink ▸ hended) hrunning [.dispatch now sizes] ?_
      rw [hlink, Frame.split_of_incomplete hfirst]
      exact Nat.zero_lt_one
  dispatcher hended d hlink hrunning incidents h :=
    dispatcher_stops (hlink ▸ hended) hrunning incidents (hlink ▸ h)

/-- A reader has taken a ping and waits when a frame is not sent in time. It gets the end, a ping that arrives then is not
read, and a packet that is written then is refused. -/
theorem reader_told_of_time_out :
    let ping : Bytes := [0, 0, 0, 8, 2, 0, 0, 0, 0, 0, 0, 0]
    let t := (Line.start {}).run [.arrive ping, .receive [], .receive [], .write (.ping .no), .take, .timeOut]
    let later : List Action := [.receive [], .arrive ping, .write .pong, .take, .receive [4]]
    t.stream.active = false ∧ t.heard = [.item (.packet (.ping .yes)), .pending] ∧
      (t.run later).heard = t.heard ++ [.finished, .finished] ∧ (t.run later).stream.arrived = ping ∧
      (t.run later).answers = t.answers ++ [.error .connectionClosed] ∧ (t.run later).stream.queue = [] := by
  intro ping t later
  have hended : t.stream.active = false := by decide
  have honce := shuts_once {} [.arrive ping, .receive [], .receive [], .write (.ping .no), .take, .timeOut]
  have hafter := honce.after hended later
  refine ⟨hended, by decide, ?_, ?_, hafter.answers, ?_⟩
  · exact honce.settled hended .finished (.inl ⟨Line.first_of_waiting _ _ (by decide), rfl⟩) later
  · rw [hafter.arrived]
    decide
  · rw [hafter.queue]
    decide

end RemoteCall.Socket
