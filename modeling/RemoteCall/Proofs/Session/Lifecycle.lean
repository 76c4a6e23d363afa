import RemoteCall.Proofs.Session.Moves
import RemoteCall.Session.Run

/-!
# The life of connections as moves

What a session does with its connections, its tasks and its façades, as seen on its switchboard: each function is a
sequence of moves, or leaves the switchboard as it is.

* `Session.board`: the switchboard of a session. Callers and tasks inside a tick wait.
* `Apart s s'`: the clock and the callers are as they were, and no façade was lost.
* `connect_of_refusal` and `connect_of_accepted`: the two things that can come of an attempt to connect.
-/

namespace RemoteCall

open Pending (Call Table Ticket)
open Switchboard (Move Moves Send Sound)

/-! ## Lists with one entry changed -/

section Lists

variable {α β : Type} {l : List α} {k : Nat} {a : α}

theorem modify_eq_set (f : α → α) (h : l[k]? = some a) : l.modify k f = l.set k (f a) := by
  obtain ⟨hlt, rfl⟩ := List.getElem?_eq_some_iff.mp h
  rw [List.modify_eq_take_cons_drop hlt, List.set_eq_take_append_cons_drop, if_pos hlt]

theorem filterMap_set (f : α → Option β) (h : l[k]? = some a) (a' : α) :
    ∃ rest : Multiset β, (l.filterMap f : Multiset β) = (f a).toList + rest ∧
      ((l.set k a').filterMap f : Multiset β) = (f a').toList + rest := by
  obtain ⟨hlt, rfl⟩ := List.getElem?_eq_some_iff.mp h
  obtain ⟨first, last, hl, -, hset⟩ := @List.exists_of_set α k a' l hlt
  have hperm (o : Option β) : ((first.filterMap f ++ (o.toList ++ last.filterMap f) : List β) : Multiset β) =
      o.toList + (first.filterMap f ++ last.filterMap f : List β) := by
    rw [Multiset.coe_add]
    exact Multiset.coe_eq_coe.mpr (List.perm_append_comm_assoc _ _ _)
  have hcons (x : α) : (first ++ x :: last).filterMap f =
      first.filterMap f ++ ((f x).toList ++ last.filterMap f) := by
    rw [List.filterMap_append, List.filterMap_cons]
    cases f x <;> rfl
  refine ⟨(first.filterMap f ++ last.filterMap f : List β), ?_, ?_⟩
  · rw [← hperm, ← hcons, ← hl]
  · rw [hset, ← hperm, ← hcons]

theorem filterMap_modify {f : α → Option β} {g : α → α} (hg : ∀ a, f (g a) = f a) (l : List α) (k : Nat) :
    (l.modify k g).filterMap f = l.filterMap f := by
  induction l generalizing k with
  | nil => cases k <;> rfl
  | cons a l ih =>
    cases k with
    | zero => simp only [List.modify_zero_cons, List.filterMap_cons, hg]
    | succ k => simp only [List.modify_succ_cons, List.filterMap_cons, ih]

end Lists

/-- What a task is waiting for, if it is inside a tick. -/
def ReconnectTask.probing? (t : ReconnectTask) : Option Waiting :=
  match t.stage with
  | .probing w => some w
  | _ => none

namespace Session

section Defs

/-- The calls that callers or tasks wait for. -/
def waiters (s : Session) : Multiset Waiting :=
  (s.callers.filterMap Caller.waiting? : Multiset Waiting) +
    (s.client.tasks.filterMap ReconnectTask.probing? : Multiset Waiting)

/-- The switchboard of a session if `waiters` wait. -/
def boardOf (s : Session) (waiters : Multiset Waiting) : Switchboard :=
  ⟨s.connections, s.client.installed, waiters⟩

/-- The switchboard of a session. -/
def board (s : Session) : Switchboard := s.boardOf s.waiters

/-- What leaves the clock and the callers as they were, and loses no façade. -/
structure Apart (s s' : Session) : Prop where
  now : s'.now = s.now
  callers : s'.callers = s.callers
  facades : s.client.facades <+: s'.client.facades

end Defs

variable {s s' : Session} {i j k : Nat} {w : Waiting}

theorem Apart.refl (s : Session) : s.Apart s := ⟨rfl, rfl, List.prefix_rfl⟩

theorem Apart.trans {a b c : Session} (h : a.Apart b) (h' : b.Apart c) : a.Apart c :=
  ⟨h'.now.trans h.now, h'.callers.trans h.callers, h.facades.trans h'.facades⟩

/-! ## The life of a connection -/

theorem apart_teardownInstalled (s : Session) : s.Apart s.teardownInstalled := by
  unfold teardownInstalled
  split
  · exact ⟨rfl, rfl, List.prefix_rfl⟩
  · exact .refl s

/-- The connection in use is torn down and goes out of use. -/
theorem moves_teardownInstalled (s : Session) (W : Multiset Waiting) :
    Moves s.now (s.boardOf W) { s.teardownInstalled.boardOf W with inUse := none } := by
  unfold teardownInstalled
  cases hi : s.client.installed with
  | none =>
    have heq : s.boardOf W = { s.boardOf W with inUse := none } := by simp [boardOf, hi]
    rw [← heq]
  | some i => exact .single (.uninstall (b := s.boardOf W) hi (.inl rfl))

theorem apart_disconnect (s : Session) : s.Apart s.disconnect :=
  (apart_teardownInstalled s).trans ⟨rfl, rfl, List.prefix_rfl⟩

theorem moves_disconnect (s : Session) (W : Multiset Waiting) :
    Moves s.now (s.boardOf W) (s.disconnect.boardOf W) :=
  moves_teardownInstalled s W

/-- A refusal changes only what is known of the last attempt. -/
theorem connect_of_refusal {cause : String} (hr : s.client.connector.refusal = some cause) :
    s.connect = (false, s.onClient fun c =>
      { c with connector := ⟨some cause, s.client.connector.attempts + 1⟩, phase := some .down }) := by
  simp only [connect, Memory.Connector.connect, hr]
  rfl

/-- An accepted attempt tears down the connection in use and puts a new one in its place. -/
theorem connect_of_accepted (hr : s.client.connector.refusal = none) :
    s.connect = (true, { s.teardownInstalled with
      connections := s.teardownInstalled.connections ++
        [.start s.now { addr := s.client.config.remoteAddr } (s.connections.length + 1) s.client.config.dispatcher]
      client := { s.client with
        connector := ⟨none, s.client.connector.attempts + 1⟩
        installed := some s.connections.length, phase := some .up } }) := by
  have hteardown : (s.onClient fun c =>
      { c with connector := ⟨none, s.client.connector.attempts + 1⟩ }).teardownInstalled =
        s.teardownInstalled.onClient fun c =>
          { c with connector := ⟨none, s.client.connector.attempts + 1⟩ } := by
    cases hi : s.client.installed <;> simp [teardownInstalled, onClient, modify, hi]
  have hclient : s.teardownInstalled.client = s.client := by
    unfold teardownInstalled
    split <;> rfl
  simp only [connect, Memory.Connector.connect, hr]
  rw [hteardown]
  simp only [onClient, hclient]

theorem length_teardownInstalled (s : Session) :
    s.teardownInstalled.connections.length = s.connections.length := by
  unfold teardownInstalled
  split
  · simp [modify]
  · rfl

theorem apart_connect (s : Session) : s.Apart s.connect.2 := by
  cases hr : s.client.connector.refusal with
  | some cause =>
    rw [connect_of_refusal hr]
    exact ⟨rfl, rfl, List.prefix_rfl⟩
  | none =>
    rw [connect_of_accepted hr]
    have h := apart_teardownInstalled s
    exact ⟨h.now, h.callers, List.prefix_rfl⟩

theorem moves_connect (s : Session) (W : Multiset Waiting) :
    Moves s.now (s.boardOf W) (s.connect.2.boardOf W) := by
  cases hr : s.client.connector.refusal with
  | some cause =>
    rw [connect_of_refusal hr]
    exact .refl
  | none =>
    rw [connect_of_accepted hr]
    refine (moves_teardownInstalled s W).tail ?_
    have hinstall : Move s.now { s.teardownInstalled.boardOf W with inUse := none } _ :=
      .install { addr := s.client.config.remoteAddr } (s.connections.length + 1) s.client.config.dispatcher rfl
    simp only [boardOf, length_teardownInstalled] at hinstall ⊢
    exact hinstall

theorem apart_release (s : Session) : s.Apart s.release := by
  unfold release
  split <;> exact ⟨rfl, rfl, List.prefix_rfl⟩

theorem moves_release (s : Session) (W : Multiset Waiting) :
    Moves s.now (s.boardOf W) (s.release.boardOf W) := by
  unfold release
  cases hi : s.client.installed with
  | none =>
    have heq : s.boardOf W = { s.boardOf W with inUse := none } := by simp [boardOf, hi]
    exact heq ▸ .refl
  | some i => exact .single (.uninstall (b := s.boardOf W) hi (.inr rfl))

theorem waiters_release (s : Session) : s.release.waiters = s.waiters := by
  have hcancel : ∀ tasks : List ReconnectTask,
      (tasks.map ReconnectTask.cancel).filterMap ReconnectTask.probing? =
        tasks.filterMap ReconnectTask.probing? := by
    intro tasks
    rw [List.filterMap_map]
    rfl
  unfold release waiters onClient
  split <;> (dsimp only; rw [hcancel])
  rfl

theorem apart_releaseUnheld (s : Session) : s.Apart s.releaseUnheld := by
  unfold releaseUnheld
  split
  · exact .refl s
  · exact apart_release s

theorem moves_releaseUnheld (s : Session) : Moves s.now s.board s.releaseUnheld.board := by
  unfold releaseUnheld
  split
  · exact .refl
  · rw [board, board, waiters_release]
    exact moves_release s s.waiters

/-! ## The clock and the plan -/

theorem waiters_eq (hc : s'.callers = s.callers) (ht : s'.client.tasks.filterMap ReconnectTask.probing? =
    s.client.tasks.filterMap ReconnectTask.probing?) : s'.waiters = s.waiters := by
  rw [waiters, waiters, hc, ht]

theorem tasks_teardownInstalled (s : Session) : s.teardownInstalled.client = s.client := by
  unfold teardownInstalled
  split <;> rfl

theorem tasks_disconnect (s : Session) : s.disconnect.client.tasks = s.client.tasks := by
  show s.teardownInstalled.client.tasks = _
  rw [tasks_teardownInstalled]

theorem tasks_connect (s : Session) : s.connect.2.client.tasks = s.client.tasks := by
  cases hr : s.client.connector.refusal with
  | some cause => rw [connect_of_refusal hr]; rfl
  | none => rw [connect_of_accepted hr]

theorem moves_connect_board (s : Session) : Moves s.now s.board s.connect.2.board := by
  have hw : s.connect.2.waiters = s.waiters :=
    waiters_eq (apart_connect s).callers (by rw [tasks_connect])
  rw [board, board, hw]
  exact moves_connect s s.waiters

theorem board_enableReconnect (plan : ReconnectPlan) (s : Session) :
    (s.enableReconnect plan).board = s.board := by
  have hnew : (ReconnectTask.start s.now plan).probing? = none := by
    unfold ReconnectTask.start
    split <;> rfl
  have hw : (s.enableReconnect plan).waiters = s.waiters := by
    refine waiters_eq rfl ?_
    simp only [enableReconnect, onClient]
    rw [List.filterMap_append]
    split
    · rw [filterMap_modify (g := ReconnectTask.cancel) fun _ => rfl]
      simp [hnew]
    · simp [hnew]
  rw [board, board, hw]
  rfl

theorem apart_enableReconnect (plan : ReconnectPlan) (s : Session) : s.Apart (s.enableReconnect plan) :=
  ⟨rfl, rfl, List.prefix_rfl⟩

theorem start_eq (s : Session) : s.start.2 = s.connect.2 ∨
    ∃ settings, s.start.2 = s.connect.2.enableReconnect (.ofSettings settings) := by
  unfold start
  dsimp only
  split
  · exact .inr ⟨_, rfl⟩
  · exact .inl rfl

theorem apart_start (s : Session) : s.Apart s.start.2 := by
  rcases start_eq s with h | ⟨settings, h⟩ <;> rw [h]
  · exact apart_connect s
  · exact (apart_connect s).trans (apart_enableReconnect _ _)

theorem moves_start (s : Session) : Moves s.now s.board s.start.2.board := by
  rcases start_eq s with h | ⟨settings, h⟩ <;> rw [h]
  · exact moves_connect_board s
  · rw [board_enableReconnect]
    exact moves_connect_board s

/-- What a stop does before it releases the connection. -/
def cancelTask (c : Client) : Client :=
  match c.task with
  | some j => { c with tasks := c.tasks.modify j ReconnectTask.cancel, task := none }
  | none => c

theorem stop_eq (s : Session) : s.stop = (s.onClient cancelTask).disconnect := rfl

theorem apart_cancelTask (s : Session) : s.Apart (s.onClient cancelTask) := by
  refine ⟨rfl, rfl, ?_⟩
  simp only [onClient, cancelTask]
  split <;> exact List.prefix_rfl

theorem board_cancelTask (s : Session) : (s.onClient cancelTask).board = s.board := by
  have hw : (s.onClient cancelTask).waiters = s.waiters := by
    refine waiters_eq rfl ?_
    simp only [onClient, cancelTask]
    split
    · exact filterMap_modify (g := ReconnectTask.cancel) (fun _ => rfl) _ _
    · rfl
  rw [board, board, hw]
  simp only [boardOf, onClient, cancelTask]
  split <;> rfl

theorem apart_stop (s : Session) : s.Apart s.stop :=
  (apart_cancelTask s).trans (apart_disconnect _)

theorem moves_stop (s : Session) : Moves s.now s.board s.stop.board := by
  have hw : s.stop.waiters = (s.onClient cancelTask).waiters :=
    waiters_eq (apart_disconnect _).callers (by rw [stop_eq, tasks_disconnect])
  rw [← board_cancelTask, board, board, hw, stop_eq]
  exact moves_disconnect (s.onClient cancelTask) _

theorem apart_dropClient (s : Session) : s.Apart s.dropClient :=
  have h := apart_releaseUnheld (s.onClient fun c => { c with owned := false })
  ⟨h.now, h.callers, h.facades⟩

theorem moves_dropClient (s : Session) : Moves s.now s.board s.dropClient.board :=
  moves_releaseUnheld (s.onClient fun c => { c with owned := false })

/-! ## Façades -/

theorem apart_newFacade (r : FacadeRequest) (s : Session) : s.Apart (s.newFacade r).2 := by
  unfold newFacade obtain
  dsimp only
  split
  · exact .refl s
  · exact ⟨rfl, rfl, List.prefix_append _ _⟩

theorem board_newFacade (r : FacadeRequest) (s : Session) : (s.newFacade r).2.board = s.board := by
  unfold newFacade obtain
  dsimp only
  split <;> rfl

theorem apart_commandFacade (s : Session) : s.Apart s.commandFacade.2 := by
  unfold commandFacade
  split
  · exact .refl s
  · exact (apart_newFacade _ s).trans ⟨rfl, rfl, List.prefix_rfl⟩

theorem board_commandFacade (s : Session) : s.commandFacade.2.board = s.board := by
  unfold commandFacade
  split
  · rfl
  · exact board_newFacade _ s

theorem apart_dataFacade (s : Session) : s.Apart s.dataFacade.2 := by
  unfold dataFacade
  split
  · exact .refl s
  · exact (apart_newFacade _ s).trans ⟨rfl, rfl, List.prefix_rfl⟩

theorem board_dataFacade (s : Session) : s.dataFacade.2.board = s.board := by
  unfold dataFacade
  split
  · rfl
  · exact board_newFacade _ s

end Session

end RemoteCall
