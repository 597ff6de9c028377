import CleanArchitecture.CompletionQueue
import CleanArchitecture.ConnectionIsolation
import CleanArchitecture.MachineRefinement
import Mathlib.Data.List.Perm.Basic

/-!
# The queue of the event loop behind its handlers

Operations complete into a queue, in any order, and their handlers run later.  To the
connections only the handlers matter: a run with the queue is a run of the server without it,
in which an operation completes when its handler runs.
-/

namespace CleanArchitecture

open Server

attribute [ext] Slot

/-- The operations of a connection that have completed without their handlers having run. -/
def operationsAt (id : Nat) (queue : List (Nat × Completion)) : List Operation :=
  queue.filterMap fun entry => if entry.1 = id then some entry.2.operation else none

/-- The event without a queue that a handler runs for. -/
def Completion.event (id : Nat) : Completion → Event
  | .readDone r => .readDone id r
  | .readFailed failure => .readFailed id failure
  | .writeDone failure => .writeDone id failure

theorem operationsAt_append (id : Nat) (first second : List (Nat × Completion)) :
    operationsAt id (first ++ second) = operationsAt id first ++ operationsAt id second :=
  List.filterMap_append

theorem operationsAt_singleton_self (id : Nat) (completion : Completion) :
    operationsAt id [(id, completion)] = [completion.operation] := by
  simp [operationsAt]

theorem operationsAt_singleton_other {id other : Nat} (distinct : other ≠ id)
    (completion : Completion) : operationsAt other [(id, completion)] = [] := by
  simp [operationsAt, distinct.symm]

/-- The operation whose handler is about to run, among those of its connection. -/
theorem perm_operationsAt {queue : List (Nat × Completion)} {position id : Nat}
    {completion : Completion} (queued : queue[position]? = some (id, completion)) (other : Nat) :
    (operationsAt other queue).Perm
      (operationsAt other [(id, completion)] ++ operationsAt other (queue.eraseIdx position)) := by
  obtain ⟨inside, here⟩ := List.getElem?_eq_some_iff.mp queued
  have moved := List.getElem_cons_eraseIdx_perm inside
  rw [here] at moved
  rw [← operationsAt_append]
  exact (moved.filterMap _).symm

/-- Operations that are aborted are those of the sockets that are closed. -/
theorem operationsAt_aborted {ids : List Nat} (nodup : ids.Nodup) (id : Nat)
    (operations : Nat → List Operation) :
    operationsAt id (ids.flatMap fun id =>
        (operations id).map fun operation => (id, operation.aborted)) =
      if id ∈ ids then operations id else [] := by
  have own : ∀ other, operationsAt id ((operations other).map fun operation =>
      (other, operation.aborted)) = if other = id then operations other else [] := by
    intro other
    have operation : ∀ operation : Operation, operation.aborted.operation = operation := by
      rintro (_ | _) <;> rfl
    rw [operationsAt, List.filterMap_map]
    split
    · rename_i same
      simp [same, operation]
    · rename_i distinct
      simp [distinct]
  induction ids with
  | nil => rfl
  | cons first ids ih =>
      rw [List.nodup_cons] at nodup
      rw [List.flatMap_cons, operationsAt_append, own, ih nodup.2]
      by_cases same : first = id
      · subst same
        simp [nodup.1]
      · simp [same, Ne.symm same]

namespace QueueServer

/-- The server to which a completed operation is outstanding until its handler runs. -/
def flattened (q : QueueServer) : Server :=
  { q.server with
    slot := fun id => { q.server.slot id with
      outstanding := (q.server.slot id).outstanding ++ operationsAt id q.queue } }

/-- The events without a queue that an event stands for. -/
def handlers (q : QueueServer) : QueueEvent → List Event
  | .accepted => [.accepted]
  | .completes _ _ => []
  | .delivered position =>
      match q.queue[position]? with
      | none => []
      | some (id, completion) => [completion.event id]
  | .stopSignal => [.stopAll]

/-- A slot to which the queued operations are outstanding, in some order. -/
structure CoversSlot (slot' slot : Slot) (queued : List Operation) : Prop where
  connection : slot'.connection = slot.connection
  socketOpen : slot'.socketOpen = slot.socketOpen
  operations : slot'.outstanding.Perm (slot.outstanding ++ queued)

/-- A server without a queue, to which the queued operations are outstanding. -/
structure Covers (q : QueueServer) (t : Server) : Prop where
  frame : t = { q.server with slot := t.slot }
  slots : ∀ id, CoversSlot (t.slot id) (q.server.slot id) (operationsAt id q.queue)

theorem covers_flattened (q : QueueServer) : Covers q q.flattened :=
  ⟨rfl, fun _ => ⟨rfl, rfl, .refl _⟩⟩

theorem eq_of_perm {α : Type} {first second : List α} (perm : first.Perm second)
    (single : first.length ≤ 1) : first = second := by
  rcases Nat.le_one_iff_eq_zero_or_eq_one.mp single with none | one
  · obtain rfl := List.eq_nil_of_length_eq_zero none
    exact (List.nil_perm.mp perm).symm
  · obtain ⟨x, rfl⟩ := List.length_eq_one_iff.mp one
    exact List.singleton_perm.mp perm

/-- Where no connection has two operations, there is no order. -/
theorem Covers.eq_flattened {q : QueueServer} {t : Server} (covers : Covers q t)
    (single : ∀ id, (t.slot id).outstanding.length ≤ 1) : t = q.flattened := by
  have slots : t.slot = q.flattened.slot := by
    funext id
    obtain ⟨connection, socketOpen, operations⟩ := covers.slots id
    exact Slot.ext connection socketOpen (eq_of_perm operations (single id))
  rw [covers.frame, slots]
  rfl

section Handlers

variable {q : QueueServer} {t : Server} {id : Nat}

theorem Covers.frame_slot (covers : Covers q t) (slot : Nat → Slot) :
    { t with slot := slot } = { q.server with slot := slot } := by
  rw [covers.frame]

theorem Covers.setSlot (covers : Covers q t) {slot slot' : Slot}
    (here : CoversSlot slot' slot (operationsAt id q.queue)) :
    Covers { q with server := q.server.setSlot id slot } (t.setSlot id slot') := by
  refine ⟨covers.frame_slot _, fun other => ?_⟩
  by_cases same : other = id
  · subst same
    rw [setSlot_self, setSlot_self]
    exact here
  · rw [setSlot_other _ _ same, setSlot_other _ _ same]
    exact covers.slots other

theorem CoversSlot.start {slot slot' : Slot} {queued : List Operation}
    (covers : CoversSlot slot' slot queued) (operations : List Operation) :
    CoversSlot { slot' with outstanding := slot'.outstanding ++ operations }
      { slot with outstanding := slot.outstanding ++ operations } queued := by
  refine ⟨covers.connection, covers.socketOpen, ?_⟩
  apply (covers.operations.append_right operations).trans
  rw [List.append_assoc, List.append_assoc]
  exact List.perm_append_comm.append_left _

theorem Covers.startOperations (covers : Covers q t) (operations : List Operation) :
    Covers { q with server := q.server.startOperations id operations }
      (t.startOperations id operations) :=
  covers.setSlot ((covers.slots id).start operations)

theorem Covers.startConnection (covers : Covers q t) :
    Covers { q with server := q.server.startConnection } t.startConnection := by
  have created : t.created = q.server.created := by
    rw [covers.frame]
  have counted : Covers
      { q with server := { q.server with
        connections := q.server.connections.insert q.server.created
        created := q.server.created + 1 } }
      { t with
        connections := t.connections.insert t.created
        created := t.created + 1 } :=
    ⟨by rw [covers.frame], covers.slots⟩
  rw [Server.startConnection, Server.startConnection, created]
  rw [created] at counted
  exact counted.startOperations [.asyncRead]

theorem Covers.handleRead (covers : Covers q t) (r : ReadCompletion) :
    Covers { q with server := q.server.handleRead id r } (t.handleRead id r) := by
  rw [Server.handleRead, Server.handleRead, (covers.slots id).connection]
  split
  · exact ⟨by rw [covers.frame], covers.slots⟩
  · rename_i c out _
    have slot : CoversSlot { t.slot id with connection := c }
        { q.server.slot id with connection := c } (operationsAt id q.queue) :=
      ⟨rfl, (covers.slots id).socketOpen, (covers.slots id).operations⟩
    exact (covers.setSlot slot).startOperations (operationsOf out)

theorem Covers.handleWrite (covers : Covers q t) (failure : Option Failure) :
    Covers { q with server := q.server.handleWrite id failure } (t.handleWrite id failure) := by
  rcases failure with _ | _ | _
  · exact covers.startOperations [.asyncRead]
  · exact covers
  · exact covers.startOperations [.asyncRead]

theorem Covers.stopConnection (covers : Covers q t) :
    Covers { q with server := q.server.stopConnection id } (t.stopConnection id) := by
  have removed : Covers
      { q with server := { q.server with connections := q.server.connections.filter (· != id) } }
      { t with connections := t.connections.filter (· != id) } :=
    ⟨by rw [covers.frame], covers.slots⟩
  exact removed.setSlot
    ⟨(covers.slots id).connection, rfl, (covers.slots id).operations⟩

theorem Covers.stopAll (covers : Covers q t) :
    Covers { q with server := q.server.stopAll } t.stopAll := by
  have connections : t.connections = q.server.connections := by
    rw [covers.frame]
  refine ⟨?_, fun id => ?_⟩
  · rw [Server.stopAll, Server.stopAll, covers.frame]
  · simp only [Server.stopAll, connections]
    split
    · exact ⟨(covers.slots id).connection, rfl, (covers.slots id).operations⟩
    · exact covers.slots id

/-- Closing a socket moves its operations into the queue. -/
theorem Covers.closeSockets (covers : Covers q t) {ids : List Nat} (nodup : ids.Nodup) :
    Covers (q.closeSockets ids) t := by
  refine ⟨?_, fun id => ?_⟩
  · rw [QueueServer.closeSockets, covers.frame]
  · obtain ⟨connection, socketOpen, operations⟩ := covers.slots id
    rw [QueueServer.closeSockets]
    simp only [operationsAt_append, operationsAt_aborted nodup]
    split
    · refine ⟨connection, socketOpen, operations.trans ?_⟩
      rw [List.nil_append]
      exact List.perm_append_comm
    · rw [List.append_nil]
      exact ⟨connection, socketOpen, operations⟩

/-- An operation completes into the queue. -/
theorem Covers.completes (covers : Covers q t) {completion : Completion}
    (outstanding : completion.operation ∈ (q.server.slot id).outstanding) :
    Covers { server := q.server.complete id completion.operation
             queue := q.queue ++ [(id, completion)] } t := by
  refine ⟨?_, fun other => ?_⟩
  · rw [complete, Server.setSlot, covers.frame]
  · obtain ⟨connection, socketOpen, operations⟩ := covers.slots other
    rw [operationsAt_append]
    by_cases same : other = id
    · subst same
      rw [complete_slot_self, operationsAt_singleton_self]
      refine ⟨connection, socketOpen, operations.trans ?_⟩
      rw [← List.append_assoc]
      exact ((List.perm_cons_erase outstanding).append_right _).trans
        (List.perm_append_singleton _ _).symm
    · rw [complete_slot_other _ same, operationsAt_singleton_other same, List.append_nil]
      exact ⟨connection, socketOpen, operations⟩

/-- The handler of an operation takes it out of the queue. -/
theorem Covers.take (covers : Covers q t) {position : Nat} {completion : Completion}
    (queued : q.queue[position]? = some (id, completion)) :
    completion.operation ∈ (t.slot id).outstanding ∧
      Covers { q with queue := q.queue.eraseIdx position }
        (t.complete id completion.operation) := by
  have taken : (t.slot id).outstanding.Perm (completion.operation ::
      ((q.server.slot id).outstanding ++ operationsAt id (q.queue.eraseIdx position))) := by
    have rest := perm_operationsAt queued id
    rw [operationsAt_singleton_self] at rest
    exact ((covers.slots id).operations.trans (rest.append_left _)).trans List.perm_middle
  refine ⟨taken.mem_iff.mpr List.mem_cons_self, ?_, fun other => ?_⟩
  · rw [complete, Server.setSlot, covers.frame]
  · obtain ⟨connection, socketOpen, operations⟩ := covers.slots other
    by_cases same : other = id
    · subst same
      rw [complete_slot_self]
      refine ⟨connection, socketOpen, ?_⟩
      have erased := taken.erase completion.operation
      rwa [List.erase_cons_head] at erased
    · rw [complete_slot_other _ same]
      refine ⟨connection, socketOpen, operations.trans ?_⟩
      have rest := perm_operationsAt queued other
      rw [operationsAt_singleton_other same, List.nil_append] at rest
      exact rest.append_left _

/-- A handler does the same where there is no queue. -/
theorem Covers.handled (covers : Covers q t) {position : Nat} {completion : Completion}
    (queued : q.queue[position]? = some (id, completion)) (running : q.server.thrown = none)
    (closing : ¬ completion.Usable → (q.server.slot id).socketOpen = false) :
    ∃ t', t.step (completion.event id) = .ok (t', ()) ∧
      Covers ({ q with queue := q.queue.eraseIdx position }.handle id completion) t' := by
  obtain ⟨outstanding, taken⟩ := covers.take queued
  have loops : ¬ t.thrown.isSome = true := by
    rw [covers.frame]
    simp [running]
  have closed : ¬ completion.Usable → (t.slot id).socketOpen = false := by
    rw [(covers.slots id).socketOpen]
    exact closing
  cases completion with
  | readDone r =>
      have possible : t.CanComplete id .asyncRead none :=
        ⟨outstanding, fun aborted => nomatch aborted⟩
      refine ⟨(t.complete id .asyncRead).handleRead id r, ?_, taken.handleRead r⟩
      rw [Completion.event, Server.step, if_neg loops]
      exact if_pos possible
  | readFailed failure =>
      have possible : t.CanComplete id .asyncRead (some failure) := by
        refine ⟨outstanding, ?_⟩
        rintro ⟨⟩
        exact closed fun usable => usable rfl
      refine ⟨(t.complete id .asyncRead).handleReadFailure id failure, ?_, ?_⟩
      · rw [Completion.event, Server.step, if_neg loops]
        exact if_pos possible
      · cases failure with
        | operationAborted => exact taken
        | other => exact taken.stopConnection.closeSockets (List.nodup_singleton id)
  | writeDone failure =>
      have possible : t.CanComplete id .asyncWrite failure := by
        refine ⟨outstanding, ?_⟩
        rintro rfl
        exact closed fun usable => usable rfl
      refine ⟨(t.complete id .asyncWrite).handleWrite id failure, ?_, taken.handleWrite failure⟩
      rw [Completion.event, Server.step, if_neg loops]
      exact if_pos possible

end Handlers

/-! ## Steps -/

/-- The set has no duplicates, and only operations of closed sockets are aborted. -/
structure Closing (q : QueueServer) : Prop where
  nodup : q.server.connections.Nodup
  aborted : ∀ id completion, (id, completion) ∈ q.queue → ¬ completion.Usable →
    (q.server.slot id).socketOpen = false

theorem startOperations_socketOpen (s : Server) (id : Nat) (operations : List Operation)
    (other : Nat) :
    ((s.startOperations id operations).slot other).socketOpen = (s.slot other).socketOpen := by
  by_cases same : other = id
  · subst same
    rw [Server.startOperations, setSlot_self]
  · rw [Server.startOperations, setSlot_other _ _ same]

theorem handleRead_socketOpen (s : Server) (id : Nat) (r : ReadCompletion) (other : Nat) :
    ((s.handleRead id r).slot other).socketOpen = (s.slot other).socketOpen := by
  unfold Server.handleRead
  split
  · rfl
  · rw [startOperations_socketOpen]
    by_cases same : other = id
    · subst same
      rw [setSlot_self]
    · rw [setSlot_other _ _ same]

theorem Closing.next {q q' : QueueServer} (closing : Closing q)
    (nodup : q'.server.connections.Nodup)
    (sockets : ∀ id, (q.server.slot id).socketOpen = false →
      (q'.server.slot id).socketOpen = false)
    (queued : ∀ id completion, (id, completion) ∈ q'.queue → (id, completion) ∈ q.queue ∨
      completion.Usable ∨ (q'.server.slot id).socketOpen = false) : Closing q' := by
  refine ⟨nodup, fun id completion member unusable => ?_⟩
  rcases queued id completion member with before | usable | closed
  · exact sockets id (closing.aborted id completion before unusable)
  · exact absurd usable unusable
  · exact closed

/-- Only closed sockets have their operations aborted. -/
theorem Closing.closeSockets {q : QueueServer} (closing : Closing q) {ids : List Nat}
    (closed : ∀ id ∈ ids, (q.server.slot id).socketOpen = false) :
    Closing (q.closeSockets ids) := by
  have sockets : ∀ id, ((q.closeSockets ids).server.slot id).socketOpen =
      (q.server.slot id).socketOpen := by
    intro id
    simp only [QueueServer.closeSockets]
    split <;> rfl
  refine closing.next closing.nodup (fun id => (sockets id).trans) fun id completion member => ?_
  rcases List.mem_append.mp member with before | aborted
  · exact .inl before
  · exact .inr (.inr ((sockets id).trans (closed id (mem_aborted aborted).1)))

theorem Closing.handled {q : QueueServer} (closing : Closing q) (position id : Nat)
    (completion : Completion) :
    Closing ({ q with queue := q.queue.eraseIdx position }.handle id completion) := by
  have taken : Closing { q with queue := q.queue.eraseIdx position } :=
    closing.next closing.nodup (fun _ closed => closed)
      fun _ _ member => .inl (mem_of_mem_eraseIdx member)
  cases completion with
  | readDone r =>
      refine taken.next ?_ (fun other closed => ?_) fun _ _ member => .inl member
      · have same : (q.server.handleRead id r).connections = q.server.connections := by
          unfold Server.handleRead
          split <;> rfl
        exact same ▸ closing.nodup
      · exact (handleRead_socketOpen _ _ _ _).trans closed
  | readFailed failure =>
      cases failure with
      | operationAborted => exact taken
      | other =>
          have stopped : Closing { q with
              server := q.server.stopConnection id
              queue := q.queue.eraseIdx position } := by
            refine taken.next (closing.nodup.filter _) (fun other closed => ?_)
              fun _ _ member => .inl member
            by_cases same : other = id
            · subst same
              rw [stopConnection_slot_self]
            · rwa [stopConnection_slot_other same]
          refine stopped.closeSockets fun other member => ?_
          obtain rfl := List.mem_singleton.mp member
          rw [stopConnection_slot_self]
  | writeDone failure =>
      have again : Closing { q with
          server := q.server.startOperations id [.asyncRead]
          queue := q.queue.eraseIdx position } :=
        taken.next closing.nodup (fun other => (startOperations_socketOpen _ _ _ _).trans)
          fun _ _ member => .inl member
      rcases failure with _ | _ | _
      · exact again
      · exact taken
      · exact again

theorem Closing.stopped {q : QueueServer} (closing : Closing q) : Closing q.handleStop := by
  have stopped : Closing { q with server := q.server.stopAll } := by
    refine closing.next List.nodup_nil (fun id closed => ?_) fun _ _ member => .inl member
    simp only [Server.stopAll]
    split
    · rfl
    · exact closed
  apply stopped.closeSockets
  intro id member
  simp only [Server.stopAll, if_pos member]

theorem Closing.step {q q' : QueueServer} {event : QueueEvent} (closing : Closing q)
    (stepped : q.step event = .ok (q', ())) : Closing q' := by
  unfold QueueServer.step at stepped
  split at stepped
  · cases stepped
  cases event with
  | accepted =>
      simp only at stepped
      split at stepped
      · cases stepped
        refine closing.next closing.nodup.insert (fun id => ?_) fun _ _ member => .inl member
        rw [Server.startConnection, startOperations_socketOpen]
        exact fun closed => closed
      · cases stepped
        exact closing
  | completes id completion =>
      simp only at stepped
      split at stepped
      · rename_i possible
        cases stepped
        refine closing.next closing.nodup (fun other closed => ?_) fun other waiting member => ?_
        · by_cases same : other = id
          · subst same
            rwa [complete_slot_self]
          · rwa [complete_slot_other _ same]
        · rcases List.mem_append.mp member with before | here
          · exact .inl before
          · cases List.mem_singleton.mp here
            exact .inr (.inl possible.2)
      · cases stepped
  | delivered position =>
      simp only at stepped
      split at stepped
      · cases stepped
      · cases stepped
        exact closing.handled _ _ _
  | stopSignal =>
      simp only at stepped
      split at stepped
      · cases stepped
        exact closing.stopped
      · cases stepped

/-- Each step is a run of the handlers that it stands for. -/
theorem covers_step {q q' : QueueServer} {event : QueueEvent} (closing : Closing q)
    (stepped : q.step event = .ok (q', ())) :
    ∃ t outputs, Server.machine.run q.flattened (q.handlers event) = .ok (t, outputs) ∧
      Covers q' t := by
  have covers := covers_flattened q
  unfold step at stepped
  split at stepped
  · cases stepped
  rename_i loops
  have loops : ¬ q.flattened.thrown.isSome = true := loops
  have single : ∀ {event' : Event} {t : Server}, q.flattened.step event' = .ok (t, ()) →
      Server.machine.run q.flattened [event'] = .ok (t, [()]) :=
    fun moved => EventMachine.run_cons_ok.mpr ⟨_, _, _, moved, rfl, rfl⟩
  cases event with
  | accepted =>
      simp only at stepped
      split at stepped
      · rename_i opened
        cases stepped
        refine ⟨_, _, single ?_, covers.startConnection⟩
        rw [Server.step, if_neg loops]
        exact if_pos opened
      · rename_i closed
        cases stepped
        refine ⟨_, _, single ?_, covers⟩
        rw [Server.step, if_neg loops]
        exact if_neg closed
  | completes id completion =>
      simp only at stepped
      split at stepped
      · rename_i possible
        cases stepped
        exact ⟨_, _, rfl, covers.completes possible.1⟩
      · cases stepped
  | delivered position =>
      simp only at stepped
      split at stepped
      · cases stepped
      · rename_i id completion queued
        cases stepped
        obtain ⟨t, moved, covered⟩ := covers.handled queued (Option.not_isSome_iff_eq_none.mp loops)
          (closing.aborted id completion (List.mem_of_getElem? queued))
        refine ⟨t, [()], ?_, covered⟩
        rw [handlers, queued]
        exact single moved
  | stopSignal =>
      simp only at stepped
      split at stepped
      · cases stepped
        refine ⟨_, _, single ?_, covers.stopAll.closeSockets closing.nodup⟩
        rw [Server.step, if_neg loops]
      · cases stepped

/-- The queue behind the handlers, with one thread that runs them.  A run with the queue is a
run of the server without it over the handlers, in which every completed operation is
outstanding until its handler runs.  Hence no connection ever has two operations, outstanding
or queued, and as long as nothing is thrown each connection is in the state of one of its own
that is given the reads whose handlers have run. -/
theorem queue_refines {events : List QueueEvent} {q : QueueServer} {outputs : List Unit}
    (ran : machine.run {} events = .ok (q, outputs)) :
    (∃ outputs, Server.machine.run {} (machine.translated handlers {} events) =
        .ok (q.flattened, outputs)) ∧
      (∀ id, (q.server.slot id).outstanding.length + (operationsAt id q.queue).length ≤ 1) ∧
      (q.server.thrown = none → ∀ id, ∃ outs,
        Connection.machine.run {} (readsOf id (machine.translated handlers {} events)) =
          .ok ((q.server.slot id).connection, outs)) := by
  have initial : Closing {} := ⟨List.nodup_nil, fun _ _ member => nomatch member⟩
  obtain ⟨-, outputs, reached⟩ := EventMachine.image_of_run (N := Server.machine) flattened Closing
    initial (fun q event q' _ events outputs closing reached stepped => by
      obtain ⟨t, second, moved, covers⟩ := covers_step closing stepped
      have whole := EventMachine.run_append_ok.mpr ⟨_, outputs, second, reached, moved, rfl⟩
      have same := covers.eq_flattened fun id => (alone_of_run whole id).single
      exact ⟨closing.step stepped, second, same ▸ moved⟩) ran
  refine ⟨⟨outputs, reached⟩, fun id => ?_, fun running id => ?_⟩
  · rw [← List.length_append]
    exact (alone_of_run reached id).single
  · obtain ⟨outs, replays⟩ := (alone_of_run reached id).of_running running
    exact ⟨outs, replays.ran⟩

/-- Two clients, whose first reads complete before their handlers run the other way round. -/
def crossedHandlers : List QueueEvent :=
  [.accepted, .accepted,
    .completes 0 (.readDone (Connection.textRead "GET /slow HT" 0 (by decide))),
    .completes 1 (.readDone (Connection.textRead "GET /quick HTTP/1.1\r\n\r\n" 0 (by decide))),
    .delivered 1, .delivered 0]

theorem queue_refines_sample : ∃ q outputs outputs' outs,
    machine.run {} crossedHandlers = .ok (q, outputs) ∧
      Server.machine.run {} [.accepted, .accepted,
          .readDone 1 (Connection.textRead "GET /quick HTTP/1.1\r\n\r\n" 0 (by decide)),
          .readDone 0 (Connection.textRead "GET /slow HT" 0 (by decide))] =
        .ok (q.flattened, outputs') ∧
      Connection.machine.run {} [Connection.textRead "GET /slow HT" 0 (by decide)] =
        .ok ((q.server.slot 0).connection, outs) ∧
      (q.server.slot 0).outstanding = [.asyncRead] ∧
      (q.server.slot 1).outstanding = [.asyncWrite] := by
  have ran : (machine.run {} crossedHandlers).map (fun ended => (ended.1.server.thrown,
      (ended.1.server.slot 0).outstanding, (ended.1.server.slot 1).outstanding)) =
      .ok (none, [.asyncRead], [.asyncWrite]) := by
    decide +kernel
  obtain ⟨q, outputs, ended, shown⟩ := EventMachine.exists_of_view ran
  obtain ⟨running, shown⟩ := Prod.mk.inj shown
  obtain ⟨first, second⟩ := Prod.mk.inj shown
  obtain ⟨⟨outputs', reached⟩, -, replays⟩ := queue_refines ended
  obtain ⟨outs, replayed⟩ := replays running 0
  exact ⟨q, outputs, outputs', outs, ended, reached, replayed, first, second⟩

end QueueServer

end CleanArchitecture
