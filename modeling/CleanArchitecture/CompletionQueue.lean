import CleanArchitecture.ConnectionManager
import Mathlib.Data.List.InsertIdx
import Mathlib.Data.List.Nodup

/-!
# Completions that wait in the queue

An operation that has completed waits in the queue of the event loop, with its result,
until its handler runs.  Closing the socket does not change a result that is already
there, so a handler may run for a connection that has left the set in the meantime.
-/

namespace CleanArchitecture

/-- The result of an operation. -/
inductive Completion
  | readDone (r : ReadCompletion)
  | readFailed (failure : Failure)
  | writeDone (failure : Option Failure)

namespace Completion

def operation : Completion → Operation
  | .readDone _ => .asyncRead
  | .readFailed _ => .asyncRead
  | .writeDone _ => .asyncWrite

/-- The handler goes on to use the connection. -/
def Usable : Completion → Prop
  | .readDone _ => True
  | .readFailed failure => failure ≠ .operationAborted
  | .writeDone failure => failure ≠ some .operationAborted

instance (completion : Completion) : Decidable completion.Usable := by
  cases completion <;> unfold Usable <;> infer_instance

end Completion

/-- The result of an operation whose socket is closed before it completes. -/
def Operation.aborted : Operation → Completion
  | .asyncRead => .readFailed .operationAborted
  | .asyncWrite => .writeDone (some .operationAborted)

theorem Operation.not_usable_aborted (operation : Operation) : ¬ operation.aborted.Usable := by
  cases operation <;> exact not_not.mpr rfl

/-- The server, with the operations of its slots that have not completed, and the
completions that wait for their handlers, each with its connection. -/
structure QueueServer where
  server : Server := {}
  queue : List (Nat × Completion) := []

inductive QueueEvent
  | accepted
  | completes (id : Nat) (completion : Completion)
  | delivered (position : Nat)
  | stopSignal

namespace QueueServer

/-- Closing sockets completes their operations as aborted. -/
def closeSockets (s : QueueServer) (ids : List Nat) : QueueServer where
  server :=
    { s.server with
      slot := fun id =>
        if id ∈ ids then { s.server.slot id with outstanding := [] } else s.server.slot id }
  queue := s.queue ++ ids.flatMap fun id =>
    (s.server.slot id).outstanding.map fun operation => (id, operation.aborted)

/-- The completion handlers. -/
def handle (s : QueueServer) (id : Nat) : Completion → QueueServer
  | .readDone r => { s with server := s.server.handleRead id r }
  | .readFailed .operationAborted => s
  | .readFailed .other =>
      { s with server := s.server.handleReadFailure id .other }.closeSockets [id]
  | .writeDone failure => { s with server := s.server.handleWrite id failure }

/-- The handler of the signal, which is waited for once. -/
def handleStop (s : QueueServer) : QueueServer :=
  { s with server := s.server.stopAll }.closeSockets s.server.connections

/-- The next state, if the event loop still runs and the event can happen. -/
def step (s : QueueServer) (event : QueueEvent) : Except Refusal (QueueServer × Unit) :=
  if s.server.thrown.isSome then .error .refused
  else
    match event with
    | .accepted =>
        if s.server.acceptorOpen then .ok ({ s with server := s.server.startConnection }, ())
        else .ok (s, ())
    | .completes id completion =>
        if completion.operation ∈ (s.server.slot id).outstanding ∧ completion.Usable then
          .ok ({ server := s.server.complete id completion.operation
                 queue := s.queue ++ [(id, completion)] }, ())
        else .error .refused
    | .delivered position =>
        match s.queue[position]? with
        | none => .error .refused
        | some (id, completion) =>
            .ok ({ s with queue := s.queue.eraseIdx position }.handle id completion, ())
    | .stopSignal => if s.server.acceptorOpen then .ok (s.handleStop, ()) else .error .refused

def machine : EventMachine QueueServer QueueEvent Unit Refusal where
  step := step

/-- A handler that goes on to use its connection runs for a connection of the set. -/
def DeliversAlive (s : QueueServer) : QueueEvent → Prop
  | .delivered position => ∀ id completion, s.queue[position]? = some (id, completion) →
      completion.Usable → id ∈ s.server.connections
  | _ => True

/-- When the signal is handled, no operation of a connection of the set has completed
without its handler having run. -/
def SignalsSettled (s : QueueServer) : QueueEvent → Prop
  | .stopSignal => ∀ id completion, (id, completion) ∈ s.queue → completion.Usable →
      id ∉ s.server.connections
  | _ => True

/-! ## One operation for each connection, queued or not -/

/-- No connection has two operations, and those that are outstanding or will use their
connection are operations of the set. -/
structure Tidy (s : QueueServer) : Prop where
  nodup : s.server.connections.Nodup
  once : (s.queue.map Prod.fst).Nodup
  single : ∀ id, (s.server.slot id).outstanding.length ≤ 1
  apart : ∀ id ∈ s.queue.map Prod.fst, (s.server.slot id).outstanding = []
  pending : ∀ id, (s.server.slot id).outstanding ≠ [] → id ∈ s.server.connections
  usable : ∀ id completion, (id, completion) ∈ s.queue → completion.Usable →
    id ∈ s.server.connections
  unused : ∀ id, s.server.created ≤ id →
    id ∉ s.server.connections ∧ (s.server.slot id).outstanding = [] ∧ id ∉ s.queue.map Prod.fst

theorem tidy_initial : Tidy {} where
  nodup := List.nodup_nil
  once := List.nodup_nil
  single _ := Nat.zero_le 1
  apart _ member := by cases member
  pending _ nonempty := absurd rfl nonempty
  usable _ _ member := by cases member
  unused _ _ := ⟨List.not_mem_nil, rfl, List.not_mem_nil⟩

/-- A completion that is taken out of the queue was the only one of its connection. -/
theorem Tidy.notMem_eraseIdx {s : QueueServer} (tidy : Tidy s) {position id : Nat}
    {completion : Completion} (queued : s.queue[position]? = some (id, completion)) :
    id ∉ (s.queue.eraseIdx position).map Prod.fst := by
  obtain ⟨inside, here⟩ := List.getElem?_eq_some_iff.mp queued
  have within : position < (s.queue.map Prod.fst).length := by
    rwa [List.length_map]
  have first : (s.queue.map Prod.fst)[position] = id := by
    rw [List.getElem_map, here]
  rw [← List.eraseIdx_map, ← tidy.once.erase_getElem position within, first]
  exact tidy.once.not_mem_erase

theorem mem_of_mem_eraseIdx {s : QueueServer} {position : Nat} {entry : Nat × Completion}
    (member : entry ∈ s.queue.eraseIdx position) : entry ∈ s.queue :=
  (List.eraseIdx_sublist _ _).subset member

/-- Taking a completion out of the queue, before its handler runs. -/
theorem Tidy.take {s : QueueServer} (tidy : Tidy s) (position : Nat) :
    Tidy { s with queue := s.queue.eraseIdx position } where
  nodup := tidy.nodup
  once := tidy.once.sublist ((List.eraseIdx_sublist _ _).map _)
  single := tidy.single
  apart id member := tidy.apart id (((List.eraseIdx_sublist _ _).map _).subset member)
  pending := tidy.pending
  usable id completion member := tidy.usable id completion (mem_of_mem_eraseIdx member)
  unused id fresh := by
    obtain ⟨absent, idle, unqueued⟩ := tidy.unused id fresh
    refine ⟨absent, idle, fun member => unqueued ?_⟩
    exact ((List.eraseIdx_sublist _ _).map _).subset member

/-- A live connection without an operation may be given one. -/
theorem Tidy.restart {s : QueueServer} (tidy : Tidy s) {id : Nat}
    (live : id ∈ s.server.connections) (unqueued : id ∉ s.queue.map Prod.fst) {slot : Slot}
    (one : slot.outstanding.length ≤ 1) :
    Tidy { s with server := s.server.setSlot id slot } where
  nodup := tidy.nodup
  once := tidy.once
  single other := by
    by_cases same : other = id
    · rwa [same, Server.setSlot_self]
    · rw [Server.setSlot_other _ _ same]
      exact tidy.single other
  apart other member := by
    have distinct : other ≠ id := by
      rintro rfl
      exact unqueued member
    rw [Server.setSlot_other _ _ distinct]
    exact tidy.apart other member
  pending other nonempty := by
    by_cases same : other = id
    · exact same ▸ live
    · rw [Server.setSlot_other _ _ same] at nonempty
      exact tidy.pending other nonempty
  usable := tidy.usable
  unused other fresh := by
    have distinct : other ≠ id := by
      rintro rfl
      exact (tidy.unused other fresh).1 live
    rw [Server.setSlot_other _ _ distinct]
    exact tidy.unused other fresh

/-- The operation of a live connection may complete. -/
theorem Tidy.enqueue {s : QueueServer} (tidy : Tidy s) {id : Nat}
    (live : id ∈ s.server.connections) (unqueued : id ∉ s.queue.map Prod.fst)
    (idle : (s.server.slot id).outstanding = []) (completion : Completion) :
    Tidy { s with queue := s.queue ++ [(id, completion)] } where
  nodup := tidy.nodup
  once := by
    rw [List.map_append, List.map_singleton, ← List.concat_eq_append]
    exact tidy.once.concat unqueued
  single := tidy.single
  apart other member := by
    rw [List.map_append, List.mem_append] at member
    rcases member with queued | new
    · exact tidy.apart other queued
    · rw [List.mem_singleton.mp new]
      exact idle
  pending := tidy.pending
  usable other result member use := by
    rcases List.mem_append.mp member with queued | new
    · exact tidy.usable other result queued use
    · cases List.mem_singleton.mp new
      exact live
  unused other fresh := by
    obtain ⟨absent, empty, unqueued⟩ := tidy.unused other fresh
    refine ⟨absent, empty, ?_⟩
    rw [List.map_append, List.mem_append, not_or]
    refine ⟨unqueued, fun new => ?_⟩
    rw [List.mem_singleton.mp new] at absent
    exact absent live

theorem mem_aborted {s : QueueServer} {ids : List Nat} {id : Nat} {completion : Completion}
    (member : (id, completion) ∈ ids.flatMap fun id =>
      (s.server.slot id).outstanding.map fun operation => (id, operation.aborted)) :
    id ∈ ids ∧ (s.server.slot id).outstanding ≠ [] ∧ ¬ completion.Usable := by
  obtain ⟨other, among, entry⟩ := List.mem_flatMap.mp member
  obtain ⟨operation, outstanding, same⟩ := List.mem_map.mp entry
  cases same
  exact ⟨among, List.ne_nil_of_mem outstanding, operation.not_usable_aborted⟩

/-- A connection has at most one operation to abort. -/
theorem Tidy.nodup_aborted {s : QueueServer} (tidy : Tidy s) {ids : List Nat}
    (distinct : ids.Nodup) :
    ((ids.flatMap fun id => (s.server.slot id).outstanding.map fun operation =>
      (id, operation.aborted)).map Prod.fst).Nodup := by
  rw [List.map_flatMap, List.nodup_flatMap]
  constructor
  · intro id _
    have one := tidy.single id
    match (s.server.slot id).outstanding, one with
    | [], _ => exact List.nodup_nil
    | [operation], _ => exact List.nodup_singleton id
  · apply distinct.imp
    intro first second apart id inFirst inSecond
    simp only [List.map_map, List.mem_map, Function.comp_apply] at inFirst inSecond
    obtain ⟨-, -, rfl⟩ := inFirst
    obtain ⟨-, -, rfl⟩ := inSecond
    exact apart rfl

/-- Connections whose completed operations have been handled may leave the set. -/
theorem Tidy.close {s t : QueueServer} (tidy : Tidy s) {ids : List Nat} (distinct : ids.Nodup)
    (connections : t.server.connections = s.server.connections.filter (· ∉ ids))
    (created : t.server.created = s.server.created)
    (slots : ∀ id, (t.server.slot id).outstanding =
      if id ∈ ids then [] else (s.server.slot id).outstanding)
    (queue : t.queue = s.queue ++ ids.flatMap fun id =>
      (s.server.slot id).outstanding.map fun operation => (id, operation.aborted))
    (settled : ∀ id completion, (id, completion) ∈ s.queue → completion.Usable → id ∉ ids) :
    Tidy t where
  nodup := by
    rw [connections]
    exact tidy.nodup.filter _
  once := by
    rw [queue, List.map_append, List.nodup_append]
    refine ⟨tidy.once, ?_, ?_⟩
    · exact tidy.nodup_aborted distinct
    · intro id queued other aborted same
      subst same
      obtain ⟨entry, member, rfl⟩ := List.mem_map.mp aborted
      exact (mem_aborted member).2.1 (tidy.apart _ queued)
  single id := by
    rw [slots]
    split
    · exact Nat.zero_le 1
    · exact tidy.single id
  apart id member := by
    rw [slots]
    split
    · rfl
    · rename_i outside
      rw [queue, List.map_append, List.mem_append] at member
      rcases member with queued | aborted
      · exact tidy.apart id queued
      · obtain ⟨entry, member, rfl⟩ := List.mem_map.mp aborted
        exact absurd (mem_aborted member).1 outside
  pending id nonempty := by
    rw [slots] at nonempty
    split at nonempty
    · exact absurd rfl nonempty
    · rename_i outside
      rw [connections, List.mem_filter]
      exact ⟨tidy.pending id nonempty, by simpa using outside⟩
  usable id completion member use := by
    rw [queue, List.mem_append] at member
    rcases member with queued | aborted
    · rw [connections, List.mem_filter]
      exact ⟨tidy.usable id completion queued use, by simpa using settled id completion queued use⟩
    · exact absurd use (mem_aborted aborted).2.2
  unused id fresh := by
    rw [created] at fresh
    obtain ⟨absent, idle, unqueued⟩ := tidy.unused id fresh
    refine ⟨?_, ?_, ?_⟩
    · rw [connections, List.mem_filter]
      exact fun member => absent member.1
    · rw [slots, idle, ite_self]
    · rw [queue, List.map_append, List.mem_append, not_or]
      refine ⟨unqueued, fun aborted => ?_⟩
      obtain ⟨entry, member, rfl⟩ := List.mem_map.mp aborted
      exact (mem_aborted member).2.1 idle

/-! ## Steps -/

theorem Tidy.accepted {s : QueueServer} (tidy : Tidy s) :
    Tidy { s with server := s.server.startConnection } := by
  obtain ⟨absent, idle, unqueued⟩ := tidy.unused s.server.created le_rfl
  have entered : Tidy
      { s with server :=
        { s.server with
          connections := s.server.connections.insert s.server.created
          created := s.server.created + 1 } } :=
    { nodup := tidy.nodup.insert
      once := tidy.once
      single := tidy.single
      apart := tidy.apart
      pending := fun id nonempty => List.mem_insert_of_mem (tidy.pending id nonempty)
      usable := fun id completion member use =>
        List.mem_insert_of_mem (tidy.usable id completion member use)
      unused := by
        intro id fresh
        change s.server.created + 1 ≤ id at fresh
        obtain ⟨old, rest⟩ := tidy.unused id (by omega)
        refine ⟨?_, rest⟩
        rw [List.mem_insert_iff, not_or]
        exact ⟨by omega, old⟩ }
  apply entered.restart List.mem_insert_self unqueued
  rw [List.length_append, idle]
  exact le_rfl

theorem Tidy.completes {s : QueueServer} (tidy : Tidy s) {id : Nat} {completion : Completion}
    (outstanding : completion.operation ∈ (s.server.slot id).outstanding) :
    Tidy
      { server := s.server.complete id completion.operation
        queue := s.queue ++ [(id, completion)] } := by
  have nonempty := List.ne_nil_of_mem outstanding
  have live := tidy.pending id nonempty
  have unqueued : id ∉ s.queue.map Prod.fst := fun queued => nonempty (tidy.apart id queued)
  have idle : (s.server.slot id).outstanding.erase completion.operation = [] := by
    apply List.eq_nil_of_length_eq_zero
    have one := tidy.single id
    rw [List.length_erase_of_mem outstanding]
    omega
  have erased : Tidy { s with server := s.server.complete id completion.operation } :=
    tidy.restart live unqueued (by simp [idle])
  apply erased.enqueue live unqueued
  rw [Server.complete, Server.setSlot_self]
  exact idle

theorem Tidy.delivered {s : QueueServer} (tidy : Tidy s) {position id : Nat}
    {completion : Completion} (queued : s.queue[position]? = some (id, completion)) :
    Tidy ({ s with queue := s.queue.eraseIdx position }.handle id completion) := by
  have taken := tidy.take position
  have unqueued := tidy.notMem_eraseIdx queued
  have member := List.mem_of_getElem? queued
  have idle := tidy.apart id (List.mem_map_of_mem member)
  have live : completion.Usable → id ∈ s.server.connections :=
    tidy.usable id completion member
  cases completion with
  | readDone r =>
      simp only [handle, Server.handleRead]
      split
      · exact ⟨taken.nodup, taken.once, taken.single, taken.apart, taken.pending, taken.usable,
          taken.unused⟩
      · rename_i c out read
        rw [Server.startOperations, Server.setSlot_setSlot, Server.setSlot_self]
        apply taken.restart (live trivial) unqueued
        rw [idle, List.nil_append]
        have started := Server.operationsOf_readStep (Connection.readStep_of_onRead read)
        rcases started with one | ⟨none, -⟩
        · exact one.le
        · simp [none]
  | readFailed failure =>
      cases failure with
      | operationAborted => exact taken
      | other =>
          apply taken.close (List.nodup_singleton id)
          · apply List.filter_congr
            intro other _
            by_cases same : other = id <;> simp [same]
          · rfl
          · intro other
            by_cases same : other = id
            · simp [handle, closeSockets, same]
            · simp [handle, closeSockets, Server.handleReadFailure, Server.stopConnection, same]
          · simp [handle, closeSockets, Server.handleReadFailure, Server.stopConnection]
          · intro other completion among _ same
            rw [List.mem_singleton.mp same] at among
            exact unqueued (List.mem_map_of_mem among)
  | writeDone failure =>
      have again : failure ≠ some .operationAborted → Tidy
          { s with
            server := s.server.startOperations id [.asyncRead]
            queue := s.queue.eraseIdx position } := by
        intro use
        apply taken.restart (live use) unqueued
        rw [idle]
        exact le_rfl
      rcases failure with _ | failure
      · exact again (by simp)
      · cases failure with
        | operationAborted => exact taken
        | other => exact again (by simp)

theorem Tidy.stopped {s : QueueServer} (tidy : Tidy s) (settled : s.SignalsSettled .stopSignal) :
    Tidy s.handleStop := by
  have same : ∀ id, (s.server.stopAll.slot id).outstanding = (s.server.slot id).outstanding := by
    intro id
    simp only [Server.stopAll]
    split <;> rfl
  apply tidy.close tidy.nodup
  · symm
    apply List.filter_eq_nil_iff.mpr
    intro id member
    simpa using member
  · rfl
  · intro id
    by_cases member : id ∈ s.server.connections
    · simp [handleStop, closeSockets, member]
    · simp [handleStop, closeSockets, Server.stopAll, member]
  · simp only [handleStop, closeSockets, same]
  · exact settled

theorem Tidy.step {s s' : QueueServer} {event : QueueEvent} (tidy : Tidy s)
    (settled : s.SignalsSettled event) (stepped : s.step event = .ok (s', ())) : Tidy s' := by
  unfold QueueServer.step at stepped
  split at stepped
  · cases stepped
  · cases event with
    | accepted =>
        simp only at stepped
        split at stepped
        · cases stepped
          exact tidy.accepted
        · cases stepped
          exact tidy
    | completes id completion =>
        simp only at stepped
        split at stepped
        · rename_i possible
          cases stepped
          exact tidy.completes possible.1
        · cases stepped
    | delivered position =>
        simp only at stepped
        split at stepped
        · cases stepped
        · rename_i id completion queued
          cases stepped
          exact tidy.delivered queued
    | stopSignal =>
        simp only at stepped
        split at stepped
        · cases stepped
          exact tidy.stopped settled
        · cases stepped

/-! ## Runs -/

theorem Tidy.deliversAlive {s : QueueServer} (tidy : Tidy s) (event : QueueEvent) :
    s.DeliversAlive event := by
  cases event with
  | delivered position =>
      intro id completion queued use
      exact tidy.usable id completion (List.mem_of_getElem? queued) use
  | _ => trivial

/-- The signal takes every connection out of the set and no completion out of the queue. -/
theorem step_stopSignal {s : QueueServer} (running : s.server.thrown = none)
    (opened : s.server.acceptorOpen = true) : s.step .stopSignal = .ok (s.handleStop, ()) := by
  rw [step, running]
  exact if_pos opened

/-- A completion of the set that is queued at the signal may be delivered next. -/
theorem delivers_dead_of_unsettled {events : List QueueEvent} {s : QueueServer}
    {outputs : List Unit} (ran : machine.run {} events = .ok (s, outputs))
    (running : s.server.thrown = none) (opened : s.server.acceptorOpen = true)
    (unsettled : ¬ s.SignalsSettled .stopSignal) :
    ∃ position last after,
      machine.run {} (events ++ [.stopSignal, .delivered position]) = .ok (last, after) ∧
        ¬ machine.Throughout {} DeliversAlive (events ++ [.stopSignal, .delivered position]) := by
  obtain ⟨id, completion, member, use, -⟩ : ∃ id completion, (id, completion) ∈ s.queue ∧
      completion.Usable ∧ id ∈ s.server.connections := by
    simpa [SignalsSettled] using unsettled
  obtain ⟨position, inside, here⟩ := List.getElem_of_mem member
  have queued : s.handleStop.queue[position]? = some (id, completion) := by
    rw [handleStop, closeSockets, List.getElem?_append_left inside,
      List.getElem?_eq_getElem inside, here]
  have stopped : machine.step s .stopSignal = .ok (s.handleStop, ()) :=
    step_stopSignal running opened
  have delivered : machine.step s.handleStop (.delivered position) =
      .ok ({ s.handleStop with queue := s.handleStop.queue.eraseIdx position }.handle id
        completion, ()) := by
    have runs : s.handleStop.server.thrown.isSome = false := by
      change s.server.thrown.isSome = false
      rw [running]
      rfl
    change s.handleStop.step (.delivered position) = _
    rw [step, runs]
    simp only [Bool.false_eq_true, if_false, queued]
  refine ⟨position, _, _, EventMachine.run_append_ok.mpr ⟨s, outputs, [(), ()], ran,
    EventMachine.run_cons_ok.mpr ⟨s.handleStop, (), [()], stopped,
      EventMachine.run_cons_ok.mpr ⟨_, (), [], delivered, rfl, rfl⟩, rfl⟩, rfl⟩, ?_⟩
  intro alive
  have stoppedRun : machine.run {} (events ++ [.stopSignal]) =
      .ok (s.handleStop, outputs ++ [()]) :=
    EventMachine.run_concat_ok.mpr ⟨s, outputs, (), ran, stopped, rfl⟩
  have live := alive (events ++ [.stopSignal]) (.delivered position) [] s.handleStop
    (outputs ++ [()]) (by simp) stoppedRun id completion queued use
  cases live

/-- A run whose signal is handled only when all completed operations of the set have been
handled delivers to live connections only.  Where a completion is still in the queue at
the signal, its delivery may come next, for a connection that is gone. -/
theorem delivers_alive_of_settled {events : List QueueEvent} {s : QueueServer}
    {outputs : List Unit} (ran : machine.run {} events = .ok (s, outputs)) :
    (machine.Throughout {} SignalsSettled events → machine.Throughout {} DeliversAlive events) ∧
      (s.server.thrown = none → s.server.acceptorOpen = true → ¬ s.SignalsSettled .stopSignal →
        ∃ position last after,
          machine.run {} (events ++ [.stopSignal, .delivered position]) = .ok (last, after) ∧
            ¬ machine.Throughout {} DeliversAlive
              (events ++ [.stopSignal, .delivered position])) := by
  constructor
  · intro settled
    refine EventMachine.Throughout.of_invariant Tidy tidy_initial ?_ ?_ settled
    · intro t event t' output tidy settledHere stepped
      exact tidy.step settledHere stepped
    · intro t event tidy
      exact tidy.deliversAlive event
  · exact delivers_dead_of_unsettled ran

def firstRead : QueueEvent :=
  .completes 0 (.readDone (Connection.textRead "GET " 1 (by decide)))

/-- A client connects, and the signal comes when its first bytes have been handled. -/
def quietShutdown : List QueueEvent :=
  [.accepted, firstRead, .delivered 0, .stopSignal, .delivered 0]

theorem quietShutdown_delivers_alive : ∃ s outputs,
    machine.run {} quietShutdown = .ok (s, outputs) ∧
      machine.Throughout {} DeliversAlive quietShutdown := by
  have produced : (machine.run {} quietShutdown).map Prod.snd = .ok [(), (), (), (), ()] := by
    decide
  obtain ⟨s, ran⟩ := EventMachine.exists_of_output produced
  refine ⟨s, _, ran, (delivers_alive_of_settled ran).1 ?_⟩
  intro before event after t outputs split reached
  cases event with
  | stopSignal =>
      have handled : (machine.run {} [.accepted, firstRead, .delivered 0]).map
          (fun answer => answer.1.queue.length) = .ok 0 := by
        decide
      have opening : before = [.accepted, firstRead, .delivered 0] := by
        match before, split with
        | [_, _, _], split =>
            simp only [quietShutdown, List.cons_append, List.nil_append, List.cons.injEq] at split
            rw [← split.1, ← split.2.1, ← split.2.2.1]
        | [], split | [_], split | [_, _], split | [_, _, _, _], split =>
            simp [quietShutdown, firstRead] at split
        | _ :: _ :: _ :: _ :: _ :: _, split => simp [quietShutdown] at split
      rw [opening] at reached
      rw [reached] at handled
      have empty := List.eq_nil_of_length_eq_zero (Except.ok.inj handled)
      intro id completion member
      rw [empty] at member
      cases member
  | _ => trivial

/-- The signal comes before the handler. -/
def lateDelivery : List QueueEvent :=
  [.accepted, firstRead, .stopSignal, .delivered 0]

/-- The handler of the read runs when its connection has left the set. -/
theorem lateDelivery_delivers_dead : ∃ s outputs,
    machine.run {} lateDelivery = .ok (s, outputs) ∧
      ¬ machine.Throughout {} DeliversAlive lateDelivery := by
  have produced : (machine.run {} lateDelivery).map Prod.snd = .ok [(), (), (), ()] := by
    decide
  have waiting : (machine.run {} [.accepted, firstRead, .stopSignal]).map
      (fun answer => ((answer.1.queue.map fun entry => (entry.1, decide entry.2.Usable))[0]?,
        answer.1.server.connections)) = .ok (some (0, true), []) := by
    decide
  obtain ⟨s, ran⟩ := EventMachine.exists_of_output produced
  refine ⟨s, _, ran, fun alive => ?_⟩
  cases begun : machine.run {} [.accepted, firstRead, .stopSignal] with
  | error e =>
      rw [begun] at waiting
      cases waiting
  | ok answer =>
      rw [begun] at waiting
      obtain ⟨head, gone⟩ := Prod.mk.inj (Except.ok.inj waiting)
      rw [List.getElem?_map, Option.map_eq_some_iff] at head
      obtain ⟨⟨id, completion⟩, queued, same⟩ := head
      have use : completion.Usable := of_decide_eq_true (Prod.mk.inj same).2
      have live := alive [.accepted, firstRead, .stopSignal] (.delivered 0) [] answer.1 answer.2
        rfl begun id completion queued use
      rw [gone] at live
      cases live

end QueueServer

end CleanArchitecture
