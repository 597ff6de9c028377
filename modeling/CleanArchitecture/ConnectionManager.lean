import CleanArchitecture.RequestAssembly

/-!
# The connection manager and its outstanding operations

The server keeps a set of connections.  Every connection has asynchronous
operations outstanding; their completion handlers start new operations or take
the connection out of the set.
-/

namespace CleanArchitecture

open RequestParser ResultType

inductive Operation
  | asyncRead
  | asyncWrite
  deriving DecidableEq

/-- How an operation that did not succeed ended. -/
inductive Failure
  | operationAborted
  | other
  deriving DecidableEq

/-- A connection object, its open socket and its outstanding operations. -/
structure Slot where
  connection : Connection := {}
  socketOpen : Bool := true
  outstanding : List Operation := []

/-- The server: the set of the connection manager, all connection objects ever
created, and the exception that ended the event loop. -/
structure Server where
  connections : List Nat := []
  slot : Nat → Slot := fun _ => {}
  created : Nat := 0
  acceptorOpen : Bool := true
  thrown : Option StdException := none

inductive Event
  | accepted
  | readDone (id : Nat) (r : ReadCompletion)
  | readFailed (id : Nat) (failure : Failure)
  | writeDone (id : Nat) (failure : Option Failure)
  | stop (id : Nat)
  | stopAll

/-- The event cannot happen in this state. -/
inductive Refusal
  | refused
  deriving DecidableEq

namespace Server

def setSlot (s : Server) (id : Nat) (slot : Slot) : Server :=
  { s with slot := fun other => if other = id then slot else s.slot other }

@[simp] theorem setSlot_self (s : Server) (id : Nat) (slot : Slot) :
    (s.setSlot id slot).slot id = slot := if_pos rfl

@[simp] theorem setSlot_other (s : Server) {id other : Nat} (slot : Slot) (distinct : other ≠ id) :
    (s.setSlot id slot).slot other = s.slot other := if_neg distinct

@[simp] theorem setSlot_connections (s : Server) (id : Nat) (slot : Slot) :
    (s.setSlot id slot).connections = s.connections := rfl

@[simp] theorem setSlot_created (s : Server) (id : Nat) (slot : Slot) :
    (s.setSlot id slot).created = s.created := rfl

/-- `do_read` and `do_write` add an operation to those of the connection. -/
def startOperations (s : Server) (id : Nat) (operations : List Operation) : Server :=
  s.setSlot id { s.slot id with outstanding := (s.slot id).outstanding ++ operations }

/-- The operations that a completion handler starts. -/
def operationsOf (out : List Action) : List Operation :=
  out.filterMap fun
    | .handleRequest .. => none
    | .doRead => some .asyncRead
    | .doWrite _ => some .asyncWrite

/-- An outstanding operation completes. -/
def complete (s : Server) (id : Nat) (operation : Operation) : Server :=
  s.setSlot id { s.slot id with outstanding := (s.slot id).outstanding.erase operation }

/-- `connection_manager::start` of a new connection. -/
def startConnection (s : Server) : Server :=
  { s with
    connections := s.connections.insert s.created
    created := s.created + 1 }.startOperations s.created [.asyncRead]

/-- `connection_manager::stop`. -/
def stopConnection (s : Server) (id : Nat) : Server :=
  { s with connections := s.connections.filter (· != id) }.setSlot id
    { s.slot id with socketOpen := false }

/-- `connection_manager::stop_all`, after the acceptor has been closed. -/
def stopAll (s : Server) : Server :=
  { s with
    acceptorOpen := false
    connections := []
    slot := fun id =>
      if id ∈ s.connections then { s.slot id with socketOpen := false } else s.slot id }

/-- The completion handler of a successful read. -/
def handleRead (s : Server) (id : Nat) (r : ReadCompletion) : Server :=
  match Connection.onRead (s.slot id).connection r with
  | .error e => { s with thrown := some e }
  | .ok (c, out) =>
      (s.setSlot id { s.slot id with connection := c }).startOperations id (operationsOf out)

/-- The completion handler of a failed read. -/
def handleReadFailure (s : Server) (id : Nat) (failure : Failure) : Server :=
  match failure with
  | .operationAborted => s
  | .other => s.stopConnection id

/-- The completion handler of a write: it reads again unless it was aborted. -/
def handleWrite (s : Server) (id : Nat) (failure : Option Failure) : Server :=
  match failure with
  | some .operationAborted => s
  | _ => s.startOperations id [.asyncRead]

/-- An operation can complete when it is outstanding, and is aborted only after
its socket has been closed. -/
def CanComplete (s : Server) (id : Nat) (operation : Operation) (failure : Option Failure) : Prop :=
  operation ∈ (s.slot id).outstanding ∧
    (failure = some .operationAborted → (s.slot id).socketOpen = false)

instance (s : Server) (id : Nat) (operation : Operation) (failure : Option Failure) :
    Decidable (s.CanComplete id operation failure) :=
  inferInstanceAs (Decidable (_ ∧ _))

/-- The next state, if the event loop still runs and the event can happen. -/
def step (s : Server) (event : Event) : Except Refusal (Server × Unit) :=
  if s.thrown.isSome then .error .refused
  else
    match event with
    | .accepted => if s.acceptorOpen then .ok (s.startConnection, ()) else .ok (s, ())
    | .readDone id r =>
        if s.CanComplete id .asyncRead none then
          .ok ((s.complete id .asyncRead).handleRead id r, ())
        else .error .refused
    | .readFailed id failure =>
        if s.CanComplete id .asyncRead (some failure) then
          .ok ((s.complete id .asyncRead).handleReadFailure id failure, ())
        else .error .refused
    | .writeDone id failure =>
        if s.CanComplete id .asyncWrite failure then
          .ok ((s.complete id .asyncWrite).handleWrite id failure, ())
        else .error .refused
    | .stop id => if id < s.created then .ok (s.stopConnection id, ()) else .error .refused
    | .stopAll => .ok (s.stopAll, ())

def machine : EventMachine Server Event Unit Refusal where
  step := step

/-! ## One operation for each connection -/

/-- A read completes a head of a connection in the set while the socket has more
to offer. -/
def Stalls (s : Server) : Event → Prop
  | .readDone id r =>
      id ∈ s.connections ∧ (s.slot id).connection.headerBuffer = true ∧ r.available ≠ 0 ∧
        ∃ config n answer,
          parse (s.slot id).connection.requestParser (s.slot id).connection.req r.chunk.bytes =
            ⟨good, config, n⟩ ∧
          Connection.scanHeaders config.2.headers 0 config.2 = .ok answer
  | _ => False

/-- Every connection in the set has exactly one outstanding operation. -/
def OneOperation (s : Server) : Prop :=
  ∀ id ∈ s.connections, (s.slot id).outstanding.length = 1

/-- A read starts one operation, unless it stalls. -/
theorem operationsOf_readStep {c c' : Connection} {r : ReadCompletion} {out : List Action}
    (step : Connection.ReadStep c r c' out) :
    (operationsOf out).length = 1 ∨
      operationsOf out = [] ∧ c.headerBuffer = true ∧ r.available ≠ 0 ∧
        ∃ config n answer, parse c.requestParser c.req r.chunk.bytes = ⟨good, config, n⟩ ∧
          Connection.scanHeaders config.2.headers 0 config.2 = .ok answer := by
  cases step with
  | headContinues | headBad | headTooLong | bodyTooLong | bodyContinues => exact Or.inl rfl
  | headDispatched | bodyDispatched => exact Or.inl rfl
  | headThenBody header parsed scanned moreLeft =>
      exact Or.inr ⟨rfl, header, moreLeft, _, _, _, parsed, scanned⟩

/-- What holds between the steps of a server that has not stalled. -/
structure Healthy (s : Server) : Prop where
  one : OneOperation s
  socketOpen : ∀ id ∈ s.connections, (s.slot id).socketOpen = true
  unused : ∀ id, s.created ≤ id → id ∉ s.connections ∧ s.slot id = {}

theorem setSlot_setSlot (s : Server) (id : Nat) (first second : Slot) :
    (s.setSlot id first).setSlot id second = s.setSlot id second := by
  simp only [setSlot, mk.injEq, true_and, and_true]
  funext other
  by_cases same : other = id
  · simp [same]
  · simp [same]

theorem healthy_initial : Healthy {} where
  one := by
    intro id member
    cases member
  socketOpen := by
    intro id member
    cases member
  unused := by
    intro id _
    exact ⟨List.not_mem_nil, rfl⟩

/-- Only the connection of a changed slot has to be looked at again. -/
theorem Healthy.setSlot {s : Server} (healthy : Healthy s) {id : Nat} {slot : Slot}
    (used : id < s.created)
    (here : id ∈ s.connections → slot.outstanding.length = 1 ∧ slot.socketOpen = true) :
    Healthy (s.setSlot id slot) where
  one := by
    intro other member
    by_cases same : other = id
    · subst same
      rw [setSlot_self]
      exact (here member).1
    · rw [setSlot_other s slot same]
      exact healthy.one other member
  socketOpen := by
    intro other member
    by_cases same : other = id
    · subst same
      rw [setSlot_self]
      exact (here member).2
    · rw [setSlot_other s slot same]
      exact healthy.socketOpen other member
  unused := by
    intro other fresh
    have distinct : other ≠ id := by
      rintro rfl
      exact absurd used (Nat.not_lt_of_le fresh)
    rw [setSlot_other s slot distinct]
    exact healthy.unused other fresh

theorem Healthy.used {s : Server} (healthy : Healthy s) {id : Nat} {operation : Operation}
    (outstanding : operation ∈ (s.slot id).outstanding) : id < s.created := by
  by_contra fresh
  have empty := (healthy.unused id (Nat.le_of_not_gt fresh)).2
  rw [empty] at outstanding
  cases outstanding

/-- After its only operation completes, a connection of the set has none. -/
theorem Healthy.erase_nil {s : Server} (healthy : Healthy s) {id : Nat} {operation : Operation}
    (outstanding : operation ∈ (s.slot id).outstanding) (member : id ∈ s.connections) :
    (s.slot id).outstanding.erase operation = [] := by
  apply List.eq_nil_of_length_eq_zero
  rw [List.length_erase_of_mem outstanding, healthy.one id member]

theorem complete_startOperations (s : Server) (id : Nat) (operation : Operation)
    (operations : List Operation) :
    (s.complete id operation).startOperations id operations =
      s.setSlot id { s.slot id with
        outstanding := (s.slot id).outstanding.erase operation ++ operations } := by
  rw [startOperations, complete, setSlot_setSlot, setSlot_self]

/-- A completion handler that starts one operation keeps the server healthy. -/
theorem Healthy.restart {s : Server} (healthy : Healthy s) {id : Nat} {operation : Operation}
    {operations : List Operation} (c : Connection)
    (outstanding : operation ∈ (s.slot id).outstanding)
    (one : id ∈ s.connections → operations.length = 1) :
    Healthy (s.setSlot id { s.slot id with
      connection := c
      outstanding := (s.slot id).outstanding.erase operation ++ operations }) := by
  apply healthy.setSlot (healthy.used outstanding)
  intro member
  rw [healthy.erase_nil outstanding member]
  exact ⟨one member, healthy.socketOpen id member⟩

theorem Healthy.stopConnection {s : Server} (healthy : Healthy s) {id : Nat}
    (used : id < s.created) : Healthy (s.stopConnection id) where
  one := by
    intro other member
    obtain ⟨member, distinct⟩ : other ∈ s.connections ∧ other ≠ id := by
      simpa [Server.stopConnection] using member
    rw [Server.stopConnection, setSlot_other _ _ distinct]
    exact healthy.one other member
  socketOpen := by
    intro other member
    obtain ⟨member, distinct⟩ : other ∈ s.connections ∧ other ≠ id := by
      simpa [Server.stopConnection] using member
    rw [Server.stopConnection, setSlot_other _ _ distinct]
    exact healthy.socketOpen other member
  unused := by
    intro other fresh
    have distinct : other ≠ id := by
      rintro rfl
      exact absurd used (Nat.not_lt_of_le fresh)
    rw [Server.stopConnection, setSlot_other _ _ distinct]
    obtain ⟨absent, empty⟩ := healthy.unused other fresh
    refine ⟨?_, empty⟩
    intro member
    exact absent (List.mem_of_mem_filter member)

theorem Healthy.startConnection {s : Server} (healthy : Healthy s) : Healthy s.startConnection where
  one := by
    intro other member
    by_cases same : other = s.created
    · subst same
      simp [Server.startConnection, startOperations, (healthy.unused _ le_rfl).2]
    · have old : other ∈ s.connections := by
        simpa [Server.startConnection, startOperations, same] using member
      rw [Server.startConnection, startOperations, setSlot_other _ _ same]
      exact healthy.one other old
  socketOpen := by
    intro other member
    by_cases same : other = s.created
    · subst same
      simp [Server.startConnection, startOperations, (healthy.unused _ le_rfl).2]
    · have old : other ∈ s.connections := by
        simpa [Server.startConnection, startOperations, same] using member
      rw [Server.startConnection, startOperations, setSlot_other _ _ same]
      exact healthy.socketOpen other old
  unused := by
    intro other fresh
    have later : s.created + 1 ≤ other := fresh
    have distinct : other ≠ s.created := by omega
    obtain ⟨absent, empty⟩ := healthy.unused other (by omega)
    rw [Server.startConnection, startOperations, setSlot_other _ _ distinct]
    refine ⟨?_, empty⟩
    simpa [distinct] using absent

theorem Healthy.stopAll {s : Server} (healthy : Healthy s) : Healthy s.stopAll where
  one := by
    intro other member
    cases member
  socketOpen := by
    intro other member
    cases member
  unused := by
    intro other fresh
    obtain ⟨absent, empty⟩ := healthy.unused other fresh
    refine ⟨List.not_mem_nil, ?_⟩
    simpa [Server.stopAll, absent] using empty

/-- The state after a read of a connection has been handled. -/
theorem complete_handleRead (s : Server) (id : Nat) (r : ReadCompletion) :
    (s.complete id .asyncRead).handleRead id r =
      match Connection.onRead (s.slot id).connection r with
      | .error e => { s.complete id .asyncRead with thrown := some e }
      | .ok (c, out) =>
          s.setSlot id { s.slot id with
            connection := c
            outstanding := (s.slot id).outstanding.erase .asyncRead ++ operationsOf out } := by
  simp only [handleRead, complete, setSlot_self]
  split
  · rfl
  · simp only [startOperations, setSlot_setSlot, setSlot_self]

theorem complete_stopConnection (s : Server) (id : Nat) (operation : Operation) :
    (s.complete id operation).stopConnection id = (s.stopConnection id).complete id operation := by
  simp only [stopConnection, complete, setSlot, if_true, mk.injEq, true_and, and_true]
  funext other
  by_cases same : other = id
  · simp [same]
  · simp [same]

/-- An aborted operation belongs to a connection that has left the set. -/
theorem Healthy.aborted {s : Server} (healthy : Healthy s) {id : Nat} {operation : Operation}
    (possible : s.CanComplete id operation (some .operationAborted)) :
    Healthy (s.complete id operation) := by
  apply healthy.setSlot (healthy.used possible.1)
  intro member
  have closed := possible.2 rfl
  rw [healthy.socketOpen id member] at closed
  cases closed

theorem Healthy.readFailed {s : Server} (healthy : Healthy s) {id : Nat} {failure : Failure}
    (possible : s.CanComplete id .asyncRead (some failure)) :
    Healthy ((s.complete id .asyncRead).handleReadFailure id failure) := by
  cases failure with
  | operationAborted => exact healthy.aborted possible
  | other =>
      have used := healthy.used possible.1
      change Healthy ((s.complete id .asyncRead).stopConnection id)
      rw [complete_stopConnection]
      apply (healthy.stopConnection used).setSlot used
      intro member
      simp [Server.stopConnection] at member

theorem Healthy.writeDone {s : Server} (healthy : Healthy s) {id : Nat} {failure : Option Failure}
    (possible : s.CanComplete id .asyncWrite failure) :
    Healthy ((s.complete id .asyncWrite).handleWrite id failure) := by
  have again : Healthy ((s.complete id .asyncWrite).startOperations id [.asyncRead]) := by
    rw [complete_startOperations]
    exact healthy.restart (s.slot id).connection possible.1 (fun _ => rfl)
  match failure with
  | none => exact again
  | some .other => exact again
  | some .operationAborted => exact healthy.aborted possible

/-- Every step that does not stall keeps the server healthy, unless it throws. -/
theorem Healthy.step {s s' : Server} {event : Event} (healthy : Healthy s)
    (stepped : s.step event = .ok (s', ())) (moves : ¬ s.Stalls event)
    (running : s'.thrown = none) : Healthy s' := by
  unfold Server.step at stepped
  split at stepped
  · cases stepped
  · cases event with
    | accepted =>
        simp only at stepped
        split at stepped
        · cases stepped
          exact healthy.startConnection
        · cases stepped
          exact healthy
    | readDone id r =>
        simp only at stepped
        split at stepped
        · rename_i possible
          cases stepped
          rw [complete_handleRead] at running ⊢
          split
          · rename_i e thrown
            rw [thrown] at running
            cases running
          · rename_i c out read
            apply healthy.restart c possible.1
            intro member
            rcases operationsOf_readStep (Connection.readStep_of_onRead read) with one |
              ⟨-, header, moreLeft, config, n, answer, parsed, scanned⟩
            · exact one
            · exact absurd ⟨member, header, moreLeft, config, n, answer, parsed, scanned⟩ moves
        · cases stepped
    | readFailed id failure =>
        simp only at stepped
        split at stepped
        · rename_i possible
          cases stepped
          exact healthy.readFailed possible
        · cases stepped
    | writeDone id failure =>
        simp only at stepped
        split at stepped
        · rename_i possible
          cases stepped
          exact healthy.writeDone possible
        · cases stepped
    | stop id =>
        simp only at stepped
        split at stepped
        · rename_i used
          cases stepped
          exact healthy.stopConnection used
        · cases stepped
    | stopAll =>
        cases stepped
        exact healthy.stopAll

/-! ## Runs -/

theorem running_before {s s' : Server} {event : Event} (stepped : s.step event = .ok (s', ())) :
    s.thrown = none := by
  unfold Server.step at stepped
  split at stepped
  · cases stepped
  · rename_i running
    simpa using running

/-- No step of a run from the start stalls. -/
def NeverStalls (events : List Event) : Prop :=
  ∀ before event after s outputs, events = before ++ event :: after →
    machine.run {} before = .ok (s, outputs) → ¬ s.Stalls event

/-- In every state of a run that no exception has ended, every connection of the
set has one outstanding operation. -/
def AlwaysOneOperation (events : List Event) : Prop :=
  ∀ before after s outputs, events = before ++ after →
    machine.run {} before = .ok (s, outputs) → s.thrown = none → OneOperation s

theorem NeverStalls.prefix {before after : List Event} (moves : NeverStalls (before ++ after)) :
    NeverStalls before := by
  intro first event rest s outputs split
  exact moves first event (rest ++ after) s outputs (by simp [split])

theorem healthy_of_run {events : List Event} {s : Server} {outputs : List Unit}
    (ran : machine.run {} events = .ok (s, outputs)) (moves : NeverStalls events)
    (running : s.thrown = none) : Healthy s := by
  revert moves running
  apply EventMachine.run_invariant (M := machine)
    (fun events _ s => NeverStalls events → s.thrown = none → Healthy s) _ _ ran
  · intro _ _
    exact healthy_initial
  · intro before earlier s event s' output begun ih stepped moves running
    have healthy := ih moves.prefix (running_before stepped)
    exact healthy.step stepped (moves before event [] s earlier rfl begun) running

/-- A stalling step leaves a connection of the set without an operation. -/
theorem idle_of_stall {s s' : Server} {event : Event} (one : OneOperation s)
    (stalls : s.Stalls event) (stepped : s.step event = .ok (s', ())) :
    s'.thrown = none ∧ ¬ OneOperation s' := by
  have running := running_before stepped
  match event with
  | .readDone id r =>
      obtain ⟨member, header, moreLeft, config, n, answer, parsed, scanned⟩ := stalls
      have read := Connection.onRead_of_good header parsed scanned
      rw [if_neg moreLeft] at read
      unfold Server.step at stepped
      simp only [running, Option.isSome_none, Bool.false_eq_true, if_false] at stepped
      split at stepped
      · rename_i possible
        cases stepped
        rw [complete_handleRead, read]
        refine ⟨running, ?_⟩
        intro still
        have length := still id member
        have erased := List.length_erase_of_mem possible.1
        rw [one id member] at erased
        simp [operationsOf, erased] at length
      · cases stepped
  | .accepted | .readFailed _ _ | .writeDone _ _ | .stop _ | .stopAll => cases stalls

/-- Every connection of the set has one outstanding operation throughout a run
exactly when no head is completed while its socket has more to offer. -/
theorem always_one_operation_iff {events : List Event} {s : Server} {outputs : List Unit}
    (ran : machine.run {} events = .ok (s, outputs)) :
    AlwaysOneOperation events ↔ NeverStalls events := by
  constructor
  · intro always before event after s' outputs' split begun stalls
    rw [split, List.append_cons] at ran
    obtain ⟨next, first, second, reached, -, -⟩ := EventMachine.run_append_ok.mp ran
    obtain ⟨s'', earlier, output, begun', stepped, -⟩ := EventMachine.run_concat_ok.mp reached
    rw [begun] at begun'
    cases begun'
    have one := always before (event :: after) s' outputs' split begun (running_before stepped)
    obtain ⟨running, idle⟩ := idle_of_stall one stalls stepped
    exact idle (always (before ++ [event]) after next first (by simp [split]) reached running)
  · intro moves before after s' outputs' split begun running
    subst split
    exact (healthy_of_run begun moves.prefix running).one

/-- A client connects and its head arrives before its body. -/
def stallingEvents : List Event :=
  [.accepted, .readDone 0 (Connection.textRead "POST / HTTP/1.1\r\n\r\n" 1 (by decide))]

theorem stallingEvents_idle :
    ∃ s outputs, machine.run {} stallingEvents = .ok (s, outputs) ∧ s.thrown = none ∧
      s.connections = [0] ∧ (s.slot 0).outstanding = [] := by
  have final : (machine.run {} stallingEvents).map (fun answer =>
      (answer.1.thrown, answer.1.connections, (answer.1.slot 0).outstanding)) =
      .ok (none, [0], []) := by
    decide
  cases ran : machine.run {} stallingEvents with
  | error e =>
      rw [ran] at final
      cases final
  | ok answer =>
      rw [ran] at final
      have parts := Except.ok.inj final
      simp only [Prod.mk.injEq] at parts
      exact ⟨answer.1, answer.2, rfl, parts⟩

theorem always_one_operation_iff_stallingEvents :
    AlwaysOneOperation stallingEvents ↔ NeverStalls stallingEvents := by
  obtain ⟨s, outputs, ran, -⟩ := stallingEvents_idle
  exact always_one_operation_iff ran

/-- A connection may be left in the set without any operation. -/
theorem not_always_one_operation_stallingEvents :
    ¬ ∀ (events : List Event) (s : Server) (outputs : List Unit),
      machine.run {} events = .ok (s, outputs) → AlwaysOneOperation events := by
  intro always
  obtain ⟨s, outputs, ran, running, connections, idle⟩ := stallingEvents_idle
  have one := always stallingEvents s outputs ran stallingEvents [] s outputs (by simp) ran running
  have length := one 0 (by simp [connections])
  simp [idle] at length

end Server

end CleanArchitecture
