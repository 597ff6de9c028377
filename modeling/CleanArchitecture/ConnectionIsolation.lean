import CleanArchitecture.ConnectionManager

/-!
# Connections side by side

All connections share one event loop, and nothing else.  What the server holds of a
connection is what the connection makes of its own reads, whatever arrives on the others in
between; and a response that is being written is the one that the last handler left.
-/

namespace CleanArchitecture

/-- A run fails with the step that comes after it. -/
theorem EventMachine.run_concat_error {σ ι ω χ : Type*} {M : EventMachine σ ι ω χ} {s s' : σ}
    {events : List ι} {event : ι} {outputs : List ω} {failure : χ}
    (ran : M.run s events = .ok (s', outputs)) (failed : M.step s' event = .error failure) :
    M.run s (events ++ [event]) = .error failure := by
  induction events generalizing s outputs with
  | nil =>
      cases ran
      rw [List.nil_append, run, failed]
  | cons first events ih =>
      obtain ⟨middle, output, rest, stepped, continued, rfl⟩ := run_cons_ok.mp ran
      rw [List.cons_append, run, stepped]
      simp only [ih continued]

namespace Event

/-- The read of a connection that an event completes. -/
def readAt (id : Nat) : Event → Option ReadCompletion
  | .readDone other r => if other = id then some r else none
  | _ => none

/-- A write of a connection completes, with or without an error. -/
def writesAt (id : Nat) : Event → Bool
  | .writeDone other _ => other == id
  | _ => false

end Event

/-- The completed reads of a connection. -/
def readsOf (id : Nat) (events : List Event) : List ReadCompletion :=
  events.filterMap (Event.readAt id)

/-- How many writes of a connection have completed. -/
def writesOf (id : Nat) (events : List Event) : Nat :=
  events.countP (Event.writesAt id)

namespace Server

/-! ## What an event does to one connection -/

/-- What a step leaves of a connection, its socket and its operations. -/
inductive SlotStep (s s' : Server) (event : Event) (id : Nat) : Prop
  | kept {socketOpen : Bool} (read : event.readAt id = none) (write : event.writesAt id = false)
      (slot : s'.slot id = { s.slot id with socketOpen := socketOpen })
  | opened (fresh : s.created ≤ id) (used : id < s'.created) (read : event.readAt id = none)
      (write : event.writesAt id = false)
      (slot : s'.slot id =
        { s.slot id with outstanding := (s.slot id).outstanding ++ [.asyncRead] })
  | handled {r : ReadCompletion} {c : Connection} {out : List Action}
      (read : event.readAt id = some r) (write : event.writesAt id = false)
      (reading : .asyncRead ∈ (s.slot id).outstanding)
      (answer : Connection.onRead (s.slot id).connection r = .ok (c, out))
      (slot : s'.slot id = { s.slot id with
        connection := c
        outstanding := (s.slot id).outstanding.erase .asyncRead ++ operationsOf out })
  | threw {r : ReadCompletion} {e : StdException} (read : event.readAt id = some r)
      (failed : Connection.onRead (s.slot id).connection r = .error e) (thrown : s'.thrown = some e)
      (slot : s'.slot id =
        { s.slot id with outstanding := (s.slot id).outstanding.erase .asyncRead })
  | unread {socketOpen : Bool} (read : event.readAt id = none) (write : event.writesAt id = false)
      (slot : s'.slot id = { s.slot id with
        socketOpen := socketOpen
        outstanding := (s.slot id).outstanding.erase .asyncRead })
  | wrote {next : List Operation} (read : event.readAt id = none) (write : event.writesAt id = true)
      (writing : .asyncWrite ∈ (s.slot id).outstanding) (reads : next = [] ∨ next = [.asyncRead])
      (slot : s'.slot id =
        { s.slot id with outstanding := (s.slot id).outstanding.erase .asyncWrite ++ next })

section Slots

variable {s : Server} {id other : Nat}

theorem complete_slot_self (operation : Operation) :
    (s.complete id operation).slot id =
      { s.slot id with outstanding := (s.slot id).outstanding.erase operation } :=
  setSlot_self _ _ _

theorem complete_slot_other (operation : Operation) (distinct : other ≠ id) :
    (s.complete id operation).slot other = s.slot other :=
  setSlot_other _ _ distinct

theorem stopConnection_slot_self :
    (s.stopConnection id).slot id = { s.slot id with socketOpen := false } :=
  setSlot_self _ _ _

theorem stopConnection_slot_other (distinct : other ≠ id) :
    (s.stopConnection id).slot other = s.slot other :=
  setSlot_other _ _ distinct

theorem startConnection_slot_self :
    s.startConnection.slot s.created =
      { s.slot s.created with outstanding := (s.slot s.created).outstanding ++ [.asyncRead] } :=
  setSlot_self _ _ _

theorem startConnection_slot_other (distinct : other ≠ s.created) :
    s.startConnection.slot other = s.slot other :=
  setSlot_other _ _ distinct

theorem slotStep_readDone (r : ReadCompletion) (reading : .asyncRead ∈ (s.slot id).outstanding) :
    SlotStep s ((s.complete id .asyncRead).handleRead id r) (.readDone id r) id := by
  rw [complete_handleRead]
  split
  · rename_i e failed
    exact .threw (if_pos rfl) failed rfl (complete_slot_self .asyncRead)
  · rename_i c out answer
    exact .handled (if_pos rfl) rfl reading answer (setSlot_self _ _ _)

theorem handleRead_slot_other (r : ReadCompletion) (distinct : other ≠ id) :
    ((s.complete id .asyncRead).handleRead id r).slot other = s.slot other := by
  rw [complete_handleRead]
  split
  · exact complete_slot_other _ distinct
  · exact setSlot_other _ _ distinct

theorem slotStep_readFailed (failure : Failure) :
    SlotStep s ((s.complete id .asyncRead).handleReadFailure id failure) (.readFailed id failure)
      id := by
  have slot : (s.complete id .asyncRead).slot id = _ := complete_slot_self .asyncRead
  cases failure with
  | operationAborted => exact .unread rfl rfl slot
  | other =>
      have stopped : ((s.complete id .asyncRead).stopConnection id).slot id = _ :=
        stopConnection_slot_self
      rw [slot] at stopped
      exact .unread rfl rfl stopped

theorem handleReadFailure_slot_other (failure : Failure) (distinct : other ≠ id) :
    ((s.complete id .asyncRead).handleReadFailure id failure).slot other = s.slot other := by
  cases failure with
  | operationAborted => exact complete_slot_other _ distinct
  | other => exact (stopConnection_slot_other distinct).trans (complete_slot_other _ distinct)

theorem slotStep_writeDone (failure : Option Failure)
    (writing : .asyncWrite ∈ (s.slot id).outstanding) :
    SlotStep s ((s.complete id .asyncWrite).handleWrite id failure) (.writeDone id failure) id := by
  have here : (Event.writeDone id failure).writesAt id = true := beq_self_eq_true id
  have again : SlotStep s ((s.complete id .asyncWrite).startOperations id [.asyncRead])
      (.writeDone id failure) id := by
    rw [complete_startOperations]
    exact .wrote rfl here writing (.inr rfl) (setSlot_self _ _ _)
  cases failure with
  | none => exact again
  | some failure =>
      cases failure with
      | other => exact again
      | operationAborted =>
          refine .wrote rfl here writing (.inl rfl) ?_
          rw [List.append_nil]
          exact complete_slot_self .asyncWrite

theorem handleWrite_slot_other (failure : Option Failure) (distinct : other ≠ id) :
    ((s.complete id .asyncWrite).handleWrite id failure).slot other = s.slot other := by
  have restarted : ((s.complete id .asyncWrite).startOperations id [.asyncRead]).slot other =
      s.slot other :=
    (setSlot_other _ _ distinct).trans (complete_slot_other _ distinct)
  cases failure with
  | none => exact restarted
  | some failure =>
      cases failure with
      | operationAborted => exact complete_slot_other _ distinct
      | other => exact restarted

end Slots

theorem slotStep_of_step {s s' : Server} {event : Event} (stepped : s.step event = .ok (s', ()))
    (id : Nat) : SlotStep s s' event id := by
  unfold step at stepped
  split at stepped
  · cases stepped
  cases event with
  | accepted =>
      simp only at stepped
      split at stepped
      · cases stepped
        by_cases same : id = s.created
        · subst same
          exact .opened le_rfl (Nat.lt_succ_self _) rfl rfl startConnection_slot_self
        · exact .kept rfl rfl (startConnection_slot_other same)
      · cases stepped
        exact .kept rfl rfl rfl
  | readDone read r =>
      simp only at stepped
      split at stepped
      · rename_i possible
        cases stepped
        by_cases same : id = read
        · subst same
          exact slotStep_readDone r possible.1
        · exact .kept (if_neg (Ne.symm same)) rfl (handleRead_slot_other r same)
      · cases stepped
  | readFailed read failure =>
      simp only at stepped
      split at stepped
      · cases stepped
        by_cases same : id = read
        · subst same
          exact slotStep_readFailed failure
        · exact .kept rfl rfl (handleReadFailure_slot_other failure same)
      · cases stepped
  | writeDone written failure =>
      simp only at stepped
      split at stepped
      · rename_i possible
        cases stepped
        by_cases same : id = written
        · subst same
          exact slotStep_writeDone failure possible.1
        · exact .kept rfl (beq_eq_false_iff_ne.mpr (Ne.symm same))
            (handleWrite_slot_other failure same)
      · cases stepped
  | stop stopped =>
      simp only at stepped
      split at stepped
      · cases stepped
        by_cases same : id = stopped
        · subst same
          exact .kept rfl rfl stopConnection_slot_self
        · exact .kept rfl rfl (stopConnection_slot_other same)
      · cases stepped
  | stopAll =>
      cases stepped
      by_cases member : id ∈ s.connections
      · exact .kept rfl rfl (if_pos member)
      · exact .kept rfl rfl (if_neg member)

/-- A step creates at most a connection, and throws only what a connection's read throws. -/
theorem thrown_of_step {s s' : Server} {event : Event} (stepped : s.step event = .ok (s', ())) :
    s.created ≤ s'.created ∧ ∀ e, s'.thrown = some e →
      ∃ id r, event.readAt id = some r ∧ Connection.onRead (s.slot id).connection r = .error e := by
  have running := running_before stepped
  unfold step at stepped
  split at stepped
  · cases stepped
  have silent : ∀ {t : Server}, t.created = s.created → t.thrown = s.thrown →
      s.created ≤ t.created ∧ ∀ e, t.thrown = some e →
        ∃ id r, event.readAt id = some r ∧
          Connection.onRead (s.slot id).connection r = .error e := by
    intro t created thrown
    refine ⟨created.ge, fun e threw => ?_⟩
    rw [thrown, running] at threw
    cases threw
  cases event with
  | accepted =>
      simp only at stepped
      split at stepped
      · cases stepped
        refine ⟨Nat.le_succ _, fun e threw => ?_⟩
        have none : s.startConnection.thrown = none := running
        rw [none] at threw
        cases threw
      · cases stepped
        exact silent rfl rfl
  | readDone id r =>
      simp only at stepped
      split at stepped
      · cases stepped
        rw [complete_handleRead]
        split
        · rename_i e failed
          refine ⟨le_rfl, ?_⟩
          rintro _ ⟨⟩
          exact ⟨id, r, if_pos rfl, failed⟩
        · exact silent rfl rfl
      · cases stepped
  | readFailed id failure =>
      simp only at stepped
      split at stepped
      · cases stepped
        cases failure <;> exact silent rfl rfl
      · cases stepped
  | writeDone id failure =>
      simp only at stepped
      split at stepped
      · cases stepped
        rcases failure with _ | _ | _ <;> exact silent rfl rfl
      · cases stepped
  | stop id =>
      simp only at stepped
      split at stepped
      · cases stepped
        exact silent rfl rfl
      · cases stepped
  | stopAll =>
      cases stepped
      exact silent rfl rfl

/-! ## Runs -/

/-- What the server holds of a connection is what these reads made of it.  Each write that
was started has completed or is outstanding, and while one is outstanding, the response is
the one that was started last. -/
structure Replays (slot : Slot) (reads : List ReadCompletion) (writes : Nat)
    (outs : List (List Action)) : Prop where
  ran : Connection.machine.run {} reads = .ok (slot.connection, outs)
  started : (operationsOf outs.flatten).count .asyncWrite =
    writes + slot.outstanding.count .asyncWrite
  writing : .asyncWrite ∈ slot.outstanding →
    outs.flatten.getLast? = some (.doWrite slot.connection.res)

theorem readsOf_none {id : Nat} {events : List Event} {event : Event}
    (read : event.readAt id = none) : readsOf id (events ++ [event]) = readsOf id events := by
  rw [readsOf, List.filterMap_append, List.filterMap_cons_none read, List.filterMap_nil,
    List.append_nil]
  rfl

theorem readsOf_some {id : Nat} {events : List Event} {event : Event} {r : ReadCompletion}
    (read : event.readAt id = some r) :
    readsOf id (events ++ [event]) = readsOf id events ++ [r] := by
  rw [readsOf, List.filterMap_append, List.filterMap_cons_some read]
  rfl

theorem writesOf_false {id : Nat} {events : List Event} {event : Event}
    (write : event.writesAt id = false) : writesOf id (events ++ [event]) = writesOf id events := by
  rw [writesOf, List.countP_append, List.countP_singleton, write]
  rfl

theorem writesOf_true {id : Nat} {events : List Event} {event : Event}
    (write : event.writesAt id = true) :
    writesOf id (events ++ [event]) = writesOf id events + 1 := by
  rw [writesOf, List.countP_append, List.countP_singleton, write]
  rfl

theorem operationsOf_append (first second : List Action) :
    operationsOf (first ++ second) = operationsOf first ++ operationsOf second :=
  List.filterMap_append

/-- The only operation of a connection. -/
theorem outstanding_of_mem {operations : List Operation} (single : operations.length ≤ 1)
    {operation : Operation} (member : operation ∈ operations) : operations = [operation] := by
  cases operations with
  | nil => cases member
  | cons other rest =>
      obtain rfl : rest = [] :=
        List.eq_nil_of_length_eq_zero (Nat.le_zero.mp (Nat.le_of_succ_le_succ single))
      rw [List.mem_singleton.mp member]

/-- A write that a read has started is the last thing that the read did. -/
theorem getLast_of_written {c c' : Connection} {r : ReadCompletion} {out : List Action}
    (answer : Connection.onRead c r = .ok (c', out))
    (written : .asyncWrite ∈ operationsOf out) : out.getLast? = some (.doWrite c'.res) := by
  cases Connection.readStep_of_onRead answer with
  | headContinues | bodyContinues => simp [operationsOf] at written
  | headThenBody => cases written
  | _ => rfl

section Steps

variable {s s' : Server} {event : Event} {id : Nat} {reads : List ReadCompletion} {writes : Nat}
  {outs : List (List Action)}

theorem Replays.handled {r : ReadCompletion} {c : Connection} {out : List Action}
    (replays : Replays (s.slot id) reads writes outs)
    (single : (s.slot id).outstanding.length ≤ 1) (reading : .asyncRead ∈ (s.slot id).outstanding)
    (answer : Connection.onRead (s.slot id).connection r = .ok (c, out)) :
    Replays { s.slot id with
      connection := c
      outstanding := (s.slot id).outstanding.erase .asyncRead ++ operationsOf out }
      (reads ++ [r]) writes (outs ++ [out]) := by
  have only := outstanding_of_mem single reading
  refine ⟨EventMachine.run_concat_ok.mpr ⟨_, outs, out, replays.ran, answer, rfl⟩, ?_, ?_⟩
  · have started := replays.started
    rw [only] at started ⊢
    rw [List.flatten_concat, operationsOf_append, List.count_append, started]
    rfl
  · intro written
    rw [only] at written
    have last := getLast_of_written answer written
    rw [List.flatten_concat, List.getLast?_append, last]
    rfl

/-- Operations other than writes come and go. -/
theorem Replays.keep {slot slot' : Slot} (replays : Replays slot reads writes outs)
    (connection : slot'.connection = slot.connection)
    (same : slot'.outstanding.count .asyncWrite = slot.outstanding.count .asyncWrite) :
    Replays slot' reads writes outs := by
  refine ⟨?_, ?_, fun written => ?_⟩
  · rw [connection]
    exact replays.ran
  · rw [same]
    exact replays.started
  · rw [connection]
    apply replays.writing
    rw [← List.count_pos_iff, ← same, List.count_pos_iff]
    exact written

theorem Replays.wrote {next : List Operation} (replays : Replays (s.slot id) reads writes outs)
    (single : (s.slot id).outstanding.length ≤ 1) (writing : .asyncWrite ∈ (s.slot id).outstanding)
    (reads' : next = [] ∨ next = [.asyncRead]) :
    Replays { s.slot id with
      outstanding := (s.slot id).outstanding.erase .asyncWrite ++ next }
      reads (writes + 1) outs := by
  have only := outstanding_of_mem single writing
  have noWrite : .asyncWrite ∉ next := by
    rcases reads' with rfl | rfl <;> decide
  refine ⟨replays.ran, ?_, fun written => ?_⟩
  · have started := replays.started
    rw [only] at started ⊢
    rw [started, List.count_append, List.count_eq_zero_of_not_mem noWrite]
    rfl
  · rw [only] at written
    exact absurd written noWrite

/-- What holds of one connection. -/
structure Alone (events : List Event) (s : Server) (id : Nat) : Prop where
  fresh : s.created ≤ id → (s.slot id).outstanding = []
  single : (s.slot id).outstanding.length ≤ 1
  replays : (∃ outs, Replays (s.slot id) (readsOf id events) (writesOf id events) outs) ∨
    ∃ e, s.thrown = some e ∧ Connection.machine.run {} (readsOf id events) = .error e

theorem Alone.of_running {events : List Event} (alone : Alone events s id)
    (running : s.thrown = none) :
    ∃ outs, Replays (s.slot id) (readsOf id events) (writesOf id events) outs := by
  apply alone.replays.resolve_right
  rintro ⟨e, thrown, -⟩
  rw [running] at thrown
  cases thrown

theorem Alone.step {events : List Event} (alone : Alone events s id)
    (stepped : s.step event = .ok (s', ())) : Alone (events ++ [event]) s' id := by
  have nothing : s'.created ≤ id → (s.slot id).outstanding = [] :=
    fun fresh => alone.fresh ((thrown_of_step stepped).1.trans fresh)
  have single := alone.single
  obtain ⟨outs, replays⟩ := alone.of_running (running_before stepped)
  cases slotStep_of_step stepped id with
  | kept read write slot =>
      refine ⟨fun fresh => ?_, ?_, .inl ⟨outs, ?_⟩⟩
      · rw [slot]
        exact nothing fresh
      · rw [slot]
        exact single
      · rw [slot, readsOf_none read, writesOf_false write]
        exact replays.keep rfl rfl
  | opened fresh used read write slot =>
      have idle := alone.fresh fresh
      refine ⟨fun later => absurd used (Nat.not_lt_of_le later), ?_, .inl ⟨outs, ?_⟩⟩
      · rw [slot, idle]
        exact le_rfl
      · rw [slot, readsOf_none read, writesOf_false write]
        exact replays.keep rfl (by rw [idle]; rfl)
  | @handled r c out read write reading answer slot =>
      have only := outstanding_of_mem single reading
      refine ⟨fun fresh => ?_, ?_, .inl ⟨outs ++ [out], ?_⟩⟩
      · rw [nothing fresh] at reading
        cases reading
      · rw [slot, only, List.erase_cons_head, List.nil_append]
        rcases operationsOf_readStep (Connection.readStep_of_onRead answer) with one | ⟨none, -⟩
        · exact one.le
        · rw [none]
          exact Nat.zero_le 1
      · rw [slot, readsOf_some read, writesOf_false write]
        exact replays.handled single reading answer
  | @threw r e read failed thrown slot =>
      refine ⟨fun fresh => ?_, ?_, .inr ⟨e, thrown, ?_⟩⟩
      · rw [slot, nothing fresh]
        rfl
      · rw [slot]
        exact (List.length_erase_le).trans single
      · rw [readsOf_some read]
        exact EventMachine.run_concat_error replays.ran failed
  | unread read write slot =>
      refine ⟨fun fresh => ?_, ?_, .inl ⟨outs, ?_⟩⟩
      · rw [slot, nothing fresh]
        rfl
      · rw [slot]
        exact (List.length_erase_le).trans single
      · rw [slot, readsOf_none read, writesOf_false write]
        exact replays.keep rfl (List.count_erase_of_ne (by decide))
  | wrote read write writing reads slot =>
      have only := outstanding_of_mem single writing
      refine ⟨fun fresh => ?_, ?_, .inl ⟨outs, ?_⟩⟩
      · rw [nothing fresh] at writing
        cases writing
      · rw [slot, only, List.erase_cons_head, List.nil_append]
        rcases reads with rfl | rfl
        · exact Nat.zero_le 1
        · exact le_rfl
      · rw [slot, readsOf_none read, writesOf_true write]
        exact replays.wrote single writing reads

end Steps

theorem alone_of_run {events : List Event} {s : Server} {outputs : List Unit}
    (ran : machine.run {} events = .ok (s, outputs)) (id : Nat) : Alone events s id := by
  refine EventMachine.run_invariant (fun events _ s => Alone events s id) ?_ ?_ ran
  · exact ⟨fun _ => rfl, Nat.zero_le 1, .inl ⟨[], rfl, rfl, fun writing => nomatch writing⟩⟩
  · intro _ _ s event s' output _ alone stepped
    exact alone.step stepped

/-- Connections side by side.  After every run of the server, with one thread in its event
loop, each connection has at most one outstanding operation.  As long as nothing is thrown, each is in the state of a connection
of its own that is given the same reads, its writes are those that were started there, and a
write that is outstanding sends the response that was made last.  What is thrown, some
connection throws on its own reads. -/
theorem connections_isolated {events : List Event} {s : Server} {outputs : List Unit}
    (ran : machine.run {} events = .ok (s, outputs)) :
    (∀ id, (s.slot id).outstanding.length ≤ 1) ∧
      (s.thrown = none → ∀ id, ∃ outs,
        Replays (s.slot id) (readsOf id events) (writesOf id events) outs) ∧
      ∀ e, s.thrown = some e →
        ∃ id, Connection.machine.run {} (readsOf id events) = .error e := by
  refine ⟨fun id => (alone_of_run ran id).single,
    fun running id => (alone_of_run ran id).of_running running, fun e thrown => ?_⟩
  -- The last event is the read that has thrown.
  rcases List.eq_nil_or_concat events with rfl | ⟨before, event, rfl⟩
  · cases ran
    cases thrown
  · rw [List.concat_eq_append] at ran ⊢
    obtain ⟨s₁, first, output, begun, stepped, -⟩ := EventMachine.run_concat_ok.mp ran
    obtain ⟨id, r, read, failed⟩ := (thrown_of_step stepped).2 e thrown
    obtain ⟨outs, replays⟩ := (alone_of_run begun id).of_running (running_before stepped)
    refine ⟨id, ?_⟩
    rw [readsOf_some read]
    exact EventMachine.run_concat_error replays.ran failed

/-- A head in two reads, with the head of another client between them. -/
def twoClients : List Event :=
  [.accepted, .accepted, .readDone 0 (Connection.textRead "GET /first HT" 0 (by decide)),
    .readDone 1 (Connection.textRead "GET /second HTTP/1.1\r\n\r\n" 0 (by decide)),
    .readDone 0 (Connection.textRead "TP/1.1\r\n\r\n" 0 (by decide))]

theorem connections_isolated_sample : ∃ s outputs outs,
    machine.run {} twoClients = .ok (s, outputs) ∧
      Replays (s.slot 0) [Connection.textRead "GET /first HT" 0 (by decide),
        Connection.textRead "TP/1.1\r\n\r\n" 0 (by decide)] 0 outs ∧
      (s.slot 0).outstanding = [.asyncWrite] := by
  have ran : (machine.run {} twoClients).map (fun ended =>
      (ended.1.thrown, (ended.1.slot 0).outstanding)) = .ok (none, [.asyncWrite]) := by
    decide +kernel
  obtain ⟨s, outputs, ended, shown⟩ := EventMachine.exists_of_view ran
  obtain ⟨running, writing⟩ := Prod.mk.inj shown
  obtain ⟨-, replays, -⟩ := connections_isolated ended
  obtain ⟨outs, replayed⟩ := replays running 0
  exact ⟨s, outputs, outs, ended, replayed, writing⟩

end Server

end CleanArchitecture
