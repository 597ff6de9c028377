import CleanArchitecture.CompletionQueue

/-!
# The end of the event loop

When the stop signal is handled after all completed operations, the remaining operations are
aborted.  From then on the handlers change nothing, no operation is started, and when the
queue is empty the event loop has nothing left to wait for.
-/

namespace CleanArchitecture

namespace QueueServer

/-- Nothing is outstanding, and every queued operation has been aborted. -/
structure Stopped (q : QueueServer) : Prop where
  running : q.server.thrown = none
  closed : q.server.acceptorOpen = false
  connections : q.server.connections = []
  idle : ∀ id, (q.server.slot id).outstanding = []
  aborted : ∀ id completion, (id, completion) ∈ q.queue → ¬ completion.Usable

/-- The handler of a completed operation runs. -/
def IsDelivery : QueueEvent → Bool
  | .delivered _ => true
  | _ => false

theorem handle_of_not_usable {q : QueueServer} {id : Nat} {completion : Completion}
    (unusable : ¬ completion.Usable) : q.handle id completion = q := by
  cases completion with
  | readDone r => exact absurd trivial unusable
  | readFailed failure =>
      obtain rfl := not_not.mp unusable
      rfl
  | writeDone failure =>
      obtain rfl := not_not.mp unusable
      rfl

theorem Stopped.step_delivered {q : QueueServer} (stopped : Stopped q) {position : Nat}
    (inside : position < q.queue.length) :
    q.step (.delivered position) = .ok ({ q with queue := q.queue.eraseIdx position }, ()) := by
  have member : (q.queue[position].1, q.queue[position].2) ∈ q.queue := List.getElem_mem inside
  have queued : q.queue[position]? = some (q.queue[position].1, q.queue[position].2) :=
    List.getElem?_eq_getElem inside
  rw [step, stopped.running]
  simp only [Option.isSome_none, Bool.false_eq_true, if_false, queued,
    handle_of_not_usable (stopped.aborted _ _ member)]

/-- A step after the stop runs the handler of an aborted operation, or is an accept that is
too late. -/
theorem Stopped.step_cases {q q' : QueueServer} {event : QueueEvent} (stopped : Stopped q)
    (stepped : q.step event = .ok (q', ())) :
    (event = .accepted ∧ q' = q) ∨
      ∃ position, event = .delivered position ∧ position < q.queue.length ∧
        q' = { q with queue := q.queue.eraseIdx position } := by
  cases event with
  | accepted =>
      rw [step, stopped.running, stopped.closed] at stepped
      cases stepped
      exact .inl ⟨rfl, rfl⟩
  | completes id completion =>
      rw [step, stopped.running] at stepped
      simp [stopped.idle] at stepped
  | delivered position =>
      by_cases inside : position < q.queue.length
      · rw [stopped.step_delivered inside] at stepped
        cases stepped
        exact .inr ⟨position, rfl, inside, rfl⟩
      · rw [step, stopped.running] at stepped
        simp [List.getElem?_eq_none (not_lt.mp inside)] at stepped
  | stopSignal =>
      rw [step, stopped.running, stopped.closed] at stepped
      cases stepped

theorem Stopped.take {q : QueueServer} (stopped : Stopped q) (position : Nat) :
    Stopped { q with queue := q.queue.eraseIdx position } :=
  ⟨stopped.running, stopped.closed, stopped.connections, stopped.idle,
    fun id completion member => stopped.aborted id completion (mem_of_mem_eraseIdx member)⟩

/-- What a stopped server does: it counts down its queue. -/
theorem Stopped.of_run {q last : QueueServer} (stopped : Stopped q) {events : List QueueEvent}
    {outputs : List Unit} (ran : machine.run q events = .ok (last, outputs)) :
    Stopped last ∧ last.server = q.server ∧
      (∀ event ∈ events, event = .accepted ∨ ∃ position, event = .delivered position) ∧
      events.countP IsDelivery + last.queue.length = q.queue.length := by
  induction events generalizing q outputs with
  | nil =>
      cases ran
      exact ⟨stopped, rfl, List.forall_mem_nil _, Nat.zero_add _⟩
  | cons event events ih =>
      obtain ⟨q', output, rest, stepped, continued, rfl⟩ := EventMachine.run_cons_ok.mp ran
      rcases stopped.step_cases stepped with ⟨rfl, rfl⟩ | ⟨position, rfl, inside, rfl⟩
      · obtain ⟨last', same, others, counted⟩ := ih stopped continued
        refine ⟨last', same, List.forall_mem_cons.mpr ⟨.inl rfl, others⟩, ?_⟩
        rw [List.countP_cons_of_neg (by decide)]
        exact counted
      · obtain ⟨last', same, others, counted⟩ := ih (stopped.take position) continued
        refine ⟨last', same, List.forall_mem_cons.mpr ⟨.inr ⟨position, rfl⟩, others⟩, ?_⟩
        rw [List.countP_cons_of_pos rfl]
        have erased : (q.queue.eraseIdx position).length = q.queue.length - 1 :=
          List.length_eraseIdx_of_lt inside
        simp only [erased] at counted
        omega

/-- The remaining handlers can all run. -/
theorem Stopped.drains {q : QueueServer} (stopped : Stopped q) :
    ∃ outputs, machine.run q (List.replicate q.queue.length (.delivered 0)) =
      .ok ({ q with queue := [] }, outputs) := by
  obtain ⟨server, queue⟩ := q
  induction queue with
  | nil => exact ⟨[], rfl⟩
  | cons entry queue ih =>
      have stepped := stopped.step_delivered (Nat.succ_pos queue.length)
      obtain ⟨outputs, ran⟩ := ih (stopped.take 0)
      exact ⟨() :: outputs, EventMachine.run_cons_ok.mpr ⟨_, (), outputs, stepped, ran, rfl⟩⟩

/-! ## The stop signal -/

theorem tidy_of_run {events : List QueueEvent} {q : QueueServer} {outputs : List Unit}
    (ran : machine.run {} events = .ok (q, outputs))
    (settled : machine.Throughout {} SignalsSettled events) : Tidy q :=
  EventMachine.invariant_of_throughout Tidy tidy_initial
    (fun _ _ _ _ tidy met stepped => tidy.step met stepped) settled ran

theorem stopped_of_signal {before : List QueueEvent} {q : QueueServer} {outputs : List Unit}
    (ran : machine.run {} (before ++ [.stopSignal]) = .ok (q, outputs))
    (settled : machine.Throughout {} SignalsSettled (before ++ [.stopSignal])) : Stopped q := by
  have tidy := tidy_of_run ran settled
  obtain ⟨s, first, output, -, stepped, -⟩ := EventMachine.run_concat_ok.mp ran
  change s.step .stopSignal = .ok (q, output) at stepped
  unfold step at stepped
  split at stepped
  · cases stepped
  · rename_i loops
    simp only at stepped
    split at stepped
    · cases stepped
      refine ⟨Option.not_isSome_iff_eq_none.mp loops, rfl, rfl, fun id => ?_, ?_⟩
      · by_contra outstanding
        cases tidy.pending id outstanding
      · intro id completion member usable
        cases tidy.usable id completion member usable
    · cases stepped

/-- The end of the event loop.  After a stop signal that is handled when all completed
operations of the set have been handled, only accepts that come too late and the handlers of
operations in the queue are left, all of them aborted.  They leave the server as the signal
has left it, without connections and operations, their number is that of the operations that
were aborted, and when they have all run nothing is left to run. -/
theorem stops_gracefully {before after : List QueueEvent} {q last : QueueServer}
    {outputs outputs' : List Unit}
    (stopped : machine.run {} (before ++ [.stopSignal]) = .ok (q, outputs))
    (settled : machine.Throughout {} SignalsSettled (before ++ [.stopSignal]))
    (ran : machine.run q after = .ok (last, outputs')) :
    last.server = q.server ∧ q.server.connections = [] ∧
      (∀ id, (q.server.slot id).outstanding = []) ∧
      (∀ event ∈ after, event = .accepted ∨ ∃ position, event = .delivered position) ∧
      (∀ entry ∈ q.queue ++ last.queue, ¬ entry.2.Usable) ∧
      after.countP IsDelivery + last.queue.length = q.queue.length ∧
      ∃ outputs, machine.run last (List.replicate last.queue.length (.delivered 0)) =
        .ok ({ server := q.server, queue := [] }, outputs) := by
  have ended := stopped_of_signal stopped settled
  obtain ⟨still, same, events, counted⟩ := ended.of_run ran
  refine ⟨same, ended.connections, ended.idle, events, ?_, counted, ?_⟩
  · rintro ⟨id, completion⟩ member
    rcases List.mem_append.mp member with queued | left
    · exact ended.aborted id completion queued
    · exact still.aborted id completion left
  · rw [← same]
    exact still.drains

/-- The first signal may be handled when no completed operation waits for its handler. -/
theorem settled_of_empty {before : List QueueEvent} {s : QueueServer} {outputs : List Unit}
    (ran : machine.run {} before = .ok (s, outputs)) (empty : s.queue = [])
    (first : ∀ event ∈ before, event ≠ .stopSignal) :
    machine.Throughout {} SignalsSettled (before ++ [.stopSignal]) := by
  intro earlier event later t seen split begun
  rcases List.eq_nil_or_concat later with rfl | ⟨rest, last, rfl⟩
  · obtain ⟨rfl, same⟩ := List.append_inj' split rfl
    cases same
    rw [ran] at begun
    cases begun
    intro id completion member
    rw [empty] at member
    cases member
  · rw [List.concat_eq_append, ← List.cons_append, ← List.append_assoc] at split
    obtain ⟨rfl, -⟩ := List.append_inj' split rfl
    cases event with
    | stopSignal => exact absurd rfl (first _ (by simp))
    | _ => exact trivial

/-- Two clients are connected when the signal comes, and another one tries to connect. -/
theorem stops_gracefully_sample : ∃ q last outputs outputs' final,
    machine.run {} ([.accepted, .accepted, firstRead, .delivered 0] ++ [.stopSignal]) =
        .ok (q, outputs) ∧
      machine.run q [.accepted, .delivered 1] = .ok (last, outputs') ∧
      q.queue.length = 2 ∧ last.queue.length = 1 ∧
      machine.run last [.delivered 0] = .ok ({ server := q.server, queue := [] }, final) := by
  have begun : (machine.run {} [.accepted, .accepted, firstRead, .delivered 0]).map
      (fun ended => ended.1.queue.length) = .ok 0 := by
    decide +kernel
  have signalled : (machine.run {} ([.accepted, .accepted, firstRead, .delivered 0] ++
      [.stopSignal])).map (fun ended => (ended.1.queue.length,
        (machine.run ended.1 [.accepted, .delivered 1]).map fun ended => ended.1.queue.length)) =
      .ok (2, .ok 1) := by
    decide +kernel
  obtain ⟨s, before, ran, nothing⟩ := EventMachine.exists_of_view begun
  obtain ⟨q, outputs, stopped, shown⟩ := EventMachine.exists_of_view signalled
  obtain ⟨two, continued⟩ := Prod.mk.inj shown
  obtain ⟨last, outputs', after, one⟩ := EventMachine.exists_of_view continued
  have settled := settled_of_empty ran (List.eq_nil_of_length_eq_zero nothing)
    (by simp [firstRead])
  obtain ⟨-, -, -, -, -, -, final, drained⟩ := stops_gracefully stopped settled after
  rw [one] at drained
  exact ⟨q, last, outputs, outputs', final, stopped, after, two, one, drained⟩

end QueueServer

end CleanArchitecture
