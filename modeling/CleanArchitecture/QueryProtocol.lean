import CleanArchitecture.CommandProtocol
import CleanArchitecture.QueryOutcomes

/-!
# Queries under a protocol

Whatever a protocol records of the executions of a statement, a query ends in the phase
after its last execution, and its answer tells of the result of that one.
-/

namespace CleanArchitecture

open Program Backend

/-- The calls of a query beside the executions of its statement. -/
def Command.IsQueryUpkeep (statement : PostgresStatement) : Command → Prop
  | .acquire .postgres => True
  | .popFront .postgres => True
  | .pushBack .postgres _ => True
  | .release .postgres => True
  | .pqPrepare _ _ text _ _ => text = cStr statement.query
  | .pqClear _ => True
  | _ => False

/-- A log tells of the failure of an execution. -/
def Blames (result : Option PgResult) (log : Log) : Prop :=
  ∃ failed, result = some failed ∧ failed.Failed ∧
    log.dbContraint = cStr (failed.constraintName.getD []) ∧ log.msg = cStr failed.errorMessage

/-- What a query answers after its last execution. -/
def Answers (result : Option PgResult) : Except Log (Option PgResult) → Prop
  | .error log => Blames result log
  | .ok same => same = result ∧ cStr (pqResultErrorMessage result) = []

namespace Postgres

variable {φ : Type} {P : Protocol Command Command.Response φ} {statement : PostgresStatement}
  {values : List Bytes} {formats : List Int} {phase : φ} {ready : φ → Prop}
  {executed : Option PgResult → φ → Prop}

/-- A protocol permits the upkeep of a query and does not record it. -/
def Ignores (P : Protocol Command Command.Response φ) (statement : PostgresStatement) : Prop :=
  ∀ phase command, command.IsQueryUpkeep statement →
    P.allows phase command ∧ ∀ response, P.next phase command response = phase

theorem Ignores.follows (ignores : Ignores P statement) {α : Type} {post : α → Prop}
    {program : Backend α} (within : Within (Command.IsQueryUpkeep statement) post program) :
    Follows P (fun value reached => post value ∧ reached = phase) phase program :=
  Within.follows within (fun command upkeep => (ignores phase command upkeep).1)
    fun command response upkeep => (ignores phase command upkeep).2 response

theorem upkeep_getClient :
    Within (Command.IsQueryUpkeep statement) (fun _ => True) getClient :=
  (within_perform (by exact trivial)).bind fun _ _ => within_perform (by exact trivial)

theorem upkeep_releaseClient (client : Nat) :
    Within (Command.IsQueryUpkeep statement) (fun _ => True) (releaseClient client) :=
  (within_perform (by exact trivial)).bind fun _ _ => within_perform (by exact trivial)

theorem upkeep_pqClear (result : Option PgResult) :
    Within (Command.IsQueryUpkeep statement) (fun _ => True) (pqClear result) :=
  within_perform trivial

/-- The statement is executed again only after a fatal error and a preparation. -/
theorem follows_attempts (ignores : Ignores P statement)
    (executes : ∀ client phase, ready phase →
      Follows P executed phase (execPrepared client statement values formats))
    (again : ∀ result reached, executed result reached →
      pqResultStatus result = .fatalError → ready reached)
    (client : Nat) (start : ready phase) :
    Follows P executed phase (attempts client statement values formats) := by
  have bound : Within (Command.IsQueryUpkeep statement) (fun _ => True)
      (pqPrepare client (cStr statement.name) (cStr statement.query)
        (toInt32 statement.numParams) statement.paramTypes) :=
    within_perform rfl
  apply (executes client phase start).bind
  intro first reached known
  split
  · rename_i fatal
    have restart := again first reached known fatal
    apply (ignores.follows bound).bind
    intro rtmp _ kept
    obtain rfl := kept.2
    split
    · apply (ignores.follows (upkeep_pqClear first)).bind
      intro _ _ kept
      obtain rfl := kept.2
      apply (executes client _ restart).bind
      intro second reached known
      apply (ignores.follows (upkeep_pqClear rtmp)).bind
      intro _ _ kept
      obtain rfl := kept.2
      exact follows_pure known
    · apply (ignores.follows (upkeep_pqClear rtmp)).bind
      intro _ _ kept
      obtain rfl := kept.2
      exact follows_pure known
  · exact follows_pure known

theorem follows_query (ignores : Ignores P statement)
    (executes : ∀ client phase, ready phase →
      Follows P executed phase (execPrepared client statement values formats))
    (again : ∀ result reached, executed result reached →
      pqResultStatus result = .fatalError → ready reached)
    (start : ready phase) :
    Follows P (fun answer reached => ∃ result, executed result reached ∧ Answers result answer) phase
      (query statement values formats) := by
  have served : Follows P executed phase (queryWithFallback statement values formats) := by
    apply (ignores.follows upkeep_getClient).bind
    intro client _ kept
    obtain rfl := kept.2
    apply (follows_attempts ignores executes again client start).bind
    intro result reached known
    apply (ignores.follows (upkeep_releaseClient client)).bind
    intro _ _ kept
    obtain rfl := kept.2
    exact follows_pure known
  apply served.bind
  intro result reached known
  split
  · rename_i message
    apply (ignores.follows (upkeep_pqClear result)).bind
    intro _ _ kept
    obtain rfl := kept.2
    refine follows_pure ⟨result, known, ?_⟩
    cases result with
    | none => exact absurd rfl message
    | some failed => exact ⟨failed, rfl, message, rfl, rfl⟩
  · rename_i clear
    exact follows_pure ⟨result, known, rfl, not_not.mp clear⟩

end Postgres

end CleanArchitecture
