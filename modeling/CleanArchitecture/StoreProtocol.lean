import CleanArchitecture.Interleaving
import CleanArchitecture.SessionFrame

/-!
# Protocols of store commands

A protocol of store commands looks at the Redis commands of a request alone: at
their arguments and their replies.  It also says in which phases the process may
end.  Over a healthy store every permitted call of a thread is answered.
-/

namespace CleanArchitecture

open Program Backend

/-- The calls after which the process has no further behaviour. -/
def Command.IsAbort : Command → Prop
  | .nullDereference => True
  | .terminate => True
  | .outOfRounds => True
  | _ => False

def RedisReply.counts (reply : RedisReply) : Bool :=
  reply.type = .integer ∧ 0 < reply.integer

/-- The Redis commands and the aborts that the phases permit, and the phase after a
reply. -/
structure StoreRules (φ : Type) where
  allows : φ → List Bytes → Prop
  aborts : φ → Prop
  next : φ → List Bytes → Option RedisReply → φ

/-- The protocol of these rules: the pool, the replies and the random source do not
change the phase, and nothing else is called. -/
def StoreRules.protocol {φ : Type} (rules : StoreRules φ) :
    Protocol Command Command.Response φ where
  allows phase command :=
    match command with
    | .redisCommand _ args => rules.allows phase args
    | command => command.IsStoreUpkeep ∨ command = .getrandom ∨ command.IsAbort ∧ rules.aborts phase
  next phase command :=
    match command with
    | .redisCommand _ args => fun reply => rules.next phase args reply
    | _ => fun _ => phase

namespace StoreRules

variable {φ : Type} {rules : StoreRules φ} {phase : φ}

theorem follows_upkeep {command : Command} (upkeep : command.IsStoreUpkeep) :
    Follows rules.protocol (fun _ reached => reached = phase) phase
      (perform command : Backend command.Response) := by
  cases command with
  | redisCommand => exact upkeep.elim
  | _ => exact ⟨.inl upkeep, fun _ => rfl⟩

theorem follows_getrandom : Follows rules.protocol (fun _ reached => reached = phase) phase getrandom :=
  ⟨.inr (.inl rfl), fun _ => rfl⟩

theorem follows_dereference {α : Type} {pointer : Option α} {post : α → φ → Prop}
    (aborts : pointer = none → rules.aborts phase)
    (holds : ∀ value, pointer = some value → post value phase) :
    Follows rules.protocol post phase (dereference pointer) := by
  cases pointer with
  | none => exact ⟨.inr (.inr ⟨trivial, aborts rfl⟩), fun response => response.elim⟩
  | some value => exact holds value rfl

/-! ## Store operations -/

/-- A null reply ends the process. -/
theorem follows_command {args : List Bytes} {post : RedisReply → φ → Prop}
    (permitted : rules.allows phase args) (aborts : rules.aborts (rules.next phase args none))
    (holds : ∀ reply, post reply (rules.next phase args (some reply))) :
    Follows rules.protocol post phase (RedisStore.command args) := by
  have taken : Follows rules.protocol (fun _ reached => reached = phase) phase
      RedisStore.getContext := by
    apply (follows_upkeep (by trivial)).bind
    intro _ reached same
    exact same ▸ follows_upkeep (by trivial)
  have sent : ∀ ctx, Follows rules.protocol (fun reply reached => reached = rules.next phase args reply)
      phase (redisCommand ctx args) :=
    fun ctx => ⟨permitted, fun _ => rfl⟩
  have released : ∀ ctx (reached : φ), Follows rules.protocol (fun _ last => last = reached) reached
      (RedisStore.releaseContext ctx) := by
    intro ctx reached
    apply (follows_upkeep (by trivial)).bind
    intro _ last same
    exact same ▸ follows_upkeep (by trivial)
  apply taken.bind
  intro ctx _ same
  obtain rfl := same
  refine (sent ctx).bind fun reply reached next => (released ctx reached).bind fun _ _ same => ?_
  obtain rfl := same
  obtain rfl := next
  apply follows_dereference
  · rintro rfl
    exact aborts
  · rintro value rfl
    exact holds value

theorem follows_countPositive {name key : Bytes} {post : Bool → φ → Prop}
    (permitted : rules.allows phase [name, key])
    (aborts : rules.aborts (rules.next phase [name, key] none))
    (holds : ∀ reply, post reply.counts (rules.next phase [name, key] (some reply))) :
    Follows rules.protocol post phase (RedisStore.countPositive name key) := by
  have answered : Follows rules.protocol
      (fun reply reached => post reply.counts reached) phase (RedisStore.command [name, key]) :=
    follows_command permitted aborts holds
  apply answered.bind
  intro reply reached counted
  split
  · rename_i integer
    apply (follows_upkeep (by trivial)).bind
    intro _ _ same
    obtain rfl := same
    apply follows_pure
    simpa [RedisReply.counts, integer] using counted
  · rename_i other
    apply follows_pure
    simpa [RedisReply.counts, other] using counted

theorem follows_setValue {key value : Bytes} {post : Bool → φ → Prop}
    (permitted : rules.allows phase [ascii "SET", key, value])
    (aborts : rules.aborts (rules.next phase [ascii "SET", key, value] none))
    (holds : ∀ done reply, post done (rules.next phase [ascii "SET", key, value] (some reply))) :
    Follows rules.protocol post phase (RedisStore.setValue key value) := by
  have answered : Follows rules.protocol (fun _ reached => ∀ done, post done reached) phase
      (RedisStore.command [ascii "SET", key, value]) :=
    follows_command permitted aborts fun reply done => holds done reply
  apply answered.bind
  intro reply reached written
  apply (follows_upkeep (by trivial)).bind
  intro _ _ same
  obtain rfl := same
  exact written _

theorem follows_getByteArrayImpl {key : Bytes} {post : Except Log (Option Bytes) → φ → Prop}
    (permitted : rules.allows phase [ascii "GET", key])
    (aborts : rules.aborts (rules.next phase [ascii "GET", key] none))
    (found : ∀ reply, reply.type = .string →
      post (.ok (some reply.str)) (rules.next phase [ascii "GET", key] (some reply)))
    (missing : ∀ reply answer, reply.type ≠ .string → (∀ data, answer ≠ .ok (some data)) →
      post answer (rules.next phase [ascii "GET", key] (some reply))) :
    Follows rules.protocol post phase (RedisStore.getByteArrayImpl key) := by
  have answered : Follows rules.protocol
      (fun reply reached => (reply.type = .string → post (.ok (some reply.str)) reached) ∧
        (reply.type ≠ .string → ∀ answer, (∀ data, answer ≠ .ok (some data)) → post answer reached))
      phase (RedisStore.command [ascii "GET", key]) :=
    follows_command permitted aborts fun reply =>
      ⟨found reply, fun other answer none => missing reply answer other none⟩
  apply answered.bind
  intro reply reached outcome
  apply (follows_upkeep (by trivial)).bind
  intro _ _ same
  obtain rfl := same
  split
  · rename_i string
    exact outcome.1 string
  · rename_i other
    split
    · apply outcome.2 other _
      rintro data ⟨⟩
    · apply outcome.2 other _
      rintro data ⟨⟩

/-- A request has a session id once its key is asked for. -/
theorem follows_getSessionKey (ex : Exchange) :
    Follows rules.protocol
      (fun keyed reached => reached = phase ∧ keyed.2.req.sessionId ≠ [] ∧
        keyed.1 = sessionPrefix ++ keyed.2.req.sessionId ∧ ex.Renews keyed.2)
      phase (WrapperRequest.getSessionKey ex) := by
  by_cases session : ex.req.sessionId ≠ []
  · rw [WrapperRequest.getSessionKey_of_session session]
    exact follows_pure ⟨rfl, session, rfl, .refl ex⟩
  · rw [WrapperRequest.getSessionKey, WrapperRequest.getSessionIdImpl, if_neg session]
    have drawn : Follows rules.protocol
        (fun spelt reached => reached = phase ∧ spelt.2.req.sessionId ≠ [] ∧
          spelt.1 = spelt.2.req.sessionId ∧ ex.Renews spelt.2) phase
        (do
          let buffer ← getrandom
          return (spellId buffer, ex.withSession (spellId buffer))) := by
      refine follows_getrandom.bind fun buffer _ same => follows_pure ⟨same, ?_, rfl, ?_⟩
      · exact spellId_ne_nil buffer
      · exact ⟨spellId buffer, .inr ⟨buffer, rfl⟩, rfl⟩
    apply drawn.bind
    intro spelt _ outcome
    obtain ⟨rfl, nonempty, same, renews⟩ := outcome
    exact follows_pure ⟨rfl, nonempty, congrArg (sessionPrefix ++ ·) same, renews⟩

end StoreRules

/-! ## Threads over a healthy store -/

namespace HealthyStore

variable {σ α φ ι : Type} [DecidableEq ι] {h : BackendHandler σ} {view : σ → StoreMap}
  (healthy : HealthyStore h view) {rules : ι → StoreRules φ} {post : ι → α → φ → Prop}
  {s s' : Threads Command Command.Response α φ σ ι}

include healthy

omit [DecidableEq ι] in
theorem of_redisCommand {ctx : Nat} {args : List Bytes} {t t' : σ} {reply : Option RedisReply}
    (answered : h (.redisCommand ctx args) t = some (reply, t')) :
    ∃ handle, reply = some { redisReply args (view t) with handle := handle } ∧
      view t' = redisMap args (view t) := by
  obtain ⟨handle, last, same, after⟩ := healthy.answers ctx args t
  rw [same] at answered
  cases answered
  exact ⟨handle, rfl, after⟩

/-- An invariant of the phases and the map that every permitted Redis command keeps
holds after every interleaving. -/
theorem invariant_of_interleaving (inv : (ι → φ) → StoreMap → Prop)
    (condition : Turn Command Command.Response α φ σ ι → Prop)
    (keeps : ∀ (s : Threads Command Command.Response α φ σ ι) i ctx args handle,
      (rules i).allows (s.phases i) args →
      condition { thread := i, command := .redisCommand ctx args, before := s } →
      inv s.phases (view s.shared) →
      inv (Function.update s.phases i ((rules i).next (s.phases i) args
        (some { redisReply args (view s.shared) with handle := handle })))
        (redisMap args (view s.shared)))
    (follow : s.Follow (fun i => (rules i).protocol) post) (initial : inv s.phases (view s.shared))
    {schedule : List ι} {turns : List (Turn Command Command.Response α φ σ ι)}
    (ran : (interleaving (fun i => (rules i).protocol) h).run s schedule = .ok (s', turns))
    (conditions : ∀ turn ∈ turns, condition turn) :
    s'.Follow (fun i => (rules i).protocol) post ∧ inv s'.phases (view s'.shared) := by
  refine Threads.invariant_of_run (fun phases shared => inv phases (view shared)) condition ?_
    follow initial ran conditions
  intro s i command response shared allowed held holds answered
  by_cases redis : command.IsRedisCommand
  · cases command with
    | redisCommand ctx args =>
        obtain ⟨handle, rfl, after⟩ := healthy.of_redisCommand answered
        rw [after]
        exact keeps s i ctx args handle allowed held holds
    | _ => exact redis.elim
  · have stays : (rules i).protocol.next (s.phases i) command response = s.phases i := by
      cases command with
      | redisCommand => exact absurd trivial redis
      | _ => rfl
    rw [stays, Function.update_eq_self, healthy.frame command s.shared response shared redis answered]
    exact holds

/-- A thread that is not done can take a turn, if its phase permits no abort and the
random source answers. -/
theorem exists_turn (draws : ∀ t, ∃ buffer t', h .getrandom t = some (buffer, t'))
    (follow : s.Follow (fun i => (rules i).protocol) post) {i : ι}
    (safe : ¬ (rules i).aborts (s.phases i)) (unfinished : ∀ value, s.programs i ≠ .done value) :
    ∃ s' turn, (interleaving (fun i => (rules i).protocol) h).step s i = .ok (s', turn) := by
  cases program : s.programs i with
  | done value => exact absurd program (unfinished value)
  | call command next =>
      have here := follow i
      rw [program] at here
      have answered : ∃ response t', h command s.shared = some (response, t') := by
        by_cases redis : command.IsRedisCommand
        · cases command with
          | redisCommand ctx args =>
              obtain ⟨handle, t', answered, -⟩ := healthy.answers ctx args s.shared
              exact ⟨_, t', answered⟩
          | _ => exact redis.elim
        · have permitted : command.IsStoreUpkeep ∨ command = .getrandom ∨
              command.IsAbort ∧ (rules i).aborts (s.phases i) := by
            have allowed := here.1
            cases command with
            | redisCommand => exact absurd trivial redis
            | _ => exact allowed
          rcases permitted with upkeep | rfl | ⟨-, aborts⟩
          · exact healthy.upkeep command s.shared upkeep
          · exact draws s.shared
          · exact absurd aborts safe
      obtain ⟨response, t', answered⟩ := answered
      exact ⟨_, _, Threads.step_of_answered program answered⟩

end HealthyStore

end CleanArchitecture
