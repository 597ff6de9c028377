import CleanArchitecture.SampleWorld
import CleanArchitecture.StoreProtocol

/-!
# Logins at the same time

A login draws session ids until one has no key, and then writes its user under the
chosen key.  Between the two another login may choose the same key.  As long as
that does not happen, every id stays with its own call.
-/

namespace CleanArchitecture

open Program Backend WrapperRequest

/-! ## The phases of a login -/

inductive LoginPhase
  | drawing
  | chosen (key : Bytes)
  | stored (key : Bytes)
  deriving DecidableEq

def LoginPhase.key : LoginPhase → Option Bytes
  | .drawing => none
  | .chosen key => some key
  | .stored key => some key

/-- A key that counts none is chosen; the user's data is written under the chosen key
alone. -/
def loginRules (data : Bytes) : StoreRules LoginPhase where
  allows
    | .drawing, args => ∃ key, args = [ascii "EXISTS", key]
    | .chosen key, args => args = [ascii "SET", key, data]
    | .stored _, _ => False
  aborts _ := True
  next
    | .drawing, [_, key], reply =>
        if reply.any RedisReply.counts then .drawing else .chosen key
    | .chosen key, _, _ => .stored key
    | phase, _, _ => phase

theorem follows_getNewSessionIdImpl (data : Bytes) (rounds : Nat) (ex : Exchange) :
    Follows (loginRules data).protocol
      (fun drawn reached => Spelt drawn.1 ∧ drawn.2 = ex.withSession drawn.1 ∧
        reached = .chosen (storeKey drawn.1))
      .drawing (getNewSessionIdImpl rounds ex) := by
  induction rounds generalizing ex with
  | zero => exact ⟨.inr (.inr ⟨trivial, trivial⟩), fun response => response.elim⟩
  | succ rounds ih =>
      refine StoreRules.follows_getrandom.bind fun buffer _ same => ?_
      obtain rfl := same
      rw [getSessionKey_of_session (spellId_ne_nil buffer)]
      have tested : Follows (loginRules data).protocol
          (fun taken reached =>
            reached = if taken then .drawing else .chosen (storeKey (spellId buffer))) .drawing
          (IStore.exists (sessionPrefix ++ spellId buffer)) :=
        StoreRules.follows_countPositive ⟨_, rfl⟩ trivial fun reply => rfl
      refine tested.bind fun taken reached next => ?_
      cases taken with
      | true =>
          obtain rfl : reached = .drawing := next
          exact (ih _).mono fun _ _ outcome => outcome
      | false => exact follows_pure ⟨⟨buffer, rfl⟩, rfl, next⟩

/-- A login ends with its user's data written under the key of its id. -/
theorem follows_setSessionUserImpl (libraries : Libraries) (rounds : Nat) (user : User)
    (ex : Exchange) :
    Follows (loginRules (libraries.createUser user.id user.username)).protocol
      (fun set reached => Spelt set.2.req.sessionId ∧
        reached = .stored (storeKey set.2.req.sessionId))
      .drawing (setSessionUserImpl libraries rounds user ex) := by
  refine (follows_getNewSessionIdImpl _ rounds ex).bind fun (sid, renewed) _ outcome => ?_
  obtain ⟨spelt, same, rfl⟩ := outcome
  obtain rfl : renewed = ex.withSession sid := same
  have nonempty : (ex.withSession sid).req.sessionId ≠ [] := spelt.ne_nil
  simp only [getSessionKey_of_session nonempty]
  have written : Follows (loginRules (libraries.createUser user.id user.username)).protocol
      (fun _ reached => reached = .stored (storeKey sid)) (.chosen (storeKey sid))
      (IStore.setByteArray (sessionPrefix ++ sid) (libraries.createUser user.id user.username)) :=
    StoreRules.follows_setValue rfl trivial fun done reply => rfl
  exact written.bind fun done reached stored => follows_pure ⟨spelt, stored⟩

/-! ## Logins that do not clash -/

section Logins

variable {σ ι : Type} [DecidableEq ι] {h : BackendHandler σ} {view : σ → StoreMap}

/-- The logins of the users, each with its own exchange, in a state of the environment. -/
def logins (libraries : Libraries) (rounds : Nat) (users : ι → User) (exchanges : ι → Exchange)
    (start : σ) : Threads Command Command.Response (Option Log × Exchange) LoginPhase σ ι where
  programs i := setSessionUserImpl libraries rounds (users i) (exchanges i)
  phases _ := .drawing
  shared := start

/-- When a login finds its key absent, no other login has found the same key absent
and is still to write it. -/
def NoClash (view : σ → StoreMap)
    (turn : Turn Command Command.Response (Option Log × Exchange) LoginPhase σ ι) : Prop :=
  ∀ ctx key, turn.command = .redisCommand ctx [ascii "EXISTS", key] →
    view turn.before.shared key = none →
      ∀ j, j ≠ turn.thread → turn.before.phases j ≠ .chosen key

/-- Stored keys hold the data of their logins, and no two logins have the same key. -/
structure KeysApart (data : ι → Bytes) (phases : ι → LoginPhase) (m : StoreMap) : Prop where
  holds : ∀ i key, phases i = .stored key → m key = some (data i)
  apart : ∀ i j key, (phases i).key = some key → (phases j).key = some key → i = j

omit [DecidableEq ι] in
theorem keysApart_drawing (data : ι → Bytes) (m : StoreMap) :
    KeysApart data (fun _ => .drawing) m := by
  constructor
  · intro i key stored
    cases stored
  · intro i j key claimed
    cases claimed

omit [DecidableEq ι] in
/-- A key that is absent belongs to no login but one that has chosen it. -/
theorem KeysApart.chosen_of_absent {data : ι → Bytes} {phases : ι → LoginPhase} {m : StoreMap}
    (keys : KeysApart data phases m) {j : ι} {key : Bytes} (absent : m key = none)
    (claimed : (phases j).key = some key) : phases j = .chosen key := by
  cases phase : phases j with
  | drawing =>
      rw [phase] at claimed
      cases claimed
  | chosen chosenKey =>
      rw [phase] at claimed
      cases claimed
      rfl
  | stored storedKey =>
      rw [phase] at claimed
      cases claimed
      have held := keys.holds j key phase
      rw [absent] at held
      cases held

theorem KeysApart.choose {data : ι → Bytes} {phases : ι → LoginPhase} {m : StoreMap}
    (keys : KeysApart data phases m) (i : ι) {key : Bytes} (absent : m key = none)
    (unclaimed : ∀ j, j ≠ i → phases j ≠ .chosen key) :
    KeysApart data (Function.update phases i (.chosen key)) m := by
  have free : ∀ j, j ≠ i → (phases j).key ≠ some key :=
    fun j other claimed => unclaimed j other (keys.chosen_of_absent absent claimed)
  constructor
  · apply (Function.forall_update_iff phases fun j phase =>
      ∀ stored, phase = .stored stored → m stored = some (data j)).mpr
    constructor
    · rintro stored ⟨⟩
    · exact fun j _ => keys.holds j
  · intro j k claimed first second
    by_cases here : j = i
    · by_cases there : k = i
      · rw [here, there]
      · subst here
        rw [Function.update_self] at first
        rw [Function.update_of_ne there] at second
        cases first
        exact absurd second (free k there)
    · by_cases there : k = i
      · subst there
        rw [Function.update_self] at second
        rw [Function.update_of_ne here] at first
        cases second
        exact absurd first (free j here)
      · rw [Function.update_of_ne here] at first
        rw [Function.update_of_ne there] at second
        exact keys.apart j k claimed first second

theorem KeysApart.store {data : ι → Bytes} {phases : ι → LoginPhase} {m : StoreMap}
    (keys : KeysApart data phases m) {i : ι} {key : Bytes} (chosen : phases i = .chosen key) :
    KeysApart data (Function.update phases i (.stored key))
      (Function.update m key (some (data i))) := by
  have kept : ∀ j, (Function.update phases i (.stored key) j).key = (phases j).key := by
    intro j
    by_cases same : j = i
    · subst same
      rw [Function.update_self, chosen]
      rfl
    · rw [Function.update_of_ne same]
  constructor
  · intro j stored there
    by_cases same : j = i
    · subst same
      rw [Function.update_self] at there
      cases there
      exact Function.update_self ..
    · rw [Function.update_of_ne same] at there
      rw [Function.update_of_ne, keys.holds j stored there]
      rintro rfl
      exact same (keys.apart j i stored (by rw [there]; rfl) (by rw [chosen]; rfl))
  · intro j k claimed first second
    rw [kept] at first second
    exact keys.apart j k claimed first second

/-- A command of a login that does not clash keeps the keys apart. -/
theorem KeysApart.step {data : ι → Bytes}
    {s : Threads Command Command.Response (Option Log × Exchange) LoginPhase σ ι} {i : ι} {ctx : Nat}
    {args : List Bytes} (handle : Nat) (allowed : (loginRules (data i)).allows (s.phases i) args)
    (noClash : NoClash view { thread := i, command := .redisCommand ctx args, before := s })
    (keys : KeysApart data s.phases (view s.shared)) :
    KeysApart data
      (Function.update s.phases i ((loginRules (data i)).next (s.phases i) args
        (some { redisReply args (view s.shared) with handle := handle })))
      (redisMap args (view s.shared)) := by
  cases phase : s.phases i with
  | drawing =>
      rw [phase] at allowed
      obtain ⟨key, rfl⟩ := allowed
      rw [redisMap_exists, redisReply_exists]
      cases found : view s.shared key with
      | some value =>
          have stays : Function.update s.phases i .drawing = s.phases := by
            rw [← phase, Function.update_eq_self]
          change KeysApart data (Function.update s.phases i .drawing) _
          rw [stays]
          exact keys
      | none =>
          exact keys.choose i found (noClash ctx key rfl found)
  | chosen key =>
      rw [phase] at allowed
      obtain rfl : args = [ascii "SET", key, data i] := allowed
      rw [redisMap_set]
      exact keys.store phase
  | stored key =>
      rw [phase] at allowed
      exact allowed.elim

/-- Logins at the same time.  In every interleaving in which no two logins clash, the
session ids of the finished logins are pairwise distinct and each id's key holds the
user of its own login. -/
theorem HealthyStore.concurrent_logins (healthy : HealthyStore h view) {libraries : Libraries}
    {rounds : Nat} {users : ι → User} {exchanges : ι → Exchange} {start : σ} {schedule : List ι}
    {turns : List (Turn Command Command.Response (Option Log × Exchange) LoginPhase σ ι)}
    {last : Threads Command Command.Response (Option Log × Exchange) LoginPhase σ ι}
    (ran : (interleaving
        (fun i => (loginRules (libraries.createUser (users i).id (users i).username)).protocol) h).run
      (logins libraries rounds users exchanges start) schedule = .ok (last, turns))
    (noClash : ∀ turn ∈ turns, NoClash view turn) :
    (∀ i j first second, last.programs i = .done first → last.programs j = .done second →
        first.2.req.sessionId = second.2.req.sessionId → i = j) ∧
      ∀ i result, last.programs i = .done result →
        view last.shared (storeKey result.2.req.sessionId) =
          some (libraries.createUser (users i).id (users i).username) := by
  obtain ⟨follow, keys⟩ := healthy.invariant_of_interleaving
    (KeysApart fun i => libraries.createUser (users i).id (users i).username) (NoClash view)
    (fun s i ctx args handle allowed condition keys => keys.step handle allowed condition)
    (fun i => follows_setSessionUserImpl libraries rounds (users i) (exchanges i))
    (keysApart_drawing _ _) ran noClash
  constructor
  · intro i j first second finished finished' same
    have stored := (follow.post_of_done finished).2
    have stored' := (follow.post_of_done finished').2
    apply keys.apart i j (storeKey first.2.req.sessionId)
    · rw [stored]
      rfl
    · rw [stored', same]
      rfl
  · intro i result finished
    exact keys.holds i _ (follow.post_of_done finished).2

end Logins

/-! ## Two logins -/

def sampleUsers : Bool → User
  | false => { id := ascii "1", username := ascii "username1" }
  | true => { id := ascii "2", username := ascii "username2" }

/-- Two logins in a world. -/
def sampleLogins (w : World) :
    Threads Command Command.Response (Option Log × Exchange) LoginPhase World Bool :=
  logins sampleLibraries 2 sampleUsers (fun _ => {}) w

/-- Their interleavings. -/
def sampleInterleaving : EventMachine
    (Threads Command Command.Response (Option Log × Exchange) LoginPhase World Bool) Bool
    (Turn Command Command.Response (Option Log × Exchange) LoginPhase World Bool) Unit :=
  interleaving (fun i => (loginRules (sampleLibraries.createUser (sampleUsers i).id
    (sampleUsers i).username)).protocol) (World.handler sampleEnvironment)

/-- Whether the other login has chosen the key that is tested in a turn. -/
def testsChosen
    (turn : Turn Command Command.Response (Option Log × Exchange) LoginPhase World Bool) : Bool :=
  match turn.command with
  | .redisCommand _ [_, key] => turn.before.phases (!turn.thread) = .chosen key
  | _ => false

/-- Both logins take their turns one after the other, command by command. -/
def alternating : List Bool :=
  (List.replicate 13 [false, true]).flatten

/-- The session ids of both logins and the data under the first login's key. -/
def sampleOutcome (last : Threads Command Command.Response (Option Log × Exchange) LoginPhase World
    Bool) : Option (Bytes × Bytes × Option Bytes) := do
  let first ← (last.programs false).result?
  let second ← (last.programs true).result?
  return (first.2.req.sessionId, second.2.req.sessionId,
    last.shared.store (storeKey first.2.req.sessionId))

theorem noClash_of_testsChosen {view : World → StoreMap}
    {turn : Turn Command Command.Response (Option Log × Exchange) LoginPhase World Bool}
    (clear : testsChosen turn = false) : NoClash view turn := by
  intro ctx key tested _ j other
  rw [testsChosen, tested] at clear
  rw [Bool.eq_not.mpr other]
  exact of_decide_eq_false clear

theorem of_sampleOutcome {last : Threads Command Command.Response (Option Log × Exchange) LoginPhase
    World Bool} {sid other : Bytes} {data : Option Bytes}
    (outcome : sampleOutcome last = some (sid, other, data)) :
    ∃ first second, last.programs false = .done first ∧ last.programs true = .done second ∧
      first.2.req.sessionId = sid ∧ second.2.req.sessionId = other ∧
      last.shared.store (storeKey sid) = data := by
  obtain ⟨first, finished, rest⟩ := Option.bind_eq_some_iff.mp outcome
  obtain ⟨second, finished', rest⟩ := Option.bind_eq_some_iff.mp rest
  cases rest
  exact ⟨first, second, result?_eq_some.mp finished, result?_eq_some.mp finished', rfl, rfl, rfl⟩

/-- Two logins that draw different ids. -/
theorem concurrent_logins_sample : ∃ last turns first second,
    sampleInterleaving.run (sampleLogins (sampleWorld [])) alternating = .ok (last, turns) ∧
      last.programs false = .done first ∧ last.programs true = .done second ∧
      first.2.req.sessionId ≠ second.2.req.sessionId ∧
      last.shared.store (storeKey first.2.req.sessionId) =
        some (sampleLibraries.createUser (ascii "1") (ascii "username1")) ∧
      last.shared.store (storeKey second.2.req.sessionId) =
        some (sampleLibraries.createUser (ascii "2") (ascii "username2")) := by
  have ran : (sampleInterleaving.run (sampleLogins (sampleWorld [])) alternating).map
      (fun ended => ended.2.all (fun turn => !testsChosen turn) && decide (sampleOutcome ended.1 =
        some (spellId fun _ => 0, spellId fun _ => 1,
          some (SampleWorld.writeUser (ascii "1") (ascii "username1"))))) = .ok true := by
    decide +kernel
  obtain ⟨last, turns, ended, seen⟩ := EventMachine.exists_of_view ran
  obtain ⟨clear, outcome⟩ := Bool.and_eq_true_iff.mp seen
  obtain ⟨first, second, finished, finished', -, -, -⟩ :=
    of_sampleOutcome (of_decide_eq_true outcome)
  obtain ⟨distinct, held⟩ := (World.healthy sampleEnvironment).concurrent_logins ended
    fun turn member => noClash_of_testsChosen (by simpa using List.all_eq_true.mp clear turn member)
  refine ⟨last, turns, first, second, ended, finished, finished', fun same => ?_,
    held false first finished, held true second finished'⟩
  exact absurd (distinct false true first second finished finished' same) Bool.false_ne_true

/-- Two logins that draw the same id test it before either writes it: they share it,
and it holds the user of the second one. -/
theorem logins_share_session : ∃ last turns first second,
    sampleInterleaving.run (sampleLogins { sampleWorld [] with draws := fun _ _ => 0 }) alternating =
        .ok (last, turns) ∧
      last.programs false = .done first ∧ last.programs true = .done second ∧
      first.2.req.sessionId = second.2.req.sessionId ∧
      last.shared.store (storeKey first.2.req.sessionId) =
        some (sampleLibraries.createUser (ascii "2") (ascii "username2")) ∧
      last.shared.store (storeKey first.2.req.sessionId) ≠
        some (sampleLibraries.createUser (ascii "1") (ascii "username1")) := by
  have ran : (sampleInterleaving.run (sampleLogins { sampleWorld [] with draws := fun _ _ => 0 })
      alternating).map (fun ended => sampleOutcome ended.1) =
        .ok (some (spellId fun _ => 0, spellId fun _ => 0,
          some (SampleWorld.writeUser (ascii "2") (ascii "username2")))) := by
    decide +kernel
  obtain ⟨last, turns, ended, outcome⟩ := EventMachine.exists_of_view ran
  obtain ⟨first, second, finished, finished', sid, other, held⟩ := of_sampleOutcome outcome
  refine ⟨last, turns, first, second, ended, finished, finished', sid.trans other.symm, ?_, ?_⟩
  · rw [sid, held]
    rfl
  · rw [sid, held]
    decide +kernel

end CleanArchitecture
