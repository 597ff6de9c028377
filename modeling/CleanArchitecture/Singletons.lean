import CleanArchitecture.Backend
import CleanArchitecture.DoubleChecked
import CleanArchitecture.EnvFile

/-!
# The singletons

The use cases, the user database and the password hasher are made by the first request that
asks for them.  The connection pools are made before there are requests, and only read
afterwards.  Reads and writes of the pointers are taken to be atomic; the loggers, of which
every source file has its own, are left out.
-/

namespace CleanArchitecture

open Program Env

inductive Singleton
  | loginAuth
  | logoutAuth
  | userAuth
  | registerAuth
  | userDb
  | crypto
  | postgres
  | store
  deriving DecidableEq

/-! ## The parameters of the hasher -/

def defaultIterationCost : Bytes := ascii "2"

def defaultMemoryCost : Bytes := ascii "16348"

def defaultParallelism : Bytes := ascii "1"

def defaultHashLen : Bytes := ascii "32"

def defaultSecret : Bytes := ascii "super-secret-password"

/-- `std::stoul`, which converts the magnitude first and negates it within the type. -/
def stoul (s : Bytes) : Except StdException Nat :=
  let signed := splitSign (s.dropWhile isspace)
  let digits := signed.2.takeWhile isdigit
  if digits = [] then .error .invalidArgument
  else if 2 ^ 64 ≤ digitsValue digits then .error .outOfRange
  else .ok (toSizeT (if signed.1 then -(digitsValue digits) else digitsValue digits))

/-- A conversion by `std::stoul`, which throws, to `uint`, which wraps. -/
def uintVariable (env : ProcessEnv) (key : String) (default : Bytes) : Except StdException Nat := do
  let value ← stoul (getEnv env (ascii key) default)
  return value % 2 ^ 32

/-- `argon2_encodedlen` of the three costs and the lengths of the salt and of the hash. -/
abbrev EncodedLength : Type :=
  Nat → Nat → Nat → Nat → Nat → Nat

def mainCrypto (encodedlen : EncodedLength) (env : ProcessEnv) :
    Except StdException MainCrypto := do
  let salt := getEnv env (ascii "ARGONID_SECRET") defaultSecret
  let iterationCost ← uintVariable env "ARGONID_ITERATION_COST" defaultIterationCost
  let memoryCost ← uintVariable env "ARGONID_MEMORY_COST" defaultMemoryCost
  let parallelism ← uintVariable env "ARGONID_PARALLELISM" defaultParallelism
  let hashLen ← uintVariable env "ARGONID_HASH_LEN" defaultHashLen
  return {
    iterationCost, memoryCost, parallelism, hashLen, salt
    encodedLen := encodedlen iterationCost memoryCost parallelism salt.length hashLen }

/-! ## The functions that return them -/

namespace Singleton

open CellProgram

/-- A pointer that is tested and read again. -/
def getMade (cell : Singleton) : CellProgram Singleton (Option Nat) := do
  if (← load cell).isNone then return none
  else load cell

def getPostgres : CellProgram Singleton (Option Nat) := getMade .postgres

def getStore : CellProgram Singleton (Option Nat) := getMade .store

def getUserDb : CellProgram Singleton (Option Nat) :=
  firstUse .userDb do return [← getPostgres]

/-- An exception ends the process, since the callers are `noexcept`. -/
def getCrypto (encodedlen : EncodedLength) (env : ProcessEnv) :
    CellProgram Singleton (Option Nat) :=
  firstUse .crypto
    (match mainCrypto encodedlen env with
    | .ok _ => return []
    | .error _ => do
        let never ← perform CellCall.terminate
        never.elim)

/-- The compiler chooses which argument it evaluates first. -/
def loginArguments (storeFirst : Bool) : CellProgram Singleton (List (Option Nat)) :=
  if storeFirst then do
    let store ← getStore
    let userDb ← getUserDb
    return [userDb, store]
  else do
    let userDb ← getUserDb
    let store ← getStore
    return [userDb, store]

def getLoginAuth (storeFirst : Bool) : CellProgram Singleton (Option Nat) :=
  firstUse .loginAuth (loginArguments storeFirst)

def getLogoutAuth : CellProgram Singleton (Option Nat) :=
  firstUse .logoutAuth (return [])

def getUserAuth : CellProgram Singleton (Option Nat) :=
  firstUse .userAuth (return [])

def getRegisterAuth : CellProgram Singleton (Option Nat) :=
  firstUse .registerAuth do return [← getUserDb]

def get (encodedlen : EncodedLength) (env : ProcessEnv) (storeFirst : Bool) :
    Singleton → CellProgram Singleton (Option Nat)
  | .loginAuth => getLoginAuth storeFirst
  | .logoutAuth => getLogoutAuth
  | .userAuth => getUserAuth
  | .registerAuth => getRegisterAuth
  | .userDb => getUserDb
  | .crypto => getCrypto encodedlen env
  | .postgres => getPostgres
  | .store => getStore

/-- One use after the other. -/
def getAll (encodedlen : EncodedLength) (env : ProcessEnv) (storeFirst : Bool) :
    List Singleton → CellProgram Singleton (List (Option Nat))
  | [] => return []
  | cell :: cells => do
      let pointer ← get encodedlen env storeFirst cell
      let pointers ← getAll encodedlen env storeFirst cells
      return pointer :: pointers

/-! ## Their order -/

/-- What an object is made of is of a lower rank. -/
def rank : Singleton → Nat
  | .postgres => 0
  | .store => 0
  | .userDb => 1
  | .crypto => 1
  | _ => 2

def needs : Singleton → List Singleton
  | .loginAuth => [.userDb, .store]
  | .registerAuth => [.userDb]
  | .userDb => [.postgres]
  | _ => []

/-- The pools were made before the thread began. -/
structure Known (notes : Notes Singleton) : Prop where
  postgres : .postgres ∈ notes.filled
  store : .store ∈ notes.filled

theorem Known.mono {notes after : Notes Singleton} (known : Known notes)
    (filled : notes.filled ⊆ after.filled) : Known after :=
  ⟨filled known.postgres, filled known.store⟩

section Reaches

variable {notes : Notes Singleton} {cell : Singleton} {encodedlen : EncodedLength}
  {env : ProcessEnv} {parameters : MainCrypto}

/-- The function ends with a pointer of the cell, and the locks are as before. -/
abbrev Provided (cell : Singleton) (notes : Notes Singleton)
    (program : CellProgram Singleton (Option Nat)) : Prop :=
  Reaches rank needs (fun pointer after => notes.Extends after ∧ after.Names cell pointer) notes
    program

theorem reaches_getMade (below : Below rank cell notes) (filled : cell ∈ notes.filled) :
    Provided cell notes (getMade cell) := by
  apply (reaches_load below).bind
  rintro pointer after ⟨grown, -, some⟩
  cases pointer with
  | none => exact absurd rfl (some filled)
  | some address =>
      have still : Below rank cell after := by
        rw [Below, grown.held]
        exact below
      refine (reaches_load still).mono fun pointer last given => ?_
      obtain ⟨more, found, known⟩ := given
      exact ⟨grown.trans more, (found.resolve_left (known (grown.filled filled))).1⟩

theorem reaches_getPostgres (below : Below rank .postgres notes) (known : Known notes) :
    Provided .postgres notes getPostgres :=
  reaches_getMade below known.postgres

theorem reaches_getStore (below : Below rank .store notes) (known : Known notes) :
    Provided .store notes getStore :=
  reaches_getMade below known.store

/-- Locks of this rank or a higher one are above all lower cells. -/
theorem below_of_le {lower higher : Singleton} (order : rank lower < rank higher)
    (above : ∀ frame ∈ notes.held, rank higher ≤ rank frame.1) : Below rank lower notes :=
  fun frame member => order.trans_le (above frame member)

theorem reaches_getUserDb (below : Below rank .userDb notes) (known : Known notes) :
    Provided .userDb notes getUserDb := by
  apply reaches_firstUse below
  intro locked filled above
  apply (reaches_getPostgres (below_of_le (by decide) above) (known.mono filled)).bind
  rintro pointer after ⟨grown, named⟩
  exact reaches_pure ⟨grown, .cons named .nil⟩

theorem reaches_getRegisterAuth (below : Below rank .registerAuth notes) (known : Known notes) :
    Provided .registerAuth notes getRegisterAuth := by
  apply reaches_firstUse below
  intro locked filled above
  apply (reaches_getUserDb (below_of_le (by decide) above) (known.mono filled)).bind
  rintro pointer after ⟨grown, named⟩
  exact reaches_pure ⟨grown, .cons named .nil⟩

theorem reaches_getLoginAuth (storeFirst : Bool) (below : Below rank .loginAuth notes)
    (known : Known notes) : Provided .loginAuth notes (getLoginAuth storeFirst) := by
  apply reaches_firstUse below
  intro locked filled above
  have known := known.mono filled
  have belowUserDb : ∀ after, locked.Extends after → Below rank .userDb after := by
    intro after grown
    rw [Below, grown.held]
    exact below_of_le (by decide) above
  have belowStore : ∀ after, locked.Extends after → Below rank .store after := by
    intro after grown
    rw [Below, grown.held]
    exact below_of_le (by decide) above
  cases storeFirst with
  | true =>
      apply (reaches_getStore (belowStore _ (.refl _)) known).bind
      rintro store after ⟨grown, first⟩
      apply (reaches_getUserDb (belowUserDb _ grown) (known.mono grown.filled)).bind
      rintro userDb last ⟨more, second⟩
      exact reaches_pure ⟨grown.trans more, .cons second (.cons (first.mono more.seen) .nil)⟩
  | false =>
      apply (reaches_getUserDb (belowUserDb _ (.refl _)) known).bind
      rintro userDb after ⟨grown, first⟩
      apply (reaches_getStore (belowStore _ grown) (known.mono grown.filled)).bind
      rintro store last ⟨more, second⟩
      exact reaches_pure ⟨grown.trans more, .cons (first.mono more.seen) (.cons second .nil)⟩

theorem reaches_getCrypto (valid : mainCrypto encodedlen env = .ok parameters)
    (below : Below rank .crypto notes) : Provided .crypto notes (getCrypto encodedlen env) := by
  apply reaches_firstUse below
  intro locked filled above
  rw [valid]
  exact reaches_pure ⟨.refl locked, .nil⟩

theorem reaches_get (valid : mainCrypto encodedlen env = .ok parameters)
    (storeFirst : Bool) (below : Below rank cell notes) (known : Known notes) :
    Provided cell notes (get encodedlen env storeFirst cell) := by
  cases cell with
  | loginAuth => exact reaches_getLoginAuth storeFirst below known
  | logoutAuth => exact reaches_firstUse below fun locked _ _ => reaches_pure ⟨.refl locked, .nil⟩
  | userAuth => exact reaches_firstUse below fun locked _ _ => reaches_pure ⟨.refl locked, .nil⟩
  | registerAuth => exact reaches_getRegisterAuth below known
  | userDb => exact reaches_getUserDb below known
  | crypto => exact reaches_getCrypto valid below
  | postgres => exact reaches_getPostgres below known
  | store => exact reaches_getStore below known

theorem reaches_getAll (valid : mainCrypto encodedlen env = .ok parameters)
    (storeFirst : Bool) (free : notes.held = []) (known : Known notes) (cells : List Singleton) :
    Reaches rank needs (fun pointers after => notes.Extends after ∧
      List.Forall₂ after.Names cells pointers) notes (getAll encodedlen env storeFirst cells) := by
  induction cells generalizing notes with
  | nil => exact reaches_pure ⟨.refl notes, .nil⟩
  | cons cell cells ih =>
      have below : Below rank cell notes := by
        rw [Below, free]
        rintro frame ⟨⟩
      apply (reaches_get valid storeFirst below known).bind
      rintro pointer after ⟨grown, named⟩
      apply (ih (grown.held.trans free) (known.mono grown.filled)).bind
      rintro pointers last ⟨more, others⟩
      exact reaches_pure ⟨grown.trans more, .cons (named.mono more.seen) others⟩

end Reaches

/-! ## How many calls they make -/

section Bounds

variable {encodedlen : EncodedLength} {env : ProcessEnv}

theorem callsAtMost_getMade (cell : Singleton) : CallsAtMost 2 (getMade cell) := by
  change CallsAtMost (1 + 1) (getMade cell)
  refine (callsAtMost_perform (CellCall.load cell)).bind fun pointer => ?_
  split
  · exact callsAtMost_pure 1 none
  · exact callsAtMost_perform _

theorem callsAtMost_getUserDb : CallsAtMost 8 getUserDb :=
  callsAtMost_firstUse ((callsAtMost_getMade _).bind fun _ => callsAtMost_pure 0 _)

theorem callsAtMost_getLoginAuth (storeFirst : Bool) :
    CallsAtMost 16 (getLoginAuth storeFirst) := by
  have arguments : CallsAtMost 10 (loginArguments storeFirst) := by
    cases storeFirst with
    | true =>
        exact (callsAtMost_getMade _).bind fun _ =>
          callsAtMost_getUserDb.bind fun _ => callsAtMost_pure 0 _
    | false =>
        exact callsAtMost_getUserDb.bind fun _ =>
          (callsAtMost_getMade _).bind fun _ => callsAtMost_pure 0 _
  exact callsAtMost_firstUse arguments

theorem callsAtMost_getCrypto : CallsAtMost 7 (getCrypto encodedlen env) := by
  apply callsAtMost_firstUse
  split
  · exact callsAtMost_pure 1 _
  · exact fun never => never.elim

theorem callsAtMost_get (storeFirst : Bool) (cell : Singleton) :
    CallsAtMost 16 (get encodedlen env storeFirst cell) := by
  cases cell with
  | loginAuth => exact callsAtMost_getLoginAuth storeFirst
  | logoutAuth => exact (callsAtMost_firstUse (callsAtMost_pure 0 _)).mono (by decide)
  | userAuth => exact (callsAtMost_firstUse (callsAtMost_pure 0 _)).mono (by decide)
  | registerAuth =>
      have made : CallsAtMost (8 + 0 + 6) getRegisterAuth :=
        callsAtMost_firstUse (callsAtMost_getUserDb.bind fun _ => callsAtMost_pure 0 _)
      exact made.mono (by decide)
  | userDb => exact callsAtMost_getUserDb.mono (by decide)
  | crypto => exact callsAtMost_getCrypto.mono (by decide)
  | postgres => exact (callsAtMost_getMade _).mono (by decide)
  | store => exact (callsAtMost_getMade _).mono (by decide)

theorem callsAtMost_getAll (storeFirst : Bool) (cells : List Singleton) :
    CallsAtMost (16 * cells.length) (getAll encodedlen env storeFirst cells) := by
  induction cells with
  | nil => exact callsAtMost_pure 0 _
  | cons cell cells ih =>
      have whole : CallsAtMost (16 + (16 * cells.length + 0))
          (getAll encodedlen env storeFirst (cell :: cells)) :=
        (callsAtMost_get storeFirst cell).bind fun _ => ih.bind fun _ => callsAtMost_pure 0 _
      exact whole.mono (by rw [List.length_cons]; omega)

end Bounds

/-! ## Threads -/

/-- The memory before the first request: the pools are made, and nothing else is. -/
structure Started (m : CellMemory Singleton) : Prop where
  postgres : (m.pointer .postgres).isSome
  store : (m.pointer .store).isSome
  empty : ∀ cell, cell ≠ .postgres → cell ≠ .store → m.pointer cell = none
  unlocked : ∀ cell, m.locked cell = false
  made : m.made = []

/-- All a thread knows at first is that the pools are made. -/
def initialNotes : Notes Singleton where
  filled := [.postgres, .store]

theorem known_initialNotes : Known initialNotes :=
  ⟨by decide, by decide⟩

theorem Started.sound {ι : Type} {m : CellMemory Singleton} (started : Started m) :
    m.Sound rank needs fun _ : ι => initialNotes where
  holds _ :=
    { seen := by rintro cell address ⟨⟩
      filled := by
        rintro cell (_ | ⟨_, _ | ⟨_, ⟨⟩⟩⟩)
        · exact started.postgres
        · exact started.store
      empty := by rintro cell ⟨⟩
      order := .nil }
  locked cell := by simp [started.unlocked, initialNotes, Notes.cells]
  alone := by rintro i j cell ⟨⟩
  once := by simp [started.made]
  filled := by simp [started.made]
  wired := by simp [started.made]

section Threads

variable {ι : Type} {encodedlen : EncodedLength} {env : ProcessEnv} {parameters : MainCrypto}
  {storeFirst : Bool} {uses : ι → List Singleton} {start : CellMemory Singleton}

/-- Threads that use some singletons each. -/
def singletonThreads (encodedlen : EncodedLength) (env : ProcessEnv) (storeFirst : Bool)
    (uses : ι → List Singleton) (start : CellMemory Singleton) :
    Threads (CellCall Singleton) CellCall.Response (List (Option Nat)) (Option (Notes Singleton))
      (CellMemory Singleton) ι where
  programs i := getAll encodedlen env storeFirst (uses i)
  phases _ := some initialNotes
  shared := start

/-- A thread ends without locks, and with pointers that it has seen in the cells it used. -/
def Served (uses : ι → List Singleton) (i : ι) (pointers : List (Option Nat))
    (after : Notes Singleton) : Prop :=
  after.held = [] ∧ List.Forall₂ after.Names (uses i) pointers

theorem follow_singletonThreads (valid : mainCrypto encodedlen env = .ok parameters) :
    (singletonThreads encodedlen env storeFirst uses start).Follow
      (fun _ => firstUseProtocol rank needs)
      fun i pointers phase => ∀ after ∈ phase, Served uses i pointers after := by
  intro i
  refine (reaches_getAll valid storeFirst rfl known_initialNotes (uses i)).mono ?_
  rintro pointers after ⟨grown, named⟩
  exact ⟨grown.held, named⟩

/-- The pointers that a thread has seen are still there, and none of them is null. -/
theorem eq_map_pointer {m : CellMemory Singleton} {notes : Notes Singleton}
    (holds : notes.Holds rank m) {cells : List Singleton} {pointers : List (Option Nat)}
    (named : List.Forall₂ notes.Names cells pointers) :
    pointers = cells.map m.pointer ∧ ∀ cell ∈ cells, (m.pointer cell).isSome := by
  induction named with
  | nil => exact ⟨rfl, by rintro cell ⟨⟩⟩
  | cons names _ ih =>
      obtain ⟨address, rfl, member⟩ := names
      have found := holds.seen _ address member
      refine ⟨by rw [List.map_cons, found, ih.1], ?_⟩
      rintro cell (_ | ⟨_, listed⟩)
      · rw [found]
        rfl
      · exact ih.2 cell listed

variable [Fintype ι] [DecidableEq ι]

/-- Threads that use the singletons in any interleaving, when the pools are there and the
costs of the hash parse, make a bounded number of calls, and as long as one of them has not
finished one of them can go on.  A finished thread has got the pointers that every thread gets,
none of them null, and each object that it asked for was made.  No object is made twice, and
each is made with the pointers that every thread gets. -/
theorem singletons_made_once (valid : mainCrypto encodedlen env = .ok parameters)
    (started : Started start) {schedule : List ι}
    {turns : List (Turn (CellCall Singleton) CellCall.Response (List (Option Nat))
      (Option (Notes Singleton)) (CellMemory Singleton) ι)}
    {last : Threads (CellCall Singleton) CellCall.Response (List (Option Nat))
      (Option (Notes Singleton)) (CellMemory Singleton) ι}
    (ran : (interleaving (fun _ => firstUseProtocol rank needs) CellMemory.handler).run
      (singletonThreads encodedlen env storeFirst uses start) schedule = .ok (last, turns)) :
    schedule.length ≤ ∑ i, 16 * (uses i).length ∧
      ((∀ i, ∃ pointers, last.programs i = .done pointers) ∨
        ∃ i next, (interleaving (fun _ => firstUseProtocol rank needs) CellMemory.handler).step
          last i = .ok next) ∧
      (∀ i pointers, last.programs i = .done pointers →
        pointers = (uses i).map last.shared.pointer ∧ none ∉ pointers ∧
          ∀ cell ∈ uses i, cell ≠ .postgres → cell ≠ .store →
            (last.shared.made.map Prod.fst).count cell = 1) ∧
      (last.shared.made.map Prod.fst).Nodup ∧
      ∀ object ∈ last.shared.made, none ∉ object.2 ∧
        object.2 = (needs object.1).map last.shared.pointer := by
  have follows : (singletonThreads encodedlen env storeFirst uses start).Follow
      (fun _ => firstUseProtocol rank needs)
      fun i pointers phase => ∀ after ∈ phase, Served uses i pointers after :=
    follow_singletonThreads valid
  obtain ⟨follow, notes, phases, sound⟩ :=
    sound_of_run follows ⟨fun _ => initialNotes, rfl, started.sound⟩ ran
  refine ⟨Threads.length_le_of_run (fun i => callsAtMost_getAll storeFirst (uses i)) ran, ?_, ?_,
    sound.once, ?_⟩
  · refine or_iff_not_imp_left.mpr fun unfinished => ?_
    apply exists_turn_of_unfinished follow (fun i pointers after served => served.1)
      ⟨notes, phases, sound⟩
    by_contra finished
    push Not at finished
    exact unfinished finished
  · intro i pointers done
    have served : Served uses i pointers (notes i) := by
      apply follow.post_of_done done
      rw [phases]
      rfl
    obtain ⟨same, filled⟩ := eq_map_pointer (sound.holds i) served.2
    refine ⟨same, ?_, fun cell member notPostgres notStore => ?_⟩
    · rw [same, List.mem_map]
      rintro ⟨cell, member, null⟩
      have some := filled cell member
      rw [null] at some
      cases some
    · apply List.count_eq_one_of_mem sound.once
      refine (made_of_filled follows ran cell (filled cell member)).resolve_left fun already => ?_
      rw [singletonThreads, started.empty cell notPostgres notStore] at already
      cases already
  · exact fun object member => sound.eq_map member

/-! ## Two threads -/

def sampleUses : Bool → List Singleton
  | false => [.registerAuth, .loginAuth]
  | true => [.loginAuth, .crypto]

/-- The two pools are at the first addresses. -/
def sampleMemory : CellMemory Singleton where
  pointer
    | .postgres => some 1
    | .store => some 2
    | _ => none
  locked _ := false
  next := 3
  made := []

def sampleSchedule : List Bool :=
  [false, true, false, true, false, true, false, true, false, true, false, true, false, false,
    false, false, true, false, true, false, true, false, true, false, true, false, true, false,
    true, true, true, true, true, true, true]

/-- Base64 without padding, the costs in decimal, and the 26 other bytes of an encoded hash. -/
def sampleEncodedlen : EncodedLength := fun iterationCost memoryCost parallelism salt hash =>
  26 + (decimal iterationCost).length + (decimal memoryCost).length +
    (decimal parallelism).length + (4 * salt + 2) / 3 + (4 * hash + 2) / 3

/-- Both threads find the login use case missing, and both get the one that was made. -/
theorem singletons_made_once_sample : ∃ last turns,
    (interleaving (fun _ => firstUseProtocol rank needs) CellMemory.handler).run
      (singletonThreads sampleEncodedlen emptyEnv true sampleUses sampleMemory) sampleSchedule =
        .ok (last, turns) ∧
      (last.shared.made.map Prod.fst).count .loginAuth = 1 ∧
      last.programs true = .done ([.loginAuth, .crypto].map last.shared.pointer) := by
  have ran : ((interleaving (fun _ => firstUseProtocol rank needs) CellMemory.handler).run
      (singletonThreads sampleEncodedlen emptyEnv true sampleUses sampleMemory) sampleSchedule).map
      (fun ended => (ended.1.programs true).result?.isSome) = .ok true := by
    decide +kernel
  obtain ⟨last, turns, ended, finished⟩ := EventMachine.exists_of_view ran
  have valid : mainCrypto sampleEncodedlen emptyEnv =
      .ok { iterationCost := 2, memoryCost := 16348, parallelism := 1, hashLen := 32,
            salt := defaultSecret, encodedLen := 104 } := by
    rfl
  have started : Started sampleMemory := by
    refine ⟨rfl, rfl, fun cell notPostgres notStore => ?_, fun _ => rfl, rfl⟩
    cases cell <;> first | rfl | exact absurd rfl notPostgres | exact absurd rfl notStore
  obtain ⟨pointers, done⟩ := Option.isSome_iff_exists.mp finished
  have answered := result?_eq_some.mp done
  obtain ⟨-, -, served, -⟩ := singletons_made_once valid started ended
  obtain ⟨same, -, made⟩ := served true pointers answered
  refine ⟨last, turns, ended, made .loginAuth (by decide) (by decide) (by decide), ?_⟩
  rw [answered, same]
  rfl

end Threads

end Singleton

end CleanArchitecture
