import CleanArchitecture.RedisStore
import CleanArchitecture.SampleWorld
import Mathlib.Data.Set.Function

/-!
# The store as a map

Integers are stored as their decimal text, strings as C strings and byte arrays as they
are.  Keys are C strings too.  As long as no two keys are the same C string and no string
has a NUL, the store answers as a map from keys to typed values does.
-/

namespace CleanArchitecture

open Program Backend

/-! ## The typed operations -/

/-- `utils::string::to_int32`; the store names itself in the log of a failure. -/
def StringUtils.toInt32 (text function : Bytes) : Except Log Int32 :=
  match stoi text with
  | .ok n => .ok (Int32.ofInt n)
  | .error _ =>
      .error
        { msg := ascii "Could not parse to int32"
          file := ascii "interfaces/store/redis.cpp"
          function := function }

/-- `utils::string::to_int64`. -/
def StringUtils.toInt64 (text function : Bytes) : Except Log Int64 :=
  match stoll text with
  | .ok n => .ok (Int64.ofInt n)
  | .error _ =>
      .error
        { msg := ascii "Could not parse to int64"
          file := ascii "interfaces/store/redis.cpp"
          function := function }

namespace RedisStore

def getInt32Impl (key : Bytes) : Backend (Except Log (Option Int32)) :=
  let function := ascii "RedisStore::get_int32_impl(const char*)"
  getValue (fun str => StringUtils.toInt32 (cStr str) function) function key

def getInt64Impl (key : Bytes) : Backend (Except Log (Option Int64)) :=
  let function := ascii "RedisStore::get_int64_impl(const char*)"
  getValue (fun str => StringUtils.toInt64 (cStr str) function) function key

/-- The log of a failed `GET` names `get_double_impl`. -/
def getStringImpl (key : Bytes) : Backend (Except Log (Option Bytes)) :=
  getValue (fun str => .ok (cStr str)) (ascii "RedisStore::get_double_impl(const char*)") key

def setIntImpl (key : Bytes) (value : Int32) : Backend Bool :=
  setValue key (toString value.toInt)

def setInt64Impl (key : Bytes) (value : Int64) : Backend Bool :=
  setValue key (toString value.toInt)

def setStringImpl (key value : Bytes) : Backend Bool :=
  setValue key value

end RedisStore

namespace IStore

def getInt32 (key : Bytes) : Backend (Except Log (Option Int32)) :=
  RedisStore.getInt32Impl (cStr key)

def getInt64 (key : Bytes) : Backend (Except Log (Option Int64)) :=
  RedisStore.getInt64Impl (cStr key)

def getString (key : Bytes) : Backend (Except Log (Option Bytes)) :=
  RedisStore.getStringImpl (cStr key)

def setInt (key : Bytes) (value : Int32) : Backend Bool :=
  RedisStore.setIntImpl (cStr key) value

def setInt64 (key : Bytes) (value : Int64) : Backend Bool :=
  RedisStore.setInt64Impl (cStr key) value

/-- The string is passed as `val.c_str()`. -/
def setString (key value : Bytes) : Backend Bool :=
  RedisStore.setStringImpl (cStr key) (cStr value)

end IStore

/-! ## Sequences of operations -/

inductive StoreValue
  | int32 (value : Int32)
  | int64 (value : Int64)
  | string (value : Bytes)
  | byteArray (value : Bytes)
  deriving DecidableEq

inductive StoreType
  | int32
  | int64
  | string
  | byteArray
  deriving DecidableEq

def StoreValue.type : StoreValue → StoreType
  | .int32 _ => .int32
  | .int64 _ => .int64
  | .string _ => .string
  | .byteArray _ => .byteArray

inductive StoreOperation
  | set (key : Bytes) (value : StoreValue)
  | get (key : Bytes) (type : StoreType)
  | exists (key : Bytes)
  | del (key : Bytes)
  deriving DecidableEq

inductive StoreAnswer
  | done (set : Bool)
  | value (found : Except Log (Option StoreValue))
  | truth (holds : Bool)
  deriving DecidableEq

namespace StoreOperation

def key : StoreOperation → Bytes
  | .set key _ => key
  | .get key _ => key
  | .exists key => key
  | .del key => key

/-- The call of the interface. -/
def call : StoreOperation → Backend StoreAnswer
  | .set key (.int32 value) => return .done (← IStore.setInt key value)
  | .set key (.int64 value) => return .done (← IStore.setInt64 key value)
  | .set key (.string value) => return .done (← IStore.setString key value)
  | .set key (.byteArray value) => return .done (← IStore.setByteArray key value)
  | .get key .int32 => return .value ((← IStore.getInt32 key).map (Option.map .int32))
  | .get key .int64 => return .value ((← IStore.getInt64 key).map (Option.map .int64))
  | .get key .string => return .value ((← IStore.getString key).map (Option.map .string))
  | .get key .byteArray => return .value ((← IStore.getByteArray key).map (Option.map .byteArray))
  | .exists key => return .truth (← IStore.exists key)
  | .del key => return .truth (← IStore.del key)

def callAll : List StoreOperation → Backend (List StoreAnswer)
  | [] => return []
  | operation :: rest => do
      let answer ← operation.call
      let answers ← callAll rest
      return answer :: answers

end StoreOperation

/-! ## The map -/

/-- A map from keys to typed values: what the store is for. -/
abbrev TypedMap : Type :=
  Bytes → Option StoreValue

namespace TypedMap

def answer (m : TypedMap) : StoreOperation → StoreAnswer
  | .set _ _ => .done true
  | .get key _ => .value (.ok (m key))
  | .exists key => .truth (m key).isSome
  | .del key => .truth (m key).isSome

def after (m : TypedMap) : StoreOperation → TypedMap
  | .set key value => Function.update m key (some value)
  | .get _ _ => m
  | .exists _ => m
  | .del key => Function.update m key none

def answers (m : TypedMap) : List StoreOperation → List StoreAnswer
  | [] => []
  | operation :: rest => m.answer operation :: answers (m.after operation) rest

/-- A value is asked for at its own type. -/
def Asks (m : TypedMap) : StoreOperation → Prop
  | .get key type => ∀ value, m key = some value → value.type = type
  | _ => True

/-- Every get uses the type of the latest set of its key. -/
def WellTyped (m : TypedMap) : List StoreOperation → Prop
  | [] => True
  | operation :: rest => m.Asks operation ∧ WellTyped (m.after operation) rest

end TypedMap

/-! ## The texts of values -/

/-- The text that a value is stored as. -/
def StoreValue.text : StoreValue → Bytes
  | .int32 value => toString value.toInt
  | .int64 value => toString value.toInt
  | .string value => cStr value
  | .byteArray value => value

/-- What a getter makes of a text. -/
def StoreType.read (text : Bytes) : StoreType → Except Log StoreValue
  | .int32 =>
      (StringUtils.toInt32 (cStr text) (ascii "RedisStore::get_int32_impl(const char*)")).map .int32
  | .int64 =>
      (StringUtils.toInt64 (cStr text) (ascii "RedisStore::get_int64_impl(const char*)")).map .int64
  | .string => .ok (.string (cStr text))
  | .byteArray => .ok (.byteArray text)

/-- A value whose text is all of it. -/
def StoreValue.IsText : StoreValue → Prop
  | .string value => 0 ∉ value
  | _ => True

theorem toInt32_text (value : Int32) (function : Bytes) :
    StringUtils.toInt32 (cStr (toString value.toInt)) function = .ok value := by
  rw [StringUtils.toInt32, cStr_eq_self (zero_notMem_toString _),
    stoi_toString value.le_toInt value.toInt_lt]
  exact congrArg Except.ok (Int32.ofInt_toInt value)

theorem toInt64_text (value : Int64) (function : Bytes) :
    StringUtils.toInt64 (cStr (toString value.toInt)) function = .ok value := by
  rw [StringUtils.toInt64, cStr_eq_self (zero_notMem_toString _),
    stoll_toString value.le_toInt value.toInt_lt]
  exact congrArg Except.ok (Int64.ofInt_toInt value)

theorem cStr_cStr (s : Bytes) : cStr (cStr s) = cStr s :=
  cStr_eq_self (zero_notMem_cStr s)

/-- A value is read back from its text at its own type. -/
theorem StoreValue.read_text {value : StoreValue} (isText : value.IsText) :
    value.type.read value.text = .ok value := by
  cases value with
  | int32 value =>
      rw [type, text, StoreType.read, toInt32_text]
      rfl
  | int64 value =>
      rw [type, text, StoreType.read, toInt64_text]
      rfl
  | string value =>
      rw [type, text, StoreType.read, cStr_cStr, cStr_eq_self isText]
  | byteArray value => rfl

/-! ## What the server does -/

namespace HealthyStore

variable {σ : Type} {h : BackendHandler σ} {view : σ → StoreMap} (healthy : HealthyStore h view)

include healthy

theorem run_callSet (key : Bytes) (value : StoreValue) (s : σ) :
    ∃ s', run h (StoreOperation.set key value).call s = some (.done true, s') ∧
      view s' = Function.update (view s) (cStr key) (some value.text) := by
  obtain ⟨s', written, after⟩ := healthy.run_setValue (cStr key) value.text s
  refine ⟨s', ?_, after⟩
  cases value <;> exact (run_bind_of_run written).trans rfl

theorem run_callGet (key : Bytes) (type : StoreType) (s : σ) :
    ∃ s', run h (StoreOperation.get key type).call s =
        some (.value (match view s (cStr key) with
          | none => .ok none
          | some text => (type.read text).map some), s') ∧
      view s' = view s := by
  have got : ∀ {α : Type} (convert : Bytes → Except Log α) (function : Bytes) (wrap : α → StoreValue),
      ∃ s', run h (do
          return StoreAnswer.value
            ((← RedisStore.getValue convert function (cStr key)).map (Option.map wrap))) s =
          some (.value (match view s (cStr key) with
            | none => .ok none
            | some text => ((convert text).map wrap).map some), s') ∧
        view s' = view s := by
    intro α convert function wrap
    obtain ⟨s', read, same⟩ := healthy.run_getValue convert function (cStr key) s
    refine ⟨s', ?_, same⟩
    rw [run_bind_of_run read, run_pure]
    cases view s (cStr key) with
    | none => rfl
    | some text => cases converted : convert text <;> simp [converted, Except.map]
  cases type with
  | int32 =>
      exact got (fun str => StringUtils.toInt32 (cStr str)
        (ascii "RedisStore::get_int32_impl(const char*)")) _ .int32
  | int64 =>
      exact got (fun str => StringUtils.toInt64 (cStr str)
        (ascii "RedisStore::get_int64_impl(const char*)")) _ .int64
  | string => exact got (fun str => .ok (cStr str)) _ .string
  | byteArray => exact got .ok _ .byteArray

theorem run_callExists (key : Bytes) (s : σ) :
    ∃ s', run h (StoreOperation.exists key).call s =
        some (.truth (view s (cStr key)).isSome, s') ∧ view s' = view s := by
  obtain ⟨s', tested, same⟩ := healthy.run_existsImpl (cStr key) s
  exact ⟨s', (run_bind_of_run tested).trans rfl, same⟩

theorem run_callDel (key : Bytes) (s : σ) :
    ∃ s', run h (StoreOperation.del key).call s =
        some (.truth (view s (cStr key)).isSome, s') ∧
      view s' = Function.update (view s) (cStr key) none := by
  obtain ⟨s', deleted, after⟩ := healthy.run_delImpl (cStr key) s
  exact ⟨s', (run_bind_of_run deleted).trans rfl, after⟩

end HealthyStore

/-! ## The simulation -/

/-- Under these keys the server holds the texts of the map's values. -/
structure Represents (keys : Set Bytes) (m : TypedMap) (store : StoreMap) : Prop where
  texts : ∀ key ∈ keys, store (cStr key) = (m key).map StoreValue.text
  whole : ∀ key value, m key = some value → value.IsText

theorem represents_empty {keys : Set Bytes} {store : StoreMap}
    (absent : ∀ key ∈ keys, store (cStr key) = none) : Represents keys (fun _ => none) store := by
  constructor
  · exact absent
  · intro key value held
    cases held

/-- The keys differ as C strings, so an update of one leaves the others alone. -/
theorem Represents.update {keys : Set Bytes} {m : TypedMap} {store : StoreMap}
    (represents : Represents keys m store) (distinct : Set.InjOn cStr keys) {key : Bytes}
    (used : key ∈ keys) {value : Option StoreValue} (isText : ∀ v, value = some v → v.IsText) :
    Represents keys (Function.update m key value)
      (Function.update store (cStr key) (value.map StoreValue.text)) := by
  constructor
  · intro other member
    by_cases same : other = key
    · rw [same, Function.update_self, Function.update_self]
    · have apart : cStr other ≠ cStr key := fun equal => same (distinct member used equal)
      rw [Function.update_of_ne same, Function.update_of_ne apart]
      exact represents.texts other member
  · intro other v held
    by_cases same : other = key
    · rw [same, Function.update_self] at held
      exact isText v held
    · rw [Function.update_of_ne same] at held
      exact represents.whole other v held

/-- The operation's key and string are among these. -/
def StoreOperation.Uses (keys strings : Set Bytes) (operation : StoreOperation) : Prop :=
  operation.key ∈ keys ∧ ∀ key string, operation = .set key (.string string) → string ∈ strings

/-- Over these keys and strings the store answers as the map does, from any state in
which it holds none of the keys. -/
def AnswersAsMap {σ : Type} (h : BackendHandler σ) (view : σ → StoreMap) (keys strings : Set Bytes) :
    Prop :=
  ∀ operations start, (∀ operation ∈ operations, operation.Uses keys strings) →
    TypedMap.WellTyped (fun _ => none) operations →
    (∀ key ∈ keys, view start (cStr key) = none) →
      ∃ last, run h (StoreOperation.callAll operations) start =
        some (TypedMap.answers (fun _ => none) operations, last)

namespace HealthyStore

variable {σ : Type} {h : BackendHandler σ} {view : σ → StoreMap} (healthy : HealthyStore h view)
  {keys strings : Set Bytes}

include healthy

/-- One operation on the store is one on the map. -/
theorem run_call {m : TypedMap} {s : σ} (represents : Represents keys m (view s))
    (distinct : Set.InjOn cStr keys) (whole : ∀ string ∈ strings, 0 ∉ string)
    {operation : StoreOperation} (uses : operation.Uses keys strings) (asks : m.Asks operation) :
    ∃ s', run h operation.call s = some (m.answer operation, s') ∧
      Represents keys (m.after operation) (view s') := by
  obtain ⟨used, among⟩ := uses
  cases operation with
  | set key value =>
      obtain ⟨s', written, after⟩ := healthy.run_callSet key value s
      refine ⟨s', written, ?_⟩
      rw [after]
      refine represents.update distinct used (fun v same => ?_)
      cases same
      cases value with
      | string text => exact whole text (among key text rfl)
      | _ => trivial
  | get key type =>
      obtain ⟨s', read, same⟩ := healthy.run_callGet key type s
      refine ⟨s', read.trans ?_, ?_⟩
      · rw [represents.texts key used, TypedMap.answer]
        cases held : m key with
        | none => rfl
        | some value =>
            have same : value.type = type := asks value held
            subst same
            simp only [Option.map_some, StoreValue.read_text (represents.whole key value held)]
            rfl
      · rw [same]
        exact represents
  | «exists» key =>
      obtain ⟨s', tested, same⟩ := healthy.run_callExists key s
      refine ⟨s', tested.trans ?_, ?_⟩
      · rw [represents.texts key used, Option.isSome_map]
        rfl
      · rw [same]
        exact represents
  | del key =>
      obtain ⟨s', deleted, after⟩ := healthy.run_callDel key s
      refine ⟨s', deleted.trans ?_, ?_⟩
      · rw [represents.texts key used, Option.isSome_map]
        rfl
      · rw [after]
        refine represents.update distinct used fun v same => ?_
        cases same

/-- A sequence of operations on the store is one on the map. -/
theorem run_callAll {operations : List StoreOperation} {m : TypedMap} {s : σ}
    (represents : Represents keys m (view s)) (distinct : Set.InjOn cStr keys)
    (whole : ∀ string ∈ strings, 0 ∉ string)
    (uses : ∀ operation ∈ operations, operation.Uses keys strings)
    (typed : m.WellTyped operations) :
    ∃ last, run h (StoreOperation.callAll operations) s = some (m.answers operations, last) := by
  induction operations generalizing m s with
  | nil => exact ⟨s, rfl⟩
  | cons operation rest ih =>
      obtain ⟨asks, later⟩ := typed
      obtain ⟨s', called, represents'⟩ :=
        healthy.run_call represents distinct whole (uses operation List.mem_cons_self) asks
      obtain ⟨last, ran⟩ := ih represents' (fun other member => uses other (.tail _ member)) later
      refine ⟨last, ?_⟩
      rw [StoreOperation.callAll, run_bind_of_run called, run_bind_of_run ran]
      rfl

omit healthy in
theorem run_callAll_pair {first second : StoreOperation} {answer answer' : StoreAnswer} {s s₁ s₂ : σ}
    (called : run h first.call s = some (answer, s₁))
    (called' : run h second.call s₁ = some (answer', s₂)) :
    run h (StoreOperation.callAll [first, second]) s = some ([answer, answer'], s₂) := by
  rw [StoreOperation.callAll, run_bind_of_run called, StoreOperation.callAll]
  have rest : run h (do
      let answer ← second.call
      let answers ← StoreOperation.callAll []
      return answer :: answers) s₁ = some ([answer'], s₂) :=
    (run_bind_of_run called').trans rfl
  exact (run_bind_of_run rest).trans rfl

/-- The store answers as a map over these keys and strings if and only if the keys differ
as C strings and no string has a NUL. -/
theorem answers_as_map_iff (nonempty : keys.Nonempty) {empty : σ}
    (absent : ∀ key ∈ keys, view empty (cStr key) = none) :
    AnswersAsMap h view keys strings ↔
      Set.InjOn cStr keys ∧ ∀ string ∈ strings, 0 ∉ string := by
  constructor
  · intro answers
    constructor
    · -- A key that was never set exists, because another one with its C string was.
      intro key used other used' same
      by_contra different
      obtain ⟨last, ran⟩ := answers [.set key (.int32 0), .exists other] empty
        (by simp [StoreOperation.Uses, StoreOperation.key, used, used']) ⟨trivial, trivial, trivial⟩
        absent
      obtain ⟨s₁, written, after⟩ := healthy.run_callSet key (.int32 0) empty
      obtain ⟨s₂, tested, -⟩ := healthy.run_callExists other s₁
      rw [run_callAll_pair written tested, after, same, Function.update_self] at ran
      have truths := congrArg Prod.fst (Option.some.inj ran)
      simp [TypedMap.answers, TypedMap.answer, TypedMap.after, Ne.symm different] at truths
    · -- A string with a NUL is not read back whole.
      intro string among nul
      obtain ⟨key, used⟩ := nonempty
      obtain ⟨last, ran⟩ := answers [.set key (.string string), .get key .string] empty
        (by simp [StoreOperation.Uses, StoreOperation.key, used, among])
        ⟨trivial, by simp [TypedMap.Asks, TypedMap.after, StoreValue.type], trivial⟩ absent
      obtain ⟨s₁, written, after⟩ := healthy.run_callSet key (.string string) empty
      obtain ⟨s₂, read, -⟩ := healthy.run_callGet key .string s₁
      rw [run_callAll_pair written read, after, Function.update_self] at ran
      have values := congrArg Prod.fst (Option.some.inj ran)
      have whole : cStr string = string := by
        simpa [TypedMap.answers, TypedMap.answer, TypedMap.after, StoreValue.text, StoreType.read,
          cStr_cStr, Except.map] using values
      exact zero_notMem_cStr string (whole.symm ▸ nul)
  · rintro ⟨distinct, whole⟩ operations start uses typed fresh
    exact healthy.run_callAll (represents_empty fresh) distinct whole uses typed

end HealthyStore

/-- Texts without a NUL under keys without one. -/
theorem answers_as_map_sample :
    AnswersAsMap (World.handler sampleEnvironment) World.store {ascii "name", ascii "count"}
      {ascii "username1"} := by
  have distinct : Set.InjOn cStr {ascii "name", ascii "count"} := by
    rintro key (rfl | rfl) other (rfl | rfl) same <;> revert same <;> decide +kernel
  have whole : ∀ string ∈ ({ascii "username1"} : Set Bytes), 0 ∉ string := by
    rintro _ rfl
    decide +kernel
  have absent : ∀ key ∈ ({ascii "name", ascii "count"} : Set Bytes),
      World.store (sampleWorld []) (cStr key) = none :=
    fun _ _ => rfl
  exact ((World.healthy sampleEnvironment).answers_as_map_iff ⟨ascii "name", .inl rfl⟩ absent).mpr
    ⟨distinct, whole⟩

/-- A key with a NUL is set and then asked for without what follows its NUL, and a
string with a NUL is set and read. -/
def nulOperations : List StoreOperation :=
  [.set (ascii "key" ++ [0] ++ ascii "a") (.int32 1), .exists (ascii "key"),
    .set (ascii "text") (.string (ascii "one" ++ [0] ++ ascii "two")), .get (ascii "text") .string]

/-- The other key exists, and the string ends at its NUL. -/
theorem store_is_no_map :
    TypedMap.WellTyped (fun _ => none) nulOperations ∧
      (run (World.handler sampleEnvironment) (StoreOperation.callAll nulOperations)
          (sampleWorld [])).map Prod.fst =
        some [.done true, .truth true, .done true, .value (.ok (some (.string (ascii "one"))))] ∧
      TypedMap.answers (fun _ => none) nulOperations =
        [.done true, .truth false, .done true,
          .value (.ok (some (.string (ascii "one" ++ [0] ++ ascii "two"))))] ∧
      (run (World.handler sampleEnvironment) (StoreOperation.callAll nulOperations)
          (sampleWorld [])).map Prod.fst ≠
        some (TypedMap.answers (fun _ => none) nulOperations) := by
  refine ⟨⟨trivial, trivial, trivial, ?_, trivial⟩, by decide +kernel, by decide +kernel,
    by decide +kernel⟩
  simp [TypedMap.Asks, TypedMap.after, StoreValue.type]

end CleanArchitecture
