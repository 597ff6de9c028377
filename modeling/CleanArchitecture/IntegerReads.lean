import CleanArchitecture.SignedNumerals
import CleanArchitecture.StoreOperations

/-!
# Reading integers from the store

The conversions skip leading blanks and ignore what follows the digits, and the text of a
reply ends at its first NUL.  So a getter also returns a number when the stored string only
begins with one.
-/

namespace CleanArchitecture

open Program Backend

/-! ## The getters -/

/-- The log of a text that is not converted. -/
def parseError (msg function : Bytes) : Log where
  msg := msg
  file := ascii "interfaces/store/redis.cpp"
  function := function

theorem toInt32_ok_iff {s function : Bytes} {v : Int32} :
    StringUtils.toInt32 (cStr s) function = .ok v ↔
      ∃ blanks numeral rest, LeadingNumber s blanks numeral rest v.toInt := by
  rw [← signedNumber_cStr_iff, StringUtils.toInt32]
  constructor
  · intro converted
    split at converted
    · rename_i n read
      cases converted
      obtain ⟨found, low, high⟩ := stoi_ok_iff.mp read
      rw [Int32.toInt_ofInt_of_le low high]
      exact found
    · cases converted
  · intro found
    rw [stoi_ok_iff.mpr ⟨found, v.le_toInt, v.toInt_lt⟩]
    exact congrArg Except.ok (Int32.ofInt_toInt v)

theorem toInt64_ok_iff {s function : Bytes} {v : Int64} :
    StringUtils.toInt64 (cStr s) function = .ok v ↔
      ∃ blanks numeral rest, LeadingNumber s blanks numeral rest v.toInt := by
  rw [← signedNumber_cStr_iff, StringUtils.toInt64]
  constructor
  · intro converted
    split at converted
    · rename_i n read
      cases converted
      obtain ⟨found, low, high⟩ := stoll_ok_iff.mp read
      rw [Int64.toInt_ofInt_of_le low high]
      exact found
    · cases converted
  · intro found
    rw [stoll_ok_iff.mpr ⟨found, v.le_toInt, v.toInt_lt⟩]
    exact congrArg Except.ok (Int64.ofInt_toInt v)

theorem toInt32_error {text function : Bytes} {e : Log}
    (failed : StringUtils.toInt32 text function = .error e) :
    e = parseError (ascii "Could not parse to int32") function := by
  unfold StringUtils.toInt32 at failed
  split at failed
  · cases failed
  · cases failed
    rfl

theorem toInt64_error {text function : Bytes} {e : Log}
    (failed : StringUtils.toInt64 text function = .error e) :
    e = parseError (ascii "Could not parse to int64") function := by
  unfold StringUtils.toInt64 at failed
  split at failed
  · cases failed
  · cases failed
    rfl

/-- The answer to a read of `s` is the value that all of `s` denotes, and the parse error
when it denotes none. -/
def StrictAnswer {α : Type} (value : α → Int) (log : Log) (s : Bytes)
    (answer : Except Log (Option α)) : Prop :=
  (∀ v, answer = .ok (some v) ↔ IsSignedNumeral s (value v)) ∧
    ((∀ v, ¬ IsSignedNumeral s (value v)) → answer = .error log)

/-- A conversion that finds leading numbers is strict when they are the whole text. -/
theorem strictAnswer_iff {α : Type} {value : α → Int} {log : Log} {s : Bytes}
    {converted : Except Log α}
    (ok : ∀ v, converted = .ok v ↔
      ∃ blanks numeral rest, LeadingNumber s blanks numeral rest (value v))
    (error : ∀ e, converted = .error e → e = log) :
    StrictAnswer value log s (converted.map some) ↔
      ∀ v blanks numeral rest, LeadingNumber s blanks numeral rest (value v) →
        blanks = [] ∧ rest = [] := by
  have answer_iff : ∀ v, converted.map some = .ok (some v) ↔ converted = .ok v := by
    intro v
    cases converted with
    | error e => simp [Except.map]
    | ok w => simp [Except.map]
  constructor
  · intro strict v blanks numeral rest leading
    have converts := (ok v).mpr ⟨blanks, numeral, rest, leading⟩
    have isSigned := (strict.1 v).mp ((answer_iff v).mpr converts)
    exact leading.whole isSigned
  · intro whole
    have strict : ∀ v, converted.map some = .ok (some v) ↔ IsSignedNumeral s (value v) := by
      intro v
      rw [answer_iff, ok]
      constructor
      · rintro ⟨blanks, numeral, rest, leading⟩
        obtain ⟨rfl, rfl⟩ := whole v blanks numeral rest leading
        have same : s = numeral := by simpa using leading.split
        rw [same]
        exact leading.numeral
      · intro isSigned
        exact ⟨[], s, [], leadingNumber_whole isSigned⟩
    refine ⟨strict, ?_⟩
    intro none
    cases answer : converted with
    | error e =>
        rw [error e answer]
        rfl
    | ok v => exact absurd ((strict v).mp ((answer_iff v).mpr answer)) (none v)

theorem strictAnswer_toInt32_iff (s function : Bytes) :
    StrictAnswer Int32.toInt (parseError (ascii "Could not parse to int32") function) s
        ((StringUtils.toInt32 (cStr s) function).map some) ↔
      ∀ (v : Int32) blanks numeral rest, LeadingNumber s blanks numeral rest v.toInt →
        blanks = [] ∧ rest = [] :=
  strictAnswer_iff (fun _ => toInt32_ok_iff) (fun _ => toInt32_error)

theorem strictAnswer_toInt64_iff (s function : Bytes) :
    StrictAnswer Int64.toInt (parseError (ascii "Could not parse to int64") function) s
        ((StringUtils.toInt64 (cStr s) function).map some) ↔
      ∀ (v : Int64) blanks numeral rest, LeadingNumber s blanks numeral rest v.toInt →
        blanks = [] ∧ rest = [] :=
  strictAnswer_iff (fun _ => toInt64_ok_iff) (fun _ => toInt64_error)

section Store

variable {σ : Type} {h : BackendHandler σ} {view : σ → StoreMap}

/-- Both getters answer strictly to a read of `s` under this key. -/
def ReadsIntegersOnly (h : BackendHandler σ) (key : Bytes) (start : σ) (s : Bytes) : Prop :=
  (∃ answer last, run h (IStore.getInt32 key) start = some (answer, last) ∧
    StrictAnswer Int32.toInt
      (parseError (ascii "Could not parse to int32")
        (ascii "RedisStore::get_int32_impl(const char*)")) s answer) ∧
  (∃ answer last, run h (IStore.getInt64 key) start = some (answer, last) ∧
    StrictAnswer Int64.toInt
      (parseError (ascii "Could not parse to int64")
        (ascii "RedisStore::get_int64_impl(const char*)")) s answer)

/-- A getter runs into the conversion of the stored text. -/
theorem strictAnswer_of_run {α : Type} {program : Backend (Except Log (Option α))}
    {converted : Except Log α} {value : α → Int} {log : Log} {s : Bytes} {start last : σ}
    (ran : run h program start = some (converted.map some, last)) :
    (∃ answer last, run h program start = some (answer, last) ∧ StrictAnswer value log s answer) ↔
      StrictAnswer value log s (converted.map some) := by
  constructor
  · rintro ⟨answer, last', ran', strict⟩
    rw [ran] at ran'
    cases ran'
    exact strict
  · intro strict
    exact ⟨_, last, ran, strict⟩

/-- Both getters read a stored string strictly if and only if no number that it begins with
and that fits 64 bits has anything before or after it. -/
theorem HealthyStore.reads_integers_only_iff (healthy : HealthyStore h view) {key s : Bytes}
    {start : σ} (stored : view start (cStr key) = some s) :
    ReadsIntegersOnly h key start s ↔
      ∀ blanks numeral rest z, LeadingNumber s blanks numeral rest z →
        -2 ^ 63 ≤ z → z < 2 ^ 63 → blanks = [] ∧ rest = [] := by
  obtain ⟨last, ran, -⟩ := healthy.run_getValue
    (fun str => StringUtils.toInt32 (cStr str) (ascii "RedisStore::get_int32_impl(const char*)"))
    (ascii "RedisStore::get_int32_impl(const char*)") (cStr key) start
  obtain ⟨last', ran', -⟩ := healthy.run_getValue
    (fun str => StringUtils.toInt64 (cStr str) (ascii "RedisStore::get_int64_impl(const char*)"))
    (ascii "RedisStore::get_int64_impl(const char*)") (cStr key) start
  rw [stored] at ran ran'
  have read : run h (IStore.getInt32 key) start = some ((StringUtils.toInt32 (cStr s)
    (ascii "RedisStore::get_int32_impl(const char*)")).map some, last) := ran
  have read' : run h (IStore.getInt64 key) start = some ((StringUtils.toInt64 (cStr s)
    (ascii "RedisStore::get_int64_impl(const char*)")).map some, last') := ran'
  rw [ReadsIntegersOnly, strictAnswer_of_run read, strictAnswer_of_run read',
    strictAnswer_toInt32_iff, strictAnswer_toInt64_iff]
  constructor
  · rintro ⟨-, wide⟩ blanks numeral rest z leading low high
    apply wide (Int64.ofInt z) blanks numeral rest
    rw [Int64.toInt_ofInt_of_le low high]
    exact leading
  · intro whole
    constructor
    · -- a number that fits 32 bits fits 64 bits
      intro v blanks numeral rest leading
      have low := v.le_toInt
      have high := v.toInt_lt
      exact whole blanks numeral rest v.toInt leading (by omega) (by omega)
    · intro v blanks numeral rest leading
      exact whole blanks numeral rest v.toInt leading v.le_toInt v.toInt_lt

end Store

/-- A store that holds one string. -/
def storeOf (key s : Bytes) : World :=
  { sampleWorld [] with store := Function.update (fun _ => none) key (some s) }

/-- A negative number is read as it stands. -/
theorem reads_integers_only_minus_twelve :
    ReadsIntegersOnly (World.handler sampleEnvironment) (ascii "count")
      (storeOf (ascii "count") (ascii "-12")) (ascii "-12") := by
  apply (HealthyStore.reads_integers_only_iff (World.healthy sampleEnvironment) _).mpr
  · intro blanks numeral rest z leading _ _
    have isSigned : IsSignedNumeral (ascii "-12") (-12) :=
      ⟨ascii "12", 12, ⟨by decide, by decide +kernel, by decide⟩, .inr (.inr ⟨rfl, rfl⟩)⟩
    exact leading.whole isSigned
  · rfl

/-- A number with a unit. -/
def unitText : Bytes :=
  ascii "12 apples"

/-- The number is returned without its unit. -/
theorem unitText_is_read :
    (run (World.handler sampleEnvironment) (IStore.getInt32 (ascii "count"))
        (storeOf (ascii "count") unitText)).map Prod.fst = some (.ok (some 12)) ∧
      (run (World.handler sampleEnvironment) (IStore.getInt64 (ascii "count"))
        (storeOf (ascii "count") unitText)).map Prod.fst = some (.ok (some 12)) ∧
      ¬ ReadsIntegersOnly (World.handler sampleEnvironment) (ascii "count")
        (storeOf (ascii "count") unitText) unitText := by
  have narrow : (run (World.handler sampleEnvironment) (IStore.getInt32 (ascii "count"))
      (storeOf (ascii "count") unitText)).map Prod.fst = some (.ok (some 12)) := by
    rfl
  have wide : (run (World.handler sampleEnvironment) (IStore.getInt64 (ascii "count"))
      (storeOf (ascii "count") unitText)).map Prod.fst = some (.ok (some 12)) := by
    rfl
  refine ⟨narrow, wide, ?_⟩
  rintro ⟨⟨answer, last, ran, strict⟩, -⟩
  rw [ran, Option.map_some, Option.some.injEq] at narrow
  have isSigned : IsSignedNumeral unitText 12 := (strict.1 12).mp narrow
  obtain ⟨-, -, -, -, -, -, digits, -⟩ := splitSign_of_isSignedNumeral isSigned
  have blank : isdigit 32 = true := digits 32 (by decide)
  cases blank

end CleanArchitecture
