import CleanArchitecture.ParserInvariant

/-!
# The numbers of the HTTP version

Every digit of a version number multiplies the number so far by ten and adds the digit,
in an `int` and without a bound on the number of digits.  The additions are made from the
left, so that a number already overflows when it is larger than the largest `int` less the
code of the digit zero.
-/

namespace CleanArchitecture.RequestParser

open RequestGrammar ResultType State

/-! ## The results of the arithmetic -/

/-- The values of an `int`. -/
def FitsInt32 (z : Int) : Prop :=
  -2 ^ 31 ≤ z ∧ z < 2 ^ 31

/-- The number that a byte extends, if it is a digit of one. -/
def extendedNumber (state : State) (req : Request) (input : UInt8) : Option Int :=
  match state with
  | httpVersionMajorStart | httpVersionMajor =>
      if isDigit (charToInt input) then some req.httpVersionMajor else none
  | httpVersionMinorStart | httpVersionMinor =>
      if isDigit (charToInt input) then some req.httpVersionMinor else none
  | _ => none

/-- The results of `v * 10`, `v * 10 + input` and `v * 10 + input - '0'`. -/
def digitResults (v : Int) (input : UInt8) : List Int :=
  [v * 10, v * 10 + charToInt input, v * 10 + charToInt input - 48]

/-- The results that a byte has computed. -/
def versionResults (config : State × Request) (input : UInt8) : List Int :=
  match extendedNumber config.1 config.2 input with
  | some v => digitResults v input
  | none => []

/-- A byte that extends a number moves the parser on. -/
theorem indeterminate_of_extended {state : State} {req : Request} {b : UInt8} {v : Int}
    (extended : extendedNumber state req b = some v) :
    (consume state req b).1 = indeterminate := by
  have notDot : isDigit (charToInt b) = true → b ≠ 46 := by
    intro isDig
    exact digit_ne ((isDigit_eq_true_iff b).mp isDig) (by decide)
  have notCr : isDigit (charToInt b) = true → b ≠ 13 := by
    intro isDig
    exact digit_ne ((isDigit_eq_true_iff b).mp isDig) (by decide)
  cases state
  case httpVersionMajorStart | httpVersionMajor | httpVersionMinorStart | httpVersionMinor =>
    simp only [extendedNumber, Option.ite_none_right_eq_some] at extended
    simp [consume, extended.1, notDot extended.1, notCr extended.1]
  all_goals cases extended

theorem stopsInPlace : scanner.StopsInPlace := by
  rintro ⟨state, req⟩ b stopped
  rcases step : consume state req b with ⟨verdict, next, req'⟩
  have verdictEq : scanner.step (state, req) b = (verdict, next, req') := step
  rw [verdictEq] at stopped ⊢
  cases verdict with
  | good =>
      obtain ⟨rfl, -, rfl, rfl⟩ := consume_good step
      rfl
  | bad => exact consume_bad step
  | indeterminate => cases stopped

theorem versionResults_of_stops (config : State × Request) (b : UInt8)
    (stopped : scanner.stops (scanner.step config b).1 = true) : versionResults config b = [] := by
  rw [versionResults]
  cases extended : extendedNumber config.1 config.2 b with
  | none => rfl
  | some v =>
      have moved : (scanner.step config b).1 = indeterminate := indeterminate_of_extended extended
      rw [moved] at stopped
      cases stopped

/-! ## Digits -/

/-- The largest number that can be accumulated. -/
def versionLimit : Nat :=
  2 ^ 31 - 1 - 48

theorem charToInt_digit {b : UInt8} (digit : Digit b) : charToInt b = b.toNat := by
  obtain ⟨low, high⟩ := digit
  unfold charToInt
  exact Int.bmod_eq_of_le (by omega) (by omega)

/-- All the results fit exactly when the longer number is within the limit. -/
theorem digitResults_fit_iff {d : Bytes} {b : UInt8} (digit : Digit b) :
    (∀ z ∈ digitResults (digitsValue d) b, FitsInt32 z) ↔
      digitsValue (d ++ [b]) ≤ versionLimit := by
  have ascending := digit.1
  rw [digitsValue_concat]
  simp only [digitResults, charToInt_digit digit, List.forall_mem_cons, FitsInt32, versionLimit]
  constructor
  · rintro ⟨-, middle, -⟩
    omega
  · intro small
    refine ⟨?_, ?_, ?_, List.forall_mem_nil _⟩ <;> omega

theorem digitsValue_le_concat (d : Bytes) (b : UInt8) :
    digitsValue d ≤ digitsValue (d ++ [b]) := by
  rw [digitsValue_concat]
  omega

/-- A number within the limit is accumulated exactly. -/
theorem versionNumber_of_small {d : Bytes} (digits : ∀ b ∈ d, Digit b)
    (small : digitsValue d ≤ versionLimit) : versionNumber d = digitsValue d := by
  induction d using List.reverseRecOn with
  | nil => rfl
  | append_singleton d b ih =>
      obtain ⟨before, last⟩ := List.forall_mem_append.mp digits
      have digit : Digit b := List.forall_mem_singleton.mp last
      have exact_before := ih before ((digitsValue_le_concat d b).trans small)
      have fits := (digitResults_fit_iff digit).mpr small
      have bounds : FitsInt32 (digitsValue d * 10 + charToInt b - 48) :=
        fits _ (by simp [digitResults])
      rw [versionNumber_push, exact_before, versionDigit, toInt32_of_bounds bounds.1 bounds.2,
        digitsValue_concat, charToInt_digit digit]
      have ascending := digit.1
      omega

/-! ## The numbers of a request line -/

/-- A request line up to its version. -/
def targetText (m u : Bytes) : Bytes :=
  m ++ [32] ++ u ++ [32] ++ ascii "HTTP/"

/-- The numbers of a version at the end of a request line are within the limit. -/
structure SmallVersions (w : Bytes) : Prop where
  major : ∀ m u d rest, Token m → UriText u → Digits d → w = targetText m u ++ d ++ rest →
    digitsValue d ≤ versionLimit
  minor : ∀ m u d e rest, Token m → UriText u → Digits d → Digits e →
    w = targetText m u ++ d ++ [46] ++ e ++ rest → digitsValue e ≤ versionLimit

/-- Digits that a parser accumulates after the bytes `base` are within the limit as soon as
all results fit. -/
theorem small_of_fit {w base d rest : Bytes} {f : Bytes → State × Request}
    {last : State × Request} (advanced : scanner.advance (methodStart, {}) w = some last)
    (fit : ∀ z ∈ scanner.yields versionResults (methodStart, {}) w, FitsInt32 z)
    (reached : ∀ d, (∀ b ∈ d, Digit b) →
      scanner.advance (methodStart, {}) (base ++ d) = some (f d))
    (computed : ∀ d b, Digit b → versionResults (f d) b = digitResults (versionNumber d) b)
    (digits : ∀ b ∈ d, Digit b) (split : w = base ++ d ++ rest) :
    digitsValue d ≤ versionLimit := by
  induction d using List.reverseRecOn generalizing rest with
  | nil => simp [digitsValue, versionLimit]
  | append_singleton d b ih =>
      obtain ⟨before, last⟩ := List.forall_mem_append.mp digits
      have digit : Digit b := List.forall_mem_singleton.mp last
      have longer : w = base ++ d ++ b :: rest := by simp [split]
      have small := ih before longer
      apply (digitResults_fit_iff digit).mp
      intro z result
      apply fit
      rw [Scanner.mem_yields_iff advanced]
      refine ⟨base ++ d, b, rest, f d, by simp [split], reached d before, ?_⟩
      rw [computed d b digit, versionNumber_of_small before small]
      exact result

/-- The parser after some digits of the major number. -/
def majorConfig (m u d : Bytes) : State × Request :=
  (if d = [] then httpVersionMajorStart else httpVersionMajor,
    { targetRequest m u with httpVersionMajor := versionNumber d })

/-- The parser after the major number and some digits of the minor one. -/
def minorConfig (m u d e : Bytes) : State × Request :=
  (if e = [] then httpVersionMinorStart else httpVersionMinor,
    { targetRequest m u with
      httpVersionMajor := versionNumber d
      httpVersionMinor := versionNumber e })

theorem advance_majorConfig {m u d : Bytes} (token : Token m) (text : UriText u)
    (digits : ∀ b ∈ d, Digit b) :
    scanner.advance (methodStart, {}) (targetText m u ++ d) = some (majorConfig m u d) := by
  by_cases none : d = []
  · subst none
    rw [List.append_nil]
    exact advance_target token text
  · rw [majorConfig, if_neg none]
    exact Scanner.advance_trans (advance_target token text) (advance_major m u ⟨none, digits⟩)

theorem advance_minorConfig {m u d e : Bytes} (token : Token m) (text : UriText u)
    (major : Digits d) (digits : ∀ b ∈ e, Digit b) :
    scanner.advance (methodStart, {}) (targetText m u ++ d ++ [46] ++ e) =
      some (minorConfig m u d e) := by
  have toMajor := Scanner.advance_trans (advance_target token text) (advance_major m u major)
  have afterDot : ∀ req, scanner.advance (httpVersionMajor, req) [46] =
      some (httpVersionMinorStart, req) := fun _ => rfl
  have toDot := Scanner.advance_trans toMajor (afterDot _)
  by_cases none : e = []
  · subst none
    rw [List.append_nil]
    exact toDot
  · rw [minorConfig, if_neg none]
    exact Scanner.advance_trans toDot (advance_minor m u (versionNumber d) ⟨none, digits⟩)

theorem versionResults_majorConfig (m u d : Bytes) {b : UInt8} (digit : Digit b) :
    versionResults (majorConfig m u d) b = digitResults (versionNumber d) b := by
  have isDig := (isDigit_eq_true_iff b).mpr digit
  by_cases none : d = [] <;> simp [versionResults, majorConfig, none, extendedNumber, isDig]

theorem versionResults_minorConfig (m u d e : Bytes) {b : UInt8} (digit : Digit b) :
    versionResults (minorConfig m u d e) b = digitResults (versionNumber e) b := by
  have isDig := (isDigit_eq_true_iff b).mpr digit
  by_cases none : e = [] <;> simp [versionResults, minorConfig, none, extendedNumber, isDig]

/-- The results for a digit after digits of a number within the limit fit. -/
theorem fit_of_small {d : Bytes} {b : UInt8} {state : State} {req : Request}
    (digits : ∀ c ∈ d, Digit c)
    (extended : extendedNumber state req b =
      if isDigit (charToInt b) then some (versionNumber d) else none)
    (small : Digit b → digitsValue (d ++ [b]) ≤ versionLimit) {z : Int}
    (result : z ∈ versionResults (state, req) b) : FitsInt32 z := by
  rw [versionResults, extended] at result
  by_cases isDig : isDigit (charToInt b) = true
  · have digit := (isDigit_eq_true_iff b).mp isDig
    have before := (digitsValue_le_concat d b).trans (small digit)
    rw [if_pos isDig, versionNumber_of_small digits before] at result
    exact (digitResults_fit_iff digit).mpr (small digit) z result
  · rw [if_neg isDig] at result
    cases result

/-- Every result of a byte that follows these bytes fits. -/
theorem fit_of_progress {w us vs : Bytes} {b : UInt8} {state : State} {req : Request}
    (small : SmallVersions w) (split : w = us ++ b :: vs) (progress : Progress state req us)
    {z : Int} (result : z ∈ versionResults (state, req) b) : FitsInt32 z := by
  have single : ∀ digit : Digit b, Digits [b] := by
    intro digit
    exact digits_push (w := []) (by simp) digit
  cases state
  case httpVersionMajorStart =>
    obtain ⟨m, u, token, text, rfl, rfl⟩ := progress
    apply fit_of_small (d := []) (by simp) (by rfl) _ result
    intro digit
    exact small.major m u [b] vs token text (single digit) (by simp [split, targetText])
  case httpVersionMajor =>
    obtain ⟨m, u, d, token, text, digits, rfl, rfl⟩ := progress
    apply fit_of_small digits.2 (by rfl) _ result
    intro digit
    exact small.major m u (d ++ [b]) vs token text (digits_push digits.2 digit)
      (by simp [split, targetText])
  case httpVersionMinorStart =>
    obtain ⟨m, u, d, token, text, digits, rfl, rfl⟩ := progress
    apply fit_of_small (d := []) (by simp) (by rfl) _ result
    intro digit
    exact small.minor m u d [b] vs token text digits (single digit) (by simp [split, targetText])
  case httpVersionMinor =>
    obtain ⟨m, u, d, e, token, text, major, minor, rfl, rfl⟩ := progress
    apply fit_of_small minor.2 (by rfl) _ result
    intro digit
    exact small.minor m u d (e ++ [b]) vs token text major (digits_push minor.2 digit)
      (by simp [split, targetText])
  all_goals cases result

/-- On the bytes that a parser has taken, all results fit exactly when the version numbers
are within the limit. -/
theorem yields_fit_iff {w : Bytes} {last : State × Request}
    (advanced : scanner.advance (methodStart, {}) w = some last) :
    (∀ z ∈ scanner.yields versionResults (methodStart, {}) w, FitsInt32 z) ↔ SmallVersions w := by
  constructor
  · intro fit
    constructor
    · intro m u d rest token text digits split
      apply small_of_fit (f := majorConfig m u) advanced fit _ _ digits.2 split
      · exact fun d digits => advance_majorConfig token text digits
      · exact fun d b digit => versionResults_majorConfig m u d digit
    · intro m u d e rest token text major minor split
      apply small_of_fit (f := minorConfig m u d) advanced fit _ _ minor.2 split
      · exact fun e digits => advance_minorConfig token text major digits
      · exact fun e b digit => versionResults_minorConfig m u d e digit
  · intro small z member
    obtain ⟨us, b, vs, ⟨state, req⟩, split, reached, result⟩ :=
      (Scanner.mem_yields_iff advanced).mp member
    exact fit_of_progress small split (progress_of_advance reached) result

/-! ## Calls on chunks -/

/-- Every result that calls of a new parser on these chunks compute fits. -/
def VersionsFit (chunks : List Bytes) : Prop :=
  ∀ z ∈ scanner.yieldsChunks versionResults (methodStart, {}) chunks, FitsInt32 z

/-- Whenever a call completes a head, the bytes taken are that head, and the request holds
the numbers that its version digits denote. -/
def VersionsDecimal (chunks : List Bytes) : Prop :=
  ∀ before chunk after, chunks = before ++ chunk :: after →
    (parse (parseAll (methodStart, {}) before).1 (parseAll (methodStart, {}) before).2
      chunk).verdict = good →
    IsHead (scanner.takenChunks (methodStart, {}) (before ++ [chunk]) ++ [10]) ∧
    ∀ line hs, Head (scanner.takenChunks (methodStart, {}) (before ++ [chunk]) ++ [10]) line hs →
      (parseAll (methodStart, {}) (before ++ [chunk])).2.httpVersionMajor =
          digitsValue line.major ∧
        (parseAll (methodStart, {}) (before ++ [chunk])).2.httpVersionMinor =
          digitsValue line.minor

theorem SmallVersions.of_append {w more : Bytes} (small : SmallVersions (w ++ more)) :
    SmallVersions w := by
  constructor
  · intro m u d rest token text digits split
    exact small.major m u d (rest ++ more) token text digits (by simp [split])
  · intro m u d e rest token text major minor split
    exact small.minor m u d e (rest ++ more) token text major minor (by simp [split])

/-- The bytes taken in the last state are a head without its last byte. -/
theorem head_of_last {w : Bytes} {req : Request}
    (advanced : scanner.advance (methodStart, {}) w = some (expectingNewline3, req)) :
    IsHead (w ++ [10]) := by
  obtain ⟨line, v, hs, fields, -, rfl⟩ := progress_of_advance advanced
  refine ⟨line, hs, ?_⟩
  have head := Head.mk line fields
  rwa [RequestGrammar.crlf, ← List.singleton_append, ← List.append_assoc] at head

/-- The request is the one that the head denotes. -/
theorem request_of_last {w : Bytes} {req : Request} {line : RequestLine} {hs : List Header}
    (advanced : scanner.advance (methodStart, {}) w = some (expectingNewline3, req))
    (head : Head (w ++ [10]) line hs) : req = headRequest line hs := by
  have parsed := parse_of_head head
  have states := congrArg ScanResult.state (Scanner.scan_append_of_advance advanced [10])
  rw [parse] at parsed
  rw [parsed] at states
  exact (congrArg Prod.snd states).symm

/-- Numbers within the limit are held exactly by the request of a head. -/
theorem numbers_of_last {w : Bytes} {req : Request} {line : RequestLine} {hs : List Header}
    (small : SmallVersions w)
    (advanced : scanner.advance (methodStart, {}) w = some (expectingNewline3, req))
    (head : Head (w ++ [10]) line hs) :
    req.httpVersionMajor = digitsValue line.major ∧
      req.httpVersionMinor = digitsValue line.minor := by
  have request := request_of_last advanced head
  have split : ∃ v, w = line.text ++ v := by
    generalize whole : w ++ [10] = text at head
    cases head with
    | @mk line v hs fields =>
        have joined : w ++ [10] = line.text ++ (v ++ [13]) ++ [10] := by
          simpa [RequestGrammar.crlf] using whole
        exact ⟨v ++ [13], List.append_cancel_right joined⟩
  obtain ⟨v, rfl⟩ := split
  have major := small.major line.method line.uri line.major
    ([46] ++ line.minor ++ RequestGrammar.crlf ++ v)
    line.method_token line.uri_text line.major_digits
    (by simp [RequestLine.text, targetText])
  have minor := small.minor line.method line.uri line.major line.minor (RequestGrammar.crlf ++ v)
    line.method_token line.uri_text line.major_digits line.minor_digits
    (by simp [RequestLine.text, targetText])
  rw [request]
  exact ⟨versionNumber_of_small line.major_digits.2 major,
    versionNumber_of_small line.minor_digits.2 minor⟩

theorem versionsDecimal_of_small {chunks : List Bytes}
    (small : SmallVersions (scanner.takenChunks (methodStart, {}) chunks)) :
    VersionsDecimal chunks := by
  intro before chunk after split completed
  have advanced := Scanner.advance_takenChunks stopsInPlace (methodStart, {}) (before ++ [chunk])
  have last : (parseAll (methodStart, {}) (before ++ [chunk])).1 = expectingNewline3 := by
    rw [parseAll_concat]
    rcases parsed : parse (parseAll (methodStart, {}) before).1
      (parseAll (methodStart, {}) before).2 chunk with ⟨verdict, ⟨next, head⟩, n⟩
    rw [parsed] at completed
    obtain rfl : verdict = good := completed
    exact parse_good_state parsed
  have reached : scanner.scanChunks (methodStart, {}) (before ++ [chunk]) =
      (expectingNewline3, (parseAll (methodStart, {}) (before ++ [chunk])).2) :=
    Prod.ext last rfl
  rw [reached] at advanced
  have smallHere : SmallVersions (scanner.takenChunks (methodStart, {}) (before ++ [chunk])) := by
    rw [split, ← List.singleton_append, ← List.append_assoc, Scanner.takenChunks_append] at small
    exact small.of_append
  refine ⟨head_of_last advanced, ?_⟩
  intro line hs head
  exact numbers_of_last smallHere advanced head

/-- In calls of a new parser on any chunks, all results of the arithmetic fit and every
completed head leaves the numbers that its version digits denote, if and only if the
version numbers in the bytes taken are within the limit. -/
theorem versions_iff_small (chunks : List Bytes) :
    VersionsFit chunks ∧ VersionsDecimal chunks ↔
      SmallVersions (scanner.takenChunks (methodStart, {}) chunks) := by
  have advanced := Scanner.advance_takenChunks stopsInPlace (methodStart, {}) chunks
  rw [VersionsFit, ← Scanner.yields_takenChunks stopsInPlace versionResults_of_stops,
    yields_fit_iff advanced]
  constructor
  · rintro ⟨small, -⟩
    exact small
  · intro small
    exact ⟨small, versionsDecimal_of_small small⟩

/-- A head whose major version number is one more than the largest `int`. -/
def largeVersion : Bytes :=
  ascii "GET / HTTP/2147483648.1\r\n\r\n"

/-- The last digit overflows, and the request holds a negative number. -/
theorem largeVersion_overflows :
    ¬ VersionsFit [largeVersion] ∧
      (parse methodStart {} largeVersion).verdict = good ∧
      (parse methodStart {} largeVersion).state.2.httpVersionMajor = -2147483648 := by
  refine ⟨?_, by decide +kernel, by decide +kernel⟩
  intro fit
  have result : (2147483648 : Int) ∈ scanner.yieldsChunks versionResults (methodStart, {})
      [largeVersion] := by
    decide +kernel
  have bounds := fit _ result
  exact absurd bounds.2 (by decide)

end CleanArchitecture.RequestParser
