import CleanArchitecture.StandardLibrary

/-!
# Percent-decoding

The decoder hands the two characters after a percent sign to a number reader that also
takes blanks, a sign and a single digit.  It is compared with the strict decoder, for which
an escape is two hexadecimal digits.
-/

namespace CleanArchitecture.RequestHandler

/-! ## Numbers in a stream -/

def isxdigit (c : UInt8) : Bool :=
  isdigit c || (65 ≤ c && c ≤ 70) || (97 ≤ c && c ≤ 102)

def hexDigitValue (c : UInt8) : Nat :=
  if isdigit c then c.toNat - 48 else if c ≤ 70 then c.toNat - 55 else c.toNat - 87

/-- The value of a string of hexadecimal digits. -/
def hexDigitsValue (digits : Bytes) : Nat :=
  digits.foldl (fun value digit => value * 16 + hexDigitValue digit) 0

def dropHexPrefix : Bytes → Bytes
  | 48 :: 120 :: rest => rest
  | 48 :: 88 :: rest => rest
  | s => s

/-- The digits of a number behind its sign. -/
def numberDigits (takesPrefix : Bool) (s : Bytes) : Bytes :=
  (if takesPrefix then dropHexPrefix s else s).takeWhile isxdigit

/-- `is >> std::hex >> value` on a stream of two characters, which hold no number that an
`int` cannot: leading blanks and a sign are skipped, and the longest run of hexadecimal
digits is converted.  All results hold whether the reader takes a prefix `0x` as part of
the number or stops at the `x`. -/
def extractHex (takesPrefix : Bool) (s : Bytes) : Option Int :=
  let signed := splitSign (s.dropWhile isspace)
  let digits := numberDigits takesPrefix signed.2
  if digits = [] then none
  else some (if signed.1 then -(hexDigitsValue digits) else hexDigitsValue digits)

/-! ## The decoder -/

/-- The loop of `request_handler::url_decode` on the rest of its input: what it returns and
the output, which it also leaves when it returns false. -/
def urlDecodeFrom (takesPrefix : Bool) (out : Bytes) : Bytes → Bool × Bytes
  | [] => (true, out)
  | c :: rest =>
      if c = 37 then
        match rest with
        | a :: b :: rest =>
            match extractHex takesPrefix [a, b] with
            | some value => urlDecodeFrom takesPrefix (out ++ [UInt8.ofInt value]) rest
            | none => (false, out)
        | _ => (false, out)
      else if c = 43 then urlDecodeFrom takesPrefix (out ++ [32]) rest
      else urlDecodeFrom takesPrefix (out ++ [c]) rest

def urlDecode (takesPrefix : Bool) (input : Bytes) : Bool × Bytes :=
  urlDecodeFrom takesPrefix [] input

example : urlDecode true (ascii "a+%2Fb") = (true, ascii "a /b") := by decide +kernel

/-! ## The strict decoder -/

/-- `out` is `input` with its escapes, which are all well formed, and its plus signs
replaced. -/
inductive Decodes : Bytes → Bytes → Prop
  | nil : Decodes [] []
  | escape {a b : UInt8} {input out : Bytes} (high : isxdigit a = true) (low : isxdigit b = true)
      (rest : Decodes input out) :
      Decodes (37 :: a :: b :: input)
        (UInt8.ofNat (16 * hexDigitValue a + hexDigitValue b) :: out)
  | plus {input out : Bytes} (rest : Decodes input out) : Decodes (43 :: input) (32 :: out)
  | other {c : UInt8} {input out : Bytes} (noEscape : c ≠ 37) (noPlus : c ≠ 43)
      (rest : Decodes input out) : Decodes (c :: input) (c :: out)

/-- The code returns true on exactly the texts that the strict decoder takes, with its
output. -/
def DecodesStrictly (takesPrefix : Bool) (input : Bytes) : Prop :=
  ((urlDecode takesPrefix input).1 = true ↔ ∃ out, Decodes input out) ∧
    ∀ out, Decodes input out → (urlDecode takesPrefix input).2 = out

/-! ## Escapes -/

/-- What follows the percent signs that a scan from the left meets when it steps over two
characters after each. -/
def escapes : Bytes → List Bytes
  | [] => []
  | c :: rest =>
      if c = 37 then
        match rest with
        | a :: b :: rest => [a, b] :: escapes rest
        | short => [short]
      else escapes rest

/-- Two hexadecimal digits. -/
def IsHexPair (escape : Bytes) : Prop :=
  ∃ a b, escape = [a, b] ∧ isxdigit a = true ∧ isxdigit b = true

/-- A prefix without a digit after it, for a reader that takes prefixes. -/
def IsLonePrefix (takesPrefix : Bool) (a b : UInt8) : Prop :=
  takesPrefix = true ∧ a = 48 ∧ (b = 120 ∨ b = 88)

/-- A blank or a sign before a hexadecimal digit, or one digit before another character. -/
def IsMisread (takesPrefix : Bool) (escape : Bytes) : Prop :=
  ∃ a b, escape = [a, b] ∧
    ((isspace a = true ∨ a = 43 ∨ a = 45) ∧ isxdigit b = true ∨
      isxdigit a = true ∧ isxdigit b = false ∧ ¬ IsLonePrefix takesPrefix a b)

/-! ## What the reader makes of two characters -/

theorem isspace_of_isxdigit {c : UInt8} (digit : isxdigit c = true) : isspace c = false := by
  simp only [isxdigit, isdigit, Bool.or_eq_true, Bool.and_eq_true, decide_eq_true_eq,
    UInt8.le_iff_toNat_le] at digit
  simp only [isspace, Bool.or_eq_false_iff, beq_eq_false_iff_ne, Bool.and_eq_false_imp,
    decide_eq_true_eq, decide_eq_false_iff_not, UInt8.le_iff_toNat_le, ne_eq, ← UInt8.toNat_inj]
  simp only [UInt8.toNat_ofNat] at digit ⊢
  omega

/-- The signs are no digits. -/
theorem noSign_of_isxdigit {c : UInt8} (digit : isxdigit c = true) : c ≠ 43 ∧ c ≠ 45 := by
  constructor
  · intro plus
    rw [plus] at digit
    cases digit
  · intro minus
    rw [minus] at digit
    cases digit

section Pairs

variable {takesPrefix : Bool} {a b : UInt8}

theorem isSome_extractHex_iff {s : Bytes} :
    (extractHex takesPrefix s).isSome = true ↔
      numberDigits takesPrefix (splitSign (s.dropWhile isspace)).2 ≠ [] := by
  rw [extractHex]
  split
  · rename_i none
    simp [none]
  · rename_i some
    simp [some]

theorem numberDigits_singleton_iff : numberDigits takesPrefix [b] ≠ [] ↔ isxdigit b = true := by
  have same : dropHexPrefix [b] = [b] := by simp [dropHexPrefix]
  have digits : numberDigits takesPrefix [b] = [b].takeWhile isxdigit := by
    cases takesPrefix
    · rfl
    · rw [numberDigits, if_pos rfl, same]
  rw [digits]
  cases digit : isxdigit b <;> simp [digit]

theorem numberDigits_nil : numberDigits takesPrefix [] = [] := by
  cases takesPrefix <;> rfl

/-- A sign before the end of the stream is no number. -/
theorem numberDigits_splitSign_iff :
    numberDigits takesPrefix (splitSign [b]).2 ≠ [] ↔ isxdigit b = true := by
  by_cases plus : b = 43
  · subst plus
    rw [show (splitSign [43]).2 = [] from rfl, numberDigits_nil]
    decide
  · by_cases minus : b = 45
    · subst minus
      rw [show (splitSign [45]).2 = [] from rfl, numberDigits_nil]
      decide
    · rw [splitSign_of_noSign plus minus]
      exact numberDigits_singleton_iff

/-- Behind a blank or a sign the second character decides. -/
theorem extractHex_of_skipped (skipped : isspace a = true ∨ a = 43 ∨ a = 45) :
    (extractHex takesPrefix [a, b]).isSome = true ↔ isxdigit b = true := by
  rw [isSome_extractHex_iff]
  rcases skipped with blank | rfl | rfl
  · rw [List.dropWhile_cons_of_pos blank]
    by_cases second : isspace b = true
    · rw [List.dropWhile_cons_of_pos second]
      constructor
      · intro digits
        exact absurd numberDigits_nil digits
      · intro digit
        rw [isspace_of_isxdigit digit] at second
        cases second
    · rw [List.dropWhile_cons_of_neg second]
      exact numberDigits_splitSign_iff
  · exact numberDigits_singleton_iff
  · exact numberDigits_singleton_iff

theorem dropHexPrefix_of_not (plain : ¬ IsLonePrefix true a b) : dropHexPrefix [a, b] = [a, b] := by
  unfold dropHexPrefix
  split
  · rename_i lower
    obtain ⟨rfl, tail⟩ := List.cons.inj lower
    obtain ⟨rfl, -⟩ := List.cons.inj tail
    exact absurd ⟨rfl, rfl, Or.inl rfl⟩ plain
  · rename_i upper
    obtain ⟨rfl, tail⟩ := List.cons.inj upper
    obtain ⟨rfl, -⟩ := List.cons.inj tail
    exact absurd ⟨rfl, rfl, Or.inr rfl⟩ plain
  · rfl

theorem numberDigits_pair (plain : ¬ IsLonePrefix takesPrefix a b) :
    numberDigits takesPrefix [a, b] = [a, b].takeWhile isxdigit := by
  cases takesPrefix with
  | false => rfl
  | true => rw [numberDigits, if_pos rfl, dropHexPrefix_of_not plain]

/-- Otherwise the first character has to be a digit, and no lone prefix. -/
theorem extractHex_of_unskipped (noBlank : ¬ isspace a = true) (noPlus : a ≠ 43)
    (noMinus : a ≠ 45) :
    (extractHex takesPrefix [a, b]).isSome = true ↔
      isxdigit a = true ∧ ¬ IsLonePrefix takesPrefix a b := by
  rw [isSome_extractHex_iff, List.dropWhile_cons_of_neg noBlank,
    splitSign_of_noSign noPlus noMinus]
  by_cases lone : IsLonePrefix takesPrefix a b
  · have nothing : numberDigits takesPrefix [a, b] = [] := by
      obtain ⟨rfl, rfl, rfl | rfl⟩ := lone <;> rfl
    simp [nothing, lone]
  · rw [numberDigits_pair lone]
    cases digit : isxdigit a <;> simp [digit, lone]

/-- Two digits are read as their value. -/
theorem extractHex_of_digits (high : isxdigit a = true) (low : isxdigit b = true) :
    extractHex takesPrefix [a, b] =
      some ((16 * hexDigitValue a + hexDigitValue b : Nat) : Int) := by
  have noBlank : ¬ isspace a = true := by
    rw [isspace_of_isxdigit high]
    decide
  obtain ⟨noPlus, noMinus⟩ := noSign_of_isxdigit high
  have plain : ¬ IsLonePrefix takesPrefix a b := by
    rintro ⟨-, -, rfl | rfl⟩
    · cases low
    · cases low
  have digits : numberDigits takesPrefix [a, b] = [a, b] := by
    rw [numberDigits_pair plain]
    simp [high, low]
  have value : hexDigitsValue [a, b] = 16 * hexDigitValue a + hexDigitValue b := by
    simp [hexDigitsValue]
    omega
  simp only [extractHex, List.dropWhile_cons_of_neg noBlank,
    splitSign_of_noSign noPlus noMinus, digits, value]
  rfl

theorem isHexPair_iff : IsHexPair [a, b] ↔ isxdigit a = true ∧ isxdigit b = true := by
  constructor
  · rintro ⟨a', b', same, digits⟩
    cases same
    exact digits
  · intro digits
    exact ⟨a, b, rfl, digits⟩

theorem isMisread_iff :
    IsMisread takesPrefix [a, b] ↔
      (isspace a = true ∨ a = 43 ∨ a = 45) ∧ isxdigit b = true ∨
        isxdigit a = true ∧ isxdigit b = false ∧ ¬ IsLonePrefix takesPrefix a b := by
  constructor
  · rintro ⟨a', b', same, kind⟩
    cases same
    exact kind
  · intro kind
    exact ⟨a, b, rfl, kind⟩

/-- The reader finds a number in two digits and in what it misreads. -/
theorem extractHex_pair_iff :
    (extractHex takesPrefix [a, b]).isSome = true ↔
      IsHexPair [a, b] ∨ IsMisread takesPrefix [a, b] := by
  rw [isHexPair_iff, isMisread_iff]
  by_cases skipped : isspace a = true ∨ a = 43 ∨ a = 45
  · have noDigit : ¬ isxdigit a = true := by
      intro digit
      rcases skipped with blank | rfl | rfl
      · rw [isspace_of_isxdigit digit] at blank
        cases blank
      · cases digit
      · cases digit
    rw [extractHex_of_skipped skipped]
    constructor
    · intro second
      exact Or.inr (Or.inl ⟨skipped, second⟩)
    · rintro (⟨digit, -⟩ | ⟨-, second⟩ | ⟨digit, -⟩)
      · exact absurd digit noDigit
      · exact second
      · exact absurd digit noDigit
  · have noBlank : ¬ isspace a = true := fun blank => skipped (Or.inl blank)
    have noPlus : a ≠ 43 := fun plus => skipped (Or.inr (Or.inl plus))
    have noMinus : a ≠ 45 := fun minus => skipped (Or.inr (Or.inr minus))
    rw [extractHex_of_unskipped noBlank noPlus noMinus]
    constructor
    · rintro ⟨digit, plain⟩
      cases second : isxdigit b with
      | true => exact Or.inl ⟨digit, rfl⟩
      | false => exact Or.inr (Or.inr ⟨digit, rfl, plain⟩)
    · rintro (⟨digit, second⟩ | ⟨skipped', -⟩ | ⟨digit, -, plain⟩)
      · refine ⟨digit, ?_⟩
        rintro ⟨-, -, rfl | rfl⟩
        · cases second
        · cases second
      · exact absurd skipped' skipped
      · exact ⟨digit, plain⟩

theorem not_isHexPair_of_isMisread {escape : Bytes} (misread : IsMisread takesPrefix escape) :
    ¬ IsHexPair escape := by
  rintro ⟨a, b, rfl, high, low⟩
  rcases isMisread_iff.mp misread with ⟨blank | rfl | rfl, -⟩ | ⟨-, other, -⟩
  · rw [isspace_of_isxdigit high] at blank
    cases blank
  · cases high
  · cases high
  · rw [low] at other
    cases other

end Pairs

/-! ## The scan -/

section Scan

variable {takesPrefix : Bool}

theorem escapes_pair (a b : UInt8) (rest : Bytes) :
    escapes (37 :: a :: b :: rest) = [a, b] :: escapes rest :=
  rfl

theorem escapes_other {c : UInt8} (noEscape : c ≠ 37) (rest : Bytes) :
    escapes (c :: rest) = escapes rest :=
  (escapes.eq_def _).trans (if_neg noEscape)

variable (takesPrefix) in
/-- An escape that is cut short is neither kind of escape. -/
theorem escapes_short {rest : Bytes} (short : ∀ a b more, rest = a :: b :: more → False) :
    escapes (37 :: rest) = [rest] ∧ ¬ IsHexPair rest ∧ ¬ IsMisread takesPrefix rest := by
  refine ⟨?_, ?_, ?_⟩
  · match rest with
    | [] => rfl
    | [_] => rfl
    | a :: b :: more => exact (short a b more rfl).elim
  · rintro ⟨a, b, rfl, -⟩
    exact short a b [] rfl
  · rintro ⟨a, b, rfl, -⟩
    exact short a b [] rfl

theorem urlDecodeFrom_short (out : Bytes) {rest : Bytes}
    (short : ∀ a b more, rest = a :: b :: more → False) :
    urlDecodeFrom takesPrefix out (37 :: rest) = (false, out) := by
  match rest with
  | [] => rfl
  | [_] => rfl
  | a :: b :: more => exact (short a b more rfl).elim

theorem urlDecodeFrom_plus (out rest : Bytes) :
    urlDecodeFrom takesPrefix out (43 :: rest) = urlDecodeFrom takesPrefix (out ++ [32]) rest :=
  (urlDecodeFrom.eq_def _ _ _).trans rfl

theorem urlDecodeFrom_other {c : UInt8} (noEscape : c ≠ 37) (noPlus : c ≠ 43) (out rest : Bytes) :
    urlDecodeFrom takesPrefix out (c :: rest) = urlDecodeFrom takesPrefix (out ++ [c]) rest :=
  (urlDecodeFrom.eq_def _ _ _).trans ((if_neg noEscape).trans (if_neg noPlus))

/-- The decoder returns true when the reader finds a number in every escape. -/
theorem urlDecodeFrom_true_iff (out input : Bytes) :
    (urlDecodeFrom takesPrefix out input).1 = true ↔
      ∀ escape ∈ escapes input, IsHexPair escape ∨ IsMisread takesPrefix escape := by
  induction out, input using urlDecodeFrom.induct takesPrefix with
  | case1 out => simp [urlDecodeFrom, escapes]
  | case2 out a b rest value read ih =>
      have found : IsHexPair [a, b] ∨ IsMisread takesPrefix [a, b] := by
        rw [← extractHex_pair_iff, read]
        rfl
      rw [escapes_pair, List.forall_mem_cons, ← ih]
      simp [urlDecodeFrom, read, found]
  | case3 out a b rest unread =>
      have nothing : ¬ (IsHexPair [a, b] ∨ IsMisread takesPrefix [a, b]) := by
        rw [← extractHex_pair_iff, unread]
        decide
      rw [escapes_pair, List.forall_mem_cons]
      simp [urlDecodeFrom, unread, nothing]
  | case4 out rest short =>
      obtain ⟨cut, noPair, notMisread⟩ := escapes_short takesPrefix short
      rw [cut, List.forall_mem_singleton, urlDecodeFrom_short out short]
      simp [noPair, notMisread]
  | case5 out rest noEscape ih => rw [escapes_other noEscape, ← ih, urlDecodeFrom_plus]
  | case6 out c rest noEscape noPlus ih =>
      rw [escapes_other noEscape, ← ih, urlDecodeFrom_other noEscape noPlus]

theorem ofInt_natCast (n : Nat) : UInt8.ofInt (n : Int) = UInt8.ofNat n := by
  apply UInt8.toNat_inj.mp
  rw [UInt8.ofInt, UInt8.toNat_ofNat', UInt8.toNat_ofNat']
  omega

/-- A text that the strict decoder takes is decoded in the same way. -/
theorem urlDecodeFrom_of_decodes {input decoded : Bytes} (decodes : Decodes input decoded)
    (out : Bytes) : urlDecodeFrom takesPrefix out input = (true, out ++ decoded) := by
  induction decodes generalizing out with
  | nil => simp [urlDecodeFrom]
  | escape high low rest ih =>
      simp only [urlDecodeFrom, extractHex_of_digits high low, if_true, ih, ofInt_natCast]
      simp
  | plus rest ih =>
      rw [urlDecodeFrom_plus, ih]
      simp
  | other noEscape noPlus rest ih =>
      rw [urlDecodeFrom_other noEscape noPlus, ih]
      simp

/-- The strict decoder takes the texts whose escapes are all well formed. -/
theorem exists_decodes_iff (input : Bytes) :
    (∃ out, Decodes input out) ↔ ∀ escape ∈ escapes input, IsHexPair escape := by
  constructor
  · rintro ⟨out, decodes⟩
    induction decodes with
    | nil => simp [escapes]
    | escape high low rest ih =>
        rw [escapes_pair, List.forall_mem_cons]
        exact ⟨isHexPair_iff.mpr ⟨high, low⟩, ih⟩
    | plus rest ih =>
        rw [escapes_other (by decide)]
        exact ih
    | other noEscape noPlus rest ih =>
        rw [escapes_other noEscape]
        exact ih
  · intro wellFormed
    induction input using escapes.induct with
    | case1 => exact ⟨[], .nil⟩
    | case2 a b rest ih =>
        rw [escapes_pair, List.forall_mem_cons, isHexPair_iff] at wellFormed
        obtain ⟨⟨high, low⟩, later⟩ := wellFormed
        obtain ⟨out, decodes⟩ := ih later
        exact ⟨_, .escape high low decodes⟩
    | case3 rest short =>
        obtain ⟨cut, noPair, -⟩ := escapes_short true short
        rw [cut, List.forall_mem_singleton] at wellFormed
        exact absurd wellFormed noPair
    | case4 c rest noEscape ih =>
        rw [escapes_other noEscape] at wellFormed
        obtain ⟨out, decodes⟩ := ih wellFormed
        by_cases plus : c = 43
        · subst plus
          exact ⟨_, .plus decodes⟩
        · exact ⟨_, .other noEscape plus decodes⟩

end Scan

/-- The code decodes a text as the strict decoder does if and only if it meets no escape
that the reader misreads, or one in which it finds no number. -/
theorem decodes_strictly_iff (takesPrefix : Bool) (input : Bytes) :
    DecodesStrictly takesPrefix input ↔
      (∀ escape ∈ escapes input, ¬ IsMisread takesPrefix escape) ∨
        ∃ escape ∈ escapes input, ¬ IsHexPair escape ∧ ¬ IsMisread takesPrefix escape := by
  have sameOutput : ∀ out, Decodes input out → (urlDecode takesPrefix input).2 = out := by
    intro out decodes
    rw [urlDecode, urlDecodeFrom_of_decodes decodes]
    rfl
  rw [DecodesStrictly, and_iff_left sameOutput, exists_decodes_iff, urlDecode,
    urlDecodeFrom_true_iff]
  constructor
  · intro same
    by_contra neither
    obtain ⟨someMisread, allFound⟩ := not_or.mp neither
    have found : ∀ escape ∈ escapes input,
        IsHexPair escape ∨ IsMisread takesPrefix escape := by
      intro escape member
      by_contra unread
      exact allFound ⟨escape, member, not_or.mp unread⟩
    apply someMisread
    intro escape member misread
    exact not_isHexPair_of_isMisread misread (same.mp found escape member)
  · rintro (noneMisread | ⟨escape, member, noPair, notMisread⟩)
    · constructor
      · intro found escape member
        exact (found escape member).resolve_right (noneMisread escape member)
      · intro pairs escape member
        exact Or.inl (pairs escape member)
    · constructor
      · intro found
        rcases found escape member with pair | misread
        · exact absurd pair noPair
        · exact absurd misread notMisread
      · intro pairs
        exact absurd (pairs escape member) noPair

/-- One digit and another character after a percent sign. -/
def halfEscape : Bytes :=
  ascii "%1g"

/-- The code decodes the one digit and drops the other character. -/
theorem halfEscape_accepted :
    urlDecode true halfEscape = (true, [1]) ∧ urlDecode false halfEscape = (true, [1]) ∧
      ¬ DecodesStrictly true halfEscape ∧ ¬ DecodesStrictly false halfEscape := by
  have noPair : ¬ ∃ out, Decodes halfEscape out := by
    rw [exists_decodes_iff]
    intro pairs
    have pair := pairs (ascii "1g") (by decide)
    exact absurd (isHexPair_iff.mp pair).2 (by decide)
  have accepted : ∀ takesPrefix, urlDecode takesPrefix halfEscape = (true, [1]) := by
    intro takesPrefix
    cases takesPrefix
    · rfl
    · rfl
  refine ⟨accepted true, accepted false, ?_, ?_⟩
  · intro strictly
    exact noPair (strictly.1.mp (by rw [accepted]))
  · intro strictly
    exact noPair (strictly.1.mp (by rw [accepted]))

end CleanArchitecture.RequestHandler
