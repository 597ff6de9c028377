import Mathlib.Algebra.Ring.Int.Defs
import Mathlib.Algebra.Ring.Nat
import Mathlib.Data.List.TakeWhile

/-!
# The C++ standard library as the server uses it

`std::string` is a list of bytes.  The functions below follow the documented
behaviour of the members and free functions the server calls, in the "C" locale,
including the exceptions they throw and the integer conversions around them.
-/

namespace CleanArchitecture

abbrev Bytes := List UInt8

/-- The bytes of an ASCII literal. -/
def ascii (text : String) : Bytes :=
  text.toList.map Char.toUInt8

/-- The exceptions that standard conversions and accesses throw. -/
inductive StdException
  | invalidArgument
  | outOfRange
  | lengthError
  deriving DecidableEq, Repr

/-! ## Characters -/

/-- The `int` a `char` is promoted to: `char` is signed. -/
def charToInt (c : UInt8) : Int :=
  (c.toNat : Int).bmod 256

def tolower (c : UInt8) : UInt8 :=
  if 65 ≤ c ∧ c ≤ 90 then c + 32 else c

def isspace (c : UInt8) : Bool :=
  c == 32 || (9 ≤ c && c ≤ 13)

def isdigit (c : UInt8) : Bool :=
  48 ≤ c && c ≤ 57

/-! ## Machine integers -/

/-- Reduction to a 32-bit `int`, as two's complement code computes it. -/
def toInt32 (z : Int) : Int :=
  z.bmod (2 ^ 32)

/-- Conversion to `uint`. -/
def toUint32 (z : Int) : Nat :=
  (z % 2 ^ 32).toNat

/-- Conversion to `std::size_t`. -/
def toSizeT (z : Int) : Nat :=
  (z % 2 ^ 64).toNat

theorem toInt32_of_bounds {z : Int} (low : -2 ^ 31 ≤ z) (high : z < 2 ^ 31) : toInt32 z = z := by
  rw [toInt32]
  exact Int.bmod_eq_of_le (by omega) (by omega)

theorem toUint32_of_nonneg {z : Int} (nonneg : 0 ≤ z) (fits : z < 2 ^ 32) :
    (toUint32 z : Int) = z := by
  rw [toUint32, Int.emod_eq_of_lt nonneg fits, Int.toNat_of_nonneg nonneg]

theorem toSizeT_of_nonneg {z : Int} (nonneg : 0 ≤ z) (fits : z < 2 ^ 64) :
    (toSizeT z : Int) = z := by
  rw [toSizeT, Int.emod_eq_of_lt nonneg fits, Int.toNat_of_nonneg nonneg]

theorem toUint32_of_neg {z : Int} (neg : z < 0) (fits : -2 ^ 32 ≤ z) :
    (toUint32 z : Int) = z + 2 ^ 32 := by
  rw [toUint32]
  omega

theorem toSizeT_of_neg {z : Int} (neg : z < 0) (fits : -2 ^ 64 ≤ z) :
    (toSizeT z : Int) = z + 2 ^ 64 := by
  rw [toSizeT]
  omega

/-! ## Strings -/

theorem takeWhile_ne_eq_self {s : Bytes} {c : UInt8} (absent : c ∉ s) :
    s.takeWhile (· != c) = s := by
  rw [List.takeWhile_eq_self_iff]
  intro other member
  exact bne_iff_ne.mpr fun same => absent (same ▸ member)

theorem takeWhile_ne_append {s : Bytes} {c : UInt8} (absent : c ∉ s) (rest : Bytes) :
    (s ++ c :: rest).takeWhile (· != c) = s := by
  rw [List.takeWhile_append_of_pos]
  · simp
  · intro other member
    exact bne_iff_ne.mpr fun same => absent (same ▸ member)

/-- The text a `const char*` to the start of a string is read as. -/
def cStr (s : Bytes) : Bytes :=
  s.takeWhile (· != 0)

theorem cStr_eq_self {s : Bytes} (noNul : 0 ∉ s) : cStr s = s :=
  takeWhile_ne_eq_self noNul

theorem cStr_append_zero {s : Bytes} (noNul : 0 ∉ s) (rest : Bytes) : cStr (s ++ 0 :: rest) = s :=
  takeWhile_ne_append noNul rest

theorem zero_notMem_cStr (s : Bytes) : 0 ∉ cStr s := by
  intro nul
  have nonzero := List.mem_takeWhile_imp nul
  cases nonzero

/-- The UTF-8 encoding of a text. -/
def ValidUtf8 (s : Bytes) : Prop :=
  ∃ text : List Char, text.flatMap String.utf8EncodeChar = s

theorem zero_ne_ofNat {n : Nat} (positive : 0 < n) (fits : n < 256) : 0 ≠ UInt8.ofNat n := by
  intro equal
  have values := congrArg UInt8.toNat equal
  rw [UInt8.toNat_ofNat', Nat.mod_eq_of_lt fits] at values
  exact positive.ne values

theorem ofNat_ge {n : Nat} (large : 128 ≤ n) (fits : n < 256) : 128 ≤ (UInt8.ofNat n).toNat := by
  rw [UInt8.toNat_ofNat', Nat.mod_eq_of_lt fits]
  exact large

/-- All bytes of a character beyond ASCII are beyond ASCII. -/
theorem high_of_mem_utf8EncodeChar {c : Char} (wide : 127 < c.val.toNat) :
    ∀ b ∈ String.utf8EncodeChar c, 128 ≤ b.toNat := by
  simp only [String.utf8EncodeChar]
  split_ifs <;> simp only [List.forall_mem_cons]
  · omega
  · exact ⟨ofNat_ge (by omega) (by omega), ofNat_ge (by omega) (by omega), List.forall_mem_nil _⟩
  · exact ⟨ofNat_ge (by omega) (by omega), ofNat_ge (by omega) (by omega),
      ofNat_ge (by omega) (by omega), List.forall_mem_nil _⟩
  · exact ⟨ofNat_ge (by omega) (by omega), ofNat_ge (by omega) (by omega),
      ofNat_ge (by omega) (by omega), ofNat_ge (by omega) (by omega), List.forall_mem_nil _⟩

theorem utf8EncodeChar_of_ascii {c : Char} (small : c.val.toNat ≤ 127) :
    String.utf8EncodeChar c = [UInt8.ofNat c.val.toNat] := by
  rw [String.utf8EncodeChar, if_pos small]

/-- Only the character NUL has a zero byte. -/
theorem zero_notMem_utf8EncodeChar {c : Char} (nonzero : c.val ≠ 0) :
    0 ∉ String.utf8EncodeChar c := by
  have positive : 0 < c.val.toNat :=
    Nat.pos_of_ne_zero fun zero => nonzero (UInt32.toNat_inj.mp zero)
  by_cases small : c.val.toNat ≤ 127
  · rw [utf8EncodeChar_of_ascii small, List.mem_singleton]
    exact zero_ne_ofNat positive (by omega)
  · intro member
    have high := high_of_mem_utf8EncodeChar (by omega) 0 member
    cases high

/-- The text up to its NUL is encoded by the bytes up to the first zero. -/
theorem validUtf8_cStr {s : Bytes} (valid : ValidUtf8 s) : ValidUtf8 (cStr s) := by
  obtain ⟨text, rfl⟩ := valid
  induction text with
  | nil => exact ⟨[], rfl⟩
  | cons c text ih =>
      rw [List.flatMap_cons]
      by_cases nul : c.val = 0
      · obtain rfl : c = Char.ofNat 0 := Char.ext nul
        exact ⟨[], rfl⟩
      · obtain ⟨rest, spelt⟩ := ih
        refine ⟨c :: rest, ?_⟩
        rw [List.flatMap_cons, spelt, cStr, cStr, List.takeWhile_append_of_pos]
        intro byte member
        exact bne_iff_ne.mpr fun zero => zero_notMem_utf8EncodeChar nul (zero ▸ member)

/-- `s.find(c, pos)`, with `none` for `npos`. -/
def find (s : Bytes) (c : UInt8) (pos : Nat) : Option Nat :=
  ((s.drop pos).findIdx? (· == c)).map (· + pos)

theorem find_bounds {s : Bytes} {c : UInt8} {pos n : Nat} (found : find s c pos = some n) :
    pos ≤ n ∧ n < s.length := by
  obtain ⟨k, index, rfl⟩ := Option.map_eq_some_iff.mp found
  have inside := (List.findIdx?_eq_some_iff_findIdx_eq.mp index).1
  rw [List.length_drop] at inside
  omega

theorem find_eq_none {s : Bytes} {c : UInt8} {pos : Nat} (absent : find s c pos = none) :
    c ∉ s.drop pos := by
  intro member
  have nowhere := List.findIdx?_eq_none_iff.mp (Option.map_eq_none_iff.mp absent) c member
  rw [beq_self_eq_true] at nowhere
  cases nowhere

/-- What stands between the start of a search and the byte it finds. -/
theorem find_eq_some {s : Bytes} {c : UInt8} {pos n : Nat} (found : find s c pos = some n) :
    s.drop pos = (s.drop pos).take (n - pos) ++ c :: s.drop (n + 1) ∧
      c ∉ (s.drop pos).take (n - pos) := by
  obtain ⟨k, index, rfl⟩ := Option.map_eq_some_iff.mp found
  obtain ⟨inside, hit, before⟩ := List.findIdx?_eq_some_iff_getElem.mp index
  rw [Nat.add_sub_cancel]
  constructor
  · have split : s.drop pos = (s.drop pos).take k ++ (s.drop pos).drop k :=
      (List.take_append_drop k _).symm
    rw [List.drop_eq_getElem_cons inside, beq_iff_eq.mp hit, List.drop_drop] at split
    rwa [show pos + (k + 1) = k + pos + 1 by omega] at split
  · intro member
    obtain ⟨i, earlier, there⟩ := List.mem_take_iff_getElem.mp member
    have different := before i (by omega)
    rw [there, beq_self_eq_true] at different
    exact different rfl

/-- `s.substr(pos, len)`. -/
def substr (s : Bytes) (pos len : Nat) : Except StdException Bytes :=
  if pos > s.length then .error .outOfRange else .ok ((s.drop pos).take len)

/-- `s.substr(pos)`. -/
def substrFrom (s : Bytes) (pos : Nat) : Except StdException Bytes :=
  if pos > s.length then .error .outOfRange else .ok (s.drop pos)

theorem substr_of_le {s : Bytes} {pos : Nat} (inside : pos ≤ s.length) (len : Nat) :
    substr s pos len = .ok ((s.drop pos).take len) :=
  if_neg (Nat.not_lt.mpr inside)

theorem substrFrom_of_le {s : Bytes} {pos : Nat} (inside : pos ≤ s.length) :
    substrFrom s pos = .ok (s.drop pos) :=
  if_neg (Nat.not_lt.mpr inside)

/-- No string is longer than a `std::ptrdiff_t` can count. -/
def maxSize : Nat :=
  2 ^ 63 - 1

/-- `s.append(t)`. -/
def append (s t : Bytes) : Except StdException Bytes :=
  if (s ++ t).length > maxSize then .error .lengthError else .ok (s ++ t)

theorem append_ok {s t w : Bytes} (appended : append s t = .ok w) :
    w = s ++ t ∧ w.length ≤ maxSize := by
  unfold append at appended
  split at appended
  · cases appended
  · rename_i fits
    cases appended
    exact ⟨rfl, Nat.le_of_not_gt fits⟩

/-- The decimal digits of a number, as `std::to_string` writes them. -/
def decimal (n : Nat) : Bytes :=
  (Nat.toDigits 10 n).map Char.toUInt8

/-- `std::to_string` of a signed integer. -/
def toString (z : Int) : Bytes :=
  if z < 0 then ascii "-" ++ decimal z.natAbs else decimal z.natAbs

/-- The value of a string of decimal digits. -/
def digitsValue (digits : Bytes) : Nat :=
  digits.foldl (fun value digit => value * 10 + (digit.toNat - 48)) 0

/-- An optional sign: whether it is a minus, and the text after it. -/
def splitSign : Bytes → Bool × Bytes
  | 45 :: rest => (true, rest)
  | 43 :: rest => (false, rest)
  | rest => (false, rest)

/-- The range check of a conversion to `int`. -/
def checkInt32 (value : Int) : Except StdException Int :=
  if value < -2 ^ 31 ∨ 2 ^ 31 ≤ value then .error .outOfRange else .ok value

theorem checkInt32_ok {value n : Int} :
    checkInt32 value = .ok n ↔ value = n ∧ -2 ^ 31 ≤ n ∧ n < 2 ^ 31 := by
  unfold checkInt32
  split
  · simp
    omega
  · simp
    omega

/-- `std::stoi`: leading blanks and a sign are skipped, the longest run of
digits is converted and the rest of the string is ignored. -/
def stoi (s : Bytes) : Except StdException Int :=
  let signed := splitSign (s.dropWhile isspace)
  let digits := signed.2.takeWhile isdigit
  if digits = [] then .error .invalidArgument
  else checkInt32 (if signed.1 then -(digitsValue digits) else digitsValue digits)

theorem stoi_bounds {s : Bytes} {n : Int} (converted : stoi s = .ok n) :
    -2 ^ 31 ≤ n ∧ n < 2 ^ 31 := by
  simp only [stoi] at converted
  split at converted
  · cases converted
  · exact (checkInt32_ok.mp converted).2

example : stoi (ascii " -12kB") = .ok (-12) := by decide

/-- The range check of a conversion to `long long`. -/
def checkInt64 (value : Int) : Except StdException Int :=
  if value < -2 ^ 63 ∨ 2 ^ 63 ≤ value then .error .outOfRange else .ok value

theorem checkInt64_ok {value n : Int} :
    checkInt64 value = .ok n ↔ value = n ∧ -2 ^ 63 ≤ n ∧ n < 2 ^ 63 := by
  unfold checkInt64
  split
  · simp
    omega
  · simp
    omega

/-- `std::stoll`, which differs from `std::stoi` in the range. -/
def stoll (s : Bytes) : Except StdException Int :=
  let signed := splitSign (s.dropWhile isspace)
  let digits := signed.2.takeWhile isdigit
  if digits = [] then .error .invalidArgument
  else checkInt64 (if signed.1 then -(digitsValue digits) else digitsValue digits)

/-- A decimal numeral: one or more digits and nothing else. -/
def IsNumeral (s : Bytes) (n : Nat) : Prop :=
  s ≠ [] ∧ (∀ c ∈ s, isdigit c = true) ∧ digitsValue s = n

theorem isspace_of_isdigit {c : UInt8} (digit : isdigit c = true) : isspace c = false := by
  simp only [isdigit, Bool.and_eq_true, decide_eq_true_eq, UInt8.le_iff_toNat_le] at digit
  simp only [isspace, Bool.or_eq_false_iff, beq_eq_false_iff_ne, Bool.and_eq_false_imp,
    decide_eq_true_eq, decide_eq_false_iff_not, UInt8.le_iff_toNat_le, ne_eq, ← UInt8.toNat_inj]
  simp only [UInt8.toNat_ofNat] at digit ⊢
  omega

theorem isdigit_digitChar : ∀ d < 10, isdigit (Nat.digitChar d).toUInt8 = true := by
  decide

theorem digitChar_value : ∀ d < 10, (Nat.digitChar d).toUInt8.toNat - 48 = d := by
  decide

theorem digitsValue_concat (digits : Bytes) (digit : UInt8) :
    digitsValue (digits ++ [digit]) = digitsValue digits * 10 + (digit.toNat - 48) := by
  simp [digitsValue]

/-- The decimal digits of a number are a numeral of it. -/
theorem isNumeral_decimal (n : Nat) : IsNumeral (decimal n) n := by
  induction n using Nat.strongRecOn with
  | ind n ih =>
      have digit := isdigit_digitChar (n % 10) (Nat.mod_lt n (by omega))
      have unit := digitChar_value (n % 10) (Nat.mod_lt n (by omega))
      rw [decimal, Nat.toDigits_eq_if (by omega)]
      split
      · rename_i small
        rw [Nat.mod_eq_of_lt small] at digit unit
        refine ⟨by simp, fun c member => ?_, ?_⟩
        · rwa [List.mem_singleton.mp member]
        · simpa [digitsValue] using unit
      · obtain ⟨-, digits, value⟩ := ih (n / 10) (by omega)
        rw [decimal] at digits value
        rw [List.map_append, List.map_singleton]
        refine ⟨by simp, fun c member => ?_, ?_⟩
        · rcases List.mem_append.mp member with earlier | last
          · exact digits c earlier
          · rwa [List.mem_singleton.mp last]
        · rw [digitsValue_concat, value, unit]
          omega

theorem splitSign_of_noSign {c : UInt8} (noPlus : c ≠ 43) (noMinus : c ≠ 45) (rest : Bytes) :
    splitSign (c :: rest) = (false, c :: rest) := by
  unfold splitSign
  split
  · rename_i minus
    exact absurd (List.cons.inj minus).1 noMinus
  · rename_i plus
    exact absurd (List.cons.inj plus).1 noPlus
  · rfl

/-- A digit is no sign. -/
theorem splitSign_of_isdigit {c : UInt8} (digit : isdigit c = true) (rest : Bytes) :
    splitSign (c :: rest) = (false, c :: rest) := by
  apply splitSign_of_noSign
  · intro plus
    rw [plus] at digit
    cases digit
  · intro minus
    rw [minus] at digit
    cases digit

/-- A numeral has neither blanks nor a sign before its digits. -/
theorem splitSign_of_isNumeral {s : Bytes} {n : Nat} (numeral : IsNumeral s n) :
    splitSign (s.dropWhile isspace) = (false, s) ∧ s.takeWhile isdigit = s := by
  obtain ⟨nonempty, digits, -⟩ := numeral
  obtain ⟨c, rest, rfl⟩ := List.exists_cons_of_ne_nil nonempty
  have first : isdigit c = true := digits c (by simp)
  have noSkip : (c :: rest).dropWhile isspace = c :: rest := by
    simp [isspace_of_isdigit first]
  have all : (c :: rest).takeWhile isdigit = c :: rest := by
    rw [List.takeWhile_eq_self_iff]
    exact digits
  refine ⟨?_, all⟩
  rw [noSkip, splitSign_of_isdigit first]

/-- A numeral in range is converted to its value. -/
theorem stoi_of_isNumeral {s : Bytes} {n : Nat} (numeral : IsNumeral s n) (fits : n < 2 ^ 31) :
    stoi s = .ok n := by
  obtain ⟨noSign, all⟩ := splitSign_of_isNumeral numeral
  obtain ⟨nonempty, -, value⟩ := numeral
  simp only [stoi, noSign, all, value]
  rw [if_neg nonempty]
  exact checkInt32_ok.mpr ⟨by simp, by omega⟩

/-- The text of an integer is split into its sign and the digits of its absolute value. -/
theorem splitSign_toString (z : Int) :
    splitSign ((toString z).dropWhile isspace) = (decide (z < 0), decimal z.natAbs) := by
  unfold toString
  split
  · rename_i negative
    rw [decide_eq_true negative]
    rfl
  · rename_i nonneg
    rw [decide_eq_false nonneg]
    exact (splitSign_of_isNumeral (isNumeral_decimal z.natAbs)).1

/-- The value of the text of an integer. -/
theorem signedValue_toString (z : Int) :
    (if decide (z < 0) = true then -(digitsValue (decimal z.natAbs) : Int)
      else digitsValue (decimal z.natAbs)) = z := by
  rw [(isNumeral_decimal z.natAbs).2.2]
  simp only [decide_eq_true_eq]
  split <;> omega

theorem stoi_toString {z : Int} (low : -2 ^ 31 ≤ z) (high : z < 2 ^ 31) :
    stoi (toString z) = .ok z := by
  obtain ⟨-, all⟩ := splitSign_of_isNumeral (isNumeral_decimal z.natAbs)
  simp only [stoi, splitSign_toString, all, signedValue_toString]
  rw [if_neg (isNumeral_decimal z.natAbs).1]
  exact if_neg (by omega)

theorem stoll_toString {z : Int} (low : -2 ^ 63 ≤ z) (high : z < 2 ^ 63) :
    stoll (toString z) = .ok z := by
  obtain ⟨-, all⟩ := splitSign_of_isNumeral (isNumeral_decimal z.natAbs)
  simp only [stoll, splitSign_toString, all, signedValue_toString]
  rw [if_neg (isNumeral_decimal z.natAbs).1]
  exact if_neg (by omega)

theorem notMem_decimal {c : UInt8} (noDigit : isdigit c = false) (n : Nat) : c ∉ decimal n := by
  intro member
  have digit := (isNumeral_decimal n).2.1 c member
  rw [noDigit] at digit
  cases digit

/-- The text of an integer consists of digits and a minus sign. -/
theorem notMem_toString {c : UInt8} (noDigit : isdigit c = false) (noSign : c ≠ 45) (z : Int) :
    c ∉ toString z := by
  unfold toString
  split
  · rw [List.mem_append, not_or]
    constructor
    · intro member
      exact noSign (List.mem_singleton.mp member)
    · exact notMem_decimal noDigit z.natAbs
  · exact notMem_decimal noDigit z.natAbs

theorem zero_notMem_toString (z : Int) : 0 ∉ toString z :=
  notMem_toString rfl (by decide) z

end CleanArchitecture
