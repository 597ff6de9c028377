import CleanArchitecture.StandardLibrary
import Mathlib.Data.List.Basic

/-!
# Numbers at the beginning of a text

The conversions of the standard library skip leading blanks and ignore what follows the
digits.  They find exactly the number that a text begins with, and for the text of a C
string it is the same one.
-/

namespace CleanArchitecture

/-! ## Signed numerals -/

/-- Decimal digits with or without a sign, and nothing else. -/
def IsSignedNumeral (s : Bytes) (z : Int) : Prop :=
  ∃ digits N, IsNumeral digits N ∧
    (s = digits ∧ z = N ∨ s = ascii "+" ++ digits ∧ z = N ∨ s = ascii "-" ++ digits ∧ z = -N)

/-- A text begins with a number: a signed numeral behind blanks and before a rest that does
not continue its digits. -/
structure LeadingNumber (s blanks numeral rest : Bytes) (z : Int) : Prop where
  split : s = blanks ++ numeral ++ rest
  blanks : ∀ c ∈ blanks, isspace c = true
  numeral : IsSignedNumeral numeral z
  stop : ∀ c ∈ rest.head?, isdigit c = false

/-- The number that a conversion finds, before its range is checked. -/
def signedNumber (s : Bytes) : Option Int :=
  let signed := splitSign (s.dropWhile isspace)
  let digits := signed.2.takeWhile isdigit
  if digits = [] then none
  else some (if signed.1 then -(digitsValue digits) else digitsValue digits)

theorem stoi_eq (s : Bytes) :
    stoi s =
      match signedNumber s with
      | none => .error .invalidArgument
      | some z => checkInt32 z := by
  simp only [stoi, signedNumber]
  split <;> rfl

theorem stoll_eq (s : Bytes) :
    stoll s =
      match signedNumber s with
      | none => .error .invalidArgument
      | some z => checkInt64 z := by
  simp only [stoll, signedNumber]
  split <;> rfl

theorem stoi_ok_iff {s : Bytes} {z : Int} :
    stoi s = .ok z ↔ signedNumber s = some z ∧ -2 ^ 31 ≤ z ∧ z < 2 ^ 31 := by
  rw [stoi_eq]
  cases signedNumber s with
  | none => simp
  | some y => rw [checkInt32_ok, Option.some.injEq]

theorem stoll_ok_iff {s : Bytes} {z : Int} :
    stoll s = .ok z ↔ signedNumber s = some z ∧ -2 ^ 63 ≤ z ∧ z < 2 ^ 63 := by
  rw [stoll_eq]
  cases signedNumber s with
  | none => simp
  | some y => rw [checkInt64_ok, Option.some.injEq]

/-- A run is cut from a text at the first byte that is not of its class. -/
theorem takeWhile_run {p : UInt8 → Bool} {run rest : Bytes} (inside : ∀ c ∈ run, p c = true)
    (stop : ∀ c ∈ rest.head?, p c = false) :
    (run ++ rest).takeWhile p = run ∧ (run ++ rest).dropWhile p = rest := by
  rw [List.takeWhile_append_of_pos inside, List.dropWhile_append_of_pos inside]
  cases rest with
  | nil => simp
  | cons c rest =>
      have other : p c = false := stop c rfl
      simp [other]

theorem IsSignedNumeral.ne_nil {s : Bytes} {z : Int} (numeral : IsSignedNumeral s z) : s ≠ [] := by
  obtain ⟨digits, N, isNumeral, ⟨rfl, -⟩ | ⟨rfl, -⟩ | ⟨rfl, -⟩⟩ := numeral
  · exact isNumeral.1
  · exact List.cons_ne_nil 43 digits
  · exact List.cons_ne_nil 45 digits

/-- The sign and the digits of a signed numeral, whatever follows it. -/
theorem splitSign_of_isSignedNumeral {s : Bytes} {z : Int} (numeral : IsSignedNumeral s z) :
    ∃ negative digits, digits ≠ [] ∧ (∀ c ∈ digits, isdigit c = true) ∧
      z = (if negative then -(digitsValue digits : Int) else digitsValue digits) ∧
      (∀ c ∈ s.head?, isspace c = false) ∧ (∀ c ∈ s.tail, isdigit c = true) ∧
      (∀ rest, splitSign (s ++ rest) = (negative, digits ++ rest)) := by
  obtain ⟨digits, N, isNumeral, kind⟩ := numeral
  obtain ⟨nonempty, all, rfl⟩ := isNumeral
  rcases kind with ⟨rfl, rfl⟩ | ⟨rfl, rfl⟩ | ⟨rfl, rfl⟩
  · obtain ⟨c, more, rfl⟩ := List.exists_cons_of_ne_nil nonempty
    have digit : isdigit c = true := all c List.mem_cons_self
    refine ⟨false, c :: more, nonempty, all, rfl, ?_, ?_, ?_⟩
    · intro d first
      cases first
      exact isspace_of_isdigit digit
    · intro d member
      exact all d (List.mem_cons_of_mem c member)
    · intro rest
      exact splitSign_of_isdigit digit (more ++ rest)
  · refine ⟨false, digits, nonempty, all, rfl, ?_, all, fun _ => rfl⟩
    intro d first
    cases first
    rfl
  · refine ⟨true, digits, nonempty, all, rfl, ?_, all, fun _ => rfl⟩
    intro d first
    cases first
    rfl

theorem isSignedNumeral_of_splitSign {s digits : Bytes} {negative : Bool}
    (signed : splitSign s = (negative, digits)) {run rest : Bytes} (cut : digits = run ++ rest)
    (nonempty : run ≠ []) (all : ∀ c ∈ run, isdigit c = true) :
    ∃ numeral, s = numeral ++ rest ∧
      IsSignedNumeral numeral (if negative then -(digitsValue run : Int) else digitsValue run) := by
  have isNumeral : IsNumeral run (digitsValue run) := ⟨nonempty, all, rfl⟩
  unfold splitSign at signed
  split at signed
  · cases signed
    rw [cut]
    exact ⟨45 :: run, rfl, run, _, isNumeral, .inr (.inr ⟨rfl, rfl⟩)⟩
  · cases signed
    rw [cut]
    exact ⟨43 :: run, rfl, run, _, isNumeral, .inr (.inl ⟨rfl, rfl⟩)⟩
  · cases signed
    rw [cut]
    exact ⟨run, rfl, run, _, isNumeral, .inl ⟨rfl, rfl⟩⟩

/-- A conversion finds the number that the text begins with. -/
theorem signedNumber_eq_some_iff {s : Bytes} {z : Int} :
    signedNumber s = some z ↔ ∃ blanks numeral rest, LeadingNumber s blanks numeral rest z := by
  constructor
  · intro found
    rcases signed : splitSign (s.dropWhile isspace) with ⟨negative, digits⟩
    simp only [signedNumber, signed] at found
    split at found
    · cases found
    · rename_i nonempty
      obtain ⟨numeral, text, isSigned⟩ := isSignedNumeral_of_splitSign signed
        (List.takeWhile_append_dropWhile (p := isdigit)).symm nonempty
        (fun c member => List.mem_takeWhile_imp member)
      refine ⟨s.takeWhile isspace, numeral, digits.dropWhile isdigit, ?_, ?_, ?_, ?_⟩
      · rw [List.append_assoc, ← text, List.takeWhile_append_dropWhile]
      · exact fun c member => List.mem_takeWhile_imp member
      · rw [← Option.some.inj found]
        exact isSigned
      · intro c first
        have stop := List.head?_dropWhile_not isdigit digits
        rw [first] at stop
        exact stop
  · rintro ⟨blanks, numeral, rest, split, allBlank, isSigned, stop⟩
    obtain ⟨negative, digits, nonempty, all, rfl, first, -, signed⟩ :=
      splitSign_of_isSignedNumeral isSigned
    have noBlank : ∀ c ∈ (numeral ++ rest).head?, isspace c = false := by
      rw [List.head?_append_of_ne_nil numeral isSigned.ne_nil]
      exact first
    have skipped : s.dropWhile isspace = numeral ++ rest := by
      rw [split, List.append_assoc]
      exact (takeWhile_run allBlank noBlank).2
    simp only [signedNumber, skipped, signed, (takeWhile_run all stop).1]
    rw [if_neg nonempty]

/-! ## Whole numerals -/

/-- A number that is all of the text. -/
theorem leadingNumber_whole {s : Bytes} {z : Int} (numeral : IsSignedNumeral s z) :
    LeadingNumber s [] s [] z where
  split := by simp
  blanks := by simp
  numeral := numeral
  stop := by simp

/-- Nothing stands around the number of a text that is a numeral. -/
theorem LeadingNumber.whole {s blanks numeral rest : Bytes} {y z : Int}
    (leading : LeadingNumber s blanks numeral rest z) (isSigned : IsSignedNumeral s y) :
    blanks = [] ∧ rest = [] := by
  obtain ⟨negative, digits, -, -, -, first, more, -⟩ := splitSign_of_isSignedNumeral isSigned
  have noBlanks : blanks = [] := by
    cases found : blanks with
    | nil => rfl
    | cons c blanks' =>
        have blank := leading.blanks c (by simp [found])
        have noBlank := first c (by simp [leading.split, found])
        rw [blank] at noBlank
        cases noBlank
  refine ⟨noBlanks, ?_⟩
  cases found : rest with
  | nil => rfl
  | cons c rest' =>
      obtain ⟨d, numeral', nonempty⟩ := List.exists_cons_of_ne_nil leading.numeral.ne_nil
      have noDigit := leading.stop c (by simp [found])
      have digit := more c (by simp [leading.split, noBlanks, nonempty, found])
      rw [digit] at noDigit
      cases noDigit

/-! ## C strings -/

theorem nonzero_of_isSignedNumeral {s : Bytes} {z : Int} (numeral : IsSignedNumeral s z) :
    ∀ c ∈ s, (c != 0) = true := by
  have digit_nonzero : ∀ c, isdigit c = true → (c != 0) = true := by
    intro c digit
    apply bne_iff_ne.mpr
    rintro rfl
    cases digit
  obtain ⟨digits, N, ⟨-, all, -⟩, kind⟩ := numeral
  have inside : ∀ c ∈ digits, (c != 0) = true := fun c member => digit_nonzero c (all c member)
  rcases kind with ⟨rfl, -⟩ | ⟨rfl, -⟩ | ⟨rfl, -⟩
  · exact inside
  · exact List.forall_mem_cons.mpr ⟨rfl, inside⟩
  · exact List.forall_mem_cons.mpr ⟨rfl, inside⟩

/-- A text begins with the same numbers up to its first NUL. -/
theorem exists_leadingNumber_cStr_iff {s : Bytes} {z : Int} :
    (∃ blanks numeral rest, LeadingNumber (cStr s) blanks numeral rest z) ↔
      ∃ blanks numeral rest, LeadingNumber s blanks numeral rest z := by
  constructor
  · rintro ⟨blanks, numeral, rest, leading⟩
    have joined : s = cStr s ++ s.dropWhile (· != 0) :=
      (List.takeWhile_append_dropWhile (p := (· != 0))).symm
    refine ⟨blanks, numeral, rest ++ s.dropWhile (· != 0), ?_, leading.blanks, leading.numeral, ?_⟩
    · rw [← List.append_assoc, ← leading.split, ← joined]
    · intro c first
      cases found : rest with
      | nil =>
          -- the rest begins with the NUL that ends the C string
          have stop := List.head?_dropWhile_not (· != 0) s
          rw [found, List.nil_append] at first
          rw [first] at stop
          have zero : c = 0 := by simpa using stop
          rw [zero]
          rfl
      | cons d rest' =>
          apply leading.stop
          rw [found] at first ⊢
          exact first
  · rintro ⟨blanks, numeral, rest, leading⟩
    have blanksNonzero : ∀ c ∈ blanks, (c != 0) = true := by
      intro c member
      apply bne_iff_ne.mpr
      rintro rfl
      cases leading.blanks 0 member
    have cut : cStr s = blanks ++ numeral ++ cStr rest := by
      rw [leading.split, cStr, List.takeWhile_append_of_pos]
      · rfl
      · exact List.forall_mem_append.mpr
          ⟨blanksNonzero, nonzero_of_isSignedNumeral leading.numeral⟩
    refine ⟨blanks, numeral, cStr rest, cut, leading.blanks, leading.numeral, ?_⟩
    intro c first
    rw [cStr, List.head?_takeWhile] at first
    exact leading.stop c (Option.mem_filter_iff.mp first).1

theorem signedNumber_cStr_iff {s : Bytes} {z : Int} :
    signedNumber (cStr s) = some z ↔
      ∃ blanks numeral rest, LeadingNumber s blanks numeral rest z := by
  rw [signedNumber_eq_some_iff, exists_leadingNumber_cStr_iff]

end CleanArchitecture
