import CleanArchitecture.StringUtils
import Mathlib.Data.List.Induction

/-!
# UTF-8 texts without their blanks

ASCII bytes are characters of their own, so that a text from which they are cut at either
end is still UTF-8.  This holds of trimmed texts, and of trimmed texts up to a NUL.
-/

namespace CleanArchitecture

/-! ## Decoding -/

theorem validUtf8_iff {s : Bytes} : ValidUtf8 s ↔ s.toByteArray.IsValidUTF8 := by
  constructor
  · rintro ⟨text, rfl⟩
    exact ⟨text, rfl⟩
  · rintro ⟨text, spelt⟩
    exact ⟨text, (List.toByteArray_inj.mp spelt).symm⟩

instance (s : Bytes) : Decidable (ValidUtf8 s) :=
  decidable_of_iff _ validUtf8_iff.symm

/-! ## ASCII -/

theorem validUtf8_of_ascii {s : Bytes} (small : ∀ b ∈ s, b.toNat < 128) : ValidUtf8 s := by
  induction s with
  | nil => exact ⟨[], rfl⟩
  | cons b s ih =>
      rw [List.forall_mem_cons] at small
      obtain ⟨text, rfl⟩ := ih small.2
      refine ⟨Char.ofNat b.toNat :: text, ?_⟩
      have value : (Char.ofNat b.toNat).val.toNat = b.toNat := by
        rw [Char.ofNat, dif_pos (.inl (by omega))]
        rfl
      rw [List.flatMap_cons, utf8EncodeChar_of_ascii (by omega), value, UInt8.ofNat_toNat,
        List.singleton_append]

/-- A character with an ASCII byte is that byte. -/
theorem utf8EncodeChar_of_mem {c : Char} {b : UInt8} (small : b.toNat < 128)
    (member : b ∈ String.utf8EncodeChar c) : String.utf8EncodeChar c = [b] := by
  by_cases wide : 127 < c.val.toNat
  · have high := high_of_mem_utf8EncodeChar wide b member
    omega
  · have single := utf8EncodeChar_of_ascii (not_lt.mp wide)
    rw [single, List.mem_singleton] at member
    rw [single, member]

theorem validUtf8_of_cons {b : UInt8} {s : Bytes} (small : b.toNat < 128)
    (valid : ValidUtf8 (b :: s)) : ValidUtf8 s := by
  obtain ⟨text, spelt⟩ := valid
  cases text with
  | nil => cases spelt
  | cons c text =>
      rw [List.flatMap_cons] at spelt
      have first : b ∈ String.utf8EncodeChar c := by
        cases encoded : String.utf8EncodeChar c with
        | nil => exact absurd encoded (String.utf8EncodeChar_ne_nil)
        | cons d rest =>
            rw [encoded, List.cons_append] at spelt
            rw [(List.cons.inj spelt).1]
            exact List.mem_cons_self
      rw [utf8EncodeChar_of_mem small first, List.singleton_append] at spelt
      exact ⟨text, (List.cons.inj spelt).2⟩

theorem validUtf8_of_concat {b : UInt8} {s : Bytes} (small : b.toNat < 128)
    (valid : ValidUtf8 (s ++ [b])) : ValidUtf8 s := by
  obtain ⟨text, spelt⟩ := valid
  rcases List.eq_nil_or_concat text with rfl | ⟨text, c, rfl⟩
  · exact absurd spelt.symm (by simp)
  · rw [List.concat_eq_append, List.flatMap_append, List.flatMap_singleton] at spelt
    have last : b ∈ String.utf8EncodeChar c := by
      have ends := congrArg List.getLast? spelt
      rw [List.getLast?_append, List.getLast?_concat] at ends
      cases encoded : (String.utf8EncodeChar c).getLast? with
      | none =>
          exact absurd (List.getLast?_eq_none_iff.mp encoded) String.utf8EncodeChar_ne_nil
      | some d =>
          rw [encoded, Option.some_or] at ends
          rw [← Option.some.inj ends]
          exact List.mem_of_getLast? encoded
    rw [utf8EncodeChar_of_mem small last] at spelt
    exact ⟨text, (List.append_inj' spelt rfl).1⟩

theorem validUtf8_of_append_left {blanks s : Bytes} (small : ∀ b ∈ blanks, b.toNat < 128)
    (valid : ValidUtf8 (blanks ++ s)) : ValidUtf8 s := by
  induction blanks with
  | nil => exact valid
  | cons b blanks ih =>
      rw [List.forall_mem_cons] at small
      exact ih small.2 (validUtf8_of_cons small.1 valid)

theorem validUtf8_of_append_right {s blanks : Bytes} (small : ∀ b ∈ blanks, b.toNat < 128)
    (valid : ValidUtf8 (s ++ blanks)) : ValidUtf8 s := by
  induction blanks using List.reverseRecOn with
  | nil => rwa [List.append_nil] at valid
  | append_singleton blanks b ih =>
      rw [List.forall_mem_append, List.forall_mem_singleton] at small
      rw [← List.append_assoc] at valid
      exact ih small.1 (validUtf8_of_concat small.2 valid)

/-! ## Trimmed texts -/

theorem toNat_of_isspace {b : UInt8} (blank : isspace b = true) : b.toNat < 128 := by
  simp only [isspace, Bool.or_eq_true, beq_iff_eq, Bool.and_eq_true, decide_eq_true_eq,
    UInt8.le_iff_toNat_le] at blank
  rcases blank with rfl | ⟨-, high⟩
  · decide
  · exact lt_of_le_of_lt high (by decide)

theorem ne_zero_of_isspace {b : UInt8} (blank : isspace b = true) : b ≠ 0 := by
  rintro rfl
  cases blank

/-- A text is its trimmed part between blanks. -/
theorem exists_trim (s : Bytes) : ∃ before after, s = before ++ (trim s ++ after) ∧
    (∀ b ∈ before, isspace b = true) ∧ ∀ b ∈ after, isspace b = true := by
  refine ⟨s.takeWhile isspace, ((ltrim s).reverse.takeWhile isspace).reverse, ?_, ?_, ?_⟩
  · rw [trim, rtrim, ← List.reverse_append, List.takeWhile_append_dropWhile, List.reverse_reverse,
      ltrim, List.takeWhile_append_dropWhile]
  · exact fun b member => List.mem_takeWhile_imp member
  · exact fun b member => List.mem_takeWhile_imp (List.mem_reverse.mp member)

/-- What is read of a trimmed text is the text that was read, less some blanks. -/
theorem validUtf8_cStr_trim {s : Bytes} (valid : ValidUtf8 (cStr s)) :
    ValidUtf8 (cStr (trim s)) := by
  obtain ⟨before, after, parts, blanks, blanks'⟩ := exists_trim s
  have read : cStr s = before ++ cStr (trim s ++ after) := by
    conv_lhs => rw [parts]
    exact List.takeWhile_append_of_pos fun b member =>
      bne_iff_ne.mpr (ne_zero_of_isspace (blanks b member))
  rw [read] at valid
  have cut := validUtf8_of_append_left (fun b member => toNat_of_isspace (blanks b member)) valid
  by_cases nul : 0 ∈ trim s
  · obtain ⟨start, rest, same, clean⟩ := List.eq_append_cons_of_mem nul
    rw [same, List.append_assoc, List.cons_append, cStr_append_zero clean] at cut
    rwa [same, cStr_append_zero clean]
  · have whole : 0 ∉ trim s ++ after := by
      rw [List.mem_append, not_or]
      exact ⟨nul, fun member => ne_zero_of_isspace (blanks' 0 member) rfl⟩
    rw [cStr_eq_self whole] at cut
    rw [cStr_eq_self nul]
    exact validUtf8_of_append_right (fun b member => toNat_of_isspace (blanks' b member)) cut

end CleanArchitecture
