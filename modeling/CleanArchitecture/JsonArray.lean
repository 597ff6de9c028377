import CleanArchitecture.StandardLibrary
import Mathlib.Algebra.BigOperators.Group.List.Basic

/-!
# Arrays of strings in JSON

JSON's grammar for arrays of strings, as a relation between a text and the values that it
spells, with every escape and with blanks wherever they may stand.  No spelling is shorter
than its value, and only a spelling without escapes is as short.
-/

namespace CleanArchitecture

namespace JsonArray

/-! ## The grammar -/

def IsWhitespace (text : List Char) : Prop :=
  ∀ c ∈ text, c = ' ' ∨ c = '\t' ∨ c = '\n' ∨ c = '\r'

/-- The characters that stand for themselves in a string: neither control characters nor
the quotation mark nor the reverse solidus. -/
def IsPlain (c : Char) : Prop :=
  32 ≤ c.val ∧ c ≠ '\x22' ∧ c ≠ '\x5C'

/-- The letters after a reverse solidus and the characters they stand for. -/
def escapes : List (Char × Char) :=
  [('\x22', '\x22'), ('\x5C', '\x5C'), ('/', '/'), ('b', '\x08'), ('f', '\x0C'), ('n', '\n'),
    ('r', '\r'), ('t', '\t')]

def hexDigit (c : Char) : Option Nat :=
  if '0' ≤ c ∧ c ≤ '9' then some (c.toNat - 48)
  else if 'a' ≤ c ∧ c ≤ 'f' then some (c.toNat - 87)
  else if 'A' ≤ c ∧ c ≤ 'F' then some (c.toNat - 55)
  else none

/-- The code unit that four digits write. -/
def codeUnit (digits : List Char) : Option Nat :=
  if digits.length = 4 then
    (digits.mapM hexDigit).map (List.foldl (fun value digit => value * 16 + digit) 0)
  else none

/-- What stands between the quotation marks of a string, and its value. -/
inductive SpellsString : List Char → List Char → Prop
  | nil : SpellsString [] []
  | plain {c : Char} {text value : List Char} (plain : IsPlain c) (rest : SpellsString text value) :
      SpellsString (c :: text) (c :: value)
  | escape {letter c : Char} {text value : List Char} (pair : (letter, c) ∈ escapes)
      (rest : SpellsString text value) : SpellsString ('\x5C' :: letter :: text) (c :: value)
  | unicode {digits text value : List Char} {n : Nat} (unit : codeUnit digits = some n)
      (scalar : n.isValidChar) (rest : SpellsString text value) :
      SpellsString ('\x5C' :: 'u' :: digits ++ text) (Char.ofNat n :: value)
  | surrogates {digits digits' text value : List Char} {high low : Nat}
      (unit : codeUnit digits = some high) (unit' : codeUnit digits' = some low)
      (isHigh : 0xD800 ≤ high ∧ high < 0xDC00) (isLow : 0xDC00 ≤ low ∧ low < 0xE000)
      (rest : SpellsString text value) :
      SpellsString ('\x5C' :: 'u' :: digits ++ '\x5C' :: 'u' :: digits' ++ text)
        (Char.ofNat (0x10000 + (high - 0xD800) * 0x400 + (low - 0xDC00)) :: value)

/-- A string with the blanks around it. -/
inductive SpellsElement : List Char → List Char → Prop
  | string {before text after value : List Char} (blankBefore : IsWhitespace before)
      (spelt : SpellsString text value) (blankAfter : IsWhitespace after) :
      SpellsElement (before ++ '\x22' :: text ++ '\x22' :: after) value

/-- One or more strings with commas between them. -/
inductive SpellsElements : List Char → List (List Char) → Prop
  | last {text value : List Char} (spelt : SpellsElement text value) : SpellsElements text [value]
  | cons {text rest value : List Char} {values : List (List Char)}
      (spelt : SpellsElement text value) (later : SpellsElements rest values) :
      SpellsElements (text ++ ',' :: rest) (value :: values)

/-- A whole text. -/
inductive SpellsArray : List Char → List (List Char) → Prop
  | empty {before blank after : List Char} (blankBefore : IsWhitespace before)
      (blankInside : IsWhitespace blank) (blankAfter : IsWhitespace after) :
      SpellsArray (before ++ '[' :: blank ++ ']' :: after) []
  | elements {before text after : List Char} {values : List (List Char)}
      (blankBefore : IsWhitespace before) (spelt : SpellsElements text values)
      (blankAfter : IsWhitespace after) :
      SpellsArray (before ++ '[' :: text ++ ']' :: after) values

/-! ## Sizes -/

def utf8 (text : List Char) : Bytes :=
  text.flatMap String.utf8EncodeChar

/-- The bytes of a text in UTF-8. -/
def size (text : List Char) : Nat :=
  (utf8 text).length

@[simp] theorem size_nil : size [] = 0 :=
  rfl

@[simp] theorem size_cons (c : Char) (text : List Char) :
    size (c :: text) = c.utf8Size + size text := by
  rw [size, size, utf8, utf8, List.flatMap_cons, List.length_append, String.length_utf8EncodeChar]

@[simp] theorem size_append (first second : List Char) :
    size (first ++ second) = size first + size second := by
  rw [size, size, size, utf8, utf8, utf8, List.flatMap_append, List.length_append]

theorem length_le_size (text : List Char) : text.length ≤ size text := by
  induction text with
  | nil => exact Nat.le_refl 0
  | cons c text ih =>
      have positive := c.utf8Size_pos
      rw [List.length_cons, size_cons]
      omega

theorem codeUnit_length {digits : List Char} {n : Nat} (unit : codeUnit digits = some n) :
    4 ≤ size digits := by
  have four : digits.length = 4 := by
    by_contra other
    rw [codeUnit, if_neg other] at unit
    cases unit
  have long := length_le_size digits
  omega

theorem escapes_size : ∀ pair ∈ escapes, pair.1.utf8Size = 1 ∧ pair.2.utf8Size = 1 := by
  decide

/-- No spelling is shorter than its value, and with an escape it is longer. -/
theorem SpellsString.size_le {text value : List Char} (spelt : SpellsString text value) :
    size value ≤ size text ∧ (size text ≤ size value → ∀ c ∈ value, IsPlain c) := by
  induction spelt with
  | nil => exact ⟨Nat.le_refl 0, fun _ => List.forall_mem_nil _⟩
  | plain plain rest ih =>
      rw [size_cons, size_cons]
      constructor
      · omega
      · intro short
        rw [List.forall_mem_cons]
        exact ⟨plain, ih.2 (by omega)⟩
  | escape pair rest ih =>
      obtain ⟨letterSize, charSize⟩ := escapes_size _ pair
      dsimp only at letterSize charSize
      have solidus : ('\x5C' : Char).utf8Size = 1 := by decide
      rw [size_cons, size_cons, size_cons]
      constructor
      · omega
      · intro short
        omega
  | @unicode digits text value n unit scalar rest ih =>
      have long := codeUnit_length unit
      have charSize := (Char.ofNat n).utf8Size_le_four
      have solidus : ('\x5C' : Char).utf8Size = 1 := by decide
      rw [size_append, size_cons, size_cons, size_cons]
      constructor
      · omega
      · intro short
        omega
  | @surrogates digits digits' text value high low unit unit' isHigh isLow rest ih =>
      have long := codeUnit_length unit
      have charSize :=
        (Char.ofNat (0x10000 + (high - 0xD800) * 0x400 + (low - 0xDC00))).utf8Size_le_four
      have solidus : ('\x5C' : Char).utf8Size = 1 := by decide
      rw [size_append, size_append, size_cons, size_cons, size_cons]
      constructor
      · omega
      · intro short
        omega

/-- The bytes of the values, each with its two quotation marks and a comma. -/
def quotedSize (values : List (List Char)) : Nat :=
  (values.map fun value => size value + 3).sum

def AllPlain (values : List (List Char)) : Prop :=
  ∀ value ∈ values, ∀ c ∈ value, IsPlain c

theorem SpellsElement.size_le {text value : List Char} (spelt : SpellsElement text value) :
    size value + 2 ≤ size text ∧ (size text ≤ size value + 2 → ∀ c ∈ value, IsPlain c) := by
  cases spelt with
  | @string before text after value blankBefore spelt blankAfter =>
      obtain ⟨le, plain⟩ := spelt.size_le
      have mark : ('\x22' : Char).utf8Size = 1 := by decide
      rw [size_append, size_append, size_cons, size_cons]
      constructor
      · omega
      · intro short
        exact plain (by omega)

/-- The last comma is not written. -/
theorem SpellsElements.size_le {text : List Char} {values : List (List Char)}
    (spelt : SpellsElements text values) :
    quotedSize values ≤ size text + 1 ∧ (size text + 1 ≤ quotedSize values → AllPlain values) := by
  induction spelt with
  | @last text value spelt =>
      obtain ⟨le, plain⟩ := spelt.size_le
      have single : quotedSize [value] = size value + 3 := by
        simp [quotedSize]
      rw [single]
      constructor
      · omega
      · intro short
        rw [AllPlain, List.forall_mem_singleton]
        exact plain (by omega)
  | @cons text rest value values spelt later ih =>
      obtain ⟨le, plain⟩ := spelt.size_le
      have comma : (',' : Char).utf8Size = 1 := by decide
      have both : quotedSize (value :: values) = size value + 3 + quotedSize values := by
        simp [quotedSize]
      rw [both, size_append, size_cons]
      constructor
      · omega
      · intro short
        rw [AllPlain, List.forall_mem_cons]
        exact ⟨plain (by omega), ih.2 (by omega)⟩

theorem brackets_size (before text after : List Char) :
    size text + 2 ≤ size (before ++ '[' :: text ++ ']' :: after) := by
  have opening : ('[' : Char).utf8Size = 1 := by decide
  have closing : (']' : Char).utf8Size = 1 := by decide
  rw [size_append, size_append, size_cons, size_cons]
  omega

/-- A text is at least as long as its values with their marks, and longer unless all of
them are plain.  Two bytes is the least that it has. -/
theorem SpellsArray.size_le {text : List Char} {values : List (List Char)}
    (spelt : SpellsArray text values) :
    2 ≤ size text ∧ quotedSize values + 1 ≤ size text ∧
      (size text ≤ quotedSize values + 1 → AllPlain values) := by
  cases spelt with
  | @empty before blank after =>
      have long := brackets_size before blank after
      have none : quotedSize [] = 0 := rfl
      refine ⟨by omega, by omega, ?_⟩
      intro _
      exact List.forall_mem_nil _
  | @elements before text after values blankBefore spelt =>
      have long := brackets_size before text after
      obtain ⟨le, plain⟩ := spelt.size_le
      refine ⟨by omega, by omega, ?_⟩
      intro short
      exact plain (by omega)

/-! ## Texts as bytes -/

/-- The content is a text of the grammar in UTF-8 that spells the rows. -/
def DecodesTo (content : Bytes) (rows : List Bytes) : Prop :=
  ∃ text values, utf8 text = content ∧ values.map utf8 = rows ∧ SpellsArray text values

/-- The bytes of plain characters. -/
def PlainByte (b : UInt8) : Prop :=
  32 ≤ b.toNat ∧ b.toNat ≠ 34 ∧ b.toNat ≠ 92

instance (b : UInt8) : Decidable (PlainByte b) :=
  inferInstanceAs (Decidable (_ ∧ _))

theorem isPlain_iff (c : Char) : IsPlain c ↔ ∀ b ∈ String.utf8EncodeChar c, PlainByte b := by
  have quotation : c = '\x22' ↔ c.val.toNat = 34 := by
    rw [Char.ext_iff, ← UInt32.toNat_inj]
    rfl
  have solidus : c = '\x5C' ↔ c.val.toNat = 92 := by
    rw [Char.ext_iff, ← UInt32.toNat_inj]
    rfl
  have control : 32 ≤ c.val ↔ 32 ≤ c.val.toNat := UInt32.le_iff_toNat_le
  rw [IsPlain, ne_eq, ne_eq, quotation, solidus, control]
  by_cases small : c.val.toNat ≤ 127
  · have fits : (UInt8.ofNat c.val.toNat).toNat = c.val.toNat := by
      rw [UInt8.toNat_ofNat', Nat.mod_eq_of_lt (by omega)]
    rw [utf8EncodeChar_of_ascii small, List.forall_mem_singleton, PlainByte, fits]
  · constructor
    · intro _ b member
      have high := high_of_mem_utf8EncodeChar (by omega) b member
      rw [PlainByte]
      omega
    · intro _
      omega

theorem plainBytes_iff (value : List Char) :
    (∀ b ∈ utf8 value, PlainByte b) ↔ ∀ c ∈ value, IsPlain c := by
  simp only [utf8, List.forall_mem_flatMap, isPlain_iff]

/-- What decoding to rows needs: long enough a content, and plain rows if it is no
longer. -/
theorem DecodesTo.length_le {content : Bytes} {rows : List Bytes}
    (decodes : DecodesTo content rows) :
    2 ≤ content.length ∧ (∀ row ∈ rows, ValidUtf8 row) ∧
      (content.length ≤ (rows.map fun row => row.length + 3).sum + 1 →
        ∀ row ∈ rows, ∀ b ∈ row, PlainByte b) := by
  obtain ⟨text, values, rfl, rfl, spelt⟩ := decodes
  obtain ⟨two, -, plain⟩ := spelt.size_le
  refine ⟨two, ?_, ?_⟩
  · intro row member
    obtain ⟨value, -, rfl⟩ := List.mem_map.mp member
    exact ⟨value, rfl⟩
  · intro short row member
    obtain ⟨value, among, rfl⟩ := List.mem_map.mp member
    rw [List.map_map] at short
    exact (plainBytes_iff value).mpr (plain short value among)

/-! ## Plain values -/

theorem isWhitespace_nil : IsWhitespace [] :=
  List.forall_mem_nil _

/-- Plain characters spell themselves. -/
theorem spellsString_of_plain {value : List Char} (plain : ∀ c ∈ value, IsPlain c) :
    SpellsString value value := by
  induction value with
  | nil => exact .nil
  | cons c value ih =>
      obtain ⟨first, rest⟩ := List.forall_mem_cons.mp plain
      exact .plain first (ih rest)

/-- Plain rows between quotation marks, each followed by a comma but the last. -/
theorem exists_spelling {rows : List Bytes} (nonempty : rows ≠ [])
    (plain : ∀ row ∈ rows, ValidUtf8 row ∧ ∀ b ∈ row, PlainByte b) :
    ∃ text values, SpellsElements text values ∧ values.map utf8 = rows ∧
      utf8 text ++ [44] = rows.flatMap fun row => 34 :: row ++ [34, 44] := by
  induction rows with
  | nil => exact absurd rfl nonempty
  | cons row rows ih =>
      obtain ⟨⟨⟨value, spelt⟩, plainRow⟩, plainRows⟩ := List.forall_mem_cons.mp plain
      have valueRow : utf8 value = row := spelt
      have characters := (plainBytes_iff value).mp (valueRow ▸ plainRow)
      have element : SpellsElement ('\x22' :: value ++ ['\x22']) value :=
        .string isWhitespace_nil (spellsString_of_plain characters) isWhitespace_nil
      have bytes : utf8 ('\x22' :: value ++ ['\x22']) = 34 :: row ++ [34] := by
        rw [utf8, List.flatMap_append, List.flatMap_cons, ← valueRow]
        rfl
      by_cases last : rows = []
      · refine ⟨_, [value], .last element, ?_, ?_⟩
        · rw [last, List.map_singleton, valueRow]
        · rw [last, bytes, List.append_assoc]
          exact (List.append_nil _).symm
      · obtain ⟨text, values, later, valuesRows, joined⟩ := ih last plainRows
        refine ⟨_, value :: values, .cons element later, ?_, ?_⟩
        · rw [List.map_cons, valueRow, valuesRows]
        · have comma : utf8 (',' :: text) ++ [44] = 44 :: (utf8 text ++ [44]) := rfl
          rw [utf8, List.flatMap_append, ← utf8, ← utf8, bytes, List.append_assoc, comma, joined,
            List.flatMap_cons]
          simp

end JsonArray

end CleanArchitecture
