import CleanArchitecture.StandardLibrary
import Mathlib.Data.List.DropRight

/-!
# The decoder of Set-Cookie fields

The algorithm that clients follow: the text is cut at its semicolons, the first part is the
name and the value of the cookie, and each further part is an attribute.  Attributes whose
names are not known are ignored, and of one that stands twice the last counts.
-/

namespace CleanArchitecture

namespace SetCookie

/-! ## Parts -/

def isBlank (c : UInt8) : Bool :=
  c == 32 || c == 9

/-- A text without the blanks around it. -/
def trimBlanks (s : Bytes) : Bytes :=
  (s.dropWhile isBlank).rdropWhile isBlank

/-- The texts on both sides of the first equals sign. -/
def cutAtEquals : Bytes → Option (Bytes × Bytes)
  | 61 :: value => some ([], value)
  | c :: rest => (cutAtEquals rest).map (Prod.map (c :: ·) id)
  | [] => none

/-- The name and the value of an attribute; without an equals sign all of it is the name. -/
def readAttribute (part : Bytes) : Bytes × Bytes :=
  match cutAtEquals part with
  | none => (trimBlanks part, [])
  | some (name, value) => (trimBlanks name, trimBlanks value)

/-- Neither the first nor the last byte is a blank. -/
structure Bare (s : Bytes) : Prop where
  first : ∀ c ∈ s.head?, isBlank c = false
  last : ∀ c ∈ s.getLast?, isBlank c = false

theorem bare_iff {s : Bytes} :
    Bare s ↔ s.head?.all (!isBlank ·) = true ∧ s.getLast?.all (!isBlank ·) = true := by
  simp only [Option.all_eq_true, Bool.not_eq_true']
  constructor
  · rintro ⟨first, last⟩
    exact ⟨first, last⟩
  · rintro ⟨first, last⟩
    exact ⟨first, last⟩

instance (s : Bytes) : Decidable (Bare s) :=
  decidable_of_iff _ bare_iff.symm

theorem Bare.trimBlanks {s : Bytes} (bare : Bare s) : trimBlanks s = s := by
  have left : s.dropWhile isBlank = s := by
    rw [List.dropWhile_eq_self_iff]
    intro nonempty
    rw [bare.first _ (by simp [List.head?_eq_getElem?])]
    exact Bool.false_ne_true
  rw [SetCookie.trimBlanks, left, List.rdropWhile_eq_self_iff]
  intro nonempty
  rw [bare.last _ (List.getLast?_eq_some_getLast nonempty)]
  exact Bool.false_ne_true

theorem Bare.trimBlanks_cons {s : Bytes} (bare : Bare s) : SetCookie.trimBlanks (32 :: s) = s :=
  bare.trimBlanks

theorem cutAtEquals_append {name : Bytes} (noEquals : 61 ∉ name) (value : Bytes) :
    cutAtEquals (name ++ 61 :: value) = some (name, value) := by
  induction name with
  | nil => rfl
  | cons c name ih =>
      have other : c ≠ 61 := fun same => noEquals (same ▸ List.mem_cons_self)
      rw [List.cons_append, cutAtEquals, ih fun member => noEquals (.tail c member)]
      · rfl
      · exact other

theorem cutAtEquals_of_notMem {text : Bytes} (noEquals : 61 ∉ text) : cutAtEquals text = none := by
  induction text with
  | nil => rfl
  | cons c text ih =>
      have other : c ≠ 61 := fun same => noEquals (same ▸ List.mem_cons_self)
      rw [cutAtEquals, ih fun member => noEquals (.tail c member)]
      · rfl
      · exact other

theorem readAttribute_pair {name : Bytes} (noEquals : 61 ∉ name) (bareName : Bare name)
    (value : Bytes) :
    readAttribute (32 :: (name ++ 61 :: value)) = (name, trimBlanks value) := by
  have spaced : 61 ∉ 32 :: name := by
    intro member
    rcases List.mem_cons.mp member with equals | later
    · cases equals
    · exact noEquals later
  rw [readAttribute, ← List.cons_append, cutAtEquals_append spaced]
  exact Prod.ext bareName.trimBlanks_cons rfl

theorem readAttribute_flag {name : Bytes} (noEquals : 61 ∉ name) (bareName : Bare name) :
    readAttribute (32 :: name) = (name, []) := by
  have spaced : 61 ∉ 32 :: name := by
    intro member
    rcases List.mem_cons.mp member with equals | later
    · cases equals
    · exact noEquals later
  rw [readAttribute, cutAtEquals_of_notMem spaced]
  exact Prod.ext bareName.trimBlanks_cons rfl

/-! ## Decoding -/

/-- What a client keeps of a field.  An empty path stands for the default path, an empty
domain for the host that answered. -/
structure Decoded where
  name : Bytes
  value : Bytes
  path : Bytes := []
  domain : Bytes := []
  sameSite : Bytes := []
  maxAge : Option Int := none
  secure : Bool := false
  httpOnly : Bool := false
  deriving DecidableEq

/-- The seconds of a Max-Age attribute, if the value is a number. -/
def deltaSeconds : Bytes → Option Int
  | [] => none
  | 45 :: digits => if digits.all isdigit then some (-digitsValue digits) else none
  | digits => if digits.all isdigit then some (digitsValue digits) else none

/-- One leading dot is dropped, and upper-case letters are lowered. -/
def canonicalDomain (value : Bytes) : Bytes :=
  (if value.head? = some 46 then value.tail else value).map tolower

/-- The effect of an attribute whose name is in lower case. -/
def Decoded.set (cookie : Decoded) (name value : Bytes) : Decoded :=
  if name = ascii "max-age" then
    match deltaSeconds value with
    | none => cookie
    | some seconds => { cookie with maxAge := some seconds }
  else if name = ascii "domain" then
    if value = [] then cookie else { cookie with domain := canonicalDomain value }
  else if name = ascii "path" then
    { cookie with path := if value.head? = some 47 then value else [] }
  else if name = ascii "secure" then { cookie with secure := true }
  else if name = ascii "httponly" then { cookie with httpOnly := true }
  else if name = ascii "samesite" then { cookie with sameSite := value }
  else cookie

def Decoded.withAttribute (cookie : Decoded) (part : Bytes) : Decoded :=
  cookie.set ((readAttribute part).1.map tolower) (readAttribute part).2

theorem withAttribute_pair (cookie : Decoded) {name : Bytes} (noEquals : 61 ∉ name)
    (bareName : Bare name) (value : Bytes) :
    cookie.withAttribute (32 :: (name ++ 61 :: value)) =
      cookie.set (name.map tolower) (trimBlanks value) := by
  rw [Decoded.withAttribute, readAttribute_pair noEquals bareName]

theorem withAttribute_flag (cookie : Decoded) {name : Bytes} (noEquals : 61 ∉ name)
    (bareName : Bare name) :
    cookie.withAttribute (32 :: name) = cookie.set (name.map tolower) [] := by
  rw [Decoded.withAttribute, readAttribute_flag noEquals bareName]

/-- A field without an equals sign or a name is ignored. -/
def decode (text : Bytes) : Option Decoded :=
  match text.splitOn 59 with
  | [] => none
  | pair :: parts =>
      match cutAtEquals pair with
      | none => none
      | some (name, value) =>
          if trimBlanks name = [] then none
          else
            some (parts.foldl Decoded.withAttribute
              { name := trimBlanks name, value := trimBlanks value })

/-- The attributes are applied in their order to the cookie of the first part. -/
theorem decode_of_parts {text name value : Bytes} {parts : List Bytes} (noEquals : 61 ∉ name)
    (bareName : Bare name) (bareValue : Bare value) (named : name ≠ [])
    (split : text.splitOn 59 = (name ++ 61 :: value) :: parts) :
    decode text =
      some (parts.foldl Decoded.withAttribute { name := name, value := value }) := by
  rw [decode, split]
  simp only [cutAtEquals_append noEquals, bareName.trimBlanks, bareValue.trimBlanks]
  rw [if_neg named]

example : decode (ascii "a=b; Max-Age=0; Path=/x; Path=y; Unknown=1; secure") =
    some { name := ascii "a", value := ascii "b", maxAge := some 0, secure := true } := by
  decide +kernel

end SetCookie

end CleanArchitecture
