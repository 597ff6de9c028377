import CleanArchitecture.RequestParser

/-!
# The grammar of request heads

A request head is a request line, any number of header fields and an empty line.
A field may be continued on further lines that begin with a blank; its value is
the text of the first line followed by the continuation texts without their
leading blanks.
-/

namespace CleanArchitecture.RequestGrammar

open RequestParser (tspecials)

/-! ## Character classes -/

def Tchar (b : UInt8) : Prop :=
  33 ≤ b.toNat ∧ b.toNat ≤ 126 ∧ b ∉ tspecials

def Ctl (b : UInt8) : Prop :=
  b.toNat ≤ 31 ∨ b.toNat = 127

def Digit (b : UInt8) : Prop :=
  48 ≤ b.toNat ∧ b.toNat ≤ 57

/-- A space or a horizontal tab. -/
def Blank (b : UInt8) : Prop :=
  b = 32 ∨ b = 9

instance (b : UInt8) : Decidable (Tchar b) := inferInstanceAs (Decidable (_ ∧ _))

instance (b : UInt8) : Decidable (Ctl b) := inferInstanceAs (Decidable (_ ∨ _))

instance (b : UInt8) : Decidable (Digit b) := inferInstanceAs (Decidable (_ ∧ _))

/-! ## Texts -/

def Token (w : Bytes) : Prop :=
  w ≠ [] ∧ ∀ b ∈ w, Tchar b

def UriText (w : Bytes) : Prop :=
  ∀ b ∈ w, b ≠ 32 ∧ ¬ Ctl b

def Digits (w : Bytes) : Prop :=
  w ≠ [] ∧ ∀ b ∈ w, Digit b

def Text (w : Bytes) : Prop :=
  ∀ b ∈ w, ¬ Ctl b

/-- The text of a continuation line after its blanks. -/
def FoldedText (w : Bytes) : Prop :=
  w = [] ∨ ∃ b rest, w = b :: rest ∧ ¬ Ctl b ∧ b ≠ 32 ∧ Text rest

def crlf : Bytes := [13, 10]

/-! ## The request line -/

structure RequestLine where
  method : Bytes
  uri : Bytes
  major : Bytes
  minor : Bytes
  method_token : Token method
  uri_text : UriText uri
  major_digits : Digits major
  minor_digits : Digits minor

def RequestLine.text (line : RequestLine) : Bytes :=
  line.method ++ [32] ++ line.uri ++ [32] ++ ascii "HTTP/" ++ line.major ++ [46] ++ line.minor ++
    crlf

/-! ## Header fields -/

/-- A field up to, and without, the end of its last line. -/
inductive FieldText : Bytes → Header → Prop
  | first {name value : Bytes} (token : Token name) (text : Text value) :
      FieldText (name ++ [58, 32] ++ value) ⟨name, value⟩
  | continued {w : Bytes} {h : Header} {lws text : Bytes} (field : FieldText w h)
      (nonempty : lws ≠ []) (blanks : ∀ b ∈ lws, Blank b) (folded : FoldedText text) :
      FieldText (w ++ crlf ++ lws ++ text) ⟨h.name, h.value ++ text⟩

inductive Fields : Bytes → List Header → Prop
  | nil : Fields [] []
  | snoc {w v : Bytes} {hs : List Header} {h : Header} (fields : Fields w hs)
      (field : FieldText v h) : Fields (w ++ v ++ crlf) (hs ++ [h])

/-! ## The head -/

/-- `w` is a request head with this request line and these header fields. -/
inductive Head : Bytes → RequestLine → List Header → Prop
  | mk (line : RequestLine) {w : Bytes} {hs : List Header} (fields : Fields w hs) :
      Head (line.text ++ w ++ crlf) line hs

/-- `w` is a request head. -/
def IsHead (w : Bytes) : Prop :=
  ∃ line hs, Head w line hs

/-- A head begins with a byte of its method. -/
theorem Head.first {w : Bytes} {line : RequestLine} {hs : List Header} (head : Head w line hs) :
    ∃ b rest, w = b :: rest ∧ Tchar b := by
  cases head with
  | mk line fields =>
      obtain ⟨nonempty, all⟩ := line.method_token
      obtain ⟨b, rest, method⟩ := List.exists_cons_of_ne_nil nonempty
      have tchar : Tchar b := all b (by simp [method])
      have split : ∃ more, line.text = b :: more := by
        simp only [RequestLine.text, method, List.cons_append]
        exact ⟨_, rfl⟩
      obtain ⟨more, text⟩ := split
      rw [text]
      exact ⟨b, _, rfl, tchar⟩

/-- A field whose text may still grow: every text appended to it belongs to its
value. -/
def OpenField (w : Bytes) (h : Header) : Prop :=
  ∀ more, Text more → FieldText (w ++ more) ⟨h.name, h.value ++ more⟩

theorem text_append {v w : Bytes} (first : Text v) (second : Text w) : Text (v ++ w) := by
  intro b member
  rcases List.mem_append.mp member with inFirst | inSecond
  · exact first b inFirst
  · exact second b inSecond

theorem text_nil : Text [] := by
  intro b member
  cases member

theorem OpenField.field {w : Bytes} {h : Header} (opened : OpenField w h) : FieldText w h := by
  simpa using opened [] text_nil

theorem OpenField.push {w : Bytes} {h : Header} (opened : OpenField w h) {b : UInt8}
    (plain : ¬ Ctl b) : OpenField (w ++ [b]) ⟨h.name, h.value ++ [b]⟩ := by
  intro more text
  have longer : Text ([b] ++ more) := by
    apply text_append _ text
    intro c member
    rw [List.mem_singleton.mp member]
    exact plain
  simpa using opened ([b] ++ more) longer

theorem openField_first {name : Bytes} (token : Token name) :
    OpenField (name ++ [58, 32]) ⟨name, []⟩ := by
  intro more text
  simpa using FieldText.first token text

theorem openField_continued {w : Bytes} {h : Header} {lws : Bytes} {b : UInt8}
    (field : FieldText w h) (nonempty : lws ≠ []) (blanks : ∀ b ∈ lws, Blank b)
    (plain : ¬ Ctl b) (notSpace : b ≠ 32) :
    OpenField (w ++ crlf ++ lws ++ [b]) ⟨h.name, h.value ++ [b]⟩ := by
  intro more text
  have folded : FoldedText (b :: more) := Or.inr ⟨b, more, rfl, plain, notSpace, text⟩
  simpa using FieldText.continued field nonempty blanks folded

end CleanArchitecture.RequestGrammar
