import CleanArchitecture.AuthUseCases
import CleanArchitecture.StringUtils
import Mathlib.Data.List.Induction

/-!
# The framing of responses

A response is written as its head, an empty line and its content.  A client reads the
head line by line and trusts the length it declares.
-/

namespace CleanArchitecture

/-! ## Writing -/

def crlf : Bytes := [13, 10]

/-- `cookie::to_string`; a text that was computed before is kept. -/
def Cookie.toString (c : Cookie) : Bytes :=
  if c.cookieValue ≠ [] then c.cookieValue
  else if c.name = [] then []
  else
    c.name ++ ascii "=" ++ c.value ++
      (if c.path ≠ [] then ascii "; Path=" ++ c.path else []) ++
      (if c.domain ≠ [] then ascii "; Domain=" ++ c.domain else []) ++
      (if c.sameSite ≠ [] then ascii "; SameSite=" ++ c.sameSite else []) ++
      (if c.maxAge > -1 then ascii "; MaxAge=" ++ CleanArchitecture.toString c.maxAge else []) ++
      (if c.secure then ascii "; Secure" else []) ++
      (if c.httpOnly then ascii "; HttpOnly" else [])

/-- The status lines of `status_strings`, without their line ends. -/
def statusLines : List (Int × Bytes) :=
  [(statusOk, ascii "HTTP/1.1 200 OK"),
    (statusCreated, ascii "HTTP/1.1 201 Created"),
    (statusAccepted, ascii "HTTP/1.1 202 Accepted"),
    (statusNoContent, ascii "HTTP/1.1 204 No Content"),
    (statusMultipleChoices, ascii "HTTP/1.1 300 Multiple Choices"),
    (statusMovedPermanently, ascii "HTTP/1.1 301 Moved Permanently"),
    (statusMovedTemporarily, ascii "HTTP/1.1 302 Moved Temporarily"),
    (statusNotModified, ascii "HTTP/1.1 304 Not Modified"),
    (statusBadRequest, ascii "HTTP/1.1 400 Bad Request"),
    (statusUnauthorized, ascii "HTTP/1.1 401 Unauthorized"),
    (statusForbidden, ascii "HTTP/1.1 403 Forbidden"),
    (statusNotFound, ascii "HTTP/1.1 404 Not Found"),
    (statusInternalServerError, ascii "HTTP/1.1 500 Internal Server Error"),
    (statusNotImplemented, ascii "HTTP/1.1 501 Not Implemented"),
    (statusBadGateway, ascii "HTTP/1.1 502 Bad Gateway"),
    (statusServiceUnavailable, ascii "HTTP/1.1 503 Service Unavailable")]

def statusText (status : Int) : Bytes :=
  match statusLines.find? fun entry => entry.1 = status with
  | some entry => entry.2
  | none => ascii "HTTP/1.1 500 Internal Server Error"

def ContentTypeEnum.text : ContentTypeEnum → Bytes
  | .applicationJson => ascii "application/json"
  | .textHtml => ascii "text/html"

namespace Response

/-- `response::to_buffers`. -/
def toBuffers (res : Response) : List Bytes :=
  [statusText res.status ++ crlf] ++
    (res.headers.flatMap fun h => [h.name, ascii ": ", h.value, crlf]) ++
    (res.cookies.flatMap fun c => [ascii "Set-Cookie: ", c.toString, crlf]) ++
    (if res.status ≠ statusNoContent then
      [ascii "Content-Type: ", res.contentType.text, crlf,
        ascii "Content-Length: ", res.contentLength, crlf]
    else []) ++
    [crlf, res.content]

/-- What is written on the connection. -/
def bytes (res : Response) : Bytes :=
  res.toBuffers.flatten

/-- The lines of the head. -/
def headLines (res : Response) : List Bytes :=
  [statusText res.status] ++ (res.headers.map fun h => h.name ++ ascii ": " ++ h.value) ++
    (res.cookies.map fun c => ascii "Set-Cookie: " ++ c.toString) ++
    (if res.status ≠ statusNoContent then
      [ascii "Content-Type: " ++ res.contentType.text,
        ascii "Content-Length: " ++ res.contentLength]
    else [])

end Response

/-! ## Reading -/

/-- The lines before the empty line, after what was read of the first one, and the
bytes after the empty line. -/
def readHead : Bytes → Bytes → Option (List Bytes × Bytes)
  | _, [] => none
  | line, 13 :: 10 :: rest =>
      if line = [] then some ([], rest)
      else (readHead [] rest).map (Prod.map (line :: ·) id)
  | line, c :: rest => readHead (line ++ [c]) rest

/-- The values of the fields with a name, which is given in lower case. -/
def fieldValues (name : Bytes) (fields : List Bytes) : List Bytes :=
  (fields.filter fun line => iequals (line.takeWhile (· != 58)) name).map
    fun line => trim (line.dropWhile (· != 58)).tail

/-- A client that trusts the declared length reads the whole response and no more: one
type and one length are declared, and the length is that of what follows the empty
line.  Without content nothing follows it. -/
def Framed (status : Int) (bytes : Bytes) : Prop :=
  match readHead [] bytes with
  | none => False
  | some (lines, body) =>
      if status = statusNoContent then body = []
      else fieldValues (ascii "content-length") lines.tail = [decimal body.length] ∧
        (fieldValues (ascii "content-type") lines.tail).length = 1

/-! ## What is read of a response -/

/-- A text without a line end is read to the line end behind it. -/
theorem readHead_line (line : Bytes) {text : Bytes} (oneLine : ¬ crlf <:+: text) (rest : Bytes) :
    readHead line (text ++ crlf ++ rest) =
      if line ++ text = [] then some ([], rest)
      else (readHead [] rest).map (Prod.map ((line ++ text) :: ·) id) := by
  induction text generalizing line with
  | nil => rw [List.nil_append, List.append_nil, crlf, List.cons_append, List.cons_append, readHead,
      List.nil_append]
  | cons c text ih =>
      have here : readHead line (c :: (text ++ crlf ++ rest)) =
          readHead (line ++ [c]) (text ++ crlf ++ rest) := by
        rw [readHead]
        intro behind same next
        -- the line feed behind a carriage return would be in the text
        cases text with
        | nil => cases next
        | cons feed text =>
            obtain ⟨rfl, -⟩ := List.cons.inj next
            exact oneLine ⟨[], text, by rw [same]; rfl⟩
      have later : ¬ crlf <:+: text := by
        intro within
        exact oneLine (within.trans (List.suffix_cons c text).isInfix)
      rw [List.cons_append, List.cons_append, here, ih _ later, List.append_assoc,
        List.singleton_append]

theorem noCrlf_of_noCr {text : Bytes} (noCr : 13 ∉ text) : ¬ crlf <:+: text := by
  intro within
  exact noCr (within.subset List.mem_cons_self)

/-- Lines that are not empty are read back, and then the body. -/
theorem readHead_lines {lines : List Bytes} (whole : ∀ line ∈ lines, line ≠ [] ∧ ¬ crlf <:+: line)
    (body : Bytes) :
    readHead [] (lines.flatMap (· ++ crlf) ++ crlf ++ body) = some (lines, body) := by
  induction lines with
  | nil => exact readHead_line [] (noCrlf_of_noCr List.not_mem_nil) body
  | cons line lines ih =>
      obtain ⟨nonempty, oneLine⟩ := whole line List.mem_cons_self
      rw [List.flatMap_cons, List.append_assoc, List.append_assoc, readHead_line _ oneLine,
        if_neg (by simpa using nonempty), ← List.append_assoc,
        ih fun other member => whole other (.tail line member)]
      rfl

theorem Response.bytes_eq (res : Response) :
    res.bytes = res.headLines.flatMap (· ++ crlf) ++ crlf ++ res.content := by
  unfold bytes toBuffers headLines
  split <;> simp [List.flatMap_map, List.flatMap_assoc, ← List.flatMap_id']

theorem statusText_line (status : Int) : statusText status ≠ [] ∧ 13 ∉ statusText status := by
  have all : ∀ entry ∈ statusLines, entry.2 ≠ [] ∧ 13 ∉ entry.2 := by
    decide +kernel
  unfold statusText
  split
  · rename_i entry found
    exact all entry (List.mem_of_find?_eq_some found)
  · decide +kernel

section Fields

variable {label field : Bytes} (labelled : label = field ++ ascii ": ") (noColon : 58 ∉ field)
  {name : Bytes} (value : Bytes) (fields : List Bytes)

include labelled noColon

/-- The name and the value of a field are on both sides of the first colon. -/
theorem fieldValues_cons :
    fieldValues name ((label ++ value) :: fields) =
      (if iequals field name then [trim (32 :: value)] else []) ++ fieldValues name fields := by
  have parts : label ++ value = field ++ 58 :: 32 :: value := by
    rw [labelled, List.append_assoc]
    rfl
  have rest : (field ++ 58 :: 32 :: value).dropWhile (· != 58) = 58 :: 32 :: value := by
    have whole := List.takeWhile_append_dropWhile (p := (· != 58)) (l := field ++ 58 :: 32 :: value)
    rw [takeWhile_ne_append noColon] at whole
    exact List.append_cancel_left whole
  rw [fieldValues, List.filter_cons, parts, takeWhile_ne_append noColon]
  split
  · rw [List.map_cons, rest]
    rfl
  · rfl

theorem fieldValues_of_named (named : iequals field name = true) :
    fieldValues name ((label ++ value) :: fields) =
      trim (32 :: value) :: fieldValues name fields := by
  rw [fieldValues_cons labelled noColon, if_pos named]
  rfl

theorem fieldValues_of_other (other : ¬ iequals field name = true) :
    fieldValues name ((label ++ value) :: fields) = fieldValues name fields := by
  rw [fieldValues_cons labelled noColon, if_neg other]
  rfl

end Fields

theorem typeLabel : ascii "Content-Type: " = ascii "Content-Type" ++ ascii ": " := by
  decide

theorem lengthLabel : ascii "Content-Length: " = ascii "Content-Length" ++ ascii ": " := by
  decide

section Declared

variable (value : Bytes) (fields : List Bytes)

theorem lengths_of_lengthLine :
    fieldValues (ascii "content-length") ((ascii "Content-Length: " ++ value) :: fields) =
      trim (32 :: value) :: fieldValues (ascii "content-length") fields :=
  fieldValues_of_named lengthLabel (by decide) value fields (by decide)

theorem lengths_of_typeLine :
    fieldValues (ascii "content-length") ((ascii "Content-Type: " ++ value) :: fields) =
      fieldValues (ascii "content-length") fields :=
  fieldValues_of_other typeLabel (by decide) value fields (by decide)

theorem types_of_typeLine :
    fieldValues (ascii "content-type") ((ascii "Content-Type: " ++ value) :: fields) =
      trim (32 :: value) :: fieldValues (ascii "content-type") fields :=
  fieldValues_of_named typeLabel (by decide) value fields (by decide)

theorem types_of_lengthLine :
    fieldValues (ascii "content-type") ((ascii "Content-Length: " ++ value) :: fields) =
      fieldValues (ascii "content-type") fields :=
  fieldValues_of_other lengthLabel (by decide) value fields (by decide)

end Declared

/-- The digits of a number are not trimmed. -/
theorem trim_decimal (n : Nat) : trim (32 :: decimal n) = decimal n := by
  obtain ⟨nonempty, digits, -⟩ := isNumeral_decimal n
  have noBlank : ∀ c ∈ decimal n, isspace c = false :=
    fun c member => isspace_of_isdigit (digits c member)
  have left : ltrim (32 :: decimal n) = decimal n := by
    rw [ltrim, List.dropWhile_cons_of_pos rfl, List.dropWhile_eq_self_iff]
    exact fun first => by simp [noBlank]
  rw [trim, left, rtrim, List.dropWhile_eq_self_iff.mpr, List.reverse_reverse]
  intro last
  rw [noBlank _ (List.mem_reverse.mp (List.getElem_mem last))]
  exact Bool.false_ne_true

theorem oneLine_decimal (n : Nat) : 13 ∉ decimal n :=
  notMem_decimal rfl n

/-! ## Responses of the server -/

/-- `adapter::ResponseStatus`. -/
inductive ResponseStatus
  | ok
  | created
  | noContent
  | badRequest
  | unauthorized
  | forbidden
  | notFound
  | internalServerError
  deriving DecidableEq

def ResponseStatus.code : ResponseStatus → Int
  | .ok => 200
  | .created => 201
  | .noContent => 204
  | .badRequest => 400
  | .unauthorized => 401
  | .forbidden => 403
  | .notFound => 404
  | .internalServerError => 500

/-- The overload for a `const char*`. -/
def WrapperResponse.setBodyText (text : Bytes) (ex : Exchange) : Exchange :=
  setBody (cStr text) ex

/-- What handlers and the router do with a response. -/
inductive ResponseChange
  | setBody (body : Bytes)
  | setBodyRows (rows : List Bytes)
  | setBodyText (text : Bytes)
  | setStatus (status : ResponseStatus)
  | setContentType (type : ContentTypeEnum)
  | routeNotFound

namespace ResponseChange

def apply (ex : Exchange) : ResponseChange → Exchange
  | .setBody body => WrapperResponse.setBody body ex
  | .setBodyRows rows => WrapperResponse.setBodyRows rows ex
  | .setBodyText text => WrapperResponse.setBodyText text ex
  | .setStatus status => WrapperResponse.setStatus status.code ex
  | .setContentType type => WrapperResponse.setContentType type ex
  | .routeNotFound => { ex with res := { ex.res with status := statusNotFound } }

/-- The status that a change sets. -/
def status? : ResponseChange → Option Int
  | .setStatus status => some status.code
  | .routeNotFound => some statusNotFound
  | _ => none

/-- Whether the body that a change sets is empty. -/
def emptyBody? : ResponseChange → Option Bool
  | .setBody body => some body.isEmpty
  | .setBodyRows _ => some false
  | .setBodyText text => some (cStr text).isEmpty
  | _ => none

end ResponseChange

/-- The responses that are written: a stock response, or what handlers make of a
default one. -/
inductive ServerResponse
  | stock (status : Int)
  | built (changes : List ResponseChange)

def ServerResponse.response : ServerResponse → Response
  | .stock status => stockResponse status
  | .built changes => (changes.foldl ResponseChange.apply {}).res

/-- What a change sets is what the last one of the changes has set. -/
theorem getLast?_filterMap_concat {α β : Type} (f : α → Option β) (changes : List α) (change : α) :
    ((changes ++ [change]).filterMap f).getLast? =
      (f change).or (changes.filterMap f).getLast? := by
  rw [List.filterMap_append, List.getLast?_append]
  cases set : f change <;> simp [set]

/-- The last status is another one than 204, or no body was set or the last one was
empty. -/
def LeavesNoContentEmpty (changes : List ResponseChange) : Prop :=
  (changes.filterMap ResponseChange.status?).getLast?.getD statusOk = statusNoContent →
    (changes.filterMap ResponseChange.emptyBody?).getLast?.getD true = true

/-- What a response keeps of the changes so far. -/
structure Tracks (changes : List ResponseChange) (res : Response) : Prop where
  headers : res.headers = []
  cookies : res.cookies = []
  length : res.contentLength = decimal res.content.length
  status : res.status = (changes.filterMap ResponseChange.status?).getLast?.getD statusOk
  content : res.content.isEmpty = (changes.filterMap ResponseChange.emptyBody?).getLast?.getD true

theorem tracks_default : Tracks [] {} :=
  ⟨rfl, rfl, rfl, rfl, rfl⟩

theorem Tracks.concat {changes : List ResponseChange} {ex : Exchange} (tracks : Tracks changes ex.res)
    (change : ResponseChange) : Tracks (changes ++ [change]) (change.apply ex).res := by
  obtain ⟨headers, cookies, length, status, content⟩ := tracks
  constructor <;> try rw [getLast?_filterMap_concat]
  · cases change <;> exact headers
  · cases change <;> exact cookies
  · cases change with
    | setBody | setBodyRows | setBodyText => rfl
    | setStatus | setContentType | routeNotFound => exact length
  · cases change with
    | setBody | setBodyRows | setBodyText | setContentType => exact status
    | setStatus | routeNotFound => rfl
  · cases change with
    | setBody | setBodyText => rfl
    | setBodyRows rows =>
        simp [ResponseChange.apply, WrapperResponse.setBodyRows, WrapperResponse.setBody,
          ResponseChange.emptyBody?, ascii]
    | setStatus | setContentType | routeNotFound => exact content

theorem tracks_built (changes : List ResponseChange) :
    Tracks changes (ServerResponse.built changes).response := by
  induction changes using List.reverseRecOn with
  | nil => exact tracks_default
  | append_singleton changes change ih =>
      rw [ServerResponse.response, List.foldl_append]
      exact ih.concat change

/-! ## Framed responses -/

/-- The declared fields are those of the head's lines. -/
theorem framed_iff_of_lines {res : Response} (whole : ∀ line ∈ res.headLines, line ≠ [] ∧ 13 ∉ line) :
    Framed res.status res.bytes ↔
      if res.status = statusNoContent then res.content = []
      else fieldValues (ascii "content-length") res.headLines.tail = [decimal res.content.length] ∧
        (fieldValues (ascii "content-type") res.headLines.tail).length = 1 := by
  have oneLine : ∀ line ∈ res.headLines, line ≠ [] ∧ ¬ crlf <:+: line := by
    intro line member
    obtain ⟨nonempty, noCr⟩ := whole line member
    exact ⟨nonempty, noCrlf_of_noCr noCr⟩
  rw [Framed, Response.bytes_eq, readHead_lines oneLine]

theorem contentTypeLine (type : ContentTypeEnum) :
    ascii "Content-Type: " ++ type.text ≠ [] ∧ 13 ∉ ascii "Content-Type: " ++ type.text := by
  cases type <;> decide

theorem contentLengthLine (n : Nat) :
    ascii "Content-Length: " ++ decimal n ≠ [] ∧ 13 ∉ ascii "Content-Length: " ++ decimal n := by
  refine ⟨List.append_ne_nil_of_left_ne_nil (by decide) _, ?_⟩
  rw [List.mem_append, not_or]
  exact ⟨by decide, oneLine_decimal n⟩

/-- A response without fields and cookies of its own declares its type and its length
once. -/
theorem framed_of_tracks {changes : List ResponseChange} {res : Response}
    (tracks : Tracks changes res) :
    Framed res.status res.bytes ↔ res.status = statusNoContent → res.content = [] := by
  have lines : res.headLines = statusText res.status ::
      (if res.status ≠ statusNoContent then
        [ascii "Content-Type: " ++ res.contentType.text,
          ascii "Content-Length: " ++ decimal res.content.length]
      else []) := by
    rw [Response.headLines, tracks.headers, tracks.cookies, tracks.length]
    rfl
  have whole : ∀ line ∈ res.headLines, line ≠ [] ∧ 13 ∉ line := by
    intro line member
    rw [lines, List.mem_cons] at member
    rcases member with rfl | field
    · exact statusText_line res.status
    · split at field
      · rcases List.mem_cons.mp field with rfl | last
        · exact contentTypeLine res.contentType
        · rw [List.mem_singleton.mp last]
          exact contentLengthLine _
      · cases field
  rw [framed_iff_of_lines whole]
  by_cases empty : res.status = statusNoContent
  · simp only [empty, if_true, forall_const]
  · rw [if_neg empty, lines, if_pos empty, List.tail_cons, lengths_of_typeLine,
      lengths_of_lengthLine, types_of_typeLine, types_of_lengthLine, trim_decimal]
    exact iff_of_true ⟨rfl, rfl⟩ fun same => absurd same empty

theorem stockContent_noContent : stockContent statusNoContent ≠ [] := by
  decide

/-- A stock response has its type and its length among its own fields too, and a page
under every status but 200. -/
theorem not_framed_stock (status : Int) :
    ¬ Framed (stockResponse status).status (stockResponse status).bytes := by
  have lines : (stockResponse status).headLines =
      statusText status :: (ascii "Content-Length: " ++ decimal (stockContent status).length) ::
        (ascii "Content-Type: " ++ ContentTypeEnum.textHtml.text) ::
        (if status ≠ statusNoContent then
          [ascii "Content-Type: " ++ ContentTypeEnum.applicationJson.text,
            ascii "Content-Length: " ++ decimal 0]
        else []) := by
    rw [lengthLabel, typeLabel]
    rfl
  have whole : ∀ line ∈ (stockResponse status).headLines, line ≠ [] ∧ 13 ∉ line := by
    rw [lines]
    simp only [List.forall_mem_cons]
    refine ⟨statusText_line status, contentLengthLine _, contentTypeLine .textHtml, ?_⟩
    split
    · simp only [List.forall_mem_cons]
      exact ⟨contentTypeLine .applicationJson, contentLengthLine 0, List.forall_mem_nil _⟩
    · exact List.forall_mem_nil _
  rw [framed_iff_of_lines whole]
  by_cases empty : (stockResponse status).status = statusNoContent
  · rw [if_pos empty]
    obtain rfl : status = statusNoContent := empty
    exact stockContent_noContent
  · have declares : status ≠ statusNoContent := empty
    rw [if_neg empty, lines, if_pos declares, List.tail_cons, lengths_of_lengthLine,
      lengths_of_typeLine, lengths_of_typeLine, lengths_of_lengthLine]
    rintro ⟨once, -⟩
    cases (List.cons.inj once).2

/-- A response is framed if and only if handlers made it and left it without content
when its status is 204. -/
theorem framed_iff (written : ServerResponse) :
    Framed written.response.status written.response.bytes ↔
      ∃ changes, written = .built changes ∧ LeavesNoContentEmpty changes := by
  cases written with
  | stock status =>
      apply iff_of_false (not_framed_stock status)
      rintro ⟨changes, same, -⟩
      cases same
  | built changes =>
      have tracks := tracks_built changes
      rw [framed_of_tracks tracks, tracks.status, ← List.isEmpty_iff, tracks.content]
      constructor
      · exact fun left => ⟨changes, rfl, left⟩
      · rintro ⟨_, same, left⟩
        cases same
        exact left

/-- A handler that sets a body and then the status 204. -/
def bodyWithoutContent : ServerResponse :=
  .built [.setBody (ascii "done"), .setStatus .noContent]

/-- The answer to a malformed request declares two lengths, and a body that was set
before the status 204 is written after the empty line. -/
theorem response_not_framed :
    (readHead [] (ServerResponse.stock statusBadRequest).response.bytes).map
        (fun read => fieldValues (ascii "content-length") read.1.tail) =
      some [ascii "89", ascii "0"] ∧
    ¬ Framed (ServerResponse.stock statusBadRequest).response.status
      (ServerResponse.stock statusBadRequest).response.bytes ∧
    ¬ Framed bodyWithoutContent.response.status bodyWithoutContent.response.bytes := by
  refine ⟨by decide +kernel, not_framed_stock statusBadRequest, ?_⟩
  rw [bodyWithoutContent, framed_of_tracks (tracks_built _)]
  decide

end CleanArchitecture
