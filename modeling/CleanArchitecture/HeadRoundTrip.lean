import CleanArchitecture.ResponseFraming

/-!
# Reading a response head back

A head is split into its lines and each line at its first separator.  What is read are the
fields of the response, as long as the declared length does not end its own line.
-/

namespace CleanArchitecture

/-! ## Fields -/

/-- The name and the value on both sides of the first separator. -/
def splitField : Bytes → Option (Bytes × Bytes)
  | 58 :: 32 :: value => some ([], value)
  | c :: line => (splitField line).map (Prod.map (c :: ·) id)
  | [] => none

theorem splitField_cons_of_ne {c : UInt8} (other : c ≠ 58) (line : Bytes) :
    splitField (c :: line) = (splitField line).map (Prod.map (c :: ·) id) := by
  rw [splitField]
  exact fun _ same => absurd same other

theorem splitField_append {name : Bytes} (noColon : 58 ∉ name) (value : Bytes) :
    splitField (name ++ ascii ": " ++ value) = some (name, value) := by
  induction name with
  | nil => rfl
  | cons c name ih =>
      have other : c ≠ 58 := fun same => noColon (same ▸ List.mem_cons_self)
      rw [List.cons_append, List.cons_append, splitField_cons_of_ne other,
        ih fun member => noColon (.tail c member)]
      rfl

theorem splitField_eq_some {line name value : Bytes}
    (split : splitField line = some (name, value)) :
    line = name ++ ascii ": " ++ value := by
  fun_induction splitField line generalizing name with
  | case1 rest =>
      cases split
      rfl
  | case2 c line _ ih =>
      obtain ⟨⟨before, after⟩, cut, same⟩ := Option.map_eq_some_iff.mp split
      cases same
      rw [ih cut]
      rfl
  | case3 => cases split

/-- The fields of a response in the order of the head. -/
def Response.fields (res : Response) : List (Bytes × Bytes) :=
  (res.headers.map fun h => (h.name, h.value)) ++
    (res.cookies.map fun c => (ascii "Set-Cookie", c.toString)) ++
    (if res.status ≠ statusNoContent then
      [(ascii "Content-Type", res.contentType.text), (ascii "Content-Length", res.contentLength)]
    else [])

def fieldLine (field : Bytes × Bytes) : Bytes :=
  field.1 ++ ascii ": " ++ field.2

/-- The head is the status line and a line for each field. -/
theorem headLines_eq (res : Response) :
    res.headLines = statusText res.status :: res.fields.map fieldLine := by
  have cookieLabel : ascii "Set-Cookie: " = ascii "Set-Cookie" ++ ascii ": " := by
    decide
  rw [Response.headLines, Response.fields, cookieLabel, typeLabel, lengthLabel]
  split <;> simp [fieldLine, Function.comp_def]

/-! ## Plain responses -/

/-- A text without a carriage return and a line feed. -/
def OneLine (text : Bytes) : Prop :=
  13 ∉ text ∧ 10 ∉ text

instance (text : Bytes) : Decidable (OneLine text) :=
  inferInstanceAs (Decidable (_ ∧ _))

/-- Headers and cookies without line breaks, names without colons, and cookies that were
not rendered before. -/
structure PlainResponse (res : Response) : Prop where
  headerNames : ∀ h ∈ res.headers, OneLine h.name ∧ 58 ∉ h.name
  headerValues : ∀ h ∈ res.headers, OneLine h.value
  cookieFields : ∀ c ∈ res.cookies, ∀ text ∈ [c.name, c.value, c.path, c.domain, c.sameSite],
    OneLine text
  unrendered : ∀ c ∈ res.cookies, c.cookieValue = []

/-- The first empty line stands before the content, and the lines between the status line
and it split into the fields. -/
def ReadsBack (res : Response) : Prop :=
  ∃ lines, readHead [] res.bytes = some (statusText res.status :: lines, res.content) ∧
    lines.map splitField = res.fields.map some

theorem noCr_append {first second : Bytes} (before : 13 ∉ first) (after : 13 ∉ second) :
    13 ∉ first ++ second := by
  rw [List.mem_append, not_or]
  exact ⟨before, after⟩

theorem noCr_optional {present : Prop} [Decidable present] {text : Bytes} (noCr : 13 ∉ text) :
    13 ∉ if present then text else [] := by
  split
  · exact noCr
  · exact List.not_mem_nil

theorem noCr_cookie {c : Cookie}
    (fields : ∀ text ∈ [c.name, c.value, c.path, c.domain, c.sameSite], OneLine text)
    (fresh : c.cookieValue = []) : 13 ∉ c.toString := by
  simp only [List.forall_mem_cons] at fields
  obtain ⟨name, value, path, domain, sameSite, -⟩ := fields
  rw [Cookie.toString, if_neg (not_not_intro fresh)]
  split
  · exact List.not_mem_nil
  · apply noCr_append
    · apply noCr_append
      · apply noCr_append
        · apply noCr_append
          · apply noCr_append
            · apply noCr_append
              · exact noCr_append (noCr_append name.1 (by decide)) value.1
              · exact noCr_optional (noCr_append (by decide) path.1)
            · exact noCr_optional (noCr_append (by decide) domain.1)
          · exact noCr_optional (noCr_append (by decide) sameSite.1)
        · exact noCr_optional (noCr_append (by decide) (notMem_toString rfl (by decide) _))
      · exact noCr_optional (by decide)
    · exact noCr_optional (by decide)

theorem PlainResponse.noColon {res : Response} (plain : PlainResponse res) :
    ∀ field ∈ res.fields, 58 ∉ field.1 := by
  intro field member
  rw [Response.fields, List.mem_append, List.mem_append] at member
  rcases member with (header | cookie) | declared
  · obtain ⟨h, among, rfl⟩ := List.mem_map.mp header
    exact (plain.headerNames h among).2
  · obtain ⟨c, -, rfl⟩ := List.mem_map.mp cookie
    change 58 ∉ ascii "Set-Cookie"
    decide
  · split at declared
    · rcases List.mem_cons.mp declared with rfl | last
      · change 58 ∉ ascii "Content-Type"
        decide
      · rw [List.mem_singleton.mp last]
        change 58 ∉ ascii "Content-Length"
        decide
    · cases declared

/-- Only the declared length can end its own line. -/
theorem PlainResponse.oneLine {res : Response} (plain : PlainResponse res)
    (length : res.status ≠ statusNoContent →
      ¬ crlf <:+: fieldLine (ascii "Content-Length", res.contentLength)) :
    ∀ field ∈ res.fields, ¬ crlf <:+: fieldLine field := by
  intro field member
  rw [Response.fields, List.mem_append, List.mem_append] at member
  rcases member with (header | cookie) | declared
  · obtain ⟨h, among, rfl⟩ := List.mem_map.mp header
    apply noCrlf_of_noCr
    apply noCr_append
    · exact noCr_append (plain.headerNames h among).1.1 (by decide)
    · exact (plain.headerValues h among).1
  · obtain ⟨c, among, rfl⟩ := List.mem_map.mp cookie
    apply noCrlf_of_noCr
    apply noCr_append
    · change 13 ∉ ascii "Set-Cookie: "
      decide
    · exact noCr_cookie (plain.cookieFields c among) (plain.unrendered c among)
  · split at declared
    · rename_i declares
      rcases List.mem_cons.mp declared with rfl | last
      · apply noCrlf_of_noCr
        have typeLine := (contentTypeLine res.contentType).2
        rwa [typeLabel] at typeLine
      · rw [List.mem_singleton.mp last]
        exact length declares
    · cases declared

/-! ## The lines that are read -/

/-- A line end comes up only with its line feed. -/
theorem crlf_infix_concat {line : Bytes} {c : UInt8} (whole : ¬ crlf <:+: line)
    (within : crlf <:+: line ++ [c]) : line.getLast? = some 13 ∧ c = 10 := by
  rcases List.infix_concat_iff.mp within with last | earlier
  · rcases List.suffix_concat_iff.mp last with empty | ⟨before, same, ends⟩
    · cases empty
    · have pair : crlf = [13] ++ [10] := rfl
      obtain ⟨rfl, feed⟩ := List.append_inj' (same.symm.trans pair) rfl
      exact ⟨List.singleton_suffix_iff_getLast?_eq_some.mp ends, (List.cons.inj feed).1⟩
  · exact absurd earlier whole

/-- No line that is read has a line end in it. -/
theorem readHead_noCrlf {line s : Bytes} {lines : List Bytes} {rest : Bytes}
    (read : readHead line s = some (lines, rest)) (whole : ¬ crlf <:+: line)
    (unfinished : line.getLast? = some 13 → s.head? ≠ some 10) :
    ∀ each ∈ lines, ¬ crlf <:+: each := by
  fun_induction readHead line s generalizing lines with
  | case1 => cases read
  | case2 =>
      cases read
      exact List.forall_mem_nil _
  | case3 line rest nonempty ih =>
      obtain ⟨⟨later, body⟩, readLater, same⟩ := Option.map_eq_some_iff.mp read
      cases same
      rw [List.forall_mem_cons]
      constructor
      · exact whole
      · apply ih readLater
        · exact noCrlf_of_noCr List.not_mem_nil
        · intro last
          cases last
  | case4 line c rest noLineEnd ih =>
      apply ih read
      · intro within
        obtain ⟨last, feed⟩ := crlf_infix_concat whole within
        exact unfinished last (congrArg some feed)
      · intro last feed
        obtain ⟨behind, rfl⟩ := List.head?_eq_some_iff.mp feed
        rw [List.getLast?_concat] at last
        exact noLineEnd behind (Option.some.inj last) rfl

theorem crlf_infix_append {before text : Bytes} (noCr : 13 ∉ before) :
    crlf <:+: before ++ text ↔ crlf <:+: text := by
  constructor
  · rintro ⟨first, last, same⟩
    rw [List.append_assoc] at same
    rcases List.append_eq_append_iff.mp same with ⟨cut, rfl, rest⟩ | ⟨cut, rfl, rest⟩
    · cases cut with
      | nil => exact ⟨[], last, rest⟩
      | cons c cut =>
          obtain ⟨rfl, -⟩ := List.cons.inj rest
          exact absurd (List.mem_append_right first List.mem_cons_self) noCr
    · refine ⟨cut, last, ?_⟩
      rw [rest, List.append_assoc]
  · intro within
    exact within.trans (List.suffix_append before text).isInfix

/-! ## Reading back -/

theorem splitField_lines {fields : List (Bytes × Bytes)}
    (noColon : ∀ field ∈ fields, 58 ∉ field.1) :
    (fields.map fieldLine).map splitField = fields.map some := by
  rw [List.map_map]
  apply List.map_congr_left
  intro field member
  exact splitField_append (noColon field member) field.2

/-- The head of a plain response reads back if and only if the declared length, where it
is written, does not contain a line end. -/
theorem reads_back_iff {res : Response} (plain : PlainResponse res) :
    ReadsBack res ↔ (res.status ≠ statusNoContent → ¬ crlf <:+: res.contentLength) := by
  have lengthLine : crlf <:+: fieldLine (ascii "Content-Length", res.contentLength) ↔
      crlf <:+: res.contentLength := by
    apply crlf_infix_append
    change 13 ∉ ascii "Content-Length: "
    decide
  constructor
  · rintro ⟨lines, read, split⟩ declares within
    have declared : some (ascii "Content-Length", res.contentLength) ∈ lines.map splitField := by
      rw [split, Response.fields, if_pos declares]
      simp
    obtain ⟨line, member, cut⟩ := List.mem_map.mp declared
    have noCrlf := readHead_noCrlf read (noCrlf_of_noCr List.not_mem_nil) (by simp) line
      (.tail _ member)
    rw [splitField_eq_some cut] at noCrlf
    exact noCrlf (lengthLine.mpr within)
  · intro length
    have oneLine := plain.oneLine fun declares within => length declares (lengthLine.mp within)
    refine ⟨res.fields.map fieldLine, ?_, splitField_lines plain.noColon⟩
    rw [Response.bytes_eq, headLines_eq]
    apply readHead_lines
    rw [List.forall_mem_cons]
    constructor
    · obtain ⟨nonempty, noCr⟩ := statusText_line res.status
      exact ⟨nonempty, noCrlf_of_noCr noCr⟩
    · intro line member
      obtain ⟨field, among, rfl⟩ := List.mem_map.mp member
      constructor
      · exact List.append_ne_nil_of_left_ne_nil (List.append_ne_nil_of_right_ne_nil _ (by decide)) _
      · exact oneLine field among

/-- A response with an empty header name, an empty value and a cookie without a name. -/
def sparseResponse : Response where
  headers := [{ name := [], value := ascii "a: b" }, { name := ascii "Allow", value := [] }]
  cookies := [{ value := ascii "abc" }, { name := ascii "SESSION", value := ascii "abc" }]
  content := ascii "\r\n\r\n"
  contentLength := ascii "4"

theorem plain_sparseResponse : PlainResponse sparseResponse := by
  constructor <;> decide

theorem sparseResponse_reads_back : ReadsBack sparseResponse := by
  apply (reads_back_iff plain_sparseResponse).mpr
  intro _
  exact noCrlf_of_noCr (by decide)

/-- A declared length with a line end. -/
def brokenLength : Response where
  contentLength := ascii "0\r\n"

/-- The empty line comes before the one that the response ends its head with. -/
theorem brokenLength_not_read_back : PlainResponse brokenLength ∧ ¬ ReadsBack brokenLength := by
  have early : readHead [] brokenLength.bytes = some ([ascii "HTTP/1.1 200 OK",
      ascii "Content-Type: application/json", ascii "Content-Length: 0"], crlf) := by
    decide +kernel
  constructor
  · constructor <;> decide
  · rintro ⟨lines, read, -⟩
    rw [early] at read
    cases read

end CleanArchitecture
