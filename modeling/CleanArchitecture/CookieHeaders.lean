import CleanArchitecture.RequestAssembly
import Mathlib.Algebra.Group.Nat.Even
import Mathlib.Data.List.DropRight

/-!
# Cookie headers

The loop over a cookie header skips the byte after every semicolon that it finds.
What it reads is told here from the pieces between the semicolons: whole pieces,
pieces without their first byte, or nothing at all where the header ends too early.
-/

namespace CleanArchitecture

open Connection

/-! ## Readings -/

/-- The text that one round of the loop reads, and the byte that was skipped of its
piece. -/
structure Reading where
  skipped : Option UInt8
  text : Bytes
  deriving DecidableEq

/-- What the loop reads of a list of pieces, if a byte of the first one is to be
skipped or not.  Of an empty piece the semicolon after it is skipped. -/
def readings : Bool → List Bytes → Option (List Reading)
  | _, [] => some []
  | false, piece :: rest => (readings true rest).map ({ skipped := none, text := piece } :: ·)
  | true, (c :: text) :: rest => (readings true rest).map ({ skipped := some c, text := text } :: ·)
  | true, [] :: [] => none
  | true, [] :: piece :: rest => readings false (piece :: rest)

theorem splitOn_cons_self (s : Bytes) (c : UInt8) : (c :: s).splitOn c = [] :: s.splitOn c :=
  List.splitOn_append_cons_self [] s

theorem splitOn_cons_of_ne {c first : UInt8} (other : first ≠ c) (s : Bytes) :
    ∃ piece rest, s.splitOn c = piece :: rest ∧
      (first :: s).splitOn c = (first :: piece) :: rest := by
  obtain ⟨piece, rest, parts⟩ := List.exists_cons_of_ne_nil (List.splitOn_ne_nil c s)
  refine ⟨piece, rest, parts, ?_⟩
  rw [List.splitOn_cons_eq_if_modifyHead, if_neg (by simpa using other), parts]
  rfl

/-- Skipping a byte leaves the texts that follow it. -/
theorem readings_skip (first : UInt8) (s : Bytes) :
    (readings true ((first :: s).splitOn ';'.toUInt8)).map (List.map Reading.text) =
      (readings false (s.splitOn ';'.toUInt8)).map (List.map Reading.text) := by
  by_cases semicolon : first = ';'.toUInt8
  · subst semicolon
    obtain ⟨piece, rest, parts⟩ := List.exists_cons_of_ne_nil (List.splitOn_ne_nil ';'.toUInt8 s)
    rw [splitOn_cons_self, parts]
    rfl
  · obtain ⟨piece, rest, parts, whole⟩ := splitOn_cons_of_ne semicolon s
    rw [whole, parts, readings, readings, Option.map_map, Option.map_map]
    rfl

/-- The loop applies the texts of its readings in order, or throws where there are none. -/
theorem parseCookieFrom_eq (cookieString : Bytes) (startCursor : Nat)
    (inside : startCursor ≤ cookieString.length) (req : Request) :
    parseCookieFrom cookieString startCursor req =
      match (readings false ((cookieString.drop startCursor).splitOn ';'.toUInt8)).map
        (List.map Reading.text) with
      | none => .error .outOfRange
      | some texts => .ok (texts.foldl parseCookiePair req) := by
  induction remaining : cookieString.length - startCursor using Nat.strongRecOn
    generalizing startCursor req with
  | ind remaining ih =>
      cases found : find cookieString ';'.toUInt8 startCursor with
      | none =>
          rw [parseCookieFrom_none found, substrFrom_of_le inside,
            List.splitOn_eq_singleton (find_eq_none found)]
          rfl
      | some endCursor =>
          have bounds := find_bounds found
          obtain ⟨parts, clean⟩ := find_eq_some found
          rw [parseCookieFrom_some found, substr_of_le inside]
          conv_rhs => rw [parts, List.splitOn_append_cons_self_of_not_mem clean, readings]
          cases rest : cookieString.drop (endCursor + 1) with
          | nil =>
              have ended := List.drop_eq_nil_iff.mp rest
              have missing : find cookieString ';'.toUInt8 (endCursor + 2) = none := by
                rw [find, List.drop_of_length_le (by omega)]
                rfl
              simp only
              rw [parseCookieFrom_none missing, substrFrom, if_pos (by omega)]
              rfl
          | cons first rest' =>
              have longer : endCursor + 1 < cookieString.length := by
                by_contra short
                rw [List.drop_of_length_le (by omega)] at rest
                cases rest
              have next : cookieString.drop (endCursor + 2) = rest' := by
                have later := congrArg (List.drop 1) rest
                rwa [List.drop_drop] at later
              simp only
              rw [ih _ (by omega) (endCursor + 2) (by omega) _ rfl, next, Option.map_map]
              have same := readings_skip first rest'
              cases skipped : readings true ((first :: rest').splitOn ';'.toUInt8) with
              | none =>
                  rw [skipped] at same
                  rw [← same]
                  rfl
              | some read =>
                  rw [skipped] at same
                  rw [← same]
                  rfl

/-! ## Headers that end too early -/

/-- Whether the loop is about to skip a byte after it has gone through a text. -/
def endsSkipping (skipping : Bool) (s : Bytes) : Bool :=
  s.foldl (fun skipping c => !skipping && c == ';'.toUInt8) skipping

theorem readings_eq_none_iff (s : Bytes) (skipping : Bool) :
    readings skipping (s.splitOn ';'.toUInt8) = none ↔ endsSkipping skipping s = true := by
  induction s generalizing skipping with
  | nil => cases skipping <;> simp [readings, endsSkipping]
  | cons first s ih =>
      cases skipping with
      | true =>
          have same := readings_skip first s
          have here := congrArg Option.isNone same
          rw [Option.isNone_map, Option.isNone_map, Bool.eq_iff_iff, Option.isNone_iff_eq_none,
            Option.isNone_iff_eq_none] at here
          exact here.trans (ih false)
      | false =>
          by_cases semicolon : first = ';'.toUInt8
          · subst semicolon
            rw [splitOn_cons_self, readings, Option.map_eq_none_iff]
            exact ih true
          · obtain ⟨piece, rest, parts, whole⟩ := splitOn_cons_of_ne semicolon s
            have tail := ih false
            rw [parts, readings, Option.map_eq_none_iff] at tail
            rw [whole, readings, Option.map_eq_none_iff, tail, endsSkipping, endsSkipping,
              List.foldl_cons, beq_eq_false_iff_ne.mpr semicolon]
            rfl

/-- The loop skips every second semicolon of a run. -/
theorem endsSkipping_iff (s : Bytes) :
    endsSkipping false s = true ↔ ¬ Even (s.rtakeWhile (· == ';'.toUInt8)).length := by
  induction s using List.reverseRecOn with
  | nil => simp [endsSkipping]
  | append_singleton s last ih =>
      rw [endsSkipping, List.foldl_append, List.foldl_cons, List.foldl_nil]
      change (!endsSkipping false s && last == ';'.toUInt8) = true ↔ _
      by_cases semicolon : last = ';'.toUInt8
      · subst semicolon
        rw [List.rtakeWhile_concat_pos (· == ';'.toUInt8) s _ (beq_self_eq_true _),
          List.length_append, List.length_singleton, Nat.even_add_one, ← ih, beq_self_eq_true, Bool.and_true,
          Bool.not_eq_true', Bool.not_eq_true]
      · rw [List.rtakeWhile_concat_neg (· == ';'.toUInt8) s _ (by simpa using semicolon)]
        simp [semicolon]

theorem parseCookie_returns (req : Request) (cookieString : Bytes) :
    (∃ req', parseCookie req cookieString = .ok req') ↔
      ∃ read, readings false (cookieString.splitOn ';'.toUInt8) = some read := by
  rw [parseCookie, parseCookieFrom_eq _ _ (Nat.zero_le _), List.drop_zero]
  cases readings false (cookieString.splitOn ';'.toUInt8) <;> simp

/-- A cookie header is read to its end if and only if an even number of semicolons
stands there; otherwise the last `substr` starts after it.  The cuts around the first
equals sign of a piece are always inside it. -/
theorem parseCookie_returns_iff (req : Request) (cookieString : Bytes) :
    ((∃ req', parseCookie req cookieString = .ok req') ↔
      Even (cookieString.rtakeWhile (· == ';'.toUInt8)).length) ∧
    ∀ tmp midCursor, find tmp '='.toUInt8 0 = some midCursor →
      substr tmp 0 midCursor = .ok (tmp.take midCursor) ∧
        substrFrom tmp (midCursor + 1) = .ok (tmp.drop (midCursor + 1)) := by
  constructor
  · rw [parseCookie_returns, ← Option.ne_none_iff_exists', ne_eq, readings_eq_none_iff,
      endsSkipping_iff, not_not]
  · intro tmp midCursor found
    have inside := (find_bounds found).2
    exact ⟨substr_of_le (Nat.zero_le _) _, substrFrom_of_le inside⟩

/-- A cookie header that ends in a semicolon. -/
def semicolonRead : ReadCompletion :=
  textRead "GET / HTTP/1.1\r\nCookie: a=b;\r\n\r\n" 0 (by decide)

/-- The exception leaves the completion handler. -/
theorem semicolonRead_throws :
    parseCookie {} (ascii "a=b;") = .error .outOfRange ∧
      onRead {} semicolonRead = .error .outOfRange := by
  constructor
  · decide +kernel
  · apply EventMachine.error_of_output
    decide +kernel

/-! ## Names and session ids -/

/-- The name and the value of a text with an equals sign. -/
def cookiePair (tmp : Bytes) : Option (Bytes × Bytes) :=
  (find tmp '='.toUInt8 0).map fun midCursor => (tmp.take midCursor, tmp.drop (midCursor + 1))

theorem cookiePair_some {tmp name value : Bytes} (pair : cookiePair tmp = some (name, value)) :
    tmp = name ++ '='.toUInt8 :: value ∧ '='.toUInt8 ∉ name := by
  obtain ⟨midCursor, found, same⟩ := Option.map_eq_some_iff.mp pair
  cases same
  have cut := find_eq_some found
  rwa [List.drop_zero, Nat.sub_zero] at cut

theorem parseCookiePair_eq (req : Request) (tmp : Bytes) :
    parseCookiePair req tmp =
      match cookiePair tmp with
      | none => req
      | some (name, value) =>
          if name = ascii "SESSION" then { req with sessionId := value }
          else { req with cookies := req.cookies.assign name value } := by
  rw [parseCookiePair, cookiePair]
  cases find tmp '='.toUInt8 0 <;> rfl

/-- The value of a text that is named as the session. -/
def sessionValue (tmp : Bytes) : Option Bytes :=
  match cookiePair tmp with
  | none => none
  | some (name, value) => if name = ascii "SESSION" then some value else none

theorem sessionValue_some {tmp value : Bytes} :
    sessionValue tmp = some value ↔ cookiePair tmp = some (ascii "SESSION", value) := by
  unfold sessionValue
  cases cookiePair tmp with
  | none => simp
  | some pair =>
      obtain ⟨name, other⟩ := pair
      by_cases session : name = ascii "SESSION"
      · simp [session]
      · simp [session]

/-- The last text that is named as the session gives the session id. -/
theorem sessionId_foldl (texts : List Bytes) (req : Request) :
    (texts.foldl parseCookiePair req).sessionId =
      ((texts.filterMap sessionValue).getLast?).getD req.sessionId := by
  induction texts using List.reverseRecOn with
  | nil => rfl
  | append_singleton texts tmp ih =>
      rw [List.foldl_append, List.foldl_cons, List.foldl_nil, List.filterMap_append,
        parseCookiePair_eq, List.filterMap_cons, List.filterMap_nil, sessionValue]
      cases cookiePair tmp with
      | none => simpa using ih
      | some pair =>
          obtain ⟨name, value⟩ := pair
          by_cases session : name = ascii "SESSION"
          · simp [session]
          · simpa [session] using ih

def CookieMap.names (cookies : CookieMap) : List Bytes :=
  cookies.map Prod.fst

theorem CookieMap.mem_names_assign (cookies : CookieMap) (key value name : Bytes) :
    name ∈ (cookies.assign key value).names ↔ name ∈ cookies.names ∨ name = key := by
  induction cookies with
  | nil => simp [assign, names]
  | cons entry rest ih =>
      obtain ⟨k, v⟩ := entry
      rw [assign]
      by_cases same : k = key
      · simp only [same, if_true, names, List.map_cons, List.mem_cons]
        tauto
      · simp only [same, if_false, names, List.map_cons, List.mem_cons] at ih ⊢
        rw [ih]
        tauto

theorem names_parseCookiePair (req : Request) (tmp name : Bytes) :
    name ∈ (parseCookiePair req tmp).cookies.names ↔
      name ∈ req.cookies.names ∨
        ∃ value, cookiePair tmp = some (name, value) ∧ name ≠ ascii "SESSION" := by
  rw [parseCookiePair_eq]
  cases cookiePair tmp with
  | none => simp
  | some pair =>
      obtain ⟨first, value⟩ := pair
      by_cases session : first = ascii "SESSION"
      · simp only [session, if_true, Option.some.injEq, Prod.mk.injEq]
        constructor
        · exact .inl
        · rintro (old | ⟨other, ⟨rfl, -⟩, apart⟩)
          · exact old
          · exact absurd rfl apart
      · simp only [session, if_false, CookieMap.mem_names_assign, Option.some.injEq, Prod.mk.injEq]
        constructor
        · rintro (old | rfl)
          · exact .inl old
          · exact .inr ⟨value, ⟨rfl, rfl⟩, session⟩
        · rintro (old | ⟨other, ⟨rfl, -⟩, -⟩)
          · exact .inl old
          · exact .inr rfl

/-- The other texts with an equals sign give the names of the cookies. -/
theorem names_foldl (texts : List Bytes) (req : Request) (name : Bytes) :
    name ∈ (texts.foldl parseCookiePair req).cookies.names ↔
      name ∈ req.cookies.names ∨
        ∃ tmp ∈ texts, ∃ value, cookiePair tmp = some (name, value) ∧ name ≠ ascii "SESSION" := by
  induction texts generalizing req with
  | nil => simp
  | cons tmp texts ih =>
      rw [List.foldl_cons, ih, names_parseCookiePair, or_assoc]
      simp only [List.mem_cons, exists_eq_or_imp]

/-! ## Pieces that are read whole -/

/-- A text without the spaces around it. -/
def stripSpaces (s : Bytes) : Bytes :=
  (s.dropWhile (· == ' '.toUInt8)).rdropWhile (· == ' '.toUInt8)

/-- The pieces between the semicolons, without the spaces around them. -/
def cookiePieces (cookieString : Bytes) : List Bytes :=
  (cookieString.splitOn ';'.toUInt8).map stripSpaces

theorem stripSpaces_space_cons (s : Bytes) : stripSpaces (' '.toUInt8 :: s) = stripSpaces s :=
  rfl

theorem rdropWhile_append_cons (name value : Bytes) :
    (name ++ '='.toUInt8 :: value).rdropWhile (· == ' '.toUInt8) =
      name ++ '='.toUInt8 :: value.rdropWhile (· == ' '.toUInt8) := by
  induction value using List.reverseRecOn with
  | nil => exact List.rdropWhile_concat_neg (· == ' '.toUInt8) name _ (by decide)
  | append_singleton value last ih =>
      rw [← List.cons_append, ← List.append_assoc]
      by_cases space : last = ' '.toUInt8
      · subst space
        rw [List.rdropWhile_concat_pos (· == ' '.toUInt8) _ _ (beq_self_eq_true _),
          List.rdropWhile_concat_pos (· == ' '.toUInt8) _ _ (beq_self_eq_true _), ih]
      · have other : ¬ (last == ' '.toUInt8) = true := by simpa using space
        rw [List.rdropWhile_concat_neg (· == ' '.toUInt8) _ _ other,
          List.rdropWhile_concat_neg (· == ' '.toUInt8) _ _ other, List.append_assoc]
        rfl

/-- Only spaces after the value are lost of a pair whose name does not start with one. -/
theorem stripSpaces_pair {name : Bytes} (noSpace : name.head? ≠ some ' '.toUInt8) (value : Bytes) :
    stripSpaces (name ++ '='.toUInt8 :: value) =
      name ++ '='.toUInt8 :: value.rdropWhile (· == ' '.toUInt8) := by
  have whole : (name ++ '='.toUInt8 :: value).dropWhile (· == ' '.toUInt8) =
      name ++ '='.toUInt8 :: value := by
    cases name with
    | nil => rfl
    | cons first name =>
        have other : first ≠ ' '.toUInt8 := fun space => noSpace (congrArg some space)
        exact List.dropWhile_cons_of_neg (by simpa using other)
  rw [stripSpaces, whole, rdropWhile_append_cons]

/-- What the loop reads of a cookie header. -/
def readingsOf (cookieString : Bytes) : List Reading :=
  (readings false (cookieString.splitOn ';'.toUInt8)).getD []

/-- A reading and the byte skipped before it are a piece. -/
theorem piece_of_reading {skipping : Bool} {pieces : List Bytes} {read : List Reading}
    (told : readings skipping pieces = some read) {r : Reading} (member : r ∈ read) :
    r.skipped.toList ++ r.text ∈ pieces := by
  fun_induction readings skipping pieces generalizing read with
  | case1 =>
      cases told
      cases member
  | case2 piece rest ih =>
      obtain ⟨later, toldLater, rfl⟩ := Option.map_eq_some_iff.mp told
      rcases List.mem_cons.mp member with rfl | among
      · exact List.mem_cons_self
      · exact .tail _ (ih toldLater among)
  | case3 c text rest ih =>
      obtain ⟨later, toldLater, rfl⟩ := Option.map_eq_some_iff.mp told
      rcases List.mem_cons.mp member with rfl | among
      · exact List.mem_cons_self
      · exact .tail _ (ih toldLater among)
  | case4 => cases told
  | case5 piece rest ih => exact .tail _ (ih told member)

/-- The name stands at the start of its piece, or after the one space that is skipped. -/
def Reading.NameWhole (r : Reading) (name : Bytes) : Prop :=
  (r.skipped = none ∨ r.skipped = some ' '.toUInt8) ∧ name.head? ≠ some ' '.toUInt8

theorem mem_cookiePieces {cookieString : Bytes} {r : Reading} (member : r ∈ readingsOf cookieString)
    {name value : Bytes} (pair : cookiePair r.text = some (name, value))
    (whole : r.NameWhole name) :
    name ++ '='.toUInt8 :: value.rdropWhile (· == ' '.toUInt8) ∈ cookiePieces cookieString := by
  unfold readingsOf at member
  cases told : readings false (cookieString.splitOn ';'.toUInt8) with
  | none =>
      rw [told] at member
      cases member
  | some read =>
      rw [told] at member
      have piece := List.mem_map_of_mem (f := stripSpaces) (piece_of_reading told member)
      have stripped : stripSpaces (r.skipped.toList ++ r.text) = stripSpaces r.text := by
        rcases whole.1 with start | space
        · rw [start]
          rfl
        · rw [space]
          exact stripSpaces_space_cons r.text
      rw [stripped, (cookiePair_some pair).1, stripSpaces_pair whole.2] at piece
      exact piece

/-! ## Only the cookie of the session sets the session id -/

/-- The session id that a cookie header sets and the names that it adds are those of
pieces of the header. -/
structure ReadsNamedPieces (cookieString : Bytes) (req req' : Request) : Prop where
  session : req'.sessionId ≠ req.sessionId →
    ascii "SESSION=" ++ req'.sessionId ∈ cookiePieces cookieString
  names : ∀ name ∈ req'.cookies.names, name ∉ req.cookies.names →
    '='.toUInt8 ∉ name ∧ ∃ value, name ++ '='.toUInt8 :: value ∈ cookiePieces cookieString

/-- The last reading that is named as the session, with its value. -/
def lastSession (cookieString : Bytes) : Option (Reading × Bytes) :=
  ((readingsOf cookieString).filterMap fun r =>
    (sessionValue r.text).map fun value => (r, value)).getLast?

/-- Readings that are not read as they stand in their piece change nothing, or another
piece has what they are read as. -/
structure MisreadsHarmlessly (cookieString : Bytes) (req : Request) : Prop where
  session : ∀ r value, lastSession cookieString = some (r, value) →
    ¬ (r.NameWhole (ascii "SESSION") ∧ value.getLast? ≠ some ' '.toUInt8) →
      value = req.sessionId ∨ ascii "SESSION=" ++ value ∈ cookiePieces cookieString
  names : ∀ r ∈ readingsOf cookieString, ∀ name value, cookiePair r.text = some (name, value) →
    name ≠ ascii "SESSION" → ¬ r.NameWhole name →
      name ∈ req.cookies.names ∨
        ∃ other, name ++ '='.toUInt8 :: other ∈ cookiePieces cookieString

theorem parseCookie_eq_readings {req req' : Request} {cookieString : Bytes}
    (returned : parseCookie req cookieString = .ok req') :
    req' = ((readingsOf cookieString).map Reading.text).foldl parseCookiePair req := by
  rw [parseCookie, parseCookieFrom_eq _ _ (Nat.zero_le _), List.drop_zero] at returned
  rw [readingsOf]
  cases told : readings false (cookieString.splitOn ';'.toUInt8) with
  | none =>
      rw [told] at returned
      cases returned
  | some read =>
      rw [told] at returned
      cases returned
      rfl

theorem sessionId_of_readings {req : Request} (cookieString : Bytes) :
    (((readingsOf cookieString).map Reading.text).foldl parseCookiePair req).sessionId =
      ((lastSession cookieString).map Prod.snd).getD req.sessionId := by
  have values : (((readingsOf cookieString).map Reading.text).filterMap sessionValue) =
      ((readingsOf cookieString).filterMap fun r =>
        (sessionValue r.text).map fun value => (r, value)).map Prod.snd := by
    rw [List.filterMap_map, List.map_filterMap]
    apply List.filterMap_congr
    intro r _
    rw [Option.map_map]
    exact (Option.map_id' ..).symm
  rw [sessionId_foldl, values, List.getLast?_map]
  rfl

theorem lastSession_some {cookieString value : Bytes} {r : Reading}
    (last : lastSession cookieString = some (r, value)) :
    r ∈ readingsOf cookieString ∧ cookiePair r.text = some (ascii "SESSION", value) := by
  obtain ⟨other, member, read⟩ := List.mem_filterMap.mp (List.mem_of_getLast? last)
  obtain ⟨found, valued, same⟩ := Option.map_eq_some_iff.mp read
  cases same
  exact ⟨member, sessionValue_some.mp valued⟩

/-- A session's pair whose name stands whole and whose value ends in no space is a piece. -/
theorem session_mem_cookiePieces {cookieString value : Bytes} {r : Reading}
    (last : lastSession cookieString = some (r, value)) (whole : r.NameWhole (ascii "SESSION"))
    (ends : value.getLast? ≠ some ' '.toUInt8) :
    ascii "SESSION=" ++ value ∈ cookiePieces cookieString := by
  obtain ⟨member, pair⟩ := lastSession_some last
  have kept : value.rdropWhile (· == ' '.toUInt8) = value := by
    rw [List.rdropWhile_eq_self_iff]
    intro nonempty space
    apply ends
    rw [List.getLast?_eq_some_getLast nonempty, beq_iff_eq.mp space]
  have piece := mem_cookiePieces member pair whole
  rwa [kept] at piece

/-- A cookie header sets the session id and names cookies only as its pieces say, if and
only if what it misreads is harmless. -/
theorem reads_named_pieces_iff {req req' : Request} {cookieString : Bytes}
    (returned : parseCookie req cookieString = .ok req') :
    ReadsNamedPieces cookieString req req' ↔ MisreadsHarmlessly cookieString req := by
  have applied := parseCookie_eq_readings returned
  have sessionEq : req'.sessionId =
      ((lastSession cookieString).map Prod.snd).getD req.sessionId := by
    rw [applied]
    exact sessionId_of_readings cookieString
  have namesIff := names_foldl ((readingsOf cookieString).map Reading.text) req
  rw [← applied] at namesIff
  constructor
  · intro reads
    constructor
    · intro r value last _
      rw [last, Option.map_some, Option.getD_some] at sessionEq
      by_cases same : value = req.sessionId
      · exact .inl same
      · have piece := reads.session (by rwa [sessionEq])
        rw [sessionEq] at piece
        exact .inr piece
    · intro r member name value pair other _
      have added := (namesIff name).mpr
        (.inr ⟨r.text, List.mem_map_of_mem member, value, pair, other⟩)
      by_cases old : name ∈ req.cookies.names
      · exact .inl old
      · exact .inr (reads.names name added old).2
  · intro harmless
    constructor
    · intro changed
      cases last : lastSession cookieString with
      | none =>
          rw [last] at sessionEq
          exact absurd sessionEq changed
      | some found =>
          obtain ⟨r, value⟩ := found
          rw [last, Option.map_some, Option.getD_some] at sessionEq
          rw [sessionEq] at changed ⊢
          by_cases whole : r.NameWhole (ascii "SESSION") ∧ value.getLast? ≠ some ' '.toUInt8
          · exact session_mem_cookiePieces last whole.1 whole.2
          · exact (harmless.session r value last whole).resolve_left changed
    · intro name added fresh
      obtain ⟨tmp, member, value, pair, other⟩ := ((namesIff name).mp added).resolve_left fresh
      obtain ⟨r, read, rfl⟩ := List.mem_map.mp member
      refine ⟨(cookiePair_some pair).2, ?_⟩
      by_cases whole : r.NameWhole name
      · exact ⟨_, mem_cookiePieces read pair whole⟩
      · exact (harmless.names r read name value pair other whole).resolve_left fresh

instance (r : Reading) (name : Bytes) : Decidable (r.NameWhole name) :=
  inferInstanceAs (Decidable (_ ∧ _))

/-- A cookie and a session in the usual spelling. -/
def spacedCookies : Bytes :=
  ascii "theme=dark; SESSION=abc"

theorem spacedCookies_read_whole : ∃ req', parseCookie {} spacedCookies = .ok req' ∧
    req'.sessionId = ascii "abc" ∧ ReadsNamedPieces spacedCookies {} req' := by
  have returned : parseCookie {} spacedCookies =
      .ok { sessionId := ascii "abc", cookies := [(ascii "theme", ascii "dark")] } := by
    decide +kernel
  refine ⟨_, returned, rfl, (reads_named_pieces_iff returned).mpr ?_⟩
  constructor
  · intro r value last misread
    have found : lastSession spacedCookies =
        some ({ skipped := some ' '.toUInt8, text := ascii "SESSION=abc" }, ascii "abc") := by
      decide
    rw [found] at last
    cases last
    exact absurd (by decide) misread
  · intro r member name value pair _ misread
    have all : ∀ r ∈ readingsOf spacedCookies, ∀ pair ∈ cookiePair r.text,
        r.NameWhole pair.1 := by
      decide
    exact absurd (all r member _ pair) misread

/-- A cookie whose name only ends in the name of the session. -/
def unspacedCookies : Bytes :=
  ascii "a=b;xSESSION=evil"

theorem unspacedCookies_set_session : ∃ req', parseCookie {} unspacedCookies = .ok req' ∧
    req'.sessionId = ascii "evil" ∧ ¬ ReadsNamedPieces unspacedCookies {} req' := by
  have returned : parseCookie {} unspacedCookies =
      .ok { sessionId := ascii "evil", cookies := [(ascii "a", ascii "b")] } := by
    decide +kernel
  refine ⟨_, returned, rfl, fun reads => ?_⟩
  have piece := reads.session (by decide)
  revert piece
  decide

end CleanArchitecture
