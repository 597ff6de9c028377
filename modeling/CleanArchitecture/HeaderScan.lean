import CleanArchitecture.ContentLength
import CleanArchitecture.CookieHeaders

/-!
# The early exit of the header scan

The counter of the loop counts headers that match, while the guards ask whether a field
still has its default.  A match that leaves the default in place is counted again, so that
the third match can come before all fields are read.
-/

namespace CleanArchitecture.Connection

/-! ## The loop without the exit -/

def scanAll : List Header → Nat → Request → Except StdException (Nat × Request)
  | [], i, req => .ok (i, req)
  | h :: headers, i, req =>
      match scanHeader i req h with
      | .error e => .error e
      | .ok (i, req) => scanAll headers i req

theorem scanAll_cons {h : Header} {headers : List Header} {i j : Nat} {req req' : Request} :
    scanAll (h :: headers) i req = .ok (j, req') ↔
      ∃ k next, scanHeader i req h = .ok (k, next) ∧ scanAll headers k next = .ok (j, req') := by
  rw [scanAll]
  cases scanHeader i req h with
  | error e => simp
  | ok answer =>
      obtain ⟨k, next⟩ := answer
      constructor
      · intro rest
        exact ⟨k, next, rfl, rest⟩
      · rintro ⟨k', next', same, rest⟩
        cases same
        exact rest

theorem scanAll_append {before after : List Header} {i j : Nat} {req req' : Request} :
    scanAll (before ++ after) i req = .ok (j, req') ↔
      ∃ k middle, scanAll before i req = .ok (k, middle) ∧
        scanAll after k middle = .ok (j, req') := by
  induction before generalizing i req with
  | nil =>
      constructor
      · intro rest
        exact ⟨i, req, rfl, rest⟩
      · rintro ⟨k, middle, same, rest⟩
        cases same
        exact rest
  | cons h before ih =>
      rw [List.cons_append, scanAll_cons]
      constructor
      · rintro ⟨k, next, first, rest⟩
        obtain ⟨m, middle, began, later⟩ := ih.mp rest
        exact ⟨m, middle, scanAll_cons.mpr ⟨k, next, first, began⟩, later⟩
      · rintro ⟨m, middle, began, later⟩
        obtain ⟨k, next, first, rest⟩ := scanAll_cons.mp began
        exact ⟨k, next, first, ih.mpr ⟨m, middle, rest, later⟩⟩

/-! ## Headers that leave a default in place -/

def IsContentType (h : Header) : Prop :=
  iequals h.name (ascii "content-type") = true

def IsCookie (h : Header) : Prop :=
  iequals h.name (ascii "cookie") = true

/-- A cookie header that is read as no cookie but the session's. -/
def OnlySession (cookieString : Bytes) : Prop :=
  ∀ r ∈ readingsOf cookieString, ∀ pair ∈ cookiePair r.text, pair.1 = ascii "SESSION"

def KeepsLength (h : Header) : Prop :=
  IsContentLength h → stoi h.value = .ok (-1)

def KeepsType (h : Header) : Prop :=
  IsContentType h → h.value = []

def KeepsCookies (h : Header) : Prop :=
  IsCookie h → OnlySession h.value

/-- The length is still the default behind a list of headers. -/
def LengthUnset (req : Request) (headers : List Header) : Prop :=
  req.contentLen = -1 ∧ ∀ h ∈ headers, KeepsLength h

def TypeUnset (req : Request) (headers : List Header) : Prop :=
  req.contentType = [] ∧ ∀ h ∈ headers, KeepsType h

def CookiesUnset (req : Request) (headers : List Header) : Prop :=
  req.cookies = [] ∧ ∀ h ∈ headers, KeepsCookies h

instance (h : Header) : Decidable (IsContentLength h) :=
  inferInstanceAs (Decidable (_ = true))

instance (h : Header) : Decidable (IsContentType h) :=
  inferInstanceAs (Decidable (_ = true))

instance (h : Header) : Decidable (IsCookie h) :=
  inferInstanceAs (Decidable (_ = true))

instance (cookieString : Bytes) : Decidable (OnlySession cookieString) :=
  inferInstanceAs (Decidable (∀ r ∈ readingsOf cookieString, ∀ pair ∈ cookiePair r.text, _))

instance (h : Header) : Decidable (KeepsLength h) :=
  inferInstanceAs (Decidable (_ → _))

instance (h : Header) : Decidable (KeepsType h) :=
  inferInstanceAs (Decidable (_ → _))

instance (h : Header) : Decidable (KeepsCookies h) :=
  inferInstanceAs (Decidable (_ → _))

instance (req : Request) (headers : List Header) : Decidable (LengthUnset req headers) :=
  inferInstanceAs (Decidable (_ ∧ _))

instance (req : Request) (headers : List Header) : Decidable (TypeUnset req headers) :=
  inferInstanceAs (Decidable (_ ∧ _))

instance (req : Request) (headers : List Header) : Decidable (CookiesUnset req headers) :=
  inferInstanceAs (Decidable (_ ∧ _))

/-- The session id behind a list of headers whose cookie headers are all read. -/
def sessionRead (sessionId : Bytes) (headers : List Header) : Bytes :=
  headers.foldl (fun sid h =>
    if IsCookie h then ((lastSession h.value).map Prod.snd).getD sid else sid) sessionId

/-- The guards of the loop at a header behind a list of headers. -/
def Counts (req : Request) (before : List Header) (h : Header) : Prop :=
  LengthUnset req before ∧ IsContentLength h ∨ TypeUnset req before ∧ IsContentType h ∨
    CookiesUnset req before ∧ IsCookie h

instance (req : Request) (before : List Header) (h : Header) : Decidable (Counts req before h) :=
  inferInstanceAs (Decidable (_ ∨ _))

/-- The number of headers that count behind those of `before`. -/
def countMatches (req : Request) (before : List Header) : List Header → Nat
  | [] => 0
  | h :: headers =>
      (if Counts req before h then 1 else 0) + countMatches req (before ++ [h]) headers

/-! ## One round -/

theorem names_apart {h : Header} :
    (IsContentLength h → ¬ IsContentType h ∧ ¬ IsCookie h) ∧
      (IsContentType h → ¬ IsContentLength h ∧ ¬ IsCookie h) ∧
        (IsCookie h → ¬ IsContentLength h ∧ ¬ IsContentType h) := by
  simp only [IsContentLength, IsContentType, IsCookie, iequals, beq_iff_eq]
  refine ⟨?_, ?_, ?_⟩
  · intro same
    rw [same]
    decide
  · intro same
    rw [same]
    decide
  · intro same
    rw [same]
    decide

/-- What one round can do, with its guards. -/
theorem scanHeader_kinds {i j : Nat} {req req' : Request} {h : Header}
    (scanned : scanHeader i req h = .ok (j, req')) :
    (∃ n, IsContentLength h ∧ req.contentLen = -1 ∧ stoi h.value = .ok n ∧ j = i + 1 ∧
        req' = { req with contentLen := n }) ∨
      (IsContentType h ∧ req.contentType = [] ∧ j = i + 1 ∧
        req' = { req with contentType := h.value }) ∨
      (IsCookie h ∧ req.cookies = [] ∧ j = i + 1 ∧ parseCookie req h.value = .ok req') ∨
      (¬ (req.contentLen = -1 ∧ IsContentLength h) ∧ ¬ (req.contentType = [] ∧ IsContentType h) ∧
        ¬ (req.cookies = [] ∧ IsCookie h) ∧ j = i ∧ req' = req) := by
  unfold scanHeader at scanned
  simp only [List.isEmpty_iff] at scanned
  split at scanned
  · rename_i lengthHeader
    split at scanned
    · cases scanned
    · rename_i n converted
      cases scanned
      exact .inl ⟨n, lengthHeader.2, lengthHeader.1, converted, rfl, rfl⟩
  · rename_i noLength
    split at scanned
    · rename_i typeHeader
      cases scanned
      exact .inr (.inl ⟨typeHeader.2, typeHeader.1, rfl, rfl⟩)
    · rename_i noType
      split at scanned
      · rename_i cookieHeader
        split at scanned
        · cases scanned
        · rename_i parsed
          cases scanned
          exact .inr (.inr (.inl ⟨cookieHeader.2, cookieHeader.1, rfl, parsed⟩))
      · rename_i noCookie
        cases scanned
        exact .inr (.inr (.inr ⟨noLength, noType, noCookie, rfl, rfl⟩))

/-- What a scan of headers does to the four fields. -/
structure Scanned (req : Request) (headers : List Header) (req' : Request) : Prop where
  head : SameHead req' req
  length : req'.contentLen = -1 ↔ LengthUnset req headers
  lengthKept : req.contentLen ≠ -1 → req'.contentLen = req.contentLen
  type : req'.contentType = [] ↔ TypeUnset req headers
  typeKept : req.contentType ≠ [] → req'.contentType = req.contentType
  cookies : req'.cookies = [] ↔ CookiesUnset req headers
  cookiesKept : req.cookies ≠ [] →
    req'.cookies = req.cookies ∧ req'.sessionId = req.sessionId
  session : req'.cookies = [] → req'.sessionId = sessionRead req.sessionId headers

theorem Scanned.nil (req : Request) : Scanned req [] req where
  head := SameHead.refl req
  length := by simp [LengthUnset]
  lengthKept _ := rfl
  type := by simp [TypeUnset]
  typeKept _ := rfl
  cookies := by simp [CookiesUnset]
  cookiesKept _ := ⟨rfl, rfl⟩
  session _ := rfl

theorem Scanned.append {req middle last : Request} {before after : List Header}
    (first : Scanned req before middle) (second : Scanned middle after last) :
    Scanned req (before ++ after) last where
  head := second.head.trans first.head
  length := by
    rw [second.length, LengthUnset, first.length, LengthUnset, LengthUnset, List.forall_mem_append,
      and_assoc]
  lengthKept set := by
    have kept := first.lengthKept set
    rw [second.lengthKept (kept ▸ set), kept]
  type := by
    rw [second.type, TypeUnset, first.type, TypeUnset, TypeUnset, List.forall_mem_append, and_assoc]
  typeKept set := by
    have kept := first.typeKept set
    rw [second.typeKept (kept ▸ set), kept]
  cookies := by
    rw [second.cookies, CookiesUnset, first.cookies, CookiesUnset, CookiesUnset,
      List.forall_mem_append, and_assoc]
  cookiesKept set := by
    obtain ⟨cookies, session⟩ := first.cookiesKept set
    obtain ⟨cookies', session'⟩ := second.cookiesKept (cookies ▸ set)
    exact ⟨cookies'.trans cookies, session'.trans session⟩
  session unset := by
    rw [second.session unset, first.session (second.cookies.mp unset).1, sessionRead, sessionRead,
      sessionRead, List.foldl_append]

theorem cookies_eq_nil_iff (cookies : CookieMap) : cookies = [] ↔ ∀ name, name ∉ cookies.names := by
  rw [← List.eq_nil_iff_forall_not_mem, CookieMap.names, List.map_eq_nil_iff]

theorem parseCookie_cookies {req req' : Request} {cookieString : Bytes}
    (returned : parseCookie req cookieString = .ok req') :
    req'.cookies = [] ↔ req.cookies = [] ∧ OnlySession cookieString := by
  rw [parseCookie_eq_readings returned, cookies_eq_nil_iff, cookies_eq_nil_iff]
  simp only [names_foldl, not_or, forall_and]
  apply and_congr_right
  intro _
  constructor
  · intro none r member pair read
    by_contra other
    exact none pair.1 ⟨r.text, List.mem_map_of_mem member, pair.2, read, other⟩
  · rintro only name ⟨tmp, member, value, read, other⟩
    obtain ⟨r, among, rfl⟩ := List.mem_map.mp member
    exact other (only r among (name, value) read)

theorem parseCookie_sessionId {req req' : Request} {cookieString : Bytes}
    (returned : parseCookie req cookieString = .ok req') :
    req'.sessionId = ((lastSession cookieString).map Prod.snd).getD req.sessionId := by
  rw [parseCookie_eq_readings returned, sessionId_of_readings]

/-- The fields that a cookie header leaves as they are. -/
theorem parseCookie_others {req req' : Request} {cookieString : Bytes}
    (returned : parseCookie req cookieString = .ok req') :
    req'.contentLen = req.contentLen ∧ req'.contentType = req.contentType :=
  parseCookie_invariant
    (fun current => current.contentLen = req.contentLen ∧ current.contentType = req.contentType)
    (fun _ _ same => same) (fun _ _ same => same) ⟨rfl, rfl⟩ returned

/-- A header of another name keeps a default, whatever the guard says of it. -/
theorem keeps_of_not {h : Header} :
    (¬ IsContentLength h → KeepsLength h) ∧ (¬ IsContentType h → KeepsType h) ∧
      (¬ IsCookie h → KeepsCookies h ∧ ∀ sid, sessionRead sid [h] = sid) := by
  refine ⟨?_, ?_, ?_⟩
  · intro other name
    exact absurd name other
  · intro other name
    exact absurd name other
  · intro other
    constructor
    · intro name
      exact absurd name other
    · intro sid
      exact if_neg other

theorem sessionRead_singleton {h : Header} (name : IsCookie h) (sid : Bytes) :
    sessionRead sid [h] = ((lastSession h.value).map Prod.snd).getD sid :=
  if_pos name

theorem scanHeader_scanned {i j : Nat} {req req' : Request} {h : Header}
    (scanned : scanHeader i req h = .ok (j, req')) : Scanned req [h] req' := by
  obtain ⟨ofLength, ofType, ofCookie⟩ := names_apart (h := h)
  obtain ⟨otherLength, otherType, otherCookie⟩ := keeps_of_not (h := h)
  rcases scanHeader_kinds scanned with ⟨n, name, unset, converted, -, rfl⟩ |
    ⟨name, unset, -, rfl⟩ | ⟨name, unset, -, parsed⟩ | ⟨noLength, noType, noCookie, -, rfl⟩
  · obtain ⟨noType, noCookie⟩ := ofLength name
    obtain ⟨keepsCookies, noSession⟩ := otherCookie noCookie
    have keeps : n = -1 ↔ KeepsLength h := by
      rw [KeepsLength, converted]
      simp [name]
    constructor
    case head => exact SameHead.refl _
    case length => simp [LengthUnset, unset, keeps]
    case lengthKept => exact fun set => absurd unset set
    case type => simp [TypeUnset, otherType noType]
    case typeKept => exact fun _ => rfl
    case cookies => simp [CookiesUnset, keepsCookies]
    case cookiesKept => exact fun _ => ⟨rfl, rfl⟩
    case session => exact fun _ => (noSession _).symm
  · obtain ⟨noLength, noCookie⟩ := ofType name
    obtain ⟨keepsCookies, noSession⟩ := otherCookie noCookie
    have keeps : h.value = [] ↔ KeepsType h := by
      rw [KeepsType]
      simp [name]
    constructor
    case head => exact SameHead.refl _
    case length => simp [LengthUnset, otherLength noLength]
    case lengthKept => exact fun _ => rfl
    case type => simp [TypeUnset, unset, keeps]
    case typeKept => exact fun set => absurd unset set
    case cookies => simp [CookiesUnset, keepsCookies]
    case cookiesKept => exact fun _ => ⟨rfl, rfl⟩
    case session => exact fun _ => (noSession _).symm
  · obtain ⟨noLength, noType⟩ := ofCookie name
    obtain ⟨sameLength, sameType⟩ := parseCookie_others parsed
    have keeps : OnlySession h.value ↔ KeepsCookies h := by
      rw [KeepsCookies]
      simp [name]
    constructor
    case head => exact parseCookie_sameHead parsed
    case length => simp [LengthUnset, otherLength noLength, sameLength]
    case lengthKept => exact fun _ => sameLength
    case type => simp [TypeUnset, otherType noType, sameType]
    case typeKept => exact fun _ => sameType
    case cookies => simp [CookiesUnset, parseCookie_cookies parsed, keeps]
    case cookiesKept => exact fun set => absurd unset set
    case session =>
      intro _
      rw [sessionRead_singleton name, parseCookie_sessionId parsed]
  · constructor
    case head => exact SameHead.refl _
    case length =>
      rw [LengthUnset, List.forall_mem_singleton]
      apply (and_iff_left_of_imp _).symm
      intro unset
      exact otherLength fun name => noLength ⟨unset, name⟩
    case lengthKept => exact fun _ => rfl
    case type =>
      rw [TypeUnset, List.forall_mem_singleton]
      apply (and_iff_left_of_imp _).symm
      intro unset
      exact otherType fun name => noType ⟨unset, name⟩
    case typeKept => exact fun _ => rfl
    case cookies =>
      rw [CookiesUnset, List.forall_mem_singleton]
      apply (and_iff_left_of_imp _).symm
      intro unset
      exact (otherCookie fun name => noCookie ⟨unset, name⟩).1
    case cookiesKept => exact fun _ => ⟨rfl, rfl⟩
    case session =>
      intro unset
      exact ((otherCookie fun name => noCookie ⟨unset, name⟩).2 _).symm

/-- The counter grows exactly at the headers that count. -/
theorem scanHeader_counter {i j : Nat} {start req req' : Request} {before : List Header}
    {h : Header} (began : Scanned start before req) (scanned : scanHeader i req h = .ok (j, req')) :
    j = i + if Counts start before h then 1 else 0 := by
  have guards : Counts start before h ↔ req.contentLen = -1 ∧ IsContentLength h ∨
      req.contentType = [] ∧ IsContentType h ∨ req.cookies = [] ∧ IsCookie h := by
    rw [Counts, began.length, began.type, began.cookies]
  rcases scanHeader_kinds scanned with ⟨n, name, unset, -, counted, -⟩ |
    ⟨name, unset, counted, -⟩ | ⟨name, unset, counted, -⟩ | ⟨noLength, noType, noCookie, counted, -⟩
  · rw [if_pos (guards.mpr (.inl ⟨unset, name⟩)), counted]
  · rw [if_pos (guards.mpr (.inr (.inl ⟨unset, name⟩))), counted]
  · rw [if_pos (guards.mpr (.inr (.inr ⟨unset, name⟩))), counted]
  · have uncounted : ¬ Counts start before h := by
      intro counts
      rcases guards.mp counts with length | type | cookie
      · exact noLength length
      · exact noType type
      · exact noCookie cookie
    rw [if_neg uncounted, counted, Nat.add_zero]

/-! ## Whole scans -/

theorem scanAll_scanned {headers : List Header} {i j : Nat} {req req' : Request}
    (scanned : scanAll headers i req = .ok (j, req')) : Scanned req headers req' := by
  induction headers generalizing i req with
  | nil =>
      cases scanned
      exact Scanned.nil _
  | cons h headers ih =>
      obtain ⟨k, next, first, rest⟩ := scanAll_cons.mp scanned
      exact (scanHeader_scanned first).append (ih rest)

theorem scanAll_counter {headers : List Header} {i j : Nat} {start req req' : Request}
    {before : List Header} (began : Scanned start before req)
    (scanned : scanAll headers i req = .ok (j, req')) :
    j = i + countMatches start before headers := by
  induction headers generalizing i req before with
  | nil =>
      cases scanned
      rfl
  | cons h headers ih =>
      obtain ⟨k, next, first, rest⟩ := scanAll_cons.mp scanned
      have here := scanHeader_counter began first
      have later := ih (began.append (scanHeader_scanned first)) rest
      rw [countMatches]
      omega

/-- The counter never shrinks. -/
theorem scanAll_le {headers : List Header} {i j : Nat} {req req' : Request}
    (scanned : scanAll headers i req = .ok (j, req')) : i ≤ j := by
  have counted := scanAll_counter (Scanned.nil _) scanned
  omega

/-- Up to the third match the exit makes no difference. -/
theorem scanHeaders_of_scanAll {before after : List Header} {i k : Nat} {req middle : Request}
    (began : scanAll before i req = .ok (k, middle)) (few : k ≤ 2) :
    scanHeaders (before ++ after) i req = scanHeaders after k middle := by
  induction before generalizing i req with
  | nil =>
      cases began
      rfl
  | cons h before ih =>
      obtain ⟨m, next, first, rest⟩ := scanAll_cons.mp began
      have grown := scanAll_le rest
      rw [List.cons_append, scanHeaders, first]
      dsimp only
      rw [if_neg (by omega)]
      exact ih rest

/-- The loop is left at the third match. -/
theorem scanHeaders_third {before after : List Header} {h : Header} {i : Nat}
    {req middle part : Request} (began : scanAll before i req = .ok (2, middle))
    (third : scanHeader 2 middle h = .ok (3, part)) :
    scanHeaders (before ++ h :: after) i req = .ok (3, part) := by
  rw [scanHeaders_of_scanAll began (Nat.le_refl 2), scanHeaders, third]
  rfl

/-- A scan with more than two matches has a third one. -/
theorem exists_third {headers : List Header} {i j : Nat} {req full : Request}
    (scanned : scanAll headers i req = .ok (j, full)) (few : i ≤ 2) (many : 2 < j) :
    ∃ before h after middle part, headers = before ++ h :: after ∧
      scanAll before i req = .ok (2, middle) ∧ scanHeader 2 middle h = .ok (3, part) ∧
        scanAll after 3 part = .ok (j, full) := by
  induction headers generalizing i req with
  | nil =>
      cases scanned
      omega
  | cons h headers ih =>
      obtain ⟨k, next, first, rest⟩ := scanAll_cons.mp scanned
      have step := scanHeader_counter (Scanned.nil _) first
      by_cases stays : k ≤ 2
      · obtain ⟨before, third, after, middle, part, split, began, exit, later⟩ := ih rest stays
        refine ⟨h :: before, third, after, middle, part, ?_, ?_, exit, later⟩
        · rw [split, List.cons_append]
        · exact scanAll_cons.mpr ⟨k, next, first, began⟩
      · have last : i = 2 ∧ k = 3 := by
          split at step <;> omega
        obtain ⟨rfl, rfl⟩ := last
        exact ⟨[], h, headers, req, next, rfl, rfl, first, rest⟩

/-! ## Headers behind the exit -/

/-- The headers behind those that were read change no field any more. -/
structure IdleAfter (req : Request) (read later : List Header) : Prop where
  length : LengthUnset req read → ∀ h ∈ later, KeepsLength h
  type : TypeUnset req read → ∀ h ∈ later, KeepsType h
  cookies : CookiesUnset req read → ∀ h ∈ later, KeepsCookies h
  session : CookiesUnset req read →
    sessionRead req.sessionId (read ++ later) = sessionRead req.sessionId read

/-- Behind the third header that counts no header changes a field. -/
def LaterHeadersIdle (req : Request) (headers : List Header) : Prop :=
  ∀ before h after, headers = before ++ h :: after → countMatches req [] before = 2 →
    Counts req before h → IdleAfter req (before ++ [h]) after

theorem request_eq {a b : Request} (head : SameHead a b) (length : a.contentLen = b.contentLen)
    (type : a.contentType = b.contentType) (cookies : a.cookies = b.cookies)
    (session : a.sessionId = b.sessionId) : a = b := by
  obtain ⟨method, uri, major, minor, headers, body⟩ := head
  cases a
  cases b
  simp_all

/-- A scan of further headers changes nothing if and only if they are idle. -/
theorem scanned_eq_iff {start part full : Request} {read later : List Header}
    (first : Scanned start read part) (second : Scanned part later full) :
    part = full ↔ IdleAfter start read later := by
  have whole := first.append second
  constructor
  · rintro rfl
    constructor
    case length =>
      intro unset
      exact (second.length.mp (first.length.mpr unset)).2
    case type =>
      intro unset
      exact (second.type.mp (first.type.mpr unset)).2
    case cookies =>
      intro unset
      exact (second.cookies.mp (first.cookies.mpr unset)).2
    case session =>
      intro unset
      have empty := first.cookies.mpr unset
      rw [← whole.session empty, ← first.session empty]
  · intro idle
    apply (request_eq second.head _ _ _ _).symm
    · by_cases unset : part.contentLen = -1
      · rw [second.length.mpr ⟨unset, idle.length (first.length.mp unset)⟩, unset]
      · exact second.lengthKept unset
    · by_cases unset : part.contentType = []
      · rw [second.type.mpr ⟨unset, idle.type (first.type.mp unset)⟩, unset]
      · exact second.typeKept unset
    · by_cases unset : part.cookies = []
      · rw [second.cookies.mpr ⟨unset, idle.cookies (first.cookies.mp unset)⟩, unset]
      · exact (second.cookiesKept unset).1
    · by_cases unset : part.cookies = []
      · have empty := second.cookies.mpr ⟨unset, idle.cookies (first.cookies.mp unset)⟩
        rw [whole.session empty, idle.session (first.cookies.mp unset), first.session unset]
      · exact (second.cookiesKept unset).2

/-- The exit leaves the request that the loop without it leaves, if and only if no header
behind the third that counts would change a field. -/
theorem scanHeaders_eq_scanAll_iff {headers : List Header} {req full : Request} {j : Nat}
    (scanned : scanAll headers 0 req = .ok (j, full)) :
    (∃ i, scanHeaders headers 0 req = .ok (i, full)) ↔ LaterHeadersIdle req headers := by
  constructor
  · rintro ⟨i, exited⟩ before h after rfl two counts
    obtain ⟨k, middle, began, rest⟩ := scanAll_append.mp scanned
    obtain ⟨m, part, third, later⟩ := scanAll_cons.mp rest
    have kTwo : k = 2 := by
      have counted := scanAll_counter (Scanned.nil _) began
      omega
    subst kTwo
    have mThree : m = 3 := by
      have counted := scanHeader_counter (scanAll_scanned began) third
      rwa [if_pos counts] at counted
    subst mThree
    rw [scanHeaders_third began third] at exited
    cases exited
    have read := (scanAll_scanned began).append (scanHeader_scanned third)
    exact (scanned_eq_iff read (scanAll_scanned later)).mp rfl
  · intro idle
    by_cases few : j ≤ 2
    · have same : scanHeaders (headers ++ []) 0 req = .ok (j, full) :=
        scanHeaders_of_scanAll scanned few
      rw [List.append_nil] at same
      exact ⟨j, same⟩
    · obtain ⟨before, h, after, middle, part, rfl, began, third, later⟩ :=
        exists_third scanned (Nat.zero_le 2) (by omega)
      have two : countMatches req [] before = 2 := by
        have counted := scanAll_counter (Scanned.nil _) began
        omega
      have counts : Counts req before h := by
        by_contra uncounted
        have counted := scanHeader_counter (scanAll_scanned began) third
        rw [if_neg uncounted] at counted
        omega
      have read := (scanAll_scanned began).append (scanHeader_scanned third)
      have same := (scanned_eq_iff read (scanAll_scanned later)).mpr
        (idle before h after rfl two counts)
      rw [← same]
      exact ⟨3, scanHeaders_third began third⟩

/-- The session's cookie sent twice, before the content type. -/
def twiceCookies : List Header :=
  [⟨ascii "Content-Length", ascii "2"⟩, ⟨ascii "Cookie", ascii "SESSION=abc"⟩,
    ⟨ascii "Cookie", ascii "SESSION=abc"⟩, ⟨ascii "Content-Type", ascii "application/json"⟩]

def twiceCookiesRead : Request where
  contentLen := 2
  sessionId := ascii "abc"
  contentType := ascii "application/json"

/-- Each header once, and a further cookie behind them. -/
def onceHeaders : List Header :=
  [⟨ascii "Content-Type", ascii "application/json"⟩, ⟨ascii "Host", ascii "localhost"⟩,
    ⟨ascii "Cookie", ascii "SESSION=abc; theme=dark"⟩, ⟨ascii "Content-Length", ascii "2"⟩,
    ⟨ascii "Cookie", ascii "lang=en"⟩]

def onceHeadersRead : Request :=
  { twiceCookiesRead with cookies := [(ascii "theme", ascii "dark")] }

theorem scanAll_twiceCookies : scanAll twiceCookies 0 {} = .ok (4, twiceCookiesRead) := by
  decide +kernel

theorem scanHeaders_twiceCookies :
    scanHeaders twiceCookies 0 {} = .ok (3, { twiceCookiesRead with contentType := [] }) := by
  decide +kernel

/-- The content type behind the second cookie header is not read. -/
theorem twiceCookies_loses_type :
    scanAll twiceCookies 0 {} = .ok (4, twiceCookiesRead) ∧
      ¬ ∃ i, scanHeaders twiceCookies 0 {} = .ok (i, twiceCookiesRead) := by
  constructor
  · exact scanAll_twiceCookies
  · rintro ⟨i, same⟩
    rw [scanHeaders_twiceCookies] at same
    cases same

/-- Only the second of the two lists is idle behind its third match. -/
theorem onceHeaders_idle :
    ¬ LaterHeadersIdle {} twiceCookies ∧ LaterHeadersIdle {} onceHeaders := by
  constructor
  · intro idle
    obtain ⟨i, same⟩ := (scanHeaders_eq_scanAll_iff scanAll_twiceCookies).mpr idle
    rw [scanHeaders_twiceCookies] at same
    cases same
  · have whole : scanAll onceHeaders 0 {} = .ok (3, onceHeadersRead) := by
      decide +kernel
    have exited : scanHeaders onceHeaders 0 {} = .ok (3, onceHeadersRead) := by
      decide +kernel
    exact (scanHeaders_eq_scanAll_iff whole).mp ⟨3, exited⟩

end CleanArchitecture.Connection
