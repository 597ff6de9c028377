import CleanArchitecture.CookieHeaders

/-!
# Cookie headers in standard form

A header that joins its pairs with a semicolon and a space is read back exactly: the byte
that the loop skips after a semicolon is that space, and every text that it reads is a
pair.
-/

namespace CleanArchitecture

open Connection

/-! ## The joined pairs -/

/-- A pair as a cookie header writes it. -/
def cookieText (pair : Bytes × Bytes) : Bytes :=
  pair.1 ++ '='.toUInt8 :: pair.2

/-- The pairs in order, with the separator that browsers write. -/
def cookieHeader (pairs : List (Bytes × Bytes)) : Bytes :=
  (ascii "; ").intercalate (pairs.map cookieText)

/-- Names without the two delimiters and values without the semicolon. -/
structure CleanPair (pair : Bytes × Bytes) : Prop where
  nameSemicolon : ';'.toUInt8 ∉ pair.1
  nameEquals : '='.toUInt8 ∉ pair.1
  valueSemicolon : ';'.toUInt8 ∉ pair.2

theorem CleanPair.cookieText {pair : Bytes × Bytes} (clean : CleanPair pair) :
    ';'.toUInt8 ∉ cookieText pair := by
  intro member
  rcases List.mem_append.mp member with inName | later
  · exact clean.nameSemicolon inName
  · rcases List.mem_cons.mp later with equals | inValue
    · cases equals
    · exact clean.valueSemicolon inValue

theorem intercalate_cons (separator first : Bytes) (rest : List Bytes) :
    separator.intercalate (first :: rest) = first ++ rest.flatMap (separator ++ ·) := by
  induction rest generalizing first with
  | nil => simp
  | cons next rest ih =>
      rw [List.intercalate_cons_of_ne_nil (List.cons_ne_nil next rest), ih, List.flatMap_cons,
        List.append_assoc, List.append_assoc]

/-- The pieces of joined texts: all but the first start with the space. -/
theorem splitOn_joined {first : Bytes} {rest : List Bytes} (cleanFirst : ';'.toUInt8 ∉ first)
    (cleanRest : ∀ text ∈ rest, ';'.toUInt8 ∉ text) :
    (first ++ rest.flatMap (ascii "; " ++ ·)).splitOn ';'.toUInt8 =
      first :: rest.map (' '.toUInt8 :: ·) := by
  induction rest generalizing first with
  | nil =>
      rw [List.flatMap_nil, List.append_nil, List.map_nil]
      exact List.splitOn_eq_singleton cleanFirst
  | cons next rest ih =>
      have spaced : ';'.toUInt8 ∉ ' '.toUInt8 :: next := by
        intro member
        rcases List.mem_cons.mp member with space | later
        · cases space
        · exact cleanRest next List.mem_cons_self later
      have pieces := ih spaced fun text member => cleanRest text (.tail _ member)
      rw [List.flatMap_cons, List.map_cons, ← pieces]
      exact List.splitOn_append_cons_self_of_not_mem cleanFirst _

/-- The space is the byte that is skipped. -/
theorem readings_spaced (texts : List Bytes) :
    (readings true (texts.map (' '.toUInt8 :: ·))).map (List.map Reading.text) = some texts := by
  induction texts with
  | nil => rfl
  | cons text texts ih =>
      rw [List.map_cons, readings, Option.map_map]
      obtain ⟨read, told, same⟩ := Option.map_eq_some_iff.mp ih
      rw [told, Option.map_some, Function.comp_apply, List.map_cons, same]

/-- What the loop reads of a header in standard form are its pairs. -/
theorem parseCookie_joined {pairs : List (Bytes × Bytes)}
    (clean : ∀ pair ∈ pairs, CleanPair pair) (req : Request) :
    parseCookie req (cookieHeader pairs) =
      .ok ((pairs.map cookieText).foldl parseCookiePair req) := by
  rw [parseCookie, parseCookieFrom_eq _ _ (Nat.zero_le _), List.drop_zero]
  cases pairs with
  | nil => rfl
  | cons first rest =>
      have cleanRest : ∀ text ∈ rest.map cookieText, ';'.toUInt8 ∉ text := by
        intro text member
        obtain ⟨pair, later, rfl⟩ := List.mem_map.mp member
        exact (clean pair (.tail _ later)).cookieText
      rw [cookieHeader, List.map_cons, intercalate_cons,
        splitOn_joined (clean first List.mem_cons_self).cookieText cleanRest, readings,
        Option.map_map]
      obtain ⟨read, told, same⟩ := Option.map_eq_some_iff.mp (readings_spaced (rest.map cookieText))
      rw [told, ← same]
      rfl

/-! ## The map of the last values -/

/-- The last value that a list of pairs has under a name. -/
def lastValue (pairs : List (Bytes × Bytes)) (name : Bytes) : Option Bytes :=
  (pairs.filterMap fun pair => if pair.1 = name then some pair.2 else none).getLast?

theorem lastValue_concat (pairs : List (Bytes × Bytes)) (key value name : Bytes) :
    lastValue (pairs ++ [(key, value)]) name =
      if key = name then some value else lastValue pairs name := by
  unfold lastValue
  rw [List.filterMap_append, List.filterMap_cons, List.filterMap_nil]
  by_cases same : key = name
  · rw [if_pos same, if_pos same, List.getLast?_concat]
  · rw [if_neg same, if_neg same, List.append_nil]

theorem CookieMap.lookup_assign (cookies : CookieMap) (key value name : Bytes) :
    (cookies.assign key value).lookup name =
      if key = name then some value else cookies.lookup name := by
  induction cookies with
  | nil =>
      rw [assign, List.lookup_cons, List.lookup_nil]
      by_cases same : key = name
      · simp [same]
      · simp [same, beq_eq_false_iff_ne.mpr (Ne.symm same)]
  | cons entry rest ih =>
      obtain ⟨k, v⟩ := entry
      rw [assign]
      by_cases held : k = key
      · subst held
        rw [if_pos rfl, List.lookup_cons, List.lookup_cons]
        by_cases same : k = name
        · simp [same]
        · simp [same, beq_eq_false_iff_ne.mpr (Ne.symm same)]
      · rw [if_neg held, List.lookup_cons, List.lookup_cons, ih]
        by_cases here : name = k
        · subst here
          simp [Ne.symm held]
        · simp [beq_eq_false_iff_ne.mpr here]

theorem CookieMap.nodup_names_assign {cookies : CookieMap} (distinct : cookies.names.Nodup)
    (key value : Bytes) : (cookies.assign key value).names.Nodup := by
  induction cookies with
  | nil => exact List.pairwise_singleton _ key
  | cons entry rest ih =>
      obtain ⟨k, v⟩ := entry
      obtain ⟨fresh, later⟩ := List.nodup_cons.mp distinct
      rw [assign]
      by_cases held : k = key
      · rw [if_pos held]
        exact distinct
      · rw [if_neg held]
        apply List.nodup_cons.mpr
        constructor
        · intro among
          rcases (mem_names_assign rest key value k).mp among with old | same
          · exact fresh old
          · exact held same
        · exact ih later

/-- The map of the last values of a list of pairs, under all names but the session's. -/
structure IsLastValues (pairs : List (Bytes × Bytes)) (cookies : CookieMap) : Prop where
  distinct : cookies.names.Nodup
  values : ∀ name, cookies.lookup name =
    if name = ascii "SESSION" then none else lastValue pairs name

/-- The session's pairs are not kept as cookies. -/
theorem IsLastValues.concat_session {pairs : List (Bytes × Bytes)} {cookies : CookieMap}
    (held : IsLastValues pairs cookies) {name : Bytes} (session : name = ascii "SESSION")
    (value : Bytes) : IsLastValues (pairs ++ [(name, value)]) cookies := by
  constructor
  · exact held.distinct
  · intro other
    rw [held.values, lastValue_concat]
    by_cases same : other = ascii "SESSION"
    · rw [if_pos same, if_pos same]
    · rw [if_neg same, if_neg same, session, if_neg (Ne.symm same)]

theorem IsLastValues.concat_cookie {pairs : List (Bytes × Bytes)} {cookies : CookieMap}
    (held : IsLastValues pairs cookies) {name : Bytes} (cookie : name ≠ ascii "SESSION")
    (value : Bytes) : IsLastValues (pairs ++ [(name, value)]) (cookies.assign name value) := by
  constructor
  · exact CookieMap.nodup_names_assign held.distinct name value
  · intro other
    rw [CookieMap.lookup_assign, held.values, lastValue_concat]
    by_cases same : other = ascii "SESSION"
    · rw [if_pos same, if_pos same, same, if_neg cookie]
    · rw [if_neg same, if_neg same]

theorem cookiePair_cookieText {pair : Bytes × Bytes} (noEquals : '='.toUInt8 ∉ pair.1) :
    cookiePair (cookieText pair) = some pair := by
  obtain ⟨name, value⟩ := pair
  cases read : cookiePair (cookieText (name, value)) with
  | none =>
      have absent := find_eq_none (Option.map_eq_none_iff.mp read)
      exact absurd (List.mem_append_right name List.mem_cons_self) absent
  | some found =>
      obtain ⟨foundName, foundValue⟩ := found
      obtain ⟨spelt, clean⟩ := cookiePair_some read
      have names := congrArg (List.takeWhile (· != '='.toUInt8)) spelt
      rw [cookieText, takeWhile_ne_append noEquals, takeWhile_ne_append clean] at names
      rw [cookieText, ← names] at spelt
      have values := (List.cons.inj (List.append_cancel_left spelt)).2
      exact congrArg some (Prod.ext names.symm values.symm)

/-- Reading pairs one after the other leaves the last values. -/
theorem foldl_cookieText {pairs : List (Bytes × Bytes)} (clean : ∀ pair ∈ pairs, CleanPair pair)
    {req : Request} (fresh : req.cookies = []) :
    ∃ cookies, IsLastValues pairs cookies ∧
      (pairs.map cookieText).foldl parseCookiePair req =
        { req with
          sessionId := (lastValue pairs (ascii "SESSION")).getD req.sessionId
          cookies := cookies } := by
  induction pairs using List.reverseRecOn with
  | nil =>
      have empty : IsLastValues [] [] := by
        constructor
        · exact List.nodup_nil
        · intro name
          exact (ite_self none).symm
      refine ⟨[], empty, ?_⟩
      obtain ⟨⟩ := req
      cases fresh
      rfl
  | append_singleton pairs pair ih =>
      obtain ⟨name, value⟩ := pair
      obtain ⟨cookies, held, folded⟩ := ih fun other member =>
        clean other (List.mem_append_left _ member)
      have noEquals :=
        (clean (name, value) (List.mem_append_right pairs List.mem_cons_self)).nameEquals
      rw [List.map_append, List.foldl_append, folded, List.map_singleton, List.foldl_cons,
        List.foldl_nil, parseCookiePair_eq, cookiePair_cookieText noEquals]
      dsimp only
      by_cases session : name = ascii "SESSION"
      · refine ⟨cookies, held.concat_session session value, ?_⟩
        rw [if_pos session, lastValue_concat, if_pos session, Option.getD_some]
      · refine ⟨cookies.assign name value, held.concat_cookie session value, ?_⟩
        rw [if_neg session, lastValue_concat, if_neg session]

/-! ## Reading back -/

/-- A header that joins pairs leaves the last value under the session's name as the
session id, if there is one, and the last values under the other names as the cookies;
nothing else of the request changes. -/
theorem parseCookie_cookieHeader {pairs : List (Bytes × Bytes)}
    (clean : ∀ pair ∈ pairs, CleanPair pair) {req : Request} (fresh : req.cookies = []) :
    ∃ cookies, IsLastValues pairs cookies ∧
      parseCookie req (cookieHeader pairs) =
        .ok { req with
          sessionId := (lastValue pairs (ascii "SESSION")).getD req.sessionId
          cookies := cookies } := by
  obtain ⟨cookies, held, folded⟩ := foldl_cookieText clean fresh
  refine ⟨cookies, held, ?_⟩
  rw [parseCookie_joined clean, folded]

/-- A header with an empty name, an empty value, a value with equals signs and names that
stand twice. -/
def repeatedPairs : List (Bytes × Bytes) :=
  [(ascii "a", ascii "1=2"), (ascii "SESSION", ascii "x"), ([], ascii "b"),
    (ascii "a", []), (ascii "SESSION", ascii "y=z")]

theorem repeatedPairs_clean : ∀ pair ∈ repeatedPairs, CleanPair pair := by
  have names : ∀ pair ∈ repeatedPairs,
      ';'.toUInt8 ∉ pair.1 ∧ '='.toUInt8 ∉ pair.1 ∧ ';'.toUInt8 ∉ pair.2 := by
    decide
  intro pair member
  obtain ⟨nameSemicolon, nameEquals, valueSemicolon⟩ := names pair member
  exact ⟨nameSemicolon, nameEquals, valueSemicolon⟩

theorem parseCookie_repeatedPairs :
    cookieHeader repeatedPairs = ascii "a=1=2; SESSION=x; =b; a=; SESSION=y=z" ∧
      ∃ cookies, IsLastValues repeatedPairs cookies ∧
        parseCookie {} (cookieHeader repeatedPairs) =
          .ok { sessionId := ascii "y=z", cookies := cookies } :=
  ⟨by decide, parseCookie_cookieHeader repeatedPairs_clean rfl⟩

end CleanArchitecture
