import CleanArchitecture.CookieRoundTrip
import CleanArchitecture.ResponseFraming
import CleanArchitecture.SetCookie

/-!
# What clients make of the cookies

A cookie is decoded with everything but its age: the attribute is spelt `MaxAge`, which no
client knows, so that a cookie is kept until the client is closed.
-/

namespace CleanArchitecture

open SetCookie

/-! ## The text of a cookie -/

/-- The attributes of a cookie, without the separators between them. -/
def Cookie.attributes (c : Cookie) : List Bytes :=
  (if c.path ≠ [] then [ascii "Path=" ++ c.path] else []) ++
    (if c.domain ≠ [] then [ascii "Domain=" ++ c.domain] else []) ++
    (if c.sameSite ≠ [] then [ascii "SameSite=" ++ c.sameSite] else []) ++
    (if c.maxAge > -1 then [ascii "MaxAge=" ++ CleanArchitecture.toString c.maxAge] else []) ++
    (if c.secure then [ascii "Secure"] else []) ++
    (if c.httpOnly then [ascii "HttpOnly"] else [])

theorem flatMap_optional (present : Prop) [Decidable present] (text : Bytes) :
    (if present then [text] else []).flatMap (ascii "; " ++ ·) =
      if present then ascii "; " ++ text else [] := by
  split <;> simp

/-- The text is the pair and the attributes, each after the separator. -/
theorem Cookie.toString_eq {c : Cookie} (named : c.name ≠ []) (fresh : c.cookieValue = []) :
    c.toString = cookieText (c.name, c.value) ++ c.attributes.flatMap (ascii "; " ++ ·) := by
  have path : ascii "; Path=" = ascii "; " ++ ascii "Path=" := rfl
  have domain : ascii "; Domain=" = ascii "; " ++ ascii "Domain=" := rfl
  have sameSite : ascii "; SameSite=" = ascii "; " ++ ascii "SameSite=" := rfl
  have maxAge : ascii "; MaxAge=" = ascii "; " ++ ascii "MaxAge=" := rfl
  have secure : ascii "; Secure" = ascii "; " ++ ascii "Secure" := rfl
  have httpOnly : ascii "; HttpOnly" = ascii "; " ++ ascii "HttpOnly" := rfl
  have pair : cookieText (c.name, c.value) = c.name ++ ascii "=" ++ c.value := by
    rw [cookieText, List.append_assoc]
    rfl
  rw [Cookie.toString, if_neg (not_not_intro fresh), if_neg named, Cookie.attributes, pair, path,
    domain, sameSite, maxAge, secure, httpOnly]
  simp only [List.flatMap_append, flatMap_optional, List.append_assoc]

/-! ## Cookies that can be decoded -/

/-- The name is not empty and has no equals sign, no field has a semicolon or blanks
around it, the path is absolute, and the domain is in lower case without a leading dot. -/
structure Cookie.Decodable (c : Cookie) : Prop where
  named : c.name ≠ []
  noEquals : '='.toUInt8 ∉ c.name
  noSemicolon : ∀ text ∈ [c.name, c.value, c.path, c.domain, c.sameSite], ';'.toUInt8 ∉ text
  bare : ∀ text ∈ [c.name, c.value, c.path, c.domain, c.sameSite], Bare text
  absolute : c.path = [] ∨ c.path.head? = some '/'.toUInt8
  lower : c.domain.map tolower = c.domain
  noDot : c.domain.head? ≠ some '.'.toUInt8
  fresh : c.cookieValue = []

/-- What a cookie says. -/
def Cookie.meaning (c : Cookie) : Decoded where
  name := c.name
  value := c.value
  path := c.path
  domain := c.domain
  sameSite := c.sameSite
  maxAge := if 0 ≤ c.maxAge then some c.maxAge else none
  secure := c.secure
  httpOnly := c.httpOnly

/-- The attributes have no semicolon, so that the text is cut between them. -/
theorem Cookie.Decodable.noSemicolon_attributes {c : Cookie} (decodable : c.Decodable) :
    ∀ part ∈ c.attributes, ';'.toUInt8 ∉ part := by
  have optional : ∀ {present : Prop} [Decidable present] {label text : Bytes},
      ';'.toUInt8 ∉ label → ';'.toUInt8 ∉ text →
        ∀ part ∈ if present then [label ++ text] else [], ';'.toUInt8 ∉ part := by
    intro present _ label text inLabel inText part member
    split at member
    · rw [List.mem_singleton.mp member, List.mem_append, not_or]
      exact ⟨inLabel, inText⟩
    · cases member
  have noSemicolon := decodable.noSemicolon
  simp only [List.forall_mem_cons] at noSemicolon
  obtain ⟨-, -, path, domain, sameSite, -⟩ := noSemicolon
  rw [Cookie.attributes]
  simp only [List.forall_mem_append]
  refine ⟨⟨⟨⟨⟨?_, ?_⟩, ?_⟩, ?_⟩, ?_⟩, ?_⟩
  · exact optional (by decide) path
  · exact optional (by decide) domain
  · exact optional (by decide) sameSite
  · exact optional (by decide) (notMem_toString rfl (by decide) _)
  · have secure : ';'.toUInt8 ∉ ascii "Secure" := by decide
    exact optional secure List.not_mem_nil
  · have httpOnly : ';'.toUInt8 ∉ ascii "HttpOnly" := by decide
    exact optional httpOnly List.not_mem_nil

/-! ## Its attributes one by one -/

/-- The attributes behind their spaces. -/
def applyAll (cookie : Decoded) (attributes : List Bytes) : Decoded :=
  attributes.foldl (fun cookie text => cookie.withAttribute (32 :: text)) cookie

theorem applyAll_append (cookie : Decoded) (first second : List Bytes) :
    applyAll cookie (first ++ second) = applyAll (applyAll cookie first) second :=
  List.foldl_append

theorem applyAll_optional (cookie : Decoded) (present : Prop) [Decidable present] (text : Bytes) :
    applyAll cookie (if present then [text] else []) =
      if present then cookie.withAttribute (32 :: text) else cookie := by
  split <;> rfl

section Attributes

variable (cookie : Decoded)

theorem applyAll_path {path : Bytes} (absolute : path = [] ∨ path.head? = some '/'.toUInt8)
    (bare : Bare path) (unset : cookie.path = []) :
    applyAll cookie (if path ≠ [] then [ascii "Path=" ++ path] else []) =
      { cookie with path := path } := by
  rw [applyAll_optional]
  by_cases empty : path = []
  · rw [if_neg (not_not_intro empty), empty, ← unset]
  · have applied : cookie.withAttribute (32 :: (ascii "Path" ++ 61 :: path)) =
        { cookie with path := if (trimBlanks path).head? = some 47 then trimBlanks path else [] } :=
      withAttribute_pair cookie (by decide) (by decide) path
    have slash : path.head? = some 47 := absolute.resolve_left empty
    rw [bare.trimBlanks, if_pos slash] at applied
    rw [if_pos empty]
    exact applied

theorem applyAll_domain {domain : Bytes} (lower : domain.map tolower = domain)
    (noDot : domain.head? ≠ some '.'.toUInt8) (bare : Bare domain) (unset : cookie.domain = []) :
    applyAll cookie (if domain ≠ [] then [ascii "Domain=" ++ domain] else []) =
      { cookie with domain := domain } := by
  rw [applyAll_optional]
  by_cases empty : domain = []
  · rw [if_neg (not_not_intro empty), empty, ← unset]
  · have applied : cookie.withAttribute (32 :: (ascii "Domain" ++ 61 :: domain)) =
        if trimBlanks domain = [] then cookie
        else { cookie with domain := canonicalDomain (trimBlanks domain) } :=
      withAttribute_pair cookie (by decide) (by decide) domain
    have other : ¬ domain.head? = some 46 := noDot
    rw [bare.trimBlanks, if_neg empty, canonicalDomain, if_neg other, lower] at applied
    rw [if_pos empty]
    exact applied

theorem applyAll_sameSite {sameSite : Bytes} (bare : Bare sameSite) (unset : cookie.sameSite = []) :
    applyAll cookie (if sameSite ≠ [] then [ascii "SameSite=" ++ sameSite] else []) =
      { cookie with sameSite := sameSite } := by
  rw [applyAll_optional]
  by_cases empty : sameSite = []
  · rw [if_neg (not_not_intro empty), empty, ← unset]
  · have applied : cookie.withAttribute (32 :: (ascii "SameSite" ++ 61 :: sameSite)) =
        { cookie with sameSite := trimBlanks sameSite } :=
      withAttribute_pair cookie (by decide) (by decide) sameSite
    rw [bare.trimBlanks] at applied
    rw [if_pos empty]
    exact applied

/-- The age is written under a name that is not known. -/
theorem applyAll_maxAge (maxAge : Int) :
    applyAll cookie
        (if maxAge > -1 then [ascii "MaxAge=" ++ CleanArchitecture.toString maxAge] else []) =
      cookie := by
  rw [applyAll_optional]
  split
  · have ignored : cookie.withAttribute
        (32 :: (ascii "MaxAge" ++ 61 :: CleanArchitecture.toString maxAge)) = cookie :=
      withAttribute_pair cookie (by decide) (by decide) _
    exact ignored
  · rfl

theorem applyAll_secure {secure : Bool} (unset : cookie.secure = false) :
    applyAll cookie (if secure then [ascii "Secure"] else []) =
      { cookie with secure := secure } := by
  rw [applyAll_optional]
  cases secure with
  | false => rw [if_neg Bool.false_ne_true, ← unset]
  | true =>
      have applied : cookie.withAttribute (32 :: ascii "Secure") = { cookie with secure := true } :=
        withAttribute_flag cookie (by decide) (by decide)
      exact applied

theorem applyAll_httpOnly {httpOnly : Bool} (unset : cookie.httpOnly = false) :
    applyAll cookie (if httpOnly then [ascii "HttpOnly"] else []) =
      { cookie with httpOnly := httpOnly } := by
  rw [applyAll_optional]
  cases httpOnly with
  | false => rw [if_neg Bool.false_ne_true, ← unset]
  | true =>
      have applied : cookie.withAttribute (32 :: ascii "HttpOnly") =
          { cookie with httpOnly := true } :=
        withAttribute_flag cookie (by decide) (by decide)
      exact applied

end Attributes

/-! ## The cookie as it is decoded -/

/-- Everything but the age is decoded. -/
theorem Cookie.Decodable.decode {c : Cookie} (decodable : c.Decodable) :
    SetCookie.decode c.toString = some { c.meaning with maxAge := none } := by
  have bare := decodable.bare
  simp only [List.forall_mem_cons] at bare
  obtain ⟨name, value, path, domain, sameSite, -⟩ := bare
  have noSemicolon := decodable.noSemicolon
  simp only [List.forall_mem_cons] at noSemicolon
  obtain ⟨inName, inValue, -⟩ := noSemicolon
  have clean : CleanPair (c.name, c.value) := ⟨inName, decodable.noEquals, inValue⟩
  have split := splitOn_joined clean.cookieText decodable.noSemicolon_attributes
  rw [← Cookie.toString_eq decodable.named decodable.fresh] at split
  rw [decode_of_parts decodable.noEquals name value decodable.named split, List.foldl_map]
  change some (applyAll _ c.attributes) = _
  rw [Cookie.attributes]
  simp only [applyAll_append]
  rw [applyAll_path _ decodable.absolute path rfl, applyAll_domain _ decodable.lower
    decodable.noDot domain rfl, applyAll_sameSite _ sameSite rfl, applyAll_maxAge,
    applyAll_secure _ rfl, applyAll_httpOnly _ rfl]
  rfl

/-- A cookie is decoded to what it says if and only if it has no age. -/
theorem decodes_to_meaning_iff {c : Cookie} (decodable : c.Decodable) :
    SetCookie.decode c.toString = some c.meaning ↔ c.maxAge < 0 := by
  rw [decodable.decode]
  constructor
  · intro same
    have ages := congrArg Decoded.maxAge (Option.some.inj same)
    by_contra aged
    rw [Cookie.meaning] at ages
    dsimp only at ages
    rw [if_pos (by omega)] at ages
    cases ages
  · intro ageless
    rw [Cookie.meaning, if_neg (by omega)]

/-- A cookie of a page, kept until the client is closed. -/
def themeCookie : Cookie where
  name := ascii "theme"
  value := ascii "a=b"
  path := ascii "/"
  domain := ascii "localhost"
  secure := true

theorem decodable_themeCookie : themeCookie.Decodable := by
  constructor <;> decide

theorem themeCookie_decodes : SetCookie.decode themeCookie.toString = some themeCookie.meaning :=
  (decodes_to_meaning_iff decodable_themeCookie).mpr (by decide)

theorem decodable_logout : (WrapperRequest.sessionCookie [] 0).Decodable := by
  constructor <;> decide

/-- The cookie of a logout does not expire. -/
theorem logout_does_not_expire :
    (WrapperRequest.sessionCookie [] 0).Decodable ∧
      (WrapperRequest.sessionCookie [] 0).meaning.maxAge = some 0 ∧
      (SetCookie.decode (WrapperRequest.sessionCookie [] 0).toString).map Decoded.maxAge =
        some none ∧
      SetCookie.decode (WrapperRequest.sessionCookie [] 0).toString ≠
        some (WrapperRequest.sessionCookie [] 0).meaning := by
  have decoded := decodable_logout.decode
  refine ⟨decodable_logout, rfl, ?_, ?_⟩
  · rw [decoded]
    rfl
  · intro same
    rw [decoded] at same
    have ages := congrArg Decoded.maxAge (Option.some.inj same)
    cases ages

end CleanArchitecture
