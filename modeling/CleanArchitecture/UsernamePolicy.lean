import CleanArchitecture.Trimming
import CleanArchitecture.UserEntity

/-!
# The username policy

A username is the longest part of the caller's string without whitespace at its ends,
and it has 8 to 60 bytes.  The overloads of `make_user` agree on it.
-/

namespace CleanArchitecture

/-- The overloads of `make_user`, with the arguments besides the username. -/
def makeUserOverloads (id hashed : Bytes) : List (Bytes → Except Log User × Bytes) :=
  [fun username => makeUserHashed id username hashed, makeUserId id, makeUser]

/-- What an overload makes of a string whose longest trimmed part is this one. -/
structure MeetsPolicy (part : Bytes) (answer : Except Log User) : Prop where
  accepts_iff : (∃ user, answer = .ok user) ↔
    usernameMin ≤ part.length ∧ part.length ≤ usernameMax
  username : ∀ user, answer = .ok user → user.username = part
  errors : ∀ log, answer = .error log →
    part.length < usernameMin ∧ log.errors = [ascii "username: min"] ∨
      part.length > usernameMax ∧ log.errors = [ascii "username: max"]

/-- `trim` leaves the longest part without whitespace at its ends. -/
theorem longestTrimmed_iff_trim {s part : Bytes} :
    LongestTrimmed isspace s part ↔ part = trim s :=
  longestTrimmed_iff

theorem trim_trim (s : Bytes) : trim (trim s) = trim s :=
  (longestTrimmed_iff_trim.mp (longestTrimmed_iff_trim.mpr rfl).trimmed.longest).symm

theorem MeetsPolicy.error {part : Bytes} {log : Log}
    (violated : part.length < usernameMin ∧ log.errors = [ascii "username: min"] ∨
      part.length > usernameMax ∧ log.errors = [ascii "username: max"]) :
    MeetsPolicy part (.error log) := by
  constructor
  case accepts_iff =>
    constructor
    · rintro ⟨user, accepted⟩
      cases accepted
    · intro fits
      omega
  case username =>
    intro user accepted
    cases accepted
  case errors =>
    intro other rejected
    cases rejected
    exact violated

theorem MeetsPolicy.ok {part : Bytes} {user : User}
    (fits : usernameMin ≤ part.length ∧ part.length ≤ usernameMax) (named : user.username = part) :
    MeetsPolicy part (.ok user) := by
  constructor
  case accepts_iff => exact iff_of_true ⟨user, rfl⟩ fits
  case username =>
    intro other accepted
    cases accepted
    exact named
  case errors =>
    intro log rejected
    cases rejected

theorem makeUserWith_meets (function : String) (user : User) (s : Bytes) :
    MeetsPolicy (trim s) (makeUserWith function user s).1 := by
  unfold makeUserWith validateUsername
  dsimp only
  split_ifs with short long
  · exact .error (.inl ⟨short, rfl⟩)
  · exact .error (.inr ⟨long, rfl⟩)
  · exact .ok ⟨by omega, by omega⟩ rfl

theorem makeUserOverloads_meet (id hashed s : Bytes) :
    ∀ make ∈ makeUserOverloads id hashed, MeetsPolicy (trim s) (make s).1 := by
  simp only [makeUserOverloads, List.forall_mem_cons]
  exact ⟨makeUserWith_meets _ _ s, makeUserWith_meets _ _ s, makeUserWith_meets _ _ s,
    List.forall_mem_nil _⟩

/-- Every overload accepts the strings whose longest trimmed part has 8 to 60 bytes, and
accepts the username that it makes of them again. -/
theorem make_user_policy (s id hashed : Bytes) :
    ∃ part, (∀ other, LongestTrimmed isspace s other ↔ other = part) ∧
      ∀ make ∈ makeUserOverloads id hashed, MeetsPolicy part (make s).1 ∧
        ∀ user, (make s).1 = .ok user → ∀ id' hashed', ∀ again ∈ makeUserOverloads id' hashed',
          ∃ same, (again user.username).1 = .ok same ∧ same.username = user.username := by
  refine ⟨trim s, fun other => longestTrimmed_iff_trim, ?_⟩
  intro make overload
  have meets := makeUserOverloads_meet id hashed s make overload
  refine ⟨meets, ?_⟩
  intro user made id' hashed' again overload'
  rw [meets.username user made]
  have meets' := makeUserOverloads_meet id' hashed' (trim s) again overload'
  rw [trim_trim] at meets'
  obtain ⟨same, accepted⟩ := meets'.accepts_iff.mpr (meets.accepts_iff.mp ⟨user, made⟩)
  exact ⟨same, accepted, meets'.username same accepted⟩

end CleanArchitecture
