import CleanArchitecture.AuthUseCases
import CleanArchitecture.World

/-!
# A sample world

JSON texts, flatbuffers and password hashes that are written and read back, for a
world in which every call is answered.
-/

namespace CleanArchitecture

namespace SampleWorld

/-! ## JSON objects of two string members -/

/-- Quotes and backslashes are written after a backslash. -/
def escapeByte (c : UInt8) : Bytes :=
  if c = 34 ∨ c = 92 then [92, c] else [c]

/-- A string after its opening quote. -/
def writeString (text : Bytes) : Bytes :=
  text.flatMap escapeByte ++ [34]

/-- The string after an opening quote, and what follows its closing quote. -/
def readString : Bytes → Option (Bytes × Bytes)
  | [] => none
  | c :: rest =>
      if c = 34 then some ([], rest)
      else if c = 92 then
        match rest with
        | [] => none
        | escaped :: rest => (readString rest).map (Prod.map (escaped :: ·) id)
      else (readString rest).map (Prod.map (c :: ·) id)

theorem readString_quote (rest : Bytes) : readString (34 :: rest) = some ([], rest) := by
  rw [readString.eq_def]
  rfl

theorem readString_plain {c : UInt8} (plain : ¬ (c = 34 ∨ c = 92)) (rest : Bytes) :
    readString (c :: rest) = (readString rest).map (Prod.map (c :: ·) id) := by
  rw [not_or] at plain
  rw [readString.eq_def]
  simp only [if_neg plain.1, if_neg plain.2]

theorem readString_escaped (c : UInt8) (rest : Bytes) :
    readString (92 :: c :: rest) = (readString rest).map (Prod.map (c :: ·) id) := by
  rw [readString.eq_def]
  rfl

theorem readString_writeString (text rest : Bytes) :
    readString (writeString text ++ rest) = some (text, rest) := by
  induction text with
  | nil => exact readString_quote rest
  | cons c text ih =>
      have unfolded : writeString (c :: text) ++ rest =
          escapeByte c ++ (writeString text ++ rest) := by
        simp [writeString]
      rw [unfolded, escapeByte]
      split
      · rw [List.cons_append, List.cons_append, List.nil_append, readString_escaped, ih]
        rfl
      · rename_i plain
        rw [List.cons_append, List.nil_append, readString_plain plain, ih]
        rfl

def writeMember (member : Bytes × Bytes) : Bytes :=
  34 :: writeString member.1 ++ 58 :: 34 :: writeString member.2

def readMember : Bytes → Option ((Bytes × Bytes) × Bytes)
  | 34 :: text =>
      match readString text with
      | some (key, 58 :: 34 :: text) =>
          (readString text).map fun (value, rest) => ((key, value), rest)
      | _ => none
  | _ => none

theorem readMember_writeMember (member : Bytes × Bytes) (rest : Bytes) :
    readMember (writeMember member ++ rest) = some (member, rest) := by
  have unfolded : writeMember member ++ rest =
      34 :: (writeString member.1 ++ 58 :: 34 :: (writeString member.2 ++ rest)) := by
    simp [writeMember]
  rw [unfolded, readMember, readString_writeString]
  simp only [readString_writeString]
  rfl

def writeObject (first second : Bytes × Bytes) : Bytes :=
  123 :: writeMember first ++ 44 :: writeMember second ++ [125]

def readObject : Bytes → Option ((Bytes × Bytes) × (Bytes × Bytes))
  | 123 :: text =>
      match readMember text with
      | some (first, 44 :: text) =>
          match readMember text with
          | some (second, [125]) => some (first, second)
          | _ => none
      | _ => none
  | _ => none

theorem readObject_writeObject (first second : Bytes × Bytes) :
    readObject (writeObject first second) = some (first, second) := by
  have unfolded : writeObject first second =
      123 :: (writeMember first ++ 44 :: (writeMember second ++ [125])) := by
    simp [writeObject]
  rw [unfolded, readObject, readMember_writeMember]
  simp only [readMember_writeMember]

/-! ## Flatbuffers of users -/

/-- The length of the id in unary, a zero and the two fields. -/
def writeUser (id username : Bytes) : Bytes :=
  List.replicate id.length 1 ++ 0 :: (id ++ username)

def idLength (buffer : Bytes) : Nat :=
  (buffer.takeWhile (· == 1)).length

def readUserId (buffer : Bytes) : Bytes :=
  (buffer.drop (idLength buffer + 1)).take (idLength buffer)

def readUserUsername (buffer : Bytes) : Bytes :=
  (buffer.drop (idLength buffer + 1)).drop (idLength buffer)

theorem idLength_writeUser (id username : Bytes) :
    idLength (writeUser id username) = id.length := by
  rw [idLength, writeUser, List.takeWhile_append_of_pos (by simp)]
  simp

theorem drop_writeUser (id username : Bytes) :
    (writeUser id username).drop (id.length + 1) = id ++ username := by
  rw [writeUser, ← List.drop_drop]
  simp

theorem readUserId_writeUser (id username : Bytes) : readUserId (writeUser id username) = id := by
  rw [readUserId, idLength_writeUser, drop_writeUser, List.take_left]

theorem readUserUsername_writeUser (id username : Bytes) :
    readUserUsername (writeUser id username) = username := by
  rw [readUserUsername, idLength_writeUser, drop_writeUser, List.drop_left]

theorem two_mul_idLength_writeUser (id username : Bytes) :
    2 * idLength (writeUser id username) < (writeUser id username).length := by
  rw [idLength_writeUser, writeUser]
  simp
  omega

/-! ## Password hashes -/

def hexDigits (c : UInt8) : Bytes :=
  [65 + c / 16, 65 + c % 16]

def spellPassword (password : Bytes) : Bytes :=
  password.flatMap hexDigits

theorem hexDigits_injective {c d : UInt8} (high : 65 + c / 16 = 65 + d / 16)
    (low : 65 + c % 16 = 65 + d % 16) : c = d := by
  simp only [← UInt8.toNat_inj, UInt8.toNat_add, UInt8.toNat_div, UInt8.toNat_mod,
    UInt8.toNat_ofNat, Nat.reducePow, Nat.reduceMod] at high low ⊢
  have bounds := And.intro c.toNat_lt d.toNat_lt
  omega

theorem spellPassword_inj {password other : Bytes} :
    spellPassword password = spellPassword other ↔ password = other := by
  constructor
  · intro same
    induction password generalizing other with
    | nil =>
        cases other with
        | nil => rfl
        | cons d other => cases same
    | cons c password ih =>
        cases other with
        | nil => cases same
        | cons d other =>
            simp only [spellPassword, List.flatMap_cons, hexDigits, List.cons_append,
              List.nil_append, List.cons.injEq] at same
            obtain ⟨high, low, rest⟩ := same
            rw [hexDigits_injective high low, ih rest]
  · rintro rfl
    rfl

theorem zero_notMem_spellPassword (password : Bytes) : 0 ∉ spellPassword password := by
  intro nul
  obtain ⟨c, -, digit⟩ := List.mem_flatMap.mp nul
  simp only [hexDigits, List.mem_cons, List.not_mem_nil, or_false, ← UInt8.toNat_inj,
    UInt8.toNat_add, UInt8.toNat_div, UInt8.toNat_mod, UInt8.toNat_ofNat, Nat.reducePow,
    Nat.reduceMod] at digit
  have bound := c.toNat_lt
  omega

end SampleWorld

open SampleWorld

/-! ## The world -/

def sampleLibraries : Libraries where
  jsonParse text := (readObject text).map fun (first, second) =>
    .object [(first.1, .string first.2), (second.1, .string second.2)]
  jsonDump
    | .object [(key, .string value), (key', .string value')] =>
        some (writeObject (key, value) (key', value'))
    | _ => none
  createUser := writeUser
  userVerify buffer := 2 * idLength buffer < buffer.length
  userId buffer := some (readUserId buffer)
  userUsername buffer := some (readUserUsername buffer)
  loginRequestVerify _ := false
  loginRequestUsername _ := none
  loginRequestPassword _ := none
  argon2ErrorMessage _ := ascii "Encoding failed"

/-- The users table on a new `Postgres` object. -/
def sampleUserDb : UserPostgres where
  getUserStatement :=
    { name := Postgres.getName {}, query := UserPostgres.getUserQuery, paramTypes := [0],
      numParams := 1 }
  addUserStatement :=
    { name := Postgres.getName {}, query := UserPostgres.addUserQuery, paramTypes := [0, 0],
      numParams := 2 }

def sampleApplication : Application where
  libraries := sampleLibraries
  userDb := sampleUserDb
  crypto :=
    { iterationCost := 2, memoryCost := 65536, parallelism := 1, hashLen := 32, salt := [],
      encodedLen := 128 }

def sampleEnvironment : Environment where
  newId rows := ascii "00000000-0000-0000-0000-00000000000" ++ decimal rows.length
  hashEncoded crypto password :=
    if (spellPassword password).length ≤ crypto.encodedLen then (argon2Ok, spellPassword password)
    else (-31, [])
  verify encoded password :=
    if encoded = spellPassword password then argon2Ok else argon2VerifyMismatch

/-- Two connections on which nothing is prepared, and a store without sessions. -/
def sampleWorld (rows : List UserRow) : World where
  postgres := { pool := [0, 1], prepared := fun _ _ => none, tables := rows, executed := [] }
  store _ := none
  draws round _ := UInt64.ofNat round
  drawn := 0

/-- A request without a session cookie and with a JSON body. -/
def sampleExchange (username password : Bytes) : Exchange where
  req :=
    { method := ascii "POST"
      contentType := ascii "application/json"
      body := writeObject (ascii "username", username) (ascii "password", password) }

theorem construct_sampleUserDb : UserPostgres.construct {} = .ok sampleApplication.userDb :=
  rfl

theorem parseBody_sampleExchange (username password : Bytes) :
    RegisterAuthUseCase.parseBody sampleApplication.libraries
        (sampleExchange username password).req =
      .ok { username := username, password := password } := by
  have nonempty : (sampleExchange username password).req.body ≠ [] :=
    List.cons_ne_nil _ _
  rw [RegisterAuthUseCase.parseBody, if_neg nonempty, parseJsonBody]
  simp only [sampleExchange, sampleApplication, sampleLibraries, readObject_writeObject,
    Option.map_some]
  have usernameFound : (JsonValue.object [(ascii "username", .string username),
      (ascii "password", .string password)]).stringMember (ascii "username") = some username := by
    simp [JsonValue.stringMember]
  have passwordFound : (JsonValue.object [(ascii "username", .string username),
      (ascii "password", .string password)]).stringMember (ascii "password") = some password := by
    have apart : (ascii "username" == ascii "password") = false := by
      decide
    simp [JsonValue.stringMember, apart]
  rw [usernameFound, passwordFound]

end CleanArchitecture
