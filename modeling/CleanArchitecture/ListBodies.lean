import CleanArchitecture.AuthUseCases
import CleanArchitecture.JsonArray

/-!
# Bodies of lists

The rows of a list are written between quotation marks as they are.  The body decodes to
them where no row has a character that needs an escape, and the list is not empty.
-/

namespace CleanArchitecture

open JsonArray

/-- The rows that need no escape. -/
def PlainRow (row : Bytes) : Prop :=
  ValidUtf8 row ∧ ∀ b ∈ row, PlainByte b

/-- The body is the spelling of the rows, with a closing bracket for the last comma. -/
theorem content_setBodyRows (rows : List Bytes) (ex : Exchange) :
    (WrapperResponse.setBodyRows rows ex).res.content =
      (91 :: rows.flatMap fun row => 34 :: row ++ [34, 44]).dropLast ++ [93] := by
  have opening : ascii "[" = [91] := by decide
  have quotation : ascii "\"" = [34] := by decide
  have comma : ascii "\"," = [34, 44] := by decide
  have closing : ascii "]" = [93] := by decide
  rw [WrapperResponse.setBodyRows, WrapperResponse.setBody, opening, quotation, comma, closing]
  simp

theorem length_setBodyRows (rows : List Bytes) (ex : Exchange) :
    (WrapperResponse.setBodyRows rows ex).res.content.length =
      (rows.map fun row => row.length + 3).sum + 1 := by
  have each : (fun row : Bytes => (34 :: row ++ [34, 44]).length) = fun row => row.length + 3 := by
    funext row
    simp
  rw [content_setBodyRows, List.length_append, List.length_dropLast, List.length_cons,
    List.length_flatMap, List.length_singleton, Nat.add_sub_cancel, each]

theorem decodes_setBodyRows {rows : List Bytes} (nonempty : rows ≠ [])
    (plain : ∀ row ∈ rows, PlainRow row) (ex : Exchange) :
    DecodesTo (WrapperResponse.setBodyRows rows ex).res.content rows := by
  obtain ⟨text, values, spelt, valuesRows, joined⟩ := exists_spelling nonempty plain
  have bytes : utf8 ('[' :: text ++ [']']) = 91 :: utf8 text ++ [93] := by
    rw [utf8, List.flatMap_append, List.flatMap_cons]
    rfl
  rw [content_setBodyRows, ← joined, ← List.cons_append, List.dropLast_concat, ← bytes]
  exact ⟨_, values, rfl, valuesRows, .elements isWhitespace_nil spelt isWhitespace_nil⟩

/-- A list's body decodes to its rows, and its length is declared, if and only if the list
is not empty and no row needs an escape. -/
theorem list_body_decodes_iff (rows : List Bytes) (ex : Exchange) :
    (DecodesTo (WrapperResponse.setBodyRows rows ex).res.content rows ∧
        (WrapperResponse.setBodyRows rows ex).res.contentLength =
          decimal (WrapperResponse.setBodyRows rows ex).res.content.length) ↔
      rows ≠ [] ∧ ∀ row ∈ rows, PlainRow row := by
  constructor
  · rintro ⟨decodes, -⟩
    obtain ⟨two, valid, plain⟩ := decodes.length_le
    rw [length_setBodyRows] at two plain
    constructor
    · rintro rfl
      rw [List.map_nil, List.sum_nil] at two
      omega
    · intro row member
      exact ⟨valid row member, plain (Nat.le_refl _) row member⟩
  · rintro ⟨nonempty, plain⟩
    exact ⟨decodes_setBodyRows nonempty plain ex, rfl⟩

/-- The body of the empty list is a bracket alone, and a quotation mark in a row ends its
string. -/
theorem list_body_not_decoded :
    (WrapperResponse.setBodyRows [] {}).res.content = ascii "]" ∧
      ¬ DecodesTo (WrapperResponse.setBodyRows [] {}).res.content [] ∧
      (WrapperResponse.setBodyRows [ascii "a\"b"] {}).res.content = ascii "[\"a\"b\"]" ∧
      ¬ DecodesTo (WrapperResponse.setBodyRows [ascii "a\"b"] {}).res.content [ascii "a\"b"] := by
  refine ⟨by decide, ?_, by decide, ?_⟩
  · intro decodes
    have two := decodes.length_le.1
    revert two
    decide
  · intro decodes
    have plain := decodes.length_le.2.2 (by decide) _ List.mem_cons_self 34 (by decide)
    exact plain.2.1 rfl

/-- The errors of a username are written to a body that decodes to them. -/
theorem username_errors_decode {username trimmed : Bytes} {log : Log}
    (failed : makeUser username = (.error log, trimmed)) (ex : Exchange) :
    DecodesTo (WrapperResponse.setBodyRows log.errors ex).res.content log.errors := by
  have plain : ∀ error ∈ [ascii "username: min", ascii "username: max"], PlainRow error := by
    have bytes : ∀ error ∈ [ascii "username: min", ascii "username: max"],
        ∀ b ∈ error, PlainByte b := by
      have all : [ascii "username: min", ascii "username: max"].all
          (fun error => error.all fun b => decide (PlainByte b)) = true := by
        decide
      intro error member b inside
      exact of_decide_eq_true (List.all_eq_true.mp (List.all_eq_true.mp all error member) b inside)
    intro error member
    refine ⟨?_, bytes error member⟩
    rcases List.mem_cons.mp member with rfl | last
    · exact ⟨"username: min".toList, by decide⟩
    · rw [List.mem_singleton.mp last]
      exact ⟨"username: max".toList, by decide⟩
  have found : ∃ error ∈ [ascii "username: min", ascii "username: max"], log.errors = [error] := by
    unfold makeUser makeUserWith validateUsername at failed
    dsimp only at failed
    split_ifs at failed
    · cases failed
      exact ⟨_, List.mem_cons_self, rfl⟩
    · cases failed
      exact ⟨_, .tail _ List.mem_cons_self, rfl⟩
    · cases failed
  obtain ⟨error, member, same⟩ := found
  rw [same]
  apply decodes_setBodyRows (List.cons_ne_nil _ _)
  rw [List.forall_mem_singleton]
  exact plain error member

end CleanArchitecture
