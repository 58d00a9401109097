import FilterQuery.Proofs.Json.Tokens

/-!
JSON values read back from their texts. Main statement: a reader is given the value that was written,
in either layout (`readText_compact`, `readText_pretty`).
-/
namespace FilterQuery.Json

open Decimal

mutual

/-- The draft that a value is read as. -/
def draftOf : Json → Draft
  | .null => .null
  | .bool b => .bool b
  | .number l => .number l
  | .string s => .string (quotedOf s)
  | .array items => .array (itemDrafts items) .closed
  | .object members => .object (memberDrafts members) .closed

def itemDrafts : List Json → List Draft
  | [] => []
  | item :: items => draftOf item :: itemDrafts items

def memberDrafts : List (String × Json) → List (Draft × Draft)
  | [] => []
  | (key, value) :: members => (.string (quotedOf key), draftOf value) :: memberDrafts members

end

theorem itemDrafts_eq_map (items : List Json) : itemDrafts items = items.map draftOf := by
  induction items with
  | nil => rfl
  | cons item items ih => rw [itemDrafts, ih, List.map_cons]

theorem memberDrafts_eq_map (members : List (String × Json)) :
    memberDrafts members = members.map fun m => (.string (quotedOf m.1), draftOf m.2) := by
  induction members with
  | nil => rfl
  | cons m members ih => rw [memberDrafts, ih, List.map_cons]

theorem tokensOf_start (j : Json) :
    ∃ token tokens, j.tokensOf = token :: tokens ∧ token ≠ .closeArray := by
  cases j with
  | array items => cases items <;> exact ⟨.openArray, _, rfl, by decide⟩
  | object members =>
    rcases members with _ | ⟨⟨key, value⟩, members⟩ <;> exact ⟨.openObject, _, rfl, by decide⟩
  | _ => exact ⟨_, [], rfl, by simp⟩

namespace Reading

/-- A value is read as the first item of an array as it is elsewhere. -/
theorem foldl_firstItem (j : Json) (outer : List Frame) :
    j.tokensOf.foldl step (firstItem outer) = j.tokensOf.foldl step (value (.array [] :: outer)) := by
  obtain ⟨token, tokens, shape, notClosed⟩ := tokensOf_start j
  have first : step (firstItem outer) token = step (value (.array [] :: outer)) token := if_neg notClosed
  rw [shape, List.foldl_cons, List.foldl_cons, first]

mutual

/-- The tokens of a value are read as the value. -/
theorem foldl_tokensOf (j : Json) (outer : List Frame) :
    j.tokensOf.foldl step (value outer) = after j.draftOf outer := by
  cases j with
  | array items =>
    cases items with
    | nil => rfl
    | cons item items =>
      -- What follows the item is read from where its own tokens lead, so that the two runs are one.
      have itself := foldl_tokensOf item (.array [] :: outer)
      have others := foldl_itemTokens items [] item.draftOf outer
      rw [← itself, ← foldl_firstItem, ← List.foldl_append, ← List.append_assoc] at others
      exact others
  | object members =>
    rcases members with _ | ⟨⟨key, value⟩, members⟩
    · rfl
    · have itself := foldl_tokensOf value (.object [] (.string (quotedOf key)) :: outer)
      have others := foldl_memberTokens members [] (.string (quotedOf key)) value.draftOf outer
      rw [← itself, ← List.foldl_append, ← List.append_assoc] at others
      exact others
  | _ => rfl

theorem foldl_itemTokens (items : List Json) (done : List Draft) (d : Draft) (outer : List Frame) :
    (itemTokens items ++ [Token.closeArray]).foldl step (after d (.array done :: outer)) =
      after (.array (done.reverse ++ d :: itemDrafts items) .closed) outer := by
  cases items with
  | nil => simp [itemTokens, itemDrafts, step, stepAfter, Frame.close]
  | cons item items =>
    have itself := foldl_tokensOf item (.array (d :: done) :: outer)
    have others := foldl_itemTokens items (d :: done) item.draftOf outer
    rw [← itself, ← List.foldl_append, ← List.append_assoc, List.reverse_cons, ← List.append_cons] at others
    exact others

theorem foldl_memberTokens (members : List (String × Json)) (done : List (Draft × Draft)) (k d : Draft)
    (outer : List Frame) :
    (memberTokens members ++ [Token.closeObject]).foldl step (after d (.object done k :: outer)) =
      after (.object (done.reverse ++ (k, d) :: memberDrafts members) .closed) outer := by
  rcases members with _ | ⟨⟨key, value⟩, members⟩
  · simp [memberTokens, memberDrafts, step, stepAfter, Frame.close]
  · have itself := foldl_tokensOf value (.object ((k, d) :: done) (.string (quotedOf key)) :: outer)
    have others := foldl_memberTokens members ((k, d) :: done) (.string (quotedOf key)) value.draftOf outer
    rw [← itself, ← List.foldl_append, ← List.append_assoc, List.reverse_cons, ← List.append_cons] at others
    exact others

end

end Reading

/-- A text with the tokens of a value is read as the value, and as nothing more. -/
theorem readDocument_of_tokens {cs : List Char} {j : Json} (same : tokens cs = j.tokensOf) :
    readDocument cs = ⟨j.draftOf, .closed⟩ := by
  rw [readDocument, same, Reading.foldl_tokensOf]
  rfl

variable {α : Type} (reader : Draft → Except Failure α) {j : Json}

theorem readText_of_tokens {text : String} (same : tokens text.toList = j.tokensOf) :
    readText reader text = reader j.draftOf := by
  rw [readText, readDocument_of_tokens same]
  cases reader j.draftOf <;> rfl

theorem readText_compact (strict : j.Strict) : readText reader j.compact = reader j.draftOf :=
  readText_of_tokens reader (tokens_compact strict)

theorem readText_pretty (strict : j.Strict) : readText reader j.pretty = reader j.draftOf :=
  readText_of_tokens reader (tokens_pretty strict)

theorem oneOf_quotedOf {ofName? : String → Option α} {name : String} {a : α}
    (named : ofName? name = some a) : (Draft.string (quotedOf name)).oneOf ofName? = .ok a := by
  simp [Draft.oneOf, named]

/-- The members of an object that is written out are read one after the other. -/
theorem record_draftOf {σ : Type} (fields : List (RecordField σ)) (start : σ)
    (members : List (String × Json)) :
    (draftOf (.object members)).record fields start =
      (memberDrafts members).foldlM (Draft.readMember fields) start := by
  rw [draftOf, Draft.record]
  cases (memberDrafts members).foldlM (Draft.readMember fields) start <;> rfl

end FilterQuery.Json
