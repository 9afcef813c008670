import Dvt.Library.Base64
import Dvt.Library.JsonText

/-! The cursors of catalog pages. -/

namespace Dvt.Catalog

open Library List

/-- Code points; a lone surrogate is one. -/
abbrev Text := List ℕ

def codes (name : List Char) : Text := name.map Char.toNat

def text (s : String) : Text := codes s.toList

inductive CatalogError
  | invalidCursor
  | attributeError

def cursorPayload (normalizedName exactName : List Char) : List Char :=
  '{' :: JsonText.writeMembers
    [(['v'], ['1']), (['n'], JsonText.quote normalizedName), (['e'], JsonText.quote exactName)]

def encodeCursor (normalizedName exactName : List Char) : List Char :=
  (Base64.encode ((cursorPayload normalizedName exactName).flatMap String.utf8EncodeChar)).rdropWhile
    (· = '=')

def isOne : JsonText.Value → Bool
  | .bool value => value
  | .num value => value.isOne
  | _ => false

/-- `pyStr` is `str` of a value that is no string. -/
def str (pyStr : JsonText.Value → Text) : JsonText.Value → Text
  | .str text => text
  | value => pyStr value

def payloadNames (pyStr : JsonText.Value → Text) (fields : List (Text × JsonText.Value)) :
    Option (Text × Text) := do
  let version ← fields.lookup (text "v")
  let name ← fields.lookup (text "n")
  let exact ← fields.lookup (text "e")
  if isOne version then some (str pyStr name, str pyStr exact) else none

def decodeCursor (pyStr : JsonText.Value → Text) :
    Option (List Char) → Except CatalogError (Option (Text × Text))
  | none => .ok none
  | some cursor =>
    match (Base64.decode (Base64.pad cursor)).bind fun bytes =>
      bytes.toByteArray.utf8Decode?.bind fun chars => JsonText.loads chars.toList with
    | none => .error .invalidCursor
    | some (.obj fields) => match payloadNames pyStr fields with
      | none => .error .invalidCursor
      | some names => .ok (some names)
    | some _ => .error .attributeError

def cursorFields (normalizedName exactName : List Char) : List (Text × JsonText.Value) :=
  [(text "v", .num (.numeral ⟨false, ['1'], [], none⟩)),
    (text "n", .str (codes normalizedName)), (text "e", .str (codes exactName))]

lemma readValue_cursorPayload (fuel : ℕ) (normalizedName exactName : List Char) :
    JsonText.readValue (fuel + 5) (cursorPayload normalizedName exactName) =
      some (.obj (cursorFields normalizedName exactName), []) := by
  have hone : ∀ rest, JsonText.readValue (fuel + 3) ('1' :: ',' :: rest) =
      some (.num (.numeral ⟨false, ['1'], [], none⟩), ',' :: rest) := fun _ => rfl
  refine (JsonText.readMembers_quote [] ['v'] (hone _)).trans ?_
  refine (JsonText.readMembers_quote _ ['n'] (JsonText.readValue_quote _ normalizedName _)).trans ?_
  exact (JsonText.readMembers_quote _ ['e'] (JsonText.readValue_quote _ exactName _)).trans rfl

lemma loads_cursorPayload (normalizedName exactName : List Char) :
    JsonText.loads (cursorPayload normalizedName exactName) =
      some (.obj (cursorFields normalizedName exactName)) := by
  obtain ⟨fuel, hfuel⟩ : ∃ fuel, (cursorPayload normalizedName exactName).length = fuel + 4 :=
    Nat.exists_eq_add_of_le' (by simp [cursorPayload, JsonText.writeMembers, JsonText.quote]; omega)
  have hskip : JsonText.skipSpace (cursorPayload normalizedName exactName) =
      cursorPayload normalizedName exactName := rfl
  rw [JsonText.loads, hfuel, hskip, readValue_cursorPayload]
  rfl

lemma decodeCursor_encodeCursor (pyStr : JsonText.Value → Text) (normalizedName exactName : List Char) :
    decodeCursor pyStr (some (encodeCursor normalizedName exactName)) =
      .ok (some (codes normalizedName, codes exactName)) := by
  have hutf8 : ((cursorPayload normalizedName exactName).flatMap
      String.utf8EncodeChar).toByteArray.utf8Decode? = _ := List.utf8Decode?_utf8Encode
  rw [decodeCursor, encodeCursor, Base64.pad_strip_encode, Base64.decode_encode, Option.bind_some,
    hutf8, Option.bind_some, toList_toArray, loads_cursorPayload]
  rfl

end Dvt.Catalog
