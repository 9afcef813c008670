import Dvt.Library.Dict
import Mathlib.Algebra.Ring.Nat

/-! JSON values and texts; the strings of a text are lists of code points. -/

namespace Dvt.Library

/-- `τ` are the texts and `ν` the numbers. -/
inductive JsonValue (τ ν : Type)
  | null
  | bool (value : Bool)
  | num (value : ν)
  | str (text : τ)
  | arr (items : List (JsonValue τ ν))
  | obj (fields : List (τ × JsonValue τ ν))

namespace JsonText

open List

def escapes : List (ℕ × Char) :=
  [(0x22, '"'), (0x5c, '\\'), (0x0a, 'n'), (0x0d, 'r'), (0x09, 't'), (0x0c, 'f'), (0x08, 'b')]

/-- What stands for a code point that a string cannot hold. -/
def escape? (c : ℕ) : Option (List Char) :=
  match escapes.lookup c with
  | some letter => some ['\\', letter]
  | none => if c < 0x20 then
      some ['\\', 'u', '0', '0', Nat.digitChar (c / 16), Nat.digitChar (c % 16)] else none

def quote (text : List Char) : List Char :=
  '"' :: text.flatMap (fun c => (escape? c.toNat).getD [c]) ++ ['"']

/-- The members of an object, with what is written for each value, and the end of the object. -/
def writeMembers : List (List Char × List Char) → List Char
  | [] => ['}']
  | [(name, value)] => quote name ++ ':' :: (value ++ ['}'])
  | (name, value) :: members => quote name ++ ':' :: (value ++ ',' :: writeMembers members)

structure Numeral where
  negative : Bool
  whole : List Char
  fraction : List Char
  exponent : Option ℤ

inductive Number
  | numeral (value : Numeral)
  | nan
  | infinity (negative : Bool)

abbrev Value := JsonValue (List ℕ) Number

def skipSpace (text : List Char) : List Char := text.dropWhile (· ∈ [' ', '\t', '\n', '\r'])

def hexDigit? (c : Char) : Option ℕ :=
  if c.isDigit then some (c.toNat - 0x30)
  else if 'a' ≤ c ∧ c ≤ 'f' then some (c.toNat - 0x57)
  else if 'A' ≤ c ∧ c ≤ 'F' then some (c.toNat - 0x37)
  else none

def unescape? (letter : Char) : Option ℕ :=
  if letter = '/' then some 0x2f else (escapes.find? (·.2 = letter)).map Prod.fst

/-- The rest of a string behind its opening quote. -/
def readChars : List Char → Option (List ℕ × List Char)
  | [] => none
  | '"' :: text => some ([], text)
  | '\\' :: 'u' :: a :: b :: c :: d :: text => do
    let digits ← [a, b, c, d].mapM hexDigit?
    let (chars, rest) ← readChars text
    return (digits.foldl (16 * · + ·) 0 :: chars, rest)
  | '\\' :: letter :: text => do
    let char ← unescape? letter
    let (chars, rest) ← readChars text
    return (char :: chars, rest)
  | c :: text => if c.toNat < 0x20 then none else do
    let (chars, rest) ← readChars text
    return (c.toNat :: chars, rest)

def joinSurrogates : List ℕ → List ℕ
  | high :: low :: text =>
    if 0xd800 ≤ high ∧ high < 0xdc00 ∧ 0xdc00 ≤ low ∧ low < 0xe000 then
      (0x10000 + (high - 0xd800) * 0x400 + (low - 0xdc00)) :: joinSurrogates text
    else high :: joinSurrogates (low :: text)
  | text => text

def readString (text : List Char) : Option (List ℕ × List Char) :=
  (readChars text).map (Prod.map joinSurrogates id)

def readFraction : List Char → List Char × List Char
  | '.' :: text =>
    if text.head?.any Char.isDigit then text.span Char.isDigit else ([], '.' :: text)
  | text => ([], text)

def readSign (sign : Char) : List Char → Bool × List Char
  | c :: text => if c = sign then (true, text) else (false, c :: text)
  | [] => (false, [])

def readExponent : List Char → Option ℤ × List Char
  | c :: text =>
    let (negative, unsigned) := readSign '-' text
    let unsigned := if negative then unsigned else (readSign '+' unsigned).2
    if (c = 'e' ∨ c = 'E') ∧ unsigned.head?.any Char.isDigit then
      let (digits, rest) := unsigned.span Char.isDigit
      let size : ℤ := Nat.ofDigitChars 10 digits 0
      (some (if negative then -size else size), rest)
    else (none, c :: text)
  | [] => (none, [])

/-- Integers of more than 4300 digits are refused. -/
def readNumeral (text : List Char) : Option (Numeral × List Char) :=
  let (negative, text) := readSign '-' text
  let (zero, text) := readSign '0' text
  let (whole, text) := if zero then (['0'], text) else text.span Char.isDigit
  let (fraction, text) := readFraction text
  let (exponent, text) := readExponent text
  if whole = [] ∨ fraction = [] ∧ exponent = none ∧ 4300 < whole.length then none
  else some (⟨negative, whole, fraction, exponent⟩, text)

def constants : List (List Char × Value) :=
  [("null".toList, .null), ("true".toList, .bool true), ("false".toList, .bool false),
    ("NaN".toList, .num .nan), ("Infinity".toList, .num (.infinity false)),
    ("-Infinity".toList, .num (.infinity true))]

def readScalar (text : List Char) : Option (Value × List Char) :=
  match constants.find? fun constant => constant.1.isPrefixOf text with
  | some (name, value) => some (value, text.drop name.length)
  | none => (readNumeral text).map (Prod.map (.num ∘ .numeral) id)

mutual

/-- Every call reads a character, so that the length of the text is fuel enough. -/
def readValue : ℕ → List Char → Option (Value × List Char)
  | 0, _ => none
  | _ + 1, '"' :: text => (readString text).map (Prod.map .str id)
  | fuel + 1, '[' :: text => match skipSpace text with
    | ']' :: rest => some (.arr [], rest)
    | rest => readItems fuel [] rest
  | fuel + 1, '{' :: text => match skipSpace text with
    | '}' :: rest => some (.obj [], rest)
    | rest => readMembers fuel [] rest
  | _ + 1, text => readScalar text

def readItems : ℕ → List Value → List Char → Option (Value × List Char)
  | 0, _, _ => none
  | fuel + 1, items, text => do
    let (item, rest) ← readValue fuel text
    match skipSpace rest with
    | ',' :: rest => readItems fuel (items ++ [item]) (skipSpace rest)
    | ']' :: rest => some (.arr (items ++ [item]), rest)
    | _ => none

/-- The last of several members with one name counts. -/
def readMembers : ℕ → List (List ℕ × Value) → List Char → Option (Value × List Char)
  | fuel + 1, fields, '"' :: text => do
    let (name, rest) ← readString text
    match skipSpace rest with
    | ':' :: rest =>
      let (value, rest) ← readValue fuel (skipSpace rest)
      match skipSpace rest with
      | ',' :: rest => readMembers fuel (Dict.assign name value fields) (skipSpace rest)
      | '}' :: rest => some (.obj (Dict.assign name value fields), rest)
      | _ => none
    | _ => none
  | _, _, _ => none

end

def loads (text : List Char) : Option Value :=
  match readValue (text.length + 1) (skipSpace text) with
  | some (value, rest) => if skipSpace rest = [] then some value else none
  | none => none

/-- The number is 1, as a float if it is written as one. -/
def Number.isOne : Number → Bool
  | .numeral ⟨negative, whole, fraction, exponent⟩ =>
    let shift := exponent.getD 0 - fraction.length
    let size := Nat.ofDigitChars 10 (whole ++ fraction) 0 * 10 ^ shift.toNat
    let unit := 10 ^ (-shift).toNat
    !negative && (2 ^ 54 - 1) * unit ≤ 2 ^ 54 * size && 2 ^ 53 * size ≤ (2 ^ 53 + 1) * unit
  | _ => false

section

variable {n : ℕ}

lemma hexDigit?_digitChar (h : n < 16) : hexDigit? (Nat.digitChar n) = some n := by
  have hall : ∀ n : Fin 16, hexDigit? (Nat.digitChar n) = some n.val := by decide
  exact hall ⟨n, h⟩

lemma unescape?_of_lookup {letter : Char} (h : escapes.lookup n = some letter) :
    letter ≠ 'u' ∧ unescape? letter = some n := by
  have hall : ∀ entry ∈ escapes, entry.2 ≠ 'u' ∧ unescape? entry.2 = some entry.1 := by decide
  obtain ⟨_, _, hsplit, -⟩ := lookup_eq_some_iff.mp h
  exact hall (n, letter) (hsplit ▸ by simp)

lemma readChars_escaped (text rest : List Char) :
    readChars (text.flatMap (fun c => (escape? c.toNat).getD [c]) ++ '"' :: rest) =
      some (text.map Char.toNat, rest) := by
  induction text with
  | nil => simp [readChars]
  | cons c text ih =>
    rw [flatMap_cons, append_assoc, map_cons]
    generalize text.flatMap _ ++ '"' :: rest = tail at ih ⊢
    rw [escape?]
    cases hl : escapes.lookup c.toNat with
    | some letter =>
      obtain ⟨hu, hletter⟩ := unescape?_of_lookup hl
      simp [readChars, hu, hletter, ih]
    | none =>
      by_cases hs : c.toNat < 0x20
      · have hz : hexDigit? '0' = some 0 := rfl
        simp [readChars, ih, hz, hs, hexDigit?_digitChar, Nat.mod_lt,
          show c.toNat / 16 < 16 by omega]
        omega
      · have hq : c ≠ '"' := by
          rintro rfl
          cases hl
        have hb : c ≠ '\\' := by
          rintro rfl
          cases hl
        simp only [if_neg hs]
        change readChars (c :: tail) = _
        rw [readChars, if_neg hs, ih]
        · rfl
        · exact hq
        · exact fun _ _ _ _ _ h _ => hb h
        · exact fun _ _ h _ => hb h

lemma joinSurrogates_map (text : List Char) :
    joinSurrogates (text.map Char.toNat) = text.map Char.toNat := by
  induction text with
  | nil => rfl
  | cons c text ih =>
    cases text with
    | nil => rfl
    | cons d text =>
      have hc : ¬ (0xd800 ≤ c.toNat ∧ c.toNat < 0xdc00) := by
        have hv : c.toNat < 0xd800 ∨ 0xdfff < c.toNat ∧ c.toNat < 0x110000 := c.valid
        omega
      rw [map_cons, map_cons, joinSurrogates, if_neg fun h => hc ⟨h.1, h.2.1⟩, ← map_cons, ih]

lemma readString_quote (text rest : List Char) :
    readString (text.flatMap (fun c => (escape? c.toNat).getD [c]) ++ '"' :: rest) =
      some (text.map Char.toNat, rest) := by
  rw [readString, readChars_escaped, Option.map_some, Prod.map_apply, joinSurrogates_map, id]

lemma readValue_quote (fuel : ℕ) (text rest : List Char) :
    readValue (fuel + 1) (quote text ++ rest) = some (.str (text.map Char.toNat), rest) := by
  rw [quote, cons_append, cons_append, append_assoc, singleton_append, readValue, readString_quote,
    Option.map_some, Prod.map_apply, id]

section

variable {fuel : ℕ} {text rest : List Char} {value : Value}

lemma loads_of_readValue (h : readValue (text.length + 1) (skipSpace text) = some (value, rest))
    (hrest : skipSpace rest = []) : loads text = some value := by
  rw [loads, h]
  exact if_pos hrest

variable (fields : List (List ℕ × Value)) (name : List Char)

lemma readMembers_quote (h : readValue fuel (skipSpace text) = some (value, rest)) :
    readMembers (fuel + 1) fields (quote name ++ ':' :: text) =
      match skipSpace rest with
      | ',' :: rest =>
        readMembers fuel (Dict.assign (name.map Char.toNat) value fields) (skipSpace rest)
      | '}' :: rest => some (.obj (Dict.assign (name.map Char.toNat) value fields), rest)
      | _ => none := by
  rw [quote, cons_append, cons_append, append_assoc, singleton_append, readMembers, readString_quote]
  change (readValue fuel (skipSpace text)).bind _ = _
  rw [h]
  rfl

end

end

end JsonText

end Dvt.Library
