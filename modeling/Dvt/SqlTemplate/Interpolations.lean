import Mathlib.Data.List.Infix

/-! The interpolations of an SQL template: where they stand, and in what context. -/

namespace Dvt.SqlTemplate

abbrev Text := List Char

def slice (text : Text) (start stop : ℕ) : Text := (text.take stop).drop start

structure CharTable where
  isSpace : Char → Bool
  isAlnum : Char → Bool
  upper : Char → List Char
  isSpace_visible : ∀ c : Char, 0x21 ≤ c.toNat → c.toNat ≤ 0x7e → isSpace c = false

namespace CharTable

variable (table : CharTable)

def lstrip (text : Text) : Text := text.dropWhile table.isSpace

def rstrip (text : Text) : Text := (text.reverse.dropWhile table.isSpace).reverse

def strip (text : Text) : Text := table.rstrip (table.lstrip text)

def isWord (c : Char) : Bool := table.isAlnum c || c = '_'

def endsWithWord (word : String) (text : Text) : Bool :=
  word.toList <:+ text ∧
    (text.take (text.length - word.length)).getLast?.all fun c => !table.isWord c

def startsWithWord (word : String) (text : Text) : Bool :=
  word.toList <+: text ∧ (text.drop word.length).head?.all fun c => !table.isWord c

end CharTable

structure Interpolation where
  start : ℕ
  stop : ℕ
  expression : Text
  isQuotedLiteralContent : Bool
  deriving DecidableEq, Repr

section

variable (table : CharTable)

def findClose : Text → Option ℕ
  | '}' :: '}' :: _ => some 0
  | _ :: rest => (findClose rest).map (· + 1)
  | [] => none

/-- The loop of `tokenize` at some index; `skip` counts the characters it jumps over. -/
def tokenizeFrom (index skip : ℕ) (inSingleQuote : Bool) : Text → Except String (List Interpolation)
  | [] =>
    if inSingleQuote then .error "SQL template contains an unclosed string literal." else .ok []
  | char :: rest =>
    match skip with
    | skip + 1 => tokenizeFrom (index + 1) skip inSingleQuote rest
    | 0 =>
      if char = '\'' then
        if inSingleQuote ∧ rest.head? = some '\'' then
          tokenizeFrom (index + 1) 1 inSingleQuote rest
        else tokenizeFrom (index + 1) 0 (!inSingleQuote) rest
      else if char = '{' ∧ rest.head? = some '{' then
        match findClose rest.tail with
        | none => .error "SQL template contains an unclosed Jinja interpolation."
        | some offset =>
          if table.strip (rest.tail.take offset) = [] then
            .error "SQL template contains an empty Jinja interpolation."
          else
            match tokenizeFrom (index + 1) (offset + 3) inSingleQuote rest with
            | .error error => .error error
            | .ok items => .ok ({
                start := index
                stop := index + offset + 4
                expression := table.strip (rest.tail.take offset)
                isQuotedLiteralContent := inSingleQuote } :: items)
      else tokenizeFrom (index + 1) 0 inSingleQuote rest

def tokenize (template : Text) : Except String (List Interpolation) :=
  tokenizeFrom table 0 0 false template

end

inductive Context
  | literal | identifier | quotedLiteralContent
  deriving DecidableEq, Repr

section

variable (table : CharTable)

def trailingWord (text : Text) : Text :=
  (text.reverse.takeWhile fun c => c.isAlphanum || c = '_').reverse.dropWhile Char.isDigit

def endsWithBy (keyword : String) (text : Text) : Bool :=
  ['B', 'Y'] <:+ text ∧ (text.take (text.length - 2)).getLast?.any table.isSpace ∧
    table.endsWithWord keyword (table.rstrip (text.take (text.length - 2)))

def insideList (text : Text) : Bool :=
  -- no parenthesis stands after the opening one
  match text.reverse.dropWhile fun c => c ≠ '(' ∧ c ≠ ')' with
  | '(' :: before =>
    table.endsWithWord "VALUES" (table.rstrip before.reverse) ||
      table.endsWithWord "IN" (table.rstrip before.reverse)
  | _ => false

def continuesNames (text : Text) : Bool :=
  text.head?.any (fun c => c = ',' ∨ c = ')' ∨ c = '=') ||
    ["FROM", "AS", "ASC", "DESC", "LIMIT", "OFFSET", "WHERE", "HAVING"].any fun word =>
      table.startsWithWord word text

def closesBeforeValues (text : Text) : Bool :=
  match table.lstrip text with
  | ')' :: rest => table.startsWithWord "VALUES" (table.lstrip rest)
  | _ => false

def classifyOne (template : Text) (item : Interpolation) : Except String Context :=
  if item.isQuotedLiteralContent then .ok .quotedLiteralContent
  else
    let before := (template.take item.start).flatMap table.upper
    let after := (template.drop item.stop).flatMap table.upper
    let beforeStripped := table.rstrip before
    let afterStripped := table.lstrip after
    let word := trailingWord beforeStripped
    if word ∈ ["FROM", "JOIN", "INTO", "UPDATE", "TABLE", "SET"].map String.toList then
      .ok .identifier
    else if table.endsWithWord "SELECT" beforeStripped || endsWithBy table "GROUP" beforeStripped ||
        endsWithBy table "ORDER" beforeStripped then .ok .identifier
    -- a value list comes before the test of the comma, which would take its items for names
    else if insideList table beforeStripped then .ok .literal
    else if beforeStripped.getLast? = some ',' ∧ continuesNames table afterStripped then
      .ok .identifier
    else if "INSERT".toList <:+: before ∧ beforeStripped.getLast? = some '(' ∧
        closesBeforeValues table after then .ok .identifier
    else if word ∈ ["LIMIT", "OFFSET", "FETCH"].map String.toList then .ok .literal
    else if beforeStripped.getLast?.any fun c => c = '=' ∨ c = '<' ∨ c = '>' then .ok .literal
    else .error ("SQL template interpolation is not in a supported literal or identifier " ++
      "position. Raw SQL fragments are not supported.")

def skeletonFrom (template : Text) (previous offset index : ℕ) :
    List Interpolation → Text × List (ℕ × ℕ)
  | [] => (template.drop previous, [])
  | item :: items =>
    let before := slice template previous item.start
    let placeholder := s!"dvt_template_{index}".toList
    match skeletonFrom template item.stop (offset + before.length + placeholder.length) (index + 1)
        items with
    | (rest, positions) =>
      (before ++ placeholder ++ rest, (offset + before.length, item.start) :: positions)

/-- `sqlglot`, by the dialect: where a name stands alone as the limit of a statement, or why the
text is no SQL. -/
abbrev SqlParser := Option String → Text → Except String (List ℕ)

def parseSkeleton (parse : SqlParser) (template : Text) (interpolations : List Interpolation)
    (dialectName : Option String) : Except String (List ℕ) :=
  let skeleton := skeletonFrom template 0 0 0 interpolations
  let dialect := if (dialectName.getD "").toLower = "mssql" then some "tsql" else dialectName
  match parse (dialect.filter fun name => name ≠ "") skeleton.1 with
  | .error error => .error s!"SQL template syntax is invalid: {error}"
  | .ok limits =>
    if (dialect.getD "").toLower ≠ "tsql" then .ok []
    else .ok (limits.filterMap fun limit =>
      (skeleton.2.find? fun position => position.1 = limit).map Prod.snd)

def classifyItems (template : Text) (topLiteralPositions : List ℕ) :
    List Interpolation → Except String (List Context)
  | [] => .ok []
  | item :: items =>
    match if item.start ∈ topLiteralPositions then .ok .literal
      else classifyOne table template item with
    | .error error => .error error
    | .ok context =>
      match classifyItems template topLiteralPositions items with
      | .error error => .error error
      | .ok contexts => .ok (context :: contexts)

def classify (parse : SqlParser) (template : Text) (interpolations : List Interpolation)
    (dialectName : Option String) : Except String (List Context) :=
  match parseSkeleton parse template interpolations dialectName with
  | .error error => .error error
  | .ok topLiteralPositions => classifyItems table template topLiteralPositions interpolations

end

end Dvt.SqlTemplate
