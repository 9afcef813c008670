import Dvt.Library.Lexing
import Dvt.SqlTemplate.Rendering

/-! The lexical rules of SQL dialects: words, comments, literals, quoted identifiers. -/

namespace Dvt.SqlTemplate

open Library List

inductive TokenKind
  | space | word | symbol | comment | literal | identifier | unterminated
  deriving DecidableEq, Repr

structure Quote where
  close : Char
  escapes : Bool
  kind : TokenKind
  deriving DecidableEq, Repr

/-- `escapeStrings` are those of PostgreSQL, `dollarQuotes` are `$tag$ … $tag$` and `bracketedStrings`
are Oracle's `q'[ … ]'`. -/
structure Rules where
  stringEscapes : Bool := false
  escapeStrings : Bool := false
  dollarQuotes : Bool := false
  bracketedStrings : Bool := false
  doubleQuoteKind : TokenKind := .identifier
  doubleQuoteEscapes : Bool := false
  backticks : Bool := false
  backtickEscapes : Bool := false
  brackets : Bool := false
  dashesNeedSpace : Bool := false
  hashComments : Bool := false
  nestedComments : Bool := false
  returnsEndComments : Bool := false

/-- A gap is white space and comments behind an escape string, with whether a line ended there; a
`delimited` literal waits for the rest of its closing text. -/
inductive Mode
  | space (gap : Option Bool) | word | number | escapeWord | bracketWord (ready : Bool) | symbol
  | dash (gap : Option Bool) | dashes | slash | lineComment (gap : Option Bool)
  | block (depth : ℕ) | blockStar (depth : ℕ) | blockSlash (depth : ℕ) | blockClosed
  | dollar (tag : Text) | bracketQuote | delimited (close rest : Text) | literalClosed
  | quoted (q : Quote) | escaped (q : Quote) | closed (q : Quote)
  deriving DecidableEq, Repr

def isSqlSpace (c : Char) : Bool := c = ' ' ∨ 0x09 ≤ c.toNat ∧ c.toNat ≤ 0x0d

def isNewline (c : Char) : Bool := c = '\n' ∨ c = '\r'

def isSqlWord (c : Char) : Bool := c.isAlphanum ∨ c = '_' ∨ c = '$' ∨ 0x80 ≤ c.toNat

def closingBracket (c : Char) : Char :=
  ([('[', ']'), ('\x7b', '\x7d'), ('(', ')'), ('<', '>')].lookup c).getD c

abbrev plainQuote : Quote := ⟨'\'', false, .literal⟩

abbrev escapeQuote : Quote := ⟨'\'', true, .literal⟩

namespace Rules

variable (rules : Rules)

def quoteOf (c : Char) : Option Quote :=
  if c = '\'' then some ⟨'\'', rules.stringEscapes, .literal⟩
  else if c = '"' then some ⟨'"', rules.doubleQuoteEscapes, rules.doubleQuoteKind⟩
  else if c = '`' ∧ rules.backticks then some ⟨'`', rules.backtickEscapes, .identifier⟩
  else if c = '[' ∧ rules.brackets then some ⟨']', false, .identifier⟩
  else none

def gapAfter : Option Mode → Option Bool
  | some (.closed q) => if q = escapeQuote ∧ rules.escapeStrings then some false else none
  | some (.space gap) | some (.lineComment gap) => gap
  | _ => none

def start (before : Option Mode) (c : Char) : Mode :=
  -- an escape string goes on behind a line break
  if c = '\'' ∧ rules.gapAfter before = some true then .quoted escapeQuote
  else match rules.quoteOf c with
  | some q => .quoted q
  | none =>
    if isSqlSpace c then .space ((rules.gapAfter before).map (· || isNewline c))
    else if c = '-' then .dash (rules.gapAfter before)
    else if c = '/' then .slash
    else if c = '#' ∧ rules.hashComments then .lineComment none
    else if c = '$' ∧ rules.dollarQuotes then .dollar []
    else if c ∈ ['e', 'E'] ∧ rules.escapeStrings then .escapeWord
    else if c ∈ ['n', 'N', 'q', 'Q'] ∧ rules.bracketedStrings then .bracketWord (c ∈ ['q', 'Q'])
    else if c.isDigit then .number
    else if isSqlWord c then .word
    else .symbol

def extend : Mode → Char → Option Mode
  | .space gap, c => if isSqlSpace c then some (.space (gap.map (· || isNewline c))) else none
  | .word, c => if isSqlWord c then some .word else none
  | .number, c => if isSqlWord c ∧ ¬ (c = '$' ∧ rules.dollarQuotes) then some .number else none
  | .escapeWord, c =>
    if c = '\'' then some (.quoted escapeQuote) else if isSqlWord c then some .word else none
  | .bracketWord ready, c =>
    if c = '\'' ∧ ready then some .bracketQuote
    else if c ∈ ['q', 'Q'] ∧ ready = false then some (.bracketWord true)
    else if isSqlWord c then some .word else none
  | .symbol, _ => none
  | .dash gap, c =>
    if c = '-' then some (if rules.dashesNeedSpace then .dashes else .lineComment gap) else none
  | .dashes, c => if isSqlSpace c ∧ c ≠ '\n' then some (.lineComment none) else none
  | .slash, c => if c = '*' then some (.block 0) else none
  | .lineComment gap, c =>
    if c = '\n' ∨ c = '\r' ∧ rules.returnsEndComments then none else some (.lineComment gap)
  | .block depth, c =>
    if c = '*' then some (.blockStar depth)
    else if c = '/' ∧ rules.nestedComments then some (.blockSlash depth)
    else some (.block depth)
  | .blockStar depth, c =>
    if c = '/' then some (if depth = 0 then .blockClosed else .block (depth - 1))
    else if c = '*' then some (.blockStar depth)
    else some (.block depth)
  | .blockSlash depth, c =>
    if c = '*' then some (.block (depth + 1))
    else if c = '/' then some (.blockSlash depth)
    else some (.block depth)
  | .blockClosed, _ => none
  | .dollar tag, c =>
    if c = '$' then some (.delimited ('$' :: tag ++ ['$']) ('$' :: tag ++ ['$']))
    else if c = '\'' ∧ (tag = ['e'] ∨ tag = ['E']) ∧ rules.escapeStrings then some (.quoted escapeQuote)
    else if c.isDigit ∧ tag = [] then some .number
    else if isSqlWord c then some (.dollar (tag ++ [c])) else none
  | .bracketQuote, c => some (.delimited [closingBracket c, '\''] [closingBracket c, '\''])
  | .delimited close rest, c =>
    if rest = [c] then some .literalClosed
    else if rest.head? = some c then some (.delimited close rest.tail)
    else if close.head? = some c then some (.delimited close close.tail)
    else some (.delimited close close)
  | .literalClosed, _ => none
  | .quoted q, c =>
    if c = q.close then some (.closed q)
    else if c = '\\' ∧ q.escapes then some (.escaped q)
    else some (.quoted q)
  | .escaped q, _ => some (.quoted q)
  | .closed q, c => if c = q.close then some (.quoted q) else none

end Rules

def Mode.kind : Mode → TokenKind
  | .space _ => .space
  | .word | .number | .escapeWord | .bracketWord _ => .word
  | .symbol | .dash _ | .dashes | .slash | .dollar _ => .symbol
  | .lineComment _ | .blockClosed => .comment
  | .block _ | .blockStar _ | .blockSlash _ | .bracketQuote | .delimited _ _ | .quoted _
  | .escaped _ => .unterminated
  | .literalClosed => .literal
  | .closed q => q.kind

def Rules.lexer (rules : Rules) : Lexer Char Mode TokenKind where
  start := rules.start
  extend := rules.extend
  kind := Mode.kind

def postgresRules : Rules where
  escapeStrings := true
  dollarQuotes := true
  nestedComments := true
  returnsEndComments := true

def mysqlRules : Rules where
  stringEscapes := true
  doubleQuoteKind := .literal
  doubleQuoteEscapes := true
  backticks := true
  dashesNeedSpace := true
  hashComments := true

def tsqlRules : Rules := { brackets := true, nestedComments := true }

def oracleRules : Rules := { bracketedStrings := true }

def clickhouseRules : Rules where
  stringEscapes := true
  dollarQuotes := true
  doubleQuoteEscapes := true
  backticks := true
  backtickEscapes := true
  hashComments := true

section

variable (rules : Rules) {q : Quote}

lemma extends_double (hq : q.escapes = false) (text : Text) :
    (double q.close text).foldlM rules.extend (.quoted q) = some (.quoted q) := by
  induction text with
  | nil => rfl
  | cons c cs ih =>
    have hcons : double q.close (c :: cs) =
        (if c = q.close then [q.close, q.close] else [c]) ++ double q.close cs := rfl
    rw [hcons, foldlM_append]
    by_cases hc : c = q.close
    · rw [if_pos hc]
      have hp : [q.close, q.close].foldlM rules.extend (.quoted q) = some (.quoted q) := by
        simp [Rules.extend]
      rw [hp]
      exact ih
    · rw [if_neg hc]
      have hs : [c].foldlM rules.extend (.quoted q) = some (.quoted q) := by
        simp [Rules.extend, hc, hq]
      rw [hs]
      exact ih

variable {c : Char} {before : Option Mode}

lemma start_of_quoteOf (h : rules.quoteOf c = some q) (hc : c ≠ '\'') :
    rules.start before c = .quoted q := by
  rw [Rules.start, if_neg (fun hq => hc hq.1), h]

lemma start_quote (before : Option Mode) : ∃ escapes, rules.start before '\'' = .quoted ⟨'\'', escapes, .literal⟩ ∧
    (escapes = false → rules.stringEscapes = false) := by
  by_cases hgap : rules.gapAfter before = some true
  · exact ⟨true, by rw [Rules.start, if_pos ⟨rfl, hgap⟩], nofun⟩
  · exact ⟨rules.stringEscapes, by rw [Rules.start, if_neg fun hq => hgap hq.2]; rfl, id⟩

lemma feed_quoted (hc : rules.start before c = .quoted q) (hq : q.escapes = false) (text : Text) :
    rules.lexer.feedAfter before (c :: double q.close text ++ [q.close]) =
      ([], some (.closed q, c :: double q.close text ++ [q.close])) := by
  have he : (double q.close text ++ [q.close]).foldlM rules.lexer.extend (rules.start before c) =
      some (.closed q) := by
    rw [hc, foldlM_append]
    change ((double q.close text).foldlM rules.extend (.quoted q) >>= _) = _
    rw [extends_double rules hq]
    change [q.close].foldlM rules.extend (.quoted q) = _
    simp [Rules.extend]
  exact rules.lexer.feed_of_extends [c] he

end

section

variable (rules : Rules) {quotes : Char × Char}

def Rules.PlainQuotes (quotes : Char × Char) : Prop :=
  rules.quoteOf quotes.1 = some ⟨quotes.2, false, .identifier⟩

def segmentTokens (quotes : Char × Char) : List Text → List (Token Char TokenKind)
  | [] => []
  | [segment] => [⟨.identifier, quoteSegment quotes segment⟩]
  | segment :: segments =>
    ⟨.identifier, quoteSegment quotes segment⟩ :: ⟨.symbol, ['.']⟩ :: segmentTokens quotes segments

def identifierTokens (quotes : Char × Char) (name : Text) : List (Token Char TokenKind) :=
  segmentTokens quotes (name.splitOn '.')

lemma feed_segments (hq : rules.PlainQuotes quotes) (hdot : quotes.2 ≠ '.') (segment : Text)
    (segments : List Text) (before : Option Mode) :
    ∃ tokens last, segmentTokens quotes (segment :: segments) = tokens ++ [⟨.identifier, last⟩] ∧
      rules.lexer.feedAfter before
          (['.'].intercalate ((segment :: segments).map (quoteSegment quotes))) =
        (tokens, some (.closed ⟨quotes.2, false, .identifier⟩, last)) := by
  have hc : quotes.1 ≠ '\'' := by
    intro hc
    rw [Rules.PlainQuotes, hc] at hq
    exact absurd (congrArg Quote.kind (Option.some.inj hq)) nofun
  have hs : ∀ before segment, rules.lexer.feedAfter before (quoteSegment quotes segment) =
      ([], some (.closed ⟨quotes.2, false, .identifier⟩, quoteSegment quotes segment)) :=
    fun before segment => feed_quoted rules (start_of_quoteOf rules hq hc) rfl segment
  induction segments generalizing segment before with
  | nil =>
    refine ⟨[], quoteSegment quotes segment, rfl, ?_⟩
    simpa [List.intercalate] using hs before segment
  | cons next segments ih =>
    obtain ⟨tokens, last, htokens, hf⟩ := ih next (some .symbol)
    obtain ⟨rest, hr⟩ : ∃ rest, ['.'].intercalate ((next :: segments).map (quoteSegment quotes)) =
        quotes.1 :: rest := by
      cases segments <;> simp [quoteSegment]
    have ht : ['.'].intercalate ((segment :: next :: segments).map (quoteSegment quotes)) =
        quoteSegment quotes segment ++ '.' :: quotes.1 :: rest := by
      rw [← hr]
      simp [List.intercalate]
    refine ⟨⟨.identifier, quoteSegment quotes segment⟩ :: ⟨.symbol, ['.']⟩ :: tokens, last, ?_, ?_⟩
    · rw [segmentTokens, htokens]
      · rfl
      · simp
    · have hends : rules.lexer.Ends (some (.closed ⟨quotes.2, false, .identifier⟩,
          quoteSegment quotes segment)) ('.' :: quotes.1 :: rest) := by
        rintro m t c cs ⟨⟩ ⟨⟩
        exact if_neg (Ne.symm hdot)
      have hsym : rules.lexer.Ends (some (.symbol, ['.'])) (quotes.1 :: rest) := by
        rintro m t c cs ⟨⟩ ⟨⟩
        rfl
      have hd : ∀ before, rules.lexer.feedAfter before ('.' :: quotes.1 :: rest) =
          (⟨.symbol, ['.']⟩ :: tokens, some (.closed ⟨quotes.2, false, .identifier⟩, last)) := by
        intro before
        change rules.lexer.feed (some (.symbol, ['.'])) (quotes.1 :: rest) = _
        rw [rules.lexer.feed_of_ends hsym, ← hr, Option.map_some, hf]
        rfl
      have hne : quoteSegment quotes segment ≠ [] := cons_ne_nil _ _
      rw [ht, rules.lexer.feedAfter_append hne (hs before segment),
        rules.lexer.feed_of_ends hends, hd]
      rfl

lemma feed_quoteIdentifier (hq : rules.PlainQuotes quotes) (hdot : quotes.2 ≠ '.') (name : Text)
    (before : Option Mode) :
    ∃ tokens last, identifierTokens quotes name = tokens ++ [⟨.identifier, last⟩] ∧
      rules.lexer.feedAfter before (quoteIdentifier quotes name) =
        (tokens, some (.closed ⟨quotes.2, false, .identifier⟩, last)) := by
  rw [identifierTokens, quoteIdentifier]
  obtain ⟨segment, segments, hs⟩ :=
    exists_cons_of_ne_nil (splitOn_ne_nil '.' name)
  rw [hs]
  exact feed_segments rules hq hdot segment segments before

lemma texts_segmentTokens (quotes : Char × Char) (segments : List Text) :
    texts (segmentTokens quotes segments) =
      ['.'].intercalate (segments.map (quoteSegment quotes)) := by
  induction segments with
  | nil => rfl
  | cons segment segments ih =>
    cases segments with
    | nil => simp [segmentTokens, texts]
    | cons next segments =>
      rw [segmentTokens]
      · simpa [texts] using ih
      · simp

end

end Dvt.SqlTemplate
