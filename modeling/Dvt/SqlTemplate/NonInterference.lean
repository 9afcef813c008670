import Dvt.SqlTemplate.Alignment

/-! The values of a template do not change how the rendered text is read. -/

namespace Dvt.SqlTemplate

open Library List Lexer Rules

variable {rules : Rules} {t : Target} {symbols after before : List Symbol} {q : Quote}
  {expression template : Text} {table : CharTable} {parse : SqlParser} {dialectName : Option String}
  {placed : List (Interpolation × Context)}
variable {context : Context}

structure WellPlaced (token : Token Symbol TokenKind) : Prop where
  literal : ∀ expression, .hole .literal expression ∈ token.text →
    token = ⟨.literal, [.hole .literal expression]⟩
  identifier : ∀ expression, .hole .identifier expression ∈ token.text →
    token = ⟨.identifier, [.hole .identifier expression]⟩
  content : ∀ expression, .hole .quotedLiteralContent expression ∈ token.text →
    token.kind = .literal ∧ token.text.head? = some (.char '\'') ∧
      token.text.getLast? = some (.char '\'')

/-- One token sequence of the template is that of every rendered text, with the texts that the
interpolations are written as. -/
def NonInterfering (table : CharTable) (parse : SqlParser) (rules : Rules) (template : Text)
    (dialectName : Option String) (symbols : List Symbol) : Prop :=
  ∃ pattern : List (Token Symbol TokenKind), texts pattern = symbols ∧
    (∀ token ∈ pattern, WellPlaced token) ∧
    ∀ (values : Text → Text) (sql : Text),
      execute table parse ⟨template, dialectName, fun expression => .ok (.str (values expression))⟩ =
        .ok sql →
      rules.lexer.lex sql = pattern.flatMap (expand (quoteCharacter dialectName) values)

section

def Mode.quote? : Mode → Option Quote
  | .quoted q | .escaped q | .closed q => some q
  | _ => none

variable {m m' : Mode} {c : Char}

lemma quote?_of_extend (h : t.extend m c = some m')
    (hq : m'.quote? = some q) (he : q.escapes = false) : m.quote? = some q := by
  cases m with
  | quoted p =>
    rw [Rules.extend] at h
    split_ifs at h <;> cases h <;> exact hq
  | escaped p =>
    cases h
    exact hq
  | closed p =>
    rw [Rules.extend] at h
    split_ifs at h
    cases h
    exact hq
  | escapeWord | dollar tag =>
    -- the quote that these open has escapes
    rw [Rules.extend] at h
    split_ifs at h <;> cases h <;> cases hq
    cases he
  | symbol | blockClosed | literalClosed => cases h
  | bracketQuote =>
    cases h
    cases hq
  | _ =>
    rw [Rules.extend] at h
    split_ifs at h <;> cases h <;> cases hq

variable {text : List Symbol}

lemma quote?_of_extends (h : text.foldlM t.reader.extend m = some m') (hq : m'.quote? = some q)
    (he : q.escapes = false) : m.quote? = some q := by
  induction text generalizing m with
  | nil => exact Option.some.inj h ▸ hq
  | cons symbol text ih =>
    obtain ⟨n, hn, h⟩ := Option.bind_eq_some_iff.mp h
    have hnext := ih h
    cases symbol with
    | char c => exact quote?_of_extend hn hnext he
    | hole context expression =>
      by_cases hc : context = .quotedLiteralContent
      · subst hc
        cases m <;> cases hn
        exact hnext
      · rw [extend_value_hole hc] at hn
        cases hn

lemma eq_of_quoteOf (h : t.quoteOf c = some q) (hq : q.close = '\'') : c = '\'' := by
  rw [quoteOf] at h
  split_ifs at h with hquo
  · exact hquo
  all_goals
    cases h
    cases hq

lemma quote?_start {before : Option Mode} (h : (t.start before c).quote? = some q)
    (he : q.escapes = false) : t.quoteOf c = some q := by
  rw [Rules.start] at h
  split at h
  · cases h
    cases he
  · split at h
    case h_1 p hp =>
      rw [hp]
      exact h
    case h_2 => split_ifs at h <;> cases h

lemma extend_quoted_ne_none (rules : Rules) (q : Quote) (c : Char) : rules.extend (.quoted q) c ≠ none := by
  rw [Rules.extend]
  split_ifs <;> simp

lemma flips_of_extends {inSingleQuote : Bool} (hm : m = .quoted plainQuote ∧ inSingleQuote = true ∨
      m = .closed plainQuote ∧ inSingleQuote = false)
    (h : text.foldlM t.reader.extend m = some m') :
    m' = .quoted plainQuote ∧ text.foldl flips inSingleQuote = true ∨
      m' = .closed plainQuote ∧ text.foldl flips inSingleQuote = false := by
  induction text generalizing m inSingleQuote with
  | nil => exact Option.some.inj h ▸ hm
  | cons symbol text ih =>
    obtain ⟨n, hn, h⟩ := Option.bind_eq_some_iff.mp h
    refine ih ?_ h
    cases symbol with
    | char c =>
      replace hn : t.extend m c = some n := hn
      by_cases hc : c = '\'' <;> obtain ⟨rfl, rfl⟩ | ⟨rfl, rfl⟩ := hm <;>
        simp [Rules.extend, flips, hc] at hn ⊢ <;> exact hn.symm
    | hole context expression =>
      by_cases hcon : context = .quotedLiteralContent
      · subst hcon
        obtain ⟨rfl, rfl⟩ | ⟨rfl, rfl⟩ := hm
        · cases hn
          exact .inl ⟨rfl, rfl⟩
        · cases hn
      · rw [extend_value_hole hcon] at hn
        cases hn

lemma getLast?_of_closed (h : text.foldlM t.reader.extend (.quoted plainQuote) =
      some (.closed plainQuote)) : text.getLast? = some (.char '\'') := by
  obtain rfl | ⟨init, symbol, rfl⟩ := eq_nil_or_concat text
  · cases h
  · rw [concat_eq_append] at h ⊢
    rw [foldlM_append] at h
    obtain ⟨m, hm, h⟩ := Option.bind_eq_some_iff.mp h
    have hl : t.reader.extend m symbol = some (.closed plainQuote) := by
      simpa using h
    rw [List.getLast?_append_of_ne_nil _ (by simp), List.getLast?_singleton]
    cases symbol with
    | char c =>
      replace hl : t.extend m c = some (.closed plainQuote) := hl
      by_cases hc : c = '\''
      · rw [hc]
      · obtain ⟨rfl, -⟩ | ⟨rfl, -⟩ := flips_of_extends (.inl ⟨rfl, rfl⟩) hm <;>
          simp [Rules.extend, hc] at hl
    | hole context expression =>
      by_cases hcon : context = .quotedLiteralContent
      · subst hcon
        cases m <;> cases hl
      · rw [extend_value_hole hcon] at hl
        cases hl

variable {next : Symbol}

lemma extend_closed_of_ne (hn : next ≠ .char q.close) :
    t.reader.extend (.closed q) next = none := by
  cases next with
  | char c => exact if_neg fun hc => hn (congrArg Symbol.char hc)
  | hole context expression => cases context <;> rfl

lemma extend_start_of_shuts (hc : context ≠ .quotedLiteralContent)
    (hs : Shuts t (next :: after) (.hole context expression)) (before : Option Mode) :
    t.reader.extend
      (t.reader.start before (.hole context expression)) next = none := by
  cases context with
  | literal | identifier => exact extend_closed_of_ne fun hn => hs (congrArg some hn)
  | quotedLiteralContent => exact absurd rfl hc

variable (hal : Aligned t [] symbols)
include hal

variable {token : Token Symbol TokenKind} {L R : List (Token Symbol TokenKind)}

lemma value_hole_alone (hlex : t.reader.lex symbols = L ++ token :: R)
    (hc : context ≠ .quotedLiteralContent) (hmem : .hole context expression ∈ token.text) :
    token = ⟨(t.reader.start none (.hole context expression)).kind,
      [.hole context expression]⟩ := by
  have hs := t.reader.texts_of_lex hlex
  obtain ⟨m, hr, hk⟩ := t.reader.reads_of_mem_lex
    (hlex ▸ mem_append_right L mem_cons_self)
  obtain ⟨kind, text⟩ := token
  dsimp only at hmem hr hk hs
  cases text with
  | nil => cases hmem
  | cons first text =>
    obtain ⟨p, hr⟩ := hr
    obtain rfl | hmem := mem_cons.mp hmem
    · cases text with
      | nil =>
        cases hr
        rw [← hk]
        cases context <;> rfl
      | cons next text =>
        obtain ⟨n, hn, -⟩ := Option.bind_eq_some_iff.mp hr
        have hshu := (Aligned.at (hs ▸ hal)).2
        rw [extend_start_of_shuts hc hshu] at hn
        cases hn
    · obtain ⟨before, after, rfl⟩ := append_of_mem hmem
      rw [foldlM_append] at hr
      obtain ⟨n, -, hr⟩ := Option.bind_eq_some_iff.mp hr
      obtain ⟨n', hn', -⟩ := Option.bind_eq_some_iff.mp hr
      rw [extend_value_hole hc] at hn'
      cases hn'

lemma head_of_content {first : Symbol} {p : Option Mode} (hs : before ++ (first :: text ++ after) = symbols)
    (ht : text.foldlM t.reader.extend
      (t.reader.start p first) = some (.quoted plainQuote)) :
    first = .char '\'' := by
  have hq := quote?_of_extends ht rfl rfl
  cases first with
  | char c => rw [eq_of_quoteOf (quote?_start hq rfl) rfl]
  | hole context expression =>
    cases context with
    | literal =>
      have hshu := (Aligned.at (hs ▸ hal)).2
      cases text with
      | nil => cases ht
      | cons next text =>
        obtain ⟨n, hn, -⟩ := Option.bind_eq_some_iff.mp ht
        rw [extend_start_of_shuts (by decide) hshu] at hn
        cases hn
    | identifier =>
      have hk := congrArg Quote.kind (Option.some.inj hq)
      cases hk
    | quotedLiteralContent => cases hq

lemma closed_of_content
    (ht : Tracks true (text ++ after)) (hs : before ++ (text ++ after) = symbols)
    (hmode : t.reader.mode (before ++ text) = some m)
    (htext : text.foldlM t.reader.extend (.quoted plainQuote) = some m)
    (hends : ∀ next rest, after = next :: rest →
      t.reader.extend m next = none) : m = .closed plainQuote := by
  obtain ⟨rfl, hf⟩ | ⟨rfl, -⟩ := flips_of_extends (.inl ⟨rfl, rfl⟩) htext
  · have hr := ht.after
    rw [hf] at hr
    cases after with
    | nil => cases hr
    | cons next after =>
      have hn := hends next after rfl
      have hat : Aligned t [] ((before ++ text) ++ next :: after) := by
        rw [append_assoc, hs]
        exact hal
      have ho := hat.at.1
      rw [nil_append, hmode] at ho
      cases next with
      | char c => exact absurd hn (extend_quoted_ne_none t.toRules plainQuote c)
      | hole context expression =>
        cases context with
        | literal | identifier =>
          exact absurd (ho.2 _ rfl) (extend_quoted_ne_none t.toRules plainQuote _)
        | quotedLiteralContent => cases hn
  · rfl

lemma content_inside (ht : Tracks false symbols) (hlex : t.reader.lex symbols = L ++ token :: R)
    (hmem : .hole .quotedLiteralContent expression ∈ token.text) :
    token.kind = .literal ∧ token.text.head? = some (.char '\'') ∧
      token.text.getLast? = some (.char '\'') := by
  have hs := t.reader.texts_of_lex hlex
  rw [← hs] at hlex
  obtain ⟨hends, -, hr⟩ := t.reader.cut_spec hlex rfl
  obtain ⟨kind, text⟩ := token
  cases text with
  | nil => cases hmem
  | cons first text =>
    obtain ⟨m, htext, hk, hn⟩ := t.reader.first_spec hr.symm
    obtain rfl | hmem := mem_cons.mp hmem
    · -- content that starts a token would have extended the literal before it
      have ho := (Aligned.at (hs ▸ hal)).1
      obtain ⟨current, hc, hmode⟩ := Option.map_eq_some_iff.mp ho
      obtain ⟨m, t⟩ := current
      cases hmode
      cases hends _ t _ _ hc rfl
    · obtain ⟨before, after, rfl⟩ := append_of_mem hmem
      have hc := t.reader.current_of_ends hends htext
      rw [foldlM_append] at htext
      obtain ⟨n, hb, htext⟩ := Option.bind_eq_some_iff.mp htext
      obtain ⟨n', hh, haft⟩ := Option.bind_eq_some_iff.mp htext
      have ha : first :: (before ++ .hole .quotedLiteralContent expression :: after) ++ texts R =
          first :: before ++ (.hole .quotedLiteralContent expression :: (after ++ texts R)) := by simp
      have hspl : (texts L ++ first :: before) ++
          (.hole .quotedLiteralContent expression :: (after ++ texts R)) = symbols := by
        rw [append_assoc, ← ha, hs]
      rw [ha] at hends
      have ho := (Aligned.at (hspl ▸ hal)).1
      rw [nil_append, mode, t.reader.current_of_ends hends hb] at ho
      cases ho
      cases hh
      have hq := (hspl ▸ ht).after
      have htrue := hq.1 expression rfl
      have hr := hq.2
      rw [htrue] at hr
      have hclo : m = .closed plainQuote := by
        have hj : (texts L ++ first :: before ++ [.hole .quotedLiteralContent expression]) ++
            (after ++ texts R) = symbols := by simpa using hspl
        refine closed_of_content hal hr hj ?_ haft fun next rest hr =>
          hn _ _ next rest rfl hr
        rw [mode, append_assoc, append_assoc, singleton_append, cons_append,
          hc, Option.map_some]
      subst hclo
      refine ⟨hk.symm, ?_, ?_⟩
      · rw [List.head?_cons, head_of_content hal (ha ▸ hs) hb]
      · have hl := getLast?_of_closed haft
        simp [List.getLast?_cons, hl]

lemma wellPlaced_of_aligned (ht : Tracks false symbols)
    (hmem : token ∈ t.reader.lex symbols) : WellPlaced token := by
  obtain ⟨L, R, hlex⟩ := append_of_mem hmem
  constructor
  · intro expression hh
    exact value_hole_alone hal hlex (by decide) hh
  · intro expression hh
    exact value_hole_alone hal hlex (by decide) hh
  · intro expression hh
    exact content_inside hal ht hlex hh

end

variable {pattern : List (Token Symbol TokenKind)}

def backslash : Text → Text := fun _ => ['\\']

def breakout : Text → Text := fun _ => ['\'', 'a', '\\', '\'', 'a']

variable {values : Text → Text}

lemma cut_at_value {kind : TokenKind}
    (htex : texts pattern = before ++ .hole context expression :: after)
    (ha : ∀ token ∈ pattern, .hole context expression ∈ token.text →
      token = ⟨kind, [.hole context expression]⟩)
    (hlex : t.lexer.lex (written t.quotes values (before ++ .hole context expression :: after)) =
      pattern.flatMap (expand t.quotes values)) :
    ∃ R, t.lexer.Ends (t.lexer.feed none (written t.quotes values before)).2
        (Symbol.write t.quotes values (.hole context expression) ++ written t.quotes values after) ∧
      t.lexer.lexAfter (t.lexer.mode (written t.quotes values before))
          (Symbol.write t.quotes values (.hole context expression) ++ written t.quotes values after) =
        expand t.quotes values ⟨kind, [.hole context expression]⟩ ++ R := by
  obtain ⟨L, token, R, x, y, rfl, ht, hx, hy⟩ := exists_token_at htex
  have ha := ha token (by simp) (by simp [ht])
  subst ha
  obtain ⟨rfl, hnil⟩ : x = [] ∧ y = [] := by
    have hl := congrArg List.length ht
    simp only [length_append, length_cons, length_nil] at hl
    exact ⟨length_eq_zero_iff.mp (by omega), length_eq_zero_iff.mp (by omega)⟩
  rw [append_nil] at hx
  have hw : written t.quotes values (before ++ .hole context expression :: after) =
      written t.quotes values before ++ (Symbol.write t.quotes values (.hole context expression) ++
        written t.quotes values after) := by
    rw [written_append]
    rfl
  rw [hw, flatMap_append] at hlex
  obtain ⟨hends, -, hr⟩ := t.lexer.cut_spec hlex (by rw [texts_flatMap_expand, hx])
  exact ⟨_, hends, hr.symm⟩

lemma extend_of_ends {c : Char} {rest : Text} (hsim : Simulated t values before)
    (hends : t.lexer.Ends (t.lexer.feed none (written t.quotes values before)).2 (c :: rest)) :
    ∀ m, t.reader.mode before = some m → t.extend m c = none := by
  intro m hm
  rw [← hsim.mode, mode, Option.map_eq_some_iff] at hm
  obtain ⟨⟨n, t⟩, hcur, rfl⟩ := hm
  exact hends n t c rest hcur rfl

lemma shuts_of_ends {text : Text}
    (hends : t.lexer.Ends (some (.closed q, text)) (written t.quotes values after)) :
    after.head? ≠ some (.char q.close) := by
  intro hh
  cases after with
  | nil => cases hh
  | cons symbol after =>
    cases hh
    have hn := hends _ _ q.close (written t.quotes values after) rfl rfl
    replace hn : (if q.close = q.close then some (Mode.quoted q) else none) = none := hn
    rw [if_pos rfl] at hn
    cases hn

lemma opens_literal (ht : texts pattern = before ++ .hole .literal expression :: after)
    (hplaced : ∀ token ∈ pattern, WellPlaced token)
    (hlex : t.lexer.lex (written t.quotes backslash (before ++ .hole .literal expression :: after)) =
      pattern.flatMap (expand t.quotes backslash)) (hsim : Simulated t backslash before) :
    Opens t (t.reader.mode before) (.hole .literal expression) ∧
      Shuts t after (.hole .literal expression) := by
  obtain ⟨R, hends, hr⟩ := cut_at_value ht
    (fun token hmem => (hplaced token hmem).literal expression) hlex
  obtain ⟨m, hm, hk, hn⟩ := t.lexer.first_spec hr
  rw [hsim.mode] at hm
  replace hm : ['\\', '\''].foldlM t.extend
    (t.start (t.reader.mode before) '\'') = some m := hm
  obtain ⟨escapes, hstart, -⟩ := start_quote t.toRules (t.reader.mode before)
  rw [hstart] at hm
  cases escapes with
  | true =>
    -- the backslash takes the closing quote with it, so the token is not a literal
    simp [Rules.extend] at hm
    subst hm
    cases hk
  | false =>
    simp [Rules.extend] at hm
    subst hm
    exact ⟨⟨hstart, extend_of_ends hsim hends⟩, shuts_of_ends hn⟩

lemma quoteCharacter_cases (dialectName : Option String) :
    quoteCharacter dialectName = ('[', ']') ∨ quoteCharacter dialectName = ('`', '`') ∨
      quoteCharacter dialectName = ('"', '"') := by
  rw [quoteCharacter]
  split_ifs <;> simp

lemma opens_identifier (hquot : t.quotes = ('[', ']') ∨ t.quotes = ('`', '`') ∨ t.quotes = ('"', '"'))
    (ht : texts pattern = before ++ .hole .identifier expression :: after)
    (hplaced : ∀ token ∈ pattern, WellPlaced token)
    (hlex : t.lexer.lex
        (written t.quotes backslash (before ++ .hole .identifier expression :: after)) =
      pattern.flatMap (expand t.quotes backslash)) (hsim : Simulated t backslash before) :
    Opens t (t.reader.mode before) (.hole .identifier expression) ∧
      Shuts t after (.hole .identifier expression) := by
  have hw : Symbol.write t.quotes backslash (.hole .identifier expression) =
      [t.quotes.1, '\\', t.quotes.2] := by
    obtain hq | hq | hq := hquot <;> rw [hq] <;> rfl
  have hexp : expand t.quotes backslash ⟨.identifier, [.hole .identifier expression]⟩ =
      [⟨.identifier, [t.quotes.1, '\\', t.quotes.2]⟩] := by
    obtain hq | hq | hq := hquot <;> rw [hq] <;> rfl
  obtain ⟨R, hends, hr⟩ := cut_at_value ht
    (fun token hmem => (hplaced token hmem).identifier expression) hlex
  rw [hw] at hends hr
  rw [hexp] at hr
  obtain ⟨m, hm, hk, hn⟩ := t.lexer.first_spec hr
  replace hm : ['\\', t.quotes.2].foldlM t.extend (t.start _ t.quotes.1) = some m := hm
  have hne : t.quotes.1 ≠ '\'' := by obtain hq | hq | hq := hquot <;> rw [hq] <;> decide
  cases hquo : t.quoteOf t.quotes.1 with
  | none =>
    have hs : ∀ mode, t.start mode t.quotes.1 = .symbol := by
      intro mode
      rw [Rules.start, hquo]
      obtain hq | hq | hq := hquot <;> simp [hq, isSqlSpace, isSqlWord]
    rw [hs] at hm
    cases hm
  | some q =>
    rw [start_of_quoteOf t.toRules hquo hne] at hm
    have hq : q.close ≠ '\\' := by
      rintro hq
      rw [quoteOf] at hquo
      split_ifs at hquo <;> cases hquo <;> cases hq
    cases he : q.escapes with
    | true =>
      simp [Rules.extend, hq.symm, he] at hm
      subst hm
      cases hk
    | false =>
      simp [Rules.extend, hq.symm, he] at hm
      by_cases hc : t.quotes.2 = q.close
      · simp [hc] at hm
        subst hm
        obtain ⟨close, escapes, kind⟩ := q
        cases he
        cases hk
        cases hc
        exact ⟨⟨hquo, extend_of_ends hsim hends⟩, shuts_of_ends hn⟩
      · simp [hc] at hm
        subst hm
        cases hk

lemma modes_of_quoted {text : Text} {m n : Mode}
    (hn : n = .quoted q ∨ n = .escaped q ∨ n = .closed q)
    (h : text.foldlM t.extend n = some m) : m = .quoted q ∨ m = .escaped q ∨ m = .closed q := by
  induction text generalizing n with
  | nil => exact Option.some.inj h ▸ hn
  | cons c cs ih =>
    obtain ⟨n', hn', h⟩ := Option.bind_eq_some_iff.mp h
    refine ih ?_ h
    obtain rfl | rfl | rfl := hn <;> rw [Rules.extend] at hn' <;> (try split_ifs at hn') <;>
      cases hn' <;> simp

lemma opens_content
    (htex : texts pattern = before ++ .hole .quotedLiteralContent expression :: after)
    (hplaced : ∀ token ∈ pattern, WellPlaced token)
    (hlex : t.lexer.lex
        (written t.quotes breakout (before ++ .hole .quotedLiteralContent expression :: after)) =
      pattern.flatMap (expand t.quotes breakout)) (hsim : Simulated t breakout before) :
    Opens t (t.reader.mode before)
      (.hole .quotedLiteralContent expression) := by
  obtain ⟨L, token, R, x, y, rfl, ht, rfl, rfl⟩ := exists_token_at htex
  obtain ⟨hk, hh, -⟩ := (hplaced token (by simp)).content expression (by simp [ht])
  obtain ⟨x, rfl⟩ : ∃ x', x = .char '\'' :: x' := by
    rw [ht] at hh
    cases x with
    | nil => cases hh
    | cons first x =>
      cases hh
      exact ⟨x, rfl⟩
  have hexp : expand t.quotes breakout token = [⟨.literal, '\'' :: written t.quotes breakout x ++
      (double '\'' (breakout expression) ++ written t.quotes breakout y)⟩] := by
    rw [expand_of_ne, hk, ht, written_append]
    · rfl
    · intro name hname
      rw [hname] at hh
      cases hh
  have hw : written t.quotes breakout (texts L ++ .char '\'' :: x ++
      .hole .quotedLiteralContent expression :: (y ++ texts R)) =
      written t.quotes breakout (texts L) ++ ('\'' :: written t.quotes breakout x ++
        ((double '\'' (breakout expression) ++ written t.quotes breakout y) ++
          written t.quotes breakout (texts R))) := by
    have hcons : ∀ symbol symbols, written t.quotes breakout (symbol :: symbols) =
        Symbol.write t.quotes breakout symbol ++ written t.quotes breakout symbols := fun _ _ => rfl
    simp only [written_append, hcons, Symbol.write, append_assoc, cons_append, nil_append]
  rw [hw, flatMap_append, flatMap_cons, hexp] at hlex
  obtain ⟨m, m', hmode, hx, hy, -⟩ :=
    t.lexer.inside_spec hlex (texts_flatMap_expand t.quotes breakout L)
  have hb : written t.quotes breakout (texts L ++ .char '\'' :: x) =
      written t.quotes breakout (texts L) ++ '\'' :: written t.quotes breakout x := by
    rw [written_append]
    rfl
  rw [Opens, ← hsim.mode, hb, hmode]
  rw [foldlM_append] at hy
  obtain ⟨n, hn, -⟩ := Option.bind_eq_some_iff.mp hy
  replace hn : ['\'', '\'', 'a', '\\', '\'', '\'', 'a'].foldlM t.extend m = some n := hn
  -- only between plain t.quotes does the probe leave the literal unfinished
  obtain ⟨escapes, hstart, -⟩ :=
    start_quote t.toRules (t.lexer.mode (written t.quotes breakout (texts L)))
  obtain rfl | rfl | rfl := modes_of_quoted (.inl hstart) hx
  · cases escapes with
    | true => simp [Rules.extend] at hn
    | false => rfl
  · cases escapes <;> simp [Rules.extend] at hn
  · cases escapes <;> simp [Rules.extend] at hn

lemma aligned_of_pattern (hq : t.quotes = ('[', ']') ∨ t.quotes = ('`', '`') ∨ t.quotes = ('"', '"'))
    (ht : texts pattern = before ++ after) (hplaced : ∀ token ∈ pattern, WellPlaced token)
    (hb : t.lexer.lex (written t.quotes backslash (before ++ after)) =
      pattern.flatMap (expand t.quotes backslash))
    (hbre : t.lexer.lex (written t.quotes breakout (before ++ after)) =
      pattern.flatMap (expand t.quotes breakout))
    (hsim : ∀ values, Simulated t values before)
    (hs : ∀ expression, before.getLast? = some (.hole .identifier expression) →
      after.head? ≠ some (.char t.quotes.2)) : Aligned t before after := by
  induction after generalizing before with
  | nil => trivial
  | cons symbol after ih =>
    have hdot : t.quotes.2 ≠ '.' := by obtain heq | heq | heq := hq <;> rw [heq] <;> decide
    have hp : Opens t (t.reader.mode before) symbol ∧ Shuts t after symbol := by
      cases symbol with
      | char c => exact ⟨trivial, trivial⟩
      | hole context expression =>
        cases context with
        | literal => exact opens_literal ht hplaced hb (hsim backslash)
        | identifier => exact opens_identifier hq ht hplaced hb (hsim backslash)
        | quotedLiteralContent =>
          exact ⟨opens_content ht hplaced hbre (hsim breakout), trivial⟩
    have ha : before ++ symbol :: after = before ++ [symbol] ++ after := by simp
    rw [ha] at ht hb hbre
    refine ⟨hp, ih ht hb hbre (fun values => ?_) ?_⟩
    · exact (hsim values).step hdot hp.1 fun expression hl heq =>
        hs expression hl (congrArg some heq)
    · intro expression hl
      rw [List.getLast?_concat] at hl
      cases hl
      exact hp.2

lemma execute_eq_ok (hplaced : placeInterpolations table parse template dialectName = .ok placed)
    {values : Text → Text} {sql : Text} :
    execute table parse ⟨template, dialectName, fun expression => .ok (.str (values expression))⟩ =
        .ok sql ↔
      (∀ item ∈ placed, item.2 = .identifier → safeIdentifier table (values item.1.expression)) ∧
        sql = written (quoteCharacter dialectName) values (symbolsFrom template 0 placed) := by
  rw [execute, hplaced]
  exact renderFrom_eq_ok

lemma safeIdentifier_backslash (table : CharTable) (expression : Text) :
    safeIdentifier table (backslash expression) = true := by
  have hspa := table.isSpace_visible '\\' (by decide) (by decide)
  have hs : (['\\'].splitOn '.').all safeSegment = true := by decide
  simp [safeIdentifier, backslash, CharTable.strip, CharTable.rstrip, CharTable.lstrip, hspa, hs]

lemma safeIdentifier_breakout (table : CharTable) (expression : Text) :
    safeIdentifier table (breakout expression) = true := by
  have hq := table.isSpace_visible '\'' (by decide) (by decide)
  have hl := table.isSpace_visible 'a' (by decide) (by decide)
  have hs : (['\'', 'a', '\\', '\'', 'a'].splitOn '.').all safeSegment = true := by decide
  simp [safeIdentifier, breakout, CharTable.strip, CharTable.rstrip, CharTable.lstrip, hq, hl, hs]

section

variable (hplaced : placeInterpolations table parse template dialectName = .ok placed)

include hplaced

lemma aligned_of_nonInterfering
    (h : NonInterfering table parse rules template dialectName (symbolsFrom template 0 placed)) :
    Aligned ⟨rules, quoteCharacter dialectName⟩ [] (symbolsFrom template 0 placed) := by
  obtain ⟨pattern, ht, hw, hlex⟩ := h
  have hb := hlex backslash _ ((execute_eq_ok hplaced).mpr
    ⟨fun _ _ _ => safeIdentifier_backslash table _, rfl⟩)
  have hbre := hlex breakout _ ((execute_eq_ok hplaced).mpr
    ⟨fun _ _ _ => safeIdentifier_breakout table _, rfl⟩)
  exact aligned_of_pattern (quoteCharacter_cases dialectName) ht hw hb hbre
    (fun _ => simulated_nil) nofun

lemma nonInterfering_of_aligned
    (h : Aligned ⟨rules, quoteCharacter dialectName⟩ [] (symbolsFrom template 0 placed)) :
    NonInterfering table parse rules template dialectName (symbolsFrom template 0 placed) := by
  have hdot : (quoteCharacter dialectName).2 ≠ '.' := by
    obtain heq | heq | heq := quoteCharacter_cases dialectName <;> rw [heq] <;> decide
  refine ⟨(Target.reader ⟨rules, quoteCharacter dialectName⟩).lex (symbolsFrom template 0 placed),
    texts_lex _ _, fun token => wellPlaced_of_aligned h (tracks_of_placed hplaced), ?_⟩
  intro values sql hsql
  obtain ⟨-, rfl⟩ := (execute_eq_ok hplaced).mp hsql
  exact (simulated_of_aligned hdot simulated_nil h nofun).lex

end

variable {item : Interpolation × Context}

lemma mem_symbolsFrom {position : ℕ} (hi : item ∈ placed) :
    .hole item.2 item.1.expression ∈ symbolsFrom template position placed := by
  induction placed generalizing position with
  | nil => cases hi
  | cons next placed ih =>
    rw [symbolsFrom, mem_append, mem_cons]
    obtain rfl | hi := mem_cons.mp hi
    · exact .inr (.inl rfl)
    · exact .inr (.inr (ih hi))

lemma stringEscapes_of_aligned (h : Aligned t [] symbols) (hc : context ≠ .identifier)
    (hmem : .hole context expression ∈ symbols) : t.stringEscapes = false := by
  have hliteral : ∀ expression, .hole .literal expression ∈ symbols → t.stringEscapes = false := by
    intro expression hmem
    obtain ⟨before, after, rfl⟩ := append_of_mem hmem
    obtain ⟨escapes, hstart, hescapes⟩ :=
      start_quote t.toRules (t.reader.mode ([] ++ before))
    rw [h.at.1.1] at hstart
    cases hstart
    exact hescapes rfl
  cases context with
  | literal => exact hliteral expression hmem
  | identifier => exact absurd rfl hc
  | quotedLiteralContent =>
    obtain ⟨before, after, rfl⟩ := append_of_mem hmem
    obtain ⟨⟨m, text⟩, hcur, rfl⟩ := Option.map_eq_some_iff.mp h.at.1
    have hr := t.reader.reads_current hcur
    have ht := t.reader.texts_feed none before
    rw [nil_append] at hcur
    rw [hcur, Lexer.Current.text, nil_append] at ht
    cases text with
    | nil => cases hr
    | cons first text =>
      obtain ⟨p, hr⟩ := hr
      have hq := quote?_of_extends hr rfl rfl
      cases first with
      | char c =>
        have hc := quote?_start hq rfl
        rw [eq_of_quoteOf hc rfl] at hc
        exact congrArg Quote.escapes (Option.some.inj hc)
      | hole context expression =>
        cases context with
        | literal =>
          refine hliteral expression (mem_append_left _ ?_)
          rw [← ht]
          exact mem_append_right _ mem_cons_self
        | identifier => cases congrArg Quote.kind (Option.some.inj hq)
        | quotedLiteralContent => cases hq

lemma plainQuotes_of_aligned (h : Aligned t [] symbols)
    (hmem : .hole .identifier expression ∈ symbols) : t.PlainQuotes t.quotes := by
  obtain ⟨before, after, rfl⟩ := append_of_mem hmem
  exact h.at.1.1

lemma interferes_of_stringEscapes
    (hplaced : placeInterpolations table parse template dialectName = .ok placed)
    (he : rules.stringEscapes = true) (hi : item ∈ placed)
    (hc : item.2 ≠ .identifier) :
    ¬ NonInterfering table parse rules template dialectName (symbolsFrom template 0 placed) := by
  intro h
  have hf := stringEscapes_of_aligned (aligned_of_nonInterfering hplaced h) hc (mem_symbolsFrom hi)
  rw [he] at hf
  cases hf

lemma plainQuotes_quoteCharacter : postgresRules.PlainQuotes (quoteCharacter (some "postgres")) ∧
      tsqlRules.PlainQuotes (quoteCharacter (some "mssql")) ∧
      oracleRules.PlainQuotes (quoteCharacter (some "oracle")) ∧
      mysqlRules.PlainQuotes (quoteCharacter (some "mysql")) ∧
      ¬ clickhouseRules.PlainQuotes (quoteCharacter (some "clickhouse")) := by
  unfold Rules.PlainQuotes
  decide +kernel

def asciiTable : CharTable where
  isSpace c := c = ' ' ∨ c = '\t' ∨ c = '\n' ∨ c = '\r'
  isAlnum := Char.isAlphanum
  upper c := [c.toUpper]
  isSpace_visible := by
    intro c hlow _
    rw [decide_eq_false_iff_not]
    rintro (rfl | rfl | rfl | rfl) <;> revert hlow <;> decide

def acceptAll : SqlParser := fun _ _ => .ok []

def loginTemplate : Text :=
  "SELECT * FROM t WHERE a = \x7b\x7b x \x7d\x7d AND b = \x7b\x7b y \x7d\x7d".toList

def loginPlaced : List (Interpolation × Context) :=
  [(⟨26, 33, ['x'], false⟩, .literal), (⟨42, 49, ['y'], false⟩, .literal)]

theorem clickhouse_nonInterfering_iff
    (hplaced : placeInterpolations table parse template (some "clickhouse") = .ok placed) :
    NonInterfering table parse clickhouseRules template (some "clickhouse")
      (symbolsFrom template 0 placed) ↔ placed = [] := by
  constructor
  · intro h
    cases placed with
    | nil => rfl
    | cons item placed =>
      by_cases hc : item.2 = .identifier
      · have hmem : .hole item.2 item.1.expression ∈ symbolsFrom template 0 (item :: placed) :=
          mem_symbolsFrom mem_cons_self
        rw [hc] at hmem
        exact absurd (plainQuotes_of_aligned (aligned_of_nonInterfering hplaced h) hmem)
          plainQuotes_quoteCharacter.2.2.2.2
      · exact absurd h (interferes_of_stringEscapes hplaced rfl mem_cons_self hc)
  · rintro rfl
    exact nonInterfering_of_aligned hplaced (aligned_chars _ _)

theorem clickhouse_loginTemplate :
    ¬ NonInterfering asciiTable acceptAll clickhouseRules loginTemplate (some "clickhouse")
      (symbolsFrom loginTemplate 0 loginPlaced) := by
  rw [clickhouse_nonInterfering_iff (by decide +kernel)]
  exact cons_ne_nil _ _

end Dvt.SqlTemplate
