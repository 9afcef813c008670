import Dvt.SqlTemplate.Dialects

/-! Where interpolations stand for the tokenizer, and where for the dialect. -/

namespace Dvt.SqlTemplate

open Library List Lexer

def flips (inSingleQuote : Bool) : Symbol → Bool
  | .char c => if c = '\'' then !inSingleQuote else inSingleQuote
  | .hole _ _ => inSingleQuote

/-- The quotes as the tokenizer counts them: quoted content stands between two of them, and none is
left open. -/
def Tracks (inSingleQuote : Bool) : List Symbol → Prop
  | [] => inSingleQuote = false
  | symbol :: symbols =>
    (∀ expression, symbol = .hole .quotedLiteralContent expression → inSingleQuote = true) ∧
      Tracks (flips inSingleQuote symbol) symbols

variable {inSingleQuote : Bool}

lemma Tracks.after {before after : List Symbol} (h : Tracks inSingleQuote (before ++ after)) :
    Tracks (before.foldl flips inSingleQuote) after := by
  induction before generalizing inSingleQuote with
  | nil => exact h
  | cons symbol before ih => exact ih h.2

variable {table : CharTable} {parse : SqlParser} {template : Text} {dialectName : Option String}
variable {index : ℕ}

lemma start_le_of_tokenizeFrom {chars : Text} {skip : ℕ} {items : List Interpolation}
    (h : tokenizeFrom table index skip inSingleQuote chars = .ok items) :
    ∀ item ∈ items, index + skip ≤ item.start := by
  induction chars generalizing index skip inSingleQuote items with
  | nil =>
    cases inSingleQuote with
    | true => cases h
    | false =>
      cases h
      exact nofun
  | cons c cs ih =>
    rw [tokenizeFrom.eq_def] at h
    dsimp only at h
    split at h
    · intro item hi
      have hs := ih h item hi
      omega
    · split_ifs at h
      · intro item hi
        have hs := ih h item hi
        omega
      · intro item hi
        have hs := ih h item hi
        omega
      · split at h
        · cases h
        · split_ifs at h
          split at h
          · cases h
          · cases h
            intro item hi
            obtain rfl | hi := mem_cons.mp hi
            · exact Nat.le_refl _
            · have hs := ih ‹_› item hi
              omega
      · intro item hi
        have hs := ih h item hi
        omega

variable {c : Char} {rest : Text}

lemma drop_succ_of_drop
    (hd : template.drop index = c :: rest) : template.drop (index + 1) = rest := by
  rw [← tail_drop, hd, tail_cons]

lemma slice_cons {stop : ℕ} (hd : template.drop index = c :: rest) (hstop : index + 1 ≤ stop) :
    slice template index stop = c :: slice template (index + 1) stop := by
  have hr := drop_succ_of_drop hd
  obtain ⟨n, hn⟩ := Nat.exists_eq_add_of_le hstop
  have hf : stop - index = n + 1 := by omega
  have hs : stop - (index + 1) = n := by omega
  rw [slice, slice, drop_take, drop_take, hd, hr, hf, hs, take_succ_cons]

variable {placed : List (Interpolation × Context)}

lemma symbolsFrom_cons (hd : template.drop index = c :: rest)
    (hs : ∀ item ∈ placed, index + 1 ≤ item.1.start) :
    symbolsFrom template index placed = .char c :: symbolsFrom template (index + 1) placed := by
  cases placed with
  | nil => rw [symbolsFrom, symbolsFrom, hd, drop_succ_of_drop hd, map_cons]
  | cons item placed =>
    rw [symbolsFrom, symbolsFrom, slice_cons hd (hs item mem_cons_self), map_cons, cons_append]

lemma slice_self (index : ℕ) : slice template index index = [] := by
  rw [slice, drop_take, Nat.sub_self, take_zero]

lemma tracks_char (hd : template.drop index = c :: rest)
    (hs : ∀ item ∈ placed.map Prod.fst, index + 1 ≤ item.start)
    (h : Tracks (flips inSingleQuote (.char c)) (symbolsFrom template (index + 1) placed)) :
    Tracks inSingleQuote (symbolsFrom template index placed) := by
  rw [symbolsFrom_cons hd fun item hi => hs item.1 (mem_map_of_mem hi)]
  exact ⟨nofun, h⟩

lemma tracks_symbolsFrom {chars : Text} {skip : ℕ} (hc : template.drop index = chars)
    (htokens : tokenizeFrom table index skip inSingleQuote chars = .ok (placed.map Prod.fst))
    (hq : ∀ item ∈ placed, item.2 = .quotedLiteralContent → item.1.isQuotedLiteralContent = true) :
    Tracks inSingleQuote (symbolsFrom template (index + skip) placed) := by
  induction chars generalizing index skip inSingleQuote placed with
  | nil =>
    have hnil : template.drop (index + skip) = [] := by rw [← drop_drop, hc, drop_nil]
    cases inSingleQuote with
    | true => cases htokens
    | false =>
      have hp := map_eq_nil_iff.mp (Except.ok.inj htokens).symm
      rw [hp, symbolsFrom, hnil]
      rfl
  | cons c cs ih =>
    have hcs := drop_succ_of_drop hc
    rw [tokenizeFrom.eq_def] at htokens
    dsimp only at htokens
    split at htokens
    case h_1 skip =>
      have ht := ih hcs htokens hq
      rwa [Nat.add_assoc, Nat.add_comm 1 skip] at ht
    case h_2 =>
      rw [Nat.add_zero]
      split_ifs at htokens with hquo hd hb
      · -- a doubled quote is two symbols, and the count is as before
        obtain ⟨-, hh⟩ := hd
        obtain ⟨d, ds, rfl⟩ : ∃ d ds, cs = d :: ds := by
          cases cs with
          | nil => cases hh
          | cons d ds => exact ⟨d, ds, rfl⟩
        cases hh
        have hle := start_le_of_tokenizeFrom htokens
        have ht := ih hcs htokens hq
        refine tracks_char hc (fun item hitem => ?_) (tracks_char hcs hle ?_)
        · have := hle item hitem
          omega
        · simpa [flips, hquo] using ht
      · have hle := start_le_of_tokenizeFrom htokens
        refine tracks_char hc hle ?_
        simpa [flips, hquo] using ih hcs htokens hq
      · split at htokens
        case h_1 => cases htokens
        case h_2 offset hclo =>
          split_ifs at htokens
          split at htokens
          case h_1 => cases htokens
          case h_2 items hi =>
            cases placed with
            | nil => cases htokens
            | cons item placed =>
              obtain ⟨item, context⟩ := item
              obtain ⟨hitem, hp⟩ := List.cons.inj (Except.ok.inj htokens)
              rw [hp] at hi
              have ht := ih hcs hi fun item hmem => hq item (mem_cons_of_mem _ hmem)
              have hcon : context = .quotedLiteralContent → item.isQuotedLiteralContent = true :=
                hq (item, context) mem_cons_self
              subst hitem
              have hstop : index + 1 + (offset + 3) = index + offset + 4 := by omega
              rw [hstop] at ht
              rw [symbolsFrom, slice_self]
              refine ⟨?_, ht⟩
              rintro expression ⟨⟩
              exact hcon rfl
      · have hle := start_le_of_tokenizeFrom htokens
        refine tracks_char hc hle ?_
        simpa [flips, hquo] using ih hcs htokens hq

lemma classifyOne_quoted {item : Interpolation}
    (h : classifyOne table template item = .ok .quotedLiteralContent) :
    item.isQuotedLiteralContent = true := by
  by_contra hq
  rw [classifyOne, if_neg hq] at h
  dsimp only at h
  split_ifs at h <;> cases h

lemma classifyItems_spec {positions : List ℕ} {items : List Interpolation} {contexts : List Context}
    (h : classifyItems table template positions items = .ok contexts) :
    (items.zip contexts).map Prod.fst = items ∧ ∀ item ∈ items.zip contexts,
      item.2 = .quotedLiteralContent → item.1.isQuotedLiteralContent = true := by
  induction items generalizing contexts with
  | nil => exact ⟨rfl, nofun⟩
  | cons item items ih =>
    rw [classifyItems] at h
    split at h
    case h_1 => cases h
    case h_2 context hc =>
      split at h
      case h_1 => cases h
      case h_2 contexts' hcon =>
        cases h
        obtain ⟨hi, hq⟩ := ih hcon
        refine ⟨by rw [zip_cons_cons, map_cons, hi], ?_⟩
        intro placed hp
        obtain rfl | hp := mem_cons.mp hp
        · rintro rfl
          split_ifs at hc
          · cases hc
          · exact classifyOne_quoted hc
        · exact hq placed hp

lemma tracks_of_placed (h : placeInterpolations table parse template dialectName = .ok placed) :
    Tracks false (symbolsFrom template 0 placed) := by
  have hs : template.drop 0 = template := rfl
  rw [placeInterpolations] at h
  split at h
  case h_1 => cases h
  case h_2 htokens =>
    cases h
    have hn : tokenizeFrom table 0 0 false template =
      .ok (([] : List (Interpolation × Context)).map Prod.fst) := htokens
    exact tracks_symbolsFrom hs hn nofun
  case h_3 items _ htokens =>
    split at h
    case h_1 => cases h
    case h_2 contexts hc =>
      cases h
      rw [classify] at hc
      split at hc
      case h_1 => cases hc
      case h_2 positions _ =>
        obtain ⟨hi, hq⟩ := classifyItems_spec hc
        rw [← hi] at htokens
        exact tracks_symbolsFrom hs htokens hq

/-- The dialect a template is written for: how its text is read, and how names are quoted in it. -/
structure Target extends Rules where
  quotes : Char × Char

section

variable (t : Target)

def Target.reader : Lexer Symbol Mode TokenKind where
  start
    | before, .char c => t.start before c
    | _, .hole .literal _ => .closed plainQuote
    | _, .hole .identifier _ => .closed ⟨t.quotes.2, false, .identifier⟩
    | _, .hole .quotedLiteralContent _ => .symbol
  extend
    | m, .char c => t.extend m c
    | .quoted q, .hole .quotedLiteralContent _ => some (.quoted q)
    | _, _ => none
  kind := Mode.kind

def Opens (mode : Option Mode) : Symbol → Prop
  | .char _ => True
  | .hole .literal _ =>
    t.start mode '\'' = .quoted plainQuote ∧ ∀ m ∈ mode, t.extend m '\'' = none
  | .hole .identifier _ =>
    t.PlainQuotes t.quotes ∧ ∀ m ∈ mode, t.extend m t.quotes.1 = none
  | .hole .quotedLiteralContent _ => mode = some (.quoted plainQuote)

def Shuts (after : List Symbol) : Symbol → Prop
  | .hole .literal _ => after.head? ≠ some (.char '\'')
  | .hole .identifier _ => after.head? ≠ some (.char t.quotes.2)
  | _ => True

def Aligned (before : List Symbol) : List Symbol → Prop
  | [] => True
  | symbol :: after =>
    (Opens t (t.reader.mode before) symbol ∧
      Shuts t after symbol) ∧ Aligned (before ++ [symbol]) after

instance decidableOpens (mode : Option Mode) : (symbol : Symbol) → Decidable (Opens t mode symbol)
  | .char _ => .isTrue trivial
  | .hole .literal _ => inferInstanceAs
      (Decidable (t.start mode '\'' = .quoted plainQuote ∧ ∀ m ∈ mode, t.extend m '\'' = none))
  | .hole .identifier _ => inferInstanceAs
      (Decidable (t.quoteOf t.quotes.1 = some ⟨t.quotes.2, false, .identifier⟩ ∧
        ∀ m ∈ mode, t.extend m t.quotes.1 = none))
  | .hole .quotedLiteralContent _ =>
    inferInstanceAs (Decidable (mode = some (.quoted plainQuote)))

instance decidableShuts (after : List Symbol) : (symbol : Symbol) → Decidable (Shuts t after symbol)
  | .char _ => .isTrue trivial
  | .hole .literal _ => inferInstanceAs (Decidable (after.head? ≠ some (.char '\'')))
  | .hole .identifier _ => inferInstanceAs (Decidable (after.head? ≠ some (.char t.quotes.2)))
  | .hole .quotedLiteralContent _ => .isTrue trivial

instance decidableAligned (before : List Symbol) :
    (symbols : List Symbol) → Decidable (Aligned t before symbols)
  | [] => .isTrue trivial
  | symbol :: after =>
    have := decidableAligned (before ++ [symbol]) after
    inferInstanceAs (Decidable ((Opens t (t.reader.mode before) symbol ∧
      Shuts t after symbol) ∧ Aligned t (before ++ [symbol]) after))

lemma Aligned.at {t : Target} {before middle after : List Symbol} {symbol : Symbol}
    (h : Aligned t before (middle ++ symbol :: after)) :
    Opens t (t.reader.mode (before ++ middle)) symbol ∧ Shuts t after symbol := by
  induction middle generalizing before with
  | nil =>
    rw [append_nil]
    exact h.1
  | cons next middle ih =>
    have hr := ih h.2
    rwa [append_assoc] at hr

lemma aligned_chars {t : Target} (before : List Symbol) (text : Text) :
    Aligned t before (text.map .char) := by
  induction text generalizing before with
  | nil => trivial
  | cons c text ih => exact ⟨⟨trivial, trivial⟩, ih _⟩

variable (quotes : Char × Char) (values : Text → Text)

def expand (token : Token Symbol TokenKind) : List (Token Char TokenKind) :=
  match token.text with
  | [.hole .identifier expression] => identifierTokens quotes (values expression)
  | text => [⟨token.kind, written quotes values text⟩]

lemma expand_of_ne {token : Token Symbol TokenKind}
    (h : ∀ expression, token.text ≠ [.hole .identifier expression]) :
    expand quotes values token = [⟨token.kind, written quotes values token.text⟩] := by
  rw [expand]
  split
  case h_1 expression heq => exact absurd heq (h expression)
  case h_2 => rfl

lemma texts_expand (token : Token Symbol TokenKind) :
    texts (expand quotes values token) = written quotes values token.text := by
  rw [expand]
  split
  case h_1 expression heq =>
    rw [heq, identifierTokens, texts_segmentTokens]
    simp [written, Symbol.write, quoteIdentifier]
  case h_2 => simp [texts]

lemma texts_flatMap_expand (tokens : List (Token Symbol TokenKind)) :
    texts (tokens.flatMap (expand quotes values)) = written quotes values (texts tokens) := by
  induction tokens with
  | nil => rfl
  | cons token tokens ih =>
    have ht : texts (token :: tokens) = token.text ++ texts tokens := rfl
    rw [flatMap_cons, texts_append, texts_expand, ih, ht, written_append]

end

variable {t : Target} {values : Text → Text}

/-- The token read in the template against the one in the written text: the last identifier of a name
comes after the tokens of its other parts. -/
inductive Simulates (t : Target) (values : Text → Text) :
    Lexer.Current Symbol Mode → List (Token Char TokenKind) → Lexer.Current Char Mode → Prop
  | none : Simulates t values none [] none
  | text {m : Mode} {symbols : List Symbol}
    (hname : ∀ expression, symbols ≠ [.hole .identifier expression]) :
    Simulates t values (some (m, symbols)) [] (some (m, written t.quotes values symbols))
  | name {expression : Text} {tokens : List (Token Char TokenKind)} {last : Text}
    (htokens : identifierTokens t.quotes (values expression) = tokens ++ [⟨.identifier, last⟩]) :
    Simulates t values
      (some (.closed ⟨t.quotes.2, false, .identifier⟩, [.hole .identifier expression])) tokens
      (some (.closed ⟨t.quotes.2, false, .identifier⟩, last))

def Simulated (t : Target) (values : Text → Text) (before : List Symbol) : Prop :=
  ∃ tokens, (t.lexer.feed none (written t.quotes values before)).1 =
      (t.reader.feed none before).1.flatMap (expand t.quotes values) ++ tokens ∧
    Simulates t values (t.reader.feed none before).2 tokens
      (t.lexer.feed none (written t.quotes values before)).2

lemma simulated_nil : Simulated t values [] := ⟨[], rfl, .none⟩

variable {tokens : List (Token Char TokenKind)} {cur : Lexer.Current Char Mode}

lemma Simulates.flush {cur' : Lexer.Current Symbol Mode} (h : Simulates t values cur' tokens cur) :
    (t.reader.flush cur').flatMap (expand t.quotes values) = tokens ++ t.lexer.flush cur := by
  cases h with
  | none => rfl
  | text hname =>
    simp only [flush, flatMap_cons]
    rw [expand_of_ne t.quotes values hname]
    rfl
  | name htokens =>
    simp only [flush, flatMap_cons, flatMap_nil, append_nil]
    exact htokens

lemma Simulates.mode {cur' : Lexer.Current Symbol Mode}
    (h : Simulates t values cur' tokens cur) : cur.map Prod.fst = cur'.map Prod.fst := by
  cases h <;> rfl

variable {before : List Symbol}

lemma Simulated.mode (h : Simulated t values before) :
    t.lexer.mode (written t.quotes values before) = t.reader.mode before := by
  obtain ⟨tokens, -, hsim⟩ := h
  exact hsim.mode

variable {symbol : Symbol}

lemma Simulated.start {c : Char} {rest : Text} (h : Simulated t values before)
    (hwri : Symbol.write t.quotes values symbol = c :: rest)
    (hends : ∀ m, t.reader.mode before = some m → t.extend m c = none)
    (hends' : ∀ m, t.reader.mode before = some m → t.reader.extend m symbol = none)
    (hf : t.lexer.feedAfter (t.reader.mode before) (c :: rest) = (tokens, cur))
    (hsta : Simulates t values (some (t.reader.start
      (t.reader.mode before) symbol, [symbol])) tokens cur) : Simulated t values (before ++ [symbol]) := by
  have hmode := h.mode
  obtain ⟨extra, htokens, hsim⟩ := h
  have hs : t.reader.Ends
      (t.reader.feed none before).2 [symbol] := by
    rintro m t d ds hcur ⟨⟩
    exact hends' m (by rw [Lexer.mode, hcur, Option.map_some])
  have hc : t.lexer.Ends (t.lexer.feed none (written t.quotes values before)).2
      (c :: rest) := by
    rintro m t d ds hcur ⟨⟩
    refine hends m ?_
    rw [← hmode, Lexer.mode, hcur, Option.map_some]
  rw [← hmode, Lexer.mode] at hf
  have hw : written t.quotes values [symbol] = c :: rest := by
    simpa [written] using hwri
  refine ⟨tokens, ?_, ?_⟩
  · rw [written_append, hw, feed_append, feed_append,
      t.reader.feed_of_ends hs, t.lexer.feed_of_ends hc, hf]
    simp only [Lexer.feedAfter, Lexer.feed, append_nil, flatMap_append]
    rw [htokens, hsim.flush]
    simp only [append_assoc]
  · rw [written_append, hw, Lexer.feed_append, Lexer.feed_append,
      t.reader.feed_of_ends hs, t.lexer.feed_of_ends hc, hf]
    exact hsta

lemma Simulated.extend {m m' : Mode} (h : Simulated t values before)
    (hmode : t.reader.mode before = some m)
    (hname : ∀ expression, (t.reader.feed none before).2 ≠
      some (m, [.hole .identifier expression]))
    (hsym : t.reader.extend m symbol = some m')
    (hw : (Symbol.write t.quotes values symbol).foldlM t.extend m = some m') :
    Simulated t values (before ++ [symbol]) := by
  obtain ⟨extra, htokens, hsim⟩ := h
  obtain ⟨symbols, hcur⟩ : ∃ symbols, (t.reader.feed none before).2 = some (m, symbols) := by
    rw [Lexer.mode, Option.map_eq_some_iff] at hmode
    obtain ⟨⟨n, symbols⟩, hcur, rfl⟩ := hmode
    exact ⟨symbols, hcur⟩
  have hne : symbols ≠ [] := (t.reader.reads_current hcur).ne_nil _
  have hs : written t.quotes values [symbol] = Symbol.write t.quotes values symbol := by
    simp [written]
  have hf' : t.reader.feed (some (m, symbols)) [symbol] = ([], some (m', symbols ++ [symbol])) := by
    refine t.reader.feed_of_extends symbols ?_
    simpa using hsym
  rw [hcur] at hsim
  generalize ha : (t.lexer.feed none (written t.quotes values before)).2 = cur at hsim
  cases hsim with
  | text hsymb =>
    have hf := t.lexer.feed_of_extends (written t.quotes values symbols) hw
    refine ⟨[], ?_, ?_⟩
    · rw [written_append, hs, feed_append, feed_append, hcur, ha, hf, hf', htokens]
      simp
    · rw [written_append, hs, feed_append, feed_append, hcur, ha, hf, hf']
      rw [← hs, ← written_append]
      refine .text fun expression hname' => hne ?_
      have hl := congrArg List.length hname'
      rw [length_append, length_singleton, length_singleton] at hl
      exact length_eq_zero_iff.mp (by omega)
  | name hi => exact absurd hcur (hname _)

lemma quoteIdentifier_eq_cons (quotes : Char × Char) (name : Text) :
    ∃ rest, quoteIdentifier quotes name = quotes.1 :: rest := by
  rw [quoteIdentifier]
  obtain ⟨segment, segments, hs⟩ :=
    exists_cons_of_ne_nil (splitOn_ne_nil '.' name)
  cases segments <;> simp [hs, quoteSegment]

lemma extend_value_hole {context : Context} (hc : context ≠ .quotedLiteralContent) (m : Mode)
    (expression : Text) :
    t.reader.extend m (.hole context expression) = none := by
  cases context with
  | literal | identifier => cases m <;> rfl
  | quotedLiteralContent => exact absurd rfl hc

lemma mode_of_name {m : Mode} {expression : Text}
    (h : (t.reader.feed none before).2 = some (m, [.hole .identifier expression])) :
    m = .closed ⟨t.quotes.2, false, .identifier⟩ ∧
      before.getLast? = some (.hole .identifier expression) := by
  obtain ⟨_, hr⟩ := t.reader.reads_current h
  have ht := t.reader.texts_feed none before
  rw [h] at ht
  replace ht : texts (t.reader.feed none before).1 ++
    [.hole .identifier expression] = before := ht
  exact ⟨(Option.some.inj hr).symm, by rw [← ht, List.getLast?_concat]⟩

lemma Simulated.step (hdot : t.quotes.2 ≠ '.') (h : Simulated t values before)
    (ho : Opens t (t.reader.mode before) symbol)
    (hshut : ∀ expression, before.getLast? = some (.hole .identifier expression) →
      symbol ≠ .char t.quotes.2) : Simulated t values (before ++ [symbol]) := by
  cases symbol with
  | char c =>
    have hs : ∀ m : Mode, Simulates t values (some (m, [.char c])) [] (some (m, [c])) :=
      fun m => .text (by rintro name ⟨⟩)
    cases hmode : t.reader.mode before with
    | none => exact h.start rfl (by simp [hmode]) (by simp [hmode]) rfl (hs _)
    | some m =>
      cases he : t.extend m c with
      | none =>
        have hends : ∀ n, t.reader.mode before = some n → t.extend n c = none := by
          intro n hn
          cases hmode.symm.trans hn
          exact he
        exact h.start rfl hends hends rfl (hs _)
      | some m' =>
        refine h.extend hmode (fun expression hcur => ?_) he (by simpa [Symbol.write] using he)
        obtain ⟨rfl, hl⟩ := mode_of_name hcur
        replace he : (if c = t.quotes.2 then some (Mode.quoted ⟨t.quotes.2, false, .identifier⟩)
          else none) = some m' := he
        split_ifs at he with hc
        exact hshut expression hl (congrArg Symbol.char hc)
  | hole context expression =>
    cases context with
    | literal =>
      obtain ⟨hplain, hends⟩ := ho
      have hf : t.lexer.feedAfter _ (quoteLiteral (values expression)) =
          ([], some (.closed plainQuote, quoteLiteral (values expression))) :=
        feed_quoted t.toRules hplain rfl (values expression)
      refine h.start rfl hends (fun m _ => extend_value_hole (by decide) m expression) hf ?_
      have hw : written t.quotes values [.hole .literal expression] =
          quoteLiteral (values expression) := by simp [written, Symbol.write]
      rw [← hw]
      exact .text (by rintro name ⟨⟩)
    | identifier =>
      obtain ⟨hq, hends⟩ := ho
      obtain ⟨tokens, last, htokens, hf⟩ :=
        feed_quoteIdentifier t.toRules hq hdot (values expression) _
      obtain ⟨rest, hr⟩ := quoteIdentifier_eq_cons t.quotes (values expression)
      rw [hr] at hf
      exact h.start hr hends (fun m _ => extend_value_hole (by decide) m expression) hf
        (.name htokens)
    | quotedLiteralContent =>
      refine h.extend ho (fun expression' hcur => ?_) rfl
        (extends_double t.toRules (q := plainQuote) rfl (values expression))
      cases (mode_of_name hcur).1

lemma simulated_of_aligned {after : List Symbol} (hdot : t.quotes.2 ≠ '.')
    (h : Simulated t values before) (ha : Aligned t before after)
    (hshut : ∀ expression, before.getLast? = some (.hole .identifier expression) →
      after.head? ≠ some (.char t.quotes.2)) : Simulated t values (before ++ after) := by
  induction after generalizing before with
  | nil => simpa using h
  | cons symbol after ih =>
    obtain ⟨⟨ho, hs⟩, hr⟩ := ha
    have hstep := h.step hdot ho fun expression hl heq =>
      hshut expression hl (congrArg some heq)
    have hn := ih hstep hr (by
      intro expression hl
      rw [List.getLast?_concat] at hl
      cases hl
      exact hs)
    rwa [append_assoc] at hn

lemma Simulated.lex {symbols : List Symbol} (h : Simulated t values symbols) :
    t.lexer.lex (written t.quotes values symbols) =
      (t.reader.lex symbols).flatMap (expand t.quotes values) := by
  obtain ⟨tokens, htokens, hsim⟩ := h
  rw [Lexer.lex, Lexer.lexFrom, Lexer.lex, Lexer.lexFrom, flatMap_append, hsim.flush,
    htokens, append_assoc]

end Dvt.SqlTemplate
