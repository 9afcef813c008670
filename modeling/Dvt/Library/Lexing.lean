import Mathlib.Data.List.Basic

/-! Lexers that extend the current token as long as its mode allows it. -/

namespace Dvt.Library

open List

structure Token (χ κ : Type) where
  kind : κ
  text : List χ
  deriving DecidableEq, Repr

def texts {χ κ : Type} (tokens : List (Token χ κ)) : List χ := tokens.flatMap Token.text

/-- A token may start in a mode that depends on the one of the token before. -/
structure Lexer (χ μ κ : Type) where
  start : Option μ → χ → μ
  extend : μ → χ → Option μ
  kind : μ → κ

namespace Lexer

variable {χ μ κ : Type} (l : Lexer χ μ κ)

abbrev Current (χ μ : Type) := Option (μ × List χ)

def Current.text : Current χ μ → List χ
  | none => []
  | some (_, t) => t

def flush : Current χ μ → List (Token χ κ)
  | none => []
  | some (m, t) => [⟨l.kind m, t⟩]

def advance (cur : Current χ μ) (c : χ) : List (Token χ κ) × Current χ μ :=
  match cur with
  | none => ([], some (l.start none c, [c]))
  | some (m, t) =>
    match l.extend m c with
    | some m' => ([], some (m', t ++ [c]))
    | none => ([⟨l.kind m, t⟩], some (l.start (some m) c, [c]))

def feed (cur : Current χ μ) : List χ → List (Token χ κ) × Current χ μ
  | [] => ([], cur)
  | c :: cs =>
    match l.advance cur c with
    | (tokens, next) =>
      match feed next cs with
      | (tokens', last) => (tokens ++ tokens', last)

def lexFrom (cur : Current χ μ) (text : List χ) : List (Token χ κ) :=
  (l.feed cur text).1 ++ l.flush (l.feed cur text).2

def lex (text : List χ) : List (Token χ κ) := l.lexFrom none text

def feedAfter (before : Option μ) : List χ → List (Token χ κ) × Current χ μ
  | [] => ([], none)
  | c :: cs => l.feed (some (l.start before c, [c])) cs

def lexAfter (before : Option μ) (text : List χ) : List (Token χ κ) :=
  (l.feedAfter before text).1 ++ l.flush (l.feedAfter before text).2

def mode (text : List χ) : Option μ := (l.feed none text).2.map Prod.fst

def Ends (cur : Current χ μ) (text : List χ) : Prop :=
  ∀ m t c cs, cur = some (m, t) → text = c :: cs → l.extend m c = none

lemma feed_cons (cur : Current χ μ) (c : χ) (cs : List χ) :
    l.feed cur (c :: cs) = ((l.advance cur c).1 ++ (l.feed (l.advance cur c).2 cs).1,
      (l.feed (l.advance cur c).2 cs).2) := rfl

lemma feed_append (cur : Current χ μ) (a b : List χ) :
    l.feed cur (a ++ b) = ((l.feed cur a).1 ++ (l.feed (l.feed cur a).2 b).1,
      (l.feed (l.feed cur a).2 b).2) := by
  induction a generalizing cur with
  | nil => simp [feed]
  | cons c cs ih => simp [feed_cons, ih]

lemma lex_append (a b : List χ) :
    l.lex (a ++ b) = (l.feed none a).1 ++ l.lexFrom (l.feed none a).2 b := by
  simp [lex, lexFrom, feed_append]

lemma texts_append (tokens tokens' : List (Token χ κ)) :
    texts (tokens ++ tokens') = texts tokens ++ texts tokens' := by
  simp [texts]

lemma texts_advance (cur : Current χ μ) (c : χ) :
    texts (l.advance cur c).1 ++ (l.advance cur c).2.text = cur.text ++ [c] := by
  obtain _ | ⟨m, t⟩ := cur
  · rfl
  · cases h : l.extend m c <;> simp [advance, h, texts, Current.text]

lemma texts_feed (cur : Current χ μ) (text : List χ) :
    texts (l.feed cur text).1 ++ (l.feed cur text).2.text = cur.text ++ text := by
  induction text generalizing cur with
  | nil => simp [feed, texts]
  | cons c cs ih =>
    rw [feed_cons]
    rw [texts_append, append_assoc, ih, ← append_assoc, texts_advance, append_assoc,
      singleton_append]

lemma feed_of_extends {m m' : μ} {w : List χ} (t : List χ) (h : w.foldlM l.extend m = some m') :
    l.feed (some (m, t)) w = ([], some (m', t ++ w)) := by
  induction w generalizing m t with
  | nil => simp_all [feed]
  | cons c cs ih =>
    obtain ⟨n, hn, h⟩ := Option.bind_eq_some_iff.mp h
    have ha : l.advance (some (m, t)) c = ([], some (n, t ++ [c])) := by simp [advance, hn]
    rw [feed_cons, ha, ih (t ++ [c]) h]
    simp

variable {cur : Current χ μ}

lemma lex_eq_lexAfter (text : List χ) : l.lex text = l.lexAfter none text := by
  cases text <;> rfl

lemma feedAfter_append {before : Option μ} {a : List χ} {tokens : List (Token χ κ)} (ha : a ≠ [])
    (h : l.feedAfter before a = (tokens, cur)) (b : List χ) :
    l.feedAfter before (a ++ b) = (tokens ++ (l.feed cur b).1, (l.feed cur b).2) := by
  cases a with
  | nil => exact absurd rfl ha
  | cons c cs =>
    rw [feedAfter] at h
    rw [cons_append, feedAfter, feed_append, h]

lemma feed_of_ends {c : χ} {cs : List χ} (h : l.Ends cur (c :: cs)) :
    l.feed cur (c :: cs) = (l.flush cur ++ (l.feedAfter (cur.map Prod.fst) (c :: cs)).1,
      (l.feedAfter (cur.map Prod.fst) (c :: cs)).2) := by
  obtain _ | ⟨m, t⟩ := cur
  · rfl
  · have hn := h m t c cs rfl rfl
    simp [feed_cons, advance, hn, flush, feedAfter]

lemma lexFrom_of_ends {text : List χ} (h : l.Ends cur text) :
    l.lexFrom cur text = l.flush cur ++ l.lexAfter (cur.map Prod.fst) text := by
  cases text with
  | nil => simp [lexAfter, feedAfter, lexFrom, feed, flush]
  | cons c cs => simp [lexAfter, lexFrom, l.feed_of_ends h]

lemma exists_first (m : μ) (t text : List χ) :
    ∃ w rest m', text = w ++ rest ∧ w.foldlM l.extend m = some m' ∧ l.Ends (some (m', t ++ w)) rest ∧
      l.lexFrom (some (m, t)) text = ⟨l.kind m', t ++ w⟩ :: l.lexAfter (some m') rest := by
  induction text generalizing m t with
  | nil =>
    refine ⟨[], [], m, rfl, rfl, nofun, ?_⟩
    simp [lexFrom, lexAfter, feedAfter, feed, flush]
  | cons c cs ih =>
    cases he : l.extend m c with
    | none =>
      have hends : l.Ends (some (m, t)) (c :: cs) := by
        rintro m t c cs ⟨⟩ ⟨⟩
        exact he
      refine ⟨[], c :: cs, m, rfl, rfl, by simpa using hends, ?_⟩
      simp [l.lexFrom_of_ends hends, flush]
    | some n =>
      obtain ⟨w, rest, m', hcs, hw, hends, hlex⟩ := ih n (t ++ [c])
      refine ⟨c :: w, rest, m', by rw [hcs, cons_append], ?_, ?_, ?_⟩
      · rw [foldlM_cons, he]
        exact hw
      · simpa using hends
      · have ha : l.advance (some (m, t)) c = ([], some (n, t ++ [c])) := by
          simp [advance, he]
        simpa [lexFrom, feed_cons, ha] using hlex

def Reads (m : μ) : List χ → Prop
  | [] => False
  | c :: cs => ∃ before, cs.foldlM l.extend (l.start before c) = some m

variable {m : μ} {t : List χ}

lemma Reads.ne_nil (h : l.Reads m t) : t ≠ [] := by
  rintro rfl
  exact h

lemma Reads.append_singleton {m' : μ} {c : χ} (h : l.Reads m t)
    (hc : l.extend m c = some m') : l.Reads m' (t ++ [c]) := by
  cases t with
  | nil => cases h
  | cons d ds =>
    obtain ⟨before, h⟩ := h
    refine ⟨before, ?_⟩
    change (ds ++ [c]).foldlM l.extend (l.start before d) = some m'
    rw [foldlM_append, h]
    simpa using hc

lemma reads_feed {cur : Current χ μ} (hcur : ∀ m t, cur = some (m, t) → l.Reads m t)
    (text : List χ) :
    (∀ token ∈ (l.feed cur text).1, ∃ m, l.Reads m token.text ∧ l.kind m = token.kind) ∧
      ∀ m t, (l.feed cur text).2 = some (m, t) → l.Reads m t := by
  induction text generalizing cur with
  | nil => exact ⟨nofun, hcur⟩
  | cons c cs ih =>
    have hs : ∀ before, l.Reads (l.start before c) [c] := fun before => ⟨before, rfl⟩
    rw [feed_cons]
    obtain _ | ⟨m, t⟩ := cur
    · refine ih ?_
      rintro m t ⟨⟩
      exact hs none
    · cases he : l.extend m c with
      | some m' =>
        have ha : l.advance (some (m, t)) c = ([], some (m', t ++ [c])) := by
          simp [advance, he]
        rw [ha]
        refine ih ?_
        rintro n s ⟨⟩
        exact (hcur m t rfl).append_singleton l he
      | none =>
        have ha : l.advance (some (m, t)) c =
            ([⟨l.kind m, t⟩], some (l.start (some m) c, [c])) := by simp [advance, he]
        rw [ha]
        have hn : ∀ n s, (some (l.start (some m) c, [c]) : Current χ μ) = some (n, s) →
            l.Reads n s := by
          rintro n s ⟨⟩
          exact hs (some m)
        obtain ⟨htokens, hl⟩ := ih hn
        refine ⟨fun token ht => ?_, hl⟩
        obtain rfl | ht := mem_cons.mp ht
        · exact ⟨m, hcur m t rfl, rfl⟩
        · exact htokens token ht

variable {text : List χ}

lemma reads_current (h : (l.feed none text).2 = some (m, t)) :
    l.Reads m t := (l.reads_feed (by rintro m t ⟨⟩) text).2 m t h

variable {token : Token χ κ}

lemma reads_of_mem_lex (h : token ∈ l.lex text) :
    ∃ m, l.Reads m token.text ∧ l.kind m = token.kind := by
  obtain hmem | hmem := mem_append.mp h
  · exact (l.reads_feed (by rintro m t ⟨⟩) text).1 token hmem
  · cases hcur : (l.feed none text).2 with
    | none =>
      rw [hcur] at hmem
      cases hmem
    | some current =>
      rw [hcur] at hmem
      cases mem_singleton.mp hmem
      exact ⟨current.1, l.reads_current hcur, rfl⟩

lemma texts_lex (text : List χ) : texts (l.lex text) = text := by
  have h := l.texts_feed none text
  rw [lex, lexFrom]
  cases hcur : (l.feed none text).2 with
  | none | some current => simpa [hcur, Current.text, flush, texts] using h

variable {L R : List (Token χ κ)}

lemma texts_of_lex {text : List χ}
    (hlex : l.lex text = L ++ token :: R) : texts L ++ (token.text ++ texts R) = text := by
  rw [← l.texts_lex text, hlex, texts_append]
  rfl

variable {T U : List (Token χ κ)}

lemma append_inj_of_texts (h : T ++ U = L ++ R)
    (ht : texts T = texts L) (hne : ∀ token ∈ T ++ U, token.text ≠ []) : T = L ∧ U = R := by
  induction T generalizing L with
  | nil =>
    cases L with
    | nil => exact ⟨rfl, h⟩
    | cons token L =>
      have hnil := (append_eq_nil_iff.mp ht.symm).1
      exact absurd hnil (hne token (h ▸ mem_cons_self))
  | cons token T ih =>
    cases L with
    | nil => exact absurd (append_eq_nil_iff.mp ht).1 (hne token mem_cons_self)
    | cons token' L =>
      obtain ⟨rfl, htail⟩ := List.cons.inj h
      obtain ⟨rfl, rfl⟩ := ih htail (append_cancel_left ht) fun token hmem =>
        hne token (mem_cons_of_mem _ hmem)
      exact ⟨rfl, rfl⟩

variable {w : List χ}

lemma texts_ne_of_inside {t : List χ}
    (h : T ++ token :: U = L ++ R) (htok : token.text = t ++ w) (ht : t ≠ []) (hw : w ≠ []) :
    texts L ≠ texts T ++ t := by
  induction T generalizing L with
  | nil =>
    intro htex
    cases L with
    | nil => exact ht htex.symm
    | cons token' L =>
      obtain ⟨rfl, -⟩ := List.cons.inj h
      have hl := congrArg List.length htex
      have hpos := length_pos_iff.mpr hw
      simp only [texts, flatMap_cons, flatMap_nil, htok, length_append, nil_append] at hl
      omega
  | cons first T ih =>
    intro htex
    cases L with
    | nil => exact ht (append_eq_nil_iff.mp htex.symm).2
    | cons token' L =>
      obtain ⟨rfl, htail⟩ := List.cons.inj h
      refine ih htail ?_
      simpa [texts] using htex

variable {a : List χ} {c : χ} {b : List χ}

lemma exists_token_at {tokens : List (Token χ κ)} (h : texts tokens = a ++ c :: b) :
    ∃ L token R x y, tokens = L ++ token :: R ∧ token.text = x ++ c :: y ∧ a = texts L ++ x ∧
      b = y ++ texts R := by
  induction tokens generalizing a with
  | nil => simp [texts] at h
  | cons token tokens ih =>
    replace h : token.text ++ texts tokens = a ++ c :: b := h
    obtain ⟨as, ha, hr⟩ | ⟨cs, hc, hr⟩ := append_eq_append_iff.mp h
    · obtain ⟨L, token', R, x, y, rfl, ht, rfl, rfl⟩ := ih hr
      exact ⟨token :: L, token', R, x, y, rfl, ht, by simp [texts, ha], rfl⟩
    · cases cs with
      | nil =>
        obtain ⟨L, token', R, x, y, rfl, ht, hnil, rfl⟩ := ih (a := []) (by simpa using hr.symm)
        obtain ⟨hL, rfl⟩ := append_eq_nil_iff.mp hnil.symm
        refine ⟨token :: L, token', R, [], y, rfl, ht, ?_, rfl⟩
        simp [texts, hc] at hL ⊢
        exact hL
      | cons d ds =>
        obtain ⟨rfl, rfl⟩ := List.cons.inj hr
        exact ⟨[], token, tokens, a, ds, rfl, hc, rfl, rfl⟩

lemma cut_spec (h : l.lex (a ++ b) = L ++ R) (hL : texts L = a) :
    l.Ends (l.feed none a).2 b ∧ L = (l.feed none a).1 ++ l.flush (l.feed none a).2 ∧
      R = l.lexAfter (l.mode a) b := by
  have htex := l.texts_feed none a
  have hne : ∀ token ∈ l.lex (a ++ b), token.text ≠ [] := fun _ htok =>
    (l.reads_of_mem_lex htok).elim fun _ hr => hr.1.ne_nil l
  rw [l.lex_append] at h hne
  obtain hcur | ⟨m, t, hcur⟩ : (l.feed none a).2 = none ∨ ∃ m t, (l.feed none a).2 = some (m, t) := by
    obtain _ | ⟨m, t⟩ := (l.feed none a).2
    · exact .inl rfl
    · exact .inr ⟨m, t, rfl⟩
  · rw [hcur] at h hne htex
    rw [mode, hcur]
    simp only [Current.text, append_nil] at htex
    obtain ⟨hT, hU⟩ := append_inj_of_texts h (htex.trans hL.symm) hne
    exact ⟨nofun, by simp [flush, hT], hU.symm.trans (l.lex_eq_lexAfter b)⟩
  · rw [hcur] at h hne htex
    rw [mode, hcur]
    obtain ⟨w, rest, m', hb, hw, hends, hlex⟩ := l.exists_first m t b
    have ht : t ≠ [] := (l.reads_current hcur).ne_nil l
    replace htex : texts (l.feed none a).1 ++ t = a := htex
    by_cases hnil : w = []
    · subst hnil
      cases hw
      rw [append_nil] at hends hlex
      rw [hlex, ← singleton_append, ← append_assoc] at h hne
      obtain ⟨hT, hU⟩ := append_inj_of_texts h (by simpa [texts] using htex.trans hL.symm) hne
      subst hb
      exact ⟨hends, hT.symm, hU.symm⟩
    · rw [hlex] at h
      exact absurd (hL.trans htex.symm) (texts_ne_of_inside h rfl ht hnil)

variable {rest : List χ} {k : κ}

lemma first_spec {before : Option μ} (h : l.lexAfter before (c :: w ++ rest) = ⟨k, c :: w⟩ :: R) :
    ∃ m, w.foldlM l.extend (l.start before c) = some m ∧ l.kind m = k ∧
      l.Ends (some (m, c :: w)) rest := by
  obtain ⟨w', rest', m, htext, hw, hends, hlex⟩ :=
    l.exists_first (l.start before c) [c] (w ++ rest)
  have hs : l.lexAfter before (c :: w ++ rest) =
      l.lexFrom (some (l.start before c, [c])) (w ++ rest) := rfl
  rw [hs, hlex] at h
  obtain ⟨ht, -⟩ := List.cons.inj h
  obtain ⟨hk, hcw⟩ := Token.mk.inj ht
  obtain ⟨-, rfl⟩ := List.cons.inj hcw
  have hr := append_cancel_left htext
  subst hr
  exact ⟨m, hw, hk, hends⟩

variable {x : List χ}

lemma current_of_ends {m : μ} (hends : l.Ends (l.feed none a).2 (c :: x ++ rest))
    (hx : x.foldlM l.extend (l.start (l.mode a) c) = some m) :
    (l.feed none (a ++ c :: x)).2 = some (m, c :: x) := by
  have hends' : l.Ends (l.feed none a).2 (c :: x) := by
    rintro m t d ds hcur ⟨⟩
    exact hends m t c _ hcur rfl
  have hf : l.feedAfter (l.mode a) (c :: x) = ([], some (m, [c] ++ x)) := l.feed_of_extends [c] hx
  rw [feed_append, l.feed_of_ends hends', ← mode, hf]
  rfl

lemma inside_spec {y : List χ}
    (h : l.lex (a ++ (c :: x ++ (y ++ rest))) = L ++ ⟨k, c :: x ++ y⟩ :: R) (hL : texts L = a) :
    ∃ m m', l.mode (a ++ c :: x) = some m ∧ x.foldlM l.extend (l.start (l.mode a) c) = some m ∧
      y.foldlM l.extend m = some m' ∧ l.kind m' = k := by
  obtain ⟨hends, -, hR⟩ := l.cut_spec h hL
  rw [← append_assoc] at hR
  obtain ⟨m', hm', hk, -⟩ := l.first_spec hR.symm
  replace hm' : (x ++ y).foldlM l.extend (l.start (l.mode a) c) = some m' := hm'
  rw [foldlM_append] at hm'
  obtain ⟨m, hm, hy⟩ := Option.bind_eq_some_iff.mp hm'
  exact ⟨m, m', by rw [mode, l.current_of_ends hends hm, Option.map_some], hm, hy, hk⟩

end Lexer

end Dvt.Library
