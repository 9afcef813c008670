import Dvt.Library.Lines
import Dvt.Library.Segments

/-! The paths of a JSON document: what is written for tokens, and what is read back. -/

namespace Dvt.Json

open Library List

abbrev Text := List Char

def arrayItemToken : Text := ['[', ']']

def replaceChar (old : Char) (new : Text) (text : Text) : Text :=
  text.flatMap fun c => if c = old then new else [c]

def replacePair (first second new : Char) : Text → Text
  | c :: d :: text =>
    if c = first ∧ d = second then new :: replacePair first second new text
    else c :: replacePair first second new (d :: text)
  | text => text

def encodePointerToken (token : Text) : Text :=
  replaceChar '/' ['~', '1'] (replaceChar '~' ['~', '0'] token)

def decodePointerToken (token : Text) : Text :=
  replacePair '~' '0' '~' (replacePair '~' '1' '/' token)

def flush (buffer : Text) : List Text := if buffer = [] then [] else [buffer]

def displayTokens (buffer : Text) : Text → List Text
  | [] => flush buffer
  | '[' :: ']' :: '.' :: text => flush buffer ++ arrayItemToken :: displayTokens [] text
  | '[' :: ']' :: text => flush buffer ++ arrayItemToken :: displayTokens [] text
  | '.' :: text => flush buffer ++ displayTokens [] text
  | c :: text => displayTokens (buffer ++ [c]) text

def parseDisplayPath (path : Text) (allowRootPrefix : Bool) : List Text :=
  let rawPath := stripSpace path
  let rawPath := if allowRootPrefix ∧ rawPath.head? = some '$' then rawPath.tail else rawPath
  (displayTokens [] (rawPath.dropWhile (· = '.'))).filter (· ≠ [])

def parseJsonPath : Option Text → List Text
  | none => []
  | some path =>
    let rawPath := stripSpace path
    if rawPath = [] ∨ rawPath = ['$'] ∨ rawPath = ['/'] then []
    else if rawPath.head? = some '$' then parseDisplayPath rawPath true
    else if rawPath.head? = some '/' then
      ((rawPath.splitOn '/').tail.filter (· ≠ [])).map fun part =>
        if part = arrayItemToken then arrayItemToken else decodePointerToken part
    else parseDisplayPath rawPath false

def buildMachineJsonPath (tokens : List Text) : Text :=
  if tokens = [] then ['/']
  else '/' :: joinSegments '/' (tokens.map fun token =>
    if token = arrayItemToken then arrayItemToken else encodePointerToken token)

def normalizeJsonPath (path : Option Text) : Text := buildMachineJsonPath (parseJsonPath path)

variable {c : Char} {token text : Text} {tokens init : List Text}

lemma replacePair_cons {first second new : Char} (h : c ≠ first) :
    replacePair first second new (c :: text) = c :: replacePair first second new text := by
  cases text <;> simp [replacePair, h]

lemma encodePointerToken_cons : encodePointerToken (c :: token) =
    (if c = '~' then ['~', '0'] else if c = '/' then ['~', '1'] else [c]) ++
      encodePointerToken token := by
  by_cases h : c = '~' <;> by_cases h' : c = '/' <;>
    simp [encodePointerToken, replaceChar, h, h']

lemma decode_encode (token : Text) : decodePointerToken (encodePointerToken token) = token := by
  have hs : replacePair '~' '1' '/' (encodePointerToken token) =
      replaceChar '~' ['~', '0'] token := by
    induction token with
    | nil => rfl
    | cons c token ih =>
      rw [encodePointerToken_cons]
      by_cases h : c = '~' <;> by_cases h' : c = '/' <;>
        simp_all [replaceChar, replacePair, replacePair_cons]
  rw [decodePointerToken, hs]
  clear hs
  induction token with
  | nil => rfl
  | cons c token ih =>
    by_cases h : c = '~' <;> simp_all [replaceChar, replacePair, replacePair_cons]

lemma slash_notMem_encode (token : Text) : '/' ∉ encodePointerToken token := by
  simp only [encodePointerToken, replaceChar, mem_flatMap, not_exists, not_and]
  intro c _
  split_ifs with h
  · decide
  · simpa using Ne.symm h

lemma encode_eq_nil : encodePointerToken token = [] ↔ token = [] := by
  constructor
  · intro h
    rw [← decode_encode token, h]
    rfl
  · rintro rfl
    rfl

lemma rdropWhile_encode (token : Text) : (encodePointerToken token).rdropWhile isSpace =
    encodePointerToken (token.rdropWhile isSpace) := by
  induction token using reverseRecOn with
  | nil => rfl
  | append_singleton token c ih =>
    have hl : encodePointerToken (token ++ [c]) =
        encodePointerToken token ++ encodePointerToken [c] := by
      simp [encodePointerToken, replaceChar]
    by_cases hs : isSpace c
    · have hc : encodePointerToken [c] = [c] := by
        by_cases h : c = '~' <;> by_cases h' : c = '/' <;>
          simp_all [encodePointerToken, replaceChar]
        all_goals exact absurd hs (by decide)
      rw [hl, hc, rdropWhile_concat_pos _ _ _ hs, rdropWhile_concat_pos _ _ _ hs, ih]
    · have hc : ∀ d ∈ (encodePointerToken [c]).getLast?, ¬ isSpace d := by
        by_cases h : c = '~' <;> by_cases h' : c = '/' <;>
          simp_all [encodePointerToken, replaceChar]
        all_goals decide
      rw [rdropWhile_concat_neg _ _ _ hs, rdropWhile_eq_self_iff, hl]
      intro hne
      refine hc _ ?_
      rw [getLast_append_of_ne_nil _ (by simp [encode_eq_nil])]
      exact getLast?_eq_getLast_of_ne_nil _

lemma build_eq (tokens : List Text) :
    buildMachineJsonPath tokens = '/' :: joinSegments '/' (tokens.map encodePointerToken) := by
  have hi : ∀ token : Text, (if token = arrayItemToken then arrayItemToken
      else encodePointerToken token) = encodePointerToken token := by
    intro token
    split_ifs with h
    · subst h
      rfl
    · rfl
  rw [buildMachineJsonPath]
  split_ifs with h
  · simp [h, joinSegments]
  · simp [hi]

lemma rdropWhile_append_cons {p : Char → Bool} (hc : ¬ p c) (front text : Text) :
    (front ++ c :: text).rdropWhile p = front ++ c :: text.rdropWhile p := by
  induction text using reverseRecOn with
  | nil => exact rdropWhile_concat_neg _ _ _ hc
  | append_singleton text d ih =>
    rw [← cons_append, ← append_assoc]
    by_cases hd : p d
    · rw [rdropWhile_concat_pos _ _ _ hd, rdropWhile_concat_pos _ _ _ hd, ih]
    · rw [rdropWhile_concat_neg _ _ _ hd, rdropWhile_concat_neg _ _ _ hd]
      simp

lemma strip_build (init : List Text) (token : Text) :
    stripSpace (buildMachineJsonPath (init ++ [token])) =
      buildMachineJsonPath (init ++ [token.rdropWhile isSpace]) := by
  obtain ⟨front, hf⟩ : ∃ front, ∀ last : Text,
      '/' :: joinSegments '/' (init.map encodePointerToken ++ [last]) = front ++ '/' :: last := by
    cases init with
    | nil => exact ⟨[], fun last => by simp [joinSegments]⟩
    | cons first init =>
      refine ⟨'/' :: joinSegments '/' ((first :: init).map encodePointerToken), fun last => ?_⟩
      rw [joinSegments_append (by simp) (by simp)]
      simp [joinSegments]
  rw [build_eq, build_eq, map_append, map_append, map_singleton, map_singleton,
    hf, ← rdropWhile_encode, hf, ← rdropWhile_append_cons (by decide), ← hf]
  rfl

lemma splitOn_build (h : tokens ≠ []) :
    (buildMachineJsonPath tokens).splitOn '/' = [] :: tokens.map encodePointerToken := by
  rw [build_eq, ← nil_append ('/' :: _), splitOn_append_cons, splitOn_joinSegments (by simpa)]
  · rfl
  · exact forall_mem_map.mpr fun token _ => slash_notMem_encode token

lemma parse_of_strip {path : Text} (h : stripSpace path = buildMachineJsonPath tokens)
    (hne : tokens ≠ []) : parseJsonPath (some path) = tokens.filter (· ≠ []) := by
  have hp : parseJsonPath (some path) =
      (((buildMachineJsonPath tokens).splitOn '/').tail.filter (· ≠ [])).map fun part =>
        if part = arrayItemToken then arrayItemToken else decodePointerToken part := by
    rw [build_eq] at h ⊢
    cases ht : joinSegments '/' (tokens.map encodePointerToken) with
    | nil =>
      simp only [parseJsonPath, h, ht]
      rfl
    | cons c text => simp [parseJsonPath, h, ht]
  have hi : ∀ token : Text, (if encodePointerToken token = arrayItemToken then arrayItemToken
      else decodePointerToken (encodePointerToken token)) = token := by
    intro token
    split_ifs with hi
    · rw [← decode_encode token, hi]
      rfl
    · exact decode_encode token
  simp [hp, splitOn_build hne, filter_map, Function.comp_def, encode_eq_nil, hi]

def Readable (tokens : List Text) : Prop :=
  [] ∉ tokens ∧ ∀ token ∈ tokens.getLast?, ∀ c ∈ token.getLast?, ¬ isSpace c

lemma parse_build_iff :
    parseJsonPath (some (buildMachineJsonPath tokens)) = tokens ↔ Readable tokens := by
  obtain rfl | ⟨init, token, rfl⟩ := eq_nil_or_concat' tokens
  · exact iff_of_true rfl (by simp [Readable])
  · rw [parse_of_strip (strip_build init token) (by simp), Readable, getLast?_concat]
    constructor
    · intro h
      have hself := filter_sublist.eq_of_length (by rw [h]; simp)
      have hs : token.rdropWhile isSpace = token := by simpa using hself.symm.trans h
      rw [hs, filter_eq_self] at hself
      refine ⟨fun hnil => of_decide_eq_true (hself [] hnil) rfl, ?_⟩
      rintro _ ⟨⟩ c hc
      have hne : token ≠ [] := by
        rintro rfl
        cases hc
      rw [getLast?_eq_getLast_of_ne_nil hne, Option.mem_some_iff] at hc
      exact hc ▸ rdropWhile_eq_self_iff.mp hs hne
    · rintro ⟨hne, hl⟩
      have hs : token.rdropWhile isSpace = token :=
        rdropWhile_eq_self_iff.mpr fun hn => hl _ rfl _ (getLast?_eq_getLast_of_ne_nil hn)
      rw [hs, filter_eq_self]
      exact fun t ht => decide_eq_true fun hnil => hne (hnil ▸ ht)

lemma build_inj {others : List Text} (hne : tokens ≠ []) (ho : others ≠ [])
    (h : buildMachineJsonPath tokens = buildMachineJsonPath others) : tokens = others := by
  have hs := congrArg (splitOn '/') h
  rw [splitOn_build hne, splitOn_build ho, cons_inj_right] at hs
  exact (Function.LeftInverse.injective decode_encode).list_map hs

lemma build_eq_root : buildMachineJsonPath tokens = ['/'] ↔ tokens = [] ∨ tokens = [[]] := by
  constructor
  · intro h
    by_cases hne : tokens = []
    · exact .inl hne
    · exact .inr (build_inj hne (by simp) h)
  · rintro (rfl | rfl) <;> rfl

lemma replacePair_eq_nil {first second new : Char} :
    replacePair first second new text = [] ↔ text = [] := by
  match text with
  | [] | [_] => simp [replacePair]
  | c :: d :: text =>
    rw [replacePair]
    split_ifs <;> simp

lemma nil_notMem_parse (path : Option Text) : [] ∉ parseJsonPath path := by
  cases path with
  | none => simp [parseJsonPath]
  | some path =>
    simp only [parseJsonPath]
    split_ifs
    · simp
    · simp [parseDisplayPath]
    · simp only [mem_map, not_exists, not_and, mem_filter]
      rintro part ⟨_, hne⟩
      split_ifs
      · decide
      · simpa [decodePointerToken, replacePair_eq_nil] using hne
    · simp [parseDisplayPath]

theorem machine_paths_iff (tokens others : List Text) (path : Option Text) :
    (parseJsonPath (some (buildMachineJsonPath tokens)) = tokens ↔ Readable tokens) ∧
    ((tokens ≠ others → buildMachineJsonPath tokens ≠ buildMachineJsonPath others) ↔
      ¬ (tokens = [] ∧ others = [[]] ∨ tokens = [[]] ∧ others = [])) ∧
    (normalizeJsonPath (some (normalizeJsonPath path)) = normalizeJsonPath path ↔
      Readable (parseJsonPath path)) := by
  refine ⟨parse_build_iff, ?_, ?_⟩
  · have hroot : buildMachineJsonPath [] = ['/'] := rfl
    have hinj := @build_inj tokens others
    grind [build_eq_root]
  · rw [← parse_build_iff, normalizeJsonPath, normalizeJsonPath]
    refine ⟨fun h => ?_, congrArg _⟩
    by_cases hne : parseJsonPath path = []
    · rw [hne]
      rfl
    · refine build_inj (fun hnil => ?_) hne h
      rw [hnil] at h
      obtain hpath | hpath := build_eq_root.mp h.symm
      · exact hne hpath
      · exact nil_notMem_parse path (hpath ▸ mem_singleton_self _)

theorem spaced_key_not_read :
    parseJsonPath (some (buildMachineJsonPath ["a ".toList])) = ["a".toList] ∧
      parseJsonPath (some (buildMachineJsonPath [[]])) = [] ∧
      normalizeJsonPath (some "/a /".toList) = "/a ".toList ∧
      normalizeJsonPath (some "/a ".toList) = "/a".toList := by
  decide +kernel

end Dvt.Json
