import Dvt.SqlTemplate.Interpolations

/-! Rendering a template: values become literals, names quoted identifiers. -/

namespace Dvt.SqlTemplate

open List

/-- Texts stand for what `str` or `repr` gives. -/
inductive SqlValue
  | none
  | bool (b : Bool)
  | int (n : ℤ)
  | decimal (text : Text)
  | float (isFinite : Bool) (text : Text)
  | str (text : Text)
  | temporal (text : Text)
  | collection (isBuiltin : Bool) (items : List SqlValue) (text : Text)
  | mapping (text : Text)
  | other (typeName : String) (text : Text)

def lowered (dialectName : Option String) : String := (dialectName.getD "").toLower

def quoteCharacter (dialectName : Option String) : Char × Char :=
  if lowered dialectName ∈ ["mssql", "tsql"] then ('[', ']')
  else if lowered dialectName ∈ ["clickhouse", "mysql"] then ('`', '`')
  else ('"', '"')

def double (c : Char) (text : Text) : Text := text.flatMap fun d => if d = c then [c, c] else [d]

def quoteLiteral (text : Text) : Text := '\'' :: double '\'' text ++ ['\'']

mutual

def serializeLiteral (dialectName : Option String) : SqlValue → Except String Text
  | .none => .ok "NULL".toList
  | .bool b =>
    if lowered dialectName ∈ ["mssql", "tsql"] then .ok (if b then ['1'] else ['0'])
    else .ok (if b then "TRUE".toList else "FALSE".toList)
  | .int n => .ok (toString n).toList
  | .decimal text => .ok text
  | .float isFinite text =>
    if isFinite then .ok text
    else .error "Non-finite numbers cannot be rendered as SQL literals."
  | .str text => .ok (quoteLiteral text)
  | .temporal text => .ok (quoteLiteral text)
  | .collection _ items _ =>
    match serializeItems dialectName items with
    | .error error => .error error
    | .ok [] => .error "Empty collections cannot be rendered as SQL literals."
    | .ok texts => .ok (", ".toList.intercalate texts)
  | .mapping _ => .error "Values of type 'dict' cannot be rendered as SQL literals."
  | .other typeName _ => .error s!"Values of type '{typeName}' cannot be rendered as SQL literals."

def serializeItems (dialectName : Option String) : List SqlValue → Except String (List Text)
  | [] => .ok []
  | item :: items =>
    match serializeLiteral dialectName item with
    | .error error => .error error
    | .ok text =>
      match serializeItems dialectName items with
      | .error error => .error error
      | .ok texts => .ok (text :: texts)

end

def strOf : SqlValue → Text
  | .none => "None".toList
  | .bool b => if b then "True".toList else "False".toList
  | .int n => (toString n).toList
  | .decimal text | .float _ text | .str text | .temporal text | .collection _ _ text
  | .mapping text | .other _ text => text

def escapeQuotedContent : SqlValue → Except String Text
  | .none => .ok []
  | .mapping _ | .collection true _ _ =>
    .error "Collections and mappings cannot be rendered inside a quoted SQL literal."
  | value => .ok (double '\'' (strOf value))

def safeSegment (segment : Text) : Bool :=
  segment ≠ [] ∧ segment.all fun c => c ≠ '.' ∧ 0x20 ≤ c.toNat

def quoteSegment (quotes : Char × Char) (segment : Text) : Text :=
  quotes.1 :: double quotes.2 segment ++ [quotes.2]

def quoteIdentifier (quotes : Char × Char) (name : Text) : Text :=
  ['.'].intercalate ((name.splitOn '.').map (quoteSegment quotes))

def safeIdentifier (table : CharTable) (name : Text) : Bool :=
  table.strip name ≠ [] ∧ (name.splitOn '.').all safeSegment

def serializeIdentifier (table : CharTable) (dialectName : Option String) :
    SqlValue → Except String Text
  | .str name =>
    if table.strip name = [] then .error "SQL identifiers must be non-empty strings."
    else if (name.splitOn '.').all safeSegment then
      .ok (quoteIdentifier (quoteCharacter dialectName) name)
    else .error s!"Unsafe SQL identifier '{String.ofList name}'."
  | _ => .error "SQL identifiers must be non-empty strings."

section

structure RenderRequest where
  template : Text
  dialectName : Option String
  evaluate : Text → Except String SqlValue

variable (table : CharTable) (parse : SqlParser)

def serialize (dialectName : Option String) (value : SqlValue) : Context → Except String Text
  | .quotedLiteralContent => escapeQuotedContent value
  | .literal => serializeLiteral dialectName value
  | .identifier => serializeIdentifier table dialectName value

def placeInterpolations (template : Text) (dialectName : Option String) :
    Except String (List (Interpolation × Context)) :=
  match tokenize table template with
  | .error error => .error error
  | .ok [] => .ok []
  | .ok interpolations =>
    match classify table parse template interpolations dialectName with
    | .error error => .error error
    | .ok contexts => .ok (interpolations.zip contexts)

def renderFrom (request : RenderRequest) (position : ℕ) :
    List (Interpolation × Context) → Except String Text
  | [] => .ok (request.template.drop position)
  | (item, context) :: placed =>
    match request.evaluate item.expression with
    | .error error => .error error
    | .ok value =>
      match serialize table request.dialectName value context with
      | .error error => .error error
      | .ok chunk =>
        match renderFrom request item.stop placed with
        | .error error => .error error
        | .ok rest => .ok (slice request.template position item.start ++ chunk ++ rest)

def execute (request : RenderRequest) : Except String Text :=
  match placeInterpolations table parse request.template request.dialectName with
  | .error error => .error error
  | .ok placed => renderFrom table request 0 placed

end

inductive Symbol
  | char (c : Char)
  | hole (context : Context) (expression : Text)
  deriving DecidableEq, Repr

def symbolsFrom (template : Text) (position : ℕ) : List (Interpolation × Context) → List Symbol
  | [] => (template.drop position).map .char
  | (item, context) :: placed =>
    (slice template position item.start).map .char ++
      .hole context item.expression :: symbolsFrom template item.stop placed

def Symbol.write (quotes : Char × Char) (values : Text → Text) : Symbol → Text
  | .char c => [c]
  | .hole .literal expression => quoteLiteral (values expression)
  | .hole .identifier expression => quoteIdentifier quotes (values expression)
  | .hole .quotedLiteralContent expression => double '\'' (values expression)

def written (quotes : Char × Char) (values : Text → Text) (symbols : List Symbol) : Text :=
  symbols.flatMap (Symbol.write quotes values)

variable {table : CharTable} {template : Text} {dialectName : Option String}
  {values : Text → Text}

lemma written_append (quotes : Char × Char) (a b : List Symbol) :
    written quotes values (a ++ b) = written quotes values a ++ written quotes values b := by
  simp [written]

lemma written_chars (quotes : Char × Char) (text : Text) :
    written quotes values (text.map .char) = text := by
  induction text with
  | nil => rfl
  | cons c cs ih => simpa [written, Symbol.write] using ih

lemma serialize_str_eq_ok {context : Context} {expression chunk : Text} :
    serialize table dialectName (.str (values expression)) context = .ok chunk ↔
      (context = .identifier → safeIdentifier table (values expression)) ∧
        chunk = Symbol.write (quoteCharacter dialectName) values (.hole context expression) := by
  cases context with
  | literal =>
    simp only [serialize, serializeLiteral, Except.ok.injEq]
    exact ⟨fun h => ⟨nofun, h.symm⟩, fun h => h.2.symm⟩
  | quotedLiteralContent =>
    simp only [serialize, escapeQuotedContent, Except.ok.injEq]
    exact ⟨fun h => ⟨nofun, h.symm⟩, fun h => h.2.symm⟩
  | identifier =>
    simp only [serialize, serializeIdentifier, safeIdentifier]
    by_cases hs : table.strip (values expression) = []
    · simp [hs]
    · by_cases hsafe : ((values expression).splitOn '.').all safeSegment = true
      · simp only [hs, hsafe, if_false, if_true, Except.ok.injEq, ne_eq, not_false_eq_true,
          decide_true, imp_self, true_and]
        exact eq_comm
      · simp [hs, hsafe]

lemma renderFrom_eq_ok {position : ℕ} {placed : List (Interpolation × Context)} {sql : Text} :
    renderFrom table ⟨template, dialectName, fun expression => .ok (.str (values expression))⟩
        position placed = .ok sql ↔
      (∀ item ∈ placed, item.2 = .identifier → safeIdentifier table (values item.1.expression)) ∧
        sql = written (quoteCharacter dialectName) values (symbolsFrom template position placed) := by
  induction placed generalizing position sql with
  | nil =>
    rw [symbolsFrom, written_chars]
    exact ⟨fun h => ⟨nofun, (Except.ok.inj h).symm⟩, fun h => congrArg Except.ok h.2.symm⟩
  | cons item placed ih =>
    obtain ⟨item, context⟩ := item
    have hw : written (quoteCharacter dialectName) values
        (symbolsFrom template position ((item, context) :: placed)) =
        slice template position item.start ++ Symbol.write (quoteCharacter dialectName) values
          (.hole context item.expression) ++ written (quoteCharacter dialectName) values
            (symbolsFrom template item.stop placed) := by
      rw [symbolsFrom, written_append, written_chars, append_assoc]
      rfl
    rw [hw, renderFrom]
    dsimp only
    constructor
    · intro h
      split at h
      case h_1 => cases h
      case h_2 chunk hc =>
        split at h
        case h_1 => cases h
        case h_2 rest hr =>
          obtain ⟨hsafe, rfl⟩ := serialize_str_eq_ok.mp hc
          obtain ⟨hs, rfl⟩ := ih.mp hr
          refine ⟨?_, (Except.ok.inj h).symm⟩
          intro next hn
          obtain rfl | hn := mem_cons.mp hn
          · exact hsafe
          · exact hs next hn
    · rintro ⟨hsafe, rfl⟩
      rw [serialize_str_eq_ok.mpr ⟨hsafe (item, context) mem_cons_self, rfl⟩,
        ih.mpr ⟨fun next hn => hsafe next (mem_cons_of_mem _ hn), rfl⟩]

end Dvt.SqlTemplate
