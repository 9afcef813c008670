import Dvt.Library.Folds
import Dvt.Library.Lines

/-! The rules for parsed SQL: what a policy accepts, and what an accepted statement holds. -/

namespace Dvt.SqlPolicy

open Library List

variable {u : Unit}

def upper (name : String) : String := String.ofList (name.toList.map Char.toUpper)

/-- Any other class of trees; its name is not that of the class of `SELECT`. -/
structure OtherClass where
  key : String
  ne_select : upper key ≠ "SELECT"
  deriving DecidableEq

/-- The classes of trees that the rules tell apart; the first five are queries. -/
inductive ExpressionClass
  | select | union | except | intersect | subquery
  | insert | update | delete | merge | create | alter | drop | truncateTable
  | other (cls : OtherClass)
  deriving DecidableEq

namespace ExpressionClass

def isQuery : ExpressionClass → Bool
  | select | union | except | intersect | subquery => true
  | _ => false

def key : ExpressionClass → String
  | select => "select"
  | union => "union"
  | except => "except"
  | intersect => "intersect"
  | subquery => "subquery"
  | insert => "insert"
  | update => "update"
  | delete => "delete"
  | merge => "merge"
  | create => "create"
  | alter => "alter"
  | drop => "drop"
  | truncateTable => "truncatetable"
  | other cls => cls.key

def writes : ExpressionClass → Bool
  | insert | update | delete | merge | create | alter | drop | truncateTable => true
  | _ => false

lemma writes_of_isQuery {cls : ExpressionClass} (h : cls.isQuery = true) : cls.writes = false := by
  cases cls with
  | select | union | except | intersect | subquery => rfl
  | _ => cases h

end ExpressionClass

inductive Expression
  | node (cls : ExpressionClass) (args : List (String × Expression))

namespace Expression

def cls : Expression → ExpressionClass
  | node cls _ => cls

def args : Expression → List (String × Expression)
  | node _ args => args

def arg (e : Expression) (name : String) : Option Expression :=
  (e.args.find? fun entry => entry.1 = name).map Prod.snd

inductive Occurs (node : Expression) : Expression → Prop
  | root : Occurs node node
  | inside {tree : Expression} {entry : String × Expression} (hentry : entry ∈ tree.args)
      (h : Occurs node entry.2) : Occurs node tree

def OccursBelow (node tree : Expression) : Prop := ∃ entry ∈ tree.args, Occurs node entry.2

lemma occurs_iff {node tree : Expression} : Occurs node tree ↔ node = tree ∨ OccursBelow node tree := by
  constructor
  · intro h
    cases h with
    | root => exact .inl rfl
    | inside hentry h => exact .inr ⟨_, hentry, h⟩
  · rintro (rfl | ⟨entry, hentry, h⟩)
    · exact .root
    · exact .inside hentry h

end Expression

inductive SQLStatementCategory
  | readOnly | dataMutating | ddl | execution | unknown
  deriving DecidableEq

structure SQLStatementMetadata where
  statementType : String
  category : SQLStatementCategory
  returnsData : Bool
  isQueryExpression : Bool

structure SQLCodeMetadata where
  statements : List SQLStatementMetadata
  statementCount : ℕ
  resultStatementCount : ℕ
  dialectName : Option String

/-- The sets of types are normalized: stripped, in upper case and not empty. -/
structure SQLValidationPolicy where
  forbidDdlStatements : Bool := false
  forbidDataMutatingStatements : Bool := false
  allowMultipleStatements : Bool := true
  allowMultipleResultStatements : Bool := false
  requireResultStatement : Bool := false
  requireSingleResultStatement : Bool := false
  validateParseability : Bool := true
  allowedStatementTypes : Option (List String) := none
  forbiddenStatementTypes : Option (List String) := none
  no_overlap : ∀ allowed, allowedStatementTypes = some allowed → ∀ forbidden,
    forbiddenStatementTypes = some forbidden → ∀ type ∈ allowed, type ∉ forbidden

inductive SQLError
  | validation (message : String)
  | metadata (message : String)

/-- sqlglot, and the two case mappings of strings. -/
structure SQLGlot where
  parse : String → Option String → Option (List Expression)
  render : Expression → Option String → Option String
  lower : String → String
  upper : String → String

def ddlStatementTypes : List String := ["ALTER", "CREATE", "DROP", "RENAME", "TRUNCATE"]

def dataMutatingStatementTypes : List String := ["DELETE", "INSERT", "MERGE", "UPDATE"]

def executionStatementTypes : List String := ["CALL", "COMMAND", "EXEC", "EXECUTE"]

def resolveStatementType (e : Expression) : String :=
  if e.cls.isQuery then "SELECT" else upper e.cls.key

def resolveCategory (e : Expression) (statementType : String) : SQLStatementCategory :=
  if e.cls.isQuery then .readOnly
  else if statementType ∈ dataMutatingStatementTypes then .dataMutating
  else if statementType ∈ ddlStatementTypes then .ddl
  else if statementType ∈ executionStatementTypes then .execution
  else .unknown

def returnsData (e : Expression) : Bool :=
  e.cls.isQuery || (e.arg "returning").any fun returning =>
    (returning.arg "expressions").isSome || (returning.arg "into").isSome

def classifyStatement (e : Expression) : SQLStatementMetadata where
  statementType := resolveStatementType e
  category := resolveCategory e (resolveStatementType e)
  returnsData := returnsData e
  isQueryExpression := e.cls.isQuery

variable {e : Expression}

lemma resolveStatementType_eq_select_iff :
    resolveStatementType e = "SELECT" ↔ e.cls.isQuery = true := by
  rw [resolveStatementType]
  split
  · next h => exact ⟨fun _ => h, fun _ => rfl⟩
  · next h =>
    refine ⟨fun hkey => absurd hkey ?_, fun hq => absurd hq h⟩
    cases hcls : e.cls with
    | select | union | except | intersect | subquery => exact absurd (by rw [hcls]; rfl) h
    | insert | update | delete | merge | create | alter | drop | truncateTable => decide +kernel
    | other cls => exact cls.ne_select

lemma classifyStatement_query (h : e.cls.isQuery = true) :
    classifyStatement e = ⟨"SELECT", .readOnly, true, true⟩ := by
  simp [classifyStatement, resolveStatementType, resolveCategory, returnsData, h]

section

def refuse (message : Option String) : Except SQLError Unit :=
  message.elim (.ok ()) fun message => .error (.validation message)

lemma refuse_eq_ok {message : Option String} : refuse message = .ok u ↔ message = none := by
  cases message <;> simp [refuse]

def syntaxErrorMessage : String := "SQL contains syntax errors."

variable (sqlglot : SQLGlot)

def dialectSaToSg : List (String × String) :=
  [("postgresql", "postgres"), ("mssql", "tsql"), ("sqlserver", "tsql"), ("mariadb", "mysql")]

def SQLGlot.getSqlglotDialect (saDialectName : String) : String :=
  (dialectSaToSg.lookup (sqlglot.lower saDialectName)).getD (sqlglot.lower saDialectName)

def SQLGlot.resolveDialectName (dialectName : Option String) : Option String :=
  dialectName.bind fun name =>
    let normalizedName := sqlglot.lower (String.ofList (stripSpace name.toList))
    if normalizedName = "" then none else some (sqlglot.getSqlglotDialect normalizedName)

def SQLGlot.firstToken (sql : String) : Option String :=
  match sql.toList.dropWhile isSpace with
  | [] => none
  | normalizedSql => some (sqlglot.upper (String.ofList (normalizedSql.takeWhile (!isSpace ·))))

def unexpectedCommandFallback (sql : String) (expressions : List Expression) : Bool :=
  (sqlglot.firstToken sql).any (fun token => token ∈ ddlStatementTypes ++ dataMutatingStatementTypes ++
      ["SELECT", "WITH"]) &&
    expressions.any fun e => upper e.cls.key = "COMMAND"

def parseSql (sql : String) (dialectName : Option String) :
    Except SQLError (List SQLStatementMetadata) := do
  let dialect := sqlglot.resolveDialectName dialectName
  match sqlglot.parse sql dialect with
  | none => .error (.validation syntaxErrorMessage)
  | some expressions =>
    refuse (if unexpectedCommandFallback sqlglot sql expressions then some syntaxErrorMessage else none)
    if expressions.all fun e => (sqlglot.render e dialect).isSome then
      .ok (expressions.map classifyStatement)
    else .error (.metadata "Failed to render SQL statement after parsing.")

def notAllowed (statement : SQLStatementMetadata) : String :=
  "SQL statement type '" ++ statement.statementType ++ "' is not allowed."

def messageIf (condition : Bool) (message : String) : Option String :=
  if condition then some message else none

def validateReport (report : SQLCodeMetadata) (policy : SQLValidationPolicy) : Except SQLError Unit := do
  refuse (messageIf (!policy.allowMultipleStatements && 1 < report.statementCount)
    "Multiple SQL statements are not allowed.")
  refuse (messageIf (!policy.allowMultipleResultStatements && 1 < report.resultStatementCount)
    "Multiple result-returning statements are not allowed.")
  refuse (policy.allowedStatementTypes.bind fun allowed =>
    (report.statements.find? fun statement => statement.statementType ∉ allowed).map notAllowed)
  refuse (policy.forbiddenStatementTypes.bind fun forbidden =>
    (report.statements.find? fun statement => statement.statementType ∈ forbidden).map notAllowed)
  refuse (messageIf (policy.forbidDdlStatements &&
    report.statements.any fun statement => statement.category = .ddl) "DDL statements are forbidden.")
  refuse (messageIf (policy.forbidDataMutatingStatements &&
    report.statements.any fun statement => statement.category = .dataMutating)
    "Data mutating statements are forbidden.")
  refuse (messageIf (policy.requireResultStatement && report.resultStatementCount = 0)
    "A result-returning statement is required.")
  refuse (messageIf (policy.requireSingleResultStatement && report.resultStatementCount ≠ 1)
    "Exactly one result-returning statement is required.")

def needsStructuralAnalysis (policy : SQLValidationPolicy) : Bool :=
  policy.validateParseability || !policy.allowMultipleStatements ||
    !policy.allowMultipleResultStatements || policy.requireResultStatement ||
    policy.requireSingleResultStatement || policy.forbidDdlStatements ||
    policy.forbidDataMutatingStatements || policy.allowedStatementTypes.isSome ||
    policy.forbiddenStatementTypes.isSome

def execute (sql : String) (policy : SQLValidationPolicy) (dialectName : Option String) :
    Except SQLError (Option SQLCodeMetadata) :=
  if needsStructuralAnalysis policy then do
    let statements ← parseSql sqlglot sql dialectName
    let report : SQLCodeMetadata :=
      { statements
        statementCount := statements.length
        resultStatementCount := statements.countP SQLStatementMetadata.returnsData
        dialectName := sqlglot.resolveDialectName dialectName }
    validateReport report policy
    return some report
  else .ok none

end

variable {sqlglot : SQLGlot} {sql : String} {policy : SQLValidationPolicy}
  {dialectName : Option String} {expressions : List Expression}

structure ReadOnlyPolicy (policy : SQLValidationPolicy) : Prop where
  ddl : policy.forbidDdlStatements = true
  dataMutating : policy.forbidDataMutatingStatements = true
  allowed : policy.allowedStatementTypes = some ["SELECT"]

structure CountAllowed (policy : SQLValidationPolicy) (count : ℕ) : Prop where
  multiple : 1 < count →
    policy.allowMultipleStatements = true ∧ policy.allowMultipleResultStatements = true
  result : policy.requireResultStatement = true → count ≠ 0
  single : policy.requireSingleResultStatement = true → count = 1

structure RootsPass (sqlglot : SQLGlot) (policy : SQLValidationPolicy) (dialectName : Option String)
    (expressions : List Expression) : Prop where
  query : ∀ e ∈ expressions, e.cls.isQuery = true
  rendered : ∀ e ∈ expressions, (sqlglot.render e (sqlglot.resolveDialectName dialectName)).isSome = true
  count : CountAllowed policy expressions.length

lemma messageIf_eq_none {condition : Bool} {message : String} :
    messageIf condition message = none ↔ condition = false := by
  cases condition <;> simp [messageIf]

lemma not_imp_decide_iff {allowed : Bool} {p : Prop} [Decidable p] :
    ((!allowed) = true → decide p = false) ↔ (p → allowed = true) := by
  cases allowed <;> simp

lemma validateReport_eq_ok {report : SQLCodeMetadata} : validateReport report policy = .ok u ↔
      (1 < report.statementCount → policy.allowMultipleStatements = true) ∧
      (1 < report.resultStatementCount → policy.allowMultipleResultStatements = true) ∧
      (∀ allowed, policy.allowedStatementTypes = some allowed → ∀ statement ∈ report.statements,
        statement.statementType ∈ allowed) ∧
      (∀ forbidden, policy.forbiddenStatementTypes = some forbidden →
        ∀ statement ∈ report.statements, statement.statementType ∉ forbidden) ∧
      (policy.forbidDdlStatements = true → ∀ statement ∈ report.statements,
        statement.category ≠ .ddl) ∧
      (policy.forbidDataMutatingStatements = true → ∀ statement ∈ report.statements,
        statement.category ≠ .dataMutating) ∧
      (policy.requireResultStatement = true → report.resultStatementCount ≠ 0) ∧
      (policy.requireSingleResultStatement = true → report.resultStatementCount = 1) := by
  simp only [validateReport, bind_eq_ok, refuse_eq_ok, messageIf_eq_none, exists_const,
    Bool.and_eq_false_imp]
  rw [not_imp_decide_iff, not_imp_decide_iff]
  simp

lemma countP_returnsData (h : ∀ e ∈ expressions, e.cls.isQuery = true) :
    (expressions.map classifyStatement).countP SQLStatementMetadata.returnsData =
      expressions.length := by
  rw [countP_map, countP_eq_length]
  intro e he
  rw [Function.comp_apply, classifyStatement_query (h e he)]

lemma execute_ok_iff (hpolicy : ReadOnlyPolicy policy)
    (hparse : sqlglot.parse sql (sqlglot.resolveDialectName dialectName) = some expressions) :
    (∃ report, execute sqlglot sql policy dialectName = .ok report) ↔
      RootsPass sqlglot policy dialectName expressions := by
  have hn : needsStructuralAnalysis policy = true := by
    simp [needsStructuralAnalysis, hpolicy.ddl]
  rw [execute, if_pos hn]
  constructor
  · rintro ⟨report, h⟩
    obtain ⟨statements, hsta, h⟩ := bind_eq_ok.mp h
    obtain ⟨_, hv, -⟩ := bind_eq_ok.mp h
    rw [parseSql, hparse] at hsta
    obtain ⟨_, -, hsta⟩ := bind_eq_ok.mp hsta
    split at hsta
    · next hr =>
      cases hsta
      obtain ⟨hm, hres, ha, -, -, -, hresult, hsin⟩ :=
        validateReport_eq_ok.mp hv
      have hq : ∀ e ∈ expressions, e.cls.isQuery = true := by
        intro e he
        have ht := ha _ hpolicy.allowed _ (mem_map_of_mem he)
        exact resolveStatementType_eq_select_iff.mp (mem_singleton.mp ht)
      rw [countP_returnsData hq] at hres hresult hsin
      rw [length_map] at hm
      refine ⟨hq, all_eq_true.mp hr, ?_⟩
      exact ⟨fun h => ⟨hm h, hres h⟩, hresult, hsin⟩
    · cases hsta
  · rintro ⟨hq, hr, hc⟩
    have hsta : parseSql sqlglot sql dialectName = .ok (expressions.map classifyStatement) := by
      have hfal : unexpectedCommandFallback sqlglot sql expressions = false := by
        rw [unexpectedCommandFallback, Bool.and_eq_false_iff]
        refine .inr (any_eq_false.mpr fun e he => ?_)
        have hcls := hq e he
        cases hkey : e.cls with
        | select | union | except | intersect | subquery => decide +kernel
        | _ => rw [hkey] at hcls; cases hcls
      rw [parseSql, hparse]
      dsimp only
      rw [hfal, if_pos (all_eq_true.mpr hr)]
      rfl
    refine ⟨_, bind_eq_ok.mpr ⟨_, hsta, bind_eq_ok.mpr ⟨(), ?_, rfl⟩⟩⟩
    have hclass : ∀ statement ∈ expressions.map classifyStatement,
        statement = ⟨"SELECT", .readOnly, true, true⟩ := by
      intro statement hs
      obtain ⟨e, he, rfl⟩ := mem_map.mp hs
      exact classifyStatement_query (hq e he)
    rw [validateReport_eq_ok, countP_returnsData hq, length_map]
    refine ⟨fun h => (hc.multiple h).1, fun h => (hc.multiple h).2, ?_, ?_, ?_, ?_,
      hc.result, hc.single⟩
    · intro allowed ha statement hs
      obtain rfl := Option.some.inj (hpolicy.allowed.symm.trans ha)
      rw [hclass statement hs]
      exact mem_singleton.mpr rfl
    · intro forbidden hf statement hs
      rw [hclass statement hs]
      exact policy.no_overlap _ hpolicy.allowed _ hf _ (mem_singleton.mpr rfl)
    · intro _ statement hs
      rw [hclass statement hs]
      decide
    · intro _ statement hs
      rw [hclass statement hs]
      decide

def Forbidden (e : Expression) : Prop := e.cls.writes = true

def Sound (sqlglot : SQLGlot) (sql : String) (policy : SQLValidationPolicy)
    (dialectName : Option String) (expressions : List Expression) : Prop :=
  (∃ report, execute sqlglot sql policy dialectName = .ok report) →
    ∀ e ∈ expressions, ∀ node, Expression.Occurs node e → ¬ Forbidden node

theorem sound_iff (hpolicy : ReadOnlyPolicy policy)
    (hparse : sqlglot.parse sql (sqlglot.resolveDialectName dialectName) = some expressions) :
    Sound sqlglot sql policy dialectName expressions ↔
      (∀ e ∈ expressions, ∀ node, Expression.OccursBelow node e → ¬ Forbidden node) ∨
        ¬ RootsPass sqlglot policy dialectName expressions := by
  rw [Sound, execute_ok_iff hpolicy hparse]
  constructor
  · intro h
    by_cases hroots : RootsPass sqlglot policy dialectName expressions
    · refine .inl fun e he node hnode => ?_
      exact h hroots e he node (Expression.occurs_iff.mpr (.inr hnode))
    · exact .inr hroots
  · rintro (hbelow | hroots) hpass e he node hnode
    · obtain rfl | hnode := Expression.occurs_iff.mp hnode
      · intro hwrites
        rw [Forbidden, ExpressionClass.writes_of_isQuery (hpass.query node he)] at hwrites
        cases hwrites
      · exact hbelow e he node hnode
    · exact absurd hpass hroots

/-- What sqlglot gives for one text, which it renders as it is. -/
def sampleGlot (sql : String) (tree : Expression) : SQLGlot where
  parse text _ := if text = sql then some [tree] else none
  render _ _ := some sql
  lower name := String.ofList (name.toList.map Char.toLower)
  upper := upper

def samplePolicy : SQLValidationPolicy where
  forbidDdlStatements := true
  forbidDataMutatingStatements := true
  allowedStatementTypes := some ["SELECT"]
  no_overlap := by simp

lemma readOnly_samplePolicy : ReadOnlyPolicy samplePolicy := ⟨rfl, rfl, rfl⟩

def sampleClause (key : String) (args : List (String × Expression))
    (h : upper key ≠ "SELECT" := by decide +kernel) : Expression := .node (.other ⟨key, h⟩) args

def sampleName : Expression := sampleClause "identifier" []

def sampleColumn : Expression := sampleClause "column" [("this", sampleName)]

def sampleTable : Expression := sampleClause "table" [("this", sampleName)]

def sampleRead : List (String × Expression) :=
  [("expressions", sampleColumn), ("from_", sampleClause "from" [("this", sampleTable)])]

def sampleWith (body : Expression) : Expression :=
  .node .select (sampleRead ++ [("with_", sampleClause "with" [("expressions",
    sampleClause "cte" [("this", body), ("alias", sampleClause "tablealias" [("this", sampleName)])])])])

def sampleInsert : Expression :=
  .node .insert [("this", sampleTable),
    ("expression", sampleClause "values" [("expressions",
      sampleClause "tuple" [("expressions", sampleClause "literal" [])])]),
    ("returning", sampleClause "returning" [("expressions", sampleColumn)])]

def readSql : String := "WITH t AS (SELECT id FROM x) SELECT id FROM t"

def insertSql : String := "WITH t AS (INSERT INTO x VALUES (1) RETURNING id) SELECT id FROM t"

lemma rootsPass_sampleWith (sql : String) (body : Expression) :
    RootsPass (sampleGlot sql (sampleWith body)) samplePolicy (some "postgresql") [sampleWith body] :=
  ⟨by simp [sampleWith, Expression.cls, ExpressionClass.isQuery], by simp [sampleGlot],
    ⟨by simp, by simp [samplePolicy], by simp [samplePolicy]⟩⟩

lemma forall_occurs_node {P : Expression → Prop} {cls : ExpressionClass}
    {args : List (String × Expression)} :
    (∀ node, Expression.Occurs node (.node cls args) → P node) ↔
      P (.node cls args) ∧ ∀ entry ∈ args, ∀ node, Expression.Occurs node entry.2 → P node := by
  constructor
  · intro h
    exact ⟨h _ .root, fun entry hentry node hnode => h node (.inside hentry hnode)⟩
  · rintro ⟨hroot, hbelow⟩ node hnode
    obtain rfl | ⟨entry, hentry, hnode⟩ := Expression.occurs_iff.mp hnode
    · exact hroot
    · exact hbelow entry hentry node hnode

theorem sound_readSql :
    (∃ report, execute (sampleGlot readSql (sampleWith (.node .select sampleRead))) readSql
      samplePolicy (some "postgresql") = .ok report) ∧
    Sound (sampleGlot readSql (sampleWith (.node .select sampleRead))) readSql samplePolicy
      (some "postgresql") [sampleWith (.node .select sampleRead)] := by
  refine ⟨(execute_ok_iff readOnly_samplePolicy rfl).mpr (rootsPass_sampleWith _ _), ?_⟩
  refine (sound_iff readOnly_samplePolicy rfl).mpr (.inl fun e he node hnode => ?_)
  obtain rfl := mem_singleton.mp he
  have hclean : ∀ node, Expression.Occurs node (sampleWith (.node .select sampleRead)) →
      ¬ Forbidden node := by
    simp [sampleWith, sampleRead, sampleClause, sampleColumn, sampleTable, sampleName,
      forall_occurs_node, Forbidden, Expression.cls, ExpressionClass.writes]
  exact hclean node (Expression.occurs_iff.mpr (.inr hnode))

theorem not_sound_with : ¬ Sound (sampleGlot insertSql (sampleWith sampleInsert)) insertSql
    samplePolicy (some "postgresql") [sampleWith sampleInsert] := by
  intro h
  refine h ((execute_ok_iff readOnly_samplePolicy rfl).mpr (rootsPass_sampleWith _ _))
    (sampleWith sampleInsert) (mem_singleton.mpr rfl) sampleInsert ?_ rfl
  exact .inside (mem_append_right _ (mem_singleton.mpr rfl))
    (.inside (mem_singleton.mpr rfl) (.inside mem_cons_self .root))

end Dvt.SqlPolicy
