import Minilang.Analysis.Expression
import Minilang.Proofs.Analysis.Growth

/-!
# Typing of analyzed programs

`Ast.HasType` gives the type that an expression has by its form and by the types of its operands. In a
sound program every expression has the type that is written at it, and everything that a node refers to is
older than the node.
-/

namespace Minilang

namespace BinaryOperator

/-- Whether an operator computes a number from two numbers. -/
def isArithmetic : BinaryOperator → Bool
  | add | sub | mul | div | rem => true
  | _ => false

/-- Whether an operator works on the bits of integers. -/
def isBitwise : BinaryOperator → Bool
  | and | or | xor | shl | shr => true
  | _ => false

end BinaryOperator

namespace ExprKind

/-- The expressions that an expression is built from, from left to right. -/
def operands : ExprKind → List ExprId
  | bool _ | int _ | float _ | char _ | name _ => []
  | unary _ operand | cast operand | convert _ operand => [operand]
  | binary _ left right => [left, right]
  | call callee arguments => callee :: arguments
  | index base arguments => base :: arguments
  | assign target value => [target, value]
  | conditional guard whenTrue whenFalse => [guard, whenTrue, whenFalse]

end ExprKind

namespace Stmt

/-- The expressions that a statement evaluates itself. -/
def expressions : Stmt → List ExprId
  | whenTrue guard _ | ifElse guard _ _ | whileTrue guard _ => [guard]
  | returnValue value => [value]
  | expression value => [value]
  | block _ | breakLoop _ | continueLoop _ | declaration _ => []

/-- The statements that a statement is built from. -/
def children : Stmt → List StmtId
  | block statements => statements
  | whenTrue _ body | whileTrue _ body => [body]
  | ifElse _ first second => [first, second]
  | breakLoop _ | continueLoop _ | returnValue _ | declaration _ | expression _ => []

/-- The declaration that a statement puts in place. -/
def declared? : Stmt → Option DeclId
  | declaration declared => some declared
  | _ => none

end Stmt

namespace Conversion

/-- The types between which a conversion of values leads. -/
inductive Leads : Conversion → Ty → Ty → Prop
  | charToBool : Leads .toBool .char .bool
  | intToBool : Leads .toBool .int .bool
  | floatToBool : Leads .toBool .float .bool
  | intToChar : Leads .toChar .int .char
  | boolToInt : Leads .toInt .bool .int
  | charToInt : Leads .toInt .char .int
  | floatToInt : Leads .truncate .float .int
  | intToFloat : Leads .toFloat .int .float

theorem leads_of_between? {source : Ty} {target : BasicType} {conversion : Conversion}
    (found : between? source target = some conversion) :
    Leads conversion source (Ty.ofBasic target) := by
  cases source <;> cases target <;> cases found <;> constructor

end Conversion

namespace Ast

/-- The type that a form of expression has in a program. -/
inductive HasType (ast : Ast) : ExprKind → Ty → Prop
  | bool (value : Bool) : HasType ast (.bool value) .bool
  | int (value : Int32) : HasType ast (.int value) .int
  | float (value : Binary64) : HasType ast (.float value) .float
  | char (value : UInt8) : HasType ast (.char value) .char
  /-- Names of variables and parameters designate their storage. -/
  | variable {declaration : DeclId} {type : Ty} :
      (ast.kindOf declaration).isVariable = true →
      (ast.kindOf declaration).type? = some type →
      HasType ast (.name declaration) type.referenceTo
  /-- Other names have the declared type, and constants are used behind their initializers only. -/
  | name {declaration : DeclId} {type : Ty} :
      (ast.kindOf declaration).isVariable = false →
      (ast.kindOf declaration).type? = some type →
      ((ast.kindOf declaration).isConstant = true →
        ∃ initializer, (ast.kindOf declaration).initializer? = some initializer) →
      HasType ast (.name declaration) type
  | bitNot {operand : ExprId} : ast.typeOf operand = .int → HasType ast (.unary .bitNot operand) .int
  | logicalNot {operand : ExprId} :
      ast.typeOf operand = .bool → HasType ast (.unary .logicalNot operand) .bool
  | arithmetic {operator : BinaryOperator} {left right : ExprId} {type : Ty} :
      operator.isArithmetic = true → type.isArithmetic = true →
      ast.typeOf left = type → ast.typeOf right = type →
      HasType ast (.binary operator left right) type
  | bitwise {operator : BinaryOperator} {left right : ExprId} :
      operator.isBitwise = true → ast.typeOf left = .int → ast.typeOf right = .int →
      HasType ast (.binary operator left right) .int
  | logical {operator : BinaryOperator} {left right : ExprId} :
      operator.isLogical = true → ast.typeOf left = .bool → ast.typeOf right = .bool →
      HasType ast (.binary operator left right) .bool
  | comparison {operator : BinaryOperator} {left right : ExprId} {type : Ty} :
      operator.isComparison = true → type.isScalar = true →
      ast.typeOf left = type → ast.typeOf right = type →
      HasType ast (.binary operator left right) .bool
  | call {callee : ExprId} {arguments : List ExprId} {result : Ty} {parameters : List Ty} :
      ast.typeOf callee = .function result parameters →
      arguments.map ast.typeOf = parameters →
      HasType ast (.call callee arguments) result
  | cast {operand : ExprId} {type : Ty} : ast.typeOf operand = type → HasType ast (.cast operand) type
  | assign {target value : ExprId} {object : Ty} :
      ast.typeOf target = .reference object → ast.typeOf value = object →
      HasType ast (.assign target value) (.reference object)
  | conditional {guard whenTrue whenFalse : ExprId} {type : Ty} :
      ast.typeOf guard = .bool → ast.typeOf whenTrue = type → ast.typeOf whenFalse = type →
      HasType ast (.conditional guard whenTrue whenFalse) type
  | load {operand : ExprId} {object : Ty} :
      ast.typeOf operand = .reference object → HasType ast (.convert .load operand) object
  | convert {conversion : Conversion} {operand : ExprId} {type : Ty} :
      conversion.Leads (ast.typeOf operand) type → HasType ast (.convert conversion operand) type

/-- Types stay the same as a program grows. -/
theorem HasType.extends {before after : Ast} {kind : ExprKind} {type : Ty}
    (typed : before.HasType kind type)
    (operands_lt : ∀ operand ∈ kind.operands, operand.index < before.exprs.size)
    (extends' : before.Extends after) : after.HasType kind type := by
  have same {operand : ExprId} (member : operand ∈ kind.operands) :
      after.typeOf operand = before.typeOf operand :=
    extends'.typeOf_eq (operands_lt operand member)
  cases typed with
  | bool | int | float | char => constructor
  | «variable» isVariable declared =>
      have completes := extends'.completes _ (index_lt_of_type? declared)
      exact .variable (completes.isVariable_eq.trans isVariable) (extends'.type?_eq declared)
  | name isVariable declared initialized =>
      have completes := extends'.completes _ (index_lt_of_type? declared)
      refine .name (completes.isVariable_eq.trans isVariable) (extends'.type?_eq declared) ?_
      intro isConstant
      obtain ⟨initializer, found⟩ := initialized (completes.isConstant_eq ▸ isConstant)
      exact ⟨initializer, completes.initializer?_eq found⟩
  | bitNot operand => exact .bitNot ((same (by simp [ExprKind.operands])).trans operand)
  | logicalNot operand => exact .logicalNot ((same (by simp [ExprKind.operands])).trans operand)
  | arithmetic isArithmetic number left right =>
      exact .arithmetic isArithmetic number ((same (by simp [ExprKind.operands])).trans left)
        ((same (by simp [ExprKind.operands])).trans right)
  | bitwise isBitwise left right =>
      exact .bitwise isBitwise ((same (by simp [ExprKind.operands])).trans left)
        ((same (by simp [ExprKind.operands])).trans right)
  | logical isLogical left right =>
      exact .logical isLogical ((same (by simp [ExprKind.operands])).trans left)
        ((same (by simp [ExprKind.operands])).trans right)
  | comparison isComparison scalar left right =>
      exact .comparison isComparison scalar ((same (by simp [ExprKind.operands])).trans left)
        ((same (by simp [ExprKind.operands])).trans right)
  | call callee arguments =>
      refine .call ((same (by simp [ExprKind.operands])).trans callee) ?_
      rw [← arguments]
      exact List.map_congr_left fun argument member =>
        same (by simp [ExprKind.operands, member])
  | cast operand => exact .cast ((same (by simp [ExprKind.operands])).trans operand)
  | assign target value =>
      exact .assign ((same (by simp [ExprKind.operands])).trans target)
        ((same (by simp [ExprKind.operands])).trans value)
  | conditional guard whenTrue whenFalse =>
      exact .conditional ((same (by simp [ExprKind.operands])).trans guard)
        ((same (by simp [ExprKind.operands])).trans whenTrue)
        ((same (by simp [ExprKind.operands])).trans whenFalse)
  | load operand => exact .load ((same (by simp [ExprKind.operands])).trans operand)
  | convert leads =>
      refine .convert ?_
      rw [same (by simp [ExprKind.operands])]
      exact leads

/-- What a name leads to is declared with a type, and with an initializer if it is a constant. -/
theorem HasType.of_name {ast : Ast} {declaration : DeclId} {type : Ty}
    (typed : ast.HasType (.name declaration) type) :
    (∃ declared, (ast.kindOf declaration).type? = some declared) ∧
      ((ast.kindOf declaration).isConstant = true →
        ∃ initializer, (ast.kindOf declaration).initializer? = some initializer) := by
  generalize form : ExprKind.name declaration = kind at typed
  cases typed with
  | «variable» isVariable declared =>
      cases form
      refine ⟨⟨_, declared⟩, fun isConstant => ?_⟩
      cases introduced : ast.kindOf declaration with
      | object objectKind =>
          cases objectKind <;> simp_all [DeclKind.isVariable, DeclKind.isConstant]
      | parameter | function | program => simp_all [DeclKind.isConstant]
  | name _ declared initialized =>
      cases form
      exact ⟨⟨_, declared⟩, initialized⟩
  | _ => cases form

/-- What a new expression may be built from: older expressions, and constants with older initializers. -/
structure Grounded (ast : Ast) (kind : ExprKind) (bound : Nat) : Prop where
  /-- Operands are older. -/
  operand_lt : ∀ operand ∈ kind.operands, operand.index < bound
  /-- Initializers of named constants are older. -/
  initializer_lt : ∀ declaration initializer, kind = .name declaration →
    (ast.kindOf declaration).isConstant = true →
    (ast.kindOf declaration).initializer? = some initializer → initializer.index < bound

/-- What a statement has to do with the types of its expressions. -/
structure StmtTyped (ast : Ast) (stmt : Stmt) : Prop where
  /-- Guards are truth values. -/
  guard : ∀ guard, (∃ body, stmt = .whenTrue guard body) ∨
    (∃ whenTrue whenFalse, stmt = .ifElse guard whenTrue whenFalse) ∨
    (∃ body, stmt = .whileTrue guard body) → ast.typeOf guard = .bool
  /-- Returned values have the result type of a function. -/
  returned : ∀ value, stmt = .returnValue value →
    ∃ function parameters, (ast.kindOf function).type? =
      some (.function (ast.typeOf value) parameters)
  /-- The expressions of the statement are there. -/
  expression_lt : ∀ expression ∈ stmt.expressions, expression.index < ast.exprs.size
  /-- The declaration that the statement puts in place is there. -/
  declared_lt : ∀ declaration, stmt.declared? = some declaration →
    declaration.index < ast.decls.size

/-- A guarded statement is typed if its guard is a truth value. -/
theorem StmtTyped.of_guard {ast : Ast} {stmt : Stmt} {guard : ExprId}
    (guarded : stmt.expressions = [guard]) (notReturn : ∀ value, stmt ≠ .returnValue value)
    (undeclared : stmt.declared? = none) (guard_type : ast.typeOf guard = .bool)
    (guard_lt : guard.index < ast.exprs.size) : ast.StmtTyped stmt where
  guard other form := by
    have member : other ∈ stmt.expressions := by
      obtain ⟨body, rfl⟩ | ⟨whenTrue, whenFalse, rfl⟩ | ⟨body, rfl⟩ := form <;>
        simp [Stmt.expressions]
    rw [guarded, List.mem_singleton] at member
    rw [member, guard_type]
  returned value form := absurd form (notReturn value)
  expression_lt expression member := by
    rw [guarded, List.mem_singleton] at member
    rw [member]
    exact guard_lt
  declared_lt declaration declared := by
    rw [undeclared] at declared
    cases declared

/-- A statement without guard and returned value has to be built from what is there. -/
theorem StmtTyped.of_unguarded {ast : Ast} {stmt : Stmt}
    (unguarded : ∀ guard, ¬((∃ body, stmt = .whenTrue guard body) ∨
      (∃ whenTrue whenFalse, stmt = .ifElse guard whenTrue whenFalse) ∨
      (∃ body, stmt = .whileTrue guard body)))
    (notReturn : ∀ value, stmt ≠ .returnValue value)
    (expression_lt : ∀ expression ∈ stmt.expressions, expression.index < ast.exprs.size)
    (declared_lt : ∀ declaration, stmt.declared? = some declaration →
      declaration.index < ast.decls.size) : ast.StmtTyped stmt where
  guard guard form := absurd form (unguarded guard)
  returned value form := absurd form (notReturn value)
  expression_lt := expression_lt
  declared_lt := declared_lt

theorem StmtTyped.extends {before after : Ast} {stmt : Stmt} (typed : before.StmtTyped stmt)
    (extends' : before.Extends after) : after.StmtTyped stmt where
  guard guard form := by
    have guard_mem : guard ∈ stmt.expressions := by
      obtain ⟨body, rfl⟩ | ⟨whenTrue, whenFalse, rfl⟩ | ⟨body, rfl⟩ := form <;>
        simp [Stmt.expressions]
    rw [extends'.typeOf_eq (typed.expression_lt guard guard_mem), typed.guard guard form]
  returned value form := by
    obtain ⟨function, parameters, declared⟩ := typed.returned value form
    have value_mem : value ∈ stmt.expressions := by simp [form, Stmt.expressions]
    rw [extends'.typeOf_eq (typed.expression_lt value value_mem)]
    exact ⟨function, parameters, extends'.type?_eq declared⟩
  expression_lt expression member :=
    (typed.expression_lt expression member).trans_le extends'.exprs_le
  declared_lt declaration declared :=
    (typed.declared_lt declaration declared).trans_le extends'.decls_le

/-- A program whose nodes are typed and refer to older nodes only. -/
structure Sound (ast : Ast) : Prop where
  /-- Every expression has its type. -/
  expr_typed (id : ExprId) : id.index < ast.exprs.size →
    ast.HasType (ast.expr id).kind (ast.typeOf id)
  /-- Every expression is built from older ones. -/
  expr_grounded (id : ExprId) : id.index < ast.exprs.size →
    ast.Grounded (ast.expr id).kind id.index
  /-- Every statement is typed. -/
  stmt_typed (id : StmtId) : id.index < ast.stmts.size → ast.StmtTyped (ast.stmt id)
  /-- Every statement is built from older ones. -/
  child_lt (id : StmtId) : id.index < ast.stmts.size →
    ∀ child ∈ (ast.stmt id).children, child.index < id.index
  /-- Initializers are there and have the declared type. -/
  initializer_typed (id : DeclId) (initializer : ExprId) :
    (ast.kindOf id).initializer? = some initializer →
    initializer.index < ast.exprs.size ∧ (ast.kindOf id).type? = some (ast.typeOf initializer)

namespace Sound

variable {ast : Ast}

theorem empty : Sound .empty where
  expr_typed _ bound := absurd bound (Nat.not_lt_zero _)
  expr_grounded _ bound := absurd bound (Nat.not_lt_zero _)
  stmt_typed _ bound := absurd bound (Nat.not_lt_zero _)
  child_lt _ bound := absurd bound (Nat.not_lt_zero _)
  initializer_typed _ _ initialized := by
    simp [kindOf, decl, Ast.empty, noDecl, DeclKind.initializer?] at initialized

/-- A typed expression of older ones can be added. -/
theorem addExpr (sound : ast.Sound) {kind : ExprKind} {type : Ty} (typed : ast.HasType kind type)
    (operand_lt : ∀ operand ∈ kind.operands, operand.index < ast.exprs.size)
    (location : Location) : (ast.addExpr ⟨kind, type, location⟩).2.Sound := by
  have extends' := Extends.addExpr ast ⟨kind, type, location⟩
  have size_eq : (ast.addExpr ⟨kind, type, location⟩).2.exprs.size = ast.exprs.size + 1 := by
    simp [Ast.addExpr]
  have added {id : ExprId} (last : id.index = ast.exprs.size) :
      (ast.addExpr ⟨kind, type, location⟩).2.expr id = ⟨kind, type, location⟩ := by
    rw [show id = (ast.addExpr ⟨kind, type, location⟩).1 by cases id; simp_all [Ast.addExpr]]
    exact expr_addExpr_self ..
  refine ⟨fun id bound => ?_, fun id bound => ?_, fun id bound => ?_, sound.child_lt,
    fun id initializer initialized => ?_⟩
  · rw [size_eq] at bound
    obtain earlier | last := Nat.lt_succ_iff_lt_or_eq.1 bound
    · rw [typeOf, expr_addExpr_of_lt earlier]
      exact (sound.expr_typed id earlier).extends (sound.expr_grounded id earlier |>.operand_lt
        · · |>.trans earlier) extends'
    · rw [typeOf, added last]
      exact typed.extends operand_lt extends'
  · rw [size_eq] at bound
    obtain earlier | last := Nat.lt_succ_iff_lt_or_eq.1 bound
    · rw [expr_addExpr_of_lt earlier]
      exact ⟨(sound.expr_grounded id earlier).operand_lt,
        (sound.expr_grounded id earlier).initializer_lt⟩
    · rw [added last, last]
      exact ⟨operand_lt, fun declaration initializer _ _ initialized =>
        (sound.initializer_typed declaration initializer initialized).1⟩
  · exact (sound.stmt_typed id bound).extends extends'
  · obtain ⟨initializer_lt, declared⟩ := sound.initializer_typed id initializer initialized
    refine ⟨initializer_lt.trans_le extends'.exprs_le, ?_⟩
    rw [extends'.typeOf_eq initializer_lt]
    exact declared

/-- A typed statement of older ones can be added. -/
theorem addStmt (sound : ast.Sound) {stmt : Stmt} (typed : ast.StmtTyped stmt)
    (child_lt : ∀ child ∈ stmt.children, child.index < ast.stmts.size) :
    (ast.addStmt stmt).2.Sound := by
  have size_eq : (ast.addStmt stmt).2.stmts.size = ast.stmts.size + 1 := by simp [Ast.addStmt]
  have added {id : StmtId} (last : id.index = ast.stmts.size) :
      (ast.addStmt stmt).2.stmt id = stmt := by
    rw [show id = (ast.addStmt stmt).1 by cases id; simp_all [Ast.addStmt]]
    exact stmt_addStmt_self ..
  have extends' := Extends.addStmt ast stmt
  refine ⟨fun id bound => (sound.expr_typed id bound).extends
      (fun operand member => ((sound.expr_grounded id bound).operand_lt operand member).trans bound)
      extends',
    fun id bound => ⟨(sound.expr_grounded id bound).operand_lt,
      (sound.expr_grounded id bound).initializer_lt⟩,
    fun id bound => ?_, fun id bound => ?_, sound.initializer_typed⟩
  · rw [size_eq] at bound
    obtain earlier | last := Nat.lt_succ_iff_lt_or_eq.1 bound
    · rw [stmt_addStmt_of_lt earlier]
      exact (sound.stmt_typed id earlier).extends extends'
    · rw [added last]
      exact typed.extends extends'
  · rw [size_eq] at bound
    obtain earlier | last := Nat.lt_succ_iff_lt_or_eq.1 bound
    · rw [stmt_addStmt_of_lt earlier]
      exact sound.child_lt id earlier
    · rw [added last, last]
      exact child_lt

/-- A constant that is named has its initializer. -/
theorem named_initialized (sound : ast.Sound) {id : ExprId} (bound : id.index < ast.exprs.size)
    {declaration : DeclId} (named : (ast.expr id).kind = .name declaration)
    (isConstant : (ast.kindOf declaration).isConstant = true) :
    ∃ initializer, (ast.kindOf declaration).initializer? = some initializer ∧
      initializer.index < id.index := by
  have typed := sound.expr_typed id bound
  rw [named] at typed
  obtain ⟨initializer, found⟩ := typed.of_name.2 isConstant
  exact ⟨initializer, found, (sound.expr_grounded id bound).initializer_lt declaration initializer
    named isConstant found⟩

/-- A program stays sound as declarations are added or completed, if new initializers fit. -/
theorem of_decls {after : Ast} (sound : ast.Sound) (extends' : ast.Extends after)
    (exprs_eq : after.exprs = ast.exprs) (stmts_eq : after.stmts = ast.stmts)
    (initializer_typed : ∀ id initializer, (after.kindOf id).initializer? = some initializer →
      initializer.index < after.exprs.size ∧
        (after.kindOf id).type? = some (after.typeOf initializer)) : after.Sound := by
  have expr_eq (id : ExprId) : after.expr id = ast.expr id := by rw [expr, expr, exprs_eq]
  have stmt_eq (id : StmtId) : after.stmt id = ast.stmt id := by rw [stmt, stmt, stmts_eq]
  refine ⟨fun id bound => ?_, fun id bound => ?_, fun id bound => ?_, fun id bound => ?_,
    initializer_typed⟩
  · rw [exprs_eq] at bound
    rw [typeOf, expr_eq]
    exact (sound.expr_typed id bound).extends
      (fun operand member => ((sound.expr_grounded id bound).operand_lt operand member).trans bound)
      extends'
  · rw [exprs_eq] at bound
    rw [expr_eq]
    refine ⟨(sound.expr_grounded id bound).operand_lt, ?_⟩
    intro declaration initializer named isConstant initialized
    have declared : declaration.index < ast.decls.size := by
      have typed := sound.expr_typed id bound
      rw [named] at typed
      obtain ⟨_, declared⟩ := typed.of_name.1
      exact index_lt_of_type? declared
    have completes := extends'.completes declaration declared
    obtain ⟨earlier, found, earlier_lt⟩ :=
      sound.named_initialized bound named (completes.isConstant_eq ▸ isConstant)
    rw [completes.initializer?_eq found] at initialized
    cases initialized
    exact earlier_lt
  · rw [stmts_eq] at bound
    rw [stmt_eq]
    exact (sound.stmt_typed id bound).extends extends'
  · rw [stmts_eq] at bound
    rw [stmt_eq]
    exact sound.child_lt id bound

/-- A declaration without an initializer can be added. -/
theorem addDecl (sound : ast.Sound) {decl : Decl} (uninitialized : decl.kind.initializer? = none) :
    (ast.addDecl decl).2.Sound := by
  refine sound.of_decls (Extends.addDecl ast decl) rfl rfl fun id initializer initialized => ?_
  by_cases earlier : id.index < ast.decls.size
  · rw [kindOf, decl_addDecl_of_lt earlier] at initialized ⊢
    exact sound.initializer_typed id initializer initialized
  · by_cases last : id.index = ast.decls.size
    · rw [kindOf, show id = (ast.addDecl decl).1 by cases id; simp_all [Ast.addDecl],
        decl_addDecl_self, uninitialized] at initialized
      cases initialized
    · have absent : (ast.addDecl decl).2.decls.size ≤ id.index := by
        simp only [Ast.addDecl, Array.size_push]
        omega
      simp [kindOf, Ast.decl, Array.getElem?_eq_none absent, noDecl, DeclKind.initializer?]
        at initialized

/-- A declaration can be completed, by an initializer of its type or without one. -/
theorem setDeclKind (sound : ast.Sound) {id : DeclId} {kind : DeclKind}
    (declared : id.index < ast.decls.size) (completes : (ast.kindOf id).Completes kind)
    (fits : ∀ initializer, kind.initializer? = some initializer →
      initializer.index < ast.exprs.size ∧ kind.type? = some (ast.typeOf initializer)) :
    (ast.setDeclKind id kind).Sound := by
  refine sound.of_decls (.setDeclKind declared completes) rfl rfl fun other initializer found => ?_
  rw [kindOf, decl_setDeclKind _ _ _ _ declared] at found ⊢
  split at found
  · next same =>
    rw [if_pos same]
    exact fits initializer found
  · next different =>
    rw [if_neg different]
    exact sound.initializer_typed other initializer found

end Sound

end Ast

end Minilang
