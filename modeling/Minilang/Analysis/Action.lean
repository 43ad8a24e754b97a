import Minilang.Analysis.Expression
import Minilang.Analysis.Statement

/-!
# Actions

Every step of analysis as a value, so that sequences of steps can be run one after another. An action
that fails leaves the state to the next one.
-/

namespace Minilang.Analysis

/-- A step of analysis with its arguments. -/
inductive Action where
  /-- The type that a word names. -/
  | basicType (type : BasicType)
  /-- The pointer to a type. -/
  | pointerType (target : Ty)
  /-- A function type. -/
  | functionType (parameters : List Ty) (result : Ty)
  /-- An assignment. -/
  | assignment (target value : ExprId)
  /-- A choice between two expressions. -/
  | conditional (guard left right : ExprId)
  /-- An operator on two values. -/
  | binary (level : OperatorLevel) (token : Token) (left right : ExprId)
  /-- A cast. -/
  | cast (operand : ExprId) (type : Ty)
  /-- An operator on one value. -/
  | unary (token : Token) (operand : ExprId)
  /-- A call. -/
  | call (callee : ExprId) (arguments : List ExprId)
  /-- An index expression. -/
  | index (base : ExprId) (arguments : List ExprId)
  /-- An integer literal. -/
  | integerLiteral (token : Token)
  /-- An integer literal directly behind a minus sign. -/
  | negatedIntegerLiteral (sign token : Token)
  /-- A truth value. -/
  | booleanLiteral (token : Token)
  /-- A floating-point literal. -/
  | floatLiteral (token : Token)
  /-- A character literal. -/
  | characterLiteral (token : Token)
  /-- A string literal. -/
  | stringLiteral (token : Token)
  /-- A use of a name. -/
  | name (token : Token)
  /-- Statements in braces. -/
  | block (statements : List StmtId)
  /-- The start of a block. -/
  | startBlock
  /-- A choice between two statements. -/
  | ifElse (guard : ExprId) (left right : StmtId)
  /-- A statement under a guard. -/
  | whenTrue (guard : ExprId) (body : StmtId)
  /-- A loop. -/
  | whileTrue (guard : ExprId) (body : StmtId)
  /-- A `break`. -/
  | breakLoop (token : Token)
  /-- A `continue`. -/
  | continueLoop (token : Token)
  /-- A return. -/
  | returnValue (value : ExprId)
  /-- An expression as a statement. -/
  | expressionStatement (expression : ExprId)
  /-- A local declaration. -/
  | declarationStatement (declaration : DeclId)
  /-- The declaration of an object. -/
  | declareObject (kind : ObjectKind) (token : Token) (type : Ty)
  /-- The declaration of a parameter. -/
  | declareParameter (token : Token) (type : Ty)
  /-- The initializer of an object. -/
  | defineObject (declaration : DeclId) (initializer : ExprId)
  /-- The declaration of a function. -/
  | declareFunction (token : Token) (parameters : List DeclId) (result : Ty)
  /-- The body of a function. -/
  | defineFunction (declaration : DeclId) (body : StmtId)
  /-- The declaration of the whole program. -/
  | addProgram (title : String) (declarations : List DeclId)
  /-- The start of the program. -/
  | enterGlobalScope
  /-- The start of a parameter list. -/
  | enterParameterScope
  /-- The start of a block. -/
  | enterBlockScope
  /-- The end of a scope. -/
  | leaveScope
  /-- A binding in the innermost scope. -/
  | declare (declaration : DeclId)
  /-- What a name means. -/
  | lookup (text : String)
  /-- A demand for a reference. -/
  | requireReference (expression : ExprId)
  /-- The value of an expression. -/
  | load (expression : ExprId)
  /-- A demand for a value of a group of types. -/
  | requireCategory (category : Category) (expression : ExprId)
  /-- A demand for exactly one type. -/
  | requireSame (type : Ty) (expression : ExprId)
  /-- The common type of two types. -/
  | commonType (left right : Ty) (location : Location)
  /-- A conversion to a basic type. -/
  | convertToBasic (target : BasicType) (expression : ExprId)
  /-- A conversion to any type. -/
  | convertTo (expression : ExprId) (type : Ty)
deriving DecidableEq, Repr

/-- What an action gives when it succeeds. -/
inductive Answer where
  /-- Nothing but its effect. -/
  | done
  /-- An expression. -/
  | expr (id : ExprId)
  /-- A statement. -/
  | stmt (id : StmtId)
  /-- A declaration. -/
  | decl (id : DeclId)
  /-- What a name means. -/
  | meaning (id : Option DeclId)
  /-- A type. -/
  | type (type : Ty)
deriving DecidableEq, Repr

namespace Action

/-- Take a step. -/
def perform : Action → Check Answer
  | basicType type => return .type (Ty.ofBasic type)
  | pointerType target => return .type (.pointer target)
  | functionType parameters result => return .type (.function result parameters)
  | assignment target value => .expr <$> Analysis.assignment target value
  | conditional guard left right => .expr <$> Analysis.conditional guard left right
  | binary level token left right => .expr <$> level.combine token left right
  | cast operand type => .expr <$> Analysis.cast operand type
  | unary token operand => .expr <$> Analysis.unary token operand
  | call callee arguments => .expr <$> Analysis.call callee arguments
  | index base arguments => .expr <$> Analysis.index base arguments
  | integerLiteral token => .expr <$> Analysis.integerLiteral token
  | negatedIntegerLiteral sign token => .expr <$> Analysis.negatedIntegerLiteral sign token
  | booleanLiteral token => .expr <$> Analysis.booleanLiteral token
  | floatLiteral token => .expr <$> Analysis.floatLiteral token
  | characterLiteral token => .expr <$> Analysis.characterLiteral token
  | stringLiteral token => .expr <$> Analysis.stringLiteral token
  | name token => .expr <$> Analysis.name token
  | block statements => .stmt <$> Analysis.block statements
  | startBlock => (fun _ => .done) <$> Analysis.startBlock
  | ifElse guard left right => .stmt <$> Analysis.ifElse guard left right
  | whenTrue guard body => .stmt <$> Analysis.whenTrue guard body
  | whileTrue guard body => .stmt <$> Analysis.whileTrue guard body
  | breakLoop token => .stmt <$> Analysis.breakLoop token
  | continueLoop token => .stmt <$> Analysis.continueLoop token
  | returnValue value => .stmt <$> Analysis.returnValue value
  | expressionStatement expression => .stmt <$> Analysis.expressionStatement expression
  | declarationStatement declaration => .stmt <$> Analysis.declarationStatement declaration
  | declareObject kind token type => .decl <$> Analysis.declareObject kind token type
  | declareParameter token type => .decl <$> Analysis.declareParameter token type
  | defineObject declaration initializer =>
    .decl <$> Analysis.defineObject declaration initializer
  | declareFunction token parameters result =>
    .decl <$> Analysis.declareFunction token parameters result
  | defineFunction declaration body => .decl <$> Analysis.defineFunction declaration body
  | addProgram title declarations => .decl <$> Analysis.addProgram title declarations
  | enterGlobalScope => (fun _ => .done) <$> Analysis.enterGlobalScope
  | enterParameterScope => (fun _ => .done) <$> Analysis.enterParameterScope
  | enterBlockScope => (fun _ => .done) <$> Analysis.enterBlockScope
  | leaveScope => (fun _ => .done) <$> Analysis.leaveScope
  | declare declaration => (fun _ => .done) <$> Analysis.declare declaration
  | lookup text => .meaning <$> Analysis.lookup text
  | requireReference expression => .expr <$> Analysis.requireReference expression
  | load expression => .expr <$> Analysis.load expression
  | requireCategory category expression => .expr <$> Analysis.requireCategory category expression
  | requireSame type expression => (fun _ => .done) <$> Analysis.requireSame type expression
  | commonType left right location => .type <$> Analysis.commonType left right location
  | convertToBasic target expression => .expr <$> Analysis.convertToBasic target expression
  | convertTo expression type => .expr <$> Analysis.convertTo expression type

/-- Take a step from a state, giving its outcome and the state it leaves. -/
def run (action : Action) (analysis : Analysis) : Except Diagnostic Answer × Analysis :=
  action.perform.run analysis

end Action

/-- Take steps one after another, going on after those that fail. -/
def runAll : List Action → Analysis → List (Except Diagnostic Answer) × Analysis
  | [], analysis => ([], analysis)
  | action :: actions, analysis =>
    let (outcome, analysis) := action.run analysis
    let (outcomes, analysis) := runAll actions analysis
    (outcome :: outcomes, analysis)

end Minilang.Analysis
