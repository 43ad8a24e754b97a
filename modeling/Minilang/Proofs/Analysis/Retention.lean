import Minilang.Proofs.Analysis.PlainTypes

/-!
# Declarations stay

No action takes a declaration away or turns it into another one: an object may get its initializer and a
function its body, and that is all that happens to what has been declared.
-/

namespace Minilang

namespace Ast

/-- Whether declarations keep their names and are completed at most. -/
structure Retains (before after : Ast) : Prop where
  /-- No declaration is lost. -/
  decls_le : before.decls.size ≤ after.decls.size
  /-- Declared names stay as they are. -/
  name_eq (id : DeclId) : id.index < before.decls.size →
    (after.decl id).name = (before.decl id).name
  /-- Declarations may only be completed. -/
  completes (id : DeclId) : id.index < before.decls.size →
    (before.kindOf id).Completes (after.kindOf id)

theorem Extends.retains {before after : Ast} (extends' : before.Extends after) :
    before.Retains after :=
  ⟨extends'.decls_le, extends'.name_eq, extends'.completes⟩

namespace Retains

variable {before middle after : Ast}

theorem refl (ast : Ast) : ast.Retains ast := (Extends.refl ast).retains

theorem trans (first : before.Retains middle) (second : middle.Retains after) :
    before.Retains after := by
  constructor
  · exact first.decls_le.trans second.decls_le
  · intro id earlier
    rw [second.name_eq id (earlier.trans_le first.decls_le), first.name_eq id earlier]
  · intro id earlier
    exact (first.completes id earlier).trans (second.completes id (earlier.trans_le first.decls_le))

theorem of_decls_eq (same : after.decls = before.decls) : before.Retains after := by
  have decl_eq (id : DeclId) : after.decl id = before.decl id := by rw [Ast.decl, same, Ast.decl]
  constructor
  · exact same ▸ le_rfl
  · intro id _
    rw [decl_eq]
  · intro id _
    rw [kindOf, kindOf, decl_eq]
    exact .refl _

end Retains

end Ast

namespace Analysis

/-- Whether a step that gives a result keeps what has been declared. -/
def Retaining {α : Type} (step : Check α) : Prop :=
  ∀ before, Ensures step before (fun _ after => before.ast.Retains after.ast) fun _ _ => True

namespace Retaining

variable {α β : Type}

theorem of_leavesDecls {step : Check α} (leaves : LeavesDecls step) : Retaining step :=
  fun before => (leaves before).mono (fun _ _ same => .of_decls_eq same) fun _ _ => id

theorem bind {first : Check β} {next : β → Check α} (first_retains : Retaining first)
    (next_retains : ∀ result, Retaining (next result)) : Retaining (first >>= next) := by
  intro before
  rw [ensures_bind]
  apply (first_retains before).mono ?_ fun _ _ => id
  intro result middle retains
  exact (next_retains result middle).mono (fun _ _ => retains.trans) fun _ _ => id

theorem map {step : Check β} (function : β → α) (retains : Retaining step) :
    Retaining (function <$> step) :=
  fun before => (ensures_map function step).2 (retains before)

theorem addDecl (name : String) (location : Location) (kind : DeclKind) :
    Retaining (addDecl name location kind) :=
  fun before => (Ast.Extends.addDecl before.ast _).retains

theorem declareNew (token : Token) (kind : DeclKind) : Retaining (declareNew token kind) :=
  (of_leavesDecls (.nameOf token)).bind fun _ => (addDecl _ _ kind).bind fun _ =>
    (of_leavesDecls (.declare _)).bind fun _ => of_leavesDecls (.pure _)

theorem declareFunction (token : Token) (parameters : List DeclId) (result : Ty) :
    Retaining (declareFunction token parameters result) := by
  intro before
  apply (declareFunction_ensures token parameters result).mono ?_ fun _ _ _ => trivial
  rintro id after ⟨name, scopes, -, -, -, -, rfl⟩
  exact (Ast.Extends.addDecl before.ast _).retains

/-- A kind takes the place of one that it completes. -/
theorem setDeclKind {before : Analysis} {id : DeclId} {kind : DeclKind} {type : Ty}
    (typed : (before.ast.kindOf id).type? = some type)
    (completes : (before.ast.kindOf id).Completes kind) :
    before.ast.Retains (before.ast.setDeclKind id kind) :=
  (Ast.Extends.setDeclKind (Ast.index_lt_of_type? typed) completes).retains

/-- An object is given an initializer only if it has none. -/
theorem defineObject (id : DeclId) (initializer : ExprId) :
    Retaining (defineObject id initializer) := by
  apply (of_leavesDecls (.load initializer)).bind
  intro value before
  rw [ensures_bind, ensures_decl]
  cases kind_eq : (before.ast.decl id).kind with
  | program => trivial
  | parameter type | function type =>
      rw [DeclKind.type?, ensures_bind]
      apply (@requireSame_ensures 0 before type value).mono ?_ fun _ _ _ => trivial
      rintro _ _ ⟨rfl, -⟩
      rw [ensures_bind, ensures_get]
      dsimp only
      split <;> trivial
  | object kind type former =>
      have declared : before.ast.kindOf id = .object kind type former := kind_eq
      have typed : (before.ast.kindOf id).type? = some type := by rw [declared, DeclKind.type?]
      rw [DeclKind.type?, ensures_bind]
      apply (@requireSame_ensures 0 before type value).mono ?_ fun _ _ _ => trivial
      rintro _ _ ⟨rfl, -⟩
      rw [ensures_bind, ensures_get]
      cases former with
      | some =>
          dsimp only
          split <;> trivial
      | none =>
          dsimp only
          split
          · trivial
          · exact setDeclKind typed (declared ▸ .initializer kind type value)

theorem defineFunction (id : DeclId) (body : StmtId) : Retaining (defineFunction id body) := by
  intro before
  apply (defineFunction_ensures id body).mono ?_ fun _ _ _ => trivial
  rintro _ after ⟨type, parameters, -, declared, -, rfl⟩
  have typed : (before.ast.kindOf id).type? = some type := by rw [declared, DeclKind.type?]
  exact setDeclKind typed (declared ▸ .body type parameters body)

end Retaining

/-- Whatever the action, what has been declared is kept. -/
theorem Action.perform_retains (action : Action) : Retaining action.perform := by
  cases action with
  | basicType | pointerType | functionType => exact .of_leavesDecls (.pure _)
  | assignment target value => exact .map _ (.of_leavesDecls (.assignment target value))
  | conditional guard left right => exact .map _ (.of_leavesDecls (.conditional guard left right))
  | binary level token left right => exact .map _ (.of_leavesDecls (.combine level token left right))
  | cast operand type => exact .map _ (.of_leavesDecls (.cast operand type))
  | unary token operand => exact .map _ (.of_leavesDecls (.unary token operand))
  | call callee arguments => exact .map _ (.of_leavesDecls (.call callee arguments))
  | index base arguments => exact .map _ (.of_leavesDecls (.index base arguments))
  | integerLiteral token => exact .map _ (.of_leavesDecls (.integerLiteral token))
  | negatedIntegerLiteral sign token =>
      exact .map _ (.of_leavesDecls (.negatedIntegerLiteral sign token))
  | booleanLiteral token => exact .map _ (.of_leavesDecls (.booleanLiteral token))
  | floatLiteral token => exact .map _ (.of_leavesDecls (.floatLiteral token))
  | characterLiteral token => exact .map _ (.of_leavesDecls (.characterLiteral token))
  | stringLiteral token => exact .map _ (.of_leavesDecls (.stringLiteral token))
  | name token => exact .map _ (.of_leavesDecls (.name token))
  | block | breakLoop | continueLoop | expressionStatement | declarationStatement =>
      exact .map _ (.of_leavesDecls (.addStmt _))
  | startBlock => exact .map _ (.of_leavesDecls .startBlock)
  | ifElse guard left right => exact .map _ (.of_leavesDecls (.ifElse guard left right))
  | whenTrue guard body => exact .map _ (.of_leavesDecls (.whenTrue guard body))
  | whileTrue guard body => exact .map _ (.of_leavesDecls (.whileTrue guard body))
  | returnValue value => exact .map _ (.of_leavesDecls (.returnValue value))
  | declareObject kind token type => exact .map _ (.declareNew token _)
  | declareParameter token type => exact .map _ (.declareNew token _)
  | defineObject declaration initializer => exact .map _ (.defineObject declaration initializer)
  | declareFunction token parameters result =>
      exact .map _ (.declareFunction token parameters result)
  | defineFunction declaration body => exact .map _ (.defineFunction declaration body)
  | addProgram title declarations => exact .map _ (.addDecl _ _ _)
  | enterGlobalScope => exact .map _ (.of_leavesDecls .enterGlobalScope)
  | enterParameterScope => exact .map _ (.of_leavesDecls .enterParameterScope)
  | enterBlockScope => exact .map _ (.of_leavesDecls .enterBlockScope)
  | leaveScope => exact .map _ (.of_leavesDecls .leaveScope)
  | declare declaration => exact .map _ (.of_leavesDecls (.declare declaration))
  | lookup text => exact .map _ (.of_leavesDecls (.bind .get fun _ => .pure _))
  | requireReference expression => exact .map _ (.of_leavesDecls (.requireReference expression))
  | load expression => exact .map _ (.of_leavesDecls (.load expression))
  | requireCategory category expression =>
      exact .map _ (.of_leavesDecls (.requireCategory category expression))
  | requireSame type expression => exact .map _ (.of_leavesDecls (.requireSame type expression))
  | commonType left right location =>
      exact .map _ (.of_leavesDecls (.commonType left right location))
  | convertToBasic target expression =>
      exact .map _ (.of_leavesDecls (.convertToBasic target expression))
  | convertTo expression type => exact .map _ (.of_leavesDecls (.convertTo expression type))

end Analysis

end Minilang
