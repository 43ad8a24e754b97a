import Minilang.Proofs.Analysis.PlainTypes
import Minilang.Proofs.Binary64.Texts
import Minilang.Proofs.Parsing.Actions
import Minilang.Proofs.Parsing.Streams
import Minilang.Proofs.Token.LongestMatch

/-!
# Numbers in programs

Every floating-point literal of a text stands for a number, and analysis adds no floating-point numbers but
those of literals and zero. So all of them in a program are numbers.
-/

namespace Minilang

/-! ## Literals -/

namespace Binary64

/-- A pattern that is not above that of the infinite number stands for a number. -/
theorem isNumber_ofMagnitude (negative : Bool) {magnitude : Nat} (le : magnitude ≤ infinityBits) :
    (ofMagnitude negative magnitude).IsNumber := by
  rw [show infinityBits = 9218868437227405312 from rfl] at le
  obtain ⟨sign, sign_eq, sign_cases⟩ : ∃ sign, (ofMagnitude negative magnitude).bits.toNat =
      sign + magnitude ∧ (sign = 0 ∨ sign = 9223372036854775808) := by
    rw [ofMagnitude, UInt64.toNat_ofNat', show signBit = 9223372036854775808 from rfl]
    cases negative with
    | false => exact ⟨0, by simp only [Bool.false_eq_true, if_false]; omega, Or.inl rfl⟩
    | true => exact ⟨9223372036854775808, by simp only [if_true]; omega, Or.inr rfl⟩
  rw [IsNumber, meaning, hiddenBit_eq, sign_eq]
  split
  · next special =>
    have whole : (sign + magnitude) % 4503599627370496 = 0 := by omega
    rw [if_pos whole]
    exact Meaning.noConfusion
  · split <;> exact Meaning.noConfusion

theorem isNumber_ofRatio (negative : Bool) (numerator denominator : Nat) :
    (ofRatio negative numerator denominator).IsNumber := by
  rw [ofRatio]
  split
  · exact isNumber_ofMagnitude negative (Nat.zero_le _)
  · exact isNumber_ofMagnitude negative (Nat.min_le_right _ _)

theorem isNumber_ofDigits (negative : Bool) (whole fraction : List Char) :
    (ofDigits negative whole fraction).IsNumber := by
  rw [ofDigits, ofDecimal]
  dsimp only
  split
  · exact isNumber_ofMagnitude negative (Nat.zero_le _)
  · split
    · exact isNumber_ofMagnitude negative (Nat.le_refl _)
    · split
      · exact isNumber_ofMagnitude negative (Nat.zero_le _)
      · exact isNumber_ofRatio _ _ _

end Binary64

/-- Whether a name consists of the characters of words and a floating-point literal is a number. -/
def TokenKind.Plain : TokenKind → Prop
  | identifier name => name.toList.all Lexeme.isWordPart = true
  | float number => number.IsNumber
  | _ => True

namespace Lexeme

theorem plain_of_spelling {kind : TokenKind} {text : String} (spelled : kind.spelling? = some text) :
    kind.Plain := by
  cases kind with
  | identifier | float => cases spelled
  | _ => trivial

theorem Denotes.plain {lexeme : List Char} {kind : TokenKind} (denotes : Denotes lexeme (some kind)) :
    kind.Plain := by
  generalize meaning_eq : some kind = meaning at denotes
  have integer (radix : Radix) (digits : List Char)
      (meaning_eq : some kind = integer? radix digits) : kind.Plain := by
    rw [integer?] at meaning_eq
    split at meaning_eq
    · cases meaning_eq
      trivial
    · cases meaning_eq
  cases denotes with
  | reserved _ spelled | operator _ spelled =>
      cases meaning_eq
      exact plain_of_spelling spelled
  | name start parts =>
      cases meaning_eq
      rw [isWordStart] at start
      rw [TokenKind.Plain, String.toList_ofList, List.all_cons, Bool.and_eq_true, List.all_eq_true]
      refine ⟨?_, parts⟩
      rw [isWordPart, Char.isAlphanum, Bool.or_right_comm, start, Bool.true_or]
  | decimal => exact integer _ _ meaning_eq
  | marked => exact integer _ _ meaning_eq
  | float =>
      cases meaning_eq
      exact Binary64.isNumber_ofDigits _ _ _
  | character | string =>
      cases meaning_eq
      trivial

end Lexeme

/-- The tokens of a text are plain. -/
theorem plain_of_tokenize {source : Source} {tokens : List Token}
    (tokenized : tokenize source = .ok tokens) : ∀ token ∈ tokens, token.kind.Plain := by
  rw [tokenize, Scanner.tokens] at tokenized
  generalize (Scanner.ofSource source).rest.length + 1 = fuel at tokenized
  generalize Scanner.ofSource source = scanner at tokenized
  induction fuel generalizing scanner tokens with
  | zero => cases tokenized
  | succ fuel induction =>
      rw [Scanner.tokensWithin] at tokenized
      split at tokenized
      · cases tokenized
      · next token rest scanned =>
        have plain : token.kind.Plain := by
          rcases Scanner.exists_of_scan scanned with ⟨ended, -⟩ | ⟨_, _, -, -, denotes, -, -⟩
          · rw [ended]
            trivial
          · exact denotes.plain
        split at tokenized
        · cases tokenized
          simpa using plain
        · cases others : rest.tokensWithin fuel with
          | error error =>
              rw [others] at tokenized
              cases tokenized
          | ok tokens =>
              rw [others] at tokenized
              cases tokenized
              exact List.forall_mem_cons.2 ⟨plain, induction _ others⟩

/-! ## Steps of analysis -/

/-- Whether what a floating-point expression holds is a number. -/
def ExprKind.IsNumber (kind : ExprKind) : Prop :=
  ∀ number, kind = .float number → number.IsNumber

/-- Whether all floating-point expressions hold numbers. -/
def Ast.HoldsNumbers (ast : Ast) : Prop := ∀ id, (ast.expr id).kind.IsNumber

namespace Analysis

/-- Whether a step that gives a result adds no floating-point expressions but numbers. -/
def AddsNumbers {α : Type} (step : Check α) : Prop :=
  ∀ before, before.ast.HoldsNumbers →
    Ensures step before (fun _ after => after.ast.HoldsNumbers) fun _ _ => True

namespace AddsNumbers

variable {α β : Type}

theorem bind {first : Check β} {next : β → Check α} (first_adds : AddsNumbers first)
    (next_adds : ∀ result, AddsNumbers (next result)) : AddsNumbers (first >>= next) := by
  intro before holds
  rw [ensures_bind]
  exact (first_adds before holds).mono (fun result middle => next_adds result middle) fun _ _ => id

theorem map {step : Check β} (function : β → α) (adds : AddsNumbers step) :
    AddsNumbers (function <$> step) :=
  fun before holds => (ensures_map function step).2 (adds before holds)

theorem pure (result : α) : AddsNumbers (pure result) := fun _ holds => holds

theorem reject (location : Location) (error : SemanticError) :
    AddsNumbers (reject location error : Check α) := fun _ _ => trivial

theorem refuse (error : InternalError) : AddsNumbers (refuse error : Check α) := fun _ _ => trivial

/-- Nothing comes behind a failure. -/
theorem rejected (location : Location) (error : SemanticError) (next : β → Check α) :
    AddsNumbers (Analysis.reject location error >>= next) := fun _ _ => trivial

theorem refused (error : InternalError) (next : β → Check α) :
    AddsNumbers (Analysis.refuse error >>= next) := fun _ _ => trivial

theorem get : AddsNumbers get := fun _ holds => holds

theorem expr (id : ExprId) : AddsNumbers (expr id) := fun _ holds => holds

theorem decl (id : DeclId) : AddsNumbers (decl id) := fun _ holds => holds

theorem addStmt (stmt : Stmt) : AddsNumbers (addStmt stmt) := fun _ holds => holds

theorem setScopes (scopes : ScopeChain) : AddsNumbers (setScopes scopes) := fun _ holds => holds

theorem setFunction (function : Option DeclId) : AddsNumbers (setFunction function) :=
  fun _ holds => holds

theorem addDecl (name : String) (location : Location) (kind : DeclKind) :
    AddsNumbers (addDecl name location kind) := fun _ holds => holds

theorem setDeclKind (id : DeclId) (kind : DeclKind) : AddsNumbers (setDeclKind id kind) :=
  fun _ holds => holds

theorem addExpr {kind : ExprKind} (isNumber : kind.IsNumber) (type : Ty) (location : Location) :
    AddsNumbers (addExpr kind type location) := by
  intro before holds
  rw [ensures_addExpr]
  intro id
  rcases Nat.lt_trichotomy id.index before.ast.exprs.size with earlier | same | beyond
  · rw [Ast.expr_addExpr_of_lt earlier]
    exact holds id
  · obtain rfl : id = (before.ast.addExpr ⟨kind, type, location⟩).1 := by
      cases id
      exact congrArg ExprId.mk same
    rw [Ast.expr_addExpr_self]
    exact isNumber
  · have absent : (before.ast.addExpr ⟨kind, type, location⟩).2.expr id = Ast.noExpr := by
      rw [Ast.expr, Ast.addExpr, Array.getElem?_eq_none (by simpa using beyond), Option.getD_none]
    rw [absent]
    intro number same
    cases same

/-- An expression of any other form may be added. -/
theorem addOther {kind : ExprKind} (other : ∀ number, kind ≠ .float number) (type : Ty)
    (location : Location) : AddsNumbers (Analysis.addExpr kind type location) :=
  addExpr (fun number same => absurd same (other number)) type location

theorem of_if {condition : Prop} [Decidable condition] {first second : Check α}
    (first_adds : AddsNumbers first) (second_adds : AddsNumbers second) :
    AddsNumbers (if condition then first else second) := by
  split
  · exact first_adds
  · exact second_adds

theorem guarded {condition : Prop} [Decidable condition] {first : Check PUnit} {next : Check α}
    (first_adds : AddsNumbers first) (next_adds : AddsNumbers next) :
    AddsNumbers (if condition then first >>= fun _ => next else next) :=
  .of_if (first_adds.bind fun _ => next_adds) next_adds

/-! ### Conversions -/

theorem convert (conversion : Conversion) (operand : ExprId) (type : Ty) :
    AddsNumbers (convert conversion operand type) :=
  (expr operand).bind fun _ => addOther (by simp) _ _

theorem rejectConversion (id : ExprId) (target : Ty) : AddsNumbers (rejectConversion id target) :=
  (expr id).bind fun _ => reject _ _

theorem load (id : ExprId) : AddsNumbers (load id) := by
  apply (expr id).bind
  intro value
  split
  · exact convert _ _ _
  · exact pure _

theorem requireReference (id : ExprId) : AddsNumbers (requireReference id) :=
  (expr id).bind fun _ => of_if (pure _) (reject _ _)

theorem requireCategory (category : Category) (id : ExprId) :
    AddsNumbers (requireCategory category id) :=
  (load id).bind fun value => (expr value).bind fun _ => of_if (pure _) (reject _ _)

theorem requireSame (expected : Ty) (id : ExprId) : AddsNumbers (requireSame expected id) :=
  (expr id).bind fun _ => of_if (pure _) (reject _ _)

theorem commonType (left right : Ty) (location : Location) :
    AddsNumbers (commonType left right location) := by
  unfold Analysis.commonType
  split
  · exact pure _
  · exact reject _ _

theorem convertToBasic (target : BasicType) (id : ExprId) :
    AddsNumbers (convertToBasic target id) := by
  apply (load id).bind
  intro value
  apply (expr value).bind
  intro operand
  apply of_if (pure _)
  split
  · exact convert _ _ _
  · exact rejectConversion _ _

theorem convertTo (id : ExprId) (type : Ty) : AddsNumbers (convertTo id type) := by
  have convert (operand : ExprId) : AddsNumbers (convertOperand type operand) := by
    apply (expr operand).bind
    intro value
    apply of_if (pure _)
    split
    · exact convertToBasic _ _
    · exact rejectConversion _ _
  rw [convertTo_eq]
  exact of_if ((load id).bind convert) ((pure id).bind convert)

/-! ### Expressions -/

theorem addBinary (token : Token) (operator : BinaryOperator) (left right : ExprId) (type : Ty) :
    AddsNumbers (addBinary token operator left right type) := addOther (by simp) _ _

theorem logical (operator : BinaryOperator) (token : Token) (left right : ExprId) :
    AddsNumbers (logical operator token left right) :=
  (requireCategory _ _).bind fun _ => (requireCategory _ _).bind fun _ => addBinary _ _ _ _ _

theorem bitwise (operator : BinaryOperator) (token : Token) (left right : ExprId) :
    AddsNumbers (bitwise operator token left right) :=
  (requireCategory _ _).bind fun _ => (requireCategory _ _).bind fun _ => addBinary _ _ _ _ _

theorem requireAlike (category : Category) (left right : ExprId) :
    AddsNumbers (requireAlike category left right) :=
  (requireCategory _ _).bind fun left => (requireCategory _ _).bind fun _ =>
    (expr left).bind fun _ => (requireSame _ _).bind fun _ => pure _

theorem arithmetic (operator : BinaryOperator) (token : Token) (left right : ExprId) :
    AddsNumbers (arithmetic operator token left right) :=
  (requireAlike _ _ _).bind fun _ => addBinary _ _ _ _ _

theorem comparison (category : Category) (token : Token) (left right : ExprId) :
    AddsNumbers (comparison category token left right) := by
  have compare (operator : BinaryOperator) :
      AddsNumbers (compare category operator token left right) :=
    (requireAlike _ _ _).bind fun _ => addBinary _ _ _ _ _
  unfold Analysis.comparison
  split
  case h_7 => exact (refuse _).bind compare
  all_goals exact (pure _).bind compare

theorem combine (level : OperatorLevel) (token : Token) (left right : ExprId) :
    AddsNumbers (level.combine token left right) := by
  cases level with
  | logicalOr | logicalAnd => exact logical _ _ _ _
  | bitwiseOr | bitwiseXor | bitwiseAnd => exact bitwise _ _ _ _
  | equality | relational => exact comparison _ _ _ _
  | shift =>
      change AddsNumbers (Analysis.shift token left right)
      unfold Analysis.shift
      split <;> first | exact bitwise _ _ _ _ | exact refuse _
  | additive =>
      change AddsNumbers (Analysis.additive token left right)
      unfold Analysis.additive
      split <;> first | exact arithmetic _ _ _ _ | exact refuse _
  | multiplicative =>
      change AddsNumbers (Analysis.multiplicative token left right)
      unfold Analysis.multiplicative
      split <;> first | exact arithmetic _ _ _ _ | exact refuse _

theorem assignment (target value : ExprId) : AddsNumbers (assignment target value) :=
  (requireReference _).bind fun target => (load _).bind fun _ => (expr target).bind fun _ =>
    (requireSame _ _).bind fun _ => addOther (by simp) _ _

theorem conditional (guard whenTrue whenFalse : ExprId) :
    AddsNumbers (conditional guard whenTrue whenFalse) :=
  (requireCategory _ _).bind fun guard => (expr guard).bind fun _ => (expr whenTrue).bind fun _ =>
    (expr whenFalse).bind fun _ => (commonType _ _ _).bind fun _ => (convertTo _ _).bind fun _ =>
      (convertTo _ _).bind fun _ => addOther (by simp) _ _

theorem cast (operand : ExprId) (type : Ty) : AddsNumbers (cast operand type) :=
  (expr operand).bind fun _ => (convertTo _ _).bind fun _ => addOther (by simp) _ _

theorem isNumber_zeroOf (type : Ty) : (zeroOf type).IsNumber := by
  have zero : Binary64.zero.IsNumber := by decide
  unfold zeroOf
  split
  · exact fun number same => ExprKind.float.inj same ▸ zero
  · exact nofun

theorem unary (token : Token) (operand : ExprId) : AddsNumbers (unary token operand) := by
  unfold Analysis.unary
  split
  · exact requireCategory _ _
  · exact (requireCategory _ _).bind fun operand => (expr operand).bind fun _ =>
      (addExpr (isNumber_zeroOf _) _ _).bind fun _ => addBinary _ _ _ _ _
  · exact (requireCategory _ _).bind fun _ => addOther (by simp) _ _
  · exact (requireCategory _ _).bind fun _ => addOther (by simp) _ _
  · exact reject _ _
  · exact reject _ _
  · exact refuse _

theorem convertArguments (position : Nat) (arguments : List ExprId) (parameters : List Ty) :
    AddsNumbers (convertArguments position arguments parameters) := by
  induction arguments generalizing position parameters with
  | nil =>
      unfold Analysis.convertArguments
      exact pure _
  | cons argument arguments induction =>
      cases parameters with
      | nil =>
          unfold Analysis.convertArguments
          exact pure _
      | cons parameter parameters =>
          unfold Analysis.convertArguments
          apply (load _).bind
          intro value
          apply (expr value).bind
          intro loaded
          exact guarded (reject _ _) ((induction _ _).bind fun _ => pure _)

theorem call (callee : ExprId) (arguments : List ExprId) : AddsNumbers (call callee arguments) := by
  apply (requireCategory _ _).bind
  intro callee
  apply (expr callee).bind
  intro function
  split
  · exact guarded (reject _ _) (guarded (reject _ _)
      ((convertArguments _ _ _).bind fun _ => addOther (by simp) _ _))
  · exact refuse _

theorem addInteger (value : Int64) (checkedAt location : Location) :
    AddsNumbers (addInteger value checkedAt location) :=
  of_if (addOther (by simp) _ _) (reject _ _)

/-- A literal is what its token is. -/
theorem floatLiteral {token : Token} (plain : token.kind.Plain) : AddsNumbers (floatLiteral token) := by
  unfold Analysis.floatLiteral
  split
  · next value kind_eq =>
    rw [kind_eq] at plain
    exact addExpr (fun number same => ExprKind.float.inj same ▸ plain) _ _
  · exact refuse _

theorem nameOf (token : Token) : AddsNumbers (nameOf token) := by
  unfold Analysis.nameOf
  split
  · exact pure _
  · exact refuse _

theorem name (token : Token) : AddsNumbers (name token) := by
  apply (nameOf token).bind
  intro text
  apply get.bind
  intro analysis
  split
  · exact reject _ _
  · apply (decl _).bind
    intro declared
    apply guarded (reject _ _)
    split
    · exact refuse _
    · exact addOther (by simp) _ _

/-! ### Statements and declarations -/

theorem returnValue (value : ExprId) : AddsNumbers (returnValue value) := by
  apply (load _).bind
  intro value
  apply get.bind
  intro analysis
  split
  · exact refuse _
  · apply (decl _).bind
    intro declared
    split
    · exact refuse _
    · exact (requireSame _ _).bind fun _ => addStmt _

theorem declare (id : DeclId) : AddsNumbers (declare id) := by
  apply (decl id).bind
  intro declared
  apply get.bind
  intro analysis
  split
  · exact setScopes _
  · exact reject _ _

theorem declareNew (token : Token) (kind : DeclKind) : AddsNumbers (declareNew token kind) :=
  (nameOf token).bind fun _ => (addDecl _ _ _).bind fun _ => (declare _).bind fun _ => pure _

theorem declareFunction (token : Token) (parameters : List DeclId) (result : Ty) :
    AddsNumbers (declareFunction token parameters result) := by
  apply (nameOf token).bind
  intro name
  apply get.bind
  intro analysis
  exact guarded (reject _ _) ((addDecl _ _ _).bind fun _ => (declare _).bind fun _ =>
    (setFunction _).bind fun _ => pure _)

theorem defineObject (id : DeclId) (initializer : ExprId) :
    AddsNumbers (defineObject id initializer) := by
  apply (load initializer).bind
  intro value
  apply (decl id).bind
  intro declared
  cases declared.kind.type? with
  | none => exact refused _ _
  | some type =>
      apply (requireSame type value).bind
      intro _
      apply get.bind
      intro analysis
      apply of_if
      · exact (expr value).bind fun _ => rejected _ _ _
      · split
        · exact (setDeclKind _ _).bind fun _ => pure _
        · exact refused _ _
        · exact refused _ _

theorem defineFunction (id : DeclId) (body : StmtId) : AddsNumbers (defineFunction id body) := by
  apply get.bind
  intro analysis
  apply of_if
  · exact refused _ _
  · apply (decl id).bind
    intro declared
    split
    · exact (setDeclKind _ _).bind fun _ => (setFunction _).bind fun _ => pure _
    · exact refused _ _
    · exact refused _ _

theorem forM_declare (ids : List DeclId) : AddsNumbers (ids.forM Analysis.declare) := by
  induction ids with
  | nil => exact pure _
  | cons id ids induction => exact (declare id).bind fun _ => induction

theorem startBlock : AddsNumbers startBlock := by
  apply get.bind
  intro analysis
  apply of_if (pure _)
  split
  · exact pure _
  · exact forM_declare _

theorem leaveScope : AddsNumbers leaveScope := by
  apply get.bind
  intro analysis
  split
  · exact setScopes _
  · exact refuse _

end AddsNumbers

/-- Whatever the action, all floating-point expressions are numbers if the literals are. -/
theorem Action.perform_addsNumbers (action : Action) (plain : ∀ token ∈ action.tokens, token.kind.Plain) :
    AddsNumbers action.perform := by
  cases action with
  | basicType | pointerType | functionType => exact .pure _
  | assignment target value => exact .map _ (.assignment target value)
  | conditional guard left right => exact .map _ (.conditional guard left right)
  | binary level token left right => exact .map _ (.combine level token left right)
  | cast operand type => exact .map _ (.cast operand type)
  | unary token operand => exact .map _ (.unary token operand)
  | call callee arguments => exact .map _ (.call callee arguments)
  | index base arguments => exact .map _ ((AddsNumbers.expr base).bind fun _ => .reject _ _)
  | integerLiteral token | negatedIntegerLiteral sign token =>
      apply AddsNumbers.map
      first | unfold Analysis.integerLiteral | unfold Analysis.negatedIntegerLiteral
      split
      · exact .addInteger _ _ _
      · exact .refuse _
  | booleanLiteral token =>
      apply AddsNumbers.map
      unfold Analysis.booleanLiteral
      split
      · exact .addOther (by simp) _ _
      · exact .refuse _
  | floatLiteral token => exact .map _ (.floatLiteral (plain token List.mem_cons_self))
  | characterLiteral token =>
      apply AddsNumbers.map
      unfold Analysis.characterLiteral
      split
      · exact .of_if (.addOther (by simp) _ _) (.reject _ _)
      · exact .refuse _
  | stringLiteral token => exact .map _ (.reject _ _)
  | name token => exact .map _ (.name token)
  | block | breakLoop | continueLoop | expressionStatement | declarationStatement =>
      exact .map _ (.addStmt _)
  | startBlock => exact .map _ .startBlock
  | ifElse | whenTrue | whileTrue =>
      exact .map _ ((AddsNumbers.requireCategory _ _).bind fun _ => .addStmt _)
  | returnValue value => exact .map _ (.returnValue value)
  | declareObject kind token type => exact .map _ (.declareNew token _)
  | declareParameter token type => exact .map _ (.declareNew token _)
  | defineObject declaration initializer => exact .map _ (.defineObject declaration initializer)
  | declareFunction token parameters result =>
      exact .map _ (.declareFunction token parameters result)
  | defineFunction declaration body => exact .map _ (.defineFunction declaration body)
  | addProgram title declarations => exact .map _ (.addDecl _ _ _)
  | enterGlobalScope =>
      exact .map _ (AddsNumbers.get.bind fun _ => .guarded (.refuse _) (.setScopes _))
  | enterParameterScope | enterBlockScope =>
      exact .map _ (AddsNumbers.get.bind fun _ => .setScopes _)
  | leaveScope => exact .map _ .leaveScope
  | declare declaration => exact .map _ (.declare declaration)
  | lookup text => exact .map _ (AddsNumbers.get.bind fun _ => .pure _)
  | requireReference expression => exact .map _ (.requireReference expression)
  | load expression => exact .map _ (.load expression)
  | requireCategory category expression => exact .map _ (.requireCategory category expression)
  | requireSame type expression => exact .map _ (.requireSame type expression)
  | commonType left right location => exact .map _ (.commonType left right location)
  | convertToBasic target expression => exact .map _ (.convertToBasic target expression)
  | convertTo expression type => exact .map _ (.convertTo expression type)

end Analysis

/-- What is true of the tokens of a list is true of what can be seen in its stream. -/
theorem TokenStream.holds_ofTokens {among : Token → Prop} {tokens : List Token} (nonempty : tokens ≠ [])
    (all : ∀ token ∈ tokens, among token) : (ofTokens tokens).Holds among := by
  intro distance token found
  induction tokens generalizing distance with
  | nil => exact absurd rfl nonempty
  | cons first rest induction =>
      rw [List.forall_mem_cons] at all
      cases rest with
      | nil =>
          cases found
          exact all.1
      | cons second rest =>
          cases distance with
          | zero =>
              cases found
              exact all.1
          | succ distance => exact induction (List.cons_ne_nil _ _) all.2 distance found

/-- The floating-point expressions of a program are numbers. -/
theorem parse_holdsNumbers {source : Source} {program : Program} {tokens : List Token}
    (parsed : parse source = .ok program) (tokenized : tokenize source = .ok tokens) :
    program.ast.HoldsNumbers := by
  obtain ⟨stream_eq, ended⟩ := TokenStream.ofSource_eq_ofTokens tokenized
  have plain := TokenStream.holds_ofTokens ended.ne_nil (plain_of_tokenize tokenized)
  rw [← stream_eq] at plain
  obtain ⟨analysis, performed, ast_eq⟩ := parse_performed parsed plain
  rw [ast_eq]
  apply performed.keeps fun action before given holds => action.perform_addsNumbers given before holds
  intro id
  exact nofun

end Minilang
