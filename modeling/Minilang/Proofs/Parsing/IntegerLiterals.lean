import Minilang.Proofs.Analysis.Operators
import Minilang.Proofs.Parsing.PrintedForms
import Minilang.Proofs.Semantics.Evaluation
import Minilang.Proofs.Token.IntegerTexts

/-!
# Integer literals in expressions

A run of digits means its number or is rejected: as a token from 2^63 on, and as an expression where the number
or its negative does not fit into 32 bits. A minus sign directly in front is folded into the constant, which
has the value of the difference of zero and the literal wherever that is accepted, too.
-/

namespace Minilang

open Analysis (Ensures)
open Lexeme

/-! ## Constants -/

/-- What an integer expression with a value comes to: the constant of the value where it fits into 32 bits,
in front of what is left, and otherwise the fault at the literal that it does not fit. -/
def ComesToInteger (value : Int) (literal location : Location) (before : Analysis) (behind : TokenStream)
    (outcome : Except Diagnostic (ExprId × ParserState)) : Prop :=
  if -2 ^ 31 ≤ value ∧ value < 2 ^ 31 then
    ∃ number : Int32, number.toInt = value ∧ outcome =
      .ok (⟨before.ast.exprs.size⟩, ⟨behind, before.withExprs [⟨.int number, .int, location⟩]⟩)
  else
    ∃ number : Int64, number.toInt = value ∧
      outcome = .error (.semantic literal (.integerOutOfRange number))

namespace Analysis

variable {before : Analysis} {value : Int64} {radix : Radix} {token : Token}

theorem fits_iff (value : Int64) :
    Int32.minValue.toInt ≤ value.toInt ∧ value.toInt ≤ Int32.maxValue.toInt ↔
      -2 ^ 31 ≤ value.toInt ∧ value.toInt < 2 ^ 31 := by
  have least : Int32.minValue.toInt = -2 ^ 31 := by decide
  have greatest : Int32.maxValue.toInt = 2 ^ 31 - 1 := by decide
  omega

theorem toInt_toInt32_of_fits (fits : -2 ^ 31 ≤ value.toInt ∧ value.toInt < 2 ^ 31) :
    value.toInt32.toInt = value.toInt := by
  rw [Int64.toInt_toInt32]
  exact Int.bmod_eq_of_le (by omega) (by omega)

/-- An integer that is added is a constant, or it does not fit. -/
theorem addInteger_added (value : Int64) (checkedAt location : Location) :
    Ensures (addInteger value checkedAt location) before
      (fun id after => (-2 ^ 31 ≤ value.toInt ∧ value.toInt < 2 ^ 31) ∧
        id = ⟨before.ast.exprs.size⟩ ∧
        after = before.withExprs [⟨.int value.toInt32, .int, location⟩])
      fun error _ => ¬(-2 ^ 31 ≤ value.toInt ∧ value.toInt < 2 ^ 31) ∧
        error = .semantic checkedAt (.integerOutOfRange value) := by
  rw [addInteger, ← fits_iff]
  split
  · next fits => exact (addExpr_added _ _ _).mono (fun _ _ added => ⟨fits, added⟩) fun _ _ => False.elim
  · next outside => exact ⟨outside, rfl⟩

end Analysis

namespace Parser

variable {stream : TokenStream} {sign literal next : Token} {value : Int64} {radix : Radix}
  {form : ExpressionForm} {fuel : Nat}

theorem comesToInteger_addInteger (value : Int64) (literal location : Location) (state : ParserState) :
    ComesToInteger value.toInt literal location state.analysis state.tokens
      ((check (Analysis.addInteger value literal location)).run state) := by
  have added : Ensures (Analysis.addInteger value literal location) state.analysis _ _ :=
    Analysis.addInteger_added value literal location
  unfold Ensures at added
  rw [ComesToInteger, run_check]
  cases run : (Analysis.addInteger value literal location).run state.analysis with
  | mk outcome after =>
      rw [run] at added
      cases outcome with
      | ok id =>
          obtain ⟨fits, rfl, rfl⟩ := added
          rw [if_pos fits]
          exact ⟨_, Analysis.toInt_toInt32_of_fits fits, rfl⟩
      | error error =>
          obtain ⟨outside, rfl⟩ := added
          rw [if_neg outside]
          exact ⟨value, rfl, rfl⟩

theorem rank_form_le (form : ExpressionForm) : form.tightness.rank ≤ Tightness.unary.rank := by
  cases form <;> decide

/-- An integer literal in front of what ends the expression is the whole expression. -/
theorem acts_integer (integer : literal.kind = .integer value radix)
    (found : stream.lookahead 0 = .ok literal) (next_found : stream.lookahead 1 = .ok next)
    (ends : form.tightness.endsBefore next.kind = true) (deep : 1 < fuel) :
    Acts (expressionsWithin fuel form) stream
      (check (Analysis.addInteger value literal.location literal.location)) stream.rest := by
  have is_leaf : literal.kind.isLeaf = true := by rw [integer]; rfl
  have no_operator : Piece.Begin (fun kind => isUnaryOperator kind = false) [.exactly literal] := by
    refine ⟨_, _, rfl, ?_⟩
    rw [Piece.tokenKind, integer]
    rfl
  have le : form.tightness.rank ≤ Tightness.primary.rank := (rank_form_le form).trans (by decide)
  have reads := (Reads.leaf is_leaf).of_rank_le le fun _ _ => no_operator
  rw [← TokenStream.lookahead_rest] at next_found
  have acts := reads.nested form ⟨literal, found, rfl, rfl⟩ next_found ends deep
  rwa [ExprTree.analyzeLeaf, integer, Analysis.integerLiteral, integer] at acts

/-- So is an integer literal behind a minus sign. -/
theorem acts_negatedInteger (minus : sign.kind = .arithmetic .sub)
    (integer : literal.kind = .integer value radix) (sign_found : stream.lookahead 0 = .ok sign)
    (found : stream.lookahead 1 = .ok literal) (next_found : stream.lookahead 2 = .ok next)
    (ends : form.tightness.endsBefore next.kind = true) (deep : 2 < fuel) :
    Acts (expressionsWithin fuel form) stream
      (check (Analysis.addInteger (-value) literal.location sign.location)) stream.rest.rest := by
  have is_integer : literal.kind.isInteger = true := by rw [integer]; rfl
  have reads := (Reads.negatedInteger minus is_integer).of_rank_le (rank_form_le form)
    fun _ tighter => absurd tighter (Nat.lt_irrefl _)
  rw [← TokenStream.lookahead_rest] at found
  rw [← TokenStream.lookahead_rest, ← TokenStream.lookahead_rest] at next_found
  have acts := reads.nested form ⟨sign, sign_found, rfl, literal, found, rfl, rfl⟩ next_found ends deep
  rwa [Analysis.negatedIntegerLiteral, integer] at acts

end Parser

/-! ## Values of constants and differences -/

theorem Evaluation.evalKind_sub (program : Program) (floats : FloatArithmetic) (evaluator : Evaluator)
    (frame : Frame) (left right : ExprId) :
    evalKind program floats evaluator frame (.binary .sub left right) = (do
      let leftValue ← evaluator.expr frame left
      let rightValue ← evaluator.expr frame right
      Evaluation.lift
        (BinaryOperator.sub.apply floats (program.ast.typeOf left) leftValue rightValue)) := rfl

/-- Whether an expression evaluates to an integer, and does nothing else, in every program that holds it. -/
def Ast.GivesInteger (ast : Ast) (id : ExprId) (number : Int32) (depth : Nat) : Prop :=
  ∀ (program : Program) (floats : FloatArithmetic) (fuel : Nat) (frame : Evaluation.Frame)
    (world : Evaluation.World), ast.Extends program.ast → depth ≤ fuel →
    Evaluation.Yields ((program.evaluator floats fuel).expr frame id) world (.int number) world

namespace Ast

variable {ast : Ast} {id left right : ExprId} {number leftNumber rightNumber : Int32} {depth : Nat}
  {type : Ty} {location : Location}

theorem expr_of_getElem? {expr : Expr} (found : ast.exprs[id.index]? = some expr) :
    id.index < ast.exprs.size ∧ ast.expr id = expr := by
  refine ⟨(Array.getElem?_eq_some_iff.1 found).1, ?_⟩
  rw [Ast.expr, found, Option.getD_some]

theorem givesInteger_of_int (found : ast.exprs[id.index]? = some ⟨.int number, type, location⟩) :
    ast.GivesInteger id number 1 := by
  obtain ⟨held, expr_eq⟩ := expr_of_getElem? found
  intro program floats fuel frame world extends' enough
  obtain ⟨more, rfl⟩ := Nat.exists_eq_add_of_le' enough
  change Evaluation.Yields (Evaluation.evalKind program floats (program.evaluator floats more) frame
    (program.ast.expr id).kind) _ _ _
  rw [extends'.expr_eq id held, expr_eq]
  exact Evaluation.yields_pure.2 ⟨rfl, rfl⟩

theorem givesInteger_of_sub {leftExpr : Expr}
    (found : ast.exprs[id.index]? = some ⟨.binary .sub left right, type, location⟩)
    (left_found : ast.exprs[left.index]? = some leftExpr) (left_int : leftExpr.type = .int)
    (left_gives : ast.GivesInteger left leftNumber depth)
    (right_gives : ast.GivesInteger right rightNumber depth) :
    ast.GivesInteger id (leftNumber - rightNumber) (depth + 1) := by
  obtain ⟨held, expr_eq⟩ := expr_of_getElem? found
  obtain ⟨left_held, left_eq⟩ := expr_of_getElem? left_found
  intro program floats fuel frame world extends' enough
  obtain ⟨more, rfl⟩ := Nat.exists_eq_add_of_le' enough
  have inner_enough : depth ≤ more + depth := Nat.le_add_left _ _
  change Evaluation.Yields (Evaluation.evalKind program floats (program.evaluator floats (more + depth))
    frame (program.ast.expr id).kind) _ _ _
  rw [extends'.expr_eq id held, expr_eq, Evaluation.evalKind_sub, Evaluation.yields_bind]
  refine ⟨_, _, left_gives program floats _ frame world extends' inner_enough, ?_⟩
  rw [Evaluation.yields_bind]
  refine ⟨_, _, right_gives program floats _ frame world extends' inner_enough, ?_⟩
  rw [extends'.typeOf_eq left_held, typeOf, left_eq, left_int]
  exact Evaluation.yields_lift.2 ⟨rfl, rfl⟩

end Ast

namespace Analysis

variable {before : Analysis} {value : Int64} {radix : Radix} {sign token : Token}

theorem toInt_zero_sub {number : Int32} (unsigned : 0 ≤ number.toInt) :
    (0 - number).toInt = -number.toInt := by
  have bound := number.toInt_lt
  rw [Int32.zero_sub, Int32.toInt_neg]
  exact Int.bmod_eq_of_le (by omega) (by omega)

/-- A literal that is folded with its sign has the negative of its value. -/
theorem negatedIntegerLiteral_gives (integer : token.kind = .integer value radix) :
    Ensures (negatedIntegerLiteral sign token) before
      (fun id after => ∃ number : Int32, number.toInt = (-value).toInt ∧
        after.ast.GivesInteger id number 1)
      fun _ _ => True := by
  rw [negatedIntegerLiteral, integer]
  refine (addInteger_added _ _ _).mono ?_ fun _ _ _ => trivial
  rintro id after ⟨fits, rfl, rfl⟩
  exact ⟨_, toInt_toInt32_of_fits fits, Ast.givesInteger_of_int (getElem?_withExprs 0 rfl)⟩

/-- An integer is negated by subtracting it from zero. -/
theorem unary_sub_added (minus : sign.kind = .arithmetic .sub) {operand : ExprId}
    (int : before.ast.typeOf operand = .int) :
    Ensures (unary sign operand) before
      (fun id after => id = ⟨before.ast.exprs.size + 1⟩ ∧ after = before.withExprs
        [⟨.int 0, .int, sign.location⟩,
          ⟨.binary .sub ⟨before.ast.exprs.size⟩ operand, .int, sign.location⟩])
      fun _ _ => True := by
  have spelled : sign.kind.unaryCategory? = some .arithmetic := by rw [minus]; rfl
  refine (unary_operates operand spelled).mono ?_ fun _ _ _ => trivial
  rintro id after ⟨-, added, modifies, rfl⟩
  -- An integer is its own value, so nothing is read before it is subtracted.
  have reads_eq : before.ast.reads operand = [] := by rw [Ast.reads, int]
  have value_eq : before.ast.valueAt before.ast.exprs.size operand = operand := by
    rw [Ast.valueAt, int]
  have type_eq : before.ast.valueType operand = .int := by
    rw [Ast.valueType, int]
    rfl
  rw [reads_eq, value_eq, type_eq] at modifies
  rw [reads_eq, List.nil_append]
  cases modifies with
  | plus other | bitNot other | logicalNot other =>
      rw [minus] at other
      cases other
  | minus => exact ⟨rfl, rfl⟩

/-- So has the difference of zero and the literal. -/
theorem unary_integerLiteral_gives (minus : sign.kind = .arithmetic .sub)
    (integer : token.kind = .integer value radix) (unsigned : 0 ≤ value.toInt) :
    Ensures (do unary sign (← integerLiteral token)) before
      (fun id after => ∃ number : Int32, number.toInt = -value.toInt ∧
        after.ast.GivesInteger id number 2)
      fun _ _ => True := by
  rw [ensures_bind, integerLiteral, integer]
  refine (addInteger_added _ _ _).mono ?_ fun _ _ _ => trivial
  rintro operand middle ⟨fits, rfl, rfl⟩
  have operand_int : (before.withExprs [⟨.int value.toInt32, .int, token.location⟩]).ast.typeOf
      ⟨before.ast.exprs.size⟩ = .int := by simp [withExprs, Ast.typeOf, Ast.expr]
  refine (unary_sub_added minus operand_int).mono ?_ fun _ _ _ => trivial
  rintro id after ⟨rfl, rfl⟩
  rw [size_withExprs, withExprs_append]
  refine ⟨0 - value.toInt32, ?_, ?_⟩
  · rw [toInt_zero_sub (by rwa [toInt_toInt32_of_fits fits]), toInt_toInt32_of_fits fits]
  · exact Ast.givesInteger_of_sub (getElem?_withExprs 2 rfl) (getElem?_withExprs 1 rfl) rfl
      (Ast.givesInteger_of_int (getElem?_withExprs 1 rfl))
      (Ast.givesInteger_of_int (getElem?_withExprs 0 rfl))

end Analysis

/-- A run of digits in a text, with a minus sign in front of it or with none, means its number or is rejected.
From 2^63 on it is no token. Below, neither it nor its negative overflows, and an expression that consists of it
comes to a constant of the value with its sign, or to the fault that this does not fit into 32 bits. Where the
literal is accepted both folded with a minus sign and subtracted from zero, both give the same value. -/
theorem integerLiteral_value {radix : Radix} {text digits rest gap front : List Char} {negative : Bool}
    (written : IntegerText radix text digits rest) (fronted : Front (text ++ rest) negative gap front)
    {scanner : Scanner} (text_eq : scanner.rest = front ++ (text ++ rest)) {stream : TokenStream}
    (readBy : stream.ReadBy scanner) :
    (2 ^ 63 ≤ numberOf radix digits → stream.lookahead negative.toNat =
      .error (.lexical (.inFile scanner.file (scanner.position.afterText front))
        (.integerOverflow (radix.marker ++ String.ofList digits)))) ∧
    (numberOf radix digits < 2 ^ 63 → ∃ value : Int64,
      value.toInt = numberOf radix digits ∧ (-value).toInt = -numberOf radix digits ∧
      stream.lookahead negative.toNat =
        .ok ⟨.integer value radix, .inFile scanner.file (scanner.position.afterText front)⟩ ∧
      (∀ next form fuel analysis, stream.lookahead (negative.toNat + 1) = .ok next →
        form.tightness.endsBefore next.kind = true → 2 < fuel →
        ComesToInteger (if negative then -numberOf radix digits else numberOf radix digits)
          (.inFile scanner.file (scanner.position.afterText front))
          (.inFile scanner.file (scanner.position.afterText gap)) analysis
          (TokenStream.rest^[negative.toNat + 1] stream)
          ((Parser.expressionsWithin fuel form).run ⟨stream, analysis⟩)) ∧
      ∀ sign token before folded afterFolded other built afterBuilt,
        sign.kind = .arithmetic .sub → token.kind = .integer value radix →
        (Analysis.negatedIntegerLiteral sign token).run before = (.ok folded, afterFolded) →
        (do Analysis.unary sign (← Analysis.integerLiteral token)).run other = (.ok built, afterBuilt) →
        ∃ number : Int32, number.toInt = -numberOf radix digits ∧
          afterFolded.ast.GivesInteger folded number 1 ∧ afterBuilt.ast.GivesInteger built number 2) := by
  obtain ⟨sign_found, literal_found⟩ := readBy.lookahead_integer written fronted text_eq
  refine ⟨fun large => ?_, fun small => ?_⟩
  · rw [literal_found, integerOf_of_le large]
    rfl
  rw [integerOf_of_lt small] at literal_found
  have value_eq : (Int64.ofNat (numberOf radix digits)).toInt = numberOf radix digits :=
    Int64.toInt_ofNat_of_lt small
  generalize Int64.ofNat (numberOf radix digits) = value at literal_found value_eq
  have negative_eq : (-value).toInt = -numberOf radix digits := by
    rw [Int64.toInt_neg, Int.bmod_eq_of_le (by omega) (by omega), value_eq]
  refine ⟨value, value_eq, negative_eq, literal_found, ?_, ?_⟩
  · intro next form fuel analysis next_found ends enough
    -- The range is that of the value with its sign, which is why the least integer is a constant.
    cases fronted with
    | plain =>
        rw [Parser.acts_integer rfl literal_found next_found ends (Nat.lt_of_succ_lt enough) analysis,
          ← value_eq]
        exact Parser.comesToInteger_addInteger value _ _ ⟨stream.rest, analysis⟩
    | minus =>
        rw [Parser.acts_negatedInteger rfl rfl (sign_found rfl) literal_found next_found ends enough
          analysis, ← negative_eq]
        exact Parser.comesToInteger_addInteger (-value) _ _ ⟨stream.rest.rest, analysis⟩
  · intro sign token before folded afterFolded other built afterBuilt minus integer folds builds
    obtain ⟨number, number_eq, folded_gives⟩ :=
      (Analysis.negatedIntegerLiteral_gives integer).result folds
    obtain ⟨same, same_eq, built_gives⟩ :=
      (Analysis.unary_integerLiteral_gives minus integer (by omega)).result builds
    obtain rfl : same = number := Int32.toInt_inj.1 (by rw [same_eq, number_eq, negative_eq, value_eq])
    exact ⟨same, number_eq.trans negative_eq, folded_gives, built_gives⟩

/-- The least integer is a constant behind its minus sign, the least number above all tokens is none, and a
small one is accepted both folded and subtracted. -/
theorem integerLiteral_value_of_limits :
    (∃ behind, (Parser.expressionsWithin 3 .expression).run
        ⟨.ofSource ⟨"t", "-0x80000000;"⟩, .initial⟩ = .ok (⟨0⟩, ⟨behind,
          Analysis.initial.withExprs [⟨.int Int32.minValue, .int, .inFile "t" ⟨1, 1⟩⟩]⟩)) ∧
    (TokenStream.ofSource ⟨"t", "9223372036854775808"⟩).lookahead 0 =
      .error (.lexical (.inFile "t" ⟨1, 1⟩) (.integerOverflow "9223372036854775808")) ∧
    ∃ folded afterFolded built afterBuilt, ∃ number : Int32,
      (Analysis.negatedIntegerLiteral ⟨.arithmetic .sub, .unknown⟩ ⟨.integer 7 .decimal, .unknown⟩).run
        .initial = (.ok folded, afterFolded) ∧
      (do Analysis.unary ⟨.arithmetic .sub, .unknown⟩
            (← Analysis.integerLiteral ⟨.integer 7 .decimal, .unknown⟩)).run .initial =
        (.ok built, afterBuilt) ∧
      number.toInt = -7 ∧ afterFolded.ast.GivesInteger folded number 1 ∧
      afterBuilt.ast.GivesInteger built number 2 := by
  refine ⟨?_, ?_, ?_⟩
  · have written : IntegerText .hexadecimal "0x80000000".toList "80000000".toList [';'] :=
      .marked (by decide) (by decide) (List.all_eq_true.1 rfl) rfl
    have least : numberOf .hexadecimal "80000000".toList = 2 ^ 31 := by decide
    obtain ⟨value, -, -, -, comes, -⟩ := (integerLiteral_value written (.minus .nil .nil) rfl
      (TokenStream.readBy_ofSource ⟨"t", "-0x80000000;"⟩)).2 (by rw [least]; decide)
    have constant := comes ⟨.punctuation .semicolon, .inFile "t" ⟨1, 12⟩⟩ .expression 3 .initial rfl rfl
      (by decide)
    rw [least, ComesToInteger] at constant
    obtain ⟨number, number_eq, outcome⟩ := constant
    obtain rfl : number = Int32.minValue := Int32.toInt_inj.1 number_eq
    exact ⟨_, outcome⟩
  · have written : IntegerText .decimal "9223372036854775808".toList "9223372036854775808".toList [] :=
      .decimal (by decide) (List.all_eq_true.1 rfl) rfl rfl (by rintro _ _ _ _ ⟨⟩)
    exact (integerLiteral_value written (.plain .nil) rfl
      (TokenStream.readBy_ofSource ⟨"t", "9223372036854775808"⟩)).1 (by decide)
  · have written : IntegerText .decimal ['7'] ['7'] [] :=
      .decimal (by decide) (List.all_eq_true.1 rfl) rfl rfl (by rintro _ _ _ _ ⟨⟩)
    have seven : numberOf .decimal ['7'] = 7 := by decide
    obtain ⟨value, value_eq, -, -, -, same⟩ := (integerLiteral_value written (.plain .nil) rfl
      (TokenStream.readBy_ofSource ⟨"t", "7"⟩)).2 (by rw [seven]; decide)
    rw [seven] at value_eq same
    obtain rfl : value = 7 := Int64.toInt_inj.1 value_eq
    obtain ⟨number, gives⟩ := same ⟨.arithmetic .sub, .unknown⟩ ⟨.integer 7 .decimal, .unknown⟩
      .initial _ _ .initial _ _ rfl rfl rfl rfl
    exact ⟨_, _, _, _, number, rfl, rfl, gives⟩

end Minilang
