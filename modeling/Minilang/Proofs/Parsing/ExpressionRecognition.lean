import Minilang.Parsing.Expressions
import Minilang.Proofs.Parsing.RecognitionForms

/-!
# Recognition of types and expressions

Each parser recognizes its rule. What would extend an expression does not follow it, and this is what each
rule of the cascade adds to the one below it.
-/

namespace Minilang

open Grammar Form
open Analysis (OperatorLevel BlamesMeaning)

namespace Parser

variable {before : ParserState} {barred : List Terminal} {token : Token}

/-! ## Types -/

theorem functionType_recognizes {nested : Parser Ty} (fuel : Nat)
    (nested_recognizes : ∀ state, Recognizes nested state Nonterminal.type [])
    (before : ParserState) :
    Recognizes (functionType nested fuel) before (sequence [optional (list Nonterminal.type),
      sign .rightParen, sign .arrow, Nonterminal.type]) [] := by
  have result_recognizes (parameters : List Ty) (state : ParserState) :
      Recognizes (do
        expectSign .arrow
        let result ← nested
        return Ty.function result parameters) state (sequence [sign .arrow, Nonterminal.type]) [] :=
    .expect_bind ((nested_recognizes _).bind_pure _).seq_empty
  refine .of_found fun token found => ?_
  rw [functionType]
  by_cases closed : token.kind = .punctuation .rightParen
  · refine .optional_seq_none found closed rfl rfl ?_
    refine .consume_bind_of_eq found closed ?_
    rw [if_pos rfl]
    exact result_recognizes [] before.advanced
  · refine .optional_seq_some found closed ?_
    refine .consume_bind_of_ne found closed ?_
    rw [if_neg Bool.false_ne_true]
    have parameters_recognizes : Recognizes (sepByComma nested fuel) before
        (list Nonterminal.type) [.oneOf (.punctuation .comma) []] :=
      .sepByComma fuel rfl rfl nested_recognizes before
    refine .bind rfl parameters_recognizes fun parameters after => ?_
    exact .expect_bind (result_recognizes parameters after.advanced)

theorem typeWithin_recognizes (fuel : Nat) (before : ParserState) :
    Recognizes (typeWithin fuel) before Nonterminal.type [] := by
  induction fuel generalizing before with
  | zero => exact .exhausted
  | succ fuel induction =>
      refine .nonterminal (.peek_bind fun token found => ?_)
      cases spelled : token.kind with
      | basicType type =>
          have word : typeWords.admits token.kind = true := by
            rw [spelled]
            cases type <;> rfl
          refine .choice 0 rfl found spelled (by cases type <;> rfl) ?_
          exact .of_seq_empty (.next_bind found word (.pure _))
      | arithmetic operator =>
          cases operator with
          | mul =>
              refine .choice 1 rfl found spelled rfl ?_
              exact .next_bind found (by rw [spelled]; rfl) ((induction _).bind_pure _).seq_empty
          | _ => exact .unexpected found rfl (by rw [spelled]; rfl)
      | punctuation sign =>
          cases sign with
          | leftParen =>
              refine .choice 2 rfl found spelled rfl ?_
              exact .next_bind found (by rw [spelled]; rfl) (functionType_recognizes fuel induction _)
          | _ => exact .unexpected found rfl (by rw [spelled]; rfl)
      | _ => exact .unexpected found rfl (by rw [spelled]; rfl)

/-! ## Expressions -/

/-- What would extend a call or an index expression. -/
def postfixSigns : List Terminal :=
  [.oneOf (.punctuation .leftParen) [], .oneOf (.punctuation .leftBracket) []]

/-- What would extend an expression of the given levels, the loosest level first. -/
def extending : List OperatorLevel → List Terminal
  | [] => .oneOf (.keyword .asWord) [] :: postfixSigns
  | level :: tighter => operatorSigns level :: extending tighter

/-- What would extend a conditional. -/
def conditionalSigns : List Terminal :=
  .oneOf (.punctuation .question) [] :: extending OperatorLevel.all

/-- What would extend an assignment. -/
def assignmentSigns : List Terminal := .oneOf (.punctuation .assign) [] :: conditionalSigns

/-- The rule of expressions with operators of the given levels. -/
def levelRule : List OperatorLevel → Nonterminal
  | [] => .cast
  | level :: _ => .operators level

/-- The rule of a nested form. -/
def nestedRule : ExpressionForm → Nonterminal
  | .expression => .expression
  | .conditional => .conditional
  | .unary => .unary

/-- What would extend a nested form. -/
def nestedSigns : ExpressionForm → List Terminal
  | .expression => assignmentSigns
  | .conditional => conditionalSigns
  | .unary => postfixSigns

/-- Whether the parsers of nested expressions recognize the rules of these. -/
def NestedRecognize (nested : ExpressionParsers) : Prop :=
  ∀ form before, Recognizes (nested form) before (nestedRule form) (nestedSigns form)

variable {nested : ExpressionParsers}

/-! ### Primary expressions -/

/-- A token that stands for itself is read and analyzed. -/
theorem literal_recognizes {terminal : Terminal} {step : Token → Check ExprId}
    (found : before.tokens.lookahead 0 = .ok token) (admitted : terminal.admits token.kind = true)
    (blames : ∀ token, BlamesMeaning (step token)) :
    Recognizes (do check (step (← next))) before terminal barred :=
  .of_seq_empty (.next_bind found admitted (.check (blames token)))

theorem primary_recognizes (nested_recognizes : NestedRecognize nested) (before : ParserState) :
    Recognizes (primary nested) before Nonterminal.primary [] := by
  refine .nonterminal (.peek_bind fun token found => ?_)
  cases spelled : token.kind with
  | integer value radix =>
      refine .choice 0 rfl found spelled rfl ?_
      exact literal_recognizes found (by rw [spelled]; rfl) .integerLiteral
  | float value =>
      refine .choice 1 rfl found spelled rfl ?_
      exact literal_recognizes found (by rw [spelled]; rfl) .floatLiteral
  | boolean value =>
      have word : truthWords.admits token.kind = true := by
        rw [spelled]
        cases value <;> rfl
      refine .choice 2 rfl found spelled (by cases value <;> rfl) ?_
      exact literal_recognizes found word .booleanLiteral
  | character value =>
      refine .choice 3 rfl found spelled rfl ?_
      exact literal_recognizes found (by rw [spelled]; rfl) .characterLiteral
  | string value =>
      refine .choice 4 rfl found spelled rfl ?_
      exact literal_recognizes found (by rw [spelled]; rfl) .stringLiteral
  | identifier name =>
      refine .choice 5 rfl found spelled rfl ?_
      exact literal_recognizes found (by rw [spelled]; rfl) .name
  | punctuation sign =>
      cases sign with
      | leftParen =>
          refine .choice 6 rfl found spelled rfl ?_
          refine .next_bind found (by rw [spelled]; rfl) ?_
          exact .bind rfl (nested_recognizes .expression _) fun inner after =>
            .expect_bind (.pure inner)
      | _ => exact .unexpected found rfl (by rw [spelled]; rfl)
  | _ => exact .unexpected found rfl (by rw [spelled]; rfl)

/-! ### Calls and index expressions -/

theorem arguments_recognizes (nested_recognizes : NestedRecognize nested) {closing : Punctuation}
    (unstarted : (Nonterminal.arguments : Form).starts (.punctuation closing) = false)
    (separate : (sequence [sign closing]).mayFollow
      (.oneOf (.punctuation .comma) [] :: assignmentSigns) [] = true)
    (fuel : Nat) (before : ParserState) :
    Recognizes (arguments nested closing fuel) before
      (sequence [optional Nonterminal.arguments, sign closing]) [] := by
  refine .of_found fun token found => ?_
  rw [arguments]
  by_cases closed : token.kind = .punctuation closing
  · refine .optional_seq_none found closed rfl unstarted ?_
    refine .consume_bind_of_eq found closed ?_
    rw [if_pos rfl]
    exact .pure _
  · refine .optional_seq_some found closed ?_
    refine .consume_bind_of_ne found closed ?_
    rw [if_neg Bool.false_ne_true]
    have list_recognizes : Recognizes (sepByComma (nested .expression) fuel) before
        (list Nonterminal.expression) (.oneOf (.punctuation .comma) [] :: assignmentSigns) :=
      .sepByComma fuel rfl rfl (nested_recognizes .expression) before
    exact .bind separate list_recognizes.nonterminal fun arguments after =>
      .expect_bind (.pure arguments)

/-- A call or an index expression around another one, behind its opening sign. -/
def postfixForms : Form :=
  Form.choice (sequence [sign .leftParen, optional Nonterminal.arguments, sign .rightParen])
    [sequence [sign .leftBracket, optional Nonterminal.arguments, sign .rightBracket]]

/-- The words of a call or an index expression, told apart by their first tokens. -/
theorem language_postfixForms_seq (rest : Form) :
    language (Form.choice
        (.seq (sign .leftParen)
          (.seq (sequence [optional Nonterminal.arguments, sign .rightParen]) rest))
        [.seq (sign .leftBracket)
          (.seq (sequence [optional Nonterminal.arguments, sign .rightBracket]) rest)]) =
      language (.seq postfixForms rest) := by
  rw [postfixForms, ← language_choice_seq]
  simp only [Form.choice, List.map, language_either, language_seq, language_sequence_cons, mul_assoc]

theorem postfixTail_recognizes (nested_recognizes : NestedRecognize nested) (fuel : Nat)
    (callee : ExprId) (before : ParserState) :
    Recognizes (postfixTail nested fuel callee) before (many postfixForms) postfixSigns := by
  induction fuel generalizing callee before with
  | zero => exact .exhausted
  | succ fuel induction =>
      refine .of_found fun token found => ?_
      rw [postfixTail]
      by_cases called : token.kind = .punctuation .leftParen
      · refine .many_more found (by rw [called]; rfl) ((Recognizes.choice 0 rfl found called rfl
          ?_).congr (language_postfixForms_seq _))
        refine .consume_bind_of_eq found called ?_
        rw [if_pos rfl]
        exact .bind rfl (arguments_recognizes nested_recognizes rfl rfl fuel _) fun arguments after =>
          .check_bind (.call callee arguments) induction
      · refine .consume_bind_of_ne found called ?_
        rw [if_neg Bool.false_ne_true]
        by_cases indexed : token.kind = .punctuation .leftBracket
        · refine .many_more found (by rw [indexed]; rfl) ((Recognizes.choice 1 rfl found indexed rfl
            ?_).congr (language_postfixForms_seq _))
          refine .consume_bind_of_eq found indexed ?_
          rw [if_pos rfl]
          exact .bind rfl (arguments_recognizes nested_recognizes rfl rfl fuel _)
            fun arguments after => .check_bind (.index callee arguments) induction
        · refine .consume_bind_of_ne found indexed ?_
          rw [if_neg Bool.false_ne_true]
          refine .many_none found ?_ (.pure callee)
          simp [starts, postfixForms, Form.choice, Form.sequence, Form.first, Form.nullable, sign,
            Form.token, Terminal.admits, called, indexed]

theorem language_postfixed :
    language (.seq Nonterminal.primary (many postfixForms)) = language (rule .postfixed) := by
  rw [rule, language_sequence_cons, language_sequence_cons, language_sequence_nil, mul_one,
    language_seq, postfixForms]

theorem postfixExpression_recognizes (nested_recognizes : NestedRecognize nested) (fuel : Nat)
    (before : ParserState) :
    Recognizes (postfixExpression nested fuel) before Nonterminal.postfixed postfixSigns :=
  .nonterminal (.congr language_postfixed (.bind rfl (primary_recognizes nested_recognizes before)
    (postfixTail_recognizes nested_recognizes fuel)))

/-! ### Operators on one value -/

/-- A negated integer is also an operator in front of an expression. -/
theorem language_unary :
    language (Form.choice (sequence [unarySigns, Nonterminal.unary]) [Nonterminal.postfixed]) =
      language (rule .unary) := by
  have integer_le (word : List TokenKind) (member : word ∈ language Terminal.integer) :
      word ∈ language Nonterminal.unary := by
    have in_primary : word ∈ language Nonterminal.primary := .nonterminal (.left member)
    have in_postfixed : word ∈ language Nonterminal.postfixed := by
      rw [language_nonterminal, ← language_postfixed, language_seq]
      exact ⟨word, in_primary, [], .none, List.append_nil word⟩
    exact .nonterminal (.right (.right in_postfixed))
  have minus_le (word : List TokenKind) (member : word ∈ language (Form.token (.arithmetic .sub))) :
      word ∈ language unarySigns := by
    obtain ⟨kind, admitted, rfl⟩ := mem_language_terminal.1 member
    obtain rfl : kind = .arithmetic .sub := by simpa [Terminal.admits] using admitted
    exact .terminal rfl
  have negated_le (word : List TokenKind)
      (member : word ∈ language (sequence [Form.token (.arithmetic .sub), Terminal.integer])) :
      word ∈ language (sequence [unarySigns, Nonterminal.unary]) := by
    simp only [language_sequence_cons, language_sequence_nil, mul_one] at member ⊢
    obtain ⟨sign, sign_member, literal, literal_member, rfl⟩ := member
    exact ⟨sign, minus_le sign sign_member, literal, integer_le literal literal_member, rfl⟩
  ext word
  exact ⟨.right, fun member => by
    cases member with
    | left negated => exact .left (negated_le word negated)
    | right other => exact other⟩

/-- An integer in front of what is no call and no index expression is a whole expression. -/
theorem integer_recognizes {step : Token → Check ExprId}
    (blames : ∀ token, BlamesMeaning (step token)) {value : Int64} {radix : Radix} {behind : Token}
    (found : before.tokens.lookahead 0 = .ok token) (spelled : token.kind = .integer value radix)
    (found_behind : before.tokens.lookahead 1 = .ok behind)
    (unstarted : postfixForms.starts behind.kind = false) :
    Recognizes (do check (step (← next))) before Nonterminal.unary postfixSigns := by
  have primary_words : language (.seq (rule .primary) (many postfixForms)) =
      language (.seq Nonterminal.primary (many postfixForms)) := by
    rw [language_seq, language_seq, language_nonterminal]
  refine .nonterminal (.choice 2 rfl found spelled rfl (.nonterminal (.congr language_postfixed ?_)))
  refine .congr ((language_choice_seq _ _ _).trans primary_words) ?_
  refine .choice 0 rfl found spelled rfl (.next_bind found (by rw [spelled]; rfl) ?_)
  have next_found : before.advanced.tokens.lookahead 0 = .ok behind :=
    (TokenStream.lookahead_rest _ 0).trans found_behind
  exact .many_none next_found unstarted (.check (blames token))

theorem unarySigns_admits (kind : TokenKind) : unarySigns.admits kind = isUnaryOperator kind := by
  cases kind with
  | arithmetic operator => cases operator <;> rfl
  | bitwise operator => cases operator <;> rfl
  | logical operator => cases operator <;> rfl
  | _ => rfl

/-- What stands behind an operator on one value, an integer that it negates or an expression. -/
theorem operand_recognizes (nested_recognizes : NestedRecognize nested) (operator : Token)
    (before : ParserState) :
    Recognizes (do
      if ← negatesLiteral operator then
        check (Analysis.negatedIntegerLiteral operator (← next))
      else
        check (Analysis.unary operator (← nested .unary))) before Nonterminal.unary postfixSigns := by
  have positive (state : ParserState) :
      Recognizes (do check (Analysis.unary operator (← nested .unary))) state
        Nonterminal.unary postfixSigns :=
    .of_seq_empty (.bind (by decide) (nested_recognizes .unary state) fun operand after =>
      .check (.unary operator operand))
  rw [negatesLiteral]
  by_cases minus : operator.kind ≠ .arithmetic .sub
  · rw [if_pos minus]
    exact positive before
  · rw [if_neg minus, bind_assoc]
    refine .peek_bind fun token found => ?_
    cases spelled : token.kind with
    | integer value radix =>
        dsimp only
        rw [bind_assoc]
        refine .lookahead_bind fun behind found_behind => ?_
        split
        · exact positive before
        · exact positive before
        · next not_called not_indexed =>
          refine integer_recognizes (.negatedIntegerLiteral operator) found spelled found_behind ?_
          simpa [starts, postfixForms, Form.choice, Form.sequence, Form.first, Form.nullable, sign,
            Form.token, Terminal.admits] using ⟨not_called, not_indexed⟩
    | _ => exact positive before

theorem unaryExpression_recognizes (nested_recognizes : NestedRecognize nested) (fuel : Nat)
    (before : ParserState) :
    Recognizes (unaryExpression nested fuel) before Nonterminal.unary postfixSigns := by
  refine .nonterminal (.congr language_unary (.of_found fun token found => ?_))
  have starts_eq : (sequence [unarySigns, Nonterminal.unary]).starts token.kind =
      isUnaryOperator token.kind := by
    rw [← unarySigns_admits]
    exact Bool.or_false _
  rw [unaryExpression]
  cases operates : isUnaryOperator token.kind with
  | false =>
      refine .consumeIf_bind_of_rejected found operates ?_
      refine .choice 1 rfl found rfl ?_ (postfixExpression_recognizes nested_recognizes fuel before)
      have solid : (sequence [unarySigns, Nonterminal.unary]).nullable = false := rfl
      simp [distinguishes, starts_eq, operates, solid]
  | true =>
      refine .consumeIf_bind_of_accepted found operates ?_
      have admitted : unarySigns.admits token.kind = true := (unarySigns_admits _).trans operates
      have unstarted : (Nonterminal.postfixed : Form).starts token.kind = false := by
        cases spelled : token.kind with
        | arithmetic | bitwise | logical => rfl
        | _ =>
            rw [spelled] at operates
            cases operates
      refine .choice 0 rfl found rfl ?_ (.next_bind found admitted (.seq_empty
        (operand_recognizes nested_recognizes token _)))
      simp [distinguishes, unstarted, Form.nullable]

/-! ### Casts and operators on two values -/

theorem castTail_recognizes (fuel : Nat) (operand : ExprId) (before : ParserState) :
    Recognizes (castTail fuel operand) before
      (many (sequence [word .asWord, Nonterminal.type])) (extending []) := by
  induction fuel generalizing operand before with
  | zero => exact .exhausted
  | succ fuel induction =>
      refine .of_found fun token found => ?_
      rw [castTail]
      by_cases cast : token.kind = .keyword .asWord
      · have words : language (.seq (word .asWord) (.seq Nonterminal.type
              (many (sequence [word .asWord, Nonterminal.type])))) =
            language (.seq (sequence [word .asWord, Nonterminal.type])
              (many (sequence [word .asWord, Nonterminal.type]))) := by
          simp only [language_seq, language_sequence_cons, language_sequence_nil, mul_one, mul_assoc]
        refine .many_more found (by rw [cast]; rfl) (.congr words ?_)
        refine .consume_bind_of_eq found cast ?_
        rw [if_pos rfl]
        exact .bind rfl (typeWithin_recognizes fuel _) fun type after =>
          .check_bind (.cast operand type) induction
      · refine .consume_bind_of_ne found cast ?_
        rw [if_neg Bool.false_ne_true]
        exact .many_none found (Recognizes.starts_seq_token cast _) (.pure operand)

theorem castExpression_recognizes (nested_recognizes : NestedRecognize nested) (fuel : Nat)
    (before : ParserState) :
    Recognizes (castExpression nested fuel) before Nonterminal.cast (extending []) := by
  have words : language (.seq Nonterminal.unary
        (many (sequence [word .asWord, Nonterminal.type]))) = language (rule .cast) := by
    rw [rule, language_sequence_cons, language_sequence_cons, language_sequence_nil, mul_one,
      language_seq]
  exact .nonterminal (.congr words (.bind rfl
    (unaryExpression_recognizes nested_recognizes fuel before) (castTail_recognizes fuel)))

theorem operatorSigns_admits (level : OperatorLevel) (kind : TokenKind) :
    (operatorSigns level).admits kind = level.accepts kind := by
  cases kind with
  | arithmetic operator => cases level <;> cases operator <;> rfl
  | bitwise operator => cases level <;> cases operator <;> rfl
  | logical operator => cases level <;> cases operator <;> rfl
  | relational operator => cases level <;> cases operator <;> rfl
  | _ => cases level <;> rfl

/-- Neighbouring levels fit together, and no operator of a level extends its operands. -/
theorem separate_of_suffix {level : OperatorLevel} {tighter : List OperatorLevel}
    (suffix : level :: tighter <:+ OperatorLevel.all) :
    operand level = levelRule tighter ∧
      (many (sequence [operatorSigns level, operand level])).mayFollow (extending tighter)
        (extending (level :: tighter)) = true := by
  have separate : ∀ levels ∈ OperatorLevel.all.tails, ∀ level tighter,
      levels = level :: tighter → operand level = levelRule tighter ∧
        (many (sequence [operatorSigns level, operand level])).mayFollow (extending tighter)
          (extending (level :: tighter)) = true := by
    simp only [OperatorLevel.all, List.tails, List.forall_mem_cons]
    refine ⟨?_, ?_, ?_, ?_, ?_, ?_, ?_, ?_, ?_, ?_, nofun, nofun⟩ <;>
      · rintro _ _ ⟨⟩
        exact ⟨rfl, by decide⟩
  exact separate _ (List.mem_tails _ _ |>.2 suffix) level tighter rfl

theorem binaryTail_recognizes {level : OperatorLevel} {tighter : List OperatorLevel}
    {operand_reader : Parser ExprId} (suffix : level :: tighter <:+ OperatorLevel.all)
    (operands : ∀ state, Recognizes operand_reader state (levelRule tighter) (extending tighter))
    (fuel : Nat) (left : ExprId) (before : ParserState) :
    Recognizes (binaryTail level operand_reader fuel left) before
      (many (sequence [operatorSigns level, operand level])) (extending (level :: tighter)) := by
  obtain ⟨operand_eq, may_follow⟩ := separate_of_suffix suffix
  induction fuel generalizing left before with
  | zero => exact .exhausted
  | succ fuel induction =>
      refine .of_found fun token found => ?_
      rw [binaryTail]
      cases operates : level.accepts token.kind with
      | true =>
          have admitted : (operatorSigns level).admits token.kind = true :=
            (operatorSigns_admits level _).trans operates
          have stopped : bars (extending (level :: tighter)) token.kind = true := by
            rw [bars, extending, List.any_cons, admitted, Bool.true_or]
          have words : language (.seq (operatorSigns level) (.seq (operand level)
                (many (sequence [operatorSigns level, operand level])))) =
              language (.seq (sequence [operatorSigns level, operand level])
                (many (sequence [operatorSigns level, operand level]))) := by
            simp only [language_seq, language_sequence_cons, language_sequence_nil, mul_one,
              mul_assoc]
          refine .many_more found stopped (.congr words ?_)
          refine .consumeIf_bind_of_accepted found operates (.next_bind found admitted ?_)
          rw [operand_eq] at may_follow induction ⊢
          exact .bind may_follow (operands _) fun right after =>
            .check_bind (.combine level token left right) induction
      | false =>
          have unstarted : (sequence [operatorSigns level, operand level]).starts token.kind =
              false := by
            rw [← operates, ← operatorSigns_admits]
            exact Bool.or_false _
          refine .consumeIf_bind_of_rejected found operates ?_
          exact .many_none found unstarted (.pure left)

theorem binaryExpression_recognizes (nested_recognizes : NestedRecognize nested) (fuel : Nat)
    {levels : List OperatorLevel} (suffix : levels <:+ OperatorLevel.all) (before : ParserState) :
    Recognizes (binaryExpression nested fuel levels) before (levelRule levels) (extending levels) := by
  induction levels generalizing before with
  | nil => exact castExpression_recognizes nested_recognizes fuel before
  | cons level tighter induction =>
      have operands := induction ((List.suffix_cons level tighter).trans suffix)
      obtain ⟨operand_eq, may_follow⟩ := separate_of_suffix suffix
      have words : language (.seq (levelRule tighter)
            (many (sequence [operatorSigns level, operand level]))) =
          language (rule (.operators level)) := by
        rw [rule, language_sequence_cons, language_sequence_cons, language_sequence_nil, mul_one,
          language_seq, operand_eq]
      exact .nonterminal (.congr words (.bind may_follow (operands before)
        (binaryTail_recognizes suffix operands fuel)))

/-! ### Conditionals and assignments -/

theorem conditionalExpression_recognizes (nested_recognizes : NestedRecognize nested) (fuel : Nat)
    (before : ParserState) :
    Recognizes (conditionalExpression nested fuel) before Nonterminal.conditional
      conditionalSigns := by
  have words : language (.seq (levelRule OperatorLevel.all) (optional (sequence [sign .question,
        Nonterminal.expression, sign .colon, Nonterminal.conditional]))) =
      language (rule .conditional) := by
    rw [rule, language_sequence_cons, language_sequence_cons, language_sequence_nil, mul_one,
      language_seq]
    rfl
  refine .nonterminal (.congr words ?_)
  refine .bind (by decide) (binaryExpression_recognizes nested_recognizes fuel List.suffix_rfl before)
    fun guard after => .of_found fun token found => ?_
  by_cases asked : token.kind = .punctuation .question
  · refine .optional_some found (by rw [asked]; rfl) (.consume_bind_of_eq found asked ?_)
    rw [if_pos rfl]
    refine .bind (by decide) (nested_recognizes .expression _) fun whenTrue behind => ?_
    refine .expect_bind (.bind (by decide) (nested_recognizes .conditional _) ?_)
    exact fun whenFalse last => .check (.conditional guard whenTrue whenFalse)
  · refine .consume_bind_of_ne found asked ?_
    rw [if_neg Bool.false_ne_true]
    exact .optional_none found rfl (Recognizes.starts_seq_token asked _) (.pure guard)

theorem assignmentExpression_recognizes (nested_recognizes : NestedRecognize nested) (fuel : Nat)
    (before : ParserState) :
    Recognizes (assignmentExpression nested fuel) before Nonterminal.expression
      assignmentSigns := by
  have words : language (.seq Nonterminal.conditional (optional (sequence [sign .assign,
        Nonterminal.expression]))) = language (rule .expression) := by
    have same : language Nonterminal.expression = language Nonterminal.assignment :=
      language_nonterminal .expression
    rw [← language_nonterminal, same, language_nonterminal .assignment, rule]
    simp only [language_sequence_cons, language_sequence_nil, mul_one, language_seq,
      language_optional, same]
  refine .nonterminal (.congr words ?_)
  refine .bind (by decide) (conditionalExpression_recognizes nested_recognizes fuel before)
    fun target after => .of_found fun token found => ?_
  by_cases assigned : token.kind = .punctuation .assign
  · refine .optional_some found (by rw [assigned]; rfl) (.consume_bind_of_eq found assigned ?_)
    rw [if_pos rfl]
    exact .bind (by decide) (nested_recognizes .expression _) fun value last =>
      .check (.assignment target value)
  · refine .consume_bind_of_ne found assigned ?_
    rw [if_neg Bool.false_ne_true]
    exact .optional_none found rfl (Recognizes.starts_seq_token assigned _) (.pure target)

theorem expressionsWithin_recognizes (fuel : Nat) : NestedRecognize (expressionsWithin fuel) := by
  induction fuel with
  | zero => exact fun form before => .exhausted
  | succ fuel induction =>
      intro form before
      cases form with
      | expression => exact assignmentExpression_recognizes induction (fuel + 1) before
      | conditional => exact conditionalExpression_recognizes induction (fuel + 1) before
      | unary => exact unaryExpression_recognizes induction (fuel + 1) before

/-- The parser of expressions recognizes the rule of expressions. -/
theorem expressionWithin_recognizes (fuel : Nat) (before : ParserState) :
    Recognizes (expressionWithin fuel) before Nonterminal.expression assignmentSigns :=
  expressionsWithin_recognizes fuel .expression before

end Parser

end Minilang
