import Minilang.Proofs.Analysis.Expressions
import Minilang.Proofs.Parsing.Outcome

/-!
# Parsing types and expressions

Fuel never runs out, every step of analysis is given a token that belongs to it, and so only the program
can be at fault. What comes out is an expression of the range that was started with.
-/

namespace Minilang.Parser

open ParserState
open Analysis (Adds Gives Holds OperatorLevel)

variable {before : ParserState} {fuel : Nat}

section Types

/-- A parser of types that leaves analysis alone. -/
def ParsesType (fuel : Nat) (parser : Parser Ty) : Prop :=
  ∀ before : ParserState, before.Within fuel → Parses parser before fun _ after =>
    before.NotBefore after ∧ after.analysis = before.analysis

theorem functionType_parses {nested : Parser Ty} (nested_parses : ParsesType fuel nested) :
    ParsesType fuel (functionType nested fuel) := by
  intro before within
  have behindParameters (parameters : List Ty) (state : ParserState)
      (later : before.NotBefore state) (same : state.analysis = before.analysis) :
      Parses (do
        expectSign .arrow
        let result ← nested
        return Ty.function result parameters) state fun _ after =>
          before.NotBefore after ∧ after.analysis = before.analysis := by
    rw [parses_bind]
    refine (expectSign_parses (later.within within) .arrow).mono ?_
    rintro _ behindArrow ⟨behind, same'⟩
    rw [parses_bind]
    have arrow_later := later.trans behind.notBefore
    refine (nested_parses behindArrow (arrow_later.within within)).mono ?_
    rintro result after ⟨last, same''⟩
    exact ⟨arrow_later.trans last, by rw [same'', same', same]⟩
  rw [functionType, parses_bind]
  refine (consumeSign_parses within .rightParen).mono ?_
  rintro _ state (⟨rfl, behind, same⟩ | ⟨rfl, rfl⟩)
  · rw [if_pos rfl, parses_bind, parses_pure]
    exact behindParameters [] state behind.notBefore same
  · rw [if_neg Bool.false_ne_true, parses_bind]
    have step (done : List Ty) (inner : ParserState) (innerWithin : inner.Within fuel)
        (held : inner.analysis = state.analysis) :
        Parses nested inner fun _ after =>
          inner.NotBefore after ∧ after.analysis = state.analysis :=
      (nested_parses inner innerWithin).mono fun _ _ parsed => ⟨parsed.1, parsed.2.trans held⟩
    refine (sepByComma_parses (fun _ analysis => analysis = state.analysis) [] le_rfl step within
      rfl).mono ?_
    rintro parameters behindTypes ⟨later, same⟩
    rw [parses_bind]
    refine (expectSign_parses (later.within within) .rightParen).mono ?_
    rintro _ after ⟨behind, same'⟩
    rw [parses_bind, parses_pure]
    exact behindParameters parameters after (later.trans behind.notBefore) (same'.trans same)

/-- Types are parsed without looking at the program. -/
theorem typeWithin_parses (fuel : Nat) : ParsesType fuel (typeWithin fuel) := by
  induction fuel with
  | zero => exact fun before within => absurd within.2 (Nat.not_lt_zero _)
  | succ fuel induction =>
      intro before within
      rw [typeWithin, parses_bind]
      refine (peek_parses within).mono ?_
      rintro kind state ⟨⟨token, found, spelled⟩, rfl⟩
      split
      · rw [parses_bind]
        refine (next_parses within found (by simp [spelled])).mono ?_
        rintro _ after ⟨-, behind, same⟩
        exact ⟨behind.notBefore, same⟩
      · rw [parses_bind]
        refine (next_parses within found (by simp [spelled])).mono ?_
        rintro _ middle ⟨-, behind, same⟩
        rw [parses_bind]
        refine (induction middle (behind.within within)).mono ?_
        rintro target after ⟨later, same'⟩
        exact ⟨behind.notBefore.trans later, same'.trans same⟩
      · rw [parses_bind]
        refine (next_parses within found (by simp [spelled])).mono ?_
        rintro _ middle ⟨-, behind, same⟩
        refine (functionType_parses induction middle (behind.within within)).mono ?_
        rintro type after ⟨later, same'⟩
        exact ⟨behind.notBefore.trans later, same'.trans same⟩
      · exact unexpected_parses within _

end Types

/-- A state further on, between which and another one only expressions of the range were added. -/
structure Reaches (first : Nat) (before after : ParserState) : Prop where
  /-- The tokens go on. -/
  later : before.NotBefore after
  /-- Expressions are added. -/
  adds : Adds first before.analysis after.analysis

namespace Reaches

variable {first limit : Nat} {middle after : ParserState}

theorem refl (within : before.Within limit) : Reaches first before before :=
  ⟨within.notBefore, .refl⟩

theorem trans (left : Reaches first before middle) (right : Reaches first middle after) :
    Reaches first before after :=
  ⟨left.later.trans right.later, left.adds.trans right.adds⟩

/-- A state is reached behind tokens that were consumed. -/
theorem behind (reaches : Reaches first before middle) (behind : middle.Behind after)
    (same : after.analysis = middle.analysis) : Reaches first before after :=
  ⟨reaches.later.trans behind.notBefore, by rw [same]; exact reaches.adds⟩

theorem within (reaches : Reaches first before after) (within : before.Within limit) :
    after.Within limit := reaches.later.within within

/-- Names keep their types. -/
theorem typed (reaches : Reaches first before after) (typed : before.analysis.NamesTyped) :
    after.analysis.NamesTyped := reaches.adds.namesTyped typed

theorem first_le (reaches : Reaches first before after)
    (first_le : first ≤ before.analysis.ast.exprs.size) :
    first ≤ after.analysis.ast.exprs.size := first_le.trans reaches.adds.extends'.exprs_le

end Reaches

/-- An expression of the range comes out, and only expressions are added for it. -/
def Yields (first : Nat) (before : ParserState) (id : ExprId) (after : ParserState) : Prop :=
  Reaches first before after ∧ after.analysis.Holds first id

theorem Yields.trans {first : Nat} {middle after : ParserState} {id : ExprId}
    (reaches : Reaches first before middle) (yields : Yields first middle id after) :
    Yields first before id after :=
  ⟨reaches.trans yields.1, yields.2⟩

/-- A parser of expressions, run where every name in scope has a type. -/
def ParsesExpression (fuel : Nat) (parser : Parser ExprId) : Prop :=
  ∀ (before : ParserState) (first : Nat), before.Within fuel → before.analysis.NamesTyped →
    first ≤ before.analysis.ast.exprs.size → Parses parser before (Yields first before)

/-- A parser that goes on behind an expression of the range. -/
def ParsesTail (fuel : Nat) (parser : ExprId → Parser ExprId) : Prop :=
  ∀ (before : ParserState) (first : Nat) (id : ExprId), before.Within fuel →
    before.analysis.NamesTyped → before.analysis.Holds first id →
    Parses (parser id) before (Yields first before)

theorem ParsesExpression.bind_tail {parser : Parser ExprId} {tail : ExprId → Parser ExprId}
    (parses : ParsesExpression fuel parser) (tail_parses : ParsesTail fuel tail) :
    ParsesExpression fuel (parser >>= tail) := by
  intro before first within typed first_le
  rw [parses_bind]
  refine (parses before first within typed first_le).mono ?_
  rintro id middle ⟨reaches, held⟩
  refine (tail_parses middle first id (reaches.within within) (reaches.typed typed) held).mono ?_
  exact fun _ _ yields => yields.trans reaches

section Checks

variable {first limit : Nat} {step : Check ExprId}

/-- A step of analysis that was given what belongs to it. -/
theorem check_parses {fitting : Prop} (within : before.Within limit)
    (ensures : Analysis.Ensures step before.analysis (Gives first before.analysis)
      (Analysis.FailsFor fitting first before.analysis)) (fits : fitting) :
    Parses (check step) before (Yields first before) := by
  rw [parses_check]
  refine ensures.mono ?_ fun _ _ fails => fails.2 fits
  exact fun id analysis gives => ⟨⟨within.notBefore, gives.1⟩, gives.2⟩

/-- A step of analysis that never refuses. -/
theorem check_parses_of_fails (within : before.Within limit)
    (ensures : Analysis.Ensures step before.analysis (Gives first before.analysis)
      (Analysis.Fails first before.analysis)) :
    Parses (check step) before (Yields first before) := by
  rw [parses_check]
  refine ensures.mono ?_ fun _ _ fails => fails.2
  exact fun id analysis gives => ⟨⟨within.notBefore, gives.1⟩, gives.2⟩

/-- A step that starts a range of its own fits into any range that started before. -/
theorem check_parses_of_primary {fitting : Prop} (within : before.Within limit)
    (first_le : first ≤ before.analysis.ast.exprs.size)
    (ensures : Analysis.Ensures step before.analysis
      (Gives before.analysis.ast.exprs.size before.analysis)
      (Analysis.FailsFor fitting before.analysis.ast.exprs.size before.analysis))
    (fits : fitting) : Parses (check step) before (Yields first before) := by
  refine (check_parses within ensures fits).mono ?_
  rintro id after ⟨reaches, held⟩
  exact ⟨⟨reaches.later, reaches.adds.of_le first_le⟩, first_le.trans held.1, held.2⟩

end Checks

section Forms

variable {nested : ExpressionParsers}

/-- A token that starts a primary expression is consumed before its step is taken. -/
theorem literal_parses {first limit : Nat} {token : Token} {step : Token → Check ExprId}
    (fitting : Analysis → Prop) (within : before.Within limit)
    (found : before.tokens.lookahead 0 = .ok token) (more : token.kind ≠ .endOfInput)
    (first_le : first ≤ before.analysis.ast.exprs.size)
    (ensures : ∀ analysis : Analysis, Analysis.Ensures (step token) analysis
      (Gives analysis.ast.exprs.size analysis)
      (Analysis.FailsFor (fitting analysis) analysis.ast.exprs.size analysis))
    (fits : fitting before.analysis) :
    Parses (do check (step (← next))) before (Yields first before) := by
  rw [parses_bind]
  refine (next_parses within found more).mono ?_
  rintro _ middle ⟨rfl, behind, same⟩
  have reaches : Reaches first before middle := (Reaches.refl within).behind behind same
  refine (check_parses_of_primary (reaches.within within) (reaches.first_le first_le)
    (ensures _) (same ▸ fits)).mono ?_
  exact fun _ _ yields => yields.trans reaches

/-- Literals and names match the steps that they lead to. -/
theorem primary_parses (nested_parses : ParsesExpression fuel (nested .expression)) :
    ParsesExpression (fuel + 1) (primary nested) := by
  intro before first within typed first_le
  rw [primary, parses_bind]
  refine (peek_parses within).mono ?_
  rintro kind state ⟨⟨token, found, spelled⟩, rfl⟩
  have more : kind ≠ .endOfInput → token.kind ≠ .endOfInput := fun other => spelled ▸ other
  cases kind with
  | integer value radix =>
      exact literal_parses (fun _ => ∃ value radix, token.kind = .integer value radix)
        within found (more (by simp)) first_le (fun _ => Analysis.integerLiteral_ensures token)
        ⟨_, _, spelled⟩
  | float value =>
      exact literal_parses (fun _ => ∃ value, token.kind = .float value)
        within found (more (by simp)) first_le (fun _ => Analysis.floatLiteral_ensures token)
        ⟨_, spelled⟩
  | boolean value =>
      exact literal_parses (fun _ => ∃ value, token.kind = .boolean value)
        within found (more (by simp)) first_le (fun _ => Analysis.booleanLiteral_ensures token)
        ⟨_, spelled⟩
  | character value =>
      exact literal_parses (fun _ => ∃ value, token.kind = .character value)
        within found (more (by simp)) first_le (fun _ => Analysis.characterLiteral_ensures token)
        ⟨_, spelled⟩
  | string value =>
      exact literal_parses (fun _ => True) within found (more (by simp)) first_le
        (fun _ => (Analysis.stringLiteral_ensures token).mono (fun _ _ gives => gives)
          fun _ _ fails => fails.failsFor) trivial
  | identifier name =>
      exact literal_parses
        (fun analysis => (∃ name, token.kind = .identifier name) ∧ analysis.NamesTyped)
        within found (more (by simp)) first_le (fun _ => Analysis.name_ensures token)
        ⟨⟨_, spelled⟩, typed⟩
  | punctuation sign =>
      cases sign with
      | leftParen =>
          rw [parses_bind]
          refine (next_parses within found (more (by simp))).mono ?_
          rintro _ middle ⟨-, behind, same⟩
          have reaches : Reaches first state middle := (Reaches.refl within).behind behind same
          rw [parses_bind]
          refine (nested_parses middle first (behind.within within) (reaches.typed typed)
            (reaches.first_le first_le)).mono ?_
          rintro inner behindInner ⟨inner_reaches, held⟩
          rw [parses_bind]
          refine (expectSign_parses (inner_reaches.within (reaches.within within))
            .rightParen).mono ?_
          rintro _ after ⟨behind', same'⟩
          exact ⟨(reaches.trans inner_reaches).behind behind' same', same' ▸ held⟩
      | _ => exact unexpected_parses within _
  | _ => exact unexpected_parses within _

/-- Arguments are expressions of the range. -/
theorem arguments_parses (nested_parses : ParsesExpression fuel (nested .expression))
    (closing : Punctuation) {first : Nat} (within : before.Within fuel)
    (typed : before.analysis.NamesTyped) (first_le : first ≤ before.analysis.ast.exprs.size) :
    Parses (arguments nested closing fuel) before fun ids after =>
      Reaches first before after ∧ ∀ id ∈ ids, after.analysis.Holds first id := by
  rw [arguments, parses_bind]
  refine (consumeSign_parses within closing).mono ?_
  rintro _ state (⟨rfl, behind, same⟩ | ⟨rfl, rfl⟩)
  · rw [if_pos rfl]
    exact ⟨(Reaches.refl within).behind behind same, by simp⟩
  rw [if_neg Bool.false_ne_true, parses_bind]
  let holds (ids : List ExprId) (analysis : Analysis) : Prop :=
    Adds first state.analysis analysis ∧ ∀ id ∈ ids, analysis.Holds first id
  have step (done : List ExprId) (inner : ParserState) (innerWithin : inner.Within fuel)
      (held : holds done inner.analysis) :
      Parses (nested .expression) inner fun id after =>
        inner.NotBefore after ∧ holds (done ++ [id]) after.analysis := by
    refine (nested_parses inner first innerWithin (held.1.namesTyped typed)
      (first_le.trans held.1.extends'.exprs_le)).mono ?_
    rintro id after ⟨reaches, id_held⟩
    refine ⟨reaches.later, held.1.trans reaches.adds, ?_⟩
    intro other member
    obtain member | member := List.mem_append.1 member
    · exact reaches.adds.holds (held.2 other member)
    · rw [List.mem_singleton] at member
      exact member ▸ id_held
  refine (sepByComma_parses holds [] le_rfl step within ⟨.refl, by simp⟩).mono ?_
  rintro ids behindArguments ⟨later, adds, held⟩
  rw [parses_bind]
  refine (expectSign_parses (later.within within) closing).mono ?_
  rintro _ after ⟨behind, same⟩
  refine ⟨(Reaches.mk later adds).behind behind same, fun id member => ?_⟩
  rw [same]
  exact held id member

/-- Calls and index expressions take the expression in front of them. -/
theorem postfixTail_parses (nested_parses : ParsesExpression fuel (nested .expression))
    {rounds : Nat} (rounds_le : rounds ≤ fuel + 1) :
    ParsesTail rounds (postfixTail nested rounds) := by
  induction rounds with
  | zero => exact fun before _ _ within => absurd within.2 (Nat.not_lt_zero _)
  | succ rounds induction =>
      intro before first callee within typed held
      have rounds_le' : rounds ≤ fuel := Nat.le_of_succ_le_succ rounds_le
      have behindArguments (closing : Punctuation) (combine : List ExprId → Check ExprId)
          (ensures : ∀ (analysis : Analysis) ids, analysis.Holds first callee →
            (∀ id ∈ ids, analysis.Holds first id) →
            Analysis.Ensures (combine ids) analysis (Gives first analysis)
              (Analysis.Fails first analysis))
          (state : ParserState) (behind : before.Behind state)
          (same : state.analysis = before.analysis) :
          Parses (do
            let arguments ← arguments nested closing rounds
            postfixTail nested rounds (← check (combine arguments))) state
            (Yields first before) := by
        have reaches : Reaches first before state := (Reaches.refl within).behind behind same
        have state_within : state.Within rounds := behind.within within
        have nested_fewer : ParsesExpression rounds (nested .expression) :=
          fun inner start innerWithin => nested_parses inner start (innerWithin.mono rounds_le')
        rw [parses_bind]
        refine (arguments_parses nested_fewer closing state_within (reaches.typed typed)
          (reaches.first_le held.first_le)).mono ?_
        rintro ids middle ⟨argument_reaches, ids_held⟩
        have reaches' := reaches.trans argument_reaches
        have middle_within := argument_reaches.within state_within
        rw [parses_bind]
        refine (check_parses_of_fails middle_within
          (ensures _ ids (reaches'.adds.holds held) ids_held)).mono ?_
        rintro id last ⟨last_reaches, id_held⟩
        have all_reaches := reaches'.trans last_reaches
        refine (induction (Nat.le_of_succ_le rounds_le) last first id
          (last_reaches.within middle_within) (all_reaches.typed typed) id_held).mono ?_
        exact fun _ _ yields => yields.trans all_reaches
      rw [postfixTail, parses_bind]
      refine (consumeSign_parses within .leftParen).mono ?_
      rintro _ state (⟨rfl, behind, same⟩ | ⟨rfl, rfl⟩)
      · rw [if_pos rfl]
        exact behindArguments .rightParen (Analysis.call callee)
          (fun _ _ callee_held ids_held => Analysis.call_ensures callee_held ids_held)
          state behind same
      rw [if_neg Bool.false_ne_true, parses_bind]
      refine (consumeSign_parses within .leftBracket).mono ?_
      rintro _ state' (⟨rfl, behind, same⟩ | ⟨rfl, rfl⟩)
      · rw [if_pos rfl]
        exact behindArguments .rightBracket (Analysis.index callee)
          (fun _ ids _ _ => Analysis.index_ensures callee ids) state' behind same
      · rw [if_neg Bool.false_ne_true]
        exact ⟨.refl within, held⟩

theorem postfixExpression_parses (nested_parses : ParsesExpression fuel (nested .expression)) :
    ParsesExpression (fuel + 1) (postfixExpression nested (fuel + 1)) :=
  (primary_parses nested_parses).bind_tail (postfixTail_parses nested_parses le_rfl)

/-- A minus sign negates a literal only if an integer follows. -/
theorem negatesLiteral_parses {limit : Nat} (operator : Token) (within : before.Within limit) :
    Parses (negatesLiteral operator) before fun result after => after = before ∧
      (result = true → ∃ token value radix,
        before.tokens.lookahead 0 = .ok token ∧ token.kind = .integer value radix) := by
  rw [negatesLiteral]
  split
  · exact ⟨rfl, by simp⟩
  rw [parses_bind]
  refine (peek_parses within).mono ?_
  rintro kind state ⟨⟨token, found, spelled⟩, rfl⟩
  split
  · next value radix =>
    rw [parses_bind]
    refine (lookahead_parses within 1).mono ?_
    rintro second _ ⟨-, rfl⟩
    split
    · exact ⟨rfl, by simp⟩
    · exact ⟨rfl, by simp⟩
    · exact ⟨rfl, fun _ => ⟨token, value, radix, found, spelled⟩⟩
  · exact ⟨rfl, by simp⟩

/-- Operators on one value take an expression that starts behind them. -/
theorem unaryExpression_parses (nested_parses : ∀ form, ParsesExpression fuel (nested form)) :
    ParsesExpression (fuel + 1) (unaryExpression nested (fuel + 1)) := by
  intro before first within typed first_le
  rw [unaryExpression, parses_bind]
  refine (consumeIf_parses within rfl).mono ?_
  rintro _ state (⟨operator, rfl, isOperator, behind, same⟩ | ⟨rfl, rfl⟩)
  · have reaches : Reaches first before state := (Reaches.refl within).behind behind same
    have state_within : state.Within fuel := behind.within within
    rw [parses_bind]
    refine (negatesLiteral_parses operator state_within).mono ?_
    rintro negated _ ⟨rfl, integer⟩
    split
    · next negates =>
      obtain ⟨token, value, radix, found, spelled⟩ := integer negates
      refine (@literal_parses _ _ _ _ (Analysis.negatedIntegerLiteral operator)
        (fun _ => ∃ value radix, token.kind = .integer value radix) state_within found
        (by simp [spelled]) (reaches.first_le first_le)
        (fun _ => Analysis.negatedIntegerLiteral_ensures operator token)
        ⟨value, radix, spelled⟩).mono ?_
      exact fun _ _ yields => yields.trans reaches
    · rw [parses_bind]
      refine (nested_parses .unary _ first state_within (reaches.typed typed)
        (reaches.first_le first_le)).mono ?_
      rintro operand middle ⟨operand_reaches, held⟩
      refine (check_parses (operand_reaches.within state_within)
        (Analysis.unary_ensures operator held) isOperator).mono ?_
      exact fun _ _ yields => yields.trans (reaches.trans operand_reaches)
  · exact postfixExpression_parses (nested_parses .expression) state first within typed first_le

/-- Casts take the expression in front of them. -/
theorem castTail_parses (rounds : Nat) : ParsesTail rounds (castTail rounds) := by
  induction rounds with
  | zero => exact fun before _ _ within => absurd within.2 (Nat.not_lt_zero _)
  | succ rounds induction =>
      intro before first operand within typed held
      rw [castTail, parses_bind]
      refine (consume_parses within (by simp)).mono ?_
      rintro _ state (⟨rfl, behind, same⟩ | ⟨rfl, rfl⟩)
      · have reaches : Reaches first before state := (Reaches.refl within).behind behind same
        have state_within : state.Within rounds := behind.within within
        rw [if_pos rfl, parses_bind]
        refine (typeWithin_parses rounds state state_within).mono ?_
        rintro type middle ⟨later, same'⟩
        have reaches' : Reaches first before middle :=
          ⟨reaches.later.trans later, by rw [same']; exact reaches.adds⟩
        have middle_within := later.within state_within
        rw [parses_bind]
        refine (check_parses_of_fails middle_within
          (Analysis.cast_ensures type (reaches'.adds.holds held))).mono ?_
        rintro id last ⟨last_reaches, id_held⟩
        have all_reaches := reaches'.trans last_reaches
        refine (induction last first id (last_reaches.within middle_within)
          (all_reaches.typed typed) id_held).mono ?_
        exact fun _ _ yields => yields.trans all_reaches
      · rw [if_neg Bool.false_ne_true]
        exact ⟨.refl within, held⟩

theorem castExpression_parses (nested_parses : ∀ form, ParsesExpression fuel (nested form)) :
    ParsesExpression (fuel + 1) (castExpression nested (fuel + 1)) :=
  (unaryExpression_parses nested_parses).bind_tail (castTail_parses (fuel + 1))

/-- Operators of a level take the expression in front of them and an operand behind them. -/
theorem binaryTail_parses (level : OperatorLevel) {operand : Parser ExprId} {limit : Nat}
    (operand_parses : ParsesExpression limit operand) {rounds : Nat} (rounds_le : rounds ≤ limit) :
    ParsesTail rounds (binaryTail level operand rounds) := by
  induction rounds with
  | zero => exact fun before _ _ within => absurd within.2 (Nat.not_lt_zero _)
  | succ rounds induction =>
      intro before first left within typed held
      have endRejected : level.accepts .endOfInput = false := by cases level <;> rfl
      rw [binaryTail, parses_bind]
      refine (consumeIf_parses within endRejected).mono ?_
      rintro _ state (⟨operator, rfl, accepted, behind, same⟩ | ⟨rfl, rfl⟩)
      · have reaches : Reaches first before state := (Reaches.refl within).behind behind same
        have state_within : state.Within rounds := behind.within within
        rw [parses_bind]
        refine (operand_parses state first (state_within.mono (Nat.le_of_succ_le rounds_le))
          (reaches.typed typed) (reaches.first_le held.first_le)).mono ?_
        rintro right middle ⟨right_reaches, right_held⟩
        have reaches' := reaches.trans right_reaches
        have middle_within := right_reaches.within state_within
        rw [parses_bind]
        refine (check_parses middle_within (Analysis.combine_ensures level operator
          (reaches'.adds.holds held) right_held) accepted).mono ?_
        rintro id last ⟨last_reaches, id_held⟩
        have all_reaches := reaches'.trans last_reaches
        refine (induction (Nat.le_of_succ_le rounds_le) last first id
          (last_reaches.within middle_within) (all_reaches.typed typed) id_held).mono ?_
        exact fun _ _ yields => yields.trans all_reaches
      · exact ⟨.refl within, held⟩

theorem binaryExpression_parses (nested_parses : ∀ form, ParsesExpression fuel (nested form))
    (levels : List OperatorLevel) :
    ParsesExpression (fuel + 1) (binaryExpression nested (fuel + 1) levels) := by
  induction levels with
  | nil => exact castExpression_parses nested_parses
  | cons level tighter induction =>
      exact induction.bind_tail (binaryTail_parses level induction le_rfl)

/-- Conditionals take the expression in front of them as their guard. -/
theorem conditionalExpression_parses
    (nested_parses : ∀ form, ParsesExpression fuel (nested form)) :
    ParsesExpression (fuel + 1) (conditionalExpression nested (fuel + 1)) := by
  refine (binaryExpression_parses nested_parses OperatorLevel.all).bind_tail ?_
  intro before first guard within typed held
  rw [parses_bind]
  refine (consumeSign_parses within .question).mono ?_
  rintro _ state (⟨rfl, behind, same⟩ | ⟨rfl, rfl⟩)
  · have reaches : Reaches first before state := (Reaches.refl within).behind behind same
    have state_within : state.Within fuel := behind.within within
    rw [if_pos rfl, parses_bind]
    refine (nested_parses .expression state first state_within (reaches.typed typed)
      (reaches.first_le held.first_le)).mono ?_
    rintro whenTrue behindTrue ⟨true_reaches, true_held⟩
    have true_within := true_reaches.within state_within
    rw [parses_bind]
    refine (expectSign_parses true_within .colon).mono ?_
    rintro _ behindColon ⟨colon_behind, colon_same⟩
    have colon_reaches := true_reaches.behind colon_behind colon_same
    have reaches' := reaches.trans colon_reaches
    rw [parses_bind]
    refine (nested_parses .conditional behindColon first (colon_reaches.within state_within)
      (reaches'.typed typed) (reaches'.first_le held.first_le)).mono ?_
    rintro whenFalse behindFalse ⟨false_reaches, false_held⟩
    have all_reaches := reaches'.trans false_reaches
    rw [← colon_same] at true_held
    refine (check_parses_of_fails (all_reaches.within within) (Analysis.conditional_ensures
      (all_reaches.adds.holds held) (false_reaches.adds.holds true_held) false_held)).mono ?_
    exact fun _ _ yields => yields.trans all_reaches
  · rw [if_neg Bool.false_ne_true]
    exact ⟨.refl within, held⟩

/-- Assignments take the expression in front of them as their target. -/
theorem assignmentExpression_parses
    (nested_parses : ∀ form, ParsesExpression fuel (nested form)) :
    ParsesExpression (fuel + 1) (assignmentExpression nested (fuel + 1)) := by
  refine (conditionalExpression_parses nested_parses).bind_tail ?_
  intro before first target within typed held
  rw [parses_bind]
  refine (consumeSign_parses within .assign).mono ?_
  rintro _ state (⟨rfl, behind, same⟩ | ⟨rfl, rfl⟩)
  · have reaches : Reaches first before state := (Reaches.refl within).behind behind same
    have state_within : state.Within fuel := behind.within within
    rw [if_pos rfl, parses_bind]
    refine (nested_parses .expression state first state_within (reaches.typed typed)
      (reaches.first_le held.first_le)).mono ?_
    rintro value middle ⟨value_reaches, value_held⟩
    have all_reaches := reaches.trans value_reaches
    refine (check_parses_of_fails (all_reaches.within within)
      (Analysis.assignment_ensures (all_reaches.adds.holds held) value_held)).mono ?_
    exact fun _ _ yields => yields.trans all_reaches
  · rw [if_neg Bool.false_ne_true]
    exact ⟨.refl within, held⟩

end Forms

/-- Every form of nested expression gives an expression of the range. -/
theorem expressionsWithin_parses (fuel : Nat) (form : ExpressionForm) :
    ParsesExpression fuel (expressionsWithin fuel form) := by
  induction fuel generalizing form with
  | zero => exact fun before _ within => absurd within.2 (Nat.not_lt_zero _)
  | succ fuel induction =>
      cases form with
      | expression => exact assignmentExpression_parses induction
      | conditional => exact conditionalExpression_parses induction
      | unary => exact unaryExpression_parses induction

/-- An expression is parsed into an expression of the range. -/
theorem expressionWithin_parses (fuel : Nat) : ParsesExpression fuel (expressionWithin fuel) :=
  expressionsWithin_parses fuel .expression

end Minilang.Parser
