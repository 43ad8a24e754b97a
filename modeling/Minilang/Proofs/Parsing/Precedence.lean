import Minilang.Proofs.Analysis.Conversions
import Minilang.Proofs.Parsing.PrintedForms

/-!
# Precedence, grouping and order

What is printed from a tree is read as the tree: operators bind and group as the printed parentheses
suppose, and the steps of analysis are taken in post-order (`expressionWithin_eq_analyze`). The induction is
on the tree and carries `ExprTree.Regular`: the tree is read where its own tightness is asked for. That it is
read at every other place follows from what it begins with and from the parentheses that it gets there.
-/

namespace Minilang

open Analysis (OperatorLevel)

open Minilang.Parser (isUnaryOperator KeepsSign Reads Opens)

namespace TokenKind

/-- Whether an expression may begin with a token. -/
def beginsExpression (kind : TokenKind) : Bool :=
  kind.isLeaf || isUnaryOperator kind || kind == .punctuation .leftParen

theorem ne_of_beginsExpression {kind other : TokenKind} (begins : kind.beginsExpression = true)
    (cannot : other.beginsExpression = false) : kind ≠ other := by
  rintro rfl
  rw [begins] at cannot
  cases cannot

theorem isUnaryOperator_of_isLeaf {kind : TokenKind} (leaf : kind.isLeaf = true) :
    isUnaryOperator kind = false := by
  cases kind <;> first | rfl | cases leaf

theorem isInteger_of_isUnaryOperator {kind : TokenKind} (operator : isUnaryOperator kind = true) :
    kind.isInteger = false := by
  cases kind <;> first | rfl | cases operator

end TokenKind

theorem Parser.KeepsSign.append {pieces : List Piece} (keeps : KeepsSign pieces)
    (more : List Piece) : KeepsSign (pieces ++ more) := by
  obtain begins | ⟨first, others, rfl, begins⟩ := keeps
  · exact .inl (begins.append more)
  · exact .inr ⟨first, others ++ more, rfl, begins.append more⟩

/-- Printed tokens at a place begin as they do elsewhere, or with a parenthesis. -/
theorem Piece.Begin.enclose {holds : TokenKind → Prop} {pieces : List Piece} {own asked : Tightness}
    (paren : holds (.punctuation .leftParen))
    (begins : asked.rank ≤ own.rank → Begin holds pieces) : Begin holds (own.enclose asked pieces) := by
  obtain le | lt := le_or_gt asked.rank own.rank
  · rw [Tightness.enclose_of_le le]
    exact begins le
  · rw [Tightness.enclose_of_lt lt]
    exact ⟨_, _, rfl, paren⟩

namespace ExprTree

/-- A printed tree begins as expressions do. Only one that is an operator on one value or looser begins
with such an operator. -/
theorem begin_body : (tree : ExprTree) → Piece.Begin (fun kind => kind.beginsExpression = true ∧
    (Tightness.unary.rank < tree.tightness.rank → isUnaryOperator kind = false)) tree.body
  | leaf token fits => by
      rw [body]
      refine ⟨_, _, rfl, ?_, fun _ => TokenKind.isUnaryOperator_of_isLeaf fits⟩
      rw [TokenKind.beginsExpression, Piece.tokenKind, fits]
      rfl
  | parenthesized inner => by
      rw [body]
      exact ⟨_, _, rfl, rfl, fun _ => rfl⟩
  | negatedInteger sign literal minus integer => by
      rw [body]
      refine ⟨_, _, rfl, ?_, fun lt => absurd lt (Nat.lt_irrefl _)⟩
      rw [Piece.tokenKind, minus]
      rfl
  | unary operator operand fits => by
      rw [body]
      refine ⟨_, _, rfl, ?_, fun lt => absurd lt (Nat.lt_irrefl _)⟩
      rw [TokenKind.beginsExpression, Piece.tokenKind, fits, Bool.or_true]
      rfl
  | call operand _ | index operand _ => by
      rw [body]
      refine (Piece.Begin.enclose ⟨rfl, fun _ => rfl⟩ fun le => ?_).append _
      exact (begin_body operand).mono fun _ begins => ⟨begins.1, fun _ => begins.2 le⟩
  | cast operand _ _ | conditional operand _ _ | assignment operand _ => by
      rw [body]
      refine (Piece.Begin.enclose ⟨rfl, fun _ => rfl⟩ fun _ => ?_).append _
      exact (begin_body operand).mono fun _ begins =>
        ⟨begins.1, fun lt => absurd lt (by simp [tightness, Tightness.rank])⟩
  | binary level _ operand _ _ => by
      rw [body]
      refine (Piece.Begin.enclose ⟨rfl, fun _ => rfl⟩ fun _ => ?_).append _
      exact (begin_body operand).mono fun _ begins =>
        ⟨begins.1, fun lt => absurd lt (Tightness.rank_binary_lt level).not_gt⟩

theorem begin_body_ne (tree : ExprTree) {kind : TokenKind} (cannot : kind.beginsExpression = false) :
    Piece.Begin (· ≠ kind) tree.body :=
  tree.begin_body.mono fun _ begins => TokenKind.ne_of_beginsExpression begins.1 cannot

/-- What is printed for an operand of a minus sign is no integer literal. -/
theorem keepsSign_body : (tree : ExprTree) → tree.isInteger = false →
    Tightness.unary.rank ≤ tree.tightness.rank → KeepsSign tree.body
  | leaf token fits, other, _ => by
      rw [body]
      exact .inl ⟨_, _, rfl, other⟩
  | parenthesized inner, _, _ => by
      rw [body]
      exact .inl ⟨_, _, rfl, rfl⟩
  | negatedInteger sign literal minus integer, _, _ => by
      rw [body]
      refine .inl ⟨_, _, rfl, ?_⟩
      rw [Piece.tokenKind, minus]
      rfl
  | unary operator operand fits, _, _ => by
      rw [body]
      exact .inl ⟨_, _, rfl, TokenKind.isInteger_of_isUnaryOperator fits⟩
  | call callee _, _, _ | index callee _, _, _ => by
      rw [body]
      obtain le | lt := le_or_gt Tightness.application.rank callee.tightness.rank
      · rw [Tightness.enclose_of_le le]
        cases integer : callee.isInteger with
        | false => exact (keepsSign_body callee integer ((by decide : _ ≤ _).trans le)).append _
        | true =>
            cases callee with
            | leaf token fits =>
                rw [body]
                refine .inr ⟨_, _, rfl, _, _, rfl, ?_⟩
                simp [Piece.tokenKind, Piece.sign]
            | _ => cases integer
      · rw [Tightness.enclose_of_lt lt]
        exact .inl ⟨_, _, rfl, rfl⟩
  | cast _ _ _, _, le | conditional _ _ _, _, le | assignment _ _, _, le =>
      absurd le (by simp [tightness, Tightness.rank])
  | binary level _ _ _ _, _, le => absurd le (Tightness.rank_binary_lt level).not_ge

/-! ### From the own place to all places -/

/-- Whether a tree is read as its analysis where its own tightness is asked for. -/
structure Regular (tree : ExprTree) : Prop where
  reads : Reads tree.body tree.analyze tree.tightness
  opens : tree.tightness.groups = true → Opens tree.body tree.analyze tree.tightness

theorem pieces_assignment (tree : ExprTree) : tree.pieces .assignment = tree.body :=
  Tightness.enclose_of_le (Nat.zero_le _) _

namespace Regular

variable {tree : ExprTree}

theorem of_opens (opens : Opens tree.body tree.analyze tree.tightness) : tree.Regular :=
  ⟨.of_opens opens, fun _ => opens⟩

theorem of_reads (reads : Reads tree.body tree.analyze tree.tightness)
    (alone : tree.tightness.groups = false) : tree.Regular :=
  ⟨reads, fun grouped => by rw [alone] at grouped; cases grouped⟩

/-- A tree is read at every place as it is printed there. -/
theorem reads_pieces (regular : tree.Regular) (asked : Tightness) :
    Reads (tree.pieces asked) tree.analyze asked := by
  have own {looser : Tightness} (le : looser.rank ≤ tree.tightness.rank) :
      Reads tree.body tree.analyze looser :=
    regular.reads.of_rank_le le fun _ lt => tree.begin_body.mono fun _ begins => begins.2 lt
  rw [pieces]
  obtain le | lt := le_or_gt asked.rank tree.tightness.rank
  · rw [Tightness.enclose_of_le le]
    exact own le
  · rw [Tightness.enclose_of_lt lt]
    have anywhere : Reads tree.body tree.analyze .assignment := own (Nat.zero_le _)
    have enclosed := anywhere.parenthesized
    exact enclosed.of_rank_le (Tightness.rank_le_primary asked) fun _ _ => ⟨_, _, rfl, rfl⟩

/-- A tree is read as it is printed where any expression may stand. -/
theorem reads_body (regular : tree.Regular) : Reads tree.body tree.analyze .assignment := by
  rw [← pieces_assignment]
  exact regular.reads_pieces .assignment

theorem opens_pieces (regular : tree.Regular) {asked : Tightness} (grouped : asked.groups = true) :
    Opens (tree.pieces asked) tree.analyze asked := by
  by_cases same : tree.tightness = asked
  · subst same
    rw [pieces, Tightness.enclose_of_le le_rfl]
    exact regular.opens grouped
  · have loose : asked ≠ .primary := by
      rintro rfl
      cases grouped
    have differs : tree.tightness.rank ≠ asked.rank := fun ranks =>
      same (Tightness.rank_injective ranks)
    have step_up := Tightness.rank_tighter loose
    have pieces_eq : tree.pieces asked = tree.pieces asked.tighter := by
      rw [pieces, pieces, Tightness.enclose, Tightness.enclose]
      congr 1
      rw [eq_iff_iff]
      omega
    rw [pieces_eq]
    exact .of_reads (regular.reads_pieces asked.tighter) grouped

end Regular

/-- What is printed for the operand of a minus sign keeps the sign an operator. -/
theorem keepsSign_pieces {tree : ExprTree} (other : tree.isInteger = false) :
    KeepsSign (tree.pieces .unary) := by
  rw [pieces]
  obtain le | lt := le_or_gt Tightness.unary.rank tree.tightness.rank
  · rw [Tightness.enclose_of_le le]
    exact keepsSign_body tree other le
  · rw [Tightness.enclose_of_lt lt]
    exact .inl ⟨_, _, rfl, rfl⟩

theorem foldsLiterals_of_mem {trees : List ExprTree} (folds : foldAllLiterals trees = true)
    {tree : ExprTree} (member : tree ∈ trees) : tree.foldsLiterals = true := by
  induction trees with
  | nil => cases member
  | cons first others induction =>
      rw [foldAllLiterals, Bool.and_eq_true] at folds
      rcases List.mem_cons.1 member with rfl | member
      · exact folds.1
      · exact induction folds.2 member

/-- Arguments of calls are read up to a token that no expression begins with. -/
theorem reads_arguments {trees : List ExprTree} (regular : ∀ tree ∈ trees, tree.Regular)
    {closing : TokenKind} (cannot : closing.beginsExpression = false) :
    ∀ tree ∈ trees, Reads tree.body tree.analyze .assignment ∧ Piece.Begin (· ≠ closing) tree.body :=
  fun tree member => ⟨(regular tree member).reads_body, tree.begin_body_ne cannot⟩

/-- Every tree is read as its analysis, if minus signs before integer literals are leaves. -/
theorem regular (tree : ExprTree) (folds : tree.foldsLiterals = true) : tree.Regular := by
  cases tree with
  | leaf token fits =>
      refine .of_reads ?_ rfl
      rw [body, analyze]
      exact .leaf fits
  | negatedInteger sign literal minus integer =>
      refine .of_reads ?_ rfl
      rw [body, analyze]
      exact .negatedInteger minus integer
  | parenthesized inner =>
      refine .of_reads ?_ rfl
      rw [body, analyze]
      exact (regular inner folds).reads_body.parenthesized
  | unary operator operand fits =>
      rw [foldsLiterals, Bool.and_eq_true, Bool.not_eq_true', Bool.and_eq_false_iff] at folds
      refine .of_reads ?_ rfl
      rw [body, analyze]
      refine .unary fits (fun minus => ?_) ((regular operand folds.2).reads_pieces _)
      obtain differs | other := folds.1
      · rw [minus] at differs
        cases differs
      · exact keepsSign_pieces other
  | binary level operator left right fits =>
      rw [foldsLiterals, Bool.and_eq_true] at folds
      refine .of_opens ?_
      rw [body, analyze]
      exact .binary fits ((regular left folds.1).opens_pieces rfl)
        ((regular right folds.2).reads_pieces _)
  | cast operand type plain =>
      refine .of_opens ?_
      rw [body, analyze]
      exact .cast plain ((regular operand folds).opens_pieces rfl)
  | call callee arguments =>
      rw [foldsLiterals, Bool.and_eq_true] at folds
      have each : ∀ tree ∈ arguments, tree.Regular := fun tree member =>
        regular tree (foldsLiterals_of_mem folds.2 member)
      refine .of_opens ?_
      rw [body, analyze]
      exact .applied Parser.acts_postfixTail_call rfl (by decide) rfl
        ((regular callee folds.1).opens_pieces rfl) (reads_arguments each rfl)
  | index base arguments =>
      rw [foldsLiterals, Bool.and_eq_true] at folds
      have each : ∀ tree ∈ arguments, tree.Regular := fun tree member =>
        regular tree (foldsLiterals_of_mem folds.2 member)
      refine .of_opens ?_
      rw [body, analyze]
      exact .applied Parser.acts_postfixTail_index rfl (by decide) rfl
        ((regular base folds.1).opens_pieces rfl) (reads_arguments each rfl)
  | conditional guard whenTrue whenFalse =>
      rw [foldsLiterals, Bool.and_eq_true, Bool.and_eq_true] at folds
      obtain ⟨⟨guard_folds, whenTrue_folds⟩, whenFalse_folds⟩ := folds
      refine .of_reads ?_ rfl
      rw [body, analyze]
      exact .conditional ((regular guard guard_folds).reads_pieces _)
        (regular whenTrue whenTrue_folds).reads_body
        ((regular whenFalse whenFalse_folds).reads_pieces _)
  | assignment target value =>
      rw [foldsLiterals, Bool.and_eq_true] at folds
      refine .of_reads ?_ rfl
      rw [body, analyze]
      exact .assignment ((regular target folds.1).reads_pieces _) (regular value folds.2).reads_body
termination_by tree

/-! ### Further parentheses -/

mutual

/-- Parentheses take no step of analysis. -/
theorem analyze_bare : (tree : ExprTree) → tree.bare.analyze = tree.analyze
  | leaf _ _ | negatedInteger _ _ _ _ => rfl
  | unary operator operand fits => by rw [bare, analyze, analyze, analyze_bare operand]
  | binary level operator left right fits => by
      rw [bare, analyze, analyze, analyze_bare left, analyze_bare right]
  | cast operand type plain => by rw [bare, analyze, analyze, analyze_bare operand]
  | call callee arguments => by
      rw [bare, analyze, analyze, analyze_bare callee, analyzeAll_bareAll arguments]
  | index base arguments => by
      rw [bare, analyze, analyze, analyze_bare base, analyzeAll_bareAll arguments]
  | conditional guard whenTrue whenFalse => by
      rw [bare, analyze, analyze, analyze_bare guard, analyze_bare whenTrue, analyze_bare whenFalse]
  | assignment target value => by
      rw [bare, analyze, analyze, analyze_bare target, analyze_bare value]
  | parenthesized inner => by rw [bare, analyze, analyze_bare inner]

theorem analyzeAll_bareAll : (trees : List ExprTree) → analyzeAll (bareAll trees) = analyzeAll trees
  | [] => rfl
  | first :: others => by
      rw [bareAll, analyzeAll, analyzeAll, analyze_bare first, analyzeAll_bareAll others]

end

end ExprTree

/-! ## Minus signs before integer literals -/

namespace Analysis

/-- An integer is its own value. -/
theorem requireCategory_ensures_of_int {before : Analysis} {id : ExprId}
    {onResult : ExprId → Analysis → Prop} {onError : Diagnostic → Analysis → Prop}
    (int : (before.ast.expr id).type = .int) (held : onResult id before) :
    Ensures (requireCategory .arithmetic id) before onResult onError := by
  simp only [requireCategory, load, ensures_bind, ensures_expr, int]
  rw [ensures_pure, int]
  exact held

variable {sign literal : Token} {value : Int64} {radix : Radix} {before : Analysis}

/-- A negative literal is one expression. -/
theorem negatedIntegerLiteral_ensures_size (integer : literal.kind = .integer value radix) :
    Ensures (negatedIntegerLiteral sign literal) before
      (fun _ after => after.ast.exprs.size = before.ast.exprs.size + 1) fun error _ =>
        error = .semantic literal.location (.integerOutOfRange (-value)) := by
  simp only [negatedIntegerLiteral, integer, addInteger]
  split
  · rw [ensures_addExpr]
    simp [Ast.addExpr]
  · rw [ensures_reject]

/-- The negative of a literal is three expressions: the literal, zero and their difference. -/
theorem negation_ensures_size (minus : sign.kind = .arithmetic .sub)
    (integer : literal.kind = .integer value radix) :
    Ensures (do unary sign (← integerLiteral literal)) before
      (fun _ after => after.ast.exprs.size = before.ast.exprs.size + 3) fun error _ =>
        error = .semantic literal.location (.integerOutOfRange value) ∧ value.toInt ≠ 0 := by
  rw [ensures_bind]
  simp only [integerLiteral, integer, addInteger]
  split
  · simp only [ensures_addExpr, unary, minus, negation, ensures_bind]
    refine requireCategory_ensures_of_int (congrArg Expr.type (Ast.expr_addExpr_self _ _)) ?_
    rw [ensures_expr, addBinary, ensures_addExpr]
    simp [Ast.addExpr]
  · next outside =>
    rw [ensures_reject]
    refine ⟨rfl, fun zero => outside ?_⟩
    rw [zero]
    decide

/-- A minus sign directly before an integer literal is not the operator on it. -/
theorem negatedIntegerLiteral_ne (minus : sign.kind = .arithmetic .sub)
    (integer : literal.kind = .integer value radix) (unsigned : 0 ≤ value.toInt) :
    (negatedIntegerLiteral sign literal).run before ≠
      (do unary sign (← integerLiteral literal)).run before := by
  intro same
  have folded : Ensures (negatedIntegerLiteral sign literal) before _ _ :=
    negatedIntegerLiteral_ensures_size integer
  have applied : Ensures (do unary sign (← integerLiteral literal)) before _ _ :=
    negation_ensures_size minus integer
  unfold Ensures at folded applied
  rw [same] at folded
  cases run : (do unary sign (← integerLiteral literal)).run before with
  | mk outcome after =>
      rw [run] at folded applied
      cases outcome with
      | ok id =>
          have sizes := folded.symm.trans applied
          omega
      | error error =>
          obtain ⟨outside, apart⟩ := applied
          rw [folded] at outside
          have values : -value = value := by simpa using outside
          have ints := congrArg Int64.toInt values
          have bound := value.toInt_lt
          rw [Int64.toInt_neg, Int.bmod_eq_of_le (by omega) (by omega)] at ints
          omega

end Analysis

/-! ## Printed trees -/

/-- An expression that is printed from a tree, in front of a token that no expression goes on with, is read
to its end as the analysis of the tree in post-order, with the same result or the same error. Parentheses
beyond the needed ones make no difference, except around an integer literal behind a minus sign. -/
theorem expressionWithin_eq_analyze :
    (∀ tree : ExprTree, tree.foldsLiterals = true → ∀ fuel before after next,
      before.Shows (tree.pieces .assignment) after → after.lookahead 0 = .ok next →
      next.kind.continues? = none → (tree.pieces .assignment).length < fuel → ∀ analysis,
      (Parser.expressionWithin fuel).run ⟨before, analysis⟩ =
        match tree.bare.analyze.run analysis with
        | (.ok id, analyzed) => .ok (id, ⟨after, analyzed⟩)
        | (.error error, _) => .error error) ∧
    ∀ sign literal value radix minus integer leaf operator,
      literal.kind = .integer value radix → 0 ≤ value.toInt → ∀ analysis,
      (ExprTree.negatedInteger sign literal minus integer).analyze.run analysis ≠
        (ExprTree.unary sign (.parenthesized (.leaf literal leaf)) operator).analyze.run analysis := by
  refine ⟨?_, ?_⟩
  · intro tree folds fuel before after next shows found ends enough analysis
    have none_ends : Tightness.assignment.endsBefore next.kind = true := by
      rw [Tightness.endsBefore, ends]
      rfl
    have acts := ((tree.regular folds).reads_pieces .assignment).nested .expression shows found
      none_ends enough
    rw [tree.analyze_bare]
    refine (acts analysis).trans ?_
    rw [Parser.run_check]
    cases tree.analyze.run analysis with
    | mk outcome analyzed => cases outcome <;> rfl
  · intro sign literal value radix minus integer leaf operator kind unsigned analysis
    rw [ExprTree.analyze, ExprTree.analyze, ExprTree.analyze, ExprTree.analyze,
      ExprTree.analyzeLeaf, kind]
    exact Analysis.negatedIntegerLiteral_ne minus kind unsigned

/-- A token of the line `1 - -2 - (3);`. -/
def differenceToken (kind : TokenKind) (column : Nat) : Token :=
  ⟨kind, .inFile "difference" ⟨1, column⟩⟩

/-- The line `1 - -2 - (3);`. -/
def differenceTokens : List Token :=
  [differenceToken (.integer 1 .decimal) 1, differenceToken (.arithmetic .sub) 3,
    differenceToken (.arithmetic .sub) 5, differenceToken (.integer 2 .decimal) 6,
    differenceToken (.arithmetic .sub) 8, differenceToken (.punctuation .leftParen) 10,
    differenceToken (.integer 3 .decimal) 11, differenceToken (.punctuation .rightParen) 12,
    differenceToken (.punctuation .semicolon) 13]

/-- The expression `1 - -2 - (3)`, which groups to the left. -/
def differenceTree : ExprTree :=
  .binary .additive (differenceToken (.arithmetic .sub) 8)
    (.binary .additive (differenceToken (.arithmetic .sub) 3)
      (.leaf (differenceToken (.integer 1 .decimal) 1) rfl)
      (.negatedInteger (differenceToken (.arithmetic .sub) 5)
        (differenceToken (.integer 2 .decimal) 6) rfl rfl) rfl)
    (.parenthesized (.leaf (differenceToken (.integer 3 .decimal) 11) rfl)) rfl

/-- The parentheses around `3` take no step, and those in `-(2)` would take two more. -/
theorem expressionWithin_difference :
    differenceTree.foldsLiterals = true ∧
      (TokenStream.ofTokens differenceTokens).Shows (differenceTree.pieces .assignment)
        (.finished (differenceToken (.punctuation .semicolon) 13)) ∧
      (Parser.expressionWithin 9).run ⟨.ofTokens differenceTokens, .initial⟩ =
        (match differenceTree.bare.analyze.run .initial with
        | (.ok id, analyzed) =>
          .ok (id, ⟨.finished (differenceToken (.punctuation .semicolon) 13), analyzed⟩)
        | (.error error, _) => .error error) ∧
      (ExprTree.negatedInteger (differenceToken (.arithmetic .sub) 5)
          (differenceToken (.integer 2 .decimal) 6) rfl rfl).analyze.run .initial ≠
        (ExprTree.unary (differenceToken (.arithmetic .sub) 5)
          (.parenthesized (.leaf (differenceToken (.integer 2 .decimal) 6) rfl)) rfl).analyze.run
            .initial := by
  have shows : (TokenStream.ofTokens differenceTokens).Shows (differenceTree.pieces .assignment)
      (.finished (differenceToken (.punctuation .semicolon) 13)) :=
    ⟨_, rfl, rfl, _, rfl, rfl, _, rfl, rfl, _, rfl, rfl, _, rfl, rfl, _, rfl, rfl, _, rfl, rfl, _, rfl,
      rfl, rfl⟩
  exact ⟨rfl, shows, expressionWithin_eq_analyze.1 differenceTree rfl 9 _ _ _ shows rfl rfl
    (by decide) .initial, expressionWithin_eq_analyze.2 _ _ _ _ _ _ _ _ rfl (by decide) .initial⟩

end Minilang
