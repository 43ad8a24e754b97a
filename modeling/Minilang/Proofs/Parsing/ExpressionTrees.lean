import Minilang.Parsing.Expressions
import Minilang.Proofs.Analysis.PlainTypes

/-!
# Expression trees

Expressions as trees, apart from how they are read: `ExprTree.analyze` takes the steps of analysis in
post-order, operands from left to right, and `ExprTree.pieces` prints a tree at a place that asks for a
tightness. A tree that is looser than that is put into parentheses, and no other one is. A minus sign
directly before an integer literal is a leaf of its own. Parentheses beyond the needed ones are part of the
tree, and `ExprTree.bare` leaves them out.
-/

namespace Minilang

open Analysis (OperatorLevel)

/-! ## Tightness -/

/-- How tightly an expression holds together, from the loosest form to the tightest one. -/
inductive Tightness where
  | assignment
  | conditional
  | binary (level : OperatorLevel)
  | cast
  | unary
  | application
  | primary
deriving DecidableEq, Repr

namespace Tightness

/-- The position among all of them. -/
def rank : Tightness → Nat
  | assignment => 0
  | conditional => 1
  | binary level => OperatorLevel.all.idxOf level + 2
  | cast => 12
  | unary => 13
  | application => 14
  | primary => 15

/-- The next tighter one, if there is one. -/
def tighter : Tightness → Tightness
  | assignment => conditional
  | conditional => binary .logicalOr
  | binary .logicalOr => binary .logicalAnd
  | binary .logicalAnd => binary .bitwiseOr
  | binary .bitwiseOr => binary .bitwiseXor
  | binary .bitwiseXor => binary .bitwiseAnd
  | binary .bitwiseAnd => binary .equality
  | binary .equality => binary .relational
  | binary .relational => binary .shift
  | binary .shift => binary .additive
  | binary .additive => binary .multiplicative
  | binary .multiplicative => cast
  | cast => unary
  | unary => application
  | application | primary => primary

end Tightness

namespace TokenKind

/-- Whether a token is an expression by itself: a literal or a name. -/
def isLeaf : TokenKind → Bool
  | integer _ _ | float _ | boolean _ | character _ | string _ | identifier _ => true
  | _ => false

/-- Whether a token is an integer literal. -/
def isInteger : TokenKind → Bool
  | integer _ _ => true
  | _ => false

/-- The form of expression that goes on with a token behind its first operand. -/
def continues? : TokenKind → Option Tightness
  | punctuation .assign => some .assignment
  | punctuation .question => some .conditional
  | keyword .asWord => some .cast
  | punctuation .leftParen | punctuation .leftBracket => some .application
  | kind => (OperatorLevel.all.find? (·.accepts kind)).map .binary

end TokenKind

/-- Whether an expression of a tightness ends in front of a token: only looser forms go on with it. -/
def Tightness.endsBefore (tightness : Tightness) (kind : TokenKind) : Bool :=
  kind.continues?.all (·.rank < tightness.rank)

/-! ## Trees -/

/-- An expression with the tokens that its analysis depends on. -/
inductive ExprTree where
  /-- A literal or a name. -/
  | leaf (token : Token) (fits : token.kind.isLeaf = true)
  /-- A minus sign directly in front of an integer literal. -/
  | negatedInteger (sign literal : Token) (minus : sign.kind = .arithmetic .sub)
      (integer : literal.kind.isInteger = true)
  /-- An operator on one value. -/
  | unary (operator : Token) (operand : ExprTree) (fits : Parser.isUnaryOperator operator.kind = true)
  /-- An operator on two values. -/
  | binary (level : OperatorLevel) (operator : Token) (left right : ExprTree)
      (fits : level.accepts operator.kind = true)
  /-- A cast to a type that can be written. -/
  | cast (operand : ExprTree) (type : Ty) (plain : type.isPlain = true)
  /-- A call. -/
  | call (callee : ExprTree) (arguments : List ExprTree)
  /-- An index expression. -/
  | index (base : ExprTree) (arguments : List ExprTree)
  /-- A choice between two expressions. -/
  | conditional (guard whenTrue whenFalse : ExprTree)
  /-- An assignment. -/
  | assignment (target value : ExprTree)
  /-- An expression in parentheses that are there whether it needs them or not. -/
  | parenthesized (inner : ExprTree)

namespace ExprTree

/-- The form of a tree. -/
def tightness : ExprTree → Tightness
  | assignment _ _ => .assignment
  | conditional _ _ _ => .conditional
  | binary level _ _ _ _ => .binary level
  | cast _ _ _ => .cast
  | unary _ _ _ | negatedInteger _ _ _ _ => .unary
  | call _ _ | index _ _ => .application
  | leaf _ _ | parenthesized _ => .primary

/-- Whether a tree is an integer literal. -/
def isInteger : ExprTree → Bool
  | leaf token _ => token.kind.isInteger
  | _ => false

mutual

/-- Whether no minus sign has an integer literal for its operand, unless there are parentheses. -/
def foldsLiterals : ExprTree → Bool
  | leaf _ _ | negatedInteger _ _ _ _ => true
  | unary operator operand _ =>
    !(operator.kind == .arithmetic .sub && operand.isInteger) && operand.foldsLiterals
  | binary _ _ left right _ => left.foldsLiterals && right.foldsLiterals
  | cast operand _ _ => operand.foldsLiterals
  | call callee arguments => callee.foldsLiterals && foldAllLiterals arguments
  | index base arguments => base.foldsLiterals && foldAllLiterals arguments
  | conditional guard whenTrue whenFalse =>
    guard.foldsLiterals && whenTrue.foldsLiterals && whenFalse.foldsLiterals
  | assignment target value => target.foldsLiterals && value.foldsLiterals
  | parenthesized inner => inner.foldsLiterals

/-- Whether all of some trees have no minus sign with an integer literal for its operand. -/
def foldAllLiterals : List ExprTree → Bool
  | [] => true
  | first :: others => first.foldsLiterals && foldAllLiterals others

end

mutual

/-- A tree without the parentheses that are part of it. -/
def bare : ExprTree → ExprTree
  | leaf token fits => leaf token fits
  | negatedInteger sign literal minus integer => negatedInteger sign literal minus integer
  | unary operator operand fits => unary operator operand.bare fits
  | binary level operator left right fits => binary level operator left.bare right.bare fits
  | cast operand type plain => cast operand.bare type plain
  | call callee arguments => call callee.bare (bareAll arguments)
  | index base arguments => index base.bare (bareAll arguments)
  | conditional guard whenTrue whenFalse => conditional guard.bare whenTrue.bare whenFalse.bare
  | assignment target value => assignment target.bare value.bare
  | parenthesized inner => inner.bare

/-- Trees without the parentheses that are part of them. -/
def bareAll : List ExprTree → List ExprTree
  | [] => []
  | first :: others => first.bare :: bareAll others

end

/-! ## Analysis in post-order -/

/-- The step for a literal or a name. -/
def analyzeLeaf (token : Token) : Check ExprId :=
  match token.kind with
  | .integer _ _ => Analysis.integerLiteral token
  | .float _ => Analysis.floatLiteral token
  | .boolean _ => Analysis.booleanLiteral token
  | .character _ => Analysis.characterLiteral token
  | .string _ => Analysis.stringLiteral token
  | .identifier _ => Analysis.name token
  | _ => Analysis.refuseToken token

mutual

/-- The steps of analysis for a tree: those for the operands from left to right, and then its own. -/
def analyze : ExprTree → Check ExprId
  | leaf token _ => analyzeLeaf token
  | negatedInteger sign literal _ _ => Analysis.negatedIntegerLiteral sign literal
  | unary operator operand _ => do
    let operand ← operand.analyze
    Analysis.unary operator operand
  | binary level operator left right _ => do
    let left ← left.analyze
    let right ← right.analyze
    level.combine operator left right
  | cast operand type _ => do
    let operand ← operand.analyze
    Analysis.cast operand type
  | call callee arguments => do
    let callee ← callee.analyze
    let arguments ← analyzeAll arguments
    Analysis.call callee arguments
  | index base arguments => do
    let base ← base.analyze
    let arguments ← analyzeAll arguments
    Analysis.index base arguments
  | conditional guard whenTrue whenFalse => do
    let guard ← guard.analyze
    let whenTrue ← whenTrue.analyze
    let whenFalse ← whenFalse.analyze
    Analysis.conditional guard whenTrue whenFalse
  | assignment target value => do
    let target ← target.analyze
    let value ← value.analyze
    Analysis.assignment target value
  | parenthesized inner => inner.analyze

/-- The steps for the arguments of a call. -/
def analyzeAll : List ExprTree → Check (List ExprId)
  | [] => pure []
  | first :: others => do
    let first ← first.analyze
    let others ← analyzeAll others
    return first :: others

end

theorem analyzeAll_eq (trees : List ExprTree) : analyzeAll trees = trees.mapM analyze := by
  induction trees with
  | nil => rfl
  | cons first others induction => rw [analyzeAll, induction, List.mapM_cons]

end ExprTree

/-! ## Printing -/

/-- A printed token: one that is given with its location, or any token of a kind. -/
inductive Piece where
  | exactly (token : Token)
  | ofKind (kind : TokenKind)
deriving DecidableEq, Repr

namespace Piece

/-- A bracket, a comma or another sign. -/
def sign (sign : Punctuation) : Piece := ofKind (.punctuation sign)

/-- The kind of a printed token. -/
def tokenKind : Piece → TokenKind
  | exactly token => token.kind
  | ofKind kind => kind

/-- Whether a token is as printed. -/
def Shows (piece : Piece) (found : Token) : Prop :=
  match piece with
  | exactly token => found = token
  | ofKind kind => found.kind = kind

/-- Printed parts with commas between them. -/
def separated : List (List Piece) → List Piece
  | [] => []
  | [last] => last
  | first :: others => first ++ .sign .comma :: separated others

end Piece

namespace TokenStream

/-- Whether a stream begins with printed tokens and goes on with another stream. -/
def Shows (before : TokenStream) : List Piece → TokenStream → Prop
  | [], after => before = after
  | piece :: pieces, after =>
    ∃ found, before.lookahead 0 = .ok found ∧ piece.Shows found ∧ before.rest.Shows pieces after

end TokenStream

mutual

/-- A type as printed. -/
def Ty.pieces : Ty → List Piece
  | .bool => [.ofKind (.basicType .bool)]
  | .char => [.ofKind (.basicType .char)]
  | .int => [.ofKind (.basicType .int)]
  | .float => [.ofKind (.basicType .float)]
  | .pointer target => .ofKind (.arithmetic .mul) :: target.pieces
  | .reference object => object.pieces
  | .function result parameters =>
    .sign .leftParen ::
      (Piece.separated (Ty.allPieces parameters) ++
        .sign .rightParen :: .sign .arrow :: result.pieces)

/-- Types as printed, each by itself. -/
def Ty.allPieces : List Ty → List (List Piece)
  | [] => []
  | type :: types => type.pieces :: Ty.allPieces types

end

theorem Ty.allPieces_eq (types : List Ty) : allPieces types = types.map pieces := by
  induction types with
  | nil => rfl
  | cons type types induction => rw [allPieces, induction, List.map_cons]

/-- Printed tokens in parentheses if a tree of a tightness needs them at its place. -/
def Tightness.enclose (own asked : Tightness) (pieces : List Piece) : List Piece :=
  if own.rank < asked.rank then .sign .leftParen :: (pieces ++ [.sign .rightParen]) else pieces

theorem Tightness.enclose_of_le {own asked : Tightness} (le : asked.rank ≤ own.rank)
    (pieces : List Piece) : own.enclose asked pieces = pieces := if_neg (Nat.not_lt.2 le)

theorem Tightness.enclose_of_lt {own asked : Tightness} (lt : own.rank < asked.rank)
    (pieces : List Piece) :
    own.enclose asked pieces = .sign .leftParen :: (pieces ++ [.sign .rightParen]) := if_pos lt

namespace ExprTree

mutual

/-- A tree as printed where nothing is asked of it. -/
def body : ExprTree → List Piece
  | leaf token _ => [.exactly token]
  | negatedInteger sign literal _ _ => [.exactly sign, .exactly literal]
  | unary operator operand _ =>
    .exactly operator :: operand.tightness.enclose .unary operand.body
  | binary level operator left right _ =>
    left.tightness.enclose (.binary level) left.body ++
      .exactly operator :: right.tightness.enclose (Tightness.binary level).tighter right.body
  | cast operand type _ =>
    operand.tightness.enclose .cast operand.body ++ .ofKind (.keyword .asWord) :: type.pieces
  | call callee arguments =>
    callee.tightness.enclose .application callee.body ++
      .sign .leftParen :: (Piece.separated (bodies arguments) ++ [.sign .rightParen])
  | index base arguments =>
    base.tightness.enclose .application base.body ++
      .sign .leftBracket :: (Piece.separated (bodies arguments) ++ [.sign .rightBracket])
  | conditional guard whenTrue whenFalse =>
    guard.tightness.enclose Tightness.conditional.tighter guard.body ++ .sign .question ::
      (whenTrue.body ++ .sign .colon ::
        whenFalse.tightness.enclose .conditional whenFalse.body)
  | assignment target value =>
    target.tightness.enclose .conditional target.body ++ .sign .assign :: value.body
  | parenthesized inner => .sign .leftParen :: (inner.body ++ [.sign .rightParen])

/-- Trees as printed where nothing is asked of them. -/
def bodies : List ExprTree → List (List Piece)
  | [] => []
  | first :: others => first.body :: bodies others

end

theorem bodies_eq (trees : List ExprTree) : bodies trees = trees.map body := by
  induction trees with
  | nil => rfl
  | cons first others induction => rw [bodies, induction, List.map_cons]

/-- A tree as printed at a place that asks for a tightness. -/
def pieces (tree : ExprTree) (asked : Tightness) : List Piece :=
  tree.tightness.enclose asked tree.body

end ExprTree

end Minilang
