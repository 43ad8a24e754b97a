import Mathlib.Computability.Language
import Minilang.Analysis.Expression

/-!
# The grammar

What a program may look like, as one rule for each form, in extended Backus-Naur form: `(…)?` is
`optional`, `(…)*` is `many`. The words of a form are the sequences of kinds of tokens that its rule
derives. The grammar knows nothing of parsers.
-/

namespace Minilang.Grammar

open Analysis (OperatorLevel)

/-- Kinds of tokens that the grammar does not tell apart. -/
inductive Terminal where
  /-- One of the given kinds. -/
  | oneOf (first : TokenKind) (others : List TokenKind)
  /-- Any name. -/
  | identifier
  /-- Any integer, in any base. -/
  | integer
  /-- Any floating-point number. -/
  | float
  /-- Any character. -/
  | character
  /-- Any string. -/
  | string
deriving DecidableEq, Repr

/-- Whether a kind of token is among those of a terminal. -/
def Terminal.admits : Terminal → TokenKind → Bool
  | oneOf first others, kind => decide (kind ∈ first :: others)
  | identifier, .identifier _ => true
  | integer, .integer _ _ => true
  | float, .float _ => true
  | character, .character _ => true
  | string, .string _ => true
  | _, _ => false

/-- The forms that have rules. -/
inductive Nonterminal where
  | program | declaration | localDeclaration
  | variableDefinition | constantDefinition | valueDefinition | functionDefinition
  | parameterList | parameter | type
  | statement | blockStatement
  | expression | assignment | conditional
  /-- Operators on two values of one level, or a tighter expression. -/
  | operators (level : OperatorLevel)
  | cast | unary | postfixed | arguments | primary
deriving DecidableEq, Repr

/-- What a rule derives words from. -/
inductive Form where
  | terminal (terminal : Terminal)
  | nonterminal (nonterminal : Nonterminal)
  | empty
  | seq (first second : Form)
  | either (left right : Form)
  | many (item : Form)
deriving DecidableEq, Repr

namespace Form

/-- Forms one after another. -/
def sequence : List Form → Form
  | [] => empty
  | first :: others => seq first (sequence others)

/-- One of the given forms. -/
def choice : Form → List Form → Form
  | only, [] => only
  | first, second :: others => either first (choice second others)

/-- A form that may be left out. -/
def optional (item : Form) : Form := either empty item

/-- A single kind of token. -/
def token (kind : TokenKind) : Form := terminal (.oneOf kind [])

/-- A sign. -/
def sign (sign : Punctuation) : Form := token (.punctuation sign)

/-- A reserved word. -/
def word (word : Keyword) : Form := token (.keyword word)

/-- At least one item, with commas between the items. -/
def list (item : Form) : Form := sequence [item, many (sequence [sign .comma, item])]

end Form

instance : Coe Nonterminal Form := ⟨.nonterminal⟩

instance : Coe Terminal Form := ⟨.terminal⟩

open Form Nonterminal

/-- The definition of an object, behind its word. -/
def objectDefinition (keyword : Keyword) : Form :=
  sequence [word keyword, Terminal.identifier, sign .colon, type, sign .assign, expression,
    sign .semicolon]

/-- What stands between the operators of a level. -/
def operand : OperatorLevel → Nonterminal
  | .logicalOr => operators .logicalAnd
  | .logicalAnd => operators .bitwiseOr
  | .bitwiseOr => operators .bitwiseXor
  | .bitwiseXor => operators .bitwiseAnd
  | .bitwiseAnd => operators .equality
  | .equality => operators .relational
  | .relational => operators .shift
  | .shift => operators .additive
  | .additive => operators .multiplicative
  | .multiplicative => cast

/-- The operators of a level. -/
def operatorSigns : OperatorLevel → Terminal
  | .logicalOr => .oneOf (.logical .or) []
  | .logicalAnd => .oneOf (.logical .and) []
  | .bitwiseOr => .oneOf (.bitwise .or) []
  | .bitwiseXor => .oneOf (.bitwise .xor) []
  | .bitwiseAnd => .oneOf (.bitwise .and) []
  | .equality => .oneOf (.relational .eq) [.relational .ne]
  | .relational =>
    .oneOf (.relational .lt) [.relational .gt, .relational .le, .relational .ge]
  | .shift => .oneOf (.bitwise .shl) [.bitwise .shr]
  | .additive => .oneOf (.arithmetic .add) [.arithmetic .sub]
  | .multiplicative => .oneOf (.arithmetic .mul) [.arithmetic .div, .arithmetic .mod]

/-- The operators on one value. -/
def unarySigns : Terminal :=
  .oneOf (.arithmetic .add) [.arithmetic .sub, .arithmetic .mul, .bitwise .and, .bitwise .not,
    .logical .not]

/-- The words of types. -/
def typeWords : Terminal :=
  .oneOf (.basicType .bool) [.basicType .char, .basicType .int, .basicType .float]

/-- The words of truth values. -/
def truthWords : Terminal := .oneOf (.boolean true) [.boolean false]

/-- The rules of the grammar. -/
def rule : Nonterminal → Form
  | .program => sequence [many declaration, token .endOfInput]
  | .declaration =>
    choice variableDefinition [constantDefinition, valueDefinition, functionDefinition]
  | .localDeclaration => choice variableDefinition [constantDefinition, valueDefinition]
  | .variableDefinition => objectDefinition .varWord
  | .constantDefinition => objectDefinition .letWord
  | .valueDefinition => objectDefinition .defWord
  | .functionDefinition =>
    sequence [word .defWord, Terminal.identifier, sign .leftParen, optional parameterList,
      sign .rightParen, sign .arrow, type, blockStatement]
  | .parameterList => list parameter
  | .parameter => sequence [Terminal.identifier, sign .colon, type]
  | .type =>
    choice typeWords [
      sequence [token (.arithmetic .mul), type],
      sequence [sign .leftParen, optional (list type), sign .rightParen, sign .arrow, type]]
  | .statement =>
    choice blockStatement [
      sequence [word .ifWord, sign .leftParen, expression, sign .rightParen, statement,
        word .elseWord, statement],
      sequence [word .whenWord, sign .leftParen, expression, sign .rightParen, statement],
      sequence [word .whileWord, sign .leftParen, expression, sign .rightParen, statement],
      sequence [word .breakWord, sign .semicolon],
      sequence [word .continueWord, sign .semicolon],
      sequence [word .returnWord, expression, sign .semicolon],
      localDeclaration,
      sequence [expression, sign .semicolon]]
  | .blockStatement => sequence [sign .leftBrace, many statement, sign .rightBrace]
  | .expression => assignment
  | .assignment => sequence [conditional, optional (sequence [sign .assign, assignment])]
  | .conditional =>
    sequence [operators .logicalOr,
      optional (sequence [sign .question, expression, sign .colon, conditional])]
  | .operators level =>
    sequence [operand level, many (sequence [operatorSigns level, operand level])]
  | .cast => sequence [unary, many (sequence [word .asWord, type])]
  | .unary =>
    choice (sequence [token (.arithmetic .sub), Terminal.integer]) [
      sequence [unarySigns, unary],
      postfixed]
  | .postfixed =>
    sequence [primary, many (choice
      (sequence [sign .leftParen, optional arguments, sign .rightParen])
      [sequence [sign .leftBracket, optional arguments, sign .rightBracket]])]
  | .arguments => list expression
  | .primary =>
    choice Terminal.integer [Terminal.float, truthWords, Terminal.character, Terminal.string,
      Terminal.identifier, sequence [sign .leftParen, expression, sign .rightParen]]

/-- A word can be derived from a form. -/
inductive Derives : Form → List TokenKind → Prop
  | terminal {terminal : Terminal} {kind : TokenKind} (admitted : terminal.admits kind = true) :
      Derives (.terminal terminal) [kind]
  | nonterminal {nonterminal : Nonterminal} {word : List TokenKind}
      (derives : Derives (rule nonterminal) word) : Derives (.nonterminal nonterminal) word
  | empty : Derives .empty []
  | seq {first second : Form} {before after : List TokenKind} (left : Derives first before)
      (right : Derives second after) : Derives (.seq first second) (before ++ after)
  | left {left right : Form} {word : List TokenKind} (derives : Derives left word) :
      Derives (.either left right) word
  | right {left right : Form} {word : List TokenKind} (derives : Derives right word) :
      Derives (.either left right) word
  | none {item : Form} : Derives (.many item) []
  | more {item : Form} {before after : List TokenKind} (first : Derives item before)
      (others : Derives (.many item) after) : Derives (.many item) (before ++ after)

/-- The words of a form. -/
def language (form : Form) : Language TokenKind := {word | Derives form word}

/-- The programs of the grammar, as kinds of tokens with the end of input behind them. -/
def sentences : Language TokenKind := language program

/-- Whether kinds of tokens begin a sentence. -/
def Viable (seen : List TokenKind) : Prop := ∃ sentence ∈ sentences, seen <+: sentence

/-! ## Equations of languages -/

section Equations

variable {word : List TokenKind}

theorem mem_language {form : Form} : word ∈ language form ↔ Derives form word := Iff.rfl

theorem mem_language_terminal {terminal : Terminal} :
    word ∈ language (.terminal terminal) ↔ ∃ kind, terminal.admits kind = true ∧ word = [kind] := by
  rw [mem_language]
  constructor
  · rintro ⟨admitted⟩
    exact ⟨_, admitted, rfl⟩
  · rintro ⟨kind, admitted, rfl⟩
    exact .terminal admitted

theorem language_nonterminal (nonterminal : Nonterminal) :
    language nonterminal = language (rule nonterminal) := by
  ext word
  rw [mem_language, mem_language]
  constructor
  · rintro ⟨⟩
    assumption
  · exact .nonterminal

theorem language_empty : language .empty = 1 := by
  ext word
  rw [mem_language, Language.mem_one]
  constructor
  · rintro ⟨⟩
    rfl
  · rintro rfl
    exact .empty

theorem language_seq (first second : Form) :
    language (.seq first second) = language first * language second := by
  ext word
  rw [mem_language, Language.mem_mul]
  constructor
  · rintro (⟨⟩ | _ | _ | ⟨left, right⟩)
    exact ⟨_, left, _, right, rfl⟩
  · rintro ⟨before, left, after, right, rfl⟩
    exact .seq left right

theorem language_either (left right : Form) :
    language (.either left right) = language left + language right := by
  ext word
  rw [mem_language, Language.mem_add]
  constructor
  · intro derives
    cases derives with
    | left derives => exact .inl derives
    | right derives => exact .inr derives
  · rintro (derives | derives)
    · exact .left derives
    · exact .right derives

/-- Items are none at all, or a first one and others behind it. -/
theorem language_many (item : Form) :
    language (.many item) = 1 + language item * language (.many item) := by
  ext word
  rw [mem_language, Language.mem_add, Language.mem_one, Language.mem_mul]
  constructor
  · intro derives
    cases derives with
    | none => exact .inl rfl
    | more first others => exact .inr ⟨_, first, _, others, rfl⟩
  · rintro (rfl | ⟨before, first, after, others, rfl⟩)
    · exact .none
    · exact .more first others

theorem language_sequence_nil : language (sequence []) = 1 := language_empty

theorem language_sequence_cons (first : Form) (others : List Form) :
    language (sequence (first :: others)) = language first * language (sequence others) :=
  language_seq _ _

theorem language_optional (item : Form) : language (optional item) = 1 + language item := by
  rw [Form.optional, language_either, language_empty]

end Equations

end Minilang.Grammar
