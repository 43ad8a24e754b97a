import Minilang.Diagnostic.Basic
import Minilang.Token.Spelling

/-!
# Messages

The wording of every diagnostic. Types and program texts are quoted in backquotes.
-/

namespace Minilang

namespace Radix

/-- The name of a base. -/
def name : Radix → String
  | binary => "binary"
  | decimal => "decimal"
  | hexadecimal => "hexadecimal"

end Radix

namespace LexicalError

/-- The wording of a lexical error. -/
def message : LexicalError → String
  | invalidCharacter character => s!"invalid character `{character}`"
  | unterminatedCharacter => "character literal is not terminated"
  | unterminatedString => "string literal is not terminated"
  | unterminatedEscape => "escape sequence is not terminated"
  | invalidEscape character => s!"invalid escape sequence `\\{character}`"
  | emptyCharacter => "empty character literal"
  | multipleCharacters => "character literal holds more than one character"
  | newlineInLiteral => "literal spans a newline"
  | missingDigits radix => s!"expected {radix.name} digits after the prefix"
  | integerOverflow literal => s!"integer literal `{literal}` is too large"

end LexicalError

namespace Expectation

/-- What the grammar admits, in words. -/
def text : Expectation → String
  | token kind => kind.description
  | identifier => "identifier"
  | declaration => "declaration"
  | colonOrParameters => "`:` or `(`"
  | type => "type"
  | expression => "expression"

end Expectation

namespace Category

/-- The name of a group of types. -/
def name : Category → String
  | arithmetic => "arithmetic"
  | numeric => "numeric"
  | scalar => "scalar"
  | integer => "integer"
  | boolean => "boolean"
  | function => "function"

end Category

namespace Feature

/-- The name of a part of the grammar. -/
def name : Feature → String
  | pointerOperations => "pointer operations"
  | indexExpressions => "index expressions"
  | stringLiterals => "string literals"

end Feature

namespace SemanticError

/-- The wording of a semantic error. -/
def message : SemanticError → String
  | undeclared name => s!"use of undeclared name `{name}`"
  | redeclaration name => s!"redeclaration of `{name}`"
  | selfInitializer name => s!"`{name}` is used in its own initializer"
  | nonConstantInitializer name =>
    s!"initializer of global `{name}` is not a constant expression"
  | expectedCategory category found =>
    s!"expected {category.name} expression, found `{found.text}`"
  | notAReference found => s!"left-hand side not a reference: found `{found.text}`"
  | typeMismatch expected found =>
    s!"type mismatch: expected `{expected.text}`, found `{found.text}`"
  | noCommonType left right => s!"no common type for `{left.text}` and `{right.text}`"
  | tooFewArguments expected found =>
    s!"too few arguments: expected {expected}, found {found}"
  | tooManyArguments expected found =>
    s!"too many arguments: expected {expected}, found {found}"
  | argumentMismatch position expected found =>
    s!"argument {position} does not match: expected `{expected.text}`, found `{found.text}`"
  | invalidConversion source target => s!"cannot convert `{source.text}` to `{target.text}`"
  | integerOutOfRange value => s!"integer literal {value.toInt} does not fit in `int`"
  | characterOutOfRange character => s!"character literal `{character}` does not fit in `char`"
  | unsupported feature => s!"{feature.name} are not supported"
  | nestedFunction name => s!"function `{name}` cannot be defined inside another function"
  | breakOutsideLoop => "`break` outside of a loop"
  | continueOutsideLoop => "`continue` outside of a loop"

end SemanticError

namespace InternalError

/-- The wording of an internal error. -/
def message : InternalError → String
  | expectedIdentifier found => s!"expected an identifier, got {found.description}"
  | misplacedToken found => s!"{found.description} reached the wrong semantic action"
  | nameOfProgram => "name resolved to the program"
  | returnOutsideFunction => "return outside of a function"
  | missingReturnType => "current function has no return type"
  | calleeNotFunction => "callee lost its function type"
  | notCurrentFunction => "defining a function that is not current"
  | declarationNotFunction => "declaration is not a function"
  | functionDefinedTwice => "function defined twice"
  | objectWithoutType => "object has no type"
  | objectDefinedTwice => "object defined twice"
  | declarationNotObject => "declaration is not an object"
  | globalScopeEnteredTwice => "global scope entered twice"
  | scopeNeverEntered => "left a scope that was never entered"
  | objectNeverDefined => "object declared but never defined"
  | functionNeverDefined => "function declared but never defined"
  | unexpectedTopLevel name => s!"unexpected top-level declaration `{name}`"
  | notAFunction name => s!"`{name}` is not a function"
  | parameterWithoutType => "parameter without a type"
  | localNotObject => "only objects can be declared locally"
  | indexExpression => "index expression reached lowering"
  | noStorage name => s!"no storage for `{name}`"
  | noInstruction operator => s!"{operator.name} has no lowering here"
  | nestingTooDeep => "nesting is too deep"

end InternalError

namespace ReadError

/-- The wording of a reading error. -/
def message : ReadError → String
  | notFound => "No such file or directory (os error 2)"
  | isDirectory => "Is a directory (os error 21)"
  | notDirectory => "Not a directory (os error 20)"
  | nameTooLong => "File name too long (os error 36)"
  | zeroInPath => "file name contained an unexpected NUL byte"
  | invalidEncoding => "stream did not contain valid UTF-8"
  | refused reason => reason

end ReadError

namespace Diagnostic

/-- The whole text of a diagnostic, its location in front. -/
def message : Diagnostic → String
  | lexical location error => s!"{location.text}: lexical error: {error.message}"
  | unexpected location expected found =>
    s!"{location.text}: syntax error: expected {expected.text}, found {found.description}"
  | semantic location error => s!"{location.text}: semantic error: {error.message}"
  | internal error => s!"internal compiler error: {error.message}"
  | unreadable path error => s!"{path}: {error.message}"

end Diagnostic

end Minilang
