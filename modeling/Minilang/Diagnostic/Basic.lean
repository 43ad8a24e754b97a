import Minilang.Operator
import Minilang.Ty

/-!
# Diagnostics

A diagnostic gives the cause of a failure as data. Lexical, grammatical and semantic ones are faults of
the program and belong to a location; internal ones say that a stage met what an earlier stage should
have ruled out.
-/

namespace Minilang

/-- What can be wrong with the characters of a text. -/
inductive LexicalError where
  /-- No token starts with this character. -/
  | invalidCharacter (character : Char)
  /-- The text ends inside a character literal. -/
  | unterminatedCharacter
  /-- The text ends inside a string literal. -/
  | unterminatedString
  /-- The text ends behind a backslash. -/
  | unterminatedEscape
  /-- A backslash stands before a character that it cannot escape. -/
  | invalidEscape (character : Char)
  /-- A character literal holds nothing. -/
  | emptyCharacter
  /-- A character literal holds more than one character. -/
  | multipleCharacters
  /-- A literal is not closed on its line. -/
  | newlineInLiteral
  /-- No digit follows the marker of a base. -/
  | missingDigits (radix : Radix)
  /-- An integer does not fit into 63 bits. -/
  | integerOverflow (literal : String)
deriving DecidableEq, Repr

/-- What the grammar admits at a place. -/
inductive Expectation where
  /-- One certain token. -/
  | token (kind : TokenKind)
  /-- A name. -/
  | identifier
  /-- The start of a declaration. -/
  | declaration
  /-- What follows the name behind a `def`. -/
  | colonOrParameters
  /-- The start of a type. -/
  | type
  /-- The start of an expression. -/
  | expression
deriving DecidableEq, Repr

/-- Groups of types that an operation asks for. -/
inductive Category where
  | arithmetic | numeric | scalar | integer | boolean | function
deriving DecidableEq, Repr

namespace Category

/-- Whether a type belongs to a group. -/
def admits : Category → Ty → Bool
  | arithmetic => Ty.isArithmetic
  | numeric => Ty.isNumeric
  | scalar => Ty.isScalar
  | integer => Ty.isIntegral
  | boolean => Ty.isBool
  | function => Ty.isFunction

end Category

/-- Parts of the grammar without a meaning. -/
inductive Feature where
  | pointerOperations | indexExpressions | stringLiterals
deriving DecidableEq, Repr

/-- What can be wrong with the meaning of a program. -/
inductive SemanticError where
  /-- A name is used that no declaration in sight has. -/
  | undeclared (name : String)
  /-- A name is declared twice in one scope. -/
  | redeclaration (name : String)
  /-- A constant is used in its own initializer. -/
  | selfInitializer (name : String)
  /-- A global constant is initialized by what has to be computed at run time. -/
  | nonConstantInitializer (name : String)
  /-- An operand has a type outside the group that the operation asks for. -/
  | expectedCategory (category : Category) (found : Ty)
  /-- The target of an assignment designates no storage. -/
  | notAReference (found : Ty)
  /-- A value has another type than its place. -/
  | typeMismatch (expected found : Ty)
  /-- The branches of a conditional have no type in common. -/
  | noCommonType (left right : Ty)
  /-- A call leaves parameters without an argument. -/
  | tooFewArguments (expected found : Nat)
  /-- A call has arguments without a parameter. -/
  | tooManyArguments (expected found : Nat)
  /-- An argument, counted from one, has another type than its parameter. -/
  | argumentMismatch (position : Nat) (expected found : Ty)
  /-- No conversion leads from one type to the other. -/
  | invalidConversion (source target : Ty)
  /-- An integer literal does not fit into 32 bits. -/
  | integerOutOfRange (value : Int64)
  /-- A character literal does not fit into one byte. -/
  | characterOutOfRange (character : Char)
  /-- A part of the grammar has no meaning. -/
  | unsupported (feature : Feature)
  /-- A function is declared inside another one. -/
  | nestedFunction (name : String)
  /-- A `break` stands in no loop. -/
  | breakOutsideLoop
  /-- A `continue` stands in no loop. -/
  | continueOutsideLoop
deriving DecidableEq, Repr

/-- What a stage cannot go on from, because an earlier stage should have ruled it out. -/
inductive InternalError where
  /-- A declaration was given a token that is no name. -/
  | expectedIdentifier (found : TokenKind)
  /-- An operation was given a token that does not belong to it. -/
  | misplacedToken (found : TokenKind)
  /-- A name leads to the declaration of the whole program. -/
  | nameOfProgram
  /-- A value is returned while no function is being defined. -/
  | returnOutsideFunction
  /-- The function being defined has no result type. -/
  | missingReturnType
  /-- A callee has no function type. -/
  | calleeNotFunction
  /-- A body is given to another function than the one being defined. -/
  | notCurrentFunction
  /-- A declaration should be a function. -/
  | declarationNotFunction
  /-- A function already has a body. -/
  | functionDefinedTwice
  /-- A declaration without a type should be an object. -/
  | objectWithoutType
  /-- An object already has an initializer. -/
  | objectDefinedTwice
  /-- A declaration should be an object. -/
  | declarationNotObject
  /-- The global scope is not the outermost one. -/
  | globalScopeEnteredTwice
  /-- There is no scope to leave. -/
  | scopeNeverEntered
  /-- An object has no initializer. -/
  | objectNeverDefined
  /-- A function has no body. -/
  | functionNeverDefined
  /-- A declaration cannot stand at the top of a program. -/
  | unexpectedTopLevel (name : String)
  /-- A declaration to be lowered as a function has another type. -/
  | notAFunction (name : String)
  /-- A parameter has no type. -/
  | parameterWithoutType
  /-- A declaration inside a function is no object. -/
  | localNotObject
  /-- An index expression is to be lowered. -/
  | indexExpression
  /-- A name to be lowered has neither storage nor an initializer. -/
  | noStorage (name : String)
  /-- An operator has no instruction for its operand type. -/
  | noInstruction (operator : BinaryOperator)
  /-- The nesting of a tree is deeper than the tree is large. -/
  | nestingTooDeep
deriving DecidableEq, Repr

/-- Why the text of a source file cannot be had. -/
inductive ReadError where
  /-- The path leads nowhere. -/
  | notFound
  /-- The path leads to a directory. -/
  | isDirectory
  /-- The path leads through a file. -/
  | notDirectory
  /-- The path, or a name on it, is longer than the system allows. -/
  | nameTooLong
  /-- A zero character is on the path, where it can be no part of a name. -/
  | zeroInPath
  /-- The bytes of the file encode no text. -/
  | invalidEncoding
  /-- The system refuses for another reason. -/
  | refused (reason : String)
deriving DecidableEq, Repr

/-- Why there is no result. -/
inductive Diagnostic where
  /-- The characters at a location form no token. -/
  | lexical (location : Location) (error : LexicalError)
  /-- The token at a location does not fit the grammar. -/
  | unexpected (location : Location) (expected : Expectation) (found : TokenKind)
  /-- The program has no meaning at a location. -/
  | semantic (location : Location) (error : SemanticError)
  /-- The compiler has broken an invariant of its own. -/
  | internal (error : InternalError)
  /-- A source file cannot be read. -/
  | unreadable (path : String) (error : ReadError)
deriving DecidableEq, Repr

namespace Diagnostic

/-- The location that a diagnostic belongs to, if it is about the program. -/
def location? : Diagnostic → Option Location
  | lexical location _ | unexpected location _ _ | semantic location _ => some location
  | internal _ | unreadable _ _ => none

end Diagnostic

end Minilang
