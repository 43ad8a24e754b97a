import Minilang.Token.Basic

/-!
# Types

The types of the language: four basic types, pointers, references to storage, and functions. A
reference is the type of an expression that designates storage; references never nest.
-/

namespace Minilang

/-- The type of an expression or a declaration. -/
inductive Ty where
  /-- Truth values. -/
  | bool
  /-- Characters of one byte. -/
  | char
  /-- Integers of 32 bits. -/
  | int
  /-- Floating-point numbers. -/
  | float
  /-- Addresses of objects. -/
  | pointer (target : Ty)
  /-- Storage that holds an object. -/
  | reference (object : Ty)
  /-- Functions, with the result type in front of the parameter types. -/
  | function (result : Ty) (parameters : List Ty)
deriving Repr

namespace Ty

mutual

/-- Decide whether two types are equal. -/
def decideEq : (left right : Ty) → Decidable (left = right)
  | bool, bool => isTrue rfl
  | char, char => isTrue rfl
  | int, int => isTrue rfl
  | float, float => isTrue rfl
  | pointer left, pointer right =>
    match decideEq left right with
    | isTrue equal => isTrue (by rw [equal])
    | isFalse different => isFalse (by simp [different])
  | reference left, reference right =>
    match decideEq left right with
    | isTrue equal => isTrue (by rw [equal])
    | isFalse different => isFalse (by simp [different])
  | function leftResult leftParameters, function rightResult rightParameters =>
    match decideEq leftResult rightResult, decideEqList leftParameters rightParameters with
    | isTrue equal, isTrue equalParameters => isTrue (by rw [equal, equalParameters])
    | isFalse different, _ => isFalse (by simp [different])
    | _, isFalse different => isFalse (by simp [different])
  | bool, char | bool, int | bool, float | bool, pointer _ | bool, reference _
  | bool, function _ _ => isFalse (by simp)
  | char, bool | char, int | char, float | char, pointer _ | char, reference _
  | char, function _ _ => isFalse (by simp)
  | int, bool | int, char | int, float | int, pointer _ | int, reference _
  | int, function _ _ => isFalse (by simp)
  | float, bool | float, char | float, int | float, pointer _ | float, reference _
  | float, function _ _ => isFalse (by simp)
  | pointer _, bool | pointer _, char | pointer _, int | pointer _, float
  | pointer _, reference _ | pointer _, function _ _ => isFalse (by simp)
  | reference _, bool | reference _, char | reference _, int | reference _, float
  | reference _, pointer _ | reference _, function _ _ => isFalse (by simp)
  | function _ _, bool | function _ _, char | function _ _, int | function _ _, float
  | function _ _, pointer _ | function _ _, reference _ => isFalse (by simp)

/-- Decide whether two lists of types are equal. -/
def decideEqList : (left right : List Ty) → Decidable (left = right)
  | [], [] => isTrue rfl
  | [], _ :: _ => isFalse (by simp)
  | _ :: _, [] => isFalse (by simp)
  | left :: lefts, right :: rights =>
    match decideEq left right, decideEqList lefts rights with
    | isTrue equal, isTrue equalRest => isTrue (by rw [equal, equalRest])
    | isFalse different, _ => isFalse (by simp [different])
    | _, isFalse different => isFalse (by simp [different])

end

instance : DecidableEq Ty := decideEq

instance : Inhabited Ty := ⟨bool⟩

/-- The type that a type word names. -/
def ofBasic : BasicType → Ty
  | .bool => bool
  | .char => char
  | .int => int
  | .float => float

/-- The type of storage for a type. References never nest: the type of a reference to a reference is
that reference. -/
def referenceTo : Ty → Ty
  | reference object => reference object
  | object => reference object

/-- Whether a type is a reference. -/
def isReference : Ty → Bool
  | reference _ => true
  | _ => false

/-- Whether a type is the reference to another one. -/
def isReferenceTo (type other : Ty) : Bool :=
  match type with
  | reference object => object == other
  | _ => false

/-- What a reference holds, and any other type itself. -/
def objectType : Ty → Ty
  | reference object => object
  | type => type

@[simp]
theorem referenceTo_referenceTo (type : Ty) : type.referenceTo.referenceTo = type.referenceTo := by
  cases type <;> rfl

@[simp]
theorem isReference_referenceTo (type : Ty) : type.referenceTo.isReference = true := by
  cases type <;> rfl

@[simp]
theorem objectType_referenceTo (type : Ty) : type.referenceTo.objectType = type.objectType := by
  cases type <;> rfl

theorem isReferenceTo_iff {type other : Ty} :
    type.isReferenceTo other = true ↔ type = reference other := by
  cases type <;> simp [isReferenceTo]

/-- Whether values of a type can be stored: it is neither a reference nor a function. -/
def isObject : Ty → Bool
  | reference _ | function _ _ => false
  | _ => true

/-- Whether a type is the one of truth values. -/
def isBool : Ty → Bool
  | bool => true
  | _ => false

/-- Whether a type is the one of integers. -/
def isInt : Ty → Bool
  | int => true
  | _ => false

/-- Whether a type is a function type. -/
def isFunction : Ty → Bool
  | function _ _ => true
  | _ => false

/-- Whether bits of a type can be operated on. -/
def isIntegral (type : Ty) : Bool := type.isInt

/-- Whether a type has arithmetic. -/
def isArithmetic : Ty → Bool
  | int | float => true
  | _ => false

/-- Whether a type is ordered. -/
def isNumeric (type : Ty) : Bool := type.isArithmetic

/-- Whether values of a type can be tested for equality. -/
def isScalar : Ty → Bool
  | reference _ => false
  | _ => true

/-- The result type of a function type. -/
def returnType? : Ty → Option Ty
  | function result _ => some result
  | _ => none

mutual

/-- A type as it is written in a program and in messages. -/
def text : Ty → String
  | bool => "bool"
  | char => "char"
  | int => "int"
  | float => "float"
  | pointer target => "*" ++ text target
  | reference object => "&" ++ text object
  | function result parameters => "(" ++ listText parameters ++ ") -> " ++ text result

/-- Types separated by commas. -/
def listText : List Ty → String
  | [] => ""
  | [type] => text type
  | type :: types => text type ++ ", " ++ listText types

end

end Ty

end Minilang
