import Minilang.Analysis.Basic

/-!
# Requirements and conversions

Uses of an expression ask for a value, for a group of types or for one type. A reference is read before
its value is used, and a cast may add one more conversion between basic types.
-/

namespace Minilang

namespace Conversion

/-- The conversion that leads from one type of values to a basic type. -/
def between? : (source : Ty) → (target : BasicType) → Option Conversion
  | .char, .bool | .int, .bool | .float, .bool => some .toBool
  | .int, .char => some .toChar
  | .bool, .int | .char, .int => some .toInt
  | .float, .int => some .truncate
  | .int, .float => some .toFloat
  | _, _ => none

end Conversion

namespace Ty

/-- The basic type that a type is. -/
def basic? : Ty → Option BasicType
  | bool => some .bool
  | char => some .char
  | int => some .int
  | float => some .float
  | _ => none

/-- The type that the branches of a conditional have in common: their own type if it is one, and
otherwise the object type of a reference whose other branch is a value of it. -/
def common? (left right : Ty) : Option Ty :=
  if left = right then some left
  else if left.isReferenceTo right then some right
  else if right.isReferenceTo left then some left
  else none

end Ty

namespace Analysis

/-- Convert an operand; the conversion stands where the operand stands. -/
def convert (conversion : Conversion) (operand : ExprId) (type : Ty) : Check ExprId := do
  let expr ← expr operand
  addExpr (.convert conversion operand) type expr.location

/-- Fail because an expression cannot be converted. -/
def rejectConversion (id : ExprId) (target : Ty) : Check ExprId := do
  let expr ← expr id
  reject expr.location (.invalidConversion expr.type target)

/-- The value of an expression: a reference is read, and anything else is a value already. -/
def load (id : ExprId) : Check ExprId := do
  let expr ← expr id
  match expr.type with
  | .reference object => convert .load id object
  | _ => return id

/-- Ask for a reference. -/
def requireReference (id : ExprId) : Check ExprId := do
  let expr ← expr id
  if expr.type.isReference then return id
  else reject expr.location (.notAReference expr.type)

/-- Ask for a value of a group of types. -/
def requireCategory (category : Category) (id : ExprId) : Check ExprId := do
  let value ← load id
  let expr ← expr value
  if category.admits expr.type then return value
  else reject expr.location (.expectedCategory category expr.type)

/-- Ask for exactly one type. -/
def requireSame (expected : Ty) (id : ExprId) : Check Unit := do
  let expr ← expr id
  if expected = expr.type then return
  else reject expr.location (.typeMismatch expected expr.type)

/-- The common type of two types, asked for at a location. -/
def commonType (left right : Ty) (location : Location) : Check Ty :=
  match left.common? right with
  | some type => pure type
  | none => reject location (.noCommonType left right)

/-- Convert the value of an expression to a basic type. -/
def convertToBasic (target : BasicType) (id : ExprId) : Check ExprId := do
  let value ← load id
  let expr ← expr value
  if expr.type = Ty.ofBasic target then return value
  else
    match Conversion.between? expr.type target with
    | some conversion => convert conversion value (Ty.ofBasic target)
    | none => rejectConversion value (Ty.ofBasic target)

/-- Convert an expression to a type. Its value is taken if the type is one of objects; beyond that only
basic types are converted to. -/
def convertTo (id : ExprId) (type : Ty) : Check ExprId := do
  let operand ← if type.isObject then load id else pure id
  let expr ← expr operand
  if expr.type = type then return operand
  else
    match type.basic? with
    | some basic => convertToBasic basic operand
    | none => rejectConversion operand type

end Analysis

end Minilang
