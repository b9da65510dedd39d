import Hotswap.Entity.Layout
import Hotswap.Machine.Bytes

/-!
# Operations

An operation of an entity is a named function with a known entry address. Its signature lists the
parameters (the receiver, if it is a method, comes first) and the returned types, and is never more
than what can be checked without running code. `Shape.operation` derives it from the type of a
function.
-/

namespace Hotswap.Entity

open Machine (Address)

/-- A parameter of an operation. -/
inductive Param where
  /-- The reference to the entity that a method is called on, with the type of that entity's first
  field, if it has any. -/
  | receiver (pointee : ValueType) (firstField : Option ValueType)
  /-- Any other parameter. -/
  | value (type : ValueType)
deriving DecidableEq, Repr

/-- What an operation is to the entity that publishes it. -/
inductive Role where
  /-- Defined by a base entity. -/
  | define
  /-- Marked as the replacement of the base operation of the same name. -/
  | override
  /-- Taken over unchanged from the embedded base. -/
  | forward
deriving DecidableEq, Repr

/-- One operation of an entity. -/
structure Operation where
  name : String
  params : List Param
  /-- The returned types; none for the unit type. -/
  returns : List ValueType
  /-- The address of the first instruction, zero while unresolved. -/
  entry : Address
  role : Role
deriving DecidableEq, Repr

/-! ## Text of a signature -/

def Param.text : Param → String
  | .receiver pointee _ => "&" ++ pointee.name
  | .value type => type.name

namespace Operation

/-- The first parameter, if it is a receiver. -/
def receiver? (op : Operation) : Option Param :=
  match op.params with
  | .receiver pointee firstField :: _ => some (.receiver pointee firstField)
  | _ => none

/-- The part of a signature behind the parameters. -/
def returnText : List ValueType → String
  | [] => ""
  | [type] => " -> " ++ type.name
  | types => " -> (" ++ ", ".intercalate (types.map ValueType.name) ++ ")"

/-- The signature as messages show it. -/
def text (op : Operation) : String :=
  "fn " ++ op.name ++ "(" ++ ", ".intercalate (op.params.map Param.text) ++ ")"
    ++ returnText op.returns

end Operation

/-! ## Operations from the types of functions -/

/-- The type of a function: the entity that it is a method of, if any, its other arguments, and its
result. -/
structure Shape where
  self : Option Layout
  arguments : List ValueType
  result : ValueType
deriving DecidableEq

namespace Shape

/-- The receiver of a method on `layout`. -/
def receiver (layout : Layout) : Param :=
  .receiver layout.type (layout.firstField.map Field.type)

/-- The parameters, the receiver first. -/
def params (shape : Shape) : List Param :=
  (shape.self.map receiver).toList ++ shape.arguments.map .value

/-- The returned types: a unit result counts as none, while a unit argument is kept. -/
def returns (shape : Shape) : List ValueType :=
  if shape.result = .unit then [] else [shape.result]

/-- The operation that a function of this shape is. -/
def operation (shape : Shape) (role : Role) (name : String) (entry : Address) : Operation :=
  ⟨name, shape.params, shape.returns, entry, role⟩

end Shape

end Hotswap.Entity
