import CilIsa.Coded

/-!
# Kinds of operands

Every operand is of one of seventeen kinds. Their names appear in diagnostics.
-/

namespace CilIsa

/-- What kind of operand an instruction carries. -/
inductive Operand.Kind where
  /-- No operand at all. -/
  | empty
  | uint8
  | int8
  | int32
  | int64
  | float32
  | float64
  | string
  /-- The target of a branch. -/
  | target
  /-- The targets of a switch. -/
  | targets
  | type
  | field
  | method
  /-- A type, a field or a method, known by its token only. -/
  | token
  /-- A stand-alone signature. -/
  | signature
  | parameter
  | localVar
  deriving DecidableEq

instance : Enumeration Operand.Kind where
  members := [.empty, .uint8, .int8, .int32, .int64, .float32, .float64, .string, .target, .targets,
    .type, .field, .method, .token, .signature, .parameter, .localVar]
  nodup := by decide
  complete k := by cases k <;> decide
  name
    | .empty => "no"
    | .uint8 => "uint8"
    | .int8 => "int8"
    | .int32 => "int32"
    | .int64 => "int64"
    | .float32 => "float32"
    | .float64 => "float64"
    | .string => "string"
    | .target => "branch target"
    | .targets => "switch target list"
    | .type => "type"
    | .field => "field"
    | .method => "method"
    | .token => "token"
    | .signature => "method signature"
    | .parameter => "parameter"
    | .localVar => "local"
  outsideName := "unknown"

end CilIsa
