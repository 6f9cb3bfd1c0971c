/-!
# Metadata

What an instruction can refer to outside the code: types, fields, methods, signatures and variables.
The instruction core reads nothing of it but signatures, and of a signature only its calling
convention, whether it returns a value, and how many parameters it lists.
-/

namespace CilIsa

/-- A row of the metadata, known by its token and shown by its name. -/
structure Member where
  token : UInt32
  name : String
  deriving DecidableEq

/-- A type as it appears in a signature: its leading element type, with the definition of a class or
of a value type where it is known. -/
structure SignatureType where
  elementType : UInt8 := 0
  definition : Option Member := none
  deriving DecidableEq

namespace SignatureType

/-- The type of methods that return nothing. -/
def void : SignatureType where
  elementType := 1

/-- Whether the leading element type is that of `void`. -/
def isVoid (t : SignatureType) : Bool := t.elementType == void.elementType

end SignatureType

/-- The calling-convention byte of a signature, a set of flags above a convention number. -/
abbrev CallingConvention := UInt8

namespace CallingConvention

/-- The signature has a receiver. -/
def hasThis : CallingConvention := 0x20

/-- The receiver is listed as the first parameter. -/
def explicitThis : CallingConvention := 0x40

/-- The bits of both. -/
def union (a b : CallingConvention) : CallingConvention := a ||| b

/-- Whether the two have a bit in common. -/
def sharesBit (a flag : CallingConvention) : Bool := a &&& flag != 0

end CallingConvention

/-- The signature of a method or of a call. -/
structure Signature where
  convention : CallingConvention := 0
  result : SignatureType := SignatureType.void
  params : List SignatureType := []
  deriving DecidableEq

namespace Signature

/-- The signature has a receiver. -/
def hasThis (s : Signature) : Bool := s.convention.sharesBit .hasThis

/-- The receiver is listed as the first parameter. -/
def explicitThis (s : Signature) : Bool := s.convention.sharesBit .explicitThis

/-- There is a receiver that is passed without being listed. -/
def implicitThis (s : Signature) : Bool := s.hasThis && !s.explicitThis

end Signature

/-- A method, with its signature where it could be resolved. -/
structure Method extends Member where
  sig : Option Signature
  deriving DecidableEq

/-- A parameter or a local variable of a method. -/
structure Variable where
  index : UInt16 := 0
  name : String := ""
  type : SignatureType := {}
  deriving DecidableEq

end CilIsa
