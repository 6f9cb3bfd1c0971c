import CilIsa.Metadata
import CilIsa.Operand.Kind

/-!
# Operands

A payload is the operand of a complete instruction. It is generic in `ρ`, the way in which it refers
to other instructions. An operand is a payload or a reference that is missing: of the latter only
the kind is known.
-/

namespace CilIsa

/-- The operand of a complete instruction. Floating-point numbers are kept by their bits, so that
they stay what they are. A list of switch targets may have gaps. -/
inductive Payload (ρ : Type) where
  | empty
  | uint8 (value : UInt8)
  | int8 (value : Int8)
  | int32 (value : Int32)
  | int64 (value : Int64)
  | float32 (bits : UInt32)
  | float64 (bits : UInt64)
  | string (text : String)
  | target (ref : ρ)
  | targets (refs : List (Option ρ))
  | type (t : Member)
  | field (f : Member)
  | method (m : Method)
  | token (m : Member)
  | signature (s : Signature)
  | parameter (v : Variable)
  | localVar (v : Variable)
  deriving DecidableEq

/-- The kinds of operands that refer to something that can be missing. -/
inductive RefKind where
  | target
  | type
  | field
  | method
  | token
  | signature
  | parameter
  | localVar
  deriving DecidableEq

/-- What an instruction carries: a payload, or a reference to nothing. -/
inductive Operand (ρ : Type) where
  | payload (p : Payload ρ)
  | missing (k : RefKind)
  deriving DecidableEq

variable {ρ σ : Type}

namespace Payload

/-- The kind of a payload. -/
def kind : Payload ρ → Operand.Kind
  | empty => .empty
  | uint8 _ => .uint8
  | int8 _ => .int8
  | int32 _ => .int32
  | int64 _ => .int64
  | float32 _ => .float32
  | float64 _ => .float64
  | string _ => .string
  | target _ => .target
  | targets _ => .targets
  | type _ => .type
  | field _ => .field
  | method _ => .method
  | token _ => .token
  | signature _ => .signature
  | parameter _ => .parameter
  | localVar _ => .localVar

/-- The instructions a payload refers to, in order. -/
def references : Payload ρ → List ρ
  | target ref => [ref]
  | targets refs => refs.reduceOption
  | _ => []

/-- The payload with its references followed. A target that leads nowhere is missing, and leaves a
gap in a list of switch targets. -/
def resolve (follow : ρ → Option σ) : Payload ρ → Operand σ
  | empty => .payload .empty
  | uint8 value => .payload (.uint8 value)
  | int8 value => .payload (.int8 value)
  | int32 value => .payload (.int32 value)
  | int64 value => .payload (.int64 value)
  | float32 bits => .payload (.float32 bits)
  | float64 bits => .payload (.float64 bits)
  | string text => .payload (.string text)
  | target ref => ((follow ref).map fun r => .payload (.target r)).getD (.missing .target)
  | targets refs => .payload (.targets (refs.map (·.bind follow)))
  | type t => .payload (.type t)
  | field f => .payload (.field f)
  | method m => .payload (.method m)
  | token m => .payload (.token m)
  | signature s => .payload (.signature s)
  | parameter v => .payload (.parameter v)
  | localVar v => .payload (.localVar v)

end Payload

namespace RefKind

/-- The kind of an operand whose reference is missing. -/
def kind : RefKind → Operand.Kind
  | target => .target
  | type => .type
  | field => .field
  | method => .method
  | token => .token
  | signature => .signature
  | parameter => .parameter
  | localVar => .localVar

end RefKind

namespace Operand

/-- The kind of an operand. A missing reference is of the kind of what it should refer to. -/
def kind : Operand ρ → Operand.Kind
  | payload p => p.kind
  | missing k => k.kind

/-- The target of a branch. -/
def target? : Operand ρ → Option ρ
  | payload (.target ref) => some ref
  | _ => none

/-- The targets of a switch. -/
def targets? : Operand ρ → Option (List (Option ρ))
  | payload (.targets refs) => some refs
  | _ => none

/-- The method the operand names. -/
def method? : Operand ρ → Option Method
  | payload (.method m) => some m
  | _ => none

/-- The instructions an operand refers to, in order. -/
def references : Operand ρ → List ρ
  | payload p => p.references
  | missing _ => []

/-- The operand with its references followed. -/
def resolve (follow : ρ → Option σ) : Operand ρ → Operand σ
  | payload p => p.resolve follow
  | missing k => missing k

@[simp] theorem kind_resolve (follow : ρ → Option σ) (o : Operand ρ) :
    (o.resolve follow).kind = o.kind := by
  rcases o with p | k
  · cases p with
    | target ref => cases h : follow ref <;> simp [resolve, Payload.resolve, h, kind] <;> rfl
    | _ => rfl
  · rfl

/-- Following references makes no target, and loses one only if it leads nowhere. -/
theorem isSome_target?_resolve {follow : ρ → Option σ} {o : Operand ρ}
    (h : ∀ ref ∈ o.references, (follow ref).isSome = true) :
    (o.resolve follow).target?.isSome = o.target?.isSome := by
  rcases o with p | k
  · cases p with
    | target ref =>
      obtain ⟨r, hr⟩ := Option.isSome_iff_exists.mp (h ref List.mem_cons_self)
      simp [resolve, Payload.resolve, target?, hr]
    | _ => rfl
  · rfl

@[simp] theorem isSome_targets?_resolve (follow : ρ → Option σ) (o : Operand ρ) :
    (o.resolve follow).targets?.isSome = o.targets?.isSome := by
  rcases o with p | k
  · cases p with
    | target ref => cases h : follow ref <;> simp [resolve, Payload.resolve, targets?, h]
    | _ => rfl
  · rfl

end Operand

end CilIsa
