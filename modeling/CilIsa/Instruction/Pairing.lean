import CilIsa.Diagnostic.Tag
import CilIsa.Instruction.Basic
import CilIsa.Tracing

/-!
# Pairing an opcode with an operand

Each kind of operand says which opcodes take it: those of one or two operand shapes, or a
single opcode. The same rule decides and is named in the diagnostic of a pair that does not fit.
-/

namespace CilIsa

/-- Which opcodes take a kind of operand. -/
inductive Requirement where
  /-- The single opcode with the given code. -/
  | opcode (code : Code) (mnemonic : String)
  /-- The opcodes of one of the given operand shapes. -/
  | shapes (among : List OperandShape)
  deriving DecidableEq

namespace Requirement

/-- Whether an opcode meets the requirement. -/
def isMet (op : Opcode) : Requirement → Bool
  | opcode code _ => op.code == code
  | shapes among => among.any fun shape => op.shape == .member shape

/-- The requirement as diagnostics name it. -/
def text : Requirement → String
  | opcode _ mnemonic => "opcode '" ++ mnemonic ++ "'"
  | shapes among => String.intercalate " or " (among.map Enumeration.name)

end Requirement

/-- Which opcodes take operands of the given kind. A single byte is taken by one opcode of each
signedness, although others have an operand of the same shape. -/
def Operand.Kind.requirement : Operand.Kind → Requirement
  | .empty => .shapes [.inlineNone]
  | .uint8 => .opcode Code.unaligned "unaligned."
  | .int8 => .opcode Code.ldcShort "ldc.i4.s"
  | .int32 => .shapes [.inlineI]
  | .int64 => .shapes [.inlineI8]
  | .float32 => .shapes [.shortInlineR]
  | .float64 => .shapes [.inlineR]
  | .string => .shapes [.inlineString]
  | .target => .shapes [.shortInlineBrTarget, .inlineBrTarget]
  | .targets => .shapes [.inlineSwitch]
  | .type => .shapes [.inlineType]
  | .field => .shapes [.inlineField]
  | .method => .shapes [.inlineMethod]
  | .token => .shapes [.inlineTok]
  | .signature => .shapes [.inlineSig]
  | .parameter | .localVar => .shapes [.shortInlineVar, .inlineVar]

/-- An opcode and a kind of operand that do not fit together. -/
structure Mismatch where
  opcode : Opcode
  kind : Operand.Kind
  deriving DecidableEq

namespace Mismatch

/-- What does not fit, and what would. -/
def detail (m : Mismatch) : String :=
  "opcode '" ++ m.opcode.mnemonic ++ "' (" ++ m.opcode.shape.name ++ ") cannot take "
    ++ Enumeration.name m.kind ++ " operand; expected " ++ m.kind.requirement.text

/-- The mismatch as a diagnostic. -/
def diagnostic (m : Mismatch) : Diagnostic := Diagnostic.tagged Tag.invalidOperand m.detail

theorem diagnostic_eq_error (m : Mismatch) :
    m.diagnostic = Diagnostic.error ("instr.invalid_operand: " ++ m.detail) := by
  have hdetail : m.detail ≠ "" := by
    intro h
    obtain ⟨hfront, -⟩ := String.append_eq_empty_iff.mp h
    exact absurd (String.append_eq_empty_iff.mp hfront).2 (by decide)
  rw [diagnostic, Diagnostic.tagged_of_ne (by decide) hdetail]
  rfl

theorem message_diagnostic (m : Mismatch) :
    m.diagnostic.message = "instr.invalid_operand: " ++ m.detail := by
  rw [diagnostic_eq_error, Diagnostic.error]

end Mismatch

namespace Instruction

variable {ρ : Type}

/-- The instruction of an opcode and a payload, if they fit together. -/
def pair (op : Opcode) (p : Payload ρ) : Except Mismatch (Instruction ρ) :=
  if p.kind.requirement.isMet op then .ok { opcode := op, operand := .payload p }
  else .error ⟨op, p.kind⟩

theorem pair_eq_ok_iff {op : Opcode} {p : Payload ρ} {i : Instruction ρ} :
    pair op p = .ok i ↔
      p.kind.requirement.isMet op = true ∧ i = { opcode := op, operand := .payload p } := by
  rw [pair]
  split
  · next hmet => simp [hmet, eq_comm]
  · next hmet => simp [hmet]

theorem exists_pair_iff {op : Opcode} {p : Payload ρ} :
    (∃ i, pair op p = .ok i) ↔ p.kind.requirement.isMet op = true := by
  simp only [pair_eq_ok_iff, exists_and_left, exists_eq, and_true]

theorem pair_eq_error {op : Opcode} {p : Payload ρ} (h : ¬p.kind.requirement.isMet op = true) :
    pair op p = .error ⟨op, p.kind⟩ :=
  if_neg h

/-- The same, with a trace line for a pair that does not fit. -/
def tracedPair (op : Opcode) (p : Payload ρ) : Traced (Except Mismatch (Instruction ρ)) := do
  match pair op p with
  | .ok i => pure (.ok i)
  | .error m =>
    Traced.emit "instr" m.detail
    pure (.error m)

@[simp] theorem value_tracedPair (op : Opcode) (p : Payload ρ) :
    (tracedPair op p).value = pair op p := by
  unfold tracedPair
  split <;> simp [*]

end Instruction

end CilIsa
