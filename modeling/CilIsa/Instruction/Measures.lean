import CilIsa.Instruction.Effect
import CilIsa.Instruction.Pairing
import CilIsa.Instruction.Size

/-!
# Measuring instructions

The measures of an instruction are its size and its stack effects. A survey pairs one opcode with a
list of payloads and measures every instruction that comes of it.
-/

namespace CilIsa

/-- The size of an instruction and its stack effects, in a method that returns nothing and in one
that returns a value. -/
structure Measures where
  size : UInt32
  effect : StackEffect
  effectReturning : StackEffect
  deriving DecidableEq

variable {ρ : Type}

/-- The measures of an instruction. A call that cannot be resolved is reported for either effect. -/
def Instruction.measure (i : Instruction ρ) : Traced Measures := do
  let effect ← i.tracedEffect false
  let effectReturning ← i.tracedEffect true
  pure ⟨i.size, effect, effectReturning⟩

@[simp] theorem Instruction.value_measure (i : Instruction ρ) :
    i.measure.value = ⟨i.size, i.effect false, i.effect true⟩ := by
  simp [measure]

/-- One payload of a survey. -/
def Opcode.trial (op : Opcode) (p : Payload ρ) : Traced (Except Mismatch Measures) := do
  match ← Instruction.tracedPair op p with
  | .ok i =>
    let measures ← i.measure
    pure (.ok measures)
  | .error mismatch => pure (.error mismatch)

/-- Pairs an opcode with each payload in turn. -/
def Opcode.survey (op : Opcode) : List (Payload ρ) → Traced (List (Except Mismatch Measures))
  | [] => pure []
  | p :: rest => do
    let first ← op.trial p
    let others ← op.survey rest
    pure (first :: others)

end CilIsa
