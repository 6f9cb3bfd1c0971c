import CilIsa.Instruction.Measures
import CilIsa.Session.Store

/-!
# Snapshots

A snapshot shows an instruction as it stands in its store. References to other cells are shown by a
summary of what is in them now.
-/

namespace CilIsa

/-- What a reference shows of the cell it refers to. -/
structure Summary where
  id : CellId
  mnemonic : String
  offset : UInt32
  deriving DecidableEq

/-- Everything that can be observed of an instruction. -/
structure Snapshot where
  mnemonic : String
  kind : Operand.Kind
  operand : Operand Summary
  offset : UInt32
  measures : Measures
  target : Option Summary
  targets : Option (List (Option Summary))
  method : Option String
  canJump : Bool
  jumpsConditionally : Bool
  leaves : Bool
  constant : Option Int32
  deriving DecidableEq

namespace Store

/-- The summary of a cell. -/
def summary? (s : Store) (id : CellId) : Option Summary :=
  (s.get? id).map fun i => ⟨id, i.opcode.mnemonic, i.offset⟩

/-- The snapshot of an instruction whose references lead into the store. -/
def snapshot (s : Store) (i : Instruction CellId) : Traced Snapshot := do
  let operand := i.operand.resolve s.summary?
  let measures ← i.measure
  pure {
    mnemonic := i.opcode.mnemonic
    kind := i.operand.kind
    operand := operand
    offset := i.offset
    measures := measures
    target := operand.target?
    targets := operand.targets?
    method := i.operand.method?.map (·.name)
    canJump := i.canJump
    jumpsConditionally := i.jumpsConditionally
    leaves := i.leaves
    constant := i.constant? }

end Store

end CilIsa
