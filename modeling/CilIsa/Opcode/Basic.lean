import CilIsa.Opcode.Classes
import CilIsa.Opcode.Code

/-!
# Opcodes

The description of an opcode: its code, its mnemonic and the columns that classify it. Descriptions
are plain values; nothing ties them to the standard set.
-/

namespace CilIsa

/-- The description of an opcode. Whoever writes one may leave the mnemonic out. -/
structure Opcode where
  code : Code
  mnemonic? : Option String
  shape : Coded OperandShape
  flow : Coded Flow
  family : Coded Family
  push : Coded PushClass
  pop : Coded PopClass
  deriving DecidableEq

namespace Opcode

/-- The mnemonic, empty where there is none. -/
def mnemonic (op : Opcode) : String := op.mnemonic?.getD ""

theorem mnemonic?_eq_some_mnemonic {op : Opcode} (h : op.mnemonic? ≠ none) :
    op.mnemonic? = some op.mnemonic := by
  obtain ⟨s, hs⟩ := Option.ne_none_iff_exists'.mp h
  rw [mnemonic, hs, Option.getD_some]

theorem mnemonic_eq_empty_iff {op : Opcode} :
    op.mnemonic = "" ↔ op.mnemonic? = none ∨ op.mnemonic? = some "" := by
  rw [mnemonic]
  cases op.mnemonic? <;> simp

/-- Beside a mnemonic that is there, equal mnemonics are equal however they are read. -/
theorem mnemonic_eq_iff {op e : Opcode} (h : op.mnemonic ≠ "") :
    e.mnemonic = op.mnemonic ↔ e.mnemonic? = op.mnemonic? := by
  cases hop : op.mnemonic? with
  | none => simp [mnemonic, hop] at h
  | some s =>
    have hs : op.mnemonic = s := by rw [mnemonic, hop]; rfl
    rw [hs] at h ⊢
    cases he : e.mnemonic? with
    | none => simp [mnemonic, he, h.symm]
    | some t => simp [mnemonic, he]

/-- The number of bytes that encode the opcode itself. -/
def size (op : Opcode) : UInt32 := if op.code.escaped then 2 else 1

/-- The bytes that encode the opcode itself. -/
def bytes (op : Opcode) : List UInt8 :=
  if op.code.escaped then [Code.escape, op.code.low] else [op.code.low]

theorem length_bytes (op : Opcode) : op.bytes.length = op.size.toNat := by
  unfold bytes size
  split <;> rfl

end Opcode

end CilIsa
