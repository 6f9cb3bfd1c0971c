import Mathlib.Data.List.Chain
import Mathlib.Data.List.Nodup
import Mathlib.Tactic.MkIffOfInductiveProp
import CilIsa.Opcode.Standard

/-!
# The rows of the standard set

What later modules need to know of the standard set, read off its rows once and for all: that its
codes and its mnemonics are pairwise distinct (`Opcode.nodup_codes_standard`,
`Opcode.nodup_mnemonics_standard`), that the columns of every row agree with one another
(`Opcode.coherent_standard`), and that no mnemonic looks like the start of a trace line
(`Opcode.bracket_not_mem_standard`). Some of the rows have names, for the runs that other modules
show.

The codes are distinct because they increase. The mnemonics are not in order; they are distinct
because their fingerprints are, and numbers are compared by marking bits.
-/

namespace CilIsa

/-! ### Distinct numbers -/

/-- Whether no number of the list repeats, and none is marked. Bit `n` of `marks` marks `n`. -/
def unmarked (marks : Nat) : List Nat → Bool
  | [] => true
  | n :: rest => !marks.testBit n && unmarked (marks ||| 1 <<< n) rest

theorem nodup_of_unmarked {marks : Nat} {ns : List Nat} (h : unmarked marks ns = true) :
    ns.Nodup ∧ ∀ n ∈ ns, marks.testBit n = false := by
  induction ns generalizing marks with
  | nil => simp
  | cons n rest ih =>
    rw [unmarked, Bool.and_eq_true, Bool.not_eq_true'] at h
    obtain ⟨hrest, hmarks⟩ := ih h.2
    simp only [Nat.testBit_or, Bool.or_eq_false_iff] at hmarks
    refine ⟨List.nodup_cons.mpr ⟨fun hn => ?_, hrest⟩, ?_⟩
    · simpa using (hmarks n hn).2
    · simpa [h.1] using fun m hm => (hmarks m hm).1

namespace Opcode

/-- The bytes of a text as one number, reduced by a modulus that keeps the rows apart. -/
def fingerprint (s : String) : Nat :=
  s.toByteArray.data.toList.foldl (fun n b => 256 * n + b.toNat) 0 % 3683

theorem nodup_codes_standard : (standard.map Opcode.code).Nodup := by
  -- Neighbours are enough, where comparing all pairs of rows is slow.
  have hincreasing : (standard.map fun op => op.code.toNat).IsChain (· < ·) := by decide +kernel
  have hnodup : ((standard.map Opcode.code).map UInt16.toNat).Nodup := by
    rw [List.map_map]
    exact (List.isChain_iff_pairwise.mp hincreasing).imp Nat.ne_of_lt
  exact hnodup.of_map

theorem nodup_mnemonics_standard : (standard.map Opcode.mnemonic?).Nodup := by
  have hfingerprints : unmarked 0 (standard.map fun op => fingerprint op.mnemonic) = true := by
    decide +kernel
  have hnodup : ((standard.map Opcode.mnemonic?).map fun s => fingerprint (s.getD "")).Nodup := by
    rw [List.map_map]
    exact (nodup_of_unmarked hfingerprints).1
  exact hnodup.of_map

/-! ### Rows with a name -/

/-- Does nothing. -/
def nop : Opcode where
  code := 0x00
  mnemonic? := some "nop"
  shape := .member .inlineNone
  flow := .member .next
  family := .member .primitive
  push := .member .push0
  pop := .member .pop0

/-- Enters a method. -/
def call : Opcode where
  code := 0x28
  mnemonic? := some "call"
  shape := .member .inlineMethod
  flow := .member .call
  family := .member .primitive
  push := .member .varpush
  pop := .member .varpop

/-- Goes to a target nearby. -/
def branchShort : Opcode where
  code := 0x2B
  mnemonic? := some "br.s"
  shape := .member .shortInlineBrTarget
  flow := .member .branch
  family := .member .shorthand
  push := .member .push0
  pop := .member .pop0

/-- The only standard opcode with a list of targets. -/
def switch : Opcode where
  code := 0x45
  mnemonic? := some "switch"
  shape := .member .inlineSwitch
  flow := .member .condBranch
  family := .member .primitive
  push := .member .push0
  pop := .member .popi

example : ∀ op ∈ [nop, call, branchShort, switch], op ∈ standard := by decide +kernel

/-! ### Columns that agree -/

/-- The columns of an opcode agree with one another, and with the codes that have a meaning of their
own. -/
@[mk_iff]
structure Coherent (op : Opcode) : Prop where
  /-- The two codes that take one byte have the shape of one byte. -/
  byte : op.code = Code.unaligned ∨ op.code = Code.ldcShort → op.shape = .member .shortInlineI
  unaligned : op.code = Code.unaligned → op.mnemonic? = some "unaligned."
  ldcShort : op.code = Code.ldcShort → op.mnemonic? = some "ldc.i4.s"
  /-- `no.` has the shape of one byte, and is neither of the two. -/
  no : op.mnemonic? = some "no." →
    op.shape = .member .shortInlineI ∧ op.code ≠ Code.unaligned ∧ op.code ≠ Code.ldcShort
  /-- Exactly the opcodes that can jump have the shape of one or more targets. -/
  jump : op.flow = .member .branch ∨ op.flow = .member .condBranch ↔
    op.shape = .member .shortInlineBrTarget ∨ op.shape = .member .inlineBrTarget ∨
      op.shape = .member .inlineSwitch
  /-- Leaving a region is a jump that always happens and clears the stack. -/
  leave : op.code = Code.leave ∨ op.code = Code.leaveShort →
    op.flow = .member .branch ∧ op.push = .member .push0 ∧ op.pop = .member .popAll
  ldcInt : op.code = Code.ldcInt → op.shape = .member .inlineI
  /-- Loading a constant goes on to the next instruction, pushes one value and pops none. -/
  constant : Code.ldcMinusOne ≤ op.code ∧ op.code ≤ Code.ldcInt →
    op.flow = .member .next ∧ op.push = .member .pushi ∧ op.pop = .member .pop0

instance : DecidablePred Coherent := fun op => decidable_of_iff' _ (coherent_iff op)

theorem coherent_standard : ∀ op ∈ standard, op.Coherent := by
  decide +kernel

/-! ### Letters -/

/-- An opening bracket is one byte. -/
theorem mem_bytes_of_bracket_mem {s : String} (h : '[' ∈ s.toList) :
    0x5B ∈ s.toByteArray.data.toList := by
  rw [← String.ofList_toList (s := s), String.toByteArray_ofList, List.utf8Encode]
  simp only [List.data_toByteArray, List.mem_flatMap]
  exact ⟨'[', h, by decide⟩

theorem bracket_not_mem_standard : ∀ op ∈ standard, '[' ∉ op.mnemonic.toList := by
  -- Letters are compared as bytes, which takes less time than reading them as characters.
  have hbytes : ∀ op ∈ standard, 0x5B ∉ op.mnemonic.toByteArray.data.toList := by decide +kernel
  exact fun op hop hbracket => hbytes op hop (mem_bytes_of_bracket_mem hbracket)

end Opcode

end CilIsa
