import CilIsa.Instruction.Pairing
import CilIsa.Instruction.Size
import CilIsa.Session.Store
import CilIsa.Table.Checked

/-!
# Agreement of opcode and operand

A shape denotes the kinds of operands that are encoded in it (`OperandShape.kinds`), and an opcode
takes the operands of the kinds that its shape denotes (`Opcode.Takes`). Pairing an opcode with a
payload should leave only pairs of which the opcode takes the operand.

For fifteen of the seventeen kinds it does so: the requirement of the kind lists the shapes that
denote it (`Operand.Kind.mem_kinds_iff_of_requirement`). A single byte is paired by the code alone,
whatever the shape, so that agreement depends on the shape of the opcodes with the two codes of
`unaligned.` and `ldc.i4.s`. `Instruction.pair_agrees_iff` says which descriptions keep the promise, and
which accepted instructions break it.
-/

namespace CilIsa

/-- The kinds of operands that a shape denotes. -/
def OperandShape.kinds : OperandShape → List Operand.Kind
  | .inlineNone => [.empty]
  | .shortInlineI => [.uint8, .int8]
  | .inlineI => [.int32]
  | .inlineI8 => [.int64]
  | .shortInlineR => [.float32]
  | .inlineR => [.float64]
  | .inlineString => [.string]
  | .shortInlineBrTarget | .inlineBrTarget => [.target]
  | .inlineSwitch => [.targets]
  | .inlineType => [.type]
  | .inlineField => [.field]
  | .inlineMethod => [.method]
  | .inlineTok => [.token]
  | .inlineSig => [.signature]
  | .shortInlineVar | .inlineVar => [.parameter, .localVar]
  | .inlinePhi => []

/-- The opcode takes operands of the given kind: its shape denotes them. A shape outside the
enumeration denotes nothing. -/
def Opcode.Takes (op : Opcode) (k : Operand.Kind) : Prop :=
  ∃ shape, op.shape = .member shape ∧ k ∈ shape.kinds

/-- The kinds of a single byte. -/
def Operand.Kind.IsByte (k : Operand.Kind) : Prop := k = .uint8 ∨ k = .int8

instance : DecidablePred Operand.Kind.IsByte := fun _ => inferInstanceAs (Decidable (_ ∨ _))

/-- The opcodes that a single byte can be paired with: those with one of two codes. -/
def Opcode.PairsByte (op : Opcode) : Prop := op.code = Code.unaligned ∨ op.code = Code.ldcShort

namespace Operand.Kind

/-! ### Requirements -/

/-- The shapes that a kind requires are the shapes that denote it. -/
theorem mem_kinds_iff_of_requirement {k : Operand.Kind} {among : List OperandShape}
    (h : k.requirement = .shapes among) (shape : OperandShape) :
    k ∈ shape.kinds ↔ shape ∈ among := by
  cases k <;> cases h <;> cases shape <;> decide

theorem exists_shapes_of_not_isByte {k : Operand.Kind} (h : ¬k.IsByte) :
    ∃ among, k.requirement = .shapes among := by
  cases k <;> first | exact ⟨_, rfl⟩ | exact absurd (by decide) h

theorem mem_kinds_iff_of_isByte {k : Operand.Kind} (h : k.IsByte) (shape : OperandShape) :
    k ∈ shape.kinds ↔ shape = .shortInlineI := by
  rcases h with rfl | rfl <;> cases shape <;> decide

end Operand.Kind

namespace Requirement

theorem isMet_shapes_iff {op : Opcode} {among : List OperandShape} :
    (shapes among).isMet op = true ↔ ∃ shape ∈ among, op.shape = .member shape := by
  simp [isMet]

theorem isMet_single_iff {op : Opcode} {shape : OperandShape} :
    (shapes [shape]).isMet op = true ↔ op.shape = .member shape := by
  simp [isMet_shapes_iff]

theorem isMet_two_iff {op : Opcode} {first second : OperandShape} :
    (shapes [first, second]).isMet op = true ↔
      op.shape = .member first ∨ op.shape = .member second := by
  simp [isMet_shapes_iff]

theorem isMet_opcode_iff {op : Opcode} {code : Code} {mnemonic : String} :
    (opcode code mnemonic).isMet op = true ↔ op.code = code := by
  simp [isMet]

end Requirement

namespace Opcode

variable {op : Opcode} {k : Operand.Kind}

/-- For all kinds but those of a single byte, the requirement is that the opcode takes the kind. -/
theorem isMet_requirement_iff (h : ¬k.IsByte) : k.requirement.isMet op = true ↔ op.Takes k := by
  obtain ⟨among, hamong⟩ := Operand.Kind.exists_shapes_of_not_isByte h
  rw [hamong, Requirement.isMet_shapes_iff]
  refine exists_congr fun shape => ?_
  rw [Operand.Kind.mem_kinds_iff_of_requirement hamong, and_comm]

theorem takes_iff_of_isByte (h : k.IsByte) : op.Takes k ↔ op.shape = .member .shortInlineI := by
  constructor
  · rintro ⟨shape, hshape, hk⟩
    rwa [← (Operand.Kind.mem_kinds_iff_of_isByte h shape).mp hk]
  · intro hshape
    exact ⟨_, hshape, (Operand.Kind.mem_kinds_iff_of_isByte h _).mpr rfl⟩

end Opcode

namespace Instruction

variable {ρ : Type} {op : Opcode} {p : Payload ρ} {i : Instruction ρ}

/-! ### Accepted pairs -/

theorem code_of_pair_uint8 (h : pair op p = .ok i) (hk : p.kind = .uint8) :
    op.code = Code.unaligned := by
  have hmet := (pair_eq_ok_iff.mp h).1
  rw [hk] at hmet
  exact Requirement.isMet_opcode_iff.mp hmet

theorem code_of_pair_int8 (h : pair op p = .ok i) (hk : p.kind = .int8) :
    op.code = Code.ldcShort := by
  have hmet := (pair_eq_ok_iff.mp h).1
  rw [hk] at hmet
  exact Requirement.isMet_opcode_iff.mp hmet

theorem pairsByte_of_pair (h : pair op p = .ok i) (hbyte : p.kind.IsByte) : op.PairsByte :=
  hbyte.imp (code_of_pair_uint8 h) (code_of_pair_int8 h)

/-- The opcode takes an accepted operand, unless that is a single byte and the shape of the opcode
is not one. -/
theorem takes_iff_of_pair (h : pair op p = .ok i) :
    op.Takes p.kind ↔ (p.kind.IsByte → op.shape = .member .shortInlineI) := by
  by_cases hbyte : p.kind.IsByte
  · rw [Opcode.takes_iff_of_isByte hbyte]
    exact ⟨fun hshape _ => hshape, fun hshape => hshape hbyte⟩
  · have hmet := (pair_eq_ok_iff.mp h).1
    exact iff_of_true ((Opcode.isMet_requirement_iff hbyte).mp hmet) fun hb => absurd hb hbyte

/-- An opcode takes every operand it accepts if its shape is fit for the bytes it is paired with. -/
theorem takes_of_pair (hshape : op.PairsByte → op.shape = .member .shortInlineI)
    (h : pair op p = .ok i) : op.Takes p.kind := by
  refine (takes_iff_of_pair h).mpr fun hbyte => ?_
  exact hshape (pairsByte_of_pair h hbyte)

/-- Every opcode that pairs a single byte accepts one. -/
theorem exists_pair_isByte (ρ : Type) (h : op.PairsByte) :
    ∃ (p : Payload ρ) (i : Instruction ρ), pair op p = .ok i ∧ p.kind.IsByte := by
  rcases h with h | h
  · exact ⟨.uint8 0, _, pair_eq_ok_iff.mpr ⟨Requirement.isMet_opcode_iff.mpr h, rfl⟩, Or.inl rfl⟩
  · exact ⟨.int8 0, _, pair_eq_ok_iff.mpr ⟨Requirement.isMet_opcode_iff.mpr h, rfl⟩, Or.inr rfl⟩

/-! ### The size of a single byte -/

theorem width_eq_one_iff {o : Operand ρ} {shape : Coded OperandShape} (h : o.targets? = none) :
    o.width shape = 1 ↔ shape = .member .shortInlineBrTarget ∨ shape = .member .shortInlineI ∨
      shape = .member .shortInlineVar := by
  cases shape with
  | member shape => cases shape <;> simp [Operand.width, OperandShape.width, h]
  | outside code unlisted => simp [Operand.width]

/-- An instruction with a single byte for its operand takes one byte beside its opcode exactly when
the shape of the opcode is of one byte, of whatever kind. -/
theorem size_eq_iff_of_isByte (h : pair op p = .ok i) (hbyte : p.kind.IsByte) :
    i.size = op.size + 1 ↔ op.shape = .member .shortInlineBrTarget ∨
      op.shape = .member .shortInlineI ∨ op.shape = .member .shortInlineVar := by
  obtain ⟨-, rfl⟩ := pair_eq_ok_iff.mp h
  have htargets : (Operand.payload p).targets? = none := by
    cases p with
    | targets refs => rcases hbyte with h | h <;> cases h
    | _ => rfl
  rw [← width_eq_one_iff htargets]
  exact UInt32.add_right_inj op.size

/-! ### Which opcodes keep the promise -/

/-- **Agreement.** Pairing an opcode leaves only operands that it takes exactly when its shape is
`shortInlineI` or its code is neither of the two that a single byte is paired with. Of the
instructions it leaves, those with a single byte on another shape are the ones whose operand does
not agree; such an instruction still takes one byte beside its opcode when the other shape is of
one byte too. -/
theorem pair_agrees_iff (ρ : Type) (op : Opcode) :
    ((∀ (p : Payload ρ) (i : Instruction ρ), pair op p = .ok i → op.Takes i.operand.kind) ↔
      (op.code = Code.unaligned ∨ op.code = Code.ldcShort → op.shape = .member .shortInlineI)) ∧
    ∀ (p : Payload ρ) (i : Instruction ρ), pair op p = .ok i →
      i.opcode = op ∧ i.operand = .payload p ∧
      (op.Takes p.kind ↔
        (p.kind = .uint8 ∨ p.kind = .int8 → op.shape = .member .shortInlineI)) ∧
      (p.kind = .uint8 ∨ p.kind = .int8 →
        (i.size = op.size + 1 ↔ op.shape = .member .shortInlineBrTarget ∨
          op.shape = .member .shortInlineI ∨ op.shape = .member .shortInlineVar)) := by
  refine ⟨⟨fun hall hop => ?_, fun hshape p i h => ?_⟩, fun p i h => ?_⟩
  · -- The opcode accepts some byte, and agrees with it only by its shape.
    obtain ⟨p, i, h, hbyte⟩ := exists_pair_isByte ρ hop
    have htakes := hall p i h
    obtain ⟨-, rfl⟩ := pair_eq_ok_iff.mp h
    exact (takes_iff_of_pair h).mp htakes hbyte
  · have htakes := takes_of_pair hshape h
    obtain ⟨-, rfl⟩ := pair_eq_ok_iff.mp h
    exact htakes
  · obtain ⟨-, rfl⟩ := pair_eq_ok_iff.mp h
    refine ⟨rfl, rfl, takes_iff_of_pair h, fun hbyte => ?_⟩
    exact size_eq_iff_of_isByte h hbyte

end Instruction

/-- An opcode with the code of `ldc.i4.s` whose description says that it has no operand. A table of
it alone is accepted. -/
def Opcode.shapeless : Opcode where
  code := Code.ldcShort
  mnemonic? := some "x"
  shape := .member .inlineNone
  flow := .member .next
  family := .member .primitive
  push := .member .push0
  pop := .member .pop0

/-- The opcode without an operand is paired with one, in no byte at all. -/
theorem Instruction.pair_shapeless_disagrees :
    (Table.build [Opcode.shapeless]).isOk = true ∧
    ∃ i : Instruction CellId, pair Opcode.shapeless (.int8 5) = .ok i ∧
      ¬Opcode.shapeless.Takes i.operand.kind ∧ i.size ≠ Opcode.shapeless.size + 1 := by
  refine ⟨by decide +kernel, _, rfl, ?_, by decide⟩
  rintro ⟨shape, hshape, hkind⟩
  cases hshape
  revert hkind
  decide

end CilIsa
