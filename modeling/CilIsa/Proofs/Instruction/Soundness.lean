import Mathlib.Logic.Basic
import CilIsa.Instruction.Effect
import CilIsa.Proofs.Instruction.Agreement
import CilIsa.Proofs.Opcode.Standard

/-!
# Sound instructions

What can be asked of an instruction is read off different columns of its opcode: whether it can
jump off the flow of control, what it loads and whether it leaves a region off the code, its target
off the operand, its effect off the classes. An instruction is *sound* when the answers fit
together (`Instruction.Sound`).

Pairing a standard opcode with a payload leaves only sound instructions
(`Instruction.sound_of_pair`). Two facts carry the proof: the opcode takes the operand, and the
columns of a standard opcode agree with one another (`Opcode.coherent_standard`). What each question
has to do with the shape of the opcode is worked out first, one question at a time.
-/

namespace CilIsa

namespace Operand

variable {ρ : Type}

/-! ### Operands by their kinds -/

/-- Of a payload it is the kind that decides whether there is a target. -/
theorem isSome_target?_iff {p : Payload ρ} :
    (payload p).target?.isSome = true ↔ p.kind = .target := by
  cases p <;> simp [target?, Payload.kind]

theorem isSome_targets?_iff {p : Payload ρ} :
    (payload p).targets?.isSome = true ↔ p.kind = .targets := by
  cases p <;> simp [targets?, Payload.kind]

end Operand

namespace Payload

variable {ρ : Type} {p : Payload ρ}

theorem exists_of_kind_int8 (h : p.kind = .int8) : ∃ value, p = .int8 value := by
  cases p with
  | int8 value => exact ⟨value, rfl⟩
  | _ => cases h

theorem exists_of_kind_int32 (h : p.kind = .int32) : ∃ value, p = .int32 value := by
  cases p with
  | int32 value => exact ⟨value, rfl⟩
  | _ => cases h

end Payload

/-- A shape denotes targets exactly when it is one of a branch or of a switch. -/
theorem OperandShape.jump_iff_of_mem_kinds {shape : OperandShape} {k : Operand.Kind}
    (h : k ∈ shape.kinds) :
    shape = .shortInlineBrTarget ∨ shape = .inlineBrTarget ∨ shape = .inlineSwitch ↔
      k = .target ∨ k = .targets := by
  cases shape <;> revert k <;> decide

namespace Instruction

variable {ρ : Type} {i : Instruction ρ}

/-! ### The constant an instruction loads -/

/-- After the codes of the fixed constants come the two that have an operand. -/
theorem constant_code_cases {c : Code} (h : 0x15 ≤ c ∧ c ≤ 0x20) :
    (0x15 ≤ c ∧ c ≤ 0x1E) ∨ c = 0x1F ∨ c = 0x20 := by
  simp only [UInt16.le_iff_toNat_le, ← UInt16.toNat_inj, UInt16.reduceToNat] at h ⊢
  omega

theorem constant?_of_fixed (h : 0x15 ≤ i.opcode.code ∧ i.opcode.code ≤ 0x1E) :
    ∃ value, i.constant? = some value ∧ value.toInt = i.opcode.code.toNat - 0x16 := by
  refine ⟨_, if_pos h, ?_⟩
  have hlow : 0x15 ≤ i.opcode.code.toNat := UInt16.le_iff_toNat_le.mp h.1
  have hhigh : i.opcode.code.toNat ≤ 0x1E := UInt16.le_iff_toNat_le.mp h.2
  -- The constants -1 to 8 are numbers of 32 bits.
  rw [Int32.toInt_ofInt_of_le]
  all_goals
    simp only [Code.ldcMinusOne, UInt16.reduceToNat]
    omega

theorem constant?_of_short {value : Int8} (hcode : i.opcode.code = 0x1F)
    (hoperand : i.operand = .payload (.int8 value)) : i.constant? = some value.toInt32 := by
  rw [constant?, hcode, if_neg (by decide), if_pos (by decide), hoperand]

theorem constant?_of_int {value : Int32} (hcode : i.opcode.code = 0x20)
    (hoperand : i.operand = .payload (.int32 value)) : i.constant? = some value := by
  rw [constant?, hcode, if_neg (by decide), if_neg (by decide), if_pos (by decide), hoperand]

theorem constant?_eq_none (h : ¬(0x15 ≤ i.opcode.code ∧ i.opcode.code ≤ 0x20)) :
    i.constant? = none := by
  have hfixed : ¬(0x15 ≤ i.opcode.code ∧ i.opcode.code ≤ 0x1E) := fun hc =>
    h ⟨hc.1, UInt16.le_trans hc.2 (by decide)⟩
  have hshort : i.opcode.code ≠ 0x1F := fun hc => h (by rw [hc]; decide)
  have hint : i.opcode.code ≠ 0x20 := fun hc => h (by rw [hc]; decide)
  exact (if_neg hfixed).trans ((if_neg hshort).trans (if_neg hint))

/-! ### Soundness -/

/-- What can be asked of the instruction fits together. -/
structure Sound (i : Instruction ρ) : Prop where
  standard : i.opcode ∈ Opcode.standard
  /-- The operand is of a kind that the shape of the opcode denotes. -/
  takes : i.opcode.Takes i.operand.kind
  uint8 : i.operand.kind = .uint8 →
    i.opcode.mnemonic? = some "unaligned." ∧ i.opcode.shape = .member .shortInlineI
  int8 : i.operand.kind = .int8 →
    i.opcode.mnemonic? = some "ldc.i4.s" ∧ i.opcode.shape = .member .shortInlineI
  /-- Although `no.` has the shape of one byte, nothing carries it. -/
  no : i.opcode.mnemonic? ≠ some "no."
  /-- The instruction can jump exactly when it has a target or a list of targets. -/
  jump : i.canJump = true ↔
    Xor (i.operand.target?.isSome = true) (i.operand.targets?.isSome = true)
  /-- Leaving a region is a jump that always happens and clears the stack. -/
  leave : i.leaves = true → i.canJump = true ∧ i.jumpsConditionally = false ∧
    ∀ returns, i.effect returns = ⟨0, StackEffect.allPops⟩
  constant : i.constant?.isSome = true ↔ 0x15 ≤ i.opcode.code ∧ i.opcode.code ≤ 0x20
  /-- Ten codes stand for the constants -1 to 8. -/
  fixed : 0x15 ≤ i.opcode.code ∧ i.opcode.code ≤ 0x1E →
    ∃ value, i.constant? = some value ∧ value.toInt = i.opcode.code.toNat - 0x16
  short : i.opcode.code = 0x1F →
    ∃ value, i.operand = .payload (.int8 value) ∧ i.constant? = some value.toInt32
  int : i.opcode.code = 0x20 →
    ∃ value, i.operand = .payload (.int32 value) ∧ i.constant? = some value
  /-- Loading a constant pushes it and pops nothing. -/
  push : 0x15 ≤ i.opcode.code ∧ i.opcode.code ≤ 0x20 → ∀ returns, i.effect returns = ⟨1, 0⟩

/-- Soundness is not a matter of the offset. -/
theorem Sound.moveTo (h : i.Sound) (offset : UInt32) : (i.moveTo offset).Sound :=
  ⟨h.standard, h.takes, h.uint8, h.int8, h.no, h.jump, h.leave, h.constant, h.fixed, h.short, h.int,
    h.push⟩

/-! ### Standard opcodes -/

theorem canJump_iff_xor {p : Payload ρ} (hop : i.opcode.Coherent)
    (htakes : i.opcode.Takes p.kind) (hoperand : i.operand = .payload p) :
    i.canJump = true ↔
      Xor (i.operand.target?.isSome = true) (i.operand.targets?.isSome = true) := by
  obtain ⟨shape, hshape, hkind⟩ := htakes
  have hjump : i.canJump = true ↔ p.kind = .target ∨ p.kind = .targets := by
    rw [canJump_iff, hop.jump, hshape, ← OperandShape.jump_iff_of_mem_kinds hkind]
    simp only [Coded.member.injEq]
  rw [hjump, hoperand, Operand.isSome_target?_iff, Operand.isSome_targets?_iff,
    xor_iff_or_and_not_and]
  -- No operand is of two kinds.
  refine (and_iff_left ?_).symm
  rintro ⟨htarget, htargets⟩
  exact absurd (htarget.symm.trans htargets) (by decide)

theorem jumps_of_leaves (hop : i.opcode.Coherent) (h : i.leaves = true) :
    i.canJump = true ∧ i.jumpsConditionally = false ∧
      ∀ returns, i.effect returns = ⟨0, StackEffect.allPops⟩ := by
  obtain ⟨hflow, hpush, hpop⟩ := hop.leave (leaves_iff.mp h)
  refine ⟨canJump_iff.mpr (Or.inl hflow), ?_, fun returns => ?_⟩
  · rw [jumpsConditionally, hflow]
    decide
  · exact effect_of_classes (by rw [hflow]; decide) hpush hpop returns

theorem effect_of_constant (hop : i.opcode.Coherent)
    (h : 0x15 ≤ i.opcode.code ∧ i.opcode.code ≤ 0x20) (returns : Bool) :
    i.effect returns = ⟨1, 0⟩ := by
  obtain ⟨hflow, hpush, hpop⟩ := hop.constant h
  exact effect_of_classes (by rw [hflow]; decide) hpush hpop returns

/-! ### Accepted pairs of standard opcodes -/

variable {p : Payload ρ} {op : Opcode}

/-- The code of `ldc.i4.s` is paired with a signed byte only. -/
theorem exists_int8_of_short (hop : op.Coherent) (h : pair op p = .ok i)
    (hcode : op.code = 0x1F) : ∃ value, p = .int8 value := by
  obtain ⟨shape, hshape, hkind⟩ := takes_of_pair hop.byte h
  cases hshape.symm.trans (hop.byte (Or.inr hcode))
  -- The shape of one byte leaves two kinds, and the other one is for another code.
  rcases List.mem_pair.mp hkind with hu | hi
  · have hother : op.code = Code.unaligned := code_of_pair_uint8 h hu
    exact absurd (hcode.symm.trans hother) (by decide)
  · exact Payload.exists_of_kind_int8 hi

/-- The code of `ldc.i4` is paired with a number of four bytes only. -/
theorem exists_int32_of_int (hop : op.Coherent) (h : pair op p = .ok i)
    (hcode : op.code = 0x20) : ∃ value, p = .int32 value := by
  obtain ⟨shape, hshape, hkind⟩ := takes_of_pair hop.byte h
  cases hshape.symm.trans (hop.ldcInt hcode)
  exact Payload.exists_of_kind_int32 (List.mem_singleton.mp hkind)

theorem constant?_short_of_pair (hop : op.Coherent) (h : pair op p = .ok i)
    (hcode : op.code = 0x1F) :
    ∃ value, i.operand = .payload (.int8 value) ∧ i.constant? = some value.toInt32 := by
  obtain ⟨value, rfl⟩ := exists_int8_of_short hop h hcode
  obtain ⟨-, rfl⟩ := pair_eq_ok_iff.mp h
  exact ⟨value, rfl, constant?_of_short hcode rfl⟩

theorem constant?_int_of_pair (hop : op.Coherent) (h : pair op p = .ok i)
    (hcode : op.code = 0x20) :
    ∃ value, i.operand = .payload (.int32 value) ∧ i.constant? = some value := by
  obtain ⟨value, rfl⟩ := exists_int32_of_int hop h hcode
  obtain ⟨-, rfl⟩ := pair_eq_ok_iff.mp h
  exact ⟨value, rfl, constant?_of_int hcode rfl⟩

/-- Exactly the codes that load a constant have one. -/
theorem isSome_constant?_iff_of_pair (hop : op.Coherent) (h : pair op p = .ok i) :
    i.constant?.isSome = true ↔ 0x15 ≤ op.code ∧ op.code ≤ 0x20 := by
  have hopcode : i.opcode = op := by
    obtain ⟨-, rfl⟩ := pair_eq_ok_iff.mp h
    rfl
  constructor
  · intro hsome
    by_contra hcode
    rw [← hopcode] at hcode
    rw [constant?_eq_none hcode] at hsome
    exact Bool.false_ne_true hsome
  · intro hcode
    rcases constant_code_cases hcode with hfixed | hshort | hint
    · rw [← hopcode] at hfixed
      obtain ⟨value, hvalue, -⟩ := constant?_of_fixed hfixed
      rw [hvalue, Option.isSome_some]
    · obtain ⟨value, -, hvalue⟩ := constant?_short_of_pair hop h hshort
      rw [hvalue, Option.isSome_some]
    · obtain ⟨value, -, hvalue⟩ := constant?_int_of_pair hop h hint
      rw [hvalue, Option.isSome_some]

/-- What has the shape of one byte carries a byte, and `no.` has neither code for that. -/
theorem mnemonic?_ne_no_of_pair (hop : op.Coherent) (h : pair op p = .ok i) :
    op.mnemonic? ≠ some "no." := by
  intro hno
  obtain ⟨hshape, hnotUnaligned, hnotShort⟩ := hop.no hno
  obtain ⟨shape, hmember, hkind⟩ := takes_of_pair hop.byte h
  cases hmember.symm.trans hshape
  have hbyte : p.kind.IsByte := List.mem_pair.mp hkind
  rcases pairsByte_of_pair h hbyte with hcode | hcode
  · exact hnotUnaligned hcode
  · exact hnotShort hcode

/-- **Soundness of pairing.** A standard opcode and a payload that fit together make a sound
instruction. -/
theorem sound_of_pair (hstandard : op ∈ Opcode.standard) (h : pair op p = .ok i) : i.Sound := by
  have hop : op.Coherent := Opcode.coherent_standard op hstandard
  have htakes : op.Takes p.kind := takes_of_pair hop.byte h
  obtain ⟨-, rfl⟩ := pair_eq_ok_iff.mp h
  refine
    { standard := hstandard
      takes := htakes
      uint8 := fun hk => ?_
      int8 := fun hk => ?_
      no := mnemonic?_ne_no_of_pair hop h
      jump := canJump_iff_xor hop htakes rfl
      leave := jumps_of_leaves hop
      constant := isSome_constant?_iff_of_pair hop h
      fixed := constant?_of_fixed
      short := constant?_short_of_pair hop h
      int := constant?_int_of_pair hop h
      push := effect_of_constant hop }
  · have hcode : op.code = Code.unaligned := code_of_pair_uint8 h hk
    exact ⟨hop.unaligned hcode, hop.byte (Or.inl hcode)⟩
  · have hcode : op.code = Code.ldcShort := code_of_pair_int8 h hk
    exact ⟨hop.ldcShort hcode, hop.byte (Or.inr hcode)⟩

end Instruction

end CilIsa
