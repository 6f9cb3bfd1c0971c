import Mathlib.Algebra.Group.Nat.Defs
import CilIsa.Instruction.Size
import CilIsa.Proofs.Instruction.Agreement
import CilIsa.Proofs.Opcode.Standard

/-!
# How many bytes an instruction takes

An instruction takes the bytes of its opcode, as many as the shape of the opcode fixes
(`Opcode.operandBytes`), and in a switch four for each target that it lists. The size counts them in
numbers of 32 bits, which only a switch can exceed. Up to `2 ^ 30 - 2` targets the size of a switch
is exact and grows with every target; one target more, and it falls back to the bytes of the opcode
alone (`Instruction.size_exact`).

An opcode is paired with a variable by its shape alone, whatever the index. Of the two shapes that
take a variable the long one has room for every index, and the short one up to 255
(`Instruction.index_fits_iff`).
-/

namespace CilIsa

/-- The number of bytes that the shape of an opcode fixes for the operand. A switch has a count of
its targets there. A shape outside the enumeration fixes no bytes. -/
def Opcode.operandBytes (op : Opcode) : Nat :=
  match op.shape with
  | .member .inlineNone | .member .inlinePhi | .outside _ _ => 0
  | .member .shortInlineBrTarget | .member .shortInlineI | .member .shortInlineVar => 1
  | .member .inlineVar => 2
  | .member .inlineI8 | .member .inlineR => 8
  | .member _ => 4

/-- The number of targets that an operand lists. -/
def Operand.targetCount {ρ : Type} : Operand ρ → Nat
  | .payload (.targets refs) => refs.length
  | _ => 0

theorem Operand.length_targets? {ρ : Type} (o : Operand ρ) :
    (o.targets?.getD []).length = o.targetCount := by
  rcases o with p | k
  · cases p <;> rfl
  · rfl

namespace Opcode

/-- Loads a parameter with a small index. -/
def ldargShort : Opcode where
  code := 0x0E
  mnemonic? := some "ldarg.s"
  shape := .member .shortInlineVar
  flow := .member .next
  family := .member .shorthand
  push := .member .push1
  pop := .member .pop0

/-- Loads a local variable. -/
def ldloc : Opcode where
  code := 0xFE0C
  mnemonic? := some "ldloc"
  shape := .member .inlineVar
  flow := .member .next
  family := .member .primitive
  push := .member .push1
  pop := .member .pop0

theorem toNat_size_cases (op : Opcode) : op.size.toNat = 1 ∨ op.size.toNat = 2 := by
  rw [size]
  split
  · exact .inr rfl
  · exact .inl rfl

theorem operandBytes_le (op : Opcode) : op.operandBytes ≤ 8 := by
  rw [operandBytes]
  split <;> decide

variable {ρ : Type} {op : Opcode}

theorem toNat_width (h : op.shape ≠ .member .inlineSwitch) (o : Operand ρ) :
    (o.width op.shape).toNat = op.operandBytes := by
  rw [operandBytes]
  cases hshape : op.shape with
  | member shape =>
    rw [hshape] at h
    cases shape with
    | inlineSwitch => exact absurd rfl h
    | _ => rfl
  | outside code unlisted => rfl

theorem toNat_width_switch (h : op.shape = .member .inlineSwitch) (o : Operand ρ) :
    (o.width op.shape).toNat = (4 + 4 * o.targetCount) % 2 ^ 32 := by
  rw [h, Operand.width, Operand.length_targets?]
  simp only [OperandShape.width, UInt32.toNat_add, UInt32.toNat_mul, UInt32.toNat_ofNat,
    UInt32.toNat_ofNat']
  omega

theorem operandBytes_of_shortInlineVar (h : op.shape = .member .shortInlineVar) :
    op.operandBytes = 1 := by
  rw [operandBytes, h]

theorem operandBytes_of_inlineVar (h : op.shape = .member .inlineVar) : op.operandBytes = 2 := by
  rw [operandBytes, h]

/-- An index has two bytes. -/
theorem index_lt_iff (h : op.shape = .member .shortInlineVar ∨ op.shape = .member .inlineVar)
    (v : Variable) : v.index.toNat < 256 ^ op.operandBytes ↔
      op.shape = .member .inlineVar ∨ v.index.toNat ≤ 255 := by
  have hindex : v.index.toNat < 2 ^ 16 := v.index.toNat_lt
  rcases h with hshort | hlong
  · have hne : op.shape ≠ .member .inlineVar := by
      rw [hshort]
      decide
    rw [operandBytes_of_shortInlineVar hshort, or_iff_right hne]
    omega
  · rw [operandBytes_of_inlineVar hlong]
    exact iff_of_true hindex (.inl hlong)

end Opcode

namespace Instruction

variable {ρ : Type} {i : Instruction ρ}

/-! ### Exact sizes -/

/-- Unless it is a switch, an instruction takes the bytes that its opcode fixes. -/
theorem toNat_size_of_ne_switch (h : i.opcode.shape ≠ .member .inlineSwitch) :
    i.size.toNat = i.opcode.size.toNat + i.opcode.operandBytes := by
  have hopcode := i.opcode.toNat_size_cases
  have hoperand := i.opcode.operandBytes_le
  rw [size, UInt32.toNat_add, Opcode.toNat_width h]
  exact Nat.mod_eq_of_lt (by omega)

theorem toNat_size_of_switch (h : i.opcode.shape = .member .inlineSwitch) :
    i.size.toNat = (i.opcode.size.toNat + 4 + 4 * i.operand.targetCount) % 2 ^ 32 := by
  rw [size, UInt32.toNat_add, Opcode.toNat_width_switch h, Nat.add_mod_mod, Nat.add_assoc]

/-- An opcode of one byte and one of two bytes come to the same bound. -/
theorem toNat_size_switch_eq_iff (h : i.opcode.shape = .member .inlineSwitch) :
    i.size.toNat = i.opcode.size.toNat + 4 + 4 * i.operand.targetCount ↔
      i.operand.targetCount ≤ 2 ^ 30 - 2 := by
  have hopcode := i.opcode.toNat_size_cases
  rw [toNat_size_of_switch h]
  constructor
  · intro hexact
    have hlt := Nat.mod_lt (i.opcode.size.toNat + 4 + 4 * i.operand.targetCount)
      (Nat.two_pow_pos 32)
    omega
  · intro hcount
    exact Nat.mod_eq_of_lt (by omega)

/-- The count of the targets and the displacements fill the range of sizes together. -/
theorem toNat_size_switch_wrapped (h : i.opcode.shape = .member .inlineSwitch)
    (hcount : i.operand.targetCount = 2 ^ 30 - 1) : i.size.toNat = i.opcode.size.toNat := by
  have hopcode := i.opcode.toNat_size_cases
  rw [toNat_size_of_switch h, hcount]
  omega

theorem size_lt_of_targetCount_lt {j : Instruction ρ} (h : j.opcode.shape = .member .inlineSwitch)
    (hsame : i.opcode = j.opcode) (hlt : i.operand.targetCount < j.operand.targetCount)
    (hle : j.operand.targetCount ≤ 2 ^ 30 - 2) : i.size < j.size := by
  have hi : i.size.toNat = i.opcode.size.toNat + 4 + 4 * i.operand.targetCount :=
    (toNat_size_switch_eq_iff (by rwa [hsame])).mpr (by omega)
  have hj : j.size.toNat = j.opcode.size.toNat + 4 + 4 * j.operand.targetCount :=
    (toNat_size_switch_eq_iff h).mpr hle
  rw [UInt32.lt_iff_toNat_lt, hi, hj, hsame]
  omega

/-- A switch of the opcode with a given number of targets, all of them missing. -/
theorem exists_targetCount_eq (ρ : Type) (op : Opcode) (n : Nat) :
    ∃ i : Instruction ρ, i.opcode = op ∧ i.operand.targetCount = n := by
  obtain ⟨refs, hlength⟩ : ∃ refs : List (Option ρ), refs.length = n :=
    ⟨List.replicate n none, List.length_replicate⟩
  exact ⟨{ opcode := op, operand := .payload (.targets refs) }, rfl, hlength⟩

/-- Below a bound the sizes of a switch grow with the number of its targets exactly when it leaves
out the first number that is too large. -/
theorem size_strictMono_iff {op : Opcode} (h : op.shape = .member .inlineSwitch) (bound : Nat) :
    (∀ j k : Instruction ρ, j.opcode = op → k.opcode = op →
      j.operand.targetCount < k.operand.targetCount → k.operand.targetCount ≤ bound →
        j.size < k.size) ↔ bound ≤ 2 ^ 30 - 2 := by
  constructor
  · intro hgrows
    refine Nat.le_of_not_lt fun hbound => ?_
    -- Without targets a switch is longer than with too many.
    obtain ⟨short, hshort, hnone⟩ := exists_targetCount_eq ρ op 0
    obtain ⟨long, hlong, hmany⟩ := exists_targetCount_eq ρ op (2 ^ 30 - 1)
    have hlt : short.size < long.size :=
      hgrows short long hshort hlong (by rw [hnone, hmany]; decide) (by omega)
    have hexact : short.size.toNat = op.size.toNat + 4 := by
      rw [(toNat_size_switch_eq_iff (by rwa [hshort])).mpr (by rw [hnone]; decide), hshort, hnone]
    have hwrapped : long.size.toNat = op.size.toNat := by
      rw [toNat_size_switch_wrapped (by rwa [hlong]) hmany, hlong]
    rw [UInt32.lt_iff_toNat_lt, hexact, hwrapped] at hlt
    omega
  · intro hbound j k hj hk hlt hle
    exact size_lt_of_targetCount_lt (by rwa [hk]) (hj.trans hk.symm) hlt (Nat.le_trans hle hbound)

/-- **Sizes are exact up to a bound.** Unless it is a switch, an instruction takes the bytes of its
opcode and those that the shape of the opcode fixes, whatever its operand. A switch takes four more
for each target, counted modulo `2 ^ 32`: the size is exact up to `2 ^ 30 - 2` targets and no
further, and up to there it grows with their number and no further. -/
theorem size_exact (i : Instruction ρ) :
    (i.opcode.shape ≠ .member .inlineSwitch →
      i.size.toNat = i.opcode.size.toNat + i.opcode.operandBytes ∧
      ∀ j : Instruction ρ, j.opcode = i.opcode → j.size = i.size) ∧
    (i.opcode.shape = .member .inlineSwitch →
      i.size.toNat = (i.opcode.size.toNat + 4 + 4 * i.operand.targetCount) % 2 ^ 32 ∧
      (i.size.toNat = i.opcode.size.toNat + 4 + 4 * i.operand.targetCount ↔
        i.operand.targetCount ≤ 2 ^ 30 - 2) ∧
      ∀ bound : Nat, (∀ j k : Instruction ρ, j.opcode = i.opcode → k.opcode = i.opcode →
        j.operand.targetCount < k.operand.targetCount → k.operand.targetCount ≤ bound →
          j.size < k.size) ↔ bound ≤ 2 ^ 30 - 2) := by
  constructor
  · intro hshape
    refine ⟨toNat_size_of_ne_switch hshape, fun j hj => UInt32.toNat_inj.mp ?_⟩
    rw [toNat_size_of_ne_switch hshape, toNat_size_of_ne_switch (by rwa [hj]), hj]
  · intro hshape
    exact ⟨toNat_size_of_switch hshape, toNat_size_switch_eq_iff hshape,
      size_strictMono_iff hshape⟩

/-- As long as it can be, `switch` takes three bytes less than can be counted. One target more, and
its size is that of its opcode. -/
theorem size_exact_longest :
    ∃ longest wrapped : Instruction Empty,
      longest.opcode = Opcode.switch ∧ longest.operand.targetCount = 2 ^ 30 - 2 ∧
      longest.size.toNat = 2 ^ 32 - 3 ∧ wrapped.opcode = Opcode.switch ∧
      wrapped.operand.targetCount = 2 ^ 30 - 1 ∧ wrapped.size.toNat = 1 := by
  obtain ⟨longest, hlongest, hmost⟩ := exists_targetCount_eq Empty Opcode.switch (2 ^ 30 - 2)
  obtain ⟨wrapped, hwrapped, hmany⟩ := exists_targetCount_eq Empty Opcode.switch (2 ^ 30 - 1)
  obtain ⟨-, hexact, -⟩ := (size_exact longest).2 (by rw [hlongest]; rfl)
  obtain ⟨hmod, -, -⟩ := (size_exact wrapped).2 (by rw [hwrapped]; rfl)
  refine ⟨longest, wrapped, hlongest, hmost, ?_, hwrapped, hmany, ?_⟩
  · rw [hexact.mpr (by omega), hlongest, hmost]
    decide
  · rw [hmod, hwrapped, hmany]
    decide

/-! ### Variables and their indices -/

variable {op : Opcode} {p : Payload ρ} {v : Variable}

/-- Whether an opcode is paired with a variable is decided by the shape alone. -/
theorem exists_pair_variable_iff (hp : p = .parameter v ∨ p = .localVar v) :
    (∃ i, pair op p = .ok i) ↔
      op.shape = .member .shortInlineVar ∨ op.shape = .member .inlineVar := by
  have hrequirement : p.kind.requirement = .shapes [.shortInlineVar, .inlineVar] := by
    rcases hp with rfl | rfl <;> rfl
  rw [exists_pair_iff, hrequirement, Requirement.isMet_two_iff]

/-- The bytes beside those of the opcode are the ones that its shape fixes. -/
theorem toNat_size_sub_of_ne_switch (h : i.opcode.shape ≠ .member .inlineSwitch) :
    i.size.toNat - i.opcode.size.toNat = i.opcode.operandBytes := by
  rw [toNat_size_of_ne_switch h, Nat.add_sub_cancel_left]

/-- **Which indices fit.** An opcode is paired with a variable if its shape is one of two, whatever
the index. An operand of the long shape takes two bytes, and every index fits into them. One of the
short shape takes a single byte, and an index fits into it up to 255. -/
theorem index_fits_iff (op : Opcode) (p : Payload ρ) (hp : p = .parameter v ∨ p = .localVar v) :
    ((∃ i, pair op p = .ok i) ↔
      op.shape = .member .shortInlineVar ∨ op.shape = .member .inlineVar) ∧
    ∀ i, pair op p = .ok i →
      (op.shape = .member .shortInlineVar → i.size.toNat - op.size.toNat = 1) ∧
      (op.shape = .member .inlineVar → i.size.toNat - op.size.toNat = 2) ∧
      (v.index.toNat < 256 ^ (i.size.toNat - op.size.toNat) ↔
        op.shape = .member .inlineVar ∨ v.index.toNat ≤ 255) := by
  refine ⟨exists_pair_variable_iff hp, fun i h => ?_⟩
  have hshape := (exists_pair_variable_iff hp).mp ⟨i, h⟩
  obtain ⟨-, rfl⟩ := pair_eq_ok_iff.mp h
  have hswitch : op.shape ≠ .member .inlineSwitch := by
    rcases hshape with hshape | hshape <;> rw [hshape] <;> decide
  rw [toNat_size_sub_of_ne_switch hswitch]
  exact ⟨Opcode.operandBytes_of_shortInlineVar, Opcode.operandBytes_of_inlineVar,
    Opcode.index_lt_iff hshape v⟩

/-- The short `ldarg.s` is paired with a parameter that only two bytes can number. The long `ldloc`
has them, for the last local variable there can be. -/
theorem index_fits_iff_wide :
    ∃ (v w : Variable) (short long : Instruction Empty), v.index = 256 ∧ w.index = 65535 ∧
      pair Opcode.ldargShort (.parameter v) = .ok short ∧
      short.size.toNat - Opcode.ldargShort.size.toNat = 1 ∧
      ¬v.index.toNat < 256 ^ (short.size.toNat - Opcode.ldargShort.size.toNat) ∧
      pair Opcode.ldloc (.localVar w) = .ok long ∧
      w.index.toNat < 256 ^ (long.size.toNat - Opcode.ldloc.size.toNat) := by
  obtain ⟨hpair, hfits⟩ :=
    index_fits_iff Opcode.ldargShort (.parameter { index := 256 } : Payload Empty) (.inl rfl)
  obtain ⟨hpairLong, hfitsLong⟩ :=
    index_fits_iff Opcode.ldloc (.localVar { index := 65535 } : Payload Empty) (.inr rfl)
  obtain ⟨short, hshort⟩ := hpair.mpr (.inl rfl)
  obtain ⟨long, hlong⟩ := hpairLong.mpr (.inr rfl)
  obtain ⟨hone, -, hindex⟩ := hfits short hshort
  obtain ⟨-, -, hindexLong⟩ := hfitsLong long hlong
  refine ⟨_, _, short, long, rfl, rfl, hshort, hone rfl, ?_, hlong, hindexLong.mpr (.inl rfl)⟩
  rw [hindex]
  decide

/-- A standard opcode accepts an index that does not fit into the byte it has for one. -/
theorem index_of_ldargShort_too_wide :
    Opcode.ldargShort ∈ Opcode.standard ∧
    ∃ (v : Variable) (i : Instruction Empty), v.index = 256 ∧
      pair Opcode.ldargShort (.parameter v) = .ok i ∧
      ¬v.index.toNat < 256 ^ (i.size.toNat - Opcode.ldargShort.size.toNat) := by
  exact ⟨by decide +kernel, { index := 256 }, _, rfl, rfl, by decide⟩

end Instruction

end CilIsa
