import Mathlib.Algebra.Group.Int.Defs
import Mathlib.Algebra.Group.Nat.Defs
import CilIsa.Instruction.Effect

/-!
# Counting pushes and pops

Pops are counted in signed numbers of 32 bits, of which -1 counts nothing: it stands for the whole
stack. Counting never comes to it (`Instruction.clears_iff_popAll`). The classes of an opcode count
to three at most. A call pops its arguments and at most two values more, so that it takes more than
`2 ^ 31 - 3` parameters for a count to leave its range (`Signature.countsExactly`); one parameter
less, and the largest number of 32 bits is the number of values that `calli` pops.
-/

namespace CilIsa

/-! ### Adding numbers of 32 bits -/

/-- The sum of the two numbers is not a number of 32 bits. -/
def AddOverflows (a b : Int32) : Prop := a.toBitVec.saddOverflow b.toBitVec = true

theorem addOverflows_iff {a b : Int32} :
    AddOverflows a b ↔ 2 ^ 31 ≤ a.toInt + b.toInt ∨ a.toInt + b.toInt < -2 ^ 31 := by
  simp only [AddOverflows, BitVec.saddOverflow, Int32.toInt_toBitVec, Bool.or_eq_true,
    decide_eq_true_eq, ge_iff_le]

theorem toInt_add_of_not_addOverflows {a b : Int32} (h : ¬AddOverflows a b) :
    (a + b).toInt = a.toInt + b.toInt := by
  simp only [← Int32.toInt_toBitVec, Int32.toBitVec_add]
  exact BitVec.toInt_add_of_not_saddOverflow h

/-! ### Counting by classes -/

namespace PushClass

theorem count_cases (c : PushClass) : c.count = 0 ∨ c.count = 1 ∨ c.count = 2 := by
  cases c <;> decide

theorem count_eq_two_iff {c : PushClass} : c.count = 2 ↔ c = .push1_push1 := by
  cases c <;> decide

end PushClass

namespace PopClass

theorem count_eq_allPops_iff {c : PopClass} {returns : Bool} :
    c.count returns = StackEffect.allPops ↔ c = .popAll := by
  cases c <;> cases returns <;> decide

theorem toInt_count_le (c : PopClass) (returns : Bool) : (c.count returns).toInt ≤ 3 := by
  cases c <;> cases returns <;> decide

theorem toInt_count_nonneg {c : PopClass} (h : c ≠ .popAll) (returns : Bool) :
    0 ≤ (c.count returns).toInt := by
  revert h
  cases c <;> cases returns <;> decide

end PopClass

namespace StackEffect

theorem clears_eq_false_of_nonneg {e : StackEffect} (h : 0 ≤ e.pops.toInt) : e.clears = false := by
  rw [← Bool.not_eq_true, clears_iff]
  intro hall
  rw [hall] at h
  exact absurd h (by decide)

end StackEffect

namespace Opcode

variable (op : Opcode) (returns : Bool)

theorem pushes_staticEffect_cases :
    (∃ push, op.push = .member push ∧ (op.staticEffect returns).pushes = push.count) ∨
      (∀ push, op.push ≠ .member push) ∧ (op.staticEffect returns).pushes = 0 := by
  cases h : op.push with
  | member push => exact .inl ⟨push, rfl, by simp only [staticEffect, h]⟩
  | outside n unlisted => exact .inr ⟨by simp, by simp only [staticEffect, h]⟩

theorem pops_staticEffect_cases :
    (∃ pop, op.pop = .member pop ∧ (op.staticEffect returns).pops = pop.count returns) ∨
      (∀ pop, op.pop ≠ .member pop) ∧ (op.staticEffect returns).pops = 0 := by
  cases h : op.pop with
  | member pop => exact .inl ⟨pop, rfl, by simp only [staticEffect, h]⟩
  | outside n unlisted => exact .inr ⟨by simp, by simp only [staticEffect, h]⟩

theorem clears_staticEffect_iff :
    (op.staticEffect returns).clears = true ↔ op.pop = .member .popAll := by
  rw [StackEffect.clears_iff]
  rcases op.pops_staticEffect_cases returns with ⟨pop, hpop, hcount⟩ | ⟨hnone, hcount⟩
  · rw [hcount, hpop, Coded.member.injEq, PopClass.count_eq_allPops_iff]
  · rw [hcount]
    exact iff_of_false (by decide) (hnone _)

theorem toInt_pops_staticEffect_le : (op.staticEffect returns).pops.toInt ≤ 3 := by
  rcases op.pops_staticEffect_cases returns with ⟨pop, -, hcount⟩ | ⟨-, hcount⟩
  · rw [hcount]
    exact pop.toInt_count_le returns
  · rw [hcount]
    decide

theorem toInt_pops_staticEffect_nonneg (h : op.pop ≠ .member .popAll) :
    0 ≤ (op.staticEffect returns).pops.toInt := by
  rcases op.pops_staticEffect_cases returns with ⟨pop, hpop, hcount⟩ | ⟨-, hcount⟩
  · rw [hcount]
    exact PopClass.toInt_count_nonneg (fun hall => h (by rw [hpop, hall])) returns
  · rw [hcount]
    decide

theorem pushes_staticEffect_le_two : (op.staticEffect returns).pushes = 0 ∨
    (op.staticEffect returns).pushes = 1 ∨ (op.staticEffect returns).pushes = 2 := by
  rcases op.pushes_staticEffect_cases returns with ⟨push, -, hcount⟩ | ⟨-, hcount⟩
  · rw [hcount]
    exact push.count_cases
  · exact .inl hcount

theorem pushes_staticEffect_eq_two_iff :
    (op.staticEffect returns).pushes = 2 ↔ op.push = .member .push1_push1 := by
  rcases op.pushes_staticEffect_cases returns with ⟨push, hpush, hcount⟩ | ⟨hnone, hcount⟩
  · rw [hcount, hpush, Coded.member.injEq, PushClass.count_eq_two_iff]
  · rw [hcount]
    exact iff_of_false (by decide) (hnone _)

end Opcode

/-! ### Counting by signatures -/

namespace Signature

/-- A call pops the receiver that is not listed, unless it makes it. -/
def receiverPops (s : Signature) (code : Code) : Int32 :=
  if s.implicitThis && code != Code.newobj then 1 else 0

/-- A call of an address pops it. -/
def addressPops (code : Code) : Int32 := if code == Code.calli then 1 else 0

theorem toInt_receiverPops (s : Signature) (code : Code) : (s.receiverPops code).toInt =
    if s.implicitThis = true ∧ code ≠ Code.newobj then 1 else 0 := by
  simp only [receiverPops, Bool.and_eq_true, bne_iff_ne]
  split <;> rfl

theorem toInt_addressPops (code : Code) :
    (addressPops code).toInt = if code = Code.calli then 1 else 0 := by
  simp only [addressPops, beq_iff_eq]
  split <;> rfl

theorem pops_callEffect (s : Signature) (code : Code) : (s.callEffect code).pops =
    Int32.ofNat s.params.length + s.receiverPops code + addressPops code := rfl

theorem pushes_callEffect_cases (s : Signature) (code : Code) :
    (s.callEffect code).pushes = 0 ∨ (s.callEffect code).pushes = 1 := by
  rw [callEffect]
  split
  · exact .inr rfl
  · exact .inl rfl

/-- The number of the parameters is a number of 32 bits, and adding to it what else is popped does
not overflow, at any step. -/
structure CountsExactly (s : Signature) (code : Code) : Prop where
  arguments : (Int32.ofNat s.params.length).toInt = s.params.length
  receiver : ¬AddOverflows (Int32.ofNat s.params.length) (s.receiverPops code)
  address : ¬AddOverflows (Int32.ofNat s.params.length + s.receiverPops code) (addressPops code)

/-- Below `2 ^ 31 - 2` parameters the pops are counted exactly, on every code. -/
theorem countsExactly {s : Signature} (h : s.params.length < 2 ^ 31 - 2) (code : Code) :
    s.CountsExactly code := by
  have harguments : (Int32.ofNat s.params.length).toInt = s.params.length :=
    Int32.toInt_ofNat_of_lt (by omega)
  have hreceiver : ¬AddOverflows (Int32.ofNat s.params.length) (s.receiverPops code) := by
    rw [addOverflows_iff, harguments, toInt_receiverPops]
    omega
  refine ⟨harguments, hreceiver, ?_⟩
  rw [addOverflows_iff, toInt_add_of_not_addOverflows hreceiver, harguments, toInt_receiverPops,
    toInt_addressPops]
  omega

/-- What is counted exactly is the number of the parameters, one more for a receiver that is popped
without being listed, and one more for an address. -/
theorem CountsExactly.toInt_pops {s : Signature} {code : Code} (h : s.CountsExactly code) :
    (s.callEffect code).pops.toInt = s.params.length +
      (if s.implicitThis = true ∧ code ≠ Code.newobj then 1 else 0) +
      (if code = Code.calli then 1 else 0) := by
  rw [pops_callEffect, toInt_add_of_not_addOverflows h.address,
    toInt_add_of_not_addOverflows h.receiver, h.arguments, toInt_receiverPops, toInt_addressPops]

theorem CountsExactly.pops_nonneg {s : Signature} {code : Code} (h : s.CountsExactly code) :
    0 ≤ (s.callEffect code).pops.toInt := by
  rw [h.toInt_pops]
  omega

end Signature

/-! ### Counting by instructions -/

/-- The instruction of an opcode and a method with the given signature. -/
def Opcode.onMethod (op : Opcode) (s : Signature) : Instruction Empty where
  opcode := op
  operand := .payload (.method ⟨⟨0, "M"⟩, some s⟩)

namespace Instruction

variable {ρ : Type} {i : Instruction ρ}

section

variable (h : ∀ s, i.callee? = some s → s.CountsExactly i.opcode.code) (returns : Bool)
include h

theorem clears_effect_iff : (i.effect returns).clears = true ↔
    i.opcode.flow ≠ .member .call ∧ i.opcode.pop = .member .popAll := by
  rcases i.effect_cases returns with
    ⟨hflow, heffect⟩ | ⟨hflow, -, heffect⟩ | ⟨s, hflow, hs, heffect⟩
  · rw [heffect, i.opcode.clears_staticEffect_iff, and_iff_right hflow]
  · rw [heffect]
    exact iff_of_false (by decide) fun hstatic => hstatic.1 hflow
  · rw [heffect, StackEffect.clears_eq_false_of_nonneg (h s hs).pops_nonneg]
    exact iff_of_false Bool.false_ne_true fun hstatic => hstatic.1 hflow

theorem toInt_pops_effect_nonneg (hclears : (i.effect returns).clears = false) :
    0 ≤ (i.effect returns).pops.toInt := by
  rcases i.effect_cases returns with ⟨-, heffect⟩ | ⟨-, -, heffect⟩ | ⟨s, -, hs, heffect⟩
  · rw [heffect, ← Bool.not_eq_true, i.opcode.clears_staticEffect_iff] at hclears
    rw [heffect]
    exact i.opcode.toInt_pops_staticEffect_nonneg returns hclears
  · rw [heffect]
    decide
  · rw [heffect]
    exact (h s hs).pops_nonneg

end

theorem pushes_effect_le_two (i : Instruction ρ) (returns : Bool) :
    (i.effect returns).pushes = 0 ∨ (i.effect returns).pushes = 1 ∨
      (i.effect returns).pushes = 2 := by
  rcases i.effect_cases returns with ⟨-, heffect⟩ | ⟨-, -, heffect⟩ | ⟨s, -, -, heffect⟩
  · rw [heffect]
    exact i.opcode.pushes_staticEffect_le_two returns
  · exact .inl (by rw [heffect])
  · rw [heffect]
    exact (s.pushes_callEffect_cases _).imp_right .inl

theorem pushes_effect_eq_two_iff (i : Instruction ρ) (returns : Bool) :
    (i.effect returns).pushes = 2 ↔
      i.opcode.flow ≠ .member .call ∧ i.opcode.push = .member .push1_push1 := by
  rcases i.effect_cases returns with
    ⟨hflow, heffect⟩ | ⟨hflow, -, heffect⟩ | ⟨s, hflow, -, heffect⟩
  · rw [heffect, i.opcode.pushes_staticEffect_eq_two_iff, and_iff_right hflow]
  · rw [heffect]
    exact iff_of_false (by decide) fun hstatic => hstatic.1 hflow
  · rw [heffect]
    refine iff_of_false ?_ fun hstatic => hstatic.1 hflow
    rcases s.pushes_callEffect_cases i.opcode.code with hcount | hcount <;> rw [hcount] <;> decide

/-- **Counting never clears the stack.** As long as the signature of the method that an instruction
names lists fewer than `2 ^ 31 - 2` parameters, the instruction clears the stack exactly when it
enters no method and has the class of doing so. Otherwise its pops are a number that is counted, at
most three outside of calls. It pushes at most two values, and two only by its class. Nothing
overflows while the pops of a call are counted. -/
theorem clears_iff_popAll
    (h : ∀ m s, i.operand = .payload (.method m) → m.sig = some s → s.params.length < 2 ^ 31 - 2)
    (returns : Bool) :
    ((i.effect returns).clears = true ↔
      i.opcode.flow ≠ .member .call ∧ i.opcode.pop = .member .popAll) ∧
    ((i.effect returns).clears = false → 0 ≤ (i.effect returns).pops.toInt) ∧
    (i.opcode.flow ≠ .member .call → (i.effect returns).pops.toInt ≤ 3) ∧
    ((i.effect returns).pushes = 0 ∨ (i.effect returns).pushes = 1 ∨
      (i.effect returns).pushes = 2) ∧
    ((i.effect returns).pushes = 2 ↔
      i.opcode.flow ≠ .member .call ∧ i.opcode.push = .member .push1_push1) ∧
    (∀ s, i.opcode.flow = .member .call → i.callee? = some s →
      s.CountsExactly i.opcode.code ∧
      (i.effect returns).pops = Int32.ofNat s.params.length + s.receiverPops i.opcode.code +
        Signature.addressPops i.opcode.code) := by
  have hexact : ∀ s, i.callee? = some s → s.CountsExactly i.opcode.code := by
    intro s hs
    obtain ⟨m, hm, hsig⟩ := callee?_eq_some_iff.mp hs
    exact Signature.countsExactly (h m s hm hsig) _
  refine ⟨clears_effect_iff hexact returns, toInt_pops_effect_nonneg hexact returns, ?_,
    i.pushes_effect_le_two returns, i.pushes_effect_eq_two_iff returns, ?_⟩
  · intro hflow
    rw [effect_of_flow_ne_call hflow]
    exact i.opcode.toInt_pops_staticEffect_le returns
  · intro s hflow hs
    rw [effect_of_callee? hflow hs]
    exact ⟨hexact s hs, s.pops_callEffect _⟩

/-- A call of an address, on a method that does not list its receiver. -/
def indirectCall (params : List SignatureType) : Instruction Empty :=
  Opcode.onMethod ⟨Code.calli, some "calli", .member .inlineSig, .member .call, .member .primitive,
    .member .varpush, .member .varpop⟩ { convention := .hasThis, params }

/-- With as many parameters as are allowed, a call of an address pops as many values as can be
counted, and does not clear the stack. -/
theorem clears_iff_popAll_longest :
    ∃ params : List SignatureType, params.length < 2 ^ 31 - 2 ∧
      ((indirectCall params).effect true).clears = false ∧
      ((indirectCall params).effect true).pops.toInt = 2 ^ 31 - 1 := by
  obtain ⟨params, hlength⟩ : ∃ params : List SignatureType, params.length = 2 ^ 31 - 3 :=
    ⟨List.replicate (2 ^ 31 - 3) .void, List.length_replicate⟩
  have hshort : params.length < 2 ^ 31 - 2 := by omega
  have hparams : ∀ m s, (indirectCall params).operand = .payload (.method m) → m.sig = some s →
      s.params.length < 2 ^ 31 - 2 := by
    rintro _ _ ⟨⟩ ⟨⟩
    exact hshort
  obtain ⟨hclears, -, -, -, -, hcounts⟩ := clears_iff_popAll hparams true
  obtain ⟨hexact, hpops⟩ := hcounts { convention := .hasThis, params } rfl rfl
  have himplicit : (CallingConvention.sharesBit .hasThis .hasThis &&
      !CallingConvention.sharesBit .hasThis .explicitThis) = true := by decide
  have hcode : (indirectCall params).opcode.code = Code.calli := rfl
  refine ⟨params, hshort, ?_, ?_⟩
  · rw [← Bool.not_eq_true, hclears]
    exact fun hstatic => hstatic.1 rfl
  · rw [hpops, ← Signature.pops_callEffect, hexact.toInt_pops, hcode,
      if_pos ⟨himplicit, by decide⟩, if_pos rfl, hlength]
    rfl

end Instruction

end CilIsa
