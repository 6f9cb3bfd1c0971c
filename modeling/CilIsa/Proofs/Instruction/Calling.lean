import Mathlib.Logic.Basic
import CilIsa.Opcode.Standard
import CilIsa.Proofs.Instruction.Counting

/-!
# The family of calls

Four opcodes of the standard set enter a method that leaves its result on the stack: `call` and
`callvirt`, `calli`, which pops the address of the method as well, and `newobj`, which makes the
receiver instead of popping it. On one signature their effects differ by no more than that
(`Instruction.effects_of_calls`). A receiver counts once, whether it is listed among the parameters
or not (`Signature.callEffect_listReceiver`).
-/

namespace CilIsa

/-- The code of `call`. -/
def Code.call : Code := 0x28

/-- The code of `callvirt`. -/
def Code.callvirt : Code := 0x6F

/-! ### Receivers -/

/-- A set of flags shares a bit with the bits of two others if it does with one of them. -/
theorem CallingConvention.sharesBit_union (a b flag : CallingConvention) :
    (a.union b).sharesBit flag = (a.sharesBit flag || b.sharesBit flag) := by
  have hdistrib : (a ||| b) &&& flag = (a &&& flag) ||| (b &&& flag) := by
    rw [← UInt8.toBitVec_inj]
    exact BitVec.and_or_distrib_right
  rw [Bool.eq_iff_iff, Bool.or_eq_true]
  simp only [sharesBit, union, bne_iff_ne, ne_eq, hdistrib, UInt8.or_eq_zero_iff, not_and_or]

namespace Signature

variable {s : Signature} {code : Code}

/-- The signature with its receiver listed as the first parameter. -/
def listReceiver (s : Signature) (receiver : SignatureType) : Signature :=
  { s with convention := s.convention.union .explicitThis, params := receiver :: s.params }

theorem explicitThis_listReceiver (s : Signature) (receiver : SignatureType) :
    (s.listReceiver receiver).explicitThis = true := by
  have hflag : CallingConvention.sharesBit .explicitThis .explicitThis = true := by decide
  rw [listReceiver, explicitThis, CallingConvention.sharesBit_union, hflag, Bool.or_true]

theorem implicitThis_listReceiver (s : Signature) (receiver : SignatureType) :
    (s.listReceiver receiver).implicitThis = false := by
  rw [implicitThis, explicitThis_listReceiver, Bool.not_true, Bool.and_false]

theorem implicitThis_iff : s.implicitThis = true ↔ s.hasThis = true ∧ s.explicitThis = false := by
  rw [implicitThis, Bool.and_eq_true, Bool.not_eq_true']

theorem receiverPops_of_ne_newobj (h : code ≠ Code.newobj) :
    s.receiverPops code = if s.implicitThis then 1 else 0 := by
  rw [receiverPops, bne_iff_ne.mpr h, Bool.and_true]

theorem addressPops_of_ne_calli (h : code ≠ Code.calli) : addressPops code = 0 := by
  rw [addressPops, beq_false_of_ne h, if_neg Bool.false_ne_true]

/-- What neither makes the receiver nor takes an address pops the arguments and the receiver. -/
theorem pops_callEffect_of_ne (hnewobj : code ≠ Code.newobj) (hcalli : code ≠ Code.calli) :
    (s.callEffect code).pops =
      Int32.ofNat (s.params.length + if s.implicitThis then 1 else 0) := by
  rw [pops_callEffect, receiverPops_of_ne_newobj hnewobj, addressPops_of_ne_calli hcalli,
    Int32.add_zero, Int32.ofNat_add]
  split <;> rfl

theorem pushes_callEffect_of_ne_newobj (h : code ≠ Code.newobj) :
    (s.callEffect code).pushes = if s.result.isVoid then 0 else 1 := by
  rw [callEffect, beq_false_of_ne h, Bool.false_and, Bool.or_false]
  cases s.result.isVoid <;> rfl

theorem pushes_callEffect_newobj (s : Signature) : (s.callEffect Code.newobj).pushes =
    if s.hasThis = true ∨ s.result.isVoid = false then 1 else 0 := by
  rw [callEffect, beq_self_eq_true, Bool.true_and]
  simp only [Bool.or_eq_true, Bool.not_eq_true', or_comm]

/-- Of the code it only matters whether it is one of the two that count differently. -/
theorem callEffect_congr {code' : Code} (hnewobj : code = Code.newobj ↔ code' = Code.newobj)
    (hcalli : code = Code.calli ↔ code' = Code.calli) : s.callEffect code = s.callEffect code' := by
  have hmakes : (code == Code.newobj) = (code' == Code.newobj) := by
    rw [Bool.eq_iff_iff, beq_iff_eq, beq_iff_eq, hnewobj]
  have htakes : (code == Code.calli) = (code' == Code.calli) := by
    rw [Bool.eq_iff_iff, beq_iff_eq, beq_iff_eq, hcalli]
  rw [callEffect, callEffect, bne, bne, hmakes, htakes]

/-- What makes the receiver pops the arguments alone. -/
theorem CountsExactly.toInt_pops_newobj (h : s.CountsExactly Code.newobj) :
    (s.callEffect Code.newobj).pops.toInt = s.params.length := by
  have hcalli : Code.newobj ≠ Code.calli := by decide
  rw [h.toInt_pops, if_neg hcalli, if_neg fun hmade => hmade.2 rfl, Int.add_zero, Int.add_zero]

theorem CountsExactly.toInt_pops_of_ne_newobj (h : s.CountsExactly code)
    (hcode : code ≠ Code.newobj) : (s.callEffect code).pops.toInt = s.params.length +
      (if s.implicitThis = true then 1 else 0) + (if code = Code.calli then 1 else 0) := by
  simp only [h.toInt_pops, hcode, ne_eq, not_false_eq_true, and_true]

/-- Unless it is made by the call, a receiver counts the same listed and not listed. -/
theorem callEffect_listReceiver (hthis : s.implicitThis = true) (hcode : code ≠ Code.newobj)
    (receiver : SignatureType) : (s.listReceiver receiver).callEffect code = s.callEffect code := by
  have hpushes : ((s.listReceiver receiver).callEffect code).pushes =
      (s.callEffect code).pushes := by
    rw [pushes_callEffect_of_ne_newobj hcode, pushes_callEffect_of_ne_newobj hcode]
    rfl
  have hpops : ((s.listReceiver receiver).callEffect code).pops = (s.callEffect code).pops := by
    have hlength : (s.listReceiver receiver).params.length = s.params.length + 1 := rfl
    rw [pops_callEffect, pops_callEffect, receiverPops_of_ne_newobj hcode,
      receiverPops_of_ne_newobj hcode, implicitThis_listReceiver, hthis, if_pos rfl,
      if_neg Bool.false_ne_true, hlength, Int32.ofNat_add, Int32.add_zero]
    rfl
  exact congrArg₂ StackEffect.mk hpushes hpops

end Signature

/-! ### The four opcodes -/

/-- The opcodes of the standard set that enter a method and leave its result on the stack. -/
def Opcode.callFamily : List (String × Code) :=
  [("call", Code.call), ("callvirt", Code.callvirt), ("calli", Code.calli),
    ("newobj", Code.newobj)]

theorem Opcode.callFamily_standard : ∀ op ∈ standard, ∀ member ∈ callFamily,
    op.mnemonic? = some member.1 → op.flow = .member .call ∧ op.code = member.2 := by
  decide +kernel

namespace Instruction

variable {ρ : Type} {i j : Instruction ρ} {s : Signature} {mnemonic : String}

/-- The instruction is the one with the given mnemonic in the standard set, and its operand is a
method with the given signature. -/
structure Calls (i : Instruction ρ) (mnemonic : String) (s : Signature) : Prop where
  standard : i.opcode ∈ Opcode.standard
  named : i.opcode.mnemonic? = some mnemonic
  method : ∃ m, i.operand = .payload (.method m) ∧ m.sig = some s

/-- Every opcode of the family can be put on every signature. -/
theorem exists_calls (s : Signature) {mnemonic : String}
    (hmnemonic : mnemonic ∈ Opcode.callFamily.map Prod.fst) :
    ∃ i : Instruction Empty, i.Calls mnemonic s := by
  have hlisted : ∀ name ∈ Opcode.callFamily.map Prod.fst, ∃ op ∈ Opcode.standard,
      op.mnemonic? = some name := by decide +kernel
  obtain ⟨op, hop, hname⟩ := hlisted mnemonic hmnemonic
  exact ⟨op.onMethod s, hop, hname, _, rfl, rfl⟩

/-- An instruction of the family has the effect that the signature has on its code. -/
theorem Calls.effect_eq {code : Code} (h : i.Calls mnemonic s)
    (hmember : (mnemonic, code) ∈ Opcode.callFamily) (returns : Bool) :
    i.effect returns = s.callEffect code := by
  obtain ⟨hflow, hcode⟩ := Opcode.callFamily_standard i.opcode h.standard _ hmember h.named
  rw [effect_of_callee? hflow (callee?_eq_some_iff.mpr h.method), hcode]

/-- Listing the receiver changes no effect but that of the opcode which makes it. -/
theorem Calls.effect_listReceiver {receiver : SignatureType} (hthis : s.implicitThis = true)
    (hmnemonic : mnemonic ∈ ["call", "callvirt", "calli"]) (hi : i.Calls mnemonic s)
    (hj : j.Calls mnemonic (s.listReceiver receiver)) (returns : Bool) :
    j.effect returns = i.effect returns := by
  have hfamily : ∀ name ∈ ["call", "callvirt", "calli"], ∃ member ∈ Opcode.callFamily,
      member.1 = name ∧ member.2 ≠ Code.newobj := by decide
  obtain ⟨⟨_, code⟩, hmember, rfl, hcode⟩ := hfamily mnemonic hmnemonic
  rw [hj.effect_eq hmember, hi.effect_eq hmember, Signature.callEffect_listReceiver hthis hcode]

/-- **The effects of calls agree.** On one signature, with fewer than `2 ^ 31 - 3` parameters, a
call pushes one value unless the method returns none, and pops its arguments with the receiver that
is not listed. A virtual call has the same effect, and a call of an address pops one value more.
What makes the receiver pops the arguments alone, and pushes the receiver even where the method
returns nothing. To list the receiver among the parameters makes no difference to the others. -/
theorem effects_of_calls (hparams : s.params.length < 2 ^ 31 - 3)
    {call callvirt calli newobj : Instruction ρ} (hcall : call.Calls "call" s)
    (hcallvirt : callvirt.Calls "callvirt" s) (hcalli : calli.Calls "calli" s)
    (hnewobj : newobj.Calls "newobj" s) (returns : Bool) :
    (call.effect returns).pushes = (if s.result.isVoid then 0 else 1) ∧
    (call.effect returns).pops.toInt =
      s.params.length + (if s.hasThis = true ∧ s.explicitThis = false then 1 else 0) ∧
    callvirt.effect returns = call.effect returns ∧
    (calli.effect returns).pushes = (call.effect returns).pushes ∧
    (calli.effect returns).pops.toInt = (call.effect returns).pops.toInt + 1 ∧
    (newobj.effect returns).pops.toInt = s.params.length ∧
    (newobj.effect returns).pushes =
      (if s.hasThis = true ∨ s.result.isVoid = false then 1 else 0) ∧
    (call.effect returns).pops.toInt =
      (newobj.effect returns).pops.toInt + (if s.implicitThis then 1 else 0) ∧
    (s.hasThis = true → s.explicitThis = false → ∀ receiver,
      ∀ mnemonic ∈ ["call", "callvirt", "calli"], ∀ i j : Instruction ρ,
        i.Calls mnemonic s → j.Calls mnemonic (s.listReceiver receiver) →
          j.effect returns = i.effect returns) := by
  have hexact : ∀ code, s.CountsExactly code := Signature.countsExactly (by omega)
  have hcall' : call.effect returns = s.callEffect Code.call := hcall.effect_eq (by decide) returns
  have hcallvirt' : callvirt.effect returns = s.callEffect Code.callvirt :=
    hcallvirt.effect_eq (by decide) returns
  have hcalli' : calli.effect returns = s.callEffect Code.calli :=
    hcalli.effect_eq (by decide) returns
  have hnewobj' : newobj.effect returns = s.callEffect Code.newobj :=
    hnewobj.effect_eq (by decide) returns
  have hpops : (s.callEffect Code.call).pops.toInt =
      s.params.length + (if s.implicitThis = true then 1 else 0) := by
    rw [(hexact _).toInt_pops_of_ne_newobj (by decide), if_neg (by decide : Code.call ≠ Code.calli),
      Int.add_zero]
  rw [hcall', hcallvirt', hcalli', hnewobj']
  refine ⟨Signature.pushes_callEffect_of_ne_newobj (by decide), ?_,
    Signature.callEffect_congr (by decide) (by decide), ?_, ?_, (hexact _).toInt_pops_newobj,
    s.pushes_callEffect_newobj, ?_, ?_⟩
  · simp only [hpops, Signature.implicitThis_iff]
  · rw [Signature.pushes_callEffect_of_ne_newobj (by decide),
      Signature.pushes_callEffect_of_ne_newobj (by decide)]
  · rw [hpops, (hexact _).toInt_pops_of_ne_newobj (by decide), if_pos rfl]
  · rw [hpops, (hexact _).toInt_pops_newobj]
  · intro hthis hlisted receiver mnemonic hmnemonic i j hi hj
    exact hi.effect_listReceiver (Signature.implicitThis_iff.mpr ⟨hthis, hlisted⟩) hmnemonic hj
      returns

/-- A method that compares its receiver with two other values. -/
def comparison : Signature where
  convention := .hasThis
  result := { elementType := 0x08 }
  params := [{ elementType := 0x1C }, { elementType := 0x1C }]

/-- Called in four ways, the method pops three values, three, four and two, and pushes one. It pops
as many when it lists its receiver. -/
theorem effects_of_calls_comparison :
    ∃ call callvirt calli newobj : Instruction Empty,
      call.Calls "call" comparison ∧ callvirt.Calls "callvirt" comparison ∧
      calli.Calls "calli" comparison ∧ newobj.Calls "newobj" comparison ∧
      (call.effect true).pushes = 1 ∧ (call.effect true).pops.toInt = 3 ∧
      callvirt.effect true = call.effect true ∧ (calli.effect true).pops.toInt = 4 ∧
      (newobj.effect true).pushes = 1 ∧ (newobj.effect true).pops.toInt = 2 ∧
      ∃ listed : Instruction Empty,
        listed.Calls "calli" (comparison.listReceiver { elementType := 0x1C }) ∧
        listed.effect true = calli.effect true := by
  have hfamily : ∀ name ∈ ["call", "callvirt", "calli", "newobj"],
      name ∈ Opcode.callFamily.map Prod.fst := by decide
  obtain ⟨call, hcall⟩ := exists_calls comparison (hfamily "call" (by decide))
  obtain ⟨callvirt, hcallvirt⟩ := exists_calls comparison (hfamily "callvirt" (by decide))
  obtain ⟨calli, hcalli⟩ := exists_calls comparison (hfamily "calli" (by decide))
  obtain ⟨newobj, hnewobj⟩ := exists_calls comparison (hfamily "newobj" (by decide))
  obtain ⟨listed, hlisted⟩ := exists_calls (comparison.listReceiver { elementType := 0x1C })
    (hfamily "calli" (by decide))
  obtain ⟨hpushes, hpops, hvirtual, -, haddress, hmadePops, hmadePushes, -, hreceiver⟩ :=
    effects_of_calls (by decide) hcall hcallvirt hcalli hnewobj true
  exact ⟨call, callvirt, calli, newobj, hcall, hcallvirt, hcalli, hnewobj, hpushes, hpops, hvirtual,
    haddress.trans (by rw [hpops]; rfl), hmadePushes, hmadePops, listed, hlisted,
    hreceiver (by decide) (by decide) _ "calli" (by decide) calli listed hcalli hlisted⟩

end Instruction

end CilIsa
