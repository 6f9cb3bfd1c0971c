import CilIsa.Proofs.Instruction.Calling

/-!
# What the classes of an opcode promise

The name of a push class or of a pop class lists values, one word for each: `Popref_popi` stands for
two. An opcode without a variable class promises by its description alone what its instructions do
to the stack. In the standard set all of them keep the promise but one. `jmp` is described as
leaving the stack as it is, but like every opcode that enters a method it takes its effect from the
signature of that method where the signature is known (`Instruction.keepsPromise_of_static`).
-/

namespace CilIsa

/-- The number of values that the name of a push class lists. -/
def PushClass.listed (c : PushClass) : Int :=
  if c = .push0 then 0 else (Enumeration.name c).toList.count '_' + 1

/-- The number of values that the name of a pop class lists, or -1 for the whole stack. -/
def PopClass.listed (c : PopClass) : Int :=
  if c = .pop0 then 0 else if c = .popAll then -1 else (Enumeration.name c).toList.count '_' + 1

example : [PopClass.pop0, .pop1, .popref_popi, .popref_popi_popr8, .popAll].map PopClass.listed =
    [0, 1, 2, 3, -1] := by decide

theorem PushClass.toInt_count {c : PushClass} (h : c ≠ .varpush) : c.count.toInt = c.listed := by
  revert h
  cases c <;> decide

theorem PopClass.toInt_count {c : PopClass} (h : c ≠ .varpop) (returns : Bool) :
    (c.count returns).toInt = c.listed := by
  revert h
  cases c <;> cases returns <;> decide

namespace Opcode

/-- Neither class of the opcode is variable. -/
def HasStaticClasses (op : Opcode) : Prop :=
  op.push ≠ .member .varpush ∧ op.pop ≠ .member .varpop

instance : DecidablePred HasStaticClasses := fun _ => inferInstanceAs (Decidable (_ ∧ _))

/-- The classes of a standard opcode are members of their enumerations. -/
theorem classes_standard : ∀ op ∈ standard,
    (∃ push ∈ (Enumeration.members : List PushClass), op.push = .member push) ∧
    (∃ pop ∈ (Enumeration.members : List PopClass), op.pop = .member pop) := by
  decide +kernel

/-- Of the standard opcodes with static classes it is `jmp` that enters a method. -/
theorem flow_eq_call_iff_jmp : ∀ op ∈ standard, op.HasStaticClasses →
    (op.flow = .member .call ↔ op.mnemonic? = some "jmp") := by
  decide +kernel

theorem columns_jmp : ∀ op ∈ standard, op.mnemonic? = some "jmp" →
    op.push = .member .push0 ∧ op.pop = .member .pop0 ∧
      op.code ≠ Code.newobj ∧ op.code ≠ Code.calli := by
  decide +kernel

end Opcode

namespace Instruction

variable {ρ : Type} {i : Instruction ρ} {returns : Bool}

/-- The effect of the instruction is the one that the classes of its opcode list. -/
def KeepsPromise (i : Instruction ρ) (returns : Bool) : Prop :=
  ∃ push pop, i.opcode.push = .member push ∧ i.opcode.pop = .member pop ∧
    (i.effect returns).pushes.toInt = push.listed ∧ (i.effect returns).pops.toInt = pop.listed

/-- An instruction that enters no method keeps the promise of static classes. -/
theorem keepsPromise_of_flow_ne_call {push : PushClass} {pop : PopClass}
    (hflow : i.opcode.flow ≠ .member .call) (hstatic : i.opcode.HasStaticClasses)
    (hpush : i.opcode.push = .member push) (hpop : i.opcode.pop = .member pop) :
    i.KeepsPromise returns := by
  have hpushStatic : push ≠ .varpush := fun h => hstatic.1 (by rw [hpush, h])
  have hpopStatic : pop ≠ .varpop := fun h => hstatic.2 (by rw [hpop, h])
  refine ⟨push, pop, hpush, hpop, ?_, ?_⟩
  · rw [effect_of_classes hflow hpush hpop, PushClass.toInt_count hpushStatic]
  · rw [effect_of_classes hflow hpush hpop, PopClass.toInt_count hpopStatic]

/-- `jmp` keeps its promise where the signature is not known: no effect is the one it lists. -/
theorem keepsPromise_of_jmp (hflow : i.opcode.flow = .member .call)
    (hpush : i.opcode.push = .member .push0) (hpop : i.opcode.pop = .member .pop0)
    (hcallee : i.callee? = none) : i.KeepsPromise returns := by
  refine ⟨.push0, .pop0, hpush, hpop, ?_, ?_⟩
  · rw [effect_of_callee?_eq_none hflow hcallee]
    decide
  · rw [effect_of_callee?_eq_none hflow hcallee]
    decide

/-- **Which promises are kept.** In the standard set an instruction has the effect that the classes
of its opcode list, whatever its operand and whether or not the method around it returns a value, if
these classes are static and it is not `jmp` on a method whose signature is known. There the result
and the arguments of the method are counted, as for `call`. -/
theorem keepsPromise_of_static (hop : i.opcode ∈ Opcode.standard)
    (hstatic : i.opcode.HasStaticClasses) (returns : Bool) :
    (i.opcode.mnemonic? ≠ some "jmp" ∨ i.callee? = none → i.KeepsPromise returns) ∧
    (∀ s, i.opcode.mnemonic? = some "jmp" → i.callee? = some s →
      (i.effect returns).pushes = (if s.result.isVoid then 0 else 1) ∧
      (i.effect returns).pops =
        Int32.ofNat (s.params.length + if s.implicitThis then 1 else 0)) := by
  have hcall := Opcode.flow_eq_call_iff_jmp i.opcode hop hstatic
  constructor
  · intro h
    by_cases hjmp : i.opcode.mnemonic? = some "jmp"
    · obtain ⟨hpush, hpop, -⟩ := Opcode.columns_jmp i.opcode hop hjmp
      exact keepsPromise_of_jmp (hcall.mpr hjmp) hpush hpop (h.resolve_left (not_not.mpr hjmp))
    · obtain ⟨⟨push, -, hpush⟩, pop, -, hpop⟩ := Opcode.classes_standard i.opcode hop
      exact keepsPromise_of_flow_ne_call (mt hcall.mp hjmp) hstatic hpush hpop
  · intro s hjmp hs
    obtain ⟨-, -, hnewobj, hcalli⟩ := Opcode.columns_jmp i.opcode hop hjmp
    rw [effect_of_callee? (hcall.mpr hjmp) hs]
    exact ⟨Signature.pushes_callEffect_of_ne_newobj hnewobj,
      Signature.pops_callEffect_of_ne hnewobj hcalli⟩

/-- On a method with a receiver `dup` pops one value and pushes two as it does everywhere, and `jmp`
pops the receiver. -/
theorem keepsPromise_of_static_dup :
    ∃ dup ∈ Opcode.standard, ∃ jmp ∈ Opcode.standard,
      dup.mnemonic? = some "dup" ∧ jmp.mnemonic? = some "jmp" ∧
      ((dup.onMethod { convention := .hasThis }).effect true).pushes.toInt = 2 ∧
      ((dup.onMethod { convention := .hasThis }).effect true).pops.toInt = 1 ∧
      ((jmp.onMethod { convention := .hasThis }).effect true).pushes = 0 ∧
      ((jmp.onMethod { convention := .hasThis }).effect true).pops = 1 := by
  obtain ⟨dup, hdup, hdupName, hdupStatic, hdupPush, hdupPop⟩ : ∃ op ∈ Opcode.standard,
      op.mnemonic? = some "dup" ∧ op.HasStaticClasses ∧ op.push = .member .push1_push1 ∧
        op.pop = .member .pop1 := by decide +kernel
  obtain ⟨jmp, hjmp, hjmpName, hjmpStatic⟩ : ∃ op ∈ Opcode.standard,
      op.mnemonic? = some "jmp" ∧ op.HasStaticClasses := by decide +kernel
  have hother : dup.mnemonic? ≠ some "jmp" := by
    rw [hdupName]
    decide
  obtain ⟨hkept, -⟩ := keepsPromise_of_static (i := dup.onMethod { convention := .hasThis }) hdup
    hdupStatic true
  obtain ⟨-, hknown⟩ := keepsPromise_of_static (i := jmp.onMethod { convention := .hasThis }) hjmp
    hjmpStatic true
  obtain ⟨push, pop, hpush, hpop, hpushes, hpops⟩ := hkept (.inl hother)
  obtain rfl : push = .push1_push1 := Coded.member.inj (hpush.symm.trans hdupPush)
  obtain rfl : pop = .pop1 := Coded.member.inj (hpop.symm.trans hdupPop)
  obtain ⟨hjmpPushes, hjmpPops⟩ := hknown { convention := .hasThis } hjmpName rfl
  exact ⟨dup, hdup, jmp, hjmp, hdupName, hjmpName, hpushes.trans (by decide),
    hpops.trans (by decide), hjmpPushes, hjmpPops⟩

/-- A jump to a method that takes one argument and returns nothing. -/
def jumpToUnary : Instruction Empty :=
  Opcode.onMethod ⟨0x27, some "jmp", .member .inlineMethod, .member .call, .member .primitive,
    .member .push0, .member .pop0⟩ { params := [{ elementType := 0x08 }] }

/-- The classes of `jmp` list nothing, but it pops what the method takes. -/
theorem effect_jumpToUnary :
    jumpToUnary.opcode ∈ Opcode.standard ∧ jumpToUnary.opcode.HasStaticClasses ∧
    jumpToUnary.effect false = ⟨0, 1⟩ ∧ ¬jumpToUnary.KeepsPromise false := by
  have heffect : jumpToUnary.effect false = ⟨0, 1⟩ := by decide
  refine ⟨by decide +kernel, by decide, heffect, ?_⟩
  rintro ⟨push, pop, -, hpop, -, hpops⟩
  obtain rfl : PopClass.pop0 = pop := Coded.member.inj hpop
  rw [heffect] at hpops
  exact absurd hpops (by decide)

end Instruction

end CilIsa
