import CilIsa.Proofs.Instruction.Calling

/-!
# What an effect depends on

An instruction takes its effect from one of two sources, and each shuts out the other. Outside of
calls only the two classes of the opcode count, and whether the method around it returns a value
where the pop class is variable (`Instruction.StaticallyAlike`). In a call nothing counts but what
the signature says of its result, of its receiver and of the number of its parameters, and whether
the code is one of the two that count differently (`Instruction.CallsAlike`). Instructions that are
alike in this sense have the same effect, however they differ otherwise
(`Instruction.effect_eq_of_alike`).
-/

namespace CilIsa

/-! ### Classes -/

theorem PopClass.count_eq_of_ne_varpop {c : PopClass} (h : c ≠ .varpop) (returns returns' : Bool) :
    c.count returns = c.count returns' := by
  cases c with
  | varpop => exact absurd rfl h
  | _ => rfl

namespace Opcode

variable {op op' : Opcode}

theorem staticEffect_congr (hpush : op.push = op'.push) (hpop : op.pop = op'.pop)
    (returns : Bool) : op.staticEffect returns = op'.staticEffect returns := by
  rw [staticEffect, staticEffect, hpush, hpop]

/-- Unless the pop class is variable, it does not matter what the method around returns. -/
theorem staticEffect_eq_of_ne_varpop (h : op.pop ≠ .member .varpop) (returns returns' : Bool) :
    op.staticEffect returns = op.staticEffect returns' := by
  rw [staticEffect, staticEffect]
  cases hpop : op.pop with
  | member pop =>
    have hne : pop ≠ .varpop := fun hvar => h (by rw [hpop, hvar])
    exact congrArg (StackEffect.mk _) (PopClass.count_eq_of_ne_varpop hne returns returns')
  | outside code unlisted => rfl

theorem pops_staticEffect_varpop (h : op.pop = .member .varpop) (returns : Bool) :
    (op.staticEffect returns).pops = if returns then 1 else 0 := by
  rw [staticEffect, h]
  rfl

/-- The pushes never depend on what the method around returns. -/
theorem pushes_staticEffect_congr (hpush : op.push = op'.push) (returns returns' : Bool) :
    (op.staticEffect returns).pushes = (op'.staticEffect returns').pushes := by
  rw [staticEffect, staticEffect, hpush]

end Opcode

/-! ### Signatures -/

/-- The two signatures differ in nothing that is counted in a call. -/
structure Signature.Alike (s t : Signature) : Prop where
  result : s.result.isVoid = t.result.isVoid
  hasThis : s.hasThis = t.hasThis
  explicitThis : s.explicitThis = t.explicitThis
  params : s.params.length = t.params.length

namespace Signature.Alike

variable {s t : Signature}

theorem implicitThis (h : s.Alike t) : s.implicitThis = t.implicitThis := by
  rw [Signature.implicitThis, Signature.implicitThis, h.hasThis, h.explicitThis]

/-- Signatures that are alike have the same effect on every code. -/
theorem callEffect_eq (h : s.Alike t) (code : Code) : s.callEffect code = t.callEffect code := by
  rw [callEffect, callEffect, h.result, h.hasThis, h.implicitThis, h.params]

end Signature.Alike

/-! ### Instructions -/

namespace Instruction

variable {ρ σ : Type} {i : Instruction ρ} {j : Instruction σ} {returns returns' : Bool}

/-- The operand of the instruction is a method with the given signature. -/
def Resolves (i : Instruction ρ) (s : Signature) : Prop :=
  ∃ m, i.operand = .payload (.method m) ∧ m.sig = some s

theorem callee?_eq_none_iff : i.callee? = none ↔ ∀ s, ¬i.Resolves s := by
  rw [Option.eq_none_iff_forall_ne_some]
  exact forall_congr' fun s => not_congr callee?_eq_some_iff

/-- Neither of the two enters a method, and their classes are the same. -/
structure StaticallyAlike (i : Instruction ρ) (j : Instruction σ) : Prop where
  left : i.opcode.flow ≠ .member .call
  right : j.opcode.flow ≠ .member .call
  push : i.opcode.push = j.opcode.push
  pop : i.opcode.pop = j.opcode.pop

/-- Both of the two enter a method, their codes are the same as far as they count, and so are the
signatures, if there are any. -/
structure CallsAlike (i : Instruction ρ) (j : Instruction σ) : Prop where
  left : i.opcode.flow = .member .call
  right : j.opcode.flow = .member .call
  newobj : i.opcode.code = Code.newobj ↔ j.opcode.code = Code.newobj
  calli : i.opcode.code = Code.calli ↔ j.opcode.code = Code.calli
  signatures : ((∀ s, ¬i.Resolves s) ∧ ∀ t, ¬j.Resolves t) ∨
    ∃ s t, i.Resolves s ∧ j.Resolves t ∧ s.Alike t

theorem StaticallyAlike.effect_eq (h : i.StaticallyAlike j)
    (hreturns : i.opcode.pop ≠ .member .varpop ∨ returns = returns') :
    i.effect returns = j.effect returns' := by
  have hclasses : i.opcode.staticEffect returns' = j.opcode.staticEffect returns' :=
    Opcode.staticEffect_congr h.push h.pop returns'
  rw [effect_of_flow_ne_call h.left, effect_of_flow_ne_call h.right, ← hclasses]
  rcases hreturns with hpop | rfl
  · exact Opcode.staticEffect_eq_of_ne_varpop hpop returns returns'
  · rfl

theorem StaticallyAlike.pushes_effect_eq (h : i.StaticallyAlike j) (returns returns' : Bool) :
    (i.effect returns).pushes = (j.effect returns').pushes := by
  rw [effect_of_flow_ne_call h.left, effect_of_flow_ne_call h.right]
  exact Opcode.pushes_staticEffect_congr h.push returns returns'

theorem StaticallyAlike.pops_effect_varpop (h : i.StaticallyAlike j)
    (hpop : i.opcode.pop = .member .varpop) (returns : Bool) :
    (i.effect returns).pops = if returns then 1 else 0 := by
  rw [effect_of_flow_ne_call h.left]
  exact Opcode.pops_staticEffect_varpop hpop returns

theorem CallsAlike.effect_eq (h : i.CallsAlike j) (returns returns' : Bool) :
    i.effect returns = j.effect returns' := by
  rcases h.signatures with ⟨hi, hj⟩ | ⟨s, t, hi, hj, halike⟩
  · rw [effect_of_callee?_eq_none h.left (callee?_eq_none_iff.mpr hi),
      effect_of_callee?_eq_none h.right (callee?_eq_none_iff.mpr hj)]
  · calc i.effect returns
        = s.callEffect i.opcode.code :=
          effect_of_callee? h.left (callee?_eq_some_iff.mpr hi) returns
      _ = s.callEffect j.opcode.code := Signature.callEffect_congr h.newobj h.calli
      _ = t.callEffect j.opcode.code := halike.callEffect_eq j.opcode.code
      _ = j.effect returns' :=
          (effect_of_callee? h.right (callee?_eq_some_iff.mpr hj) returns').symm

/-- **Effects depend on nothing else.** Two instructions that enter no method and have the same
classes have the same effect in all methods, unless the pop class is variable: then they pop one
value in a method that returns a value, none in another, and push the same in both. Two instructions
that enter methods have the same effect in all methods if their signatures and their codes are
alike, or if the signatures are missing. -/
theorem effect_eq_of_alike (i : Instruction ρ) (j : Instruction σ) (returns returns' : Bool) :
    (i.StaticallyAlike j → i.opcode.pop ≠ .member .varpop ∨ returns = returns' →
      i.effect returns = j.effect returns') ∧
    (i.StaticallyAlike j → i.opcode.pop = .member .varpop →
      (i.effect returns).pops = (if returns then 1 else 0) ∧
      (i.effect returns).pushes = (j.effect returns').pushes) ∧
    (i.CallsAlike j → i.effect returns = j.effect returns') := by
  refine ⟨fun h hreturns => h.effect_eq hreturns, fun h hpop => ⟨?_, ?_⟩, fun h => ?_⟩
  · exact h.pops_effect_varpop hpop returns
  · exact h.pushes_effect_eq returns returns'
  · exact h.effect_eq returns returns'

/-- Returns from a method. -/
def returning : Instruction Empty where
  opcode := ⟨0x2A, some "ret", .member .inlineNone, .member .exit, .member .primitive,
    .member .push0, .member .varpop⟩

/-- Shares nothing with `returning` but the classes. -/
def yielding : Instruction Empty where
  opcode := ⟨0xFE77, some "yield", .member .inlineString, .member .next, .member .reserved,
    .member .push0, .member .varpop⟩
  operand := .payload (.string "result")
  offset := 12

/-- A virtual call of a method with a receiver and two arguments. -/
def virtualCall : Instruction Empty where
  opcode := ⟨0x6F, some "callvirt", .member .inlineMethod, .member .call, .member .objectModel,
    .member .varpush, .member .varpop⟩
  operand := .payload (.method ⟨⟨1, "Compare"⟩,
    some ⟨0x20, { elementType := 0x08 }, [{ elementType := 0x08 }, { elementType := 0x08 }]⟩⟩)

/-- Shares nothing with `virtualCall` but what is counted. -/
def tailCall : Instruction Empty where
  opcode := ⟨0x27, some "tail", .member .inlineNone, .member .call, .member .primitive,
    .member .push0, .member .popAll⟩
  operand := .payload (.method ⟨⟨2, "Merge"⟩,
    some ⟨0x35, { elementType := 0x1C }, [{ elementType := 0x0E }, { elementType := 0x01 }]⟩⟩)
  offset := 9

theorem effect_eq_of_alike_disguised :
    returning.StaticallyAlike yielding ∧ virtualCall.CallsAlike tailCall ∧
    returning.effect true = yielding.effect true ∧ (returning.effect true).pops = 1 ∧
    (yielding.effect false).pushes = (returning.effect true).pushes ∧
    virtualCall.effect true = tailCall.effect false ∧ virtualCall.effect true = ⟨1, 3⟩ := by
  have hstatic : returning.StaticallyAlike yielding := ⟨by decide, by decide, rfl, rfl⟩
  have hcalls : virtualCall.CallsAlike tailCall :=
    ⟨rfl, rfl, by decide, by decide, .inr ⟨_, _, ⟨_, rfl, rfl⟩, ⟨_, rfl, rfl⟩, by decide, by decide,
      by decide, rfl⟩⟩
  obtain ⟨hsame, -, -⟩ := effect_eq_of_alike returning yielding true true
  obtain ⟨-, hvariable, -⟩ := effect_eq_of_alike returning yielding true false
  obtain ⟨-, -, hcall⟩ := effect_eq_of_alike virtualCall tailCall true false
  obtain ⟨hpops, hpushes⟩ := hvariable hstatic rfl
  exact ⟨hstatic, hcalls, hsame hstatic (.inr rfl), hpops, hpushes.symm, hcall hcalls, by decide⟩

end Instruction

end CilIsa
