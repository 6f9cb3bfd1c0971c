import CilIsa.Proofs.Instruction.Soundness
import CilIsa.Proofs.Session.Writes

/-!
# Validated sessions

A session is *validated* when nothing reaches its store but instructions paired from standard
opcodes, copies and new offsets (`Step.Validated`). Whatever the order of its steps, and however
often cells are overwritten, every instruction in the store of such a session is sound, and what it
refers to is there (`Session.sound_run`).

Soundness speaks of one instruction at a time, so the invariant is that all instructions of the
store are sound: a write keeps it because what is written is sound, either by itself
(`Instruction.sound_of_pair`) or because it was there before.
-/

namespace CilIsa

/-- The step puts nothing into the store that was not paired from a standard opcode. -/
def Step.Validated : Step → Prop
  | .create _ op _ => op ∈ Opcode.standard
  | .place _ _ _ => False
  | .get _ | .copy _ _ | .moveTo _ _ | .size _ | .effect _ _ | .same _ _ _ | .holds _ _
  | .trace _ => True

instance : DecidablePred Step.Validated
  | .create _ op _ => inferInstanceAs (Decidable (op ∈ Opcode.standard))
  | .place _ _ _ => inferInstanceAs (Decidable False)
  | .get _ | .copy _ _ | .moveTo _ _ | .size _ | .effect _ _ | .same _ _ _ | .holds _ _
  | .trace _ => inferInstanceAs (Decidable True)

namespace Store

/-! ### Sound stores -/

/-- Every instruction of the store is sound. -/
def Sound (s : Store) : Prop := ∀ id i, s.get? id = some i → i.Sound

theorem sound_empty : Sound {} := by
  intro id i h
  cases h

variable {s : Store} {st : Step} {id : CellId} {i : Instruction CellId}

/-- What a validated step writes into a sound store is sound. -/
theorem Writes.sound (h : s.Writes st id i) (hst : st.Validated) (hs : s.Sound) : i.Sound := by
  cases h with
  | create present paired => exact Instruction.sound_of_pair hst paired
  | place present => exact False.elim hst
  | copy found => exact hs _ _ found
  | @moveTo id offset j found => exact (hs id j found).moveTo offset

/-- Overwriting one cell by a sound instruction leaves the others as they are. -/
theorem Sound.put (hs : s.Sound) (id : CellId) (hi : i.Sound) : (s.put id i).Sound := by
  intro k j hget
  rw [get?_put] at hget
  split at hget
  · cases hget
    exact hi
  · exact hs k j hget

/-! ### Snapshots -/

/-- Where references lead somewhere, a snapshot shows the targets that the instruction has. -/
theorem jump_snapshot_iff (hs : s.Closed) (hget : s.get? id = some i) :
    Xor ((s.snapshot i).value.target.isSome = true) ((s.snapshot i).value.targets.isSome = true) ↔
      Xor (i.operand.target?.isSome = true) (i.operand.targets?.isSome = true) := by
  have hfollow : ∀ ref ∈ i.operand.references, (s.summary? ref).isSome = true := by
    intro ref href
    rw [summary?, Option.isSome_map]
    exact hs id i hget ref href
  have htarget : (s.snapshot i).value.target.isSome = i.operand.target?.isSome :=
    Operand.isSome_target?_resolve hfollow
  have htargets : (s.snapshot i).value.targets.isSome = i.operand.targets?.isSome :=
    Operand.isSome_targets?_resolve s.summary? i.operand
  rw [htarget, htargets]

end Store

namespace Session

/-- **Validated sessions stay sound.** After every validated run that starts with an empty store,
every instruction in the store is sound, refers to cells that are there only, and is shown with a
target or with targets, and not with both, exactly when it can jump. -/
theorem sound_run (tracing : Bool) (steps : List Step) (hsteps : ∀ st ∈ steps, st.Validated) :
    let store := (run { tracing } steps).1.store
    ∀ id i, store.get? id = some i →
      i.Sound ∧
      (∀ ref ∈ i.operand.references, (store.get? ref).isSome = true) ∧
      let shown := (store.snapshot i).value
      (shown.canJump = true ↔ Xor (shown.target.isSome = true) (shown.targets.isSome = true)) := by
  intro store id i hget
  have hsound : store.Sound := by
    refine invariant_run (fun st hst s id i hs hwrites => ?_) Store.sound_empty
    exact hs.put id (hwrites.sound (hsteps st hst) hs)
  have hclosed : store.Closed := Store.closed_run Store.closed_empty steps
  have hi : i.Sound := hsound id i hget
  exact ⟨hi, hclosed id i hget, hi.jump.trans (Store.jump_snapshot_iff hclosed hget).symm⟩

/-- A branch to itself, and a switch that leads to it, nowhere and back to the switch. The switch is
copied, and the copy moved. -/
def cyclicSteps : List Step := [
  .create "a" Opcode.nop .empty, .create "a" Opcode.branchShort (.target "a"), .copy "a" "b",
  .create "b" Opcode.switch (.targets [some "a", none, some "b"]), .copy "b" "c", .moveTo "c" 7]

theorem sound_run_cyclic :
    (∀ st ∈ cyclicSteps, st.Validated) ∧
    ∃ i, (run { tracing := true } cyclicSteps).1.store.get? "c" = some i ∧ i.Sound ∧
      i.operand = .payload (.targets [some "a", none, some "b"]) ∧ i.offset = 7 := by
  have hsteps : ∀ st ∈ cyclicSteps, st.Validated := by decide +kernel
  refine ⟨hsteps, _, rfl, ?_, rfl, rfl⟩
  exact (sound_run true cyclicSteps hsteps "c" _ rfl).1

end Session

end CilIsa
