import Mathlib.Data.List.ReduceOption
import CilIsa.Proofs.Opcode.Standard
import CilIsa.Proofs.Session.Writes

/-!
# What a write shows elsewhere

Operands refer to cells, so that a write to one cell is seen through every branch and every switch
that leads to it, be it the written instruction itself. What follows a reference, and therefore can
change with a cell it does not stand in, are the summaries in a snapshot. Nothing else does: the size
and the effects, what the instruction can jump to, leave or load are read off the instruction alone.

`Store.snapshot_eq_mapSummaries` says so of any two stores: if the summaries of all cells that an
instruction refers to are changed in some way, its snapshot is changed in the summaries in that way
and stays the same otherwise. What a step does to the snapshots of a store follows from what it does
to the summaries (`Session.frame_step`). No reference of a store leads nowhere, and this is needed:
through such a reference a write could make a target appear.
-/

namespace CilIsa

variable {ρ σ τ : Type}

namespace Operand

/-! ### Following references -/

/-- Only what is done with the references of the operand matters. -/
theorem resolve_congr {f g : ρ → Option σ} {o : Operand ρ}
    (h : ∀ ref ∈ o.references, f ref = g ref) : o.resolve f = o.resolve g := by
  rcases o with p | k
  · cases p with
    | target ref =>
      have href : f ref = g ref := h ref List.mem_cons_self
      rw [resolve, resolve, Payload.resolve, Payload.resolve, href]
    | targets refs =>
      have hrefs : refs.map (·.bind f) = refs.map (·.bind g) := by
        refine List.map_congr_left fun ref href => ?_
        cases ref with
        | none => rfl
        | some r => exact h r (List.reduceOption_mem_iff.mpr href)
      rw [resolve, resolve, Payload.resolve, Payload.resolve, hrefs]
    | _ => rfl
  · rfl

/-- The operand with every reference replaced. -/
def map (f : ρ → σ) (o : Operand ρ) : Operand σ := o.resolve fun ref => some (f ref)

/-- To follow references and then replace what they lead to is to follow them another way. -/
theorem map_resolve (f : σ → τ) (follow : ρ → Option σ) (o : Operand ρ) :
    (o.resolve follow).map f = o.resolve fun ref => (follow ref).map f := by
  rcases o with p | k
  · cases p with
    | target ref => cases h : follow ref <;> simp [map, resolve, Payload.resolve, h]
    | targets refs =>
      have hrefs : ∀ ref : Option ρ,
          (ref.bind follow).bind (fun t => some (f t)) = ref.bind fun r => (follow r).map f := by
        rintro (_ | r)
        · rfl
        · cases h : follow r <;> simp [h]
      simp [map, resolve, Payload.resolve, hrefs]
    | _ => rfl
  · rfl

@[simp] theorem target?_map (f : ρ → σ) (o : Operand ρ) : (o.map f).target? = o.target?.map f := by
  rcases o with p | k
  · cases p <;> rfl
  · rfl

@[simp] theorem targets?_map (f : ρ → σ) (o : Operand ρ) :
    (o.map f).targets? = o.targets?.map (List.map (Option.map f)) := by
  rcases o with p | k
  · cases p with
    | targets refs =>
      have hrefs : ∀ ref : Option ρ, ref.bind (fun r => some (f r)) = ref.map f := by
        rintro (_ | r) <;> rfl
      simp [map, resolve, Payload.resolve, targets?, hrefs]
    | _ => rfl
  · rfl

end Operand

/-! ### Summaries in a snapshot -/

namespace Summary

/-- The new summary in place of one of the same cell. -/
def replace (new old : Summary) : Summary := if old.id = new.id then new else old

/-- The summary with another offset, if it is of the given cell. -/
def moveTo (id : CellId) (offset : UInt32) (old : Summary) : Summary :=
  if old.id = id then { old with offset } else old

end Summary

/-- The snapshot with every summary in it changed. Three of its parts have summaries in them. -/
def Snapshot.mapSummaries (f : Summary → Summary) (shown : Snapshot) : Snapshot :=
  { shown with
    operand := shown.operand.map f
    target := shown.target.map f
    targets := shown.targets.map (List.map (Option.map f)) }

namespace Store

/-- The snapshot of a cell. -/
def snapshot? (s : Store) (id : CellId) : Option Snapshot :=
  (s.get? id).map fun i => (s.snapshot i).value

variable {s s' : Store} {x y ref : CellId} {i j : Instruction CellId}

theorem snapshot?_of_get? (h : s.get? x = some i) : s.snapshot? x = some (s.snapshot i).value := by
  rw [snapshot?, h, Option.map_some]

/-- In two stores an instruction is shown with the summaries that these have, and else the same. -/
theorem snapshot_eq_mapSummaries {f : Summary → Summary}
    (h : ∀ ref ∈ i.operand.references, s'.summary? ref = (s.summary? ref).map f) :
    (s'.snapshot i).value = (s.snapshot i).value.mapSummaries f := by
  have hoperand : i.operand.resolve s'.summary? = (i.operand.resolve s.summary?).map f := by
    rw [Operand.map_resolve]
    exact Operand.resolve_congr h
  simp [snapshot, Snapshot.mapSummaries, hoperand]

/-! ### Writing a cell -/

theorem summary?_put (s : Store) (y ref : CellId) (i : Instruction CellId) :
    (s.put y i).summary? ref =
      if ref = y then some ⟨y, i.opcode.mnemonic, i.offset⟩ else s.summary? ref := by
  rw [summary?, summary?, get?_put]
  split
  · next h => rw [h, Option.map_some]
  · rfl

/-- The summary of a written cell is replaced wherever it was shown before. -/
theorem summary?_put_eq_replace (h : (s.get? ref).isSome = true) (y : CellId)
    (i : Instruction CellId) : (s.put y i).summary? ref =
      (s.summary? ref).map (Summary.replace ⟨y, i.opcode.mnemonic, i.offset⟩) := by
  obtain ⟨j, hj⟩ := Option.isSome_iff_exists.mp h
  rw [summary?_put, summary?, hj, Option.map_some, Option.map_some, Summary.replace]
  split <;> rfl

/-- To move an instruction shows another offset in the summaries of its cell. -/
theorem summary?_put_moveTo (h : s.get? y = some i) (offset : UInt32) (ref : CellId) :
    (s.put y (i.moveTo offset)).summary? ref = (s.summary? ref).map (Summary.moveTo y offset) := by
  rw [summary?_put]
  split
  · next href =>
    rw [href, summary?, h, Option.map_some, Option.map_some, Summary.moveTo, if_pos rfl]
    rfl
  · next href =>
    rw [summary?]
    cases s.get? ref with
    | none => rfl
    | some j => simp [Summary.moveTo, href]

/-- **Frame.** A written cell is seen from another one in the summaries that refer to it only. -/
theorem snapshot?_put_of_ne (hs : s.Closed) (h : x ≠ y) (i : Instruction CellId) :
    (s.put y i).snapshot? x = (s.snapshot? x).map
      (Snapshot.mapSummaries (Summary.replace ⟨y, i.opcode.mnemonic, i.offset⟩)) := by
  rw [snapshot?, get?_put, if_neg h, snapshot?]
  cases hx : s.get? x with
  | none => rfl
  | some j =>
    refine congrArg some (snapshot_eq_mapSummaries fun ref href => ?_)
    exact summary?_put_eq_replace (hs x j hx ref href) y i

/-- The offset of an instruction is shown, and nothing that is shown beside it depends on it. -/
theorem snapshot_moveTo (s : Store) (i : Instruction CellId) (offset : UInt32) :
    (s.snapshot (i.moveTo offset)).value = { (s.snapshot i).value with offset } := by
  simp only [snapshot, Traced.value_bind, Traced.value_pure, Instruction.value_measure]
  rfl

/-- A moved instruction is shown at its new offset, also in the summaries of itself. -/
theorem snapshot?_put_moveTo (h : s.get? y = some i) (offset : UInt32) :
    (s.put y (i.moveTo offset)).snapshot? y = (s.snapshot? y).map fun old =>
      { old.mapSummaries (Summary.moveTo y offset) with offset } := by
  have hget : (s.put y (i.moveTo offset)).get? y = some (i.moveTo offset) := by
    rw [get?_put, if_pos rfl]
  have hshown : ((s.put y (i.moveTo offset)).snapshot (i.moveTo offset)).value =
      (s.snapshot (i.moveTo offset)).value.mapSummaries (Summary.moveTo y offset) :=
    snapshot_eq_mapSummaries fun ref _ => summary?_put_moveTo h offset ref
  rw [snapshot?_of_get? hget, snapshot?_of_get? h, hshown, snapshot_moveTo]
  rfl

/-- Two cells with the same instruction are shown the same, wherever this leads. -/
theorem snapshot?_put_copy (h : s.get? x = some i) (y : CellId) :
    (s.put y i).snapshot? x = some ((s.put y i).snapshot i).value ∧
      (s.put y i).snapshot? y = some ((s.put y i).snapshot i).value := by
  have hx : (s.put y i).get? x = some i := by
    rw [get?_put, h, ite_self]
  have hy : (s.put y i).get? y = some i := by
    rw [get?_put, if_pos rfl]
  exact ⟨snapshot?_of_get? hx, snapshot?_of_get? hy⟩

end Store

namespace Session

/-- **What a step shows.** Let a step follow any run that starts with an empty store. If it writes a
cell, every other cell is shown as before, but for the summaries of the written cell, which are new.
A moved instruction is shown at its new offset, also in the summaries of itself, and else as before.
After a copy both cells are shown the same. A step without a cell to write, and one that is rejected
or misses a cell, leave the store as it is. -/
theorem frame_step (tracing : Bool) (steps : List Step) (st : Step) :
    let before := (run { tracing } steps).1
    let after := (before.step st).1
    let reply := (before.step st).2.reply
    (∀ y, st.cell? = some y → reply.Done →
      ∃ i, after.store.get? y = some i ∧
        ∀ x, x ≠ y → after.store.snapshot? x = (before.store.snapshot? x).map
          (Snapshot.mapSummaries (Summary.replace ⟨y, i.opcode.mnemonic, i.offset⟩))) ∧
    (∀ y offset, st = .moveTo y offset →
      after.store.snapshot? y = (before.store.snapshot? y).map fun old =>
        { old.mapSummaries (Summary.moveTo y offset) with offset }) ∧
    (∀ x y, st = .copy x y → (before.store.get? x).isSome = true →
      ∃ shown, reply = .snapshot shown ∧ after.store.snapshot? x = some shown ∧
        after.store.snapshot? y = some shown) ∧
    (st.cell? = none ∨ ¬reply.Done → after.store = before.store) := by
  intro before after reply
  have hclosed : before.store.Closed := Store.closed_run Store.closed_empty steps
  refine ⟨fun y hcell hdone => ?_, ?_, ?_, fun hkept => ?_⟩
  · obtain ⟨i, hwrites⟩ := Store.exists_writes_iff.mpr ⟨hcell, hdone⟩
    have hstore : after.store = before.store.put y i := Store.store_act_of_writes hwrites
    rw [hstore]
    refine ⟨i, by rw [Store.get?_put, if_pos rfl], fun x hx => ?_⟩
    exact Store.snapshot?_put_of_ne hclosed hx i
  · rintro y offset rfl
    cases hget : before.store.get? y with
    | none =>
      have hstore : after.store = before.store := by simp [after, step, Store.act, hget]
      rw [hstore, Store.snapshot?, hget]
      rfl
    | some i =>
      have hstore : after.store = before.store.put y (i.moveTo offset) :=
        Store.store_act_of_writes (.moveTo hget)
      rw [hstore]
      exact Store.snapshot?_put_moveTo hget offset
  · rintro x y rfl hsome
    obtain ⟨i, hget⟩ := Option.isSome_iff_exists.mp hsome
    have hstore : after.store = before.store.put y i := Store.store_act_of_writes (.copy hget)
    have hreply : reply = .snapshot ((before.store.put y i).snapshot i).value := by
      simp [reply, step, Store.act, hget, Store.fill]
    rw [hstore]
    exact ⟨_, hreply, Store.snapshot?_put_copy hget y⟩
  · refine Store.store_act_of_not_writes fun y i hwrites => ?_
    obtain ⟨hcell, hdone⟩ := Store.exists_writes_iff.mp ⟨i, hwrites⟩
    rcases hkept with hnone | hnot
    · cases hnone.symm.trans hcell
    · exact hnot hdone

/-- A branch to itself, a switch to the branch, nowhere and to itself, and a branch to nothing, none
of them checked. -/
def sharedSteps : List Step := [
  .place "a" Opcode.branchShort (.missing .target), .copy "a" "b", .copy "a" "c",
  .place "a" Opcode.branchShort (.payload (.target "a")),
  .place "b" Opcode.switch (.payload (.targets [some "a", none, some "b"]))]

/-- The branch is moved, and the switch shows it; then the switch takes its place, and both are
shown the same, although the one leads to the other. -/
theorem frame_step_shared :
    let before := (run { tracing := true } sharedSteps).1
    let moved := (before.step (.moveTo "a" 7)).1
    let copied := (before.step (.copy "b" "a")).1
    moved.store.snapshot? "b" = (before.store.snapshot? "b").map
      (Snapshot.mapSummaries (Summary.replace ⟨"a", "br.s", 7⟩)) ∧
    (moved.store.snapshot? "b").bind Snapshot.targets =
      some [some ⟨"a", "br.s", 7⟩, none, some ⟨"b", "switch", 0⟩] ∧
    (moved.store.snapshot? "a").bind Snapshot.target = some ⟨"a", "br.s", 7⟩ ∧
    (copied.store.snapshot? "b").isSome = true ∧
    copied.store.snapshot? "b" = copied.store.snapshot? "a" ∧
    (before.step (.create "c" Opcode.nop (.int8 5))).1.store = before.store := by
  intro before moved copied
  obtain ⟨hother, hself, -, -⟩ := frame_step true sharedSteps (.moveTo "a" 7)
  obtain ⟨-, -, hcopy, -⟩ := frame_step true sharedSteps (.copy "b" "a")
  obtain ⟨-, -, -, hkept⟩ := frame_step true sharedSteps (.create "c" Opcode.nop (.int8 5))
  obtain ⟨i, hget, hframe⟩ := hother "a" rfl trivial
  have hsummary : (⟨"a", i.opcode.mnemonic, i.offset⟩ : Summary) = ⟨"a", "br.s", 7⟩ := by
    cases hget
    rfl
  have hb := hframe "b" (by decide)
  rw [hsummary] at hb
  obtain ⟨shown, -, hsource, hdestination⟩ := hcopy "b" "a" rfl rfl
  refine ⟨hb, ?_, ?_, ?_, hsource.trans hdestination.symm, hkept (.inr id)⟩
  · decide +kernel
  · rw [show moved.store.snapshot? "a" = _ from hself "a" 7 rfl]
    decide +kernel
  · rw [hsource, Option.isSome_some]

end Session

end CilIsa
