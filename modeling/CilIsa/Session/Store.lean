import CilIsa.Instruction.Basic

/-!
# Stores of instructions

A store keeps instructions in cells that are known by their names. Operands refer to cells, not to
instructions: when a cell is overwritten, every branch to it leads to the new instruction.

`Store.get?_put` says all there is to say about overwriting.
-/

namespace CilIsa

/-- The name of a cell. -/
abbrev CellId := String

/-- Named cells, in the order in which they were first filled. -/
structure Store where
  cells : List (CellId × Instruction CellId) := []
  deriving DecidableEq

namespace Store

/-- The instruction in a cell. -/
def get? (s : Store) (id : CellId) : Option (Instruction CellId) := s.cells.lookup id

/-- The cells with one of them overwritten, or with a new one at the end. -/
def putCell (id : CellId) (i : Instruction CellId) :
    List (CellId × Instruction CellId) → List (CellId × Instruction CellId)
  | [] => [(id, i)]
  | cell :: rest => if cell.1 = id then (id, i) :: rest else cell :: putCell id i rest

/-- The store with an instruction put into a cell. -/
def put (s : Store) (id : CellId) (i : Instruction CellId) : Store := ⟨putCell id i s.cells⟩

/-- The first of the given cells that is not there. -/
def absent? (s : Store) (ids : List CellId) : Option CellId :=
  ids.find? fun id => (s.get? id).isNone

theorem lookup_putCell (id k : CellId) (i : Instruction CellId)
    (cells : List (CellId × Instruction CellId)) :
    (putCell id i cells).lookup k = if k = id then some i else cells.lookup k := by
  have beq_false {a b : CellId} (h : ¬a = b) : (a == b) = false := beq_eq_false_iff_ne.mpr h
  induction cells with
  | nil => by_cases h : k = id <;> simp [putCell, List.lookup_cons, beq_false, h]
  | cons cell rest ih =>
    obtain ⟨name, j⟩ := cell
    by_cases hid : name = id
    · by_cases h : k = id <;> simp [putCell, List.lookup_cons, beq_false, hid, h]
    · by_cases h : k = name
      · simp [putCell, hid, h]
      · simp [putCell, List.lookup_cons, beq_false, hid, h, ih]

theorem get?_put (s : Store) (id k : CellId) (i : Instruction CellId) :
    (s.put id i).get? k = if k = id then some i else s.get? k :=
  lookup_putCell id k i s.cells

/-- Overwriting empties no cell. -/
theorem isSome_get?_put {s : Store} {k : CellId} (h : (s.get? k).isSome = true) (id : CellId)
    (i : Instruction CellId) : ((s.put id i).get? k).isSome = true := by
  rw [get?_put]
  split
  · rfl
  · exact h

theorem absent?_eq_none_iff {s : Store} {ids : List CellId} :
    s.absent? ids = none ↔ ∀ id ∈ ids, (s.get? id).isSome = true := by
  simp only [absent?, List.find?_eq_none, Bool.not_eq_true, Option.isNone_eq_false_iff]

theorem get?_of_absent? {s : Store} {ids : List CellId} {id : CellId}
    (h : s.absent? ids = some id) : s.get? id = none := by
  have hnone := List.find?_some h
  exact Option.isNone_iff_eq_none.mp hnone

end Store

end CilIsa
