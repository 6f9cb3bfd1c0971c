import Mathlib.Data.List.Nodup
import CilIsa.Opcode.Classes

/-!
# The names of columns

A column shows the name of its member, or the fallback name of its type. Where the names of the
members are distinct, a name other than the fallback belongs to one column only
(`Coded.eq_of_name_eq`).

The names of the columns of an opcode are legible: they differ from the fallback as well, and none
has a blank in it. So a column in range is known by its name, whatever the other column holds
(`Coded.Listed.eq_of_name_eq`), and a line of names and blanks can be taken apart at the blanks.
-/

namespace CilIsa

namespace Enumeration

/-- All names that a column can show. -/
def names (α : Type) [Enumeration α] : List String :=
  outsideName α :: (members : List α).map name

/-- The names of a type tell its members apart, and tell them from a number that stands for none.
Every name is one word. -/
class Legible (α : Type) [Enumeration α] : Prop where
  nodup_names : (names α).Nodup
  blank_not_mem : ∀ s ∈ names α, ' ' ∉ s.toList

instance : Legible OperandShape where
  nodup_names := by decide +kernel
  blank_not_mem := by decide +kernel

instance : Legible Flow where
  nodup_names := by decide +kernel
  blank_not_mem := by decide +kernel

instance : Legible PushClass where
  nodup_names := by decide +kernel
  blank_not_mem := by decide +kernel

instance : Legible PopClass where
  nodup_names := by decide +kernel
  blank_not_mem := by decide +kernel

end Enumeration

namespace Coded

variable {α : Type} [Enumeration α] {c d : Coded α}

/-- The number of the column stands for a member. -/
def Listed (c : Coded α) : Prop := ∃ a, c = member a

theorem name_mem_names (c : Coded α) : c.name ∈ Enumeration.names α := by
  cases c with
  | member a => exact List.mem_cons_of_mem _ (List.mem_map_of_mem (Enumeration.complete a))
  | outside n unlisted => exact List.mem_cons_self

/-- Distinct names of members are names of one column each, the fallback apart. -/
theorem eq_of_name_eq (hnames : ((Enumeration.members : List α).map Enumeration.name).Nodup)
    (hc : c.name ≠ Enumeration.outsideName α) (h : c.name = d.name) : c = d := by
  cases c with
  | outside n unlisted => exact absurd rfl hc
  | member a =>
    cases d with
    | outside n unlisted => exact absurd h hc
    | member b =>
      have hab : a = b := List.inj_on_of_nodup_map hnames (Enumeration.complete a)
        (Enumeration.complete b) h
      rw [hab]

variable [Enumeration.Legible α]

/-- A column in range shares its name with no other column. -/
theorem Listed.eq_of_name_eq (hc : c.Listed) (h : c.name = d.name) : c = d := by
  obtain ⟨a, rfl⟩ := hc
  have hnames : (Enumeration.names α).Nodup := Enumeration.Legible.nodup_names
  obtain ⟨houtside, hmembers⟩ := List.nodup_cons.mp hnames
  refine Coded.eq_of_name_eq hmembers (fun hname => houtside ?_) h
  rw [← hname]
  exact List.mem_map_of_mem (Enumeration.complete a)

theorem blank_not_mem_name (c : Coded α) : ' ' ∉ c.name.toList :=
  Enumeration.Legible.blank_not_mem c.name c.name_mem_names

end Coded

end CilIsa
