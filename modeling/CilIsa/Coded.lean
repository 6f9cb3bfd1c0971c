/-!
# Coded enumerations

The columns of an instruction-set description are small numbers. A number in range names a member
of a finite type; a number out of range is kept as it is, has a fallback name, and equals no member.

`Coded α` is such a column. Reading a number and asking for it again gives the number back
(`Coded.code_ofCode`), and a column is determined by its number (`Coded.ofCode_code`).
-/

namespace CilIsa

/-- A finite type with its members in the order of their numbers, counted from zero. Every member
has a name; `outsideName` is the name shown for a number that stands for no member. -/
class Enumeration (α : Type) where
  members : List α
  nodup : members.Nodup
  complete : ∀ a, a ∈ members
  name : α → String
  outsideName : String

namespace Enumeration

/-- The member with the given number. -/
def at? (α : Type) [Enumeration α] : Int → Option α
  | .ofNat n => members[n]?
  | .negSucc _ => none

/-- The member with the given name. -/
def named? (α : Type) [Enumeration α] (s : String) : Option α :=
  members.find? fun a => name a == s

variable {α : Type} [Enumeration α] [DecidableEq α]

/-- The number of a member. -/
def number (a : α) : Nat := members.idxOf a

theorem at?_number (a : α) : at? α (number a) = some a := by
  have h : members.idxOf a < (members : List α).length := List.idxOf_lt_length_of_mem (complete a)
  change (members : List α)[members.idxOf a]? = some a
  rw [List.getElem?_eq_getElem h, List.getElem_idxOf]

theorem number_of_at? {a : α} {n : Int} (h : at? α n = some a) : (number a : Int) = n := by
  cases n with
  | ofNat n =>
    obtain ⟨hn, rfl⟩ := List.getElem?_eq_some_iff.mp h
    exact congrArg Int.ofNat (nodup.idxOf_getElem n hn)
  | negSucc n => simp [at?] at h

end Enumeration

/-- A number that should name a member of `α`: either it does, or it lies outside the numbering. -/
inductive Coded (α : Type) [Enumeration α] where
  | member (a : α)
  | outside (code : Int) (unlisted : Enumeration.at? α code = none)
  deriving DecidableEq

namespace Coded

variable {α : Type} [Enumeration α]

instance : Coe α (Coded α) := ⟨member⟩

/-- The column that holds the given number. -/
def ofCode (n : Int) : Coded α :=
  match h : Enumeration.at? α n with
  | some a => member a
  | none => outside n h

/-- The number the column holds. -/
def code [DecidableEq α] : Coded α → Int
  | member a => Enumeration.number a
  | outside n _ => n

/-- The name of the member, or the fallback of its type. -/
def name : Coded α → String
  | member a => Enumeration.name a
  | outside _ _ => Enumeration.outsideName α

/-- The column that holds the member of the given name. -/
def named? (s : String) : Option (Coded α) := (Enumeration.named? α s).map member

@[simp] theorem code_ofCode [DecidableEq α] (n : Int) : (ofCode n : Coded α).code = n := by
  unfold ofCode
  split
  · next a h => exact Enumeration.number_of_at? h
  · rfl

@[simp] theorem ofCode_code [DecidableEq α] (c : Coded α) : ofCode c.code = c := by
  cases c with
  | member a =>
    unfold ofCode
    split
    · next b h => exact congrArg member (Option.some.inj (h.symm.trans (Enumeration.at?_number a)))
    · next h => simp [code, Enumeration.at?_number] at h
  | outside n unlisted =>
    unfold ofCode
    split
    · next b h => simp only [code] at h; simp [unlisted] at h
    · rfl

end Coded

end CilIsa
