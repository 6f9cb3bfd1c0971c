/-!
# Hexadecimal text

Numbers are written with upper-case digits to a fixed width and read in either case. What is written
to a width that holds the number reads back (`Hex.read?_digits`).
-/

namespace CilIsa.Hex

/-- The digit of a number below sixteen. -/
def digit (n : Nat) : Char :=
  if n < 10 then Char.ofNat ('0'.toNat + n) else Char.ofNat ('A'.toNat + (n - 10))

/-- The last `width` digits of a number, most significant first, with leading zeros. -/
def digits : (width : Nat) → Nat → List Char
  | 0, _ => []
  | width + 1, n => digits width (n / 16) ++ [digit (n % 16)]

/-- The value of a digit of either case. -/
def value? (c : Char) : Option Nat :=
  if '0' ≤ c ∧ c ≤ '9' then some (c.toNat - '0'.toNat)
  else if 'A' ≤ c ∧ c ≤ 'F' then some (c.toNat - 'A'.toNat + 10)
  else if 'a' ≤ c ∧ c ≤ 'f' then some (c.toNat - 'a'.toNat + 10)
  else none

/-- The number a list of digits denotes, most significant first; no digits denote zero. -/
def read? (cs : List Char) : Option Nat :=
  cs.foldlM (fun n c => (value? c).map (16 * n + ·)) 0

@[simp] theorem length_digits (width n : Nat) : (digits width n).length = width := by
  induction width generalizing n with
  | zero => rfl
  | succ width ih => simp [digits, ih]

/-- Letters are written in upper case. -/
theorem mem_of_mem_digits {c : Char} {width n : Nat} (h : c ∈ digits width n) :
    c ∈ "0123456789ABCDEF".toList := by
  have hdigit : ∀ m < 16, digit m ∈ "0123456789ABCDEF".toList := by decide
  induction width generalizing n with
  | zero => cases h
  | succ width ih =>
    rcases List.mem_append.mp h with hfront | hlast
    · exact ih hfront
    · rw [List.mem_singleton.mp hlast]
      exact hdigit (n % 16) (Nat.mod_lt n (by decide))

theorem value?_digit {n : Nat} (h : n < 16) : value? (digit n) = some n := by
  have all : ∀ n < 16, value? (digit n) = some n := by decide
  exact all n h

theorem read?_concat (cs : List Char) (c : Char) :
    read? (cs ++ [c]) = (read? cs).bind fun m => (value? c).map (16 * m + ·) := by
  simp [read?, List.foldlM_append]

theorem read?_digits {width n : Nat} (h : n < Nat.pow 16 width) : read? (digits width n) = some n := by
  induction width generalizing n with
  | zero => simp [digits, read?, Nat.lt_one_iff.mp h]
  | succ width ih =>
    have hdiv : n / 16 < Nat.pow 16 width := Nat.div_lt_of_lt_mul (Nat.pow_succ' ▸ h)
    have hmod : n % 16 < 16 := Nat.mod_lt _ (by omega)
    rw [digits, read?_concat, ih hdiv, value?_digit hmod]
    simp [Nat.div_add_mod]

end CilIsa.Hex
