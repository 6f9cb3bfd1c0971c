import CilIsa.Table.Basic

/-!
# Opcodes as people spell them

An opcode is spelled by its mnemonic or by its code in hexadecimal. A mnemonic comes first, also one
that reads as a number. A number is not looked up as a code: it is taken apart into its bytes, and
these are decoded.
-/

namespace CilIsa

/-- The number that a hexadecimal spelling denotes: `0x` or `0X` and one to four digits. -/
def Hex.ofSpelling? (s : String) : Option Nat :=
  match s.toList with
  | '0' :: x :: digits =>
    if (x = 'x' ∨ x = 'X') ∧ digits ≠ [] ∧ digits.length ≤ 4 then read? digits else none
  | _ => none

namespace Table

/-- The opcode whose bytes make up the given number: one byte, or two of which the upper is the
escape byte. The escape byte alone is no opcode. -/
def ofNumber? (t : Table) (n : Nat) : Option Opcode :=
  if n = Code.escape.toNat then none
  else if 0xFF < n then
    if n / 256 ≠ Code.escape.toNat then none else t.decode? Code.escape (UInt8.ofNat n)
  else t.decode? (UInt8.ofNat n) 0

/-- The opcode with the given mnemonic, or else the one whose code is spelled. -/
def lookup? (t : Table) (s : String) : Option Opcode :=
  t.named? s <|> (Hex.ofSpelling? s).bind t.ofNumber?

end Table

end CilIsa
