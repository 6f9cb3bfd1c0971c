import CilIsa.Hex

/-!
# Opcode values

An opcode is encoded in one byte, or in two of which the first is the escape byte. Its code is a
16-bit number: the byte alone, or the escape byte above the second byte.
-/

namespace CilIsa

/-- The encoded value of an opcode. -/
abbrev Code := UInt16

namespace Code

/-- The byte that announces an opcode of two bytes. -/
def escape : UInt8 := 0xFE

/-- The upper byte of a code. -/
def high (c : Code) : UInt8 := UInt8.ofNat (c.toNat / 256)

/-- The lower byte of a code. -/
def low (c : Code) : UInt8 := UInt8.ofNat c.toNat

/-- Whether the upper byte is the escape byte. -/
def escaped (c : Code) : Bool := c.high == escape

theorem toNat_high (c : Code) : c.high.toNat = c.toNat / 256 := by
  have := c.toNat_lt
  simp only [high, UInt8.toNat_ofNat']
  omega

theorem toNat_low (c : Code) : c.low.toNat = c.toNat % 256 := by
  simp [low]

/-- A code is its two bytes. -/
theorem ext_bytes {c d : Code} (high : c.high = d.high) (low : c.low = d.low) : c = d := by
  have h := congrArg UInt8.toNat high
  have l := congrArg UInt8.toNat low
  rw [toNat_high, toNat_high] at h
  rw [toNat_low, toNat_low] at l
  exact UInt16.toNat_inj.mp (by omega)

theorem eq_iff_bytes {c d : Code} : c = d ↔ c.high = d.high ∧ c.low = d.low := by
  constructor
  · rintro rfl
    exact ⟨rfl, rfl⟩
  · rintro ⟨hhigh, hlow⟩
    exact ext_bytes hhigh hlow

@[simp] theorem escaped_iff {c : Code} : c.escaped = true ↔ c.high = escape := by
  rw [escaped, beq_iff_eq]

/-- The escape byte alone, by its two bytes. -/
theorem eq_bareEscape_iff {c : Code} : c = 0x00FE ↔ c.high = 0 ∧ c.low = escape :=
  eq_iff_bytes

/-- Four hexadecimal digits. -/
def padded (c : Code) : String := "0x" ++ String.ofList (Hex.digits 4 c.toNat)

/-- A code is printed as `0x` and four digits in upper case, and they read back to it. -/
theorem exists_padded_eq (c : Code) :
    ∃ ds, c.padded = "0x" ++ String.ofList ds ∧ ds.length = 4 ∧
      (∀ d ∈ ds, d ∈ "0123456789ABCDEF".toList) ∧ Hex.read? ds = some c.toNat := by
  have hwidth : c.toNat < Nat.pow 16 4 := c.toNat_lt
  exact ⟨Hex.digits 4 c.toNat, rfl, Hex.length_digits 4 c.toNat, fun d => Hex.mem_of_mem_digits,
    Hex.read?_digits hwidth⟩

/-- Two hexadecimal digits when one byte holds the code, four otherwise. -/
def compact (c : Code) : String :=
  "0x" ++ String.ofList (Hex.digits (if c.toNat < 256 then 2 else 4) c.toNat)

/-! ### Codes with a meaning of their own

The effect or the operand of these opcodes depends on the code itself and not only on its classes.
-/

/-- The code of `ldc.i4.m1`. The constants -1 to 8 have the ten codes from here on. -/
def ldcMinusOne : Code := 0x15

/-- The code of `ldc.i4.8`. -/
def ldcEight : Code := 0x1E

/-- The code of `ldc.i4.s`. -/
def ldcShort : Code := 0x1F

/-- The code of `ldc.i4`. -/
def ldcInt : Code := 0x20

/-- The code of `calli`. -/
def calli : Code := 0x29

/-- The code of `newobj`. -/
def newobj : Code := 0x73

/-- The code of `leave`. -/
def leave : Code := 0xDD

/-- The code of `leave.s`. -/
def leaveShort : Code := 0xDE

/-- The code of `unaligned.`. -/
def unaligned : Code := 0xFE12

end Code

end CilIsa
