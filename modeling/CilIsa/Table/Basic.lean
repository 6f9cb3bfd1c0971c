import CilIsa.Opcode.Standard

/-!
# Opcode tables

A table holds opcodes in the order in which they were listed and finds them by their code, by their
bytes and by their mnemonic. Looking up bytes takes one step: for each of the two code lengths an
index keeps the position of the entry that every byte stands for. A look-up gives a position, and
the opcode at that position.

Positions are kept as signed numbers of 16 bits, so that an index finds again what was put into it
only below `ByteIndex.limit` (`ByteIndex.at?_put`).
-/

namespace CilIsa

/-- For each byte, the position of the entry it stands for, or a mark that there is none. -/
abbrev ByteIndex := Vector Int16 256

namespace ByteIndex

/-- The mark of a byte that stands for no entry. -/
def absent : Int16 := -1

/-- The first position that an index cannot keep. -/
def limit : Nat := 32768

/-- The position that a kept number stands for. -/
def position? (slot : Int16) : Option Nat :=
  if slot = absent then none else some (UInt64.ofInt slot.toInt).toNat

/-- The index in which no byte stands for an entry. -/
def empty : ByteIndex := Vector.replicate 256 absent

/-- The position kept for a byte. -/
def at? (index : ByteIndex) (b : UInt8) : Option Nat := position? index[b.toFin]

/-- The index in which the byte stands for the entry at the given position. -/
def put (index : ByteIndex) (b : UInt8) (position : Nat) : ByteIndex :=
  index.set b.toNat (Int16.ofNat position) b.toNat_lt

/-- The index with an entry under the lower byte of its code, if its code is escaped or not as the
index has it. -/
def putEntry (escaped : Bool) (index : ByteIndex) (entry : Opcode × Nat) : ByteIndex :=
  if entry.1.code.escaped = escaped then index.put entry.1.code.low entry.2 else index

/-- The index of the entries whose codes are escaped, or of those whose codes are not: every entry
is put under the lower byte of its code. -/
def ofEntries (escaped : Bool) (entries : Array Opcode) : ByteIndex :=
  entries.zipIdx.foldl (putEntry escaped) empty

theorem position?_ofNat {position : Nat} (h : position < limit) :
    position? (Int16.ofNat position) = some position := by
  have htoInt : (Int16.ofNat position).toInt = position := Int16.toInt_ofNat_of_lt h
  have hne : Int16.ofNat position ≠ absent := by
    intro heq
    rw [heq, show absent.toInt = -1 from rfl] at htoInt
    omega
  have hsize : position < 2 ^ 15 := h
  rw [position?, if_neg hne, htoInt, UInt64.ofInt, UInt64.toNat_ofNat']
  congr 1
  omega

@[simp] theorem at?_empty (b : UInt8) : empty.at? b = none := by
  simp [at?, empty, position?]

theorem at?_put (index : ByteIndex) (b c : UInt8) {position : Nat} (h : position < limit) :
    (index.put b position).at? c = if b = c then some position else index.at? c := by
  simp only [at?, put, Fin.getElem_fin, UInt8.toFin_val, Vector.getElem_set, UInt8.toNat_inj]
  split
  · exact position?_ofNat h
  · rfl

end ByteIndex

/-- Opcodes in the order of their listing, with the indexes that decode their bytes. -/
structure Table where
  entries : Array Opcode
  oneByte : ByteIndex
  twoByte : ByteIndex

namespace Table

/-- The table of the listed opcodes. Of two entries under one byte the later one is decoded. -/
def ofList (ops : List Opcode) : Table where
  entries := ops.toArray
  oneByte := ByteIndex.ofEntries false ops.toArray
  twoByte := ByteIndex.ofEntries true ops.toArray

/-- The table of the standard instruction set. -/
def standard : Table := ofList Opcode.standard

/-! ### Positions -/

/-- The position of the opcode that begins with the given bytes. The second byte matters only behind
the escape byte. -/
def decodeAt? (t : Table) (first second : UInt8) : Option Nat :=
  if first = Code.escape then t.twoByte.at? second else t.oneByte.at? first

/-- The position of the opcode with the given code. The escape byte alone is not a code, and neither
is a number whose upper byte is neither zero nor the escape byte. -/
def findAt? (t : Table) (c : Code) : Option Nat :=
  if c.high = 0 then
    if c.low = Code.escape then none else t.decodeAt? c.low 0
  else if c.escaped then t.decodeAt? Code.escape c.low
  else none

/-- The position of the first opcode with the given mnemonic. -/
def namedAt? (t : Table) (s : String) : Option Nat :=
  t.entries.findIdx? fun op => op.mnemonic? == some s

/-! ### Opcodes -/

/-- The opcode that begins with the given bytes. -/
def decode? (t : Table) (first second : UInt8) : Option Opcode := do
  let position ← t.decodeAt? first second
  t.entries[position]?

/-- The opcode with the given code. -/
def find? (t : Table) (c : Code) : Option Opcode := do
  let position ← t.findAt? c
  t.entries[position]?

/-- The look-ups of all codes from `first` to `last`. -/
def findRange (t : Table) (first last : Code) : List (Option Opcode) :=
  (List.range' first.toNat (last.toNat + 1 - first.toNat)).map fun n => t.find? (UInt16.ofNat n)

/-- The first opcode with the given mnemonic. -/
def named? (t : Table) (s : String) : Option Opcode := do
  let position ← t.namedAt? s
  t.entries[position]?

end Table

end CilIsa
