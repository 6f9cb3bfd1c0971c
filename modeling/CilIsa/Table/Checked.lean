import CilIsa.Diagnostic.Tag
import CilIsa.Table.Basic

/-!
# Checked opcode tables

A list of opcodes makes a table when every code can be encoded, every opcode has a mnemonic, and
neither a code nor a mnemonic stands in it twice. Of a list that fails the first fault is reported:
the first entry that has one, and at that entry the first check it fails.
-/

namespace CilIsa

/-- Why a list of opcodes makes no table. -/
inductive TableError where
  /-- The list is longer than all codes together. -/
  | tooMany (count : Nat)
  /-- The upper byte is neither zero nor the escape byte. -/
  | unencodable (code : Code)
  /-- The code is the escape byte itself. -/
  | bareEscape (code : Code)
  /-- An earlier entry has the code. -/
  | duplicateCode (code : Code)
  /-- The entry with the code has no mnemonic, or an empty one. -/
  | missingMnemonic (code : Code)
  /-- An earlier entry has the mnemonic. -/
  | duplicateMnemonic (mnemonic : String)
  deriving DecidableEq

namespace TableError

/-- What went wrong. -/
def detail : TableError → String
  | tooMany count =>
    "table holds " ++ toString count ++ " opcodes; at most 512 can be encoded"
  | unencodable code =>
    "opcode value " ++ code.padded ++ " is neither one-byte nor 0xFE-prefixed"
  | bareEscape code => "opcode value " ++ code.padded ++ " is the two-byte escape prefix"
  | duplicateCode code => "opcode value " ++ code.padded ++ " listed twice"
  | missingMnemonic code => "opcode value " ++ code.padded ++ " has no mnemonic"
  | duplicateMnemonic mnemonic => "mnemonic '" ++ mnemonic ++ "' listed twice"

/-- Repetitions have a tag of their own. -/
def tag : TableError → Tag
  | duplicateCode _ | duplicateMnemonic _ => .duplicateOpcode
  | tooMany _ | unencodable _ | bareEscape _ | missingMnemonic _ => .invalidOpcodeValue

/-- The error as a diagnostic. -/
def diagnostic (e : TableError) : Diagnostic := Diagnostic.tagged e.tag e.detail

theorem detail_ne_empty (e : TableError) : e.detail ≠ "" := by
  have happend {a b c : String} (h : a ≠ "") : a ++ b ++ c ≠ "" := by
    simp [String.append_eq_empty_iff, h]
  cases e <;> exact happend (by decide)

theorem diagnostic_eq (e : TableError) :
    e.diagnostic = Diagnostic.error (Enumeration.name e.tag ++ ": " ++ e.detail) := by
  have htag : Coded.name (.member e.tag) ≠ "" := by
    cases e <;> simp [tag, Coded.name, Enumeration.name]
  exact Diagnostic.tagged_of_ne htag e.detail_ne_empty

end TableError

namespace Table

/-- The most opcodes a checked table may list. -/
def capacity : Nat := 512

/-- The first check that an entry fails, given the entries before it. -/
def entryFault? (earlier : List Opcode) (op : Opcode) : Option TableError :=
  if op.code.high ≠ 0 ∧ ¬op.code.escaped then some (.unencodable op.code)
  else if op.code.high = 0 ∧ op.code.low = Code.escape then some (.bareEscape op.code)
  else if earlier.any (·.code == op.code) then some (.duplicateCode op.code)
  else if op.mnemonic = "" then some (.missingMnemonic op.code)
  else if earlier.any (·.mnemonic == op.mnemonic) then some (.duplicateMnemonic op.mnemonic)
  else none

/-- The fault of the first entry that has one, given the entries before the list. -/
def firstFault? (earlier : List Opcode) : List Opcode → Option TableError
  | [] => none
  | op :: rest => entryFault? earlier op <|> firstFault? (op :: earlier) rest

/-- The table of the listed opcodes, if they make one. The length is checked before any entry. -/
def build (ops : List Opcode) : Except TableError Table :=
  if capacity < ops.length then .error (.tooMany ops.length)
  else match firstFault? [] ops with
    | some fault => .error fault
    | none => .ok (ofList ops)

end Table

end CilIsa
