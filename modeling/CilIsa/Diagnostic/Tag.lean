import CilIsa.Diagnostic.Basic

/-!
# Tagged diagnostics

A tag says what kind of fault a diagnostic reports. It is carried at the front of the message, so
that it survives wherever the text goes: `Diagnostic.tagged` puts it there and `Diagnostic.hasTag`
looks for it. A tag without a text leaves the message as it is and is never found.
-/

namespace CilIsa

/-- The kinds of fault found in opcodes, operands and opcode tables. -/
inductive Tag where
  /-- Not classified; carried without any text. -/
  | unclassified
  /-- The operand is not one the opcode takes. -/
  | invalidOperand
  /-- A code or a mnemonic stands in a table twice. -/
  | duplicateOpcode
  /-- A table entry cannot be encoded or has no mnemonic, or the table is too long. -/
  | invalidOpcodeValue
  deriving DecidableEq

instance : Enumeration Tag where
  members := [.unclassified, .invalidOperand, .duplicateOpcode, .invalidOpcodeValue]
  nodup := by decide
  complete t := by cases t <;> decide
  name
    | .unclassified => ""
    | .invalidOperand => "instr.invalid_operand"
    | .duplicateOpcode => "instr.duplicate_opcode"
    | .invalidOpcodeValue => "instr.invalid_opcode_value"
  outsideName := ""

namespace Diagnostic

/-- The message that carries a tag: the tag, a colon and a blank before the detail, the tag alone
when there is no detail, the detail alone when the tag has no text. -/
def taggedMessage (tag : Coded Tag) (detail : String) : String :=
  if tag.name = "" then detail
  else if detail = "" then tag.name
  else tag.name ++ ": " ++ detail

/-- An error whose message carries the tag. -/
def tagged (tag : Coded Tag) (detail : String) : Diagnostic := error (taggedMessage tag detail)

/-- A tag with a text stands before the detail. -/
theorem tagged_of_ne {tag : Coded Tag} {detail : String} (htag : tag.name ≠ "")
    (hdetail : detail ≠ "") : tagged tag detail = error (tag.name ++ ": " ++ detail) := by
  rw [tagged, taggedMessage, if_neg htag, if_neg hdetail]

/-- Whether `message` opens with `tag` as a whole word: a colon follows it, or nothing. -/
def opensWith (tag message : List Char) : Bool :=
  tag.isPrefixOf message && (message.drop tag.length).head?.all (· == ':')

/-- Whether the message carries the tag. A tag without a text is carried by no message. -/
def hasTag (d : Diagnostic) (tag : Coded Tag) : Bool :=
  tag.name != "" && opensWith tag.name.toList d.message.toList

end Diagnostic

end CilIsa
