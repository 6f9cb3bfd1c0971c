import CilIsa.Proofs.Coded.Names
import CilIsa.Proofs.StackEffect.Text
import CilIsa.Proofs.Table.Printed

/-!
# What the line of an opcode tells

The line that describes an opcode opens with its mnemonic, as it is, and goes on with fields, a
blank before each. A mnemonic may have blanks in it and may look like the fields of a line, but the
fields have no blanks. So the line can be taken apart from its end, field by field, and what is left
is the mnemonic (`eq_of_withFields_eq`). The code and the classes are then read off their fields
(`Opcode.eq_of_line_eq`).
-/

namespace CilIsa

/-! ### Fields behind a text -/

/-- A text with fields behind it, a blank before each. -/
def withFields (front : String) (fields : List String) : String :=
  fields.foldl (fun text field => text ++ " " ++ field) front

/-- Behind the last blank of a text there is no other. -/
theorem eq_nil_of_blank_cons_eq {front field field' : List Char} (hfield : ' ' ∉ field)
    (h : ' ' :: field = front ++ ' ' :: field') : front = [] ∧ field = field' := by
  cases front with
  | nil => exact ⟨rfl, (List.cons.inj h).2⟩
  | cons c front =>
    have htail : field = front ++ ' ' :: field' := (List.cons.inj h).2
    refine absurd ?_ hfield
    rw [htail]
    exact List.mem_append_right front List.mem_cons_self

theorem eq_of_append_blank_eq {s t field field' : String} (hfield : ' ' ∉ field.toList)
    (hfield' : ' ' ∉ field'.toList) (h : s ++ " " ++ field = t ++ " " ++ field') :
    s = t ∧ field = field' := by
  have hlists : s.toList ++ ' ' :: field.toList = t.toList ++ ' ' :: field'.toList := by
    simpa using congrArg String.toList h
  rw [← String.toList_inj, ← String.toList_inj]
  rcases List.append_eq_append_iff.mp hlists with ⟨front, ht, htail⟩ | ⟨front, hs, htail⟩
  · obtain ⟨rfl, heq⟩ := eq_nil_of_blank_cons_eq hfield htail
    exact ⟨by rw [ht, List.append_nil], heq⟩
  · obtain ⟨rfl, heq⟩ := eq_nil_of_blank_cons_eq hfield' htail
    exact ⟨by rw [hs, List.append_nil], heq.symm⟩

/-- Fields without blanks can be told from what stands before them, if it is known how many there
are. -/
theorem eq_of_withFields_eq {s t : String} {fields fields' : List String}
    (hlength : fields.length = fields'.length) (hfields : ∀ f ∈ fields, ' ' ∉ f.toList)
    (hfields' : ∀ f ∈ fields', ' ' ∉ f.toList)
    (h : withFields s fields = withFields t fields') : s = t ∧ fields = fields' := by
  induction fields generalizing fields' s t with
  | nil =>
    obtain rfl : fields' = [] := List.length_eq_zero_iff.mp hlength.symm
    exact ⟨h, rfl⟩
  | cons field rest ih =>
    cases fields' with
    | nil => exact absurd hlength (by simp)
    | cons field' rest' =>
      rw [List.forall_mem_cons] at hfields hfields'
      -- The last fields come off first, by the hypothesis on what the first one is put behind.
      obtain ⟨hfront, rfl⟩ := ih (Nat.succ.inj hlength) hfields.2 hfields'.2 h
      obtain ⟨rfl, rfl⟩ := eq_of_append_blank_eq hfields.1 hfields'.1 hfront
      exact ⟨rfl, rfl⟩

/-! ### The fields of an opcode -/

namespace Code

theorem blank_not_mem_compact (c : Code) : ' ' ∉ c.compact.toList := by
  rw [toList_compact, List.mem_cons, List.mem_cons, not_or, not_or]
  have hblank : ' ' ∉ "0123456789ABCDEF".toList := by decide
  exact ⟨by decide, by decide, fun h => hblank (Hex.mem_of_mem_digits h)⟩

/-- Codes are told apart by their digits, be they two or four. -/
theorem compact_injective : Function.Injective compact := by
  intro c d h
  have hdigits : c.printedDigits = d.printedDigits := by
    have hlists := congrArg String.toList h
    rw [toList_compact, toList_compact] at hlists
    exact (List.cons.inj (List.cons.inj hlists).2).2
  have hread : some c.toNat = some d.toNat := by
    rw [← Hex.read?_eq_some_iff.mpr c.denotes_printedDigits,
      ← Hex.read?_eq_some_iff.mpr d.denotes_printedDigits, hdigits]
  exact UInt16.toNat_inj.mp (Option.some.inj hread)

end Code

namespace Opcode

/-- The fields of the line, in order. -/
def fields (op : Opcode) (returns : Bool) : List String :=
  let bare : Instruction Empty := { opcode := op }
  ["code=" ++ op.code.compact, "size=" ++ toString bare.size.toNat, "operand=" ++ op.shape.name,
    "flow=" ++ op.flow.name, "push=" ++ op.push.name, "pop=" ++ op.pop.name,
    "effect=" ++ op.effectText returns]

theorem line_eq (op : Opcode) (returns : Bool) :
    op.line returns = withFields op.mnemonic (op.fields returns) ++ "\n" := by
  rw [← String.toList_inj]
  simp [line, columns, withFields, fields]

theorem blank_not_mem_effectText (op : Opcode) (returns : Bool) :
    ' ' ∉ (op.effectText returns).toList := by
  rw [effectText]
  split
  · decide
  · exact StackEffect.not_mem_text (by decide) (by decide) (by decide)
      (StackEffect.not_mem_popsText (by decide) (by decide) (by decide) _)

theorem blank_not_mem_fields (op : Opcode) (returns : Bool) :
    ∀ f ∈ op.fields returns, ' ' ∉ f.toList := by
  have hfield : ∀ {key value : String}, ' ' ∉ key.toList → ' ' ∉ value.toList →
      ' ' ∉ (key ++ value).toList := by
    intro key value hkey hvalue
    rw [String.toList_append, List.mem_append, not_or]
    exact ⟨hkey, hvalue⟩
  simp only [fields, List.forall_mem_cons]
  exact ⟨hfield (by decide) op.code.blank_not_mem_compact,
    hfield (by decide) (not_mem_natRepr (by decide) _),
    hfield (by decide) op.shape.blank_not_mem_name, hfield (by decide) op.flow.blank_not_mem_name,
    hfield (by decide) op.push.blank_not_mem_name, hfield (by decide) op.pop.blank_not_mem_name,
    hfield (by decide) (op.blank_not_mem_effectText returns), List.forall_mem_nil _⟩

/-- The classes that the line of an opcode names are members of their enumerations. -/
structure ClassesListed (op : Opcode) : Prop where
  shape : op.shape.Listed
  flow : op.flow.Listed
  push : op.push.Listed
  pop : op.pop.Listed

/-- **The line of an opcode is that of no other.** Two opcodes with the same line, each for methods
that return a value or for methods that do not, have the same mnemonic, the same code and the same
classes, as long as the classes of one of them are members of their enumerations. The mnemonics may
have any characters in them, also those of a line. -/
theorem eq_of_line_eq {op op' : Opcode} (hop : op.ClassesListed) {returns returns' : Bool}
    (h : (op.describe returns).value = (op'.describe returns').value) :
    op.mnemonic = op'.mnemonic ∧ op.code = op'.code ∧ op.shape = op'.shape ∧ op.flow = op'.flow ∧
      op.push = op'.push ∧ op.pop = op'.pop := by
  rw [value_describe, value_describe, line_eq, line_eq, String.append_left_inj] at h
  have hlength : (op.fields returns).length = (op'.fields returns').length := rfl
  obtain ⟨hmnemonic, hfields⟩ := eq_of_withFields_eq hlength (op.blank_not_mem_fields returns)
    (op'.blank_not_mem_fields returns') h
  simp only [fields, List.cons.injEq, String.append_right_inj] at hfields
  obtain ⟨hcode, -, hshape, hflow, hpush, hpop, -⟩ := hfields
  exact ⟨hmnemonic, Code.compact_injective hcode, hop.shape.eq_of_name_eq hshape,
    hop.flow.eq_of_name_eq hflow, hop.push.eq_of_name_eq hpush, hop.pop.eq_of_name_eq hpop⟩

/-- Enters a method, under a mnemonic that reads like the line of `nop` with another after it. -/
def disguisedCall (family : Family) : Opcode where
  code := 0xFE28
  mnemonic? := some ("nop code=0x00 size=1 operand=InlineNone flow=Next push=Push0 pop=Pop0 " ++
    "effect=0/0\ncall")
  shape := .member .inlineMethod
  flow := .member .call
  family := .member family
  push := .member .varpush
  pop := .member .varpop

/-- The line does not show the family, and of a call not what it is in a method that returns a
value. All else is read off it, however much stands before the fields. -/
theorem eq_of_line_eq_disguised :
    (disguisedCall .primitive).ClassesListed ∧
    ((disguisedCall .primitive).describe true).value =
      ((disguisedCall .objectModel).describe false).value ∧
    (disguisedCall .primitive).code = (disguisedCall .objectModel).code ∧
    (disguisedCall .primitive).flow = (disguisedCall .objectModel).flow := by
  have hlisted : (disguisedCall .primitive).ClassesListed :=
    ⟨⟨_, rfl⟩, ⟨_, rfl⟩, ⟨_, rfl⟩, ⟨_, rfl⟩⟩
  have hline : ((disguisedCall .primitive).describe true).value =
      ((disguisedCall .objectModel).describe false).value := by
    rw [value_describe, value_describe]
    rfl
  obtain ⟨-, hcode, -, hflow, -, -⟩ := eq_of_line_eq hlisted hline
  exact ⟨hlisted, hline, hcode, hflow⟩

end Opcode

end CilIsa
