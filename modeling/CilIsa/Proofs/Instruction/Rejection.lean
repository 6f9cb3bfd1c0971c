import CilIsa.Proofs.Instruction.Agreement

/-!
# What pairing answers

Pairing an opcode with a payload has two answers. Either the two fit, and the answer is the
instruction of both, the payload as it was given, or they do not, and the answer says so in one
sentence: which opcode it was, the shape of its operand, the kind of the payload, and what was
expected instead (`Instruction.pair_or_reject`).

Which answer it is depends on the code and on the shape of the opcode and on the kind of the
payload. What is expected of the opcode is named in the diagnostic by `Operand.Kind.expected`, and
for all kinds but those of a single byte it is one shape, or one of two.
-/

namespace CilIsa

/-- What is expected where a payload of the kind is refused. -/
def Operand.Kind.expected : Operand.Kind → String
  | .empty => "InlineNone"
  | .uint8 => "opcode 'unaligned.'"
  | .int8 => "opcode 'ldc.i4.s'"
  | .int32 => "InlineI"
  | .int64 => "InlineI8"
  | .float32 => "ShortInlineR"
  | .float64 => "InlineR"
  | .string => "InlineString"
  | .target => "ShortInlineBrTarget or InlineBrTarget"
  | .targets => "InlineSwitch"
  | .type => "InlineType"
  | .field => "InlineField"
  | .method => "InlineMethod"
  | .token => "InlineTok"
  | .signature => "InlineSig"
  | .parameter => "ShortInlineVar or InlineVar"
  | .localVar => "ShortInlineVar or InlineVar"

namespace Requirement

theorem isMet_congr {op op' : Opcode} (hcode : op.code = op'.code) (hshape : op.shape = op'.shape)
    (r : Requirement) : r.isMet op = r.isMet op' := by
  cases r with
  | opcode code mnemonic => rw [isMet, isMet, hcode]
  | shapes among => simp only [isMet, hshape]

theorem text_single (shape : OperandShape) : (shapes [shape]).text = Enumeration.name shape := rfl

theorem text_two (first second : OperandShape) : (shapes [first, second]).text =
    Enumeration.name first ++ " or " ++ Enumeration.name second := rfl

end Requirement

namespace Operand.Kind

theorem text_requirement (k : Operand.Kind) : k.requirement.text = k.expected := by
  cases k with
  | uint8 | int8 | target | parameter | localVar => decide +kernel
  | _ => rfl

/-- Unless a payload is a single byte, one shape is required of the opcode, or one of two. -/
theorem requirement_cases {k : Operand.Kind} (h : ¬k.IsByte) :
    (∃ shape, k.requirement = .shapes [shape]) ∨
      ∃ first second, k.requirement = .shapes [first, second] := by
  cases k with
  | uint8 => exact absurd (.inl rfl) h
  | int8 => exact absurd (.inr rfl) h
  | target | parameter | localVar => exact .inr ⟨_, _, rfl⟩
  | _ => exact .inl ⟨_, rfl⟩

end Operand.Kind

/-- What is wrong with a pair, in the words of the tables. -/
theorem Mismatch.diagnostic_of_mnemonic {m : Mismatch} {name : String}
    (h : m.opcode.mnemonic? = some name) :
    m.diagnostic = ⟨.member .error, "instr.invalid_operand: opcode '" ++ name ++ "' (" ++
      m.opcode.shape.name ++ ") cannot take " ++ Enumeration.name m.kind ++
      " operand; expected " ++ m.kind.expected⟩ := by
  have hname : m.opcode.mnemonic = name := by
    rw [Opcode.mnemonic, h, Option.getD_some]
  have hdetail : m.detail = "opcode '" ++ m.opcode.mnemonic ++ "' (" ++ m.opcode.shape.name ++
      ") cannot take " ++ Enumeration.name m.kind ++ " operand; expected " ++
      m.kind.requirement.text := rfl
  have hfront : "instr.invalid_operand: opcode '" = "instr.invalid_operand: " ++ "opcode '" := by
    decide
  rw [m.diagnostic_eq_error, hdetail, hname, m.kind.text_requirement, hfront, Diagnostic.error]
  simp only [String.append_assoc]

namespace Instruction

variable {ρ : Type} {op : Opcode} {p : Payload ρ}

/-- The answer to the pair is an instruction. -/
def Accepts (op : Opcode) (p : Payload ρ) : Prop := ∃ i, (tracedPair op p).value = .ok i

theorem accepts_iff_isMet : Accepts op p ↔ p.kind.requirement.isMet op = true := by
  simp only [Accepts, value_tracedPair, exists_pair_iff]

theorem accepts_congr {op' : Opcode} {p' : Payload ρ} (hcode : op.code = op'.code)
    (hshape : op.shape = op'.shape) (hkind : p.kind = p'.kind) :
    Accepts op p ↔ Accepts op' p' := by
  rw [accepts_iff_isMet, accepts_iff_isMet, hkind, Requirement.isMet_congr hcode hshape]

/-- The diagnostic names the shapes that would do. -/
theorem accepts_iff_named (op : Opcode) (h : ¬p.kind.IsByte) :
    (∃ shape : OperandShape, p.kind.expected = Enumeration.name shape ∧
      (Accepts op p ↔ op.shape = .member shape)) ∨
    ∃ first second : OperandShape,
      p.kind.expected = Enumeration.name first ++ " or " ++ Enumeration.name second ∧
      (Accepts op p ↔ op.shape = .member first ∨ op.shape = .member second) := by
  rw [accepts_iff_isMet, ← Operand.Kind.text_requirement]
  rcases Operand.Kind.requirement_cases h with ⟨shape, hrequirement⟩ | ⟨first, second, hrequirement⟩
  · rw [hrequirement]
    exact .inl ⟨shape, Requirement.text_single shape, Requirement.isMet_single_iff⟩
  · rw [hrequirement]
    exact .inr ⟨first, second, Requirement.text_two first second, Requirement.isMet_two_iff⟩

theorem accepts_uint8_iff (h : p.kind = .uint8) : Accepts op p ↔ op.code = Code.unaligned := by
  rw [accepts_iff_isMet, h]
  exact Requirement.isMet_opcode_iff

theorem accepts_int8_iff (h : p.kind = .int8) : Accepts op p ↔ op.code = Code.ldcShort := by
  rw [accepts_iff_isMet, h]
  exact Requirement.isMet_opcode_iff

/-- An accepted payload is handed on as it is, and nothing is said about it. -/
theorem tracedPair_of_accepts (h : Accepts op p) :
    tracedPair op p = ⟨.ok { opcode := op, operand := .payload p, offset := 0 }, []⟩ := by
  have hpair : pair op p = .ok { opcode := op, operand := .payload p } :=
    pair_eq_ok_iff.mpr ⟨accepts_iff_isMet.mp h, rfl⟩
  rw [tracedPair, hpair]
  rfl

theorem tracedPair_of_not_accepts (h : ¬Accepts op p) : tracedPair op p =
    ⟨.error ⟨op, p.kind⟩, [⟨"instr", Mismatch.detail ⟨op, p.kind⟩⟩]⟩ := by
  have hpair : pair op p = .error ⟨op, p.kind⟩ := pair_eq_error (mt accepts_iff_isMet.mpr h)
  rw [tracedPair, hpair]
  rfl

/-- **An instruction or a diagnostic.** Whether an opcode with a mnemonic accepts a payload depends
on nothing but its code, its shape and the kind of the payload. For a single byte it is the code
that decides, and for every other kind the shape, which has to be one that the diagnostic names.
What is accepted becomes an instruction at offset zero with the payload as it was given, and leaves
no trace. What is not accepted becomes an error, which names the opcode, its shape, the kind of the
payload and what was expected. -/
theorem pair_or_reject (op : Opcode) {name : String} (hname : op.mnemonic? = some name)
    (p : Payload ρ) :
    (∀ (op' : Opcode) (p' : Payload ρ), op.code = op'.code → op.shape = op'.shape →
      p.kind = p'.kind → (Accepts op p ↔ Accepts op' p')) ∧
    (p.kind = .uint8 → (Accepts op p ↔ op.code = Code.unaligned)) ∧
    (p.kind = .int8 → (Accepts op p ↔ op.code = Code.ldcShort)) ∧
    (p.kind ≠ .uint8 ∧ p.kind ≠ .int8 →
      (∃ shape : OperandShape, p.kind.expected = Enumeration.name shape ∧
        (Accepts op p ↔ op.shape = .member shape)) ∨
      ∃ first second : OperandShape,
        p.kind.expected = Enumeration.name first ++ " or " ++ Enumeration.name second ∧
        (Accepts op p ↔ op.shape = .member first ∨ op.shape = .member second)) ∧
    (Accepts op p →
      tracedPair op p = ⟨.ok { opcode := op, operand := .payload p, offset := 0 }, []⟩) ∧
    (¬Accepts op p → ∃ m : Mismatch, (tracedPair op p).value = .error m ∧
      m.diagnostic = ⟨.member .error, "instr.invalid_operand: opcode '" ++ name ++ "' (" ++
        op.shape.name ++ ") cannot take " ++ Enumeration.name p.kind ++
        " operand; expected " ++ p.kind.expected⟩) := by
  refine ⟨fun op' p' hcode hshape hkind => accepts_congr hcode hshape hkind, accepts_uint8_iff,
    accepts_int8_iff, fun hother => ?_, tracedPair_of_accepts, fun hreject => ?_⟩
  · exact accepts_iff_named op fun hbyte => hbyte.elim hother.1 hother.2
  · refine ⟨⟨op, p.kind⟩, ?_, Mismatch.diagnostic_of_mnemonic hname⟩
    rw [tracedPair_of_not_accepts hreject]

/-- Loads a number of one byte with a sign. -/
def loadByte : Opcode where
  code := Code.ldcShort
  mnemonic? := some "ldc.i4.s"
  shape := .member .shortInlineI
  flow := .member .next
  family := .member .shorthand
  push := .member .pushi
  pop := .member .pop0

/-- The shape of one byte does not make an opcode take every byte. -/
theorem pair_or_reject_bytes :
    tracedPair loadByte (.int8 (-3) : Payload Empty) =
      ⟨.ok { opcode := loadByte, operand := .payload (.int8 (-3)), offset := 0 }, []⟩ ∧
    ∃ m, (tracedPair loadByte (.uint8 200 : Payload Empty)).value = .error m ∧
      m.diagnostic = ⟨.member .error, "instr.invalid_operand: opcode 'ldc.i4.s' (ShortInlineI) " ++
        "cannot take uint8 operand; expected opcode 'unaligned.'"⟩ := by
  obtain ⟨-, -, hsigned, -, hanswer, -⟩ :=
    pair_or_reject loadByte rfl (.int8 (-3) : Payload Empty)
  obtain ⟨-, hunsigned, -, -, -, hreject⟩ :=
    pair_or_reject loadByte rfl (.uint8 200 : Payload Empty)
  have hrefused : ¬Accepts loadByte (.uint8 200 : Payload Empty) := by
    rw [hunsigned rfl]
    decide
  obtain ⟨m, hm, hdiagnostic⟩ := hreject hrefused
  refine ⟨hanswer ((hsigned rfl).mpr rfl), m, hm, hdiagnostic.trans ?_⟩
  decide

end Instruction

end CilIsa
