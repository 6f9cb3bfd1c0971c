import CilIsa.Coded

/-!
# The classes of an opcode

Five columns describe an opcode beside its code and its mnemonic: the shape of its operand, its
effect on the flow of control, its family, and the stack behaviour of its pushes and of its pops.
-/

namespace CilIsa

/-- The shape of the operand that follows the opcode bytes. -/
inductive OperandShape where
  /-- A branch displacement of four bytes. -/
  | inlineBrTarget
  /-- A field token. -/
  | inlineField
  /-- An integer of four bytes. -/
  | inlineI
  /-- An integer of eight bytes. -/
  | inlineI8
  /-- A method token. -/
  | inlineMethod
  /-- No operand. -/
  | inlineNone
  /-- Reserved, never encoded. -/
  | inlinePhi
  /-- A floating-point number of eight bytes. -/
  | inlineR
  /-- A token of a stand-alone signature. -/
  | inlineSig
  /-- A token of a string. -/
  | inlineString
  /-- A count and as many branch displacements of four bytes. -/
  | inlineSwitch
  /-- A token of a type, a field or a method. -/
  | inlineTok
  /-- A type token. -/
  | inlineType
  /-- A variable index of two bytes. -/
  | inlineVar
  /-- A branch displacement of one byte. -/
  | shortInlineBrTarget
  /-- An integer of one byte. -/
  | shortInlineI
  /-- A floating-point number of four bytes. -/
  | shortInlineR
  /-- A variable index of one byte. -/
  | shortInlineVar
  deriving DecidableEq

instance : Enumeration OperandShape where
  members := [.inlineBrTarget, .inlineField, .inlineI, .inlineI8, .inlineMethod, .inlineNone,
    .inlinePhi, .inlineR, .inlineSig, .inlineString, .inlineSwitch, .inlineTok, .inlineType,
    .inlineVar, .shortInlineBrTarget, .shortInlineI, .shortInlineR, .shortInlineVar]
  nodup := by decide
  complete a := by cases a <;> decide
  name
    | .inlineBrTarget => "InlineBrTarget"
    | .inlineField => "InlineField"
    | .inlineI => "InlineI"
    | .inlineI8 => "InlineI8"
    | .inlineMethod => "InlineMethod"
    | .inlineNone => "InlineNone"
    | .inlinePhi => "InlinePhi"
    | .inlineR => "InlineR"
    | .inlineSig => "InlineSig"
    | .inlineString => "InlineString"
    | .inlineSwitch => "InlineSwitch"
    | .inlineTok => "InlineTok"
    | .inlineType => "InlineType"
    | .inlineVar => "InlineVar"
    | .shortInlineBrTarget => "ShortInlineBrTarget"
    | .shortInlineI => "ShortInlineI"
    | .shortInlineR => "ShortInlineR"
    | .shortInlineVar => "ShortInlineVar"
  outsideName := "?"

/-- What an opcode does to the flow of control. -/
inductive Flow where
  /-- Always goes to its target. -/
  | branch
  /-- Stops for a debugger. -/
  | breakpoint
  /-- Enters another method. -/
  | call
  /-- Goes to a target or on to the next instruction. -/
  | condBranch
  /-- Modifies the instruction after it. -/
  | modifier
  /-- Goes on to the next instruction. -/
  | next
  /-- Reserved. -/
  | phi
  /-- Returns from the method, the handler or the filter. -/
  | exit
  /-- Raises an exception. -/
  | raise
  deriving DecidableEq

instance : Enumeration Flow where
  members := [.branch, .breakpoint, .call, .condBranch, .modifier, .next, .phi, .exit, .raise]
  nodup := by decide
  complete a := by cases a <;> decide
  name
    | .branch => "Branch"
    | .breakpoint => "Break"
    | .call => "Call"
    | .condBranch => "CondBranch"
    | .modifier => "Meta"
    | .next => "Next"
    | .phi => "Phi"
    | .exit => "Return"
    | .raise => "Throw"
  outsideName := "?"

/-- The family under which an opcode is catalogued. -/
inductive Family where
  /-- Reserved. -/
  | remark
  /-- A short form of another opcode. -/
  | shorthand
  /-- Reserved. -/
  | reserved
  /-- Works on objects. -/
  | objectModel
  /-- Modifies the opcode after it. -/
  | modifier
  /-- A basic operation. -/
  | primitive
  deriving DecidableEq

instance : Enumeration Family where
  members := [.remark, .shorthand, .reserved, .objectModel, .modifier, .primitive]
  nodup := by decide
  complete a := by cases a <;> decide
  name
    | .remark => "Annotation"
    | .shorthand => "Macro"
    | .reserved => "Nternal"
    | .objectModel => "Objmodel"
    | .modifier => "Prefix"
    | .primitive => "Primitive"
  outsideName := "?"

/-- What an opcode pushes, by its description alone. -/
inductive PushClass where
  | push0
  | push1
  | push1_push1
  | pushi
  | pushi8
  | pushr4
  | pushr8
  | pushref
  /-- As many values as the signature of the called method returns. -/
  | varpush
  deriving DecidableEq

instance : Enumeration PushClass where
  members := [.push0, .push1, .push1_push1, .pushi, .pushi8, .pushr4, .pushr8, .pushref, .varpush]
  nodup := by decide
  complete a := by cases a <;> decide
  name
    | .push0 => "Push0"
    | .push1 => "Push1"
    | .push1_push1 => "Push1_push1"
    | .pushi => "Pushi"
    | .pushi8 => "Pushi8"
    | .pushr4 => "Pushr4"
    | .pushr8 => "Pushr8"
    | .pushref => "Pushref"
    | .varpush => "Varpush"
  outsideName := "?"

/-- What an opcode pops, by its description alone. -/
inductive PopClass where
  | pop0
  | pop1
  | pop1_pop1
  | popi
  | popi_pop1
  | popi_popi
  | popi_popi8
  | popi_popi_popi
  | popi_popr4
  | popi_popr8
  | popref
  | popref_pop1
  | popref_popi
  | popref_popi_popi
  | popref_popi_popi8
  | popref_popi_popr4
  | popref_popi_popr8
  | popref_popi_popref
  | popref_popi_pop1
  /-- The whole evaluation stack. -/
  | popAll
  /-- As many values as a signature says, or the method around the instruction. -/
  | varpop
  deriving DecidableEq

instance : Enumeration PopClass where
  members := [.pop0, .pop1, .pop1_pop1, .popi, .popi_pop1, .popi_popi, .popi_popi8,
    .popi_popi_popi, .popi_popr4, .popi_popr8, .popref, .popref_pop1, .popref_popi,
    .popref_popi_popi, .popref_popi_popi8, .popref_popi_popr4, .popref_popi_popr8,
    .popref_popi_popref, .popref_popi_pop1, .popAll, .varpop]
  nodup := by decide
  complete a := by cases a <;> decide
  name
    | .pop0 => "Pop0"
    | .pop1 => "Pop1"
    | .pop1_pop1 => "Pop1_pop1"
    | .popi => "Popi"
    | .popi_pop1 => "Popi_pop1"
    | .popi_popi => "Popi_popi"
    | .popi_popi8 => "Popi_popi8"
    | .popi_popi_popi => "Popi_popi_popi"
    | .popi_popr4 => "Popi_popr4"
    | .popi_popr8 => "Popi_popr8"
    | .popref => "Popref"
    | .popref_pop1 => "Popref_pop1"
    | .popref_popi => "Popref_popi"
    | .popref_popi_popi => "Popref_popi_popi"
    | .popref_popi_popi8 => "Popref_popi_popi8"
    | .popref_popi_popr4 => "Popref_popi_popr4"
    | .popref_popi_popr8 => "Popref_popi_popr8"
    | .popref_popi_popref => "Popref_popi_popref"
    | .popref_popi_pop1 => "Popref_popi_pop1"
    | .popAll => "PopAll"
    | .varpop => "Varpop"
  outsideName := "?"

end CilIsa
