import CilIsa.Opcode.Basic

/-!
# The standard instruction set

Every opcode of the common intermediate language in the order of the codes: first those of one
byte, then those behind the escape byte.
-/

namespace CilIsa.Opcode

/-- One line of the listing below. -/
private def row (code : Code) (mnemonic : String) (shape : OperandShape) (flow : Flow)
    (family : Family) (push : PushClass) (pop : PopClass) : Opcode :=
  ⟨code, some mnemonic, shape, flow, family, push, pop⟩

/-- The opcodes of one byte. -/
def standardOneByte : List Opcode := [
  row 0x00 "nop" .inlineNone .next .primitive .push0 .pop0,
  row 0x01 "break" .inlineNone .breakpoint .primitive .push0 .pop0,
  row 0x02 "ldarg.0" .inlineNone .next .shorthand .push1 .pop0,
  row 0x03 "ldarg.1" .inlineNone .next .shorthand .push1 .pop0,
  row 0x04 "ldarg.2" .inlineNone .next .shorthand .push1 .pop0,
  row 0x05 "ldarg.3" .inlineNone .next .shorthand .push1 .pop0,
  row 0x06 "ldloc.0" .inlineNone .next .shorthand .push1 .pop0,
  row 0x07 "ldloc.1" .inlineNone .next .shorthand .push1 .pop0,
  row 0x08 "ldloc.2" .inlineNone .next .shorthand .push1 .pop0,
  row 0x09 "ldloc.3" .inlineNone .next .shorthand .push1 .pop0,
  row 0x0A "stloc.0" .inlineNone .next .shorthand .push0 .pop1,
  row 0x0B "stloc.1" .inlineNone .next .shorthand .push0 .pop1,
  row 0x0C "stloc.2" .inlineNone .next .shorthand .push0 .pop1,
  row 0x0D "stloc.3" .inlineNone .next .shorthand .push0 .pop1,
  row 0x0E "ldarg.s" .shortInlineVar .next .shorthand .push1 .pop0,
  row 0x0F "ldarga.s" .shortInlineVar .next .shorthand .pushi .pop0,
  row 0x10 "starg.s" .shortInlineVar .next .shorthand .push0 .pop1,
  row 0x11 "ldloc.s" .shortInlineVar .next .shorthand .push1 .pop0,
  row 0x12 "ldloca.s" .shortInlineVar .next .shorthand .pushi .pop0,
  row 0x13 "stloc.s" .shortInlineVar .next .shorthand .push0 .pop1,
  row 0x14 "ldnull" .inlineNone .next .primitive .pushref .pop0,
  row 0x15 "ldc.i4.m1" .inlineNone .next .shorthand .pushi .pop0,
  row 0x16 "ldc.i4.0" .inlineNone .next .shorthand .pushi .pop0,
  row 0x17 "ldc.i4.1" .inlineNone .next .shorthand .pushi .pop0,
  row 0x18 "ldc.i4.2" .inlineNone .next .shorthand .pushi .pop0,
  row 0x19 "ldc.i4.3" .inlineNone .next .shorthand .pushi .pop0,
  row 0x1A "ldc.i4.4" .inlineNone .next .shorthand .pushi .pop0,
  row 0x1B "ldc.i4.5" .inlineNone .next .shorthand .pushi .pop0,
  row 0x1C "ldc.i4.6" .inlineNone .next .shorthand .pushi .pop0,
  row 0x1D "ldc.i4.7" .inlineNone .next .shorthand .pushi .pop0,
  row 0x1E "ldc.i4.8" .inlineNone .next .shorthand .pushi .pop0,
  row 0x1F "ldc.i4.s" .shortInlineI .next .shorthand .pushi .pop0,
  row 0x20 "ldc.i4" .inlineI .next .primitive .pushi .pop0,
  row 0x21 "ldc.i8" .inlineI8 .next .primitive .pushi8 .pop0,
  row 0x22 "ldc.r4" .shortInlineR .next .primitive .pushr4 .pop0,
  row 0x23 "ldc.r8" .inlineR .next .primitive .pushr8 .pop0,
  row 0x25 "dup" .inlineNone .next .primitive .push1_push1 .pop1,
  row 0x26 "pop" .inlineNone .next .primitive .push0 .pop1,
  row 0x27 "jmp" .inlineMethod .call .primitive .push0 .pop0,
  row 0x28 "call" .inlineMethod .call .primitive .varpush .varpop,
  row 0x29 "calli" .inlineSig .call .primitive .varpush .varpop,
  row 0x2A "ret" .inlineNone .exit .primitive .push0 .varpop,
  row 0x2B "br.s" .shortInlineBrTarget .branch .shorthand .push0 .pop0,
  row 0x2C "brfalse.s" .shortInlineBrTarget .condBranch .shorthand .push0 .popi,
  row 0x2D "brtrue.s" .shortInlineBrTarget .condBranch .shorthand .push0 .popi,
  row 0x2E "beq.s" .shortInlineBrTarget .condBranch .shorthand .push0 .pop1_pop1,
  row 0x2F "bge.s" .shortInlineBrTarget .condBranch .shorthand .push0 .pop1_pop1,
  row 0x30 "bgt.s" .shortInlineBrTarget .condBranch .shorthand .push0 .pop1_pop1,
  row 0x31 "ble.s" .shortInlineBrTarget .condBranch .shorthand .push0 .pop1_pop1,
  row 0x32 "blt.s" .shortInlineBrTarget .condBranch .shorthand .push0 .pop1_pop1,
  row 0x33 "bne.un.s" .shortInlineBrTarget .condBranch .shorthand .push0 .pop1_pop1,
  row 0x34 "bge.un.s" .shortInlineBrTarget .condBranch .shorthand .push0 .pop1_pop1,
  row 0x35 "bgt.un.s" .shortInlineBrTarget .condBranch .shorthand .push0 .pop1_pop1,
  row 0x36 "ble.un.s" .shortInlineBrTarget .condBranch .shorthand .push0 .pop1_pop1,
  row 0x37 "blt.un.s" .shortInlineBrTarget .condBranch .shorthand .push0 .pop1_pop1,
  row 0x38 "br" .inlineBrTarget .branch .primitive .push0 .pop0,
  row 0x39 "brfalse" .inlineBrTarget .condBranch .primitive .push0 .popi,
  row 0x3A "brtrue" .inlineBrTarget .condBranch .primitive .push0 .popi,
  row 0x3B "beq" .inlineBrTarget .condBranch .shorthand .push0 .pop1_pop1,
  row 0x3C "bge" .inlineBrTarget .condBranch .shorthand .push0 .pop1_pop1,
  row 0x3D "bgt" .inlineBrTarget .condBranch .shorthand .push0 .pop1_pop1,
  row 0x3E "ble" .inlineBrTarget .condBranch .shorthand .push0 .pop1_pop1,
  row 0x3F "blt" .inlineBrTarget .condBranch .shorthand .push0 .pop1_pop1,
  row 0x40 "bne.un" .inlineBrTarget .condBranch .shorthand .push0 .pop1_pop1,
  row 0x41 "bge.un" .inlineBrTarget .condBranch .shorthand .push0 .pop1_pop1,
  row 0x42 "bgt.un" .inlineBrTarget .condBranch .shorthand .push0 .pop1_pop1,
  row 0x43 "ble.un" .inlineBrTarget .condBranch .shorthand .push0 .pop1_pop1,
  row 0x44 "blt.un" .inlineBrTarget .condBranch .shorthand .push0 .pop1_pop1,
  row 0x45 "switch" .inlineSwitch .condBranch .primitive .push0 .popi,
  row 0x46 "ldind.i1" .inlineNone .next .primitive .pushi .popi,
  row 0x47 "ldind.u1" .inlineNone .next .primitive .pushi .popi,
  row 0x48 "ldind.i2" .inlineNone .next .primitive .pushi .popi,
  row 0x49 "ldind.u2" .inlineNone .next .primitive .pushi .popi,
  row 0x4A "ldind.i4" .inlineNone .next .primitive .pushi .popi,
  row 0x4B "ldind.u4" .inlineNone .next .primitive .pushi .popi,
  row 0x4C "ldind.i8" .inlineNone .next .primitive .pushi8 .popi,
  row 0x4D "ldind.i" .inlineNone .next .primitive .pushi .popi,
  row 0x4E "ldind.r4" .inlineNone .next .primitive .pushr4 .popi,
  row 0x4F "ldind.r8" .inlineNone .next .primitive .pushr8 .popi,
  row 0x50 "ldind.ref" .inlineNone .next .primitive .pushref .popi,
  row 0x51 "stind.ref" .inlineNone .next .primitive .push0 .popi_popi,
  row 0x52 "stind.i1" .inlineNone .next .primitive .push0 .popi_popi,
  row 0x53 "stind.i2" .inlineNone .next .primitive .push0 .popi_popi,
  row 0x54 "stind.i4" .inlineNone .next .primitive .push0 .popi_popi,
  row 0x55 "stind.i8" .inlineNone .next .primitive .push0 .popi_popi8,
  row 0x56 "stind.r4" .inlineNone .next .primitive .push0 .popi_popr4,
  row 0x57 "stind.r8" .inlineNone .next .primitive .push0 .popi_popr8,
  row 0x58 "add" .inlineNone .next .primitive .push1 .pop1_pop1,
  row 0x59 "sub" .inlineNone .next .primitive .push1 .pop1_pop1,
  row 0x5A "mul" .inlineNone .next .primitive .push1 .pop1_pop1,
  row 0x5B "div" .inlineNone .next .primitive .push1 .pop1_pop1,
  row 0x5C "div.un" .inlineNone .next .primitive .push1 .pop1_pop1,
  row 0x5D "rem" .inlineNone .next .primitive .push1 .pop1_pop1,
  row 0x5E "rem.un" .inlineNone .next .primitive .push1 .pop1_pop1,
  row 0x5F "and" .inlineNone .next .primitive .push1 .pop1_pop1,
  row 0x60 "or" .inlineNone .next .primitive .push1 .pop1_pop1,
  row 0x61 "xor" .inlineNone .next .primitive .push1 .pop1_pop1,
  row 0x62 "shl" .inlineNone .next .primitive .push1 .pop1_pop1,
  row 0x63 "shr" .inlineNone .next .primitive .push1 .pop1_pop1,
  row 0x64 "shr.un" .inlineNone .next .primitive .push1 .pop1_pop1,
  row 0x65 "neg" .inlineNone .next .primitive .push1 .pop1,
  row 0x66 "not" .inlineNone .next .primitive .push1 .pop1,
  row 0x67 "conv.i1" .inlineNone .next .primitive .pushi .pop1,
  row 0x68 "conv.i2" .inlineNone .next .primitive .pushi .pop1,
  row 0x69 "conv.i4" .inlineNone .next .primitive .pushi .pop1,
  row 0x6A "conv.i8" .inlineNone .next .primitive .pushi8 .pop1,
  row 0x6B "conv.r4" .inlineNone .next .primitive .pushr4 .pop1,
  row 0x6C "conv.r8" .inlineNone .next .primitive .pushr8 .pop1,
  row 0x6D "conv.u4" .inlineNone .next .primitive .pushi .pop1,
  row 0x6E "conv.u8" .inlineNone .next .primitive .pushi8 .pop1,
  row 0x6F "callvirt" .inlineMethod .call .objectModel .varpush .varpop,
  row 0x70 "cpobj" .inlineType .next .objectModel .push0 .popi_popi,
  row 0x71 "ldobj" .inlineType .next .objectModel .push1 .popi,
  row 0x72 "ldstr" .inlineString .next .objectModel .pushref .pop0,
  row 0x73 "newobj" .inlineMethod .call .objectModel .pushref .varpop,
  row 0x74 "castclass" .inlineType .next .objectModel .pushref .popref,
  row 0x75 "isinst" .inlineType .next .objectModel .pushi .popref,
  row 0x76 "conv.r.un" .inlineNone .next .primitive .pushr8 .pop1,
  row 0x79 "unbox" .inlineType .next .primitive .pushi .popref,
  row 0x7A "throw" .inlineNone .raise .objectModel .push0 .popref,
  row 0x7B "ldfld" .inlineField .next .objectModel .push1 .popref,
  row 0x7C "ldflda" .inlineField .next .objectModel .pushi .popref,
  row 0x7D "stfld" .inlineField .next .objectModel .push0 .popref_pop1,
  row 0x7E "ldsfld" .inlineField .next .objectModel .push1 .pop0,
  row 0x7F "ldsflda" .inlineField .next .objectModel .pushi .pop0,
  row 0x80 "stsfld" .inlineField .next .objectModel .push0 .pop1,
  row 0x81 "stobj" .inlineType .next .primitive .push0 .popi_pop1,
  row 0x82 "conv.ovf.i1.un" .inlineNone .next .primitive .pushi .pop1,
  row 0x83 "conv.ovf.i2.un" .inlineNone .next .primitive .pushi .pop1,
  row 0x84 "conv.ovf.i4.un" .inlineNone .next .primitive .pushi .pop1,
  row 0x85 "conv.ovf.i8.un" .inlineNone .next .primitive .pushi8 .pop1,
  row 0x86 "conv.ovf.u1.un" .inlineNone .next .primitive .pushi .pop1,
  row 0x87 "conv.ovf.u2.un" .inlineNone .next .primitive .pushi .pop1,
  row 0x88 "conv.ovf.u4.un" .inlineNone .next .primitive .pushi .pop1,
  row 0x89 "conv.ovf.u8.un" .inlineNone .next .primitive .pushi8 .pop1,
  row 0x8A "conv.ovf.i.un" .inlineNone .next .primitive .pushi .pop1,
  row 0x8B "conv.ovf.u.un" .inlineNone .next .primitive .pushi .pop1,
  row 0x8C "box" .inlineType .next .primitive .pushref .pop1,
  row 0x8D "newarr" .inlineType .next .objectModel .pushref .popi,
  row 0x8E "ldlen" .inlineNone .next .objectModel .pushi .popref,
  row 0x8F "ldelema" .inlineType .next .objectModel .pushi .popref_popi,
  row 0x90 "ldelem.i1" .inlineNone .next .objectModel .pushi .popref_popi,
  row 0x91 "ldelem.u1" .inlineNone .next .objectModel .pushi .popref_popi,
  row 0x92 "ldelem.i2" .inlineNone .next .objectModel .pushi .popref_popi,
  row 0x93 "ldelem.u2" .inlineNone .next .objectModel .pushi .popref_popi,
  row 0x94 "ldelem.i4" .inlineNone .next .objectModel .pushi .popref_popi,
  row 0x95 "ldelem.u4" .inlineNone .next .objectModel .pushi .popref_popi,
  row 0x96 "ldelem.i8" .inlineNone .next .objectModel .pushi8 .popref_popi,
  row 0x97 "ldelem.i" .inlineNone .next .objectModel .pushi .popref_popi,
  row 0x98 "ldelem.r4" .inlineNone .next .objectModel .pushr4 .popref_popi,
  row 0x99 "ldelem.r8" .inlineNone .next .objectModel .pushr8 .popref_popi,
  row 0x9A "ldelem.ref" .inlineNone .next .objectModel .pushref .popref_popi,
  row 0x9B "stelem.i" .inlineNone .next .objectModel .push0 .popref_popi_popi,
  row 0x9C "stelem.i1" .inlineNone .next .objectModel .push0 .popref_popi_popi,
  row 0x9D "stelem.i2" .inlineNone .next .objectModel .push0 .popref_popi_popi,
  row 0x9E "stelem.i4" .inlineNone .next .objectModel .push0 .popref_popi_popi,
  row 0x9F "stelem.i8" .inlineNone .next .objectModel .push0 .popref_popi_popi8,
  row 0xA0 "stelem.r4" .inlineNone .next .objectModel .push0 .popref_popi_popr4,
  row 0xA1 "stelem.r8" .inlineNone .next .objectModel .push0 .popref_popi_popr8,
  row 0xA2 "stelem.ref" .inlineNone .next .objectModel .push0 .popref_popi_popref,
  row 0xA3 "ldelem" .inlineType .next .objectModel .push1 .popref_popi,
  row 0xA4 "stelem" .inlineType .next .objectModel .push0 .popref_popi_pop1,
  row 0xA5 "unbox.any" .inlineType .next .objectModel .push1 .popref,
  row 0xB3 "conv.ovf.i1" .inlineNone .next .primitive .pushi .pop1,
  row 0xB4 "conv.ovf.u1" .inlineNone .next .primitive .pushi .pop1,
  row 0xB5 "conv.ovf.i2" .inlineNone .next .primitive .pushi .pop1,
  row 0xB6 "conv.ovf.u2" .inlineNone .next .primitive .pushi .pop1,
  row 0xB7 "conv.ovf.i4" .inlineNone .next .primitive .pushi .pop1,
  row 0xB8 "conv.ovf.u4" .inlineNone .next .primitive .pushi .pop1,
  row 0xB9 "conv.ovf.i8" .inlineNone .next .primitive .pushi8 .pop1,
  row 0xBA "conv.ovf.u8" .inlineNone .next .primitive .pushi8 .pop1,
  row 0xC2 "refanyval" .inlineType .next .primitive .pushi .pop1,
  row 0xC3 "ckfinite" .inlineNone .next .primitive .pushr8 .pop1,
  row 0xC6 "mkrefany" .inlineType .next .primitive .push1 .popi,
  row 0xD0 "ldtoken" .inlineTok .next .primitive .pushi .pop0,
  row 0xD1 "conv.u2" .inlineNone .next .primitive .pushi .pop1,
  row 0xD2 "conv.u1" .inlineNone .next .primitive .pushi .pop1,
  row 0xD3 "conv.i" .inlineNone .next .primitive .pushi .pop1,
  row 0xD4 "conv.ovf.i" .inlineNone .next .primitive .pushi .pop1,
  row 0xD5 "conv.ovf.u" .inlineNone .next .primitive .pushi .pop1,
  row 0xD6 "add.ovf" .inlineNone .next .primitive .push1 .pop1_pop1,
  row 0xD7 "add.ovf.un" .inlineNone .next .primitive .push1 .pop1_pop1,
  row 0xD8 "mul.ovf" .inlineNone .next .primitive .push1 .pop1_pop1,
  row 0xD9 "mul.ovf.un" .inlineNone .next .primitive .push1 .pop1_pop1,
  row 0xDA "sub.ovf" .inlineNone .next .primitive .push1 .pop1_pop1,
  row 0xDB "sub.ovf.un" .inlineNone .next .primitive .push1 .pop1_pop1,
  row 0xDC "endfinally" .inlineNone .exit .primitive .push0 .popAll,
  row 0xDD "leave" .inlineBrTarget .branch .primitive .push0 .popAll,
  row 0xDE "leave.s" .shortInlineBrTarget .branch .primitive .push0 .popAll,
  row 0xDF "stind.i" .inlineNone .next .primitive .push0 .popi_popi,
  row 0xE0 "conv.u" .inlineNone .next .primitive .pushi .pop1]

/-- The opcodes of two bytes. -/
def standardTwoByte : List Opcode := [
  row 0xFE00 "arglist" .inlineNone .next .primitive .pushi .pop0,
  row 0xFE01 "ceq" .inlineNone .next .primitive .pushi .pop1_pop1,
  row 0xFE02 "cgt" .inlineNone .next .primitive .pushi .pop1_pop1,
  row 0xFE03 "cgt.un" .inlineNone .next .primitive .pushi .pop1_pop1,
  row 0xFE04 "clt" .inlineNone .next .primitive .pushi .pop1_pop1,
  row 0xFE05 "clt.un" .inlineNone .next .primitive .pushi .pop1_pop1,
  row 0xFE06 "ldftn" .inlineMethod .next .primitive .pushi .pop0,
  row 0xFE07 "ldvirtftn" .inlineMethod .next .primitive .pushi .popref,
  row 0xFE09 "ldarg" .inlineVar .next .primitive .push1 .pop0,
  row 0xFE0A "ldarga" .inlineVar .next .primitive .pushi .pop0,
  row 0xFE0B "starg" .inlineVar .next .primitive .push0 .pop1,
  row 0xFE0C "ldloc" .inlineVar .next .primitive .push1 .pop0,
  row 0xFE0D "ldloca" .inlineVar .next .primitive .pushi .pop0,
  row 0xFE0E "stloc" .inlineVar .next .primitive .push0 .pop1,
  row 0xFE0F "localloc" .inlineNone .next .primitive .pushi .popi,
  row 0xFE11 "endfilter" .inlineNone .exit .primitive .push0 .popi,
  row 0xFE12 "unaligned." .shortInlineI .modifier .modifier .push0 .pop0,
  row 0xFE13 "volatile." .inlineNone .modifier .modifier .push0 .pop0,
  row 0xFE14 "tail." .inlineNone .modifier .modifier .push0 .pop0,
  row 0xFE15 "initobj" .inlineType .next .objectModel .push0 .popi,
  row 0xFE16 "constrained." .inlineType .modifier .modifier .push0 .pop0,
  row 0xFE17 "cpblk" .inlineNone .next .primitive .push0 .popi_popi_popi,
  row 0xFE18 "initblk" .inlineNone .next .primitive .push0 .popi_popi_popi,
  row 0xFE19 "no." .shortInlineI .modifier .modifier .push0 .pop0,
  row 0xFE1A "rethrow" .inlineNone .raise .objectModel .push0 .pop0,
  row 0xFE1C "sizeof" .inlineType .next .primitive .pushi .pop0,
  row 0xFE1D "refanytype" .inlineNone .next .primitive .pushi .pop1,
  row 0xFE1E "readonly." .inlineNone .modifier .modifier .push0 .pop0]

/-- All opcodes of the standard set. -/
def standard : List Opcode := standardOneByte ++ standardTwoByte

end CilIsa.Opcode
