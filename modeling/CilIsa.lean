import CilIsa.Diagnostic.Log
import CilIsa.Inspector.Command
import CilIsa.Main
import CilIsa.Session.Step
import CilIsa.Table.Checked
import CilIsa.Table.Spelling
import CilIsa.Proofs.Coded.Names
import CilIsa.Proofs.Diagnostic.Log
import CilIsa.Proofs.Diagnostic.Tag
import CilIsa.Proofs.StackEffect.Text
import CilIsa.Proofs.Table.Acceptance
import CilIsa.Proofs.Table.Capacity
import CilIsa.Proofs.Table.Decoding
import CilIsa.Proofs.Table.Lookup
import CilIsa.Proofs.Table.Printed
import CilIsa.Proofs.Table.Restriction
import CilIsa.Proofs.Table.Spelling
import CilIsa.Proofs.Instruction.Agreement
import CilIsa.Proofs.Instruction.Calling
import CilIsa.Proofs.Instruction.Classes
import CilIsa.Proofs.Instruction.Counting
import CilIsa.Proofs.Instruction.Dependence
import CilIsa.Proofs.Instruction.Rejection
import CilIsa.Proofs.Instruction.Size
import CilIsa.Proofs.Instruction.Soundness
import CilIsa.Proofs.Session.Frame
import CilIsa.Proofs.Session.Noninterference
import CilIsa.Proofs.Session.TraceText
import CilIsa.Proofs.Session.Validated
import CilIsa.Proofs.Session.Writes
import CilIsa.Proofs.Tracing.Live
import CilIsa.Proofs.Inspector.History
import CilIsa.Proofs.Inspector.Line
import CilIsa.Proofs.Inspector.Reference
