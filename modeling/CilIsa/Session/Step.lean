import CilIsa.Session.Snapshot

/-!
# Sessions

A session is a store that is worked on step by step, with a switch for tracing. Each step is
answered by a reply and by the trace it leaves when tracing is on.

What a step does to the store and what it replies is `Store.act`, which knows nothing of the switch.
-/

namespace CilIsa

/-- One step of a session. -/
inductive Step where
  /-- Fills a cell with the instruction of an opcode and a payload, if they fit together. -/
  | create (id : CellId) (op : Opcode) (p : Payload CellId)
  /-- Fills a cell with an opcode and an operand, fitting or not. -/
  | place (id : CellId) (op : Opcode) (o : Operand CellId)
  /-- Shows a cell. -/
  | get (id : CellId)
  /-- Fills a cell with the instruction of another. -/
  | copy (source destination : CellId)
  /-- Moves an instruction to another offset. -/
  | moveTo (id : CellId) (offset : UInt32)
  /-- Asks for the size of an instruction. -/
  | size (id : CellId)
  /-- Asks for the stack effect of an instruction. -/
  | effect (id : CellId) (returns : Bool)
  /-- Compares the stack effects of two instructions. -/
  | same (a b : CellId) (returns : Bool)
  /-- Asks whether the operand of an instruction is of the given kind. -/
  | holds (id : CellId) (kind : Operand.Kind)
  /-- Turns tracing on or off. -/
  | trace (on : Bool)
  deriving DecidableEq

/-- The answer to a step. -/
inductive Reply where
  | snapshot (s : Snapshot)
  | rejected (m : Mismatch)
  | offset (n : UInt32)
  | size (n : UInt32)
  | effect (e : StackEffect)
  | same (equal : Bool)
  | holds (held : Bool)
  | tracing (on : Bool)
  /-- The step names a cell that is not there. -/
  | unknownCell (id : CellId)
  deriving DecidableEq

namespace Store

/-- Puts an instruction into a cell and shows it. -/
def fill (s : Store) (id : CellId) (i : Instruction CellId) : Traced (Store × Reply) := do
  let filled := s.put id i
  let shown ← filled.snapshot i
  pure (filled, .snapshot shown)

/-- Answers a question about the instruction in a cell, and leaves the store as it is. -/
def ask (s : Store) (id : CellId) (question : Instruction CellId → Traced Reply) :
    Traced (Store × Reply) :=
  match s.get? id with
  | none => pure (s, .unknownCell id)
  | some i => do
    let reply ← question i
    pure (s, reply)

@[simp] theorem store_fill (s : Store) (id : CellId) (i : Instruction CellId) :
    (s.fill id i).value.1 = s.put id i := rfl

@[simp] theorem store_ask (s : Store) (id : CellId)
    (question : Instruction CellId → Traced Reply) : (s.ask id question).value.1 = s := by
  unfold ask
  split <;> rfl

/-- The store after a step, with the reply. A step that names a missing cell, and a pair that does
not fit, leave the store as it is. -/
def act (s : Store) : Step → Traced (Store × Reply)
  | .create id op p =>
    match s.absent? p.references with
    | some missing => pure (s, .unknownCell missing)
    | none => do
      match ← Instruction.tracedPair op p with
      | .ok i => s.fill id i
      | .error mismatch => pure (s, .rejected mismatch)
  | .place id op o =>
    match s.absent? o.references with
    | some missing => pure (s, .unknownCell missing)
    | none => s.fill id { opcode := op, operand := o }
  | .get id => s.ask id fun i => do
    let shown ← s.snapshot i
    pure (.snapshot shown)
  | .copy source destination =>
    match s.get? source with
    | none => pure (s, .unknownCell source)
    | some i => s.fill destination i
  | .moveTo id offset =>
    match s.get? id with
    | none => pure (s, .unknownCell id)
    | some i => pure (s.put id (i.moveTo offset), .offset offset)
  | .size id => s.ask id fun i => pure (.size i.size)
  | .effect id returns => s.ask id fun i => do
    let effect ← i.tracedEffect returns
    pure (.effect effect)
  | .same a b returns =>
    match s.get? b with
    | none => pure (s, .unknownCell b)
    | some j => s.ask a fun i => do
      let first ← i.tracedEffect returns
      let second ← j.tracedEffect returns
      pure (.same (first == second))
  | .holds id kind => s.ask id fun i => pure (.holds (i.operand.kind == kind))
  | .trace on => pure (s, .tracing on)

end Store

/-- A store with the switch for tracing. -/
structure Session where
  store : Store := {}
  tracing : Bool := false
  deriving DecidableEq

/-- What a step leaves behind: its reply, and its trace. -/
structure Response where
  reply : Reply
  trace : String
  deriving DecidableEq

namespace Session

/-- Whether tracing is on after a step. -/
def tracingAfter (tracing : Bool) : Step → Bool
  | .trace on => on
  | _ => tracing

/-- The session after a step, with the response. -/
def step (s : Session) (st : Step) : Session × Response :=
  let acted := s.store.act st
  let tracing := tracingAfter s.tracing st
  (⟨acted.value.1, tracing⟩, ⟨acted.value.2, traceText tracing acted.lines⟩)

/-- The session after some steps, with the responses in order. -/
def run (s : Session) : List Step → Session × List Response
  | [] => (s, [])
  | st :: rest =>
    let stepped := s.step st
    let ran := stepped.1.run rest
    (ran.1, stepped.2 :: ran.2)

end Session

end CilIsa
