import Mathlib.Logic.Basic
import CilIsa.Proofs.Opcode.Standard
import CilIsa.Proofs.Tracing.Live

/-!
# Tracing alters no result

A session in a process looks at the switch while it works, at every line that a step offers
(`Store.liveAct`). Its steps are those of `Session.step`, which shows the lines of a step when the
step is over (`Session.liveStep_eq`).

Two runs of a session that differ in when tracing is turned on and off, and in whether it is on at
first, show different traces, and that is all. What two such runs have in common at every moment is
the store. One step keeps it so (`Session.step_congr`), therefore all steps do
(`Session.run_congr`).
-/

namespace CilIsa

namespace Store

/-! ### Steps in a process -/

/-- Shows an instruction. Nothing but its measures is traced. -/
def liveSnapshot (s : Store) (i : Instruction CellId) : Live Snapshot := do
  let measures ← i.liveMeasure
  return { (s.snapshot i).value with measures }

/-- Puts an instruction into a cell and shows it. -/
def liveFill (s : Store) (id : CellId) (i : Instruction CellId) : Live (Store × Reply) := do
  let filled := s.put id i
  return (filled, .snapshot (← filled.liveSnapshot i))

/-- Answers a question about the instruction in a cell. -/
def liveAsk (s : Store) (id : CellId) (question : Instruction CellId → Live Reply) :
    Live (Store × Reply) :=
  match s.get? id with
  | none => return (s, .unknownCell id)
  | some i => return (s, ← question i)

/-- A step in a process. It turns the switch, and looks at it whenever there is something to
tell. -/
def liveAct (s : Store) : Step → Live (Store × Reply)
  | .create id op p =>
    match s.absent? p.references with
    | some missing => return (s, .unknownCell missing)
    | none => do
      match ← Instruction.livePair op p with
      | .ok i => s.liveFill id i
      | .error mismatch => return (s, .rejected mismatch)
  | .place id op o =>
    match s.absent? o.references with
    | some missing => return (s, .unknownCell missing)
    | none => s.liveFill id { opcode := op, operand := o }
  | .get id => s.liveAsk id fun i => return .snapshot (← s.liveSnapshot i)
  | .copy source destination =>
    match s.get? source with
    | none => return (s, .unknownCell source)
    | some i => s.liveFill destination i
  | .moveTo id offset =>
    match s.get? id with
    | none => return (s, .unknownCell id)
    | some i => return (s.put id (i.moveTo offset), .offset offset)
  | .size id => s.liveAsk id fun i => return .size i.size
  | .effect id returns => s.liveAsk id fun i => return .effect (← i.liveEffect returns)
  | .same a b returns =>
    match s.get? b with
    | none => return (s, .unknownCell b)
    | some j => s.liveAsk a fun i => do
      let first ← i.liveEffect returns
      let second ← j.liveEffect returns
      return .same (first == second)
  | .holds id kind => s.liveAsk id fun i => return .holds (i.operand.kind == kind)
  | .trace on => do
    Live.turn on
    return (s, .tracing (← Live.isOn))

theorem liveSnapshot_eq (s : Store) (i : Instruction CellId) :
    s.liveSnapshot i = (s.snapshot i).live := by
  simp [liveSnapshot, snapshot, Instruction.liveMeasure_eq]

theorem liveFill_eq (s : Store) (id : CellId) (i : Instruction CellId) :
    s.liveFill id i = (s.fill id i).live := by
  simp [liveFill, fill, liveSnapshot_eq]

theorem liveAsk_eq (s : Store) (id : CellId) (question : Instruction CellId → Traced Reply) :
    s.liveAsk id (fun i => (question i).live) = (s.ask id question).live := by
  rw [liveAsk, ask]
  cases s.get? id <;> simp

/-- Every step but those that turn the switch is the traced step with its lines shown. -/
theorem liveAct_eq (s : Store) {st : Step} (h : ∀ on, st ≠ .trace on) :
    s.liveAct st = (s.act st).live := by
  cases st with
  | create id op p =>
    rw [liveAct, act]
    cases s.absent? p.references with
    | some missing => simp
    | none =>
      simp only [Instruction.livePair_eq, Traced.live_bind]
      refine congrArg _ (funext fun paired => ?_)
      cases paired with
      | ok i => exact s.liveFill_eq id i
      | error mismatch => simp
  | place id op o =>
    rw [liveAct, act]
    cases s.absent? o.references <;> simp [liveFill_eq]
  | get id =>
    rw [liveAct, act, ← liveAsk_eq]
    simp [liveSnapshot_eq]
  | copy source destination =>
    rw [liveAct, act]
    cases s.get? source <;> simp [liveFill_eq]
  | moveTo id offset =>
    rw [liveAct, act]
    cases s.get? id <;> simp
  | size id =>
    rw [liveAct, act, ← liveAsk_eq]
    simp
  | effect id returns =>
    rw [liveAct, act, ← liveAsk_eq]
    simp [Instruction.liveEffect_eq]
  | same a b returns =>
    rw [liveAct, act]
    cases s.get? b with
    | none => simp
    | some j =>
      simp only [← liveAsk_eq]
      simp [Instruction.liveEffect_eq]
  | holds id kind =>
    rw [liveAct, act, ← liveAsk_eq]
    simp
  | trace on => exact absurd rfl (h on)

/-- A step in a process replies and stores what the traced step does, and shows its lines as the
switch stands after it. -/
theorem run_liveAct (s : Store) (st : Step) (c : Console) :
    (s.liveAct st).run c = pure ((s.act st).value,
      { on := Session.tracingAfter c.on st
        shown := c.shown ++ traceText (Session.tracingAfter c.on st) (s.act st).lines }) := by
  by_cases h : ∃ on, st = .trace on
  · obtain ⟨on, rfl⟩ := h
    simp [liveAct, act, Session.tracingAfter]
  · have hne : ∀ on, st ≠ .trace on := fun on hst => h ⟨on, hst⟩
    have hafter : Session.tracingAfter c.on st = c.on := by
      cases st with
      | trace on => exact absurd rfl (hne on)
      | _ => rfl
    rw [s.liveAct_eq hne, Traced.run_live, hafter]

end Store

/-! ### Steps that differ in the switch only -/

/-- The step, apart from where it turns the switch. -/
def Step.muted : Step → Step
  | .trace _ => .trace false
  | st => st

/-- The reply, apart from how it reports the switch. -/
def Reply.muted : Reply → Reply
  | .tracing _ => .tracing false
  | r => r

/-- Where a step turns the switch matters only to what is reported of the switch. -/
theorem Store.act_muted (s : Store) (st : Step) :
    (s.act st.muted).value.1 = (s.act st).value.1 ∧
      (s.act st.muted).value.2.muted = (s.act st).value.2.muted := by
  cases st with
  | trace on => exact ⟨rfl, rfl⟩
  | _ => exact ⟨rfl, rfl⟩

namespace Session

/-- A step of a session in a process, which starts with nothing shown. -/
def liveStep (s : Session) (st : Step) : Session × Response :=
  let ((store, reply), console) := ((s.store.liveAct st).run { on := s.tracing }).run
  (⟨store, console.on⟩, ⟨reply, console.shown⟩)

theorem liveStep_eq (s : Session) (st : Step) : s.liveStep st = s.step st := by
  simp [liveStep, step, Store.run_liveAct]

variable {s t : Session}

/-- Two sessions with the same store have the same store after a step, and reply the same. -/
theorem step_congr (hstore : s.store = t.store) {st st' : Step} (hst : st.muted = st'.muted) :
    (s.step st).1.store = (t.step st').1.store ∧
      (s.step st).2.reply.muted = (t.step st').2.reply.muted := by
  obtain ⟨hs, hsReply⟩ := s.store.act_muted st
  obtain ⟨ht, htReply⟩ := t.store.act_muted st'
  constructor
  · calc (s.step st).1.store = (s.store.act st.muted).value.1 := hs.symm
      _ = (t.store.act st'.muted).value.1 := by rw [hstore, hst]
      _ = (t.step st').1.store := ht
  · calc (s.step st).2.reply.muted = (s.store.act st.muted).value.2.muted := hsReply.symm
      _ = (t.store.act st'.muted).value.2.muted := by rw [hstore, hst]
      _ = (t.step st').2.reply.muted := htReply

/-- The same holds after any number of steps. -/
theorem run_congr (hstore : s.store = t.store) {xs ys : List Step}
    (hsteps : xs.map Step.muted = ys.map Step.muted) :
    (s.run xs).1.store = (t.run ys).1.store ∧
      (s.run xs).2.map (·.reply.muted) = (t.run ys).2.map (·.reply.muted) := by
  -- The stores are the same after every step, whatever has become of the switches.
  induction xs generalizing s t ys with
  | nil =>
    obtain rfl : ys = [] := List.map_eq_nil_iff.mp hsteps.symm
    exact ⟨hstore, rfl⟩
  | cons st xs ih =>
    cases ys with
    | nil => simp at hsteps
    | cons st' ys =>
      obtain ⟨hst, hrest⟩ := List.cons.inj hsteps
      obtain ⟨hstep, hreply⟩ := step_congr hstore hst
      obtain ⟨hrun, hreplies⟩ := ih hstep hrest
      exact ⟨hrun, congrArg₂ List.cons hreply hreplies⟩

end Session

/-- **Tracing alters no result.** A session is one in a process, where the switch is looked at at
every line. Two sessions that start with the same store, and take the same steps but for where these
turn the switch, have the same store after any number of steps, and have replied the same but for
how they report the switch. A survey of an opcode in a process returns the same under either
position of the switch: of each payload the mismatch, or the size and the effects, that come without
any tracing. -/
theorem tracing_alters_no_result (ρ : Type) :
    (∀ (s : Session) (st : Step), s.step st = s.liveStep st) ∧
    (∀ (s t : Session) (xs ys : List Step), s.store = t.store →
      xs.map Step.muted = ys.map Step.muted → ∀ n,
        (s.run (xs.take n)).1.store = (t.run (ys.take n)).1.store ∧
        (s.run (xs.take n)).2.map (·.reply.muted) = (t.run (ys.take n)).2.map (·.reply.muted)) ∧
    (∀ (op : Opcode) (ps : List (Payload ρ)) (on : Bool),
      ((op.liveSurvey ps).run { on }).run =
        ((op.survey ps).value, { on, shown := traceText on (op.survey ps).lines }) ∧
      (op.survey ps).value = ps.map fun p =>
        (Instruction.pair op p).map fun i => ⟨i.size, i.effect false, i.effect true⟩) := by
  refine ⟨fun s st => (s.liveStep_eq st).symm, fun s t xs ys hstore hsteps n => ?_,
    fun op ps on => ⟨?_, op.value_survey ps⟩⟩
  · refine Session.run_congr hstore ?_
    rw [List.map_take, List.map_take, hsteps]
  · simp [Opcode.liveSurvey_eq]

/-- A rejected pair and a call without a signature, with the switch turned before and after the
call. -/
def toggledSteps (on : Bool) : List Step := [
  .create "a" Opcode.nop .empty, .create "a" Opcode.nop (.int8 5), .trace on,
  .place "b" Opcode.call (.missing .method), .trace !on, .effect "b" true]

/-- The results are the same, although the traces are not. -/
theorem tracing_alters_no_result_toggled :
    let loud := Session.run { tracing := true } (toggledSteps false)
    let quiet := Session.run {} (toggledSteps true)
    loud.1.store = quiet.1.store ∧ loud.2.map (·.reply.muted) = quiet.2.map (·.reply.muted) ∧
      loud.2.map (·.trace) ≠ quiet.2.map (·.trace) := by
  obtain ⟨hstore, hreplies⟩ := (tracing_alters_no_result CellId).2.1 { tracing := true } {}
    (toggledSteps false) (toggledSteps true) rfl rfl 6
  exact ⟨hstore, hreplies, by decide +kernel⟩

end CilIsa
