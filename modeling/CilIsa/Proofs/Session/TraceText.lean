import Mathlib.Logic.Basic
import CilIsa.Proofs.Opcode.Standard
import CilIsa.Proofs.Session.Writes
import CilIsa.Proofs.Tracing.Live

/-!
# What a session traces

While tracing is off a session shows nothing. While it is on, the text that a step leaves, like its
reply, is determined by the instructions that the step finds (`Step.Accounted`): a rejected pair is
told in the words of its diagnostic, and of a call that cannot be resolved it is told, whenever its
effect is asked for, that it counts as having none. To show a cell is to ask for the effect twice.

Which calls cannot be resolved is said without a search for the signature
(`Instruction.isUnresolved_iff`). The account of a single step is worked out by the ways in which a
step can come about (`Store.Comes.accounted`), and a run shows the texts of its steps, each with
the switch as the steps before it have left it (`Session.trace_response`).
-/

namespace CilIsa

/-! ### Lines of text -/

theorem traceText_singleton (l : TraceLine) : traceText true [l] = l.text := by
  simp [traceText]

theorem TraceLine.text_instr (message : String) :
    TraceLine.text ⟨"instr", message⟩ = "[cil:instr] " ++ message ++ "\n" := by
  have hchannel : "[cil:" ++ "instr" ++ "] " = "[cil:instr] " := by decide
  rw [TraceLine.text, hchannel]

theorem TraceLine.text_stack (message : String) :
    TraceLine.text ⟨"stack", message⟩ = "[cil:stack] " ++ message ++ "\n" := by
  have hchannel : "[cil:" ++ "stack" ++ "] " = "[cil:stack] " := by decide
  rw [TraceLine.text, hchannel]

/-! ### Calls that cannot be resolved -/

namespace Instruction

variable {ρ : Type} {i : Instruction ρ}

/-- The instruction enters a method, and its operand is not a method with a signature. -/
def Unresolvable (i : Instruction ρ) : Prop :=
  i.opcode.flow = .member .call ∧
    ¬∃ m sig, i.operand = .payload (.method m) ∧ m.sig = some sig

theorem isUnresolved_iff : i.isUnresolved = true ↔ i.Unresolvable := by
  rw [isUnresolved, Bool.and_eq_true, isCall, beq_iff_eq, Option.isNone_iff_eq_none,
    Option.eq_none_iff_forall_ne_some, Unresolvable]
  simp only [Ne, callee?_eq_some_iff]
  rw [exists_comm, not_exists]

theorem unresolvable_iff : i.Unresolvable ↔
    i.opcode.flow = .member .call ∧ ∀ m, i.operand = .payload (.method m) → m.sig = none := by
  refine and_congr_right fun _ => ⟨fun h m hm => ?_, ?_⟩
  · exact Option.eq_none_iff_forall_ne_some.mpr fun sig hsig => h ⟨m, sig, hm, hsig⟩
  · rintro h ⟨m, sig, hm, hsig⟩
    cases (h m hm).symm.trans hsig

instance (i : Instruction ρ) : Decidable i.Unresolvable :=
  decidable_of_iff (i.isUnresolved = true) isUnresolved_iff

/-- A call that cannot be resolved counts as having no effect. -/
theorem effect_of_unresolvable (h : i.Unresolvable) (returns : Bool) :
    i.effect returns = ⟨0, 0⟩ := by
  obtain ⟨hcall, hcallee⟩ := Bool.and_eq_true_iff.mp (isUnresolved_iff.mpr h)
  rw [effect, if_pos hcall, Option.isNone_iff_eq_none.mp hcallee]

/-- What is told of the instruction each time its effect is asked for. -/
def effectTold (i : Instruction ρ) : String :=
  if i.Unresolvable then
    "[cil:stack] " ++ "'" ++ i.opcode.mnemonic ++ "' at offset " ++ toString i.offset.toNat
      ++ " has no resolvable signature; reporting 0/0" ++ "\n"
  else ""

theorem traceText_tracedEffect (i : Instruction ρ) (returns : Bool) :
    traceText true (i.tracedEffect returns).lines = i.effectTold := by
  rw [lines_tracedEffect, effectTold]
  by_cases h : i.Unresolvable
  · rw [if_pos (isUnresolved_iff.mpr h), if_pos h, traceText_singleton, TraceLine.text_stack,
      unresolvedText]
    simp only [String.append_assoc]
  · rw [if_neg (mt isUnresolved_iff.mp h), if_neg h, traceText_nil]

/-- Measuring an instruction asks for its effect twice. -/
theorem traceText_measure (i : Instruction ρ) :
    traceText true i.measure.lines = i.effectTold ++ i.effectTold := by
  simp [measure, traceText_append, traceText_tracedEffect]

end Instruction

/-! ### One step -/

/-- The instruction is in the cell, and the reply shows it. -/
def Store.Shows (s : Store) (id : CellId) (i : Instruction CellId) (reply : Reply) : Prop :=
  s.get? id = some i ∧ reply = .snapshot (s.snapshot i).value

/-- What a step replies, and what it tells while tracing is on, by the instructions that it finds.
New instructions stand at offset zero, and a copy where the original stands. -/
def Step.Accounted (before after : Store) (reply : Reply) (told : String) : Step → Prop
  | .create id op p =>
    (∀ i, Instruction.pair op p = .ok i →
      i.offset = 0 ∧ after.Shows id i reply ∧ told = i.effectTold ++ i.effectTold) ∧
    (∀ m, Instruction.pair op p = .error m →
      reply = .rejected m ∧ told = "[cil:instr] " ++ m.detail ++ "\n" ∧
        m.diagnostic.message = "instr.invalid_operand: " ++ m.detail)
  | .place id op o =>
    let i : Instruction CellId := { opcode := op, operand := o, offset := 0 }
    after.Shows id i reply ∧ told = i.effectTold ++ i.effectTold
  | .get id => ∃ i, before.get? id = some i ∧
    after.Shows id i reply ∧ told = i.effectTold ++ i.effectTold
  | .copy source destination => ∃ i, before.get? source = some i ∧
    after.Shows destination i reply ∧ told = i.effectTold ++ i.effectTold
  | .moveTo id offset => ∃ i, before.get? id = some i ∧
    after.get? id = some (i.moveTo offset) ∧ reply = .offset offset ∧ told = ""
  | .size id => ∃ i, before.get? id = some i ∧ reply = .size i.size ∧ told = ""
  | .effect id returns => ∃ i, before.get? id = some i ∧
    reply = .effect (i.effect returns) ∧ told = i.effectTold
  | .same a b returns => ∃ i j, before.get? a = some i ∧ before.get? b = some j ∧
    reply = .same (i.effect returns == j.effect returns) ∧ told = i.effectTold ++ j.effectTold
  | .holds id kind => ∃ i, before.get? id = some i ∧
    reply = .holds (i.operand.kind == kind) ∧ told = ""
  | .trace on => reply = .tracing on ∧ told = ""

namespace Store

variable {s after : Store} {st : Step} {reply : Reply} {lines : List TraceLine}

theorem measures_snapshot (s : Store) (i : Instruction CellId) :
    (s.snapshot i).value.measures = ⟨i.size, i.effect false, i.effect true⟩ := by
  simp [snapshot]

theorem shows_put (s : Store) (id : CellId) (i : Instruction CellId) :
    (s.put id i).Shows id i (.snapshot ((s.put id i).snapshot i).value) := by
  refine ⟨?_, rfl⟩
  rw [get?_put, if_pos rfl]

/-- What a step that finds its cells comes to is what it is to reply and to tell. -/
theorem Comes.accounted (h : s.Comes st after reply lines) (hst : s.Provides st) :
    st.Accounted s after reply (traceText true lines) := by
  cases h with
  | missing hread absent =>
    have hsome := hst _ hread
    rw [absent] at hsome
    cases hsome
  | rejected hst present hpair =>
    subst hst
    refine ⟨fun i hok => ?_, fun m hm => ?_⟩
    · cases hpair.symm.trans hok
    · obtain rfl := Except.error.inj (hpair.symm.trans hm)
      refine ⟨rfl, ?_, Mismatch.message_diagnostic _⟩
      rw [traceText_singleton, TraceLine.text_instr]
  | filled hwrites hmove =>
    rw [Instruction.traceText_measure]
    cases hwrites with
    | create present paired =>
      refine ⟨fun i hok => ?_, fun m hm => ?_⟩
      · obtain rfl := Except.ok.inj (paired.symm.trans hok)
        obtain ⟨-, rfl⟩ := Instruction.pair_eq_ok_iff.mp paired
        exact ⟨rfl, s.shows_put _ _, rfl⟩
      · cases paired.symm.trans hm
    | place present => exact ⟨s.shows_put _ _, rfl⟩
    | copy found => exact ⟨_, found, s.shows_put _ _, rfl⟩
    | moveTo found => exact absurd rfl (hmove _)
  | @moved id offset i hst found =>
    subst hst
    refine ⟨i, found, ?_, rfl, rfl⟩
    rw [get?_put, if_pos rfl]
  | shown hst found =>
    subst hst
    exact ⟨_, found, ⟨found, rfl⟩, Instruction.traceText_measure _⟩
  | size hst found =>
    subst hst
    exact ⟨_, found, rfl, rfl⟩
  | @effect id returns i hst found =>
    subst hst
    exact ⟨i, found, rfl, i.traceText_tracedEffect returns⟩
  | @same a b returns i j hst first second =>
    subst hst
    refine ⟨i, j, first, second, rfl, ?_⟩
    rw [traceText_append, Instruction.traceText_tracedEffect, Instruction.traceText_tracedEffect]
  | holds hst found =>
    subst hst
    exact ⟨_, found, rfl, rfl⟩
  | trace hst =>
    subst hst
    exact ⟨rfl, rfl⟩

end Store

/-! ### Runs -/

/-- What a step turns the switch to. -/
def Step.switch? : Step → Option Bool
  | .trace on => some on
  | _ => none

theorem Step.eq_trace_of_switch? {st : Step} {on : Bool} (h : st.switch? = some on) :
    st = .trace on := by
  cases st <;> cases h
  rfl

namespace Session

theorem tracingAfter_eq (tracing : Bool) (st : Step) :
    tracingAfter tracing st = st.switch?.getD tracing := by
  cases st <;> rfl

/-- A step shows its lines if tracing is on before it. To turn the switch has none. -/
theorem trace_step (s : Session) (st : Step) :
    (s.step st).2.trace =
      if s.tracing then traceText true (s.store.act st).lines else "" := by
  have hshown : (s.step st).2.trace =
      traceText (st.switch?.getD s.tracing) (s.store.act st).lines := by
    rw [← tracingAfter_eq]
    rfl
  rw [hshown]
  cases hswitch : st.switch? with
  | none => cases s.tracing <;> rfl
  | some on =>
    have hlines : (s.store.act st).lines = [] := by
      rw [Step.eq_trace_of_switch? hswitch]
      rfl
    rw [hlines, traceText_nil, traceText_nil, ite_self]

/-- The switch stands where the last step that turned it has left it. -/
theorem tracing_run (s : Session) (steps : List Step) :
    (s.run steps).1.tracing = (steps.filterMap Step.switch?).getLast?.getD s.tracing := by
  induction steps generalizing s with
  | nil => rfl
  | cons st rest ih =>
    have hrun : (s.run (st :: rest)).1 = ((s.step st).1.run rest).1 := rfl
    have hstep : (s.step st).1.tracing = st.switch?.getD s.tracing := tracingAfter_eq s.tracing st
    rw [hrun, ih, hstep, List.filterMap_cons]
    cases st.switch? with
    | none => rfl
    | some on =>
      rw [List.getLast?_cons]
      rfl

/-- Each step of a run is answered as it is where the steps before it have led. -/
theorem getElem?_responses (s : Session) (front : List Step) (st : Step) (back : List Step) :
    (s.run (front ++ st :: back)).2[front.length]? = some ((s.run front).1.step st).2 := by
  induction front generalizing s with
  | nil => rfl
  | cons first front ih => exact ih (s.step first).1

/-- **What a session traces.** At every step of a session the text is empty while tracing is off,
and while it is on it is what the step tells. Of a step that finds every cell it reads, the
instructions there account for the reply and for what is told. Any other step leaves the store as it
is, tells nothing, and replies with a cell that is missing. The calls that cannot be resolved are
those without a method that has a signature, and they have no effect, in whichever store they are
shown. -/
theorem trace_response (s : Session) (front : List Step) (st : Step) (back : List Step) :
    let before := (s.run front).1
    let after := (before.step st).1
    before.tracing = (front.filterMap Step.switch?).getLast?.getD s.tracing ∧
    (∃ r told, (s.run (front ++ st :: back)).2[front.length]? = some r ∧
      r.trace = (if before.tracing then told else "") ∧
      (before.store.Provides st → st.Accounted before.store after.store r.reply told) ∧
      (¬before.store.Provides st → after.store = before.store ∧ told = "" ∧
        ∃ id ∈ st.reads, before.store.get? id = none ∧ r.reply = .unknownCell id)) ∧
    ∀ i : Instruction CellId,
      (i.Unresolvable ↔ i.opcode.flow = .member .call ∧
        ∀ m, i.operand = .payload (.method m) → m.sig = none) ∧
      (i.Unresolvable →
        (∀ returns, i.effect returns = ⟨0, 0⟩) ∧
        ∀ store : Store, (store.snapshot i).value.measures.effect = ⟨0, 0⟩ ∧
          (store.snapshot i).value.measures.effectReturning = ⟨0, 0⟩) := by
  intro before after
  have hcomes := before.store.act_comes st
  refine ⟨tracing_run s front, ⟨(before.step st).2, traceText true (before.store.act st).lines,
    getElem?_responses s front st back, trace_step before st, hcomes.accounted, fun hst => ?_⟩,
    fun i => ⟨Instruction.unresolvable_iff, fun h => ?_⟩⟩
  · obtain ⟨hstore, hlines, hmissing⟩ := hcomes.provides_or_missing.resolve_left hst
    rw [hlines, traceText_nil]
    exact ⟨hstore, rfl, hmissing⟩
  · have heffect : ∀ returns, i.effect returns = ⟨0, 0⟩ := Instruction.effect_of_unresolvable h
    refine ⟨heffect, fun store => ?_⟩
    rw [Store.measures_snapshot]
    exact ⟨heffect false, heffect true⟩

/-- A call of nothing, placed unchecked and moved, and then copied and moved again while tracing is
on. Then the copy is asked for its effect, and both are compared. -/
def unresolvedSteps : List Step := [
  .place "a" Opcode.call (.missing .method), .moveTo "a" 7, .trace true, .copy "a" "b",
  .moveTo "a" 9, .effect "b" true, .same "a" "b" false]

/-- The copy is told of where the original stood, twice when it is made and once when it is asked
for its effect. When both are compared, the first of them is told of first. -/
theorem trace_response_copied :
    let responses := (run {} unresolvedSteps).2
    (∃ r shown, responses[3]? = some r ∧ r.reply = .snapshot shown ∧
      shown.measures.effect = ⟨0, 0⟩ ∧
      r.trace = "[cil:stack] 'call' at offset 7 has no resolvable signature; reporting 0/0\n"
        ++ "[cil:stack] 'call' at offset 7 has no resolvable signature; reporting 0/0\n") ∧
    (∃ r, responses[5]? = some r ∧ r.reply = .effect ⟨0, 0⟩ ∧
      r.trace = "[cil:stack] 'call' at offset 7 has no resolvable signature; reporting 0/0\n") ∧
    (∃ r, responses[6]? = some r ∧ r.reply = .same true ∧
      r.trace = "[cil:stack] 'call' at offset 9 has no resolvable signature; reporting 0/0\n"
        ++ "[cil:stack] 'call' at offset 7 has no resolvable signature; reporting 0/0\n") := by
  intro responses
  refine ⟨?_, ?_, ?_⟩
  · obtain ⟨-, ⟨r, told, hr, htrace, haccount, -⟩, hcalls⟩ :=
      trace_response {} (unresolvedSteps.take 3) (.copy "a" "b") (unresolvedSteps.drop 4)
    obtain ⟨i, hi, ⟨-, hreply⟩, rfl⟩ := haccount (by decide +kernel)
    have hcall : i.Unresolvable := by
      cases hi
      exact (hcalls _).1.mpr ⟨rfl, nofun⟩
    obtain ⟨-, hshown⟩ := (hcalls i).2 hcall
    refine ⟨r, _, hr, hreply, (hshown _).1, ?_⟩
    rw [htrace]
    cases hi
    decide +kernel
  · obtain ⟨-, ⟨r, told, hr, htrace, haccount, -⟩, -⟩ :=
      trace_response {} (unresolvedSteps.take 5) (.effect "b" true) (unresolvedSteps.drop 6)
    obtain ⟨i, hi, hreply, rfl⟩ := haccount (by decide +kernel)
    cases hi
    refine ⟨r, hr, hreply, ?_⟩
    rw [htrace]
    decide +kernel
  · obtain ⟨-, ⟨r, told, hr, htrace, haccount, -⟩, -⟩ :=
      trace_response {} (unresolvedSteps.take 6) (.same "a" "b" false) []
    obtain ⟨i, j, hi, hj, hreply, rfl⟩ := haccount (by decide +kernel)
    cases hi
    cases hj
    refine ⟨r, hr, hreply, ?_⟩
    rw [htrace]
    decide +kernel

end Session

end CilIsa
