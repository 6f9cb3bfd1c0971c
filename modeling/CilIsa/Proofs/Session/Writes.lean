import CilIsa.Session.Step

/-!
# What the steps of a session write

Every step of a session writes one cell or none. `Store.Writes` says which step writes which
instruction into which cell, with all that the step has made sure of before it does so, and
`Store.act` does exactly this to the store (`Store.store_act_of_writes`,
`Store.store_act_of_not_writes`).

`Store.Comes` lists all that a step can come to, with its reply and the lines it offers. What is
known of every step is read off this list, and `Store.act` is taken apart only once
(`Store.act_comes`). A step misses a cell only where one that it reads is not there
(`Store.Comes.provides_or_missing`).

What holds of a store and is kept by every write holds after every run (`Session.invariant_run`).
The first such invariant is that no reference in a store leads nowhere (`Store.Closed`).
-/

namespace CilIsa

/-- The cell that a step is to write. -/
def Step.cell? : Step → Option CellId
  | .create id _ _ | .place id _ _ | .moveTo id _ => some id
  | .copy _ destination => some destination
  | .get _ | .size _ | .effect _ _ | .same _ _ _ | .holds _ _ | .trace _ => none

/-- The cells that a step reads, in the order in which it looks for them. -/
def Step.reads : Step → List CellId
  | .create _ _ p => p.references
  | .place _ _ o => o.references
  | .get id | .copy id _ | .moveTo id _ | .size id | .effect id _ | .holds id _ => [id]
  | .same a b _ => [b, a]
  | .trace _ => []

/-- The reply to a step that was done: nothing was rejected, and no cell was missing. -/
def Reply.Done : Reply → Prop
  | .rejected _ | .unknownCell _ => False
  | .snapshot _ | .offset _ | .size _ | .effect _ | .same _ | .holds _ | .tracing _ => True

namespace Store

/-- Every cell that the step reads is there. -/
def Provides (s : Store) (st : Step) : Prop := ∀ id ∈ st.reads, (s.get? id).isSome = true

instance (s : Store) (st : Step) : Decidable (s.Provides st) :=
  inferInstanceAs (Decidable (∀ id ∈ st.reads, (s.get? id).isSome = true))

/-- The step writes the instruction into the cell. -/
inductive Writes (s : Store) : Step → CellId → Instruction CellId → Prop where
  /-- The cells that the payload refers to are there, and it fits the opcode. -/
  | create {id : CellId} {op : Opcode} {p : Payload CellId} {i : Instruction CellId}
      (present : s.absent? p.references = none) (paired : Instruction.pair op p = .ok i) :
      Writes s (.create id op p) id i
  /-- The cells that the operand refers to are there. -/
  | place {id : CellId} {op : Opcode} {o : Operand CellId}
      (present : s.absent? o.references = none) :
      Writes s (.place id op o) id { opcode := op, operand := o }
  | copy {source destination : CellId} {i : Instruction CellId}
      (found : s.get? source = some i) : Writes s (.copy source destination) destination i
  | moveTo {id : CellId} {offset : UInt32} {i : Instruction CellId}
      (found : s.get? id = some i) : Writes s (.moveTo id offset) id (i.moveTo offset)

variable {s : Store} {st : Step} {id : CellId} {i : Instruction CellId}

theorem store_act_of_writes (h : s.Writes st id i) : (s.act st).value.1 = s.put id i := by
  cases h with
  | create present paired => simp [act, present, paired]
  | place present => simp [act, present]
  | copy found => simp [act, found]
  | moveTo found => simp [act, found]

theorem Writes.cell?_eq (h : s.Writes st id i) : st.cell? = some id := by
  cases h <;> rfl

theorem Writes.done (h : s.Writes st id i) :
    (s.act st).value.2.Done := by
  cases h with
  | create present paired => simp [act, present, paired, fill, Reply.Done]
  | place present => simp [act, present, fill, Reply.Done]
  | copy found => simp [act, found, fill, Reply.Done]
  | moveTo found => simp [act, found, Reply.Done]

theorem provides_of_get? (found : s.get? id = some i) (hst : st.reads = [id]) : s.Provides st := by
  intro k hk
  rw [hst, List.mem_singleton] at hk
  rw [hk, found, Option.isSome_some]

theorem Writes.provides (h : s.Writes st id i) : s.Provides st := by
  cases h with
  | create present paired => exact absent?_eq_none_iff.mp present
  | place present => exact absent?_eq_none_iff.mp present
  | copy found => exact provides_of_get? found rfl
  | moveTo found => exact provides_of_get? found rfl

/-- What a step comes to: the store after it, its reply, and the lines it offers. -/
inductive Comes (s : Store) (st : Step) : Store → Reply → List TraceLine → Prop where
  /-- A cell that the step reads is not there. -/
  | missing {id : CellId} (hread : id ∈ st.reads) (absent : s.get? id = none) :
      Comes s st s (.unknownCell id) []
  /-- The cells that the payload refers to are there, and it does not fit the opcode. -/
  | rejected {id : CellId} {op : Opcode} {p : Payload CellId} {m : Mismatch}
      (hst : st = .create id op p) (present : s.absent? p.references = none)
      (hpair : Instruction.pair op p = .error m) :
      Comes s st s (.rejected m) [⟨"instr", m.detail⟩]
  /-- A new instruction, or the copy of one, is put into a cell and shown. -/
  | filled {id : CellId} {i : Instruction CellId} (hwrites : s.Writes st id i)
      (hmove : ∀ offset, st ≠ .moveTo id offset) :
      Comes s st (s.put id i) (.snapshot ((s.put id i).snapshot i).value) i.measure.lines
  | moved {id : CellId} {offset : UInt32} {i : Instruction CellId} (hst : st = .moveTo id offset)
      (found : s.get? id = some i) : Comes s st (s.put id (i.moveTo offset)) (.offset offset) []
  | shown {id : CellId} {i : Instruction CellId} (hst : st = .get id)
      (found : s.get? id = some i) :
      Comes s st s (.snapshot (s.snapshot i).value) i.measure.lines
  | size {id : CellId} {i : Instruction CellId} (hst : st = .size id)
      (found : s.get? id = some i) : Comes s st s (.size i.size) []
  | effect {id : CellId} {returns : Bool} {i : Instruction CellId} (hst : st = .effect id returns)
      (found : s.get? id = some i) :
      Comes s st s (.effect (i.effect returns)) (i.tracedEffect returns).lines
  | same {a b : CellId} {returns : Bool} {i j : Instruction CellId}
      (hst : st = .same a b returns) (first : s.get? a = some i) (second : s.get? b = some j) :
      Comes s st s (.same (i.effect returns == j.effect returns))
        ((i.tracedEffect returns).lines ++ (j.tracedEffect returns).lines)
  | holds {id : CellId} {kind : Operand.Kind} {i : Instruction CellId} (hst : st = .holds id kind)
      (found : s.get? id = some i) : Comes s st s (.holds (i.operand.kind == kind)) []
  | trace {on : Bool} (hst : st = .trace on) : Comes s st s (.tracing on) []

/-- The first cell that is absent is the one that the step misses. -/
theorem comes_of_absent? {ids : List CellId} (h : s.absent? ids = some id) (hst : st.reads = ids) :
    s.Comes st s (.unknownCell id) [] :=
  .missing (hst ▸ List.mem_of_find?_eq_some h) (get?_of_absent? h)

/-- An instruction that is put into a cell is shown with the lines of its measures. -/
theorem comes_fill (h : s.Writes st id i) (hmove : ∀ offset, st ≠ .moveTo id offset) :
    s.Comes st (s.fill id i).value.1 (s.fill id i).value.2 (s.fill id i).lines := by
  simpa [fill, snapshot] using Comes.filled h hmove

/-- Every step comes to one of these. -/
theorem act_comes (s : Store) (st : Step) :
    s.Comes st (s.act st).value.1 (s.act st).value.2 (s.act st).lines := by
  cases st with
  | create id op p =>
    cases present : s.absent? p.references with
    | some missing => simpa [act, present] using comes_of_absent? present rfl
    | none =>
      cases paired : Instruction.pair op p with
      | ok i =>
        have hwrites : s.Writes (.create id op p) id i := .create present paired
        simpa [act, present, Instruction.tracedPair, paired] using comes_fill hwrites nofun
      | error m =>
        simpa [act, present, Instruction.tracedPair, paired] using
          Comes.rejected rfl present paired
  | place id op o =>
    cases present : s.absent? o.references with
    | some missing => simpa [act, present] using comes_of_absent? present rfl
    | none =>
      have hwrites : s.Writes (.place id op o) id { opcode := op, operand := o } := .place present
      simpa [act, present] using comes_fill hwrites nofun
  | get id =>
    cases found : s.get? id with
    | none => simpa [act, ask, found] using Comes.missing List.mem_cons_self found
    | some i => simpa [act, ask, found, snapshot] using Comes.shown rfl found
  | copy source destination =>
    cases found : s.get? source with
    | none => simpa [act, found] using Comes.missing List.mem_cons_self found
    | some i =>
      have hwrites : s.Writes (.copy source destination) destination i := .copy found
      simpa [act, found] using comes_fill hwrites nofun
  | moveTo id offset =>
    cases found : s.get? id with
    | none => simpa [act, found] using Comes.missing List.mem_cons_self found
    | some i => simpa [act, found] using Comes.moved rfl found
  | size id =>
    cases found : s.get? id with
    | none => simpa [act, ask, found] using Comes.missing List.mem_cons_self found
    | some i => simpa [act, ask, found] using Comes.size rfl found
  | effect id returns =>
    cases found : s.get? id with
    | none => simpa [act, ask, found] using Comes.missing List.mem_cons_self found
    | some i => simpa [act, ask, found] using Comes.effect rfl found
  | same a b returns =>
    cases second : s.get? b with
    | none => simpa [act, second] using Comes.missing List.mem_cons_self second
    | some j =>
      cases first : s.get? a with
      | none =>
        have hread : a ∈ (Step.same a b returns).reads := List.mem_cons_of_mem b List.mem_cons_self
        simpa [act, ask, first, second] using Comes.missing hread first
      | some i => simpa [act, ask, first, second] using Comes.same rfl first second
  | holds id kind =>
    cases found : s.get? id with
    | none => simpa [act, ask, found] using Comes.missing List.mem_cons_self found
    | some i => simpa [act, ask, found] using Comes.holds rfl found
  | trace on => exact Comes.trace rfl

/-- A step has every cell that it reads, or it is told which one is missing, and nothing else
happens. -/
theorem Comes.provides_or_missing {after : Store} {reply : Reply} {lines : List TraceLine}
    (h : s.Comes st after reply lines) :
    s.Provides st ∨ after = s ∧ lines = [] ∧
      ∃ id ∈ st.reads, s.get? id = none ∧ reply = .unknownCell id := by
  cases h with
  | @missing id hread absent => exact .inr ⟨rfl, rfl, id, hread, absent, rfl⟩
  | rejected hst present =>
    subst hst
    exact .inl (absent?_eq_none_iff.mp present)
  | filled hwrites => exact .inl hwrites.provides
  | moved hst found | shown hst found | size hst found | effect hst found | holds hst found =>
    subst hst
    exact .inl (provides_of_get? found rfl)
  | same hst first second =>
    subst hst
    refine .inl (List.forall_mem_cons.mpr ⟨?_, List.forall_mem_singleton.mpr ?_⟩)
    · rw [second, Option.isSome_some]
    · rw [first, Option.isSome_some]
  | trace hst =>
    subst hst
    exact .inl (List.forall_mem_nil _)

theorem Comes.store_eq {after : Store} {reply : Reply} {lines : List TraceLine}
    (h : s.Comes st after reply lines) (hst : ∀ id i, ¬s.Writes st id i) : after = s := by
  cases h with
  | filled hwrites => exact absurd hwrites (hst _ _)
  | @moved id offset i hmove found =>
    subst hmove
    exact absurd (.moveTo found) (hst id (i.moveTo offset))
  | _ => rfl

theorem store_act_of_not_writes (h : ∀ id i, ¬s.Writes st id i) : (s.act st).value.1 = s :=
  (s.act_comes st).store_eq h

/-- A step that is done writes the cell that it is to write. -/
theorem Comes.exists_writes {after : Store} {reply : Reply} {lines : List TraceLine}
    (h : s.Comes st after reply lines) (hcell : st.cell? = some id) (hdone : reply.Done) :
    ∃ i, s.Writes st id i := by
  cases h with
  | missing => exact hdone.elim
  | rejected => exact hdone.elim
  | filled hwrites =>
    obtain rfl := Option.some.inj (hwrites.cell?_eq.symm.trans hcell)
    exact ⟨_, hwrites⟩
  | moved hst found =>
    subst hst
    cases hcell
    exact ⟨_, .moveTo found⟩
  | shown hst | size hst | effect hst | same hst | holds hst | trace hst =>
    subst hst
    cases hcell

theorem exists_writes_iff :
    (∃ i, s.Writes st id i) ↔ st.cell? = some id ∧ (s.act st).value.2.Done := by
  constructor
  · rintro ⟨i, hwrites⟩
    exact ⟨hwrites.cell?_eq, hwrites.done⟩
  · rintro ⟨hcell, hdone⟩
    exact (s.act_comes st).exists_writes hcell hdone

/-- A step writes one cell or leaves the store as it is. -/
theorem store_act_cases (s : Store) (st : Step) :
    (∃ id i, s.Writes st id i ∧ (s.act st).value.1 = s.put id i) ∨ (s.act st).value.1 = s := by
  by_cases h : ∃ id i, s.Writes st id i
  · obtain ⟨id, i, hwrites⟩ := h
    exact Or.inl ⟨id, i, hwrites, store_act_of_writes hwrites⟩
  · exact Or.inr (store_act_of_not_writes fun id i hwrites => h ⟨id, i, hwrites⟩)

end Store

/-! ### Runs -/

/-- What every write of a run keeps holds after the run if it holds before. -/
theorem Session.invariant_run {P : Store → Prop} {steps : List Step}
    (hwrite : ∀ st ∈ steps, ∀ s id i, P s → s.Writes st id i → P (s.put id i)) {s : Session}
    (hs : P s.store) : P (s.run steps).1.store := by
  -- The rest of the run starts from another session, so the session varies with the steps.
  induction steps generalizing s with
  | nil => exact hs
  | cons st rest ih =>
    have hstep : P (s.step st).1.store := by
      rcases s.store.store_act_cases st with ⟨id, i, hwrites, hstore⟩ | hstore
      · have hput := hwrite st List.mem_cons_self s.store id i hs hwrites
        rwa [← hstore] at hput
      · rwa [← hstore] at hs
    exact ih (fun st' hst' => hwrite st' (List.mem_cons_of_mem st hst')) hstep

namespace Store

/-! ### References -/

/-- Every reference of a stored instruction leads to a cell that is there. -/
def Closed (s : Store) : Prop :=
  ∀ id i, s.get? id = some i → ∀ ref ∈ i.operand.references, (s.get? ref).isSome = true

theorem closed_empty : Closed {} := by
  intro id i h
  cases h

variable {s : Store} {st : Step} {id : CellId} {i : Instruction CellId}

/-- What is written refers to cells that are there. -/
theorem Writes.references (h : s.Writes st id i) (hs : s.Closed) :
    ∀ ref ∈ i.operand.references, (s.get? ref).isSome = true := by
  cases h with
  | create present paired =>
    obtain ⟨-, rfl⟩ := Instruction.pair_eq_ok_iff.mp paired
    exact absent?_eq_none_iff.mp present
  | place present => exact absent?_eq_none_iff.mp present
  | copy found => exact hs _ _ found
  | @moveTo id offset j found => exact hs id j found

theorem Closed.put (hs : s.Closed) (h : s.Writes st id i) : (s.put id i).Closed := by
  intro k j hget ref href
  refine isSome_get?_put ?_ id i
  rw [get?_put] at hget
  split at hget
  · cases hget
    exact h.references hs ref href
  · exact hs k j hget ref href

/-- No run leaves a reference that leads nowhere, not even to a cell that was overwritten. -/
theorem closed_run {s : Session} (hs : s.store.Closed) (steps : List Step) :
    (s.run steps).1.store.Closed :=
  Session.invariant_run (fun _ _ _ _ _ hclosed hwrites => hclosed.put hwrites) hs

end Store

end CilIsa
