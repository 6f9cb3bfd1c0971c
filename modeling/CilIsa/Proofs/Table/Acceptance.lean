import Mathlib.Data.List.Induction
import Mathlib.Data.List.Nodup
import Mathlib.Data.List.Perm.Subperm
import Mathlib.Data.Nat.Find
import Mathlib.Order.Bounds.Basic
import CilIsa.Proofs.Opcode.Standard
import CilIsa.Table.Checked

/-!
# Which lists of opcodes make a table

`Table.build` scans a list once, with the entries before the current one at hand. What it decides
has a description without any scan: a list makes a table when it is `Table.Acceptable`, a condition
on all of its entries and on all pairs of them. The fault that is reported for any other list
belongs to the least position at which the list stops being acceptable, and there to the first check
that fails, in the order of `EntryCheck.inOrder`.

The scan of a list with more entries is the scan of the list, and goes on only when that finds
nothing (`Table.firstFault?_append`). Everything else follows from this by adding one entry at a
time (`Table.acceptable_concat`).
-/

namespace CilIsa

/-- The faults that an entry can have. -/
inductive EntryCheck where
  /-- The upper byte of the code is neither zero nor the escape byte. -/
  | upperByte
  /-- The code is the escape byte alone. -/
  | bareEscape
  /-- An entry before it has the code. -/
  | repeatedCode
  /-- There is no mnemonic, or an empty one. -/
  | missingMnemonic
  /-- An entry before it has the mnemonic. -/
  | repeatedMnemonic
  deriving DecidableEq

namespace EntryCheck

/-- Whether an entry has the fault, given the entries before it. -/
def Fails (earlier : List Opcode) (op : Opcode) : EntryCheck → Prop
  | upperByte => op.code.high ≠ 0 ∧ op.code.high ≠ 0xFE
  | bareEscape => op.code = 0x00FE
  | repeatedCode => ∃ e ∈ earlier, e.code = op.code
  | missingMnemonic => op.mnemonic? = none ∨ op.mnemonic? = some ""
  | repeatedMnemonic => ∃ e ∈ earlier, e.mnemonic? = op.mnemonic?

instance (earlier : List Opcode) (op : Opcode) : ∀ c : EntryCheck, Decidable (c.Fails earlier op)
  | upperByte => inferInstanceAs (Decidable (_ ∧ _))
  | bareEscape => inferInstanceAs (Decidable (_ = _))
  | repeatedCode => inferInstanceAs (Decidable (∃ e ∈ earlier, e.code = op.code))
  | missingMnemonic => inferInstanceAs (Decidable (_ ∨ _))
  | repeatedMnemonic => inferInstanceAs (Decidable (∃ e ∈ earlier, e.mnemonic? = op.mnemonic?))

/-- All faults, in the order in which they are looked for. -/
def inOrder : List EntryCheck :=
  [upperByte, bareEscape, repeatedCode, missingMnemonic, repeatedMnemonic]

/-- The entry has the fault, and none that is looked for before it. -/
def FailsFirst (earlier : List Opcode) (op : Opcode) (c : EntryCheck) : Prop :=
  c.Fails earlier op ∧ ∀ d ∈ inOrder.takeWhile (· ≠ c), ¬d.Fails earlier op

/-- What is reported of the fault. A code is given in four digits (`Code.exists_padded_eq`). -/
def diagnostic (op : Opcode) : EntryCheck → Diagnostic
  | upperByte => .error ("instr.invalid_opcode_value: opcode value " ++ op.code.padded
      ++ " is neither one-byte nor 0xFE-prefixed")
  | bareEscape => .error ("instr.invalid_opcode_value: opcode value " ++ op.code.padded
      ++ " is the two-byte escape prefix")
  | repeatedCode => .error ("instr.duplicate_opcode: opcode value " ++ op.code.padded
      ++ " listed twice")
  | missingMnemonic => .error ("instr.invalid_opcode_value: opcode value " ++ op.code.padded
      ++ " has no mnemonic")
  | repeatedMnemonic => .error ("instr.duplicate_opcode: mnemonic '" ++ op.mnemonic
      ++ "' listed twice")

/-- The error of the fault. -/
def error (op : Opcode) : EntryCheck → TableError
  | upperByte => .unencodable op.code
  | bareEscape => .bareEscape op.code
  | repeatedCode => .duplicateCode op.code
  | missingMnemonic => .missingMnemonic op.code
  | repeatedMnemonic => .duplicateMnemonic op.mnemonic

/-- The fault of an entry depends on the entries before it only as a set. -/
theorem fails_congr {xs ys : List Opcode} (h : ∀ e, e ∈ xs ↔ e ∈ ys) (op : Opcode)
    (c : EntryCheck) : c.Fails xs op ↔ c.Fails ys op := by
  cases c <;> simp only [Fails, h]

theorem mem_inOrder (c : EntryCheck) : c ∈ inOrder := by
  cases c <;> decide

/-- The fault that comes first is the one that a search in order finds. -/
theorem find?_inOrder_eq_some_iff {earlier : List Opcode} {op : Opcode} {c : EntryCheck} :
    inOrder.find? (fun d => d.Fails earlier op) = some c ↔ c.FailsFirst earlier op := by
  obtain ⟨front, rest, hfront, hsplit, hmem⟩ : ∃ front rest,
      inOrder.takeWhile (· ≠ c) = front ∧ inOrder = front ++ c :: rest ∧ c ∉ front := by
    cases c <;> exact ⟨_, _, rfl, rfl, by decide⟩
  rw [FailsFirst, hfront, hsplit, List.find?_append]
  constructor
  · intro h
    cases hsearch : front.find? (fun d => d.Fails earlier op) with
    | some d =>
      rw [hsearch, Option.some_or, Option.some.injEq] at h
      exact absurd (h ▸ List.mem_of_find?_eq_some hsearch) hmem
    | none =>
      rw [hsearch, Option.none_or] at h
      exact ⟨by simpa using List.find?_some h, by simpa using hsearch⟩
  · rintro ⟨hc, hnone⟩
    rw [List.find?_eq_none.mpr (by simpa using hnone), Option.none_or,
      List.find?_cons_of_pos (by simpa using hc)]

theorem find?_inOrder_eq_none_iff {earlier : List Opcode} {op : Opcode} :
    inOrder.find? (fun d => d.Fails earlier op) = none ↔ ∀ c : EntryCheck, ¬c.Fails earlier op := by
  simp [List.find?_eq_none, mem_inOrder]

end EntryCheck

namespace Table

/-! ### One entry -/

/-- The fault that is reported of an entry is the first one that it has. -/
theorem entryFault?_eq (earlier : List Opcode) (op : Opcode) :
    entryFault? earlier op =
      (EntryCheck.inOrder.find? fun c => c.Fails earlier op).map (EntryCheck.error op) := by
  have hupper : (op.code.high ≠ 0 ∧ ¬op.code.escaped) ↔
      EntryCheck.upperByte.Fails earlier op := by
    rw [Code.escaped_iff]
    rfl
  have hescape : (op.code.high = 0 ∧ op.code.low = Code.escape) ↔
      EntryCheck.bareEscape.Fails earlier op := Code.eq_bareEscape_iff.symm
  have hcode : earlier.any (·.code == op.code) ↔ EntryCheck.repeatedCode.Fails earlier op := by
    simp [EntryCheck.Fails]
  have hmissing : op.mnemonic = "" ↔ EntryCheck.missingMnemonic.Fails earlier op :=
    Opcode.mnemonic_eq_empty_iff
  -- Mnemonics are compared as texts, in which one that is missing is empty.
  have hmnemonic (h : ¬EntryCheck.missingMnemonic.Fails earlier op) :
      earlier.any (·.mnemonic == op.mnemonic) ↔
        EntryCheck.repeatedMnemonic.Fails earlier op := by
    rw [← hmissing] at h
    simp [EntryCheck.Fails, Opcode.mnemonic_eq_iff h]
  simp only [entryFault?, hupper, hescape, hcode, hmissing]
  simp only [EntryCheck.inOrder, List.find?_cons]
  split_ifs <;> simp_all [EntryCheck.error]

theorem entryFault?_eq_none_iff {earlier : List Opcode} {op : Opcode} :
    entryFault? earlier op = none ↔ ∀ c : EntryCheck, ¬c.Fails earlier op := by
  rw [entryFault?_eq, Option.map_eq_none_iff, EntryCheck.find?_inOrder_eq_none_iff]

theorem entryFault?_eq_some_iff {earlier : List Opcode} {op : Opcode} {e : TableError} :
    entryFault? earlier op = some e ↔
      ∃ c : EntryCheck, c.FailsFirst earlier op ∧ c.error op = e := by
  simp only [entryFault?_eq, Option.map_eq_some_iff, EntryCheck.find?_inOrder_eq_some_iff]

/-- The order of the entries before it does not matter to the fault of an entry. -/
theorem entryFault?_reverse (earlier : List Opcode) (op : Opcode) :
    entryFault? earlier.reverse op = entryFault? earlier op := by
  simp only [entryFault?_eq, EntryCheck.fails_congr (fun _ => List.mem_reverse)]

/-! ### Lists that make a table -/

/-- What a list must be to make a table. -/
structure Acceptable (ops : List Opcode) : Prop where
  length_le : ops.length ≤ 512
  high : ∀ op ∈ ops, op.code.high = 0 ∨ op.code.high = 0xFE
  ne_escape : ∀ op ∈ ops, op.code ≠ 0x00FE
  codes : (ops.map Opcode.code).Nodup
  named : ∀ op ∈ ops, op.mnemonic? ≠ none ∧ op.mnemonic? ≠ some ""
  mnemonics : (ops.map Opcode.mnemonic?).Nodup

theorem acceptable_nil : Acceptable [] := by
  constructor <;> simp

/-- Values stay distinct when entries are left out or change places. -/
theorem nodup_map_of_subperm {α : Type} {f : Opcode → α} {xs ys : List Opcode}
    (h : (xs.map f).Nodup) (hsub : ys.Subperm xs) : (ys.map f).Nodup := by
  -- Entries with equal values may have been left out, so that `List.Subperm.map` does not apply.
  obtain ⟨kept, hperm, hkept⟩ := hsub
  have hnodup : (kept.map f).Nodup := h.sublist (hkept.map f)
  exact (hperm.map f).nodup_iff.mp hnodup

/-- What is left of an acceptable list is acceptable, in any order. -/
theorem Acceptable.of_subperm {xs ys : List Opcode} (h : Acceptable xs) (hsub : ys.Subperm xs) :
    Acceptable ys where
  length_le := hsub.length_le.trans h.length_le
  high op hop := h.high op (hsub.subset hop)
  ne_escape op hop := h.ne_escape op (hsub.subset hop)
  codes := nodup_map_of_subperm h.codes hsub
  named op hop := h.named op (hsub.subset hop)
  mnemonics := nodup_map_of_subperm h.mnemonics hsub

/-- A value for each entry stays distinct when the value of the new entry is new. -/
theorem nodup_map_concat_iff {α : Type} {f : Opcode → α} {ops : List Opcode} {op : Opcode} :
    ((ops ++ [op]).map f).Nodup ↔ (ops.map f).Nodup ∧ ¬∃ e ∈ ops, f e = f op := by
  rw [List.map_append, List.map_singleton, ← List.concat_eq_append, List.nodup_concat,
    List.mem_map, and_comm]

/-- An entry may be added to an acceptable list when there is room and it has no fault. -/
theorem acceptable_concat {ops : List Opcode} {op : Opcode} :
    Acceptable (ops ++ [op]) ↔
      Acceptable ops ∧ ops.length < 512 ∧ ∀ c : EntryCheck, ¬c.Fails ops op := by
  have hlast : op ∈ ops ++ [op] := List.mem_append_right ops List.mem_cons_self
  constructor
  · intro h
    have hinit : Acceptable ops := h.of_subperm (List.sublist_append_left ops [op]).subperm
    refine ⟨hinit, by simpa [Nat.lt_succ_iff] using h.length_le, fun c => ?_⟩
    cases c with
    | upperByte => exact fun hc => (h.high op hlast).elim hc.1 hc.2
    | bareEscape => exact h.ne_escape op hlast
    | repeatedCode => exact (nodup_map_concat_iff.mp h.codes).2
    | missingMnemonic => exact fun hc => hc.elim (h.named op hlast).1 (h.named op hlast).2
    | repeatedMnemonic => exact (nodup_map_concat_iff.mp h.mnemonics).2
  · rintro ⟨h, hlen, hnone⟩
    have hhigh : op.code.high = 0 ∨ op.code.high = 0xFE := by
      by_contra hcon
      exact hnone .upperByte (not_or.mp hcon)
    have hnamed : op.mnemonic? ≠ none ∧ op.mnemonic? ≠ some "" := not_or.mp (hnone .missingMnemonic)
    refine ⟨by simpa [Nat.lt_succ_iff] using hlen, ?_, ?_, ?_, ?_, ?_⟩
    · simpa [or_imp, forall_and, hhigh] using h.high
    · simpa [or_imp, forall_and] using ⟨h.ne_escape, hnone .bareEscape⟩
    · exact nodup_map_concat_iff.mpr ⟨h.codes, hnone .repeatedCode⟩
    · simpa [or_imp, forall_and, hnamed] using h.named
    · exact nodup_map_concat_iff.mpr ⟨h.mnemonics, hnone .repeatedMnemonic⟩

/-- A list that is not acceptable stops being so with one of its entries. -/
theorem exists_isLeast_not_acceptable {ops : List Opcode} (h : ¬Acceptable ops) :
    ∃ i < ops.length, IsLeast {n | ¬Acceptable (ops.take (n + 1))} i ∧
      Acceptable (ops.take i) := by
  have hex : ∃ n, ¬Acceptable (ops.take (n + 1)) :=
    ⟨ops.length, by rwa [List.take_of_length_le (by omega)]⟩
  classical
  obtain ⟨i, hnot, hleast⟩ : ∃ i, ¬Acceptable (ops.take (i + 1)) ∧
      ∀ n, ¬Acceptable (ops.take (n + 1)) → i ≤ n :=
    ⟨Nat.find hex, Nat.find_spec hex, fun n hn => Nat.find_min' hex hn⟩
  have hinit : Acceptable (ops.take i) := by
    cases i with
    | zero => exact acceptable_nil
    | succ j =>
      by_contra hcon
      have hle := hleast j hcon
      omega
  have hi : i < ops.length := by
    by_contra hge
    rw [List.take_of_length_le (by omega)] at hinit
    exact h hinit
  exact ⟨i, hi, ⟨hnot, hleast⟩, hinit⟩

/-! ### The scan -/

/-- The scan of a longer list goes on only where that of its initial part finds nothing. -/
theorem firstFault?_append (earlier xs ys : List Opcode) :
    firstFault? earlier (xs ++ ys) =
      (firstFault? earlier xs <|> firstFault? (xs.reverse ++ earlier) ys) := by
  induction xs generalizing earlier with
  | nil => simp [firstFault?]
  | cons op xs ih =>
    rw [List.cons_append, firstFault?, firstFault?, ih]
    cases entryFault? earlier op <;> simp

/-- Nothing is found exactly in the lists that are acceptable, apart from their length. -/
theorem firstFault?_eq_none_iff {ops : List Opcode} (hlen : ops.length ≤ 512) :
    firstFault? [] ops = none ↔ Acceptable ops := by
  -- Lists grow at the end, where the scan looks last.
  induction ops using List.reverseRecOn with
  | nil => exact iff_of_true rfl acceptable_nil
  | append_singleton ops op ih =>
    rw [List.length_append, List.length_singleton] at hlen
    rw [firstFault?_append, acceptable_concat, ← ih (by omega), ← entryFault?_eq_none_iff,
      List.append_nil, firstFault?, firstFault?, entryFault?_reverse]
    cases firstFault? [] ops <;> cases entryFault? ops op <;> simp; omega

/-- What is found belongs to the entry with which the list stops being acceptable. -/
theorem firstFault?_eq_some {ops : List Opcode} {e : TableError} (hlen : ops.length ≤ 512)
    (h : firstFault? [] ops = some e) :
    ∃ i, ∃ hi : i < ops.length, IsLeast {n | ¬Acceptable (ops.take (n + 1))} i ∧
      ∃ c : EntryCheck, c.FailsFirst (ops.take i) ops[i] ∧ c.error ops[i] = e := by
  have hops : ¬Acceptable ops := by
    rw [← firstFault?_eq_none_iff hlen, h]
    simp
  obtain ⟨i, hi, hleast, hinit⟩ := exists_isLeast_not_acceptable hops
  have hconcat : ops.take (i + 1) = ops.take i ++ [ops[i]] := List.take_succ_eq_append_getElem hi
  have hsplit : ops = ops.take i ++ ops[i] :: ops.drop (i + 1) := by
    rw [← List.drop_eq_getElem_cons hi, List.take_append_drop]
  have hlength : (ops.take i).length < 512 := by
    rw [List.length_take]
    omega
  have hfault : entryFault? (ops.take i) ops[i] ≠ none := by
    rw [Ne, entryFault?_eq_none_iff]
    intro hnone
    exact hleast.1 (hconcat ▸ acceptable_concat.mpr ⟨hinit, hlength, hnone⟩)
  obtain ⟨found, hfound⟩ := Option.ne_none_iff_exists'.mp hfault
  refine ⟨i, hi, hleast, entryFault?_eq_some_iff.mp ?_⟩
  -- The scan finds nothing before the entry, and stops there.
  rw [hsplit, firstFault?_append, (firstFault?_eq_none_iff hlength.le).mpr hinit, List.append_nil,
    firstFault?, entryFault?_reverse] at h
  rw [hfound] at h ⊢
  simpa using h

/-! ### Building -/

theorem build_of_length_gt {ops : List Opcode} (h : 512 < ops.length) :
    build ops = .error (.tooMany ops.length) :=
  if_pos h

theorem build_of_length_le {ops : List Opcode} (h : ops.length ≤ 512) :
    build ops = (firstFault? [] ops).elim (.ok (ofList ops)) .error := by
  rw [build, if_neg (by rw [capacity]; omega)]
  cases firstFault? [] ops <;> rfl

theorem build_eq_error_iff {ops : List Opcode} {e : TableError} (h : ops.length ≤ 512) :
    build ops = .error e ↔ firstFault? [] ops = some e := by
  rw [build_of_length_le h]
  cases firstFault? [] ops <;> simp

/-- An acceptable list makes the table that lists it. -/
theorem build_eq_ok_iff {ops : List Opcode} {t : Table} :
    build ops = .ok t ↔ Acceptable ops ∧ t = ofList ops := by
  rcases Nat.lt_or_ge 512 ops.length with hgt | hle
  · rw [build_of_length_gt hgt]
    refine iff_of_false (by simp) fun h => ?_
    have := h.1.length_le
    omega
  · rw [build_of_length_le hle, ← firstFault?_eq_none_iff hle]
    cases firstFault? [] ops <;> simp [eq_comm]

/-! ### The standard set -/

theorem acceptable_standard : Acceptable Opcode.standard where
  length_le := by decide +kernel
  high := by decide +kernel
  ne_escape := by decide +kernel
  codes := Opcode.nodup_codes_standard
  named := by decide +kernel
  mnemonics := Opcode.nodup_mnemonics_standard

/-- The table of the standard set, or of a list that makes a table. -/
def Checked (t : Table) : Prop := t = standard ∨ ∃ ops, build ops = .ok t

theorem checked_iff {t : Table} : t.Checked ↔ ∃ ops, Acceptable ops ∧ t = ofList ops := by
  simp only [Checked, build_eq_ok_iff]
  exact or_iff_right_of_imp fun h => ⟨Opcode.standard, acceptable_standard, h⟩

end Table

/-! ### What is reported -/

/-- A detail of three parts behind a tag. -/
private theorem append_detail (tag a b c : String) :
    tag ++ ": " ++ (a ++ b ++ c) = tag ++ ": " ++ a ++ b ++ c := by
  simp only [String.append_assoc]

theorem EntryCheck.diagnostic_error (c : EntryCheck) (op : Opcode) :
    (c.error op).diagnostic = c.diagnostic op := by
  rw [TableError.diagnostic_eq]
  cases c <;> exact congrArg Diagnostic.error (append_detail _ _ _ _)

namespace Table

/-- What is reported of a list that is too long. -/
def tooLong (count : Nat) : Diagnostic :=
  .error ("instr.invalid_opcode_value: table holds " ++ toString count
    ++ " opcodes; at most 512 can be encoded")

theorem diagnostic_tooMany (count : Nat) : (TableError.tooMany count).diagnostic = tooLong count := by
  rw [TableError.diagnostic_eq]
  exact congrArg Diagnostic.error (append_detail _ _ _ _)

/-- **Which lists make a table, and what is reported of the others.** A list makes a table exactly
when it is acceptable, and the table lists it as it is. A list that is too long is reported as such.
What is reported of any other list belongs to the least position with which it stops being
acceptable, and there to the first fault. More entries after it do not change the report. -/
theorem build_decides (ops : List Opcode) :
    ((∃ t, build ops = .ok t) ↔ Acceptable ops) ∧
    (∀ t, build ops = .ok t → t.entries.toList = ops) ∧
    (512 < ops.length → ∃ e, build ops = .error e ∧ e.diagnostic = tooLong ops.length) ∧
    (∀ e, build ops = .error e → ops.length ≤ 512 →
      ∃ i, ∃ hi : i < ops.length, IsLeast {n | ¬Acceptable (ops.take (n + 1))} i ∧
        ∃ c : EntryCheck, c.FailsFirst (ops.take i) ops[i] ∧ e.diagnostic = c.diagnostic ops[i]) ∧
    (∀ e more, build ops = .error e → (ops ++ more).length ≤ 512 →
      build (ops ++ more) = .error e) := by
  refine ⟨?_, ?_, ?_, ?_, ?_⟩
  · simp only [build_eq_ok_iff, exists_and_left, exists_eq, and_true]
  · intro t ht
    rw [(build_eq_ok_iff.mp ht).2, ofList]
  · intro hlen
    exact ⟨_, build_of_length_gt hlen, diagnostic_tooMany ops.length⟩
  · intro e he hlen
    obtain ⟨i, hi, hleast, c, hc, rfl⟩ :=
      firstFault?_eq_some hlen ((build_eq_error_iff hlen).mp he)
    exact ⟨i, hi, hleast, c, hc, EntryCheck.diagnostic_error c ops[i]⟩
  · intro e more he hlen
    have hshort : ops.length ≤ 512 := by
      rw [List.length_append] at hlen
      omega
    rw [build_eq_error_iff hshort] at he
    rw [build_eq_error_iff hlen, firstFault?_append, he]
    rfl

end Table

end CilIsa
