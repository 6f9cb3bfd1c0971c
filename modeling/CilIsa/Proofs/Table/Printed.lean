import CilIsa.Inspector.Line
import CilIsa.Proofs.Table.Spelling

/-!
# Printed codes

The line that describes an opcode shows its code in two digits or in four. What is printed there can
be typed in again: as long as no mnemonic is in its way it leads back to the opcode, in either case
of its letters and with zeros in front of its digits (`Table.lookup_printed`). Printing writes
digits that denote the code, and neither change makes a difference to what digits denote
(`Hex.Denotes.recased`, `Hex.Denotes.padded`).
-/

namespace CilIsa

namespace Hex

/-- The second character is the first, or the same letter in the other case. -/
def SameLetter (c d : Char) : Prop := d = c ∨ d = c.toLower ∨ d = c.toUpper

/-- The text is the printed one, but for zeros that fill its digits up to four at most, and for the
case of its letters. -/
def Respells (printed s : String) : Prop :=
  ∃ digits zeros, printed.toList = '0' :: 'x' :: digits ∧ zeros + digits.length ≤ 4 ∧
    List.Forall₂ SameLetter ('0' :: 'x' :: (List.replicate zeros '0' ++ digits)) s.toList

/-- The case of a digit does not matter. -/
theorem IsDigit.recased {c d : Char} {n : Nat} (h : IsDigit c n) (hcase : SameLetter c d) :
    IsDigit d n := by
  have hmem : c ∈ "0123456789abcdef".toList ++ "0123456789ABCDEF".toList :=
    List.mem_append.mpr (h.imp List.mem_of_getElem? List.mem_of_getElem?)
  -- Not a statement on all members: it would be decided by going through all characters there are.
  have hvalue : ("0123456789abcdef".toList ++ "0123456789ABCDEF".toList).all (fun c =>
      value? c.toLower == value? c && value? c.toUpper == value? c) = true := by decide
  obtain ⟨hlower, hupper⟩ := Bool.and_eq_true_iff.mp (List.all_eq_true.mp hvalue c hmem)
  rw [beq_iff_eq] at hlower hupper
  rw [← value?_eq_some_iff] at h ⊢
  rcases hcase with rfl | rfl | rfl
  · exact h
  · rw [hlower, h]
  · rw [hupper, h]

theorem forall₂_isDigit_recased {cs ds : List Char} {ns : List Nat}
    (h : List.Forall₂ IsDigit cs ns) (hcase : List.Forall₂ SameLetter cs ds) :
    List.Forall₂ IsDigit ds ns := by
  induction h generalizing ds with
  | nil =>
    cases hcase
    exact .nil
  | cons hdigit _ ih =>
    obtain _ | ⟨hletter, hrest⟩ := hcase
    exact .cons (hdigit.recased hletter) (ih hrest)

theorem Denotes.recased {cs ds : List Char} {n : Nat} (h : Denotes cs n)
    (hcase : List.Forall₂ SameLetter cs ds) : Denotes ds n := by
  obtain ⟨ns, hdigits, hvalue⟩ := h
  exact ⟨ns, forall₂_isDigit_recased hdigits (List.forall₂_reverse_iff.mpr hcase), hvalue⟩

/-- Zeros in front of the digits do not matter. -/
theorem Denotes.padded {cs : List Char} {n : Nat} (h : Denotes cs n) (zeros : Nat) :
    Denotes (List.replicate zeros '0' ++ cs) n := by
  induction zeros with
  | zero => exact h
  | succ zeros ih =>
    have hread : ∀ cs, read? ('0' :: cs) = read? cs := fun _ => rfl
    rw [List.replicate_succ, List.cons_append, ← read?_eq_some_iff, hread, read?_eq_some_iff]
    exact ih

theorem denotes_digits {width n : Nat} (h : n < Nat.pow 16 width) :
    Denotes (digits width n) n :=
  read?_eq_some_iff.mp (read?_digits h)

theorem sameLetter_zero {c : Char} (h : SameLetter '0' c) : c = '0' := by
  rcases h with h | h | h <;> exact h

theorem sameLetter_x {c : Char} (h : SameLetter 'x' c) : c = 'x' ∨ c = 'X' := by
  rcases h with h | h | h
  · exact .inl h
  · exact .inl h
  · exact .inr h

/-- Whatever respells a number spells it. -/
theorem Respells.spells {printed s : String} {digits : List Char} {n : Nat}
    (h : Respells printed s) (hprinted : printed.toList = '0' :: 'x' :: digits) (hne : digits ≠ [])
    (hdenotes : Denotes digits n) : Spells s n := by
  obtain ⟨digits', zeros, hprinted', hroom, hcase⟩ := h
  obtain rfl : digits = digits' := by simpa [hprinted] using hprinted'
  obtain ⟨zero, _, hzero, hrest, hs⟩ := List.forall₂_cons_left_iff.mp hcase
  obtain ⟨x, cs, hx, hcs, rfl⟩ := List.forall₂_cons_left_iff.mp hrest
  rw [sameLetter_zero hzero] at hs
  have hlength : cs.length = zeros + digits.length := by
    rw [← hcs.length_eq, List.length_append, List.length_replicate]
  have hpos : 0 < digits.length := List.length_pos_iff.mpr hne
  exact ⟨x, cs, hs, sameLetter_x hx, by omega, by omega, (hdenotes.padded zeros).recased hcs⟩

/-- Every number respells itself. -/
theorem respells_self {s : String} {digits : List Char} (h : s.toList = '0' :: 'x' :: digits)
    (hlength : digits.length ≤ 4) : Respells s s := by
  refine ⟨digits, 0, h, by omega, ?_⟩
  rw [h]
  exact List.forall₂_same.mpr fun _ _ => .inl rfl

end Hex

namespace Code

/-- The digits of the printed code. -/
def printedDigits (c : Code) : List Char := Hex.digits (if c.toNat < 256 then 2 else 4) c.toNat

theorem toList_compact (c : Code) : c.compact.toList = '0' :: 'x' :: c.printedDigits := by
  rw [compact, String.toList_append, String.toList_ofList, String.toList_ofList]
  rfl

theorem printedDigits_ne_nil (c : Code) : c.printedDigits ≠ [] := by
  rw [← List.length_pos_iff, printedDigits, Hex.length_digits]
  split <;> decide

theorem length_printedDigits_le (c : Code) : c.printedDigits.length ≤ 4 := by
  rw [printedDigits, Hex.length_digits]
  split <;> decide

theorem denotes_printedDigits (c : Code) : Hex.Denotes c.printedDigits c.toNat := by
  refine Hex.denotes_digits ?_
  have := c.toNat_lt
  split <;> simpa

theorem spells_of_respells {c : Code} {s : String} (h : Hex.Respells c.compact s) :
    Hex.Spells s c.toNat :=
  h.spells c.toList_compact c.printedDigits_ne_nil c.denotes_printedDigits

theorem respells_compact (c : Code) : Hex.Respells c.compact c.compact :=
  Hex.respells_self c.toList_compact c.length_printedDigits_le

end Code

namespace Table

variable {ops : List Opcode} {op : Opcode}

/-- A spelling of the printed code that is no mnemonic leads to the opcode. -/
theorem lookup?_of_respells (h : Acceptable ops) (hop : op ∈ ops) {s : String}
    (hs : Hex.Respells op.code.compact s) (hnone : ∀ e ∈ ops, e.mnemonic? ≠ some s) :
    (ofList ops).lookup? s = some op := by
  rw [lookup?_of_spells ((named?_eq_none_iff h s).mpr hnone) (Code.spells_of_respells hs),
    UInt16.ofNat_toNat]
  exact (find?_eq_some_iff h _ op).mpr ⟨hop, rfl⟩

theorem lookup?_mnemonic (h : Acceptable ops) (hop : op ∈ ops) :
    (ofList ops).lookup? op.mnemonic = some op := by
  have hmnemonic := Opcode.mnemonic?_eq_some_mnemonic (h.named op hop).1
  exact lookup?_of_named? ((named?_eq_some_iff h _ op).mpr ⟨hop, hmnemonic⟩)

/-- **The printed code reads back.** In a checked table every opcode is found by its mnemonic, and
by the code that its line shows, spelled with letters of either case and with any zeros in front for
which there is room, unless the spelling is a mnemonic. So the line of what is found under the code
is the line of what is found under the mnemonic. -/
theorem lookup_printed {t : Table} (h : t.Checked) {op : Opcode} (hop : op ∈ t.entries)
    (returns : Bool) :
    (∃ rest, (op.describe returns).value =
      op.mnemonic ++ " code=" ++ op.code.compact ++ " size=" ++ rest) ∧
    t.lookup? op.mnemonic = some op ∧
    ((∀ e ∈ t.entries, e.mnemonic? ≠ some op.code.compact) →
      t.lookup? op.code.compact = some op) ∧
    (∀ s, Hex.Respells op.code.compact s → (∀ e ∈ t.entries, e.mnemonic? ≠ some s) →
      t.lookup? s = some op ∧ (t.lookup? s).map (·.describe returns) =
        (t.lookup? op.mnemonic).map (·.describe returns)) := by
  obtain ⟨ops, hops, rfl⟩ := checked_iff.mp h
  have hmem : ∀ e, e ∈ (ofList ops).entries ↔ e ∈ ops := fun e => List.mem_toArray
  simp only [hmem] at hop ⊢
  refine ⟨?_, lookup?_mnemonic hops hop, lookup?_of_respells hops hop op.code.respells_compact, ?_⟩
  · rw [Opcode.value_describe, Opcode.line, Opcode.columns]
    simp only [String.append_assoc]
    exact ⟨_, rfl⟩
  · intro s hs hnone
    have hlookup := lookup?_of_respells hops hop hs hnone
    exact ⟨hlookup, by rw [hlookup, lookup?_mnemonic hops hop]⟩

/-- The printed code of the first opcode can be typed in with a small letter and more zeros. That of
the second is the mnemonic of the first, and leads back with more zeros only. -/
theorem lookup_printed_misnamed :
    (ofList misnamed).Checked ∧
    ∃ ret ∈ (ofList misnamed).entries, ∃ brk ∈ (ofList misnamed).entries,
      ret.code.compact = "0x2A" ∧ (ofList misnamed).lookup? "0X002a" = some ret ∧
      brk.code.compact = "0x01" ∧ (ofList misnamed).lookup? "0x01" = some ret ∧
      (ofList misnamed).lookup? "0x0001" = some brk := by
  have h : (ofList misnamed).Checked := checked_iff.mpr ⟨misnamed, acceptable_misnamed, rfl⟩
  obtain ⟨ret, hret, hretCode, hretName⟩ : ∃ op ∈ misnamed,
      op.code = 0x2A ∧ op.mnemonic = "0x01" := by decide
  obtain ⟨brk, hbrk, hbrkCode⟩ : ∃ op ∈ misnamed, op.code = 0x01 := by decide
  have hretMem : ret ∈ (ofList misnamed).entries := List.mem_toArray.mpr hret
  have hbrkMem : brk ∈ (ofList misnamed).entries := List.mem_toArray.mpr hbrk
  obtain ⟨-, hnamed, -, hretSpelled⟩ := lookup_printed h hretMem true
  obtain ⟨-, -, -, hbrkSpelled⟩ := lookup_printed h hbrkMem true
  rw [hretName] at hnamed
  rw [hretCode] at hretSpelled
  rw [hbrkCode] at hbrkSpelled
  have hsmall : Hex.Respells (Code.compact 0x2A) "0X002a" :=
    ⟨['2', 'A'], 2, by decide, by decide, by simp [Hex.SameLetter]⟩
  have hzeros : Hex.Respells (Code.compact 0x01) "0x0001" :=
    ⟨['0', '1'], 2, by decide, by decide, by simp [Hex.SameLetter]⟩
  refine ⟨h, ret, hretMem, brk, hbrkMem, by rw [hretCode]; decide, ?_, by rw [hbrkCode]; decide,
    hnamed, ?_⟩
  · exact (hretSpelled _ hsmall (by decide)).1
  · exact (hbrkSpelled _ hzeros (by decide)).1

end Table

end CilIsa
