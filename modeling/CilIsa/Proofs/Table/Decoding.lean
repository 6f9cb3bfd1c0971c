import CilIsa.Proofs.Table.Lookup

/-!
# Decoding the bytes of opcodes

The bytes of an opcode are the lower byte of its code, behind the escape byte where the code has
one. Decoding goes the other way: it looks at two bytes, and at the second only behind the escape
byte.

In a checked table both agree. What is decoded from two bytes is the one entry whose bytes stand at
their front (`Table.decode?_eq_some_iff`), so that the bytes of the entries are a prefix code
(`Table.bytes_prefix_code`). The escape byte alone would be an exception: it is the byte of one code
and stands at the front of others. No checked table has that code.
-/

namespace CilIsa

namespace Opcode

variable {op : Opcode}

theorem bytes_of_escaped (h : op.code.escaped = true) : op.bytes = [Code.escape, op.code.low] :=
  if_pos h

theorem bytes_of_not_escaped (h : op.code.escaped = false) : op.bytes = [op.code.low] :=
  if_neg (by rw [h]; decide)

/-- The size of an opcode says which bytes it has. -/
theorem size_and_bytes (op : Opcode) :
    op.size = 2 ∧ op.bytes = [0xFE, op.code.low] ∨ op.size = 1 ∧ op.bytes = [op.code.low] := by
  cases h : op.code.escaped with
  | true => exact Or.inl ⟨if_pos h, bytes_of_escaped h⟩
  | false => exact Or.inr ⟨if_neg (by rw [h]; decide), bytes_of_not_escaped h⟩

theorem bytes_ne_nil (op : Opcode) : op.bytes ≠ [] := by
  rcases op.size_and_bytes with ⟨-, h⟩ | ⟨-, h⟩ <;> simp [h]

theorem length_bytes_le (op : Opcode) : op.bytes.length ≤ 2 := by
  rcases op.size_and_bytes with ⟨-, h⟩ | ⟨-, h⟩ <;> simp [h]

/-- Which opcodes have their bytes at the front of two given ones. -/
theorem bytes_prefix_pair_iff {first second : UInt8} :
    op.bytes <+: [first, second] ↔
      op.code.escaped = true ∧ first = Code.escape ∧ op.code.low = second ∨
        op.code.escaped = false ∧ op.code.low = first := by
  cases h : op.code.escaped with
  | true => simp [bytes_of_escaped h, List.cons_prefix_cons, eq_comm]
  | false => simp [bytes_of_not_escaped h, List.cons_prefix_cons]

end Opcode

namespace Table

/-- The opcode at the front of a sequence of bytes. Behind a single byte zero is read. -/
def decodeFront? (t : Table) : List UInt8 → Option Opcode
  | [] => none
  | [first] => t.decode? first 0
  | first :: second :: _ => t.decode? first second

variable {ops : List Opcode}

/-- Two bytes lead to the position of the entry whose bytes stand at their front. -/
theorem decodeAt?_eq_some_iff (h : Acceptable ops) (first second : UInt8) (i : Nat) :
    (ofList ops).decodeAt? first second = some i ↔
      ∃ op, ops[i]? = some op ∧ op.bytes <+: [first, second] := by
  simp only [Opcode.bytes_prefix_pair_iff]
  rw [decodeAt?]
  split_ifs with hfirst
  · -- An entry whose only byte is the escape byte would be the bare escape.
    have hbare : ∀ op, ops[i]? = some op → ¬(op.code.escaped = false ∧ op.code.low = first) := by
      rintro op hop ⟨hescaped, hlow⟩
      have hcode : op.code.Encodable := h.encodable (List.mem_of_getElem? hop)
      have hhigh : op.code.high = 0 := Code.high_eq_zero_of_not_escaped hcode hescaped
      exact hcode.2 (Code.eq_bareEscape_iff.mpr ⟨hhigh, hlow.trans hfirst⟩)
    rw [ofList, at?_ofEntries_eq_some_iff h]
    refine exists_congr fun op => and_congr_right fun hop => ?_
    rw [or_iff_left (hbare op hop)]
    exact and_congr_right fun _ => (and_iff_right hfirst).symm
  · rw [ofList, at?_ofEntries_eq_some_iff h]
    refine exists_congr fun op => and_congr_right fun _ => ?_
    exact (or_iff_right fun hpair => hfirst hpair.2.1).symm

theorem decode?_eq_some_iff (h : Acceptable ops) (first second : UInt8) (op : Opcode) :
    (ofList ops).decode? first second = some op ↔ op ∈ ops ∧ op.bytes <+: [first, second] :=
  bind_getElem?_eq_some_iff (decodeAt?_eq_some_iff h first second) op

/-- Whatever follows the bytes of an entry, the entry is decoded. -/
theorem decodeFront?_bytes_append (h : Acceptable ops) {op : Opcode} (hop : op ∈ ops)
    (rest : List UInt8) : (ofList ops).decodeFront? (op.bytes ++ rest) = some op := by
  have hfront : op.bytes <+: op.bytes ++ rest := List.prefix_append op.bytes rest
  cases hbytes : op.bytes ++ rest with
  | nil => exact absurd (List.append_eq_nil_iff.mp hbytes).1 op.bytes_ne_nil
  | cons first tail =>
    rw [hbytes] at hfront
    cases tail with
    | nil =>
      have hpair : op.bytes <+: [first, 0] := hfront.trans (List.prefix_append [first] [0])
      exact (decode?_eq_some_iff h first 0 op).mpr ⟨hop, hpair⟩
    | cons second tail =>
      have hpair : op.bytes <+: [first, second] :=
        List.prefix_of_prefix_length_le hfront (List.prefix_append [first, second] tail)
          op.length_bytes_le
      exact (decode?_eq_some_iff h first second op).mpr ⟨hop, hpair⟩

/-- No entry has its bytes at the front of those of another. -/
theorem eq_of_bytes_prefix (h : Acceptable ops) {op e : Opcode} (hop : op ∈ ops) (he : e ∈ ops)
    (hfront : op.bytes <+: e.bytes) : op = e := by
  obtain ⟨rest, hrest⟩ := hfront
  -- The bytes of the one are those of the other with something behind them, so both are decoded.
  have hdecoded := decodeFront?_bytes_append h hop rest
  rw [hrest, ← List.append_nil e.bytes, decodeFront?_bytes_append h he []] at hdecoded
  exact (Option.some.inj hdecoded).symm

theorem decode?_of_ne_escape (t : Table) {first : UInt8} (h : first ≠ Code.escape)
    (second second' : UInt8) : t.decode? first second = t.decode? first second' := by
  rw [decode?, decode?, decodeAt?, decodeAt?, if_neg h, if_neg h]

/-- **The bytes of opcodes are a prefix code, and decoding reads it.** In a checked table every
entry is decoded from its bytes, whatever follows them; what is decoded is an entry, and its bytes
are what was read. No bytes of an entry stand at the front of those of another, and the second byte
matters only behind the escape byte. -/
theorem bytes_prefix_code {t : Table} (h : t.Checked) :
    (∀ op ∈ t.entries, op.size = 2 ∧ op.bytes = [0xFE, op.code.low] ∨
      op.size = 1 ∧ op.bytes = [op.code.low]) ∧
    (∀ op ∈ t.entries, ∀ rest, t.decodeFront? (op.bytes ++ rest) = some op) ∧
    (∀ first second op, t.decode? first second = some op →
      op ∈ t.entries ∧ op.bytes = [first, second].take op.size.toNat) ∧
    (∀ i j (hi : i < t.entries.size) (hj : j < t.entries.size),
      t.entries[i].bytes <+: t.entries[j].bytes → i = j) ∧
    (∀ first second second', first ≠ 0xFE → t.decode? first second = t.decode? first second') := by
  obtain ⟨ops, hops, rfl⟩ := checked_iff.mp h
  have hmem : ∀ op, op ∈ (ofList ops).entries ↔ op ∈ ops := fun op => List.mem_toArray
  simp only [hmem]
  refine ⟨fun op _ => op.size_and_bytes, fun op hop => decodeFront?_bytes_append hops hop, ?_, ?_,
    fun first second second' hfirst => decode?_of_ne_escape _ hfirst second second'⟩
  · intro first second op hdecoded
    obtain ⟨hop, hfront⟩ := (decode?_eq_some_iff hops first second op).mp hdecoded
    refine ⟨hop, ?_⟩
    rw [← op.length_bytes]
    exact List.prefix_iff_eq_take.mp hfront
  · intro i j hi hj hfront
    have hget : ∀ k (hk : k < (ofList ops).entries.size),
        ops[k]? = some (ofList ops).entries[k] := by
      intro k hk
      rw [← Array.getElem?_eq_getElem hk]
      exact List.getElem?_toArray.symm
    have heq : (ofList ops).entries[i] = (ofList ops).entries[j] :=
      eq_of_bytes_prefix hops (List.mem_of_getElem? (hget i hi)) (List.mem_of_getElem? (hget j hj))
        hfront
    exact position_unique hops.codes (hget i hi) (hget j hj) (congrArg Opcode.code heq)

/-- `break` has the second byte of `ceq` for its only one, and the two are read apart. -/
theorem bytes_prefix_code_shared_byte :
    standard.Checked ∧
    ∃ ceq ∈ standard.entries, ∃ brk ∈ standard.entries,
      ceq.mnemonic? = some "ceq" ∧ brk.mnemonic? = some "break" ∧
      standard.decodeFront? [0xFE, 0x01, 0x2A] = some ceq ∧
      standard.decodeFront? [0x01, 0x2A] = some brk ∧
      ceq.bytes = [0xFE, 0x01].take ceq.size.toNat := by
  have h : standard.Checked := .inl rfl
  obtain ⟨-, hread, hback, -, -⟩ := bytes_prefix_code h
  obtain ⟨ceq, hceqListed, hceqBytes, hceqName⟩ : ∃ op ∈ Opcode.standard,
      op.bytes = [0xFE, 0x01] ∧ op.mnemonic? = some "ceq" := by decide +kernel
  obtain ⟨brk, hbrkListed, hbrkBytes, hbrkName⟩ : ∃ op ∈ Opcode.standard,
      op.bytes = [0x01] ∧ op.mnemonic? = some "break" := by decide +kernel
  have hceq : ceq ∈ standard.entries := List.mem_toArray.mpr hceqListed
  have hbrk : brk ∈ standard.entries := List.mem_toArray.mpr hbrkListed
  have hceqRead := hread ceq hceq [0x2A]
  have hbrkRead := hread brk hbrk [0x2A]
  rw [hceqBytes] at hceqRead
  rw [hbrkBytes] at hbrkRead
  exact ⟨h, ceq, hceq, brk, hbrk, hceqName, hbrkName, hceqRead, hbrkRead,
    (hback 0xFE 0x01 ceq hceqRead).2⟩

end Table

end CilIsa
