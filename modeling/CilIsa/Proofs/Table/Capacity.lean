import Mathlib.Data.Finset.Card
import Mathlib.Data.Finset.Range
import CilIsa.Proofs.Table.Decoding

/-!
# How many opcodes a table holds

The opcodes of a table with codes of one length differ in the lower byte. Of the codes of one byte
the escape byte is none, so that there are at most 255 of them, and at most 256 of two bytes
(`Table.Acceptable.countP_escaped_le`). A table lists at most 511 opcodes, and there is one that
lists as many (`Table.build_capacity_full`).

The bound of 512 opcodes that is checked before the entries is therefore never what decides: a
longer list has a fault within its first 512 entries (`Table.firstFault?_eq_none_iff_acceptable`).
And every position fits into a slot of an index with room to spare (`Table.slot_ofEntries`).
-/

namespace CilIsa

theorem Opcode.size_eq_one_iff {op : Opcode} : op.size = 1 ↔ op.code.escaped = false := by
  rw [size]
  cases op.code.escaped <;> decide

theorem Opcode.size_eq_two_iff {op : Opcode} : op.size = 2 ↔ op.code.escaped = true := by
  rw [size]
  cases op.code.escaped <;> decide

/-- The position that a slot stands for is the number in it, where positions are kept exactly. -/
theorem ByteIndex.toInt_eq_of_position? {slot : Int16} {i : Nat} (h : position? slot = some i)
    (hi : i < limit) : slot.toInt = i := by
  have hlower : -2 ^ 15 ≤ slot.toInt := slot.le_toInt
  have hupper : slot.toInt < 2 ^ 15 := slot.toInt_lt
  rw [position?] at h
  split_ifs at h
  rw [Option.some.injEq, UInt64.ofInt, UInt64.toNat_ofNat'] at h
  rw [limit] at hi
  omega

/-- Codes are told apart by their four digits. -/
theorem Code.padded_injective : Function.Injective Code.padded := by
  intro c d h
  obtain ⟨cs, hc, -, -, hreadc⟩ := c.exists_padded_eq
  obtain ⟨ds, hd, -, -, hreadd⟩ := d.exists_padded_eq
  rw [hc, hd, String.append_right_inj, String.ofList_inj] at h
  rw [h, hreadd] at hreadc
  exact UInt16.toNat_inj.mp (Option.some.inj hreadc).symm

namespace Table

variable {ops : List Opcode}

/-! ### Counting codes -/

/-- Of the opcodes with codes of one length there are no more than of the lower bytes that they
have. -/
theorem Acceptable.countP_escaped_le (h : Acceptable ops) (escaped : Bool) {lows : Finset Nat}
    (hlows : ∀ op ∈ ops, op.code.escaped = escaped → op.code.low.toNat ∈ lows) :
    ops.countP (·.code.escaped == escaped) ≤ lows.card := by
  obtain ⟨kept, hkept⟩ : ∃ kept, kept = ops.filter (·.code.escaped == escaped) := ⟨_, rfl⟩
  have hmem : ∀ op, op ∈ kept ↔ op ∈ ops ∧ op.code.escaped = escaped := by
    intro op
    rw [hkept, List.mem_filter, beq_iff_eq]
  have hnodup : (kept.map fun op => op.code.low.toNat).Nodup := by
    have hlisted : kept.Nodup := hkept ▸ (List.Nodup.of_map _ h.codes).filter _
    refine List.Nodup.map_on (fun op hop e he hlow => ?_) hlisted
    obtain ⟨hop, hopEscaped⟩ := (hmem op).mp hop
    obtain ⟨he, heEscaped⟩ := (hmem e).mp he
    have hcode : op.code = e.code := (h.encodable hop).ext (h.encodable he)
      (hopEscaped.trans heEscaped.symm) (UInt8.toNat_inj.mp hlow)
    exact List.inj_on_of_nodup_map h.codes hop he hcode
  have hsub : (kept.map fun op => op.code.low.toNat).toFinset ⊆ lows := by
    intro n hn
    obtain ⟨op, hop, rfl⟩ := List.mem_map.mp (List.mem_toFinset.mp hn)
    exact hlows op ((hmem op).mp hop).1 ((hmem op).mp hop).2
  calc ops.countP (·.code.escaped == escaped)
      = (kept.map fun op => op.code.low.toNat).length := by
        rw [List.countP_eq_length_filter, List.length_map, hkept]
    _ = (kept.map fun op => op.code.low.toNat).toFinset.card :=
        (List.toFinset_card_of_nodup hnodup).symm
    _ ≤ lows.card := Finset.card_le_card hsub

theorem Acceptable.countP_oneByte_le (h : Acceptable ops) :
    ops.countP (·.code.escaped == false) ≤ 255 := by
  have hlows : ∀ op ∈ ops, op.code.escaped = false →
      op.code.low.toNat ∈ (Finset.range 256).erase 0xFE := by
    intro op hop hescaped
    have hcode := h.encodable hop
    refine Finset.mem_erase.mpr ⟨fun hlow => ?_, Finset.mem_range.mpr op.code.low.toNat_lt⟩
    -- The lower byte of a code of one byte is the code.
    have hbare : op.code.low = Code.escape := UInt8.toNat_inj.mp hlow
    exact hcode.2 (Code.eq_bareEscape_iff.mpr
      ⟨Code.high_eq_zero_of_not_escaped hcode hescaped, hbare⟩)
  have hcard : ((Finset.range 256).erase 0xFE).card = 255 := by
    rw [Finset.card_erase_of_mem (Finset.mem_range.mpr (by decide)), Finset.card_range]
  exact (h.countP_escaped_le false hlows).trans_eq hcard

theorem Acceptable.countP_twoByte_le (h : Acceptable ops) :
    ops.countP (·.code.escaped == true) ≤ 256 := by
  have hlows : ∀ op ∈ ops, op.code.escaped = true → op.code.low.toNat ∈ Finset.range 256 :=
    fun op _ _ => Finset.mem_range.mpr op.code.low.toNat_lt
  exact (h.countP_escaped_le true hlows).trans_eq (Finset.card_range 256)

/-- One code of one byte is missing, the escape byte. -/
theorem Acceptable.length_le_511 (h : Acceptable ops) : ops.length ≤ 511 := by
  have hone := h.countP_oneByte_le
  have htwo := h.countP_twoByte_le
  have hnot : (fun op : Opcode => decide ¬(op.code.escaped == true) = true) =
      (·.code.escaped == false) := by
    funext op
    cases op.code.escaped <;> rfl
  have hsplit : ops.length =
      ops.countP (·.code.escaped == true) + ops.countP (·.code.escaped == false) := by
    rw [List.length_eq_countP_add_countP (·.code.escaped == true), hnot]
  omega

theorem Acceptable.countP_size_le (h : Acceptable ops) :
    ops.countP (·.size == 1) ≤ 255 ∧ ops.countP (·.size == 2) ≤ 256 := by
  have hone : (fun op : Opcode => op.size == 1) = (·.code.escaped == false) := by
    funext op
    rw [Bool.eq_iff_iff, beq_iff_eq, beq_iff_eq, Opcode.size_eq_one_iff]
  have htwo : (fun op : Opcode => op.size == 2) = (·.code.escaped == true) := by
    funext op
    rw [Bool.eq_iff_iff, beq_iff_eq, beq_iff_eq, Opcode.size_eq_two_iff]
  rw [hone, htwo]
  exact ⟨h.countP_oneByte_le, h.countP_twoByte_le⟩

/-! ### The bound on the length -/

/-- Without the bound the scan finds a fault in every longer list, before it comes to its end. -/
theorem firstFault?_eq_none_iff_acceptable : firstFault? [] ops = none ↔ Acceptable ops := by
  rcases Nat.lt_or_ge 512 ops.length with hgt | hle
  · have hlength : (ops.take 512).length = 512 := by
      rw [List.length_take]
      omega
    refine iff_of_false (fun hnone => ?_) fun h => ?_
    · rw [← List.take_append_drop 512 ops, firstFault?_append, Option.orElse_eq_orElse,
        Option.orElse_eq_or, Option.or_eq_none_iff] at hnone
      have hfront : Acceptable (ops.take 512) :=
        (firstFault?_eq_none_iff hlength.le).mp hnone.1
      have := hfront.length_le_511
      omega
    · have := h.length_le_511
      omega
  · exact firstFault?_eq_none_iff hle

/-- The table of the listed opcodes, if they make one, with no bound on their number. -/
def buildUnbounded (ops : List Opcode) : Except TableError Table :=
  match firstFault? [] ops with
  | some fault => .error fault
  | none => .ok (ofList ops)

/-- The bound on the number of opcodes makes no difference to which lists make a table. -/
theorem build_eq_ok_iff_unbounded {t : Table} : build ops = .ok t ↔ buildUnbounded ops = .ok t := by
  rw [build_eq_ok_iff, ← firstFault?_eq_none_iff_acceptable, buildUnbounded]
  cases firstFault? [] ops <;> simp [eq_comm]

/-- A list of 512 opcodes has a fault in one of them. -/
theorem exists_fault_of_length_eq (h : ops.length = 512) :
    ∃ i, ∃ hi : i < ops.length, ∃ c : EntryCheck, c.FailsFirst (ops.take i) ops[i] ∧
      build ops = .error (c.error ops[i]) := by
  have hfault : firstFault? [] ops ≠ none := by
    rw [Ne, firstFault?_eq_none_iff_acceptable]
    intro hops
    have := hops.length_le_511
    omega
  obtain ⟨e, he⟩ := Option.ne_none_iff_exists'.mp hfault
  obtain ⟨i, hi, -, c, hc, rfl⟩ := firstFault?_eq_some h.le he
  exact ⟨i, hi, c, hc, (build_eq_error_iff h.le).mpr he⟩

/-! ### Positions in slots -/

/-- Every slot of an index is empty or holds the position of an entry. -/
theorem slot_ofEntries (h : Acceptable ops) (escaped : Bool) (b : UInt8) :
    (ByteIndex.ofEntries escaped ops.toArray)[b.toFin] = ByteIndex.absent ∨
      ∃ i < ops.length, (ByteIndex.ofEntries escaped ops.toArray)[b.toFin].toInt = i := by
  cases hslot : (ByteIndex.ofEntries escaped ops.toArray).at? b with
  | none =>
    left
    by_contra hne
    rw [ByteIndex.at?, ByteIndex.position?, if_neg hne] at hslot
    exact absurd hslot (by simp)
  | some i =>
    obtain ⟨op, hop, -⟩ := (at?_ofEntries_eq_some_iff h escaped b i).mp hslot
    have hi : i < ops.length := (List.getElem?_eq_some_iff.mp hop).1
    have hlimit : i < ByteIndex.limit := (hi.trans_le h.length_le).trans (by decide)
    exact .inr ⟨i, hi, ByteIndex.toInt_eq_of_position? hslot hlimit⟩

theorem lt_size_of_decodeAt? (h : Acceptable ops) {first second : UInt8} {i : Nat}
    (hdecode : (ofList ops).decodeAt? first second = some i) : i < (ofList ops).entries.size := by
  obtain ⟨op, hop, -⟩ := (decodeAt?_eq_some_iff h first second i).mp hdecode
  exact (List.getElem?_eq_some_iff.mp hop).1

/-- **The capacity of a table.** A list that makes a table has at most 511 opcodes, of which at most
255 take one byte and at most 256 take two. Their positions are numbers of 16 bits and none of them
is the mark of an empty slot; every slot is empty or holds the position of an entry, and decoding
leads to such positions only. Every list of 512 opcodes has a fault in one of them, and without the
bound of 512 the same lists would make a table. -/
theorem build_capacity (ops : List Opcode) :
    (∀ t, build ops = .ok t →
      ops.length ≤ 511 ∧ ops.countP (·.size == 1) ≤ 255 ∧ ops.countP (·.size == 2) ≤ 256 ∧
      (∀ i < t.entries.size, (Int16.ofNat i).toInt = i ∧ Int16.ofNat i ≠ ByteIndex.absent) ∧
      (∀ b : UInt8, ∀ slot ∈ [t.oneByte[b.toFin], t.twoByte[b.toFin]],
        slot = ByteIndex.absent ∨ ∃ i < t.entries.size, slot.toInt = i) ∧
      (∀ first second i, t.decodeAt? first second = some i → i < t.entries.size)) ∧
    (ops.length = 512 → ∃ i, ∃ hi : i < ops.length, ∃ c : EntryCheck,
      c.FailsFirst (ops.take i) ops[i] ∧ build ops = .error (c.error ops[i])) ∧
    (∀ t, build ops = .ok t ↔ buildUnbounded ops = .ok t) := by
  refine ⟨fun t ht => ?_, exists_fault_of_length_eq, fun t => build_eq_ok_iff_unbounded⟩
  obtain ⟨h, rfl⟩ := build_eq_ok_iff.mp ht
  obtain ⟨hone, htwo⟩ := h.countP_size_le
  have hlength := h.length_le_511
  refine ⟨hlength, hone, htwo, fun i hi => ?_, fun b slot hslot => ?_,
    fun first second i => lt_size_of_decodeAt? h⟩
  · have hi : i < ops.length := hi
    have htoInt : (Int16.ofNat i).toInt = i := Int16.toInt_ofNat_of_lt (by omega)
    refine ⟨htoInt, fun habsent => ?_⟩
    rw [habsent, show ByteIndex.absent.toInt = -1 from rfl] at htoInt
    omega
  · rcases List.mem_pair.mp hslot with rfl | rfl
    · exact slot_ofEntries h false b
    · exact slot_ofEntries h true b

/-! ### A table that is full -/

/-- Every code that can be encoded, opcodes of one byte first. -/
def encodableCodes : List Code :=
  ((List.range 256).filter (· ≠ 0xFE) ++ List.range' 0xFE00 256).map UInt16.ofNat

/-- An opcode that does nothing, with its code for a mnemonic. -/
def idle (c : Code) : Opcode where
  code := c
  mnemonic? := some c.padded
  shape := .member .inlineNone
  flow := .member .next
  family := .member .primitive
  push := .member .push0
  pop := .member .pop0

/-- An opcode for every code. -/
def full : List Opcode := encodableCodes.map idle

theorem nodup_encodableCodes : encodableCodes.Nodup := by
  have hincreasing : (encodableCodes.map UInt16.toNat).IsChain (· < ·) := by decide +kernel
  have hnodup : (encodableCodes.map UInt16.toNat).Nodup :=
    (List.isChain_iff_pairwise.mp hincreasing).imp Nat.ne_of_lt
  exact hnodup.of_map

theorem encodable_of_mem {c : Code} (h : c ∈ encodableCodes) : c.Encodable := by
  -- Not a statement on all members: it would be decided by going through all codes of 16 bits.
  have hall : encodableCodes.all (fun c =>
      (c.high == 0 || c.high == 0xFE) && c != 0x00FE) = true := by decide +kernel
  simpa [Code.Encodable] using List.all_eq_true.mp hall c h

theorem length_full : full.length = 511 := by decide +kernel

theorem acceptable_full : Acceptable full where
  length_le := length_full.trans_le (by decide)
  high := List.forall_mem_map.mpr fun _ hc => (encodable_of_mem hc).1
  ne_escape := List.forall_mem_map.mpr fun _ hc => (encodable_of_mem hc).2
  codes := by
    have hcodes : full.map Opcode.code = encodableCodes := by
      rw [full, List.map_map]
      exact List.map_id encodableCodes
    rw [hcodes]
    exact nodup_encodableCodes
  named := by
    refine List.forall_mem_map.mpr fun c _ => ⟨Option.some_ne_none _, fun hempty => ?_⟩
    have hpadded : c.padded = "" := Option.some.inj hempty
    exact absurd (String.append_eq_empty_iff.mp hpadded).1 (by decide)
  mnemonics := by
    rw [full, List.map_map]
    exact nodup_encodableCodes.map ((Option.some_injective _).comp Code.padded_injective)

/-- There is a table of 511 opcodes, 255 of one byte and 256 of two. One opcode more, and no list
makes a table. -/
theorem build_capacity_full :
    (∃ t, build full = .ok t ∧ t.entries.size = 511 ∧ full.countP (·.size == 1) = 255 ∧
      full.countP (·.size == 2) = 256 ∧ ∃ i < t.entries.size, t.decodeAt? 0xFE 0xFF = some i) ∧
    ∀ op, ∃ e, build (op :: full) = .error e ∧ ∀ count, e ≠ .tooMany count := by
  constructor
  · have hbuild : build full = .ok (ofList full) := build_eq_ok_iff.mpr ⟨acceptable_full, rfl⟩
    obtain ⟨hcapacity, -, -⟩ := build_capacity full
    obtain ⟨-, -, -, -, -, hposition⟩ := hcapacity (ofList full) hbuild
    have hlast : (ofList full).decodeAt? 0xFE 0xFF = some 510 :=
      (decodeAt?_eq_some_iff acceptable_full 0xFE 0xFF 510).mpr
        ⟨idle 0xFEFF, by decide +kernel, by decide⟩
    exact ⟨ofList full, hbuild, length_full, by decide +kernel, by decide +kernel, 510,
      hposition 0xFE 0xFF 510 hlast, hlast⟩
  · intro op
    obtain ⟨-, hfault, -⟩ := build_capacity (op :: full)
    obtain ⟨i, hi, c, -, he⟩ := hfault (by rw [List.length_cons, length_full])
    refine ⟨_, he, fun count => ?_⟩
    cases c <;> exact TableError.noConfusion

end Table

end CilIsa
