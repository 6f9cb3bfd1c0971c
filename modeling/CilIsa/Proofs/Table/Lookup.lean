import CilIsa.Proofs.Table.Acceptance

/-!
# Looking up opcodes in a table

In a checked table all look-ups agree with the listing: a code, the bytes of a code and a mnemonic
lead to the position of the one entry that has them, and to nothing where no entry has them
(`Table.lookups_exact`).

The indexes carry this. Every byte of an index stands for the position of the one entry that has it
as its lower byte and has the length of code that the index is for
(`Table.at?_ofEntries_eq_some_iff`); a later entry never overwrites an earlier one, because two
entries with the same lower byte and the same length have the same code.
-/

namespace CilIsa

/-- Where the images under a function are distinct, an image stands at one position only. -/
theorem position_unique {α β : Type} {f : α → β} {l : List α} (h : (l.map f).Nodup) {i j : Nat}
    {a b : α} (hi : l[i]? = some a) (hj : l[j]? = some b) (hab : f a = f b) : i = j := by
  have hmap : (l.map f)[i]? = (l.map f)[j]? := by
    rw [List.getElem?_map, List.getElem?_map, hi, hj, Option.map_some, Option.map_some, hab]
  have hlt : i < (l.map f).length := by
    rw [List.length_map]
    exact (List.getElem?_eq_some_iff.mp hi).1
  exact (List.getElem?_inj hlt h).mp hmap

/-- One more element stands behind the others. -/
theorem getElem?_concat_eq_some_iff {α : Type} {l : List α} {a b : α} {i : Nat} :
    (l ++ [a])[i]? = some b ↔ l[i]? = some b ∨ i = l.length ∧ a = b := by
  rcases Nat.lt_trichotomy i l.length with hlt | rfl | hgt
  · simp [List.getElem?_append_left hlt, Nat.ne_of_lt hlt]
  · simp
  · have hbound : (l ++ [a]).length ≤ i := by
      rw [List.length_append]
      exact hgt
    simp [List.getElem?_eq_none hbound, Nat.le_of_lt hgt, Nat.ne_of_gt hgt]

namespace Code

/-- A code that can be encoded, alone or behind the escape byte. -/
def Encodable (c : Code) : Prop := (c.high = 0 ∨ c.high = 0xFE) ∧ c ≠ 0x00FE

theorem high_eq_zero_of_not_escaped {c : Code} (h : c.Encodable) (hc : c.escaped = false) :
    c.high = 0 := by
  refine h.1.resolve_right fun hescape => ?_
  rw [escaped_iff.mpr hescape] at hc
  exact absurd hc (by decide)

/-- An encodable code is determined by its lower byte and by whether it is escaped. -/
theorem Encodable.ext {c d : Code} (hc : c.Encodable) (hd : d.Encodable)
    (hescaped : c.escaped = d.escaped) (hlow : c.low = d.low) : c = d := by
  refine ext_bytes ?_ hlow
  cases hcase : d.escaped with
  | true => rw [escaped_iff.mp (hescaped.trans hcase), escaped_iff.mp hcase]
  | false =>
    rw [high_eq_zero_of_not_escaped hc (hescaped.trans hcase),
      high_eq_zero_of_not_escaped hd hcase]

end Code

namespace ByteIndex

@[simp] theorem ofEntries_nil (escaped : Bool) : ofEntries escaped #[] = empty := rfl

/-- One more entry is put in last, at the position that the list had as its length. -/
theorem ofEntries_concat (escaped : Bool) (ops : List Opcode) (op : Opcode) :
    ofEntries escaped (ops ++ [op]).toArray =
      putEntry escaped (ofEntries escaped ops.toArray) (op, ops.length) := by
  simp only [ofEntries, ← Array.foldl_toList, Array.toList_zipIdx, List.zipIdx_append,
    List.foldl_append]
  simp

end ByteIndex

namespace Table

variable {ops : List Opcode}

theorem Acceptable.encodable (h : Acceptable ops) {op : Opcode} (hop : op ∈ ops) :
    op.code.Encodable :=
  ⟨h.high op hop, h.ne_escape op hop⟩

/-! ### The indexes -/

/-- A byte stands for the position of the entry that has it as its lower byte, among the entries of
one length of code. -/
theorem at?_ofEntries_eq_some_iff (h : Acceptable ops) (escaped : Bool) (b : UInt8) (i : Nat) :
    (ByteIndex.ofEntries escaped ops.toArray).at? b = some i ↔
      ∃ op, ops[i]? = some op ∧ op.code.escaped = escaped ∧ op.code.low = b := by
  induction ops using List.reverseRecOn with
  | nil => simp
  | append_singleton ops op ih =>
    obtain ⟨hops, hlen, hfaultless⟩ := acceptable_concat.mp h
    have hlimit : ops.length < ByteIndex.limit := hlen.trans (by decide)
    -- An earlier entry under the byte of the new one would have its code.
    have hfresh : ∀ e, ops[i]? = some e → e.code.escaped = op.code.escaped →
        e.code.low ≠ op.code.low := by
      intro e he hescaped hlow
      have hmem : e ∈ ops := List.mem_of_getElem? he
      have hop : op.code.Encodable := h.encodable (List.mem_append_right ops List.mem_cons_self)
      exact hfaultless .repeatedCode ⟨e, hmem, (hops.encodable hmem).ext hop hescaped hlow⟩
    have hsplit : (∃ e, (ops ++ [op])[i]? = some e ∧ e.code.escaped = escaped ∧ e.code.low = b) ↔
        (∃ e, ops[i]? = some e ∧ e.code.escaped = escaped ∧ e.code.low = b) ∨
          i = ops.length ∧ op.code.escaped = escaped ∧ op.code.low = b := by
      simp only [getElem?_concat_eq_some_iff, or_and_right, exists_or, and_assoc, exists_and_left,
        exists_eq_left']
    rw [hsplit, ← ih hops, ByteIndex.ofEntries_concat, ByteIndex.putEntry]
    by_cases hescaped : op.code.escaped = escaped
    · rw [if_pos hescaped, ByteIndex.at?_put _ _ _ hlimit]
      by_cases hlow : op.code.low = b
      · have hnone : ¬∃ e, ops[i]? = some e ∧ e.code.escaped = escaped ∧ e.code.low = b := by
          rintro ⟨e, he, hcase, hbyte⟩
          exact hfresh e he (hcase.trans hescaped.symm) (hbyte.trans hlow.symm)
        rw [if_pos hlow, ih hops, or_iff_right hnone, Option.some.injEq]
        exact ⟨fun heq => ⟨heq.symm, hescaped, hlow⟩, fun heq => heq.1.symm⟩
      · simp [hlow]
    · simp [hescaped]

theorem at?_oneByte_eq_some_iff (h : Acceptable ops) (b : UInt8) (i : Nat) :
    (ofList ops).oneByte.at? b = some i ↔
      ∃ op, ops[i]? = some op ∧ op.code.high = 0 ∧ op.code.low = b := by
  rw [ofList, at?_ofEntries_eq_some_iff h]
  refine exists_congr fun op => and_congr_right fun hop => and_congr_left fun _ => ?_
  have hcode : op.code.Encodable := h.encodable (List.mem_of_getElem? hop)
  refine ⟨Code.high_eq_zero_of_not_escaped hcode, fun hhigh => ?_⟩
  rw [Code.escaped, hhigh]
  rfl

theorem at?_twoByte_eq_some_iff (h : Acceptable ops) (b : UInt8) (i : Nat) :
    (ofList ops).twoByte.at? b = some i ↔
      ∃ op, ops[i]? = some op ∧ op.code.high = 0xFE ∧ op.code.low = b := by
  rw [ofList, at?_ofEntries_eq_some_iff h]
  simp only [Code.escaped_iff]
  rfl

/-! ### Positions -/

/-- A code leads to the position of the entry that has it. -/
theorem findAt?_eq_some_iff (h : Acceptable ops) (c : Code) (i : Nat) :
    (ofList ops).findAt? c = some i ↔ ∃ op, ops[i]? = some op ∧ op.code = c := by
  have hlisted : ∀ op, ops[i]? = some op → op.code.Encodable := fun op hop =>
    h.encodable (List.mem_of_getElem? hop)
  rw [findAt?]
  split_ifs with hzero hlow hescaped
  · -- The escape byte alone is in no acceptable list.
    refine iff_of_false (by simp) ?_
    rintro ⟨op, hop, rfl⟩
    exact (hlisted op hop).2 (Code.eq_bareEscape_iff.mpr ⟨hzero, hlow⟩)
  · rw [decodeAt?, if_neg hlow, at?_oneByte_eq_some_iff h]
    simp only [Code.eq_iff_bytes, hzero]
  · rw [Code.escaped_iff] at hescaped
    rw [decodeAt?, if_pos rfl, at?_twoByte_eq_some_iff h]
    simp only [Code.eq_iff_bytes, hescaped]
    rfl
  · refine iff_of_false (by simp) ?_
    rintro ⟨op, hop, rfl⟩
    exact (hlisted op hop).1.elim hzero fun hhigh => hescaped (Code.escaped_iff.mpr hhigh)

/-- A mnemonic leads to the position of the entry that has it. -/
theorem namedAt?_eq_some_iff (h : Acceptable ops) (s : String) (i : Nat) :
    (ofList ops).namedAt? s = some i ↔ ∃ op, ops[i]? = some op ∧ op.mnemonic? = some s := by
  rw [namedAt?, ofList, Array.findIdx?_eq_some_iff_getElem]
  constructor
  · rintro ⟨hi, hmnemonic, -⟩
    rw [List.size_toArray] at hi
    exact ⟨ops[i], List.getElem?_eq_getElem hi, by simpa using hmnemonic⟩
  · rintro ⟨op, hop, hmnemonic⟩
    obtain ⟨hi, rfl⟩ := List.getElem?_eq_some_iff.mp hop
    refine ⟨by simpa using hi, by simpa using hmnemonic, fun j hji hj => ?_⟩
    -- The first entry with the mnemonic is the only one.
    have hj' : ops[j]?.map Opcode.mnemonic? = some (some s) := by
      rw [List.getElem?_eq_getElem (hji.trans hi)]
      simpa using hj
    obtain ⟨e, he, heq⟩ := Option.map_eq_some_iff.mp hj'
    have := position_unique h.mnemonics he hop (heq.trans hmnemonic.symm)
    omega

/-! ### Opcodes -/

/-- What is found at a position that is known by a property of its entry. -/
theorem bind_getElem?_eq_some_iff {position : Option Nat} {P : Opcode → Prop}
    (h : ∀ i, position = some i ↔ ∃ op, ops[i]? = some op ∧ P op) (op : Opcode) :
    (position.bind fun i => (ofList ops).entries[i]?) = some op ↔ op ∈ ops ∧ P op := by
  simp only [Option.bind_eq_some_iff, h, ofList, List.getElem?_toArray]
  constructor
  · rintro ⟨i, ⟨e, he, hP⟩, hop⟩
    rw [he, Option.some.injEq] at hop
    exact hop ▸ ⟨List.mem_of_getElem? he, hP⟩
  · rintro ⟨hmem, hP⟩
    obtain ⟨i, hi⟩ := List.mem_iff_getElem?.mp hmem
    exact ⟨i, ⟨op, hi, hP⟩, hi⟩

theorem find?_eq_some_iff (h : Acceptable ops) (c : Code) (op : Opcode) :
    (ofList ops).find? c = some op ↔ op ∈ ops ∧ op.code = c :=
  bind_getElem?_eq_some_iff (findAt?_eq_some_iff h c) op

theorem named?_eq_some_iff (h : Acceptable ops) (s : String) (op : Opcode) :
    (ofList ops).named? s = some op ↔ op ∈ ops ∧ op.mnemonic? = some s :=
  bind_getElem?_eq_some_iff (namedAt?_eq_some_iff h s) op

theorem find?_eq_none_iff (h : Acceptable ops) (c : Code) :
    (ofList ops).find? c = none ↔ ∀ op ∈ ops, op.code ≠ c := by
  simp only [Option.eq_none_iff_forall_ne_some, Ne, find?_eq_some_iff h, not_and]

theorem named?_eq_none_iff (h : Acceptable ops) (s : String) :
    (ofList ops).named? s = none ↔ ∀ op ∈ ops, op.mnemonic? ≠ some s := by
  simp only [Option.eq_none_iff_forall_ne_some, Ne, named?_eq_some_iff h, not_and]

/-- **Look-ups are exact and agree.** In a checked table a code leads to the entry that has it, and
to nothing when none has it; so does a mnemonic. The code and the mnemonic of an entry lead back to
its position. Every byte of an index stands for the position of the one entry with that lower byte
and that length of code. -/
theorem lookups_exact {t : Table} (h : t.Checked) :
    (∀ c op, t.find? c = some op ↔ op ∈ t.entries ∧ op.code = c) ∧
    (∀ c, t.find? c = none ↔ ∀ op ∈ t.entries, op.code ≠ c) ∧
    t.find? 0x00FE = none ∧
    (∀ c : Code, c.high ≠ 0 → c.high ≠ 0xFE → t.find? c = none) ∧
    (∀ s op, t.named? s = some op ↔ op ∈ t.entries ∧ op.mnemonic? = some s) ∧
    (∀ s, t.named? s = none ↔ ∀ op ∈ t.entries, op.mnemonic? ≠ some s) ∧
    (∀ i (hi : i < t.entries.size), t.findAt? t.entries[i].code = some i ∧
      t.namedAt? t.entries[i].mnemonic = some i) ∧
    (∀ b i, t.oneByte.at? b = some i ↔
      ∃ op, t.entries[i]? = some op ∧ op.code.high = 0 ∧ op.code.low = b) ∧
    (∀ b i, t.twoByte.at? b = some i ↔
      ∃ op, t.entries[i]? = some op ∧ op.code.high = 0xFE ∧ op.code.low = b) := by
  obtain ⟨ops, hops, rfl⟩ := checked_iff.mp h
  have hmem : ∀ op, op ∈ (ofList ops).entries ↔ op ∈ ops := fun op => List.mem_toArray
  have hget : ∀ i : Nat, (ofList ops).entries[i]? = ops[i]? := fun i => List.getElem?_toArray
  simp only [hmem, hget]
  -- What is left are the codes that no list has, and the way back to a position.
  refine ⟨find?_eq_some_iff hops, find?_eq_none_iff hops, ?_, ?_, named?_eq_some_iff hops,
    named?_eq_none_iff hops, ?_, at?_oneByte_eq_some_iff hops, at?_twoByte_eq_some_iff hops⟩
  · exact (find?_eq_none_iff hops _).mpr hops.ne_escape
  · intro c hzero hescape
    refine (find?_eq_none_iff hops c).mpr ?_
    rintro op hop rfl
    exact (hops.high op hop).elim hzero hescape
  · intro i hi
    have hop : ops[i]? = some (ofList ops).entries[i] := by
      rw [← hget, Array.getElem?_eq_getElem hi]
    have hmnemonic := (hops.named _ (List.mem_of_getElem? hop)).1
    exact ⟨(findAt?_eq_some_iff hops _ i).mpr ⟨_, hop, rfl⟩,
      (namedAt?_eq_some_iff hops _ i).mpr ⟨_, hop, Opcode.mnemonic?_eq_some_mnemonic hmnemonic⟩⟩

/-- `break` and `ceq` have the same lower byte, and are found apart. -/
theorem lookups_exact_shared_byte :
    standard.Checked ∧ standard.findAt? 0x0001 = some 1 ∧ standard.findAt? 0xFE01 = some 192 := by
  have h : standard.Checked := .inl rfl
  obtain ⟨-, -, -, -, -, -, hback, -, -⟩ := lookups_exact h
  exact ⟨h, (hback 1 (by decide +kernel)).1, (hback 192 (by decide +kernel)).1⟩

end Table

end CilIsa
