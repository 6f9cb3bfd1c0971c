import Mathlib.Data.List.Forall2
import Mathlib.Data.List.Induction
import Mathlib.Data.Nat.Digits.Defs
import Mathlib.Tactic.SplitIfs
import CilIsa.Proofs.Table.Lookup
import CilIsa.Table.Spelling

/-!
# What spellings stand for

Which texts spell a number, and which number, is said by a grammar: `0x` or `0X`, and after it one
to four digits with values from a list, to the base sixteen (`Hex.Spells`). Reading a spelling
accepts exactly this grammar (`Hex.ofSpelling?_eq_some_iff`).

A number that is spelled is decoded without a look-up of its code. It makes no difference: the cases
that decoding sets apart are those that a look-up sets apart (`Table.ofNumber?_eq_find?`). So what a
text stands for is the entry with this mnemonic, or else the entry with the code that is spelled
(`Table.lookup_grammar`).
-/

namespace CilIsa

namespace Hex

/-! ### The grammar -/

/-- The character is the digit of the given value, in either case. -/
def IsDigit (c : Char) (d : Nat) : Prop :=
  "0123456789abcdef".toList[d]? = some c ∨ "0123456789ABCDEF".toList[d]? = some c

/-- The digits denote the number to the base sixteen, the last digit being that of the units. -/
def Denotes (cs : List Char) (n : Nat) : Prop :=
  ∃ ds, List.Forall₂ IsDigit cs.reverse ds ∧ Nat.ofDigits 16 ds = n

/-- The text is `0x` or `0X` and one to four digits, which denote the number. -/
def Spells (s : String) (n : Nat) : Prop :=
  ∃ x cs, s.toList = '0' :: x :: cs ∧ (x = 'x' ∨ x = 'X') ∧ 1 ≤ cs.length ∧ cs.length ≤ 4 ∧
    Denotes cs n

theorem IsDigit.lt {c : Char} {d : Nat} (h : IsDigit c d) : d < 16 := by
  rcases h with h | h
  · exact (List.getElem?_eq_some_iff.mp h).1
  · exact (List.getElem?_eq_some_iff.mp h).1

/-- Where a range of characters stands in order, a character of it is found by its distance from the
first. -/
theorem getElem?_of_range {digits : List Char} {first last : Char} (start : Nat)
    (hdigits : ∀ k ≤ last.toNat - first.toNat,
      digits[k + start]? = some (Char.ofNat (first.toNat + k)))
    {c : Char} (hc : first ≤ c ∧ c ≤ last) : digits[c.toNat - first.toNat + start]? = some c := by
  have hfirst : first.toNat ≤ c.toNat := UInt32.le_iff_toNat_le.mp hc.1
  have hlast : c.toNat ≤ last.toNat := UInt32.le_iff_toNat_le.mp hc.2
  rw [hdigits _ (Nat.sub_le_sub_right hlast _), Nat.add_sub_cancel' hfirst, Char.ofNat_toNat]

theorem value?_eq_some_iff {c : Char} {d : Nat} : value? c = some d ↔ IsDigit c d := by
  constructor
  · intro h
    rw [value?] at h
    split_ifs at h with hdecimal hupper hlower
    · obtain rfl := Option.some.inj h
      exact .inl (getElem?_of_range 0 (by decide) hdecimal)
    · obtain rfl := Option.some.inj h
      exact .inr (getElem?_of_range 10 (by decide) hupper)
    · obtain rfl := Option.some.inj h
      exact .inl (getElem?_of_range 10 (by decide) hlower)
  · intro h
    have hvalue : ∀ d < 16, "0123456789abcdef".toList[d]?.bind value? = some d ∧
        "0123456789ABCDEF".toList[d]?.bind value? = some d := by
      decide
    obtain ⟨hlower, hupper⟩ := hvalue d h.lt
    rcases h with h | h
    · rwa [h] at hlower
    · rwa [h] at hupper

theorem denotes_nil {n : Nat} : Denotes [] n ↔ n = 0 := by
  simp [Denotes, eq_comm]

theorem denotes_concat {cs : List Char} {c : Char} {n : Nat} :
    Denotes (cs ++ [c]) n ↔ ∃ m d, Denotes cs m ∧ IsDigit c d ∧ 16 * m + d = n := by
  simp only [Denotes, List.reverse_append, List.reverse_singleton, List.singleton_append]
  constructor
  · rintro ⟨_, hdigits, rfl⟩
    obtain ⟨d, ds, hd, hds, rfl⟩ := List.forall₂_cons_left_iff.mp hdigits
    exact ⟨_, d, ⟨ds, hds, rfl⟩, hd, by rw [Nat.ofDigits_cons, Nat.add_comm]⟩
  · rintro ⟨_, d, ⟨ds, hds, rfl⟩, hd, rfl⟩
    exact ⟨d :: ds, .cons hd hds, by rw [Nat.ofDigits_cons, Nat.add_comm]⟩

theorem read?_eq_some_iff {cs : List Char} {n : Nat} : read? cs = some n ↔ Denotes cs n := by
  -- The last digit is that of the units, so lists grow at the end.
  induction cs using List.reverseRecOn generalizing n with
  | nil => simp [denotes_nil, read?, eq_comm]
  | append_singleton cs c ih =>
    simp only [read?_concat, denotes_concat, Option.bind_eq_some_iff, Option.map_eq_some_iff, ih,
      value?_eq_some_iff, exists_and_left]

/-- Reading a spelling accepts the grammar and nothing else. -/
theorem ofSpelling?_eq_some_iff {s : String} {n : Nat} : ofSpelling? s = some n ↔ Spells s n := by
  rw [ofSpelling?]
  split
  next x cs hs =>
    simp only [Spells, hs, List.cons.injEq, true_and, and_assoc, Option.ite_none_right_eq_some,
      read?_eq_some_iff, exists_and_left, exists_eq_left', ← List.length_pos_iff, Nat.succ_le_iff]
  next hs =>
    refine iff_of_false (by simp) ?_
    rintro ⟨x, cs, hs', -⟩
    exact hs x cs hs'

/-- Case and leading zeros do not matter. -/
example : ["0xfe", "0XFE", "0x00Fe"].map ofSpelling? = List.replicate 3 (some 254) := by decide

/-- Signs, blanks and characters behind the digits are no part of a spelling. -/
example : ["0x", "0x00001", "0x+1", " 0x1", "0x1 ", "0x1\x00"].filterMap ofSpelling? = [] := by decide

theorem Denotes.lt {cs : List Char} {n : Nat} (h : Denotes cs n) : n < 16 ^ cs.length := by
  induction cs using List.reverseRecOn generalizing n with
  | nil => simp [denotes_nil.mp h]
  | append_singleton cs c ih =>
    obtain ⟨m, d, hm, hd, rfl⟩ := denotes_concat.mp h
    have hrest : m < 16 ^ cs.length := ih hm
    have hlast : d < 16 := hd.lt
    rw [List.length_append, List.length_singleton, Nat.pow_succ]
    omega

theorem Denotes.exists_digit {cs : List Char} {n : Nat} (h : Denotes cs n) :
    ∀ c ∈ cs, ∃ d, IsDigit c d := by
  induction cs using List.reverseRecOn generalizing n with
  | nil => simp
  | append_singleton cs c ih =>
    obtain ⟨m, d, hm, hd, -⟩ := denotes_concat.mp h
    simpa [or_imp, forall_and] using ⟨ih hm, d, hd⟩

theorem Spells.lt {s : String} {n : Nat} (h : Spells s n) : n < 65536 := by
  obtain ⟨_, cs, -, -, -, hlength, hdenotes⟩ := h
  calc n < 16 ^ cs.length := hdenotes.lt
    _ ≤ 16 ^ 4 := Nat.pow_le_pow_right (by decide) hlength
    _ = 65536 := rfl

/-- A text that is too short or too long spells nothing, and neither does one with anything but
digits behind its first two characters. -/
theorem not_spells {s : String} (h : s.length < 3 ∨ 6 < s.length ∨
    ∃ c ∈ s.toList.drop 2, ∀ d, ¬IsDigit c d) (n : Nat) : ¬Spells s n := by
  rintro ⟨x, cs, hs, -, hpos, hlength, hdenotes⟩
  have hsize : s.length = cs.length + 2 := by
    rw [← String.length_toList, hs, List.length_cons, List.length_cons]
  rcases h with hshort | hlong | ⟨c, hc, hnone⟩
  · omega
  · omega
  · rw [hs, List.drop_succ_cons, List.drop_succ_cons, List.drop_zero] at hc
    obtain ⟨d, hd⟩ := hdenotes.exists_digit c hc
    exact hnone d hd

/-- As long as there is room for it, a leading zero changes nothing. -/
theorem ofSpelling?_zero_cons (x : Char) {cs : List Char} (hne : cs ≠ []) (hlength : cs.length < 4) :
    ofSpelling? (String.ofList ('0' :: x :: '0' :: cs)) =
      ofSpelling? (String.ofList ('0' :: x :: cs)) := by
  have hread : read? ('0' :: cs) = read? cs := rfl
  have hroom : ('0' :: cs).length ≤ 4 := hlength
  simp only [ofSpelling?, String.toList_ofList, hread, hroom, hlength.le, hne, ne_eq, reduceCtorEq,
    not_false_eq_true, and_true]

end Hex

namespace Table

/-- A look-up of a code decodes its bytes, except for codes that cannot be encoded. -/
theorem find?_eq_decode? (t : Table) (c : Code) :
    t.find? c =
      if c.high = 0 then
        if c.low = Code.escape then none else t.decode? c.low 0
      else if c.escaped then t.decode? Code.escape c.low
      else none := by
  rw [find?, findAt?]
  split_ifs <;> rfl

/-- Decoding the bytes of a number is looking up the code. -/
theorem ofNumber?_eq_find? (t : Table) {n : Nat} (h : n < 65536) :
    t.ofNumber? n = t.find? (UInt16.ofNat n) := by
  have hcode : (UInt16.ofNat n).toNat = n := UInt16.toNat_ofNat_of_lt' h
  have hhigh : (Code.high (UInt16.ofNat n)).toNat = n / 256 := by rw [Code.toNat_high, hcode]
  have hlow : Code.low (UInt16.ofNat n) = UInt8.ofNat n := by rw [Code.low, hcode]
  have hzero : Code.high (UInt16.ofNat n) = 0 ↔ ¬255 < n := by
    rw [← UInt8.toNat_inj, hhigh, UInt8.toNat_zero]
    omega
  have hescaped : Code.escaped (UInt16.ofNat n) = true ↔ n / 256 = Code.escape.toNat := by
    rw [Code.escaped_iff, ← UInt8.toNat_inj, hhigh]
  rw [find?_eq_decode?, hlow, ofNumber?]
  by_cases hlong : 255 < n
  · have hbare : n ≠ Code.escape.toNat := (Nat.lt_trans (by decide) hlong).ne'
    simp only [hzero, hescaped, hlong, hbare, if_true, if_false, not_true, ite_not]
  · have hbare : UInt8.ofNat n = Code.escape ↔ n = Code.escape.toNat := by
      rw [← UInt8.toNat_inj, UInt8.toNat_ofNat_of_lt' (by rw [UInt8.size]; omega)]
    simp only [hzero, hbare, hlong, if_true, if_false, not_false_eq_true]

/-- The escape byte alone is no opcode, and neither is a number whose upper byte is neither zero nor
the escape byte. -/
theorem ofNumber?_eq_none (t : Table) {n : Nat} (h : n = 0xFE ∨ n / 256 ≠ 0 ∧ n / 256 ≠ 0xFE) :
    t.ofNumber? n = none := by
  rcases h with rfl | ⟨hzero, hescape⟩
  · exact if_pos rfl
  · have hlong : 0xFF < n := by omega
    rw [ofNumber?, if_pos hlong, if_pos (show n / 256 ≠ Code.escape.toNat from hescape), ite_self]

/-- What a text stands for is the entry with this mnemonic, or else the entry with the code that is
spelled. -/
theorem lookup?_eq (t : Table) (s : String) :
    t.lookup? s =
      (t.named? s <|> (Hex.ofSpelling? s).bind fun n => t.find? (UInt16.ofNat n)) := by
  rw [lookup?]
  cases h : Hex.ofSpelling? s with
  | none => rfl
  | some n => rw [Option.bind_some, Option.bind_some,
      ofNumber?_eq_find? t (Hex.ofSpelling?_eq_some_iff.mp h).lt]

theorem lookup?_of_named? {t : Table} {s : String} {op : Opcode} (h : t.named? s = some op) :
    t.lookup? s = some op := by
  rw [lookup?, h]
  rfl

theorem lookup?_of_spells {t : Table} {s : String} (hnone : t.named? s = none) {n : Nat}
    (hn : Hex.Spells s n) : t.lookup? s = t.find? (UInt16.ofNat n) := by
  rw [lookup?_eq, hnone, Hex.ofSpelling?_eq_some_iff.mpr hn]
  rfl

theorem lookup?_of_not_spells {t : Table} {s : String} (hnone : t.named? s = none)
    (h : ∀ n, ¬Hex.Spells s n) : t.lookup? s = none := by
  have hspelling : Hex.ofSpelling? s = none := by
    simpa only [Option.eq_none_iff_forall_ne_some, Ne, Hex.ofSpelling?_eq_some_iff] using h
  rw [lookup?, hnone, hspelling]
  rfl

/-- **What a text stands for.** In a checked table a mnemonic stands for its entry, also one that
reads as a number. A text that is no mnemonic stands for the entry with the code that it spells, and
for none when it spells no code or one that cannot be encoded. Texts of another length and texts with
anything but digits behind their first two characters spell no code. A leading zero changes nothing
where there is room for it. -/
theorem lookup_grammar {t : Table} (h : t.Checked) (s : String) :
    (∀ op ∈ t.entries, op.mnemonic? = some s → t.lookup? s = some op) ∧
    ((∀ op ∈ t.entries, op.mnemonic? ≠ some s) →
      (∀ n, Hex.Spells s n → n < 65536 ∧ t.lookup? s = t.find? (UInt16.ofNat n)) ∧
      ((∀ n, ¬Hex.Spells s n) → t.lookup? s = none) ∧
      (∀ n, Hex.Spells s n → n = 0xFE ∨ n / 256 ≠ 0 ∧ n / 256 ≠ 0xFE → t.lookup? s = none) ∧
      (s.length < 3 ∨ 6 < s.length ∨ (∃ c ∈ s.toList.drop 2, ∀ d, ¬Hex.IsDigit c d) →
        t.lookup? s = none) ∧
      (∀ x cs, s = String.ofList ('0' :: x :: '0' :: cs) → cs ≠ [] → cs.length < 4 →
        (∀ op ∈ t.entries, op.mnemonic? ≠ some (String.ofList ('0' :: x :: cs))) →
        t.lookup? s = t.lookup? (String.ofList ('0' :: x :: cs)))) := by
  obtain ⟨ops, hops, rfl⟩ := checked_iff.mp h
  have hmem : ∀ op, op ∈ (ofList ops).entries ↔ op ∈ ops := fun op => List.mem_toArray
  simp only [hmem, ← named?_eq_none_iff hops]
  refine ⟨?_, fun hnone => ⟨?_, ?_, ?_, ?_, ?_⟩⟩
  · intro op hop hmnemonic
    exact lookup?_of_named? ((named?_eq_some_iff hops s op).mpr ⟨hop, hmnemonic⟩)
  · exact fun n hn => ⟨hn.lt, lookup?_of_spells hnone hn⟩
  · exact lookup?_of_not_spells hnone
  · intro n hn hcode
    rw [lookup?_of_spells hnone hn, ← ofNumber?_eq_find? _ hn.lt, ofNumber?_eq_none _ hcode]
  · exact fun hs => lookup?_of_not_spells hnone (Hex.not_spells hs)
  · rintro x cs rfl hne hlength hnone'
    rw [lookup?, lookup?, hnone, hnone', Hex.ofSpelling?_zero_cons x hne hlength]

/-- A list in which the mnemonic of one opcode reads as the code of another. -/
def misnamed : List Opcode := [
  ⟨0x2A, some "0x01", .member .inlineNone, .member .exit, .member .primitive, .member .push0,
    .member .varpop⟩,
  ⟨0x01, some "break", .member .inlineNone, .member .breakpoint, .member .primitive, .member .push0,
    .member .pop0⟩]

theorem acceptable_misnamed : Acceptable misnamed := by
  constructor <;> decide

/-- The mnemonic shadows the code, which can be spelled in other ways. -/
theorem lookup_grammar_shadowed :
    (ofList misnamed).Checked ∧
    (ofList misnamed).lookup? "0x01" = misnamed[0]? ∧
    (ofList misnamed).lookup? "0X1" = misnamed[1]? ∧
    (ofList misnamed).lookup? "0x0001" = (ofList misnamed).lookup? "0x001" := by
  have h : (ofList misnamed).Checked := checked_iff.mpr ⟨misnamed, acceptable_misnamed, rfl⟩
  have hfind : (ofList misnamed).find? 0x01 = misnamed[1]? := by decide
  obtain ⟨hnamed, -⟩ := lookup_grammar h "0x01"
  obtain ⟨-, hspelled⟩ := lookup_grammar h "0X1"
  obtain ⟨hcode, -⟩ := hspelled (by decide)
  obtain ⟨-, hpadded⟩ := lookup_grammar h "0x0001"
  obtain ⟨-, -, -, -, hzero⟩ := hpadded (by decide)
  refine ⟨h, hnamed _ (List.mem_toArray.mpr List.mem_cons_self) rfl, ?_, ?_⟩
  · have hspells : Hex.Spells "0X1" 1 := Hex.ofSpelling?_eq_some_iff.mp (by decide)
    rw [(hcode 1 hspells).2]
    exact hfind
  · exact hzero 'x' ['0', '0', '1'] (by decide) (by decide) (by decide) (by decide)

end Table

end CilIsa
