import CilIsa.Proofs.Table.Decoding
import CilIsa.Proofs.Table.Spelling

/-!
# Leaving out and reordering opcodes

A table is built by a scan that stops at the first fault, its indexes are filled so that later
entries win, and a mnemonic is looked for from the front. None of this depends on the order of the
entries, because in an acceptable list no two entries compete. What is left of a list that makes a
table makes a table as well, in any order (`Table.Acceptable.of_subperm`), and each look-up in it is
that of the larger table, cut down to what was kept (`Table.eq_filter_of_eq_some_iff`).
-/

namespace CilIsa.Table

variable {xs ys : List Opcode}

/-- A look-up that finds the one entry with a property finds in a part of the entries what it finds
in all of them, if that was kept. -/
theorem eq_filter_of_eq_some_iff {P : Opcode → Prop} {whole part : Option Opcode} (hsub : ys ⊆ xs)
    (hwhole : ∀ op, whole = some op ↔ op ∈ xs ∧ P op)
    (hpart : ∀ op, part = some op ↔ op ∈ ys ∧ P op) : part = whole.filter (· ∈ ys) := by
  refine Option.ext fun op => ?_
  rw [hpart, Option.filter_eq_some_iff, hwhole, decide_eq_true_iff]
  constructor
  · rintro ⟨hop, hP⟩
    exact ⟨⟨hsub hop, hP⟩, hop⟩
  · rintro ⟨⟨-, hP⟩, hop⟩
    exact ⟨hop, hP⟩

section

variable (h : Acceptable xs) (hsub : ys.Subperm xs)
include h hsub

theorem find?_ofList_of_subperm (c : Code) :
    (ofList ys).find? c = ((ofList xs).find? c).filter (· ∈ ys) :=
  eq_filter_of_eq_some_iff hsub.subset (find?_eq_some_iff h c)
    (find?_eq_some_iff (h.of_subperm hsub) c)

theorem decode?_ofList_of_subperm (first second : UInt8) :
    (ofList ys).decode? first second = ((ofList xs).decode? first second).filter (· ∈ ys) :=
  eq_filter_of_eq_some_iff hsub.subset (decode?_eq_some_iff h first second)
    (decode?_eq_some_iff (h.of_subperm hsub) first second)

theorem named?_ofList_of_subperm (s : String) :
    (ofList ys).named? s = ((ofList xs).named? s).filter (· ∈ ys) :=
  eq_filter_of_eq_some_iff hsub.subset (named?_eq_some_iff h s)
    (named?_eq_some_iff (h.of_subperm hsub) s)

end

/-! ### Reordering -/

section

variable (h : Acceptable xs) (hperm : ys.Perm xs)
include h hperm

theorem find?_ofList_of_perm (c : Code) : (ofList ys).find? c = (ofList xs).find? c := by
  refine Option.ext fun op => ?_
  rw [find?_eq_some_iff (h.of_subperm hperm.subperm), find?_eq_some_iff h, hperm.mem_iff]

theorem decode?_ofList_of_perm (first second : UInt8) :
    (ofList ys).decode? first second = (ofList xs).decode? first second := by
  refine Option.ext fun op => ?_
  rw [decode?_eq_some_iff (h.of_subperm hperm.subperm), decode?_eq_some_iff h, hperm.mem_iff]

theorem named?_ofList_of_perm (s : String) : (ofList ys).named? s = (ofList xs).named? s := by
  refine Option.ext fun op => ?_
  rw [named?_eq_some_iff (h.of_subperm hperm.subperm), named?_eq_some_iff h, hperm.mem_iff]

theorem lookup?_ofList_of_perm (s : String) : (ofList ys).lookup? s = (ofList xs).lookup? s := by
  simp only [lookup?_eq, named?_ofList_of_perm h hperm, find?_ofList_of_perm h hperm]

end

/-- A list without a table has no order with one. -/
theorem build_eq_error_of_perm (hperm : ys.Perm xs) {e : TableError} (h : build xs = .error e) :
    ∃ e, build ys = .error e := by
  cases hys : build ys with
  | error e => exact ⟨e, rfl⟩
  | ok u =>
    have hxs : Acceptable xs := (build_eq_ok_iff.mp hys).1.of_subperm hperm.symm.subperm
    rw [build_eq_ok_iff.mpr ⟨hxs, rfl⟩] at h
    cases h

/-- **Leaving out and reordering.** What is left of a list that makes a table makes a table in any
order, and lists its entries in that order. Each look-up in it finds what the larger table finds, if
that was kept, and else nothing; so what is found by a code, by bytes or by a mnemonic stays when
entries are added. A mere change of the order changes no look-up, and makes no table of a list that
makes none. -/
theorem build_of_part (xs ys : List Opcode) :
    (∀ t, build xs = .ok t → ys.Subperm xs → ∃ u, build ys = .ok u ∧ u.entries.toList = ys ∧
      (∀ c, u.find? c = (t.find? c).filter (· ∈ ys)) ∧
      (∀ first second, u.decode? first second = (t.decode? first second).filter (· ∈ ys)) ∧
      (∀ s, u.named? s = (t.named? s).filter (· ∈ ys))) ∧
    (∀ t u, build xs = .ok t → build ys = .ok u → ys.Subperm xs →
      (∀ c op, u.find? c = some op → t.find? c = some op) ∧
      (∀ first second op, u.decode? first second = some op → t.decode? first second = some op) ∧
      (∀ s op, u.named? s = some op → t.named? s = some op)) ∧
    (∀ t u, build xs = .ok t → build ys = .ok u → ys.Perm xs →
      (∀ c, u.find? c = t.find? c) ∧
      (∀ first second, u.decode? first second = t.decode? first second) ∧
      (∀ s, u.named? s = t.named? s) ∧
      (∀ s, u.lookup? s = t.lookup? s)) ∧
    (∀ e, build xs = .error e → ys.Perm xs → ∃ e', build ys = .error e') := by
  simp only [build_eq_ok_iff]
  refine ⟨?_, ?_, ?_, fun e he hperm => build_eq_error_of_perm hperm he⟩
  · rintro t ⟨h, rfl⟩ hsub
    exact ⟨ofList ys, ⟨h.of_subperm hsub, rfl⟩, rfl, find?_ofList_of_subperm h hsub,
      decode?_ofList_of_subperm h hsub, named?_ofList_of_subperm h hsub⟩
  · rintro t u ⟨h, rfl⟩ ⟨-, rfl⟩ hsub
    simp only [find?_ofList_of_subperm h hsub, decode?_ofList_of_subperm h hsub,
      named?_ofList_of_subperm h hsub, Option.filter_eq_some_iff]
    exact ⟨fun _ _ => And.left, fun _ _ _ => And.left, fun _ _ => And.left⟩
  · rintro t u ⟨h, rfl⟩ ⟨-, rfl⟩ hperm
    exact ⟨find?_ofList_of_perm h hperm, decode?_ofList_of_perm h hperm,
      named?_ofList_of_perm h hperm, lookup?_ofList_of_perm h hperm⟩

/-- The opcodes of the standard set with the lower byte `0x01`, the longer one first. -/
def sharedByte : List Opcode := (Opcode.standard.filter fun op => op.code.low = 0x01).reverse

theorem sharedByte_subperm : sharedByte.Subperm Opcode.standard :=
  (List.reverse_perm _).subperm.trans List.filter_sublist.subperm

/-- `ceq` and `break` alone make a table in which `ceq` is still found and `nop` is not. The standard
set makes a table from its end as well, and twice the same opcode makes none. -/
theorem build_of_part_shared_byte :
    (∃ u, build sharedByte = .ok u ∧ u.entries.toList = sharedByte ∧ u.find? 0x00 = none ∧
      ∃ ceq, u.named? "ceq" = some ceq ∧ standard.named? "ceq" = some ceq) ∧
    (∃ v, build Opcode.standard.reverse = .ok v ∧ v.lookup? "0xFE01" = standard.lookup? "0xFE01") ∧
    ∃ e, build (sharedByte ++ sharedByte).reverse = .error e := by
  have hstandard : build Opcode.standard = .ok standard :=
    build_eq_ok_iff.mpr ⟨acceptable_standard, rfl⟩
  refine ⟨?_, ?_, ?_⟩
  · obtain ⟨hpart, hgrow, -, -⟩ := build_of_part Opcode.standard sharedByte
    obtain ⟨u, hu, hlisted, hfind, -, -⟩ := hpart standard hstandard sharedByte_subperm
    obtain ⟨-, -, hstays⟩ := hgrow standard u hstandard hu sharedByte_subperm
    have hnop : (standard.find? 0x00).filter (· ∈ sharedByte) = none := by
      have hcodes : ∀ op ∈ sharedByte, op.code ≠ 0x00 := by decide +kernel
      rw [Option.filter_eq_none_iff]
      intro op hop hkept
      exact hcodes op (of_decide_eq_true hkept)
        ((find?_eq_some_iff acceptable_standard 0x00 op).mp hop).2
    obtain ⟨ceq, hlist, hname⟩ : ∃ op ∈ sharedByte, op.mnemonic? = some "ceq" := by decide +kernel
    have hceq : u.named? "ceq" = some ceq := by
      obtain ⟨h, rfl⟩ := build_eq_ok_iff.mp hu
      exact (named?_eq_some_iff h "ceq" ceq).mpr ⟨hlist, hname⟩
    exact ⟨u, hu, hlisted, (hfind 0x00).trans hnop, ceq, hceq, hstays "ceq" ceq hceq⟩
  · have hperm : Opcode.standard.reverse.Perm Opcode.standard := List.reverse_perm _
    obtain ⟨hpart, -, hreorder, -⟩ := build_of_part Opcode.standard Opcode.standard.reverse
    obtain ⟨v, hv, -⟩ := hpart standard hstandard hperm.subperm
    obtain ⟨-, -, -, hlookup⟩ := hreorder standard v hstandard hv hperm
    exact ⟨v, hv, hlookup "0xFE01"⟩
  · have htwice : build (sharedByte ++ sharedByte) = .error (.duplicateCode 0xFE01) :=
      (build_eq_error_iff (by decide +kernel)).mpr (by decide +kernel)
    obtain ⟨-, -, -, hrejected⟩ := build_of_part (sharedByte ++ sharedByte)
      (sharedByte ++ sharedByte).reverse
    exact hrejected _ htwice (List.reverse_perm _)

end CilIsa.Table
