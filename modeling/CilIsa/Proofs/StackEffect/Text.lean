import Mathlib.Data.List.Basic
import CilIsa.StackEffect

/-!
# Printed stack effects

An effect is printed as two decimal numbers with a slash between them, or with the word `all` in
place of the second. The effect can be read off the text (`StackEffect.text_exact`): numbers are
written with digits and a minus sign, so that there is one slash only and the word is no number.
-/

namespace CilIsa

/-- Only digits are written for a natural number. -/
theorem not_mem_natRepr {c : Char} (hdigit : c.isDigit = false) (n : Nat) : c ∉ n.repr.toList := by
  rw [Nat.toList_repr]
  intro hmem
  have hc : c.isDigit = true := Nat.isDigit_of_mem_toDigits (by decide) (by decide) hmem
  exact Bool.false_ne_true (hdigit.symm.trans hc)

/-- Only digits and a minus sign are written for an integer. -/
theorem not_mem_repr {c : Char} (hdigit : c.isDigit = false) (hminus : c ≠ '-') (n : Int) :
    c ∉ n.repr.toList := by
  rw [Int.repr_eq_if]
  split
  · exact not_mem_natRepr hdigit n.toNat
  · rw [String.toList_append, List.mem_append, not_or]
    exact ⟨fun h => hminus (List.mem_singleton.mp h), not_mem_natRepr hdigit (-n).toNat⟩

/-- Natural numbers are told apart by their digits, which read back. -/
theorem natRepr_inj {m n : Nat} : m.repr = n.repr ↔ m = n := by
  refine ⟨fun h => ?_, congrArg Nat.repr⟩
  have hdigits : Nat.toDigits 10 m = Nat.toDigits 10 n := by
    rw [← Nat.toList_repr, ← Nat.toList_repr, h]
  calc m = Nat.ofDigitChars 10 (Nat.toDigits 10 m) 0 := Nat.ofDigitChars_ten_toDigits.symm
    _ = Nat.ofDigitChars 10 (Nat.toDigits 10 n) 0 := by rw [hdigits]
    _ = n := Nat.ofDigitChars_ten_toDigits

/-- Integers are told apart by their minus signs and their digits. -/
theorem intRepr_inj {m n : Int} : m.repr = n.repr ↔ m = n := by
  have hsign : ∀ k l : Nat, k.repr ≠ "-" ++ l.repr := by
    intro k l hkl
    have hminus : '-' ∈ k.repr.toList := by
      rw [hkl, String.toList_append]
      exact List.mem_cons_self
    exact not_mem_natRepr (by decide) k hminus
  refine ⟨fun h => ?_, congrArg Int.repr⟩
  rw [Int.repr_eq_if, Int.repr_eq_if] at h
  split at h <;> split at h
  · have := natRepr_inj.mp h
    omega
  · exact absurd h (hsign m.toNat (-n).toNat)
  · exact absurd h.symm (hsign n.toNat (-m).toNat)
  · have := natRepr_inj.mp ((String.append_right_inj "-").mp h)
    omega

namespace StackEffect

/-- What is printed of the pops. -/
def popsText (e : StackEffect) : String := if e.clears then "all" else e.pops.toInt.repr

variable {a b : StackEffect}

theorem text_eq (e : StackEffect) : e.text = e.pushes.toInt.repr ++ "/" ++ e.popsText := rfl

theorem popsText_of_clears (h : a.clears = true) : a.popsText = "all" := if_pos h

theorem popsText_of_not_clears (h : ¬a.clears = true) : a.popsText = a.pops.toInt.repr := if_neg h

theorem not_mem_popsText {c : Char} (hdigit : c.isDigit = false) (hminus : c ≠ '-')
    (hall : c ∉ "all".toList) (e : StackEffect) : c ∉ e.popsText.toList := by
  rw [popsText]
  split
  · exact hall
  · exact not_mem_repr hdigit hminus e.pops.toInt

/-- What is in the text and not in its second part is in a number, or is the slash. -/
theorem not_mem_text {c : Char} (hdigit : c.isDigit = false) (hminus : c ≠ '-') (hslash : c ≠ '/')
    (hpops : c ∉ a.popsText.toList) : c ∉ a.text.toList := by
  rw [text_eq, String.toList_append, String.toList_append, List.mem_append, List.mem_append, not_or,
    not_or]
  exact ⟨⟨not_mem_repr hdigit hminus a.pushes.toInt, fun h => hslash (List.mem_singleton.mp h)⟩,
    hpops⟩

/-- The word is no decimal number. -/
theorem popsText_eq_all_iff : a.popsText = "all" ↔ a.clears = true := by
  refine ⟨fun h => ?_, popsText_of_clears⟩
  by_contra hclears
  rw [popsText_of_not_clears hclears] at h
  have hletter : 'l' ∈ a.pops.toInt.repr.toList := by
    rw [h]
    decide
  exact not_mem_repr (by decide) (by decide) _ hletter

theorem popsText_ne_minusOne (e : StackEffect) : e.popsText ≠ "-1" := by
  intro h
  by_cases hclears : e.clears = true
  · rw [popsText_of_clears hclears] at h
    exact absurd h (by decide)
  · rw [popsText_of_not_clears hclears] at h
    have hpops : e.pops.toInt = allPops.toInt := intRepr_inj.mp h
    exact hclears (clears_iff.mpr (Int32.toInt_inj.mp hpops))

theorem popsText_inj : a.popsText = b.popsText ↔ a.pops = b.pops := by
  constructor
  · intro h
    by_cases hb : b.clears = true
    · rw [popsText_of_clears hb, popsText_eq_all_iff, clears_iff] at h
      rw [h, clears_iff.mp hb]
    · have ha : ¬a.clears = true := by
        rw [← popsText_eq_all_iff, h, popsText_eq_all_iff]
        exact hb
      rw [popsText_of_not_clears ha, popsText_of_not_clears hb] at h
      exact Int32.toInt_inj.mp (intRepr_inj.mp h)
  · intro h
    rw [popsText, popsText, clears, clears, h]

/-- A text is split at its slash in one way only. -/
theorem text_eq_append_slash_iff {front rest : String} :
    a.text = front ++ "/" ++ rest ↔ a.pushes.toInt.repr = front ∧ a.popsText = rest := by
  have hfront : '/' ∉ a.pushes.toInt.repr.toList := not_mem_repr (by decide) (by decide) _
  have hrest : '/' ∉ a.popsText.toList :=
    not_mem_popsText (by decide) (by decide) (by decide) a
  have hsplit : a.pushes.toInt.repr.toList ++ '/' :: a.popsText.toList =
      front.toList ++ '/' :: rest.toList ↔ a.pushes.toInt.repr.toList = front.toList ∧
        '/' = '/' ∧ a.popsText.toList = rest.toList :=
    List.append_cons_inj_of_notMem hfront hrest
  simpa [text_eq, ← String.toList_inj] using hsplit

theorem text_inj : a.text = b.text ↔ a = b := by
  refine ⟨fun h => ?_, fun h => congrArg text h⟩
  rw [b.text_eq, text_eq_append_slash_iff, popsText_inj] at h
  have hpushes : a.pushes = b.pushes := Int32.toInt_inj.mp (intRepr_inj.mp h.1)
  cases a
  cases b
  rw [StackEffect.mk.injEq]
  exact ⟨hpushes, h.2⟩

/-- Letters are printed only in the word. -/
theorem exists_text_eq_append_all_iff : (∃ front, a.text = front ++ "all") ↔ a.clears = true := by
  constructor
  · rintro ⟨front, hfront⟩
    by_contra hclears
    have hpops : 'l' ∉ a.popsText.toList := by
      rw [popsText_of_not_clears hclears]
      exact not_mem_repr (by decide) (by decide) _
    have hnone : 'l' ∉ a.text.toList := not_mem_text (by decide) (by decide) (by decide) hpops
    rw [hfront, String.toList_append, List.mem_append, not_or] at hnone
    exact hnone.2 (by decide)
  · intro h
    exact ⟨a.pushes.toInt.repr ++ "/", by rw [text_eq, popsText_of_clears h]⟩

/-- **An effect is known by its text.** Two effects are printed alike exactly when they are equal,
which is to have the same pushes and the same pops, and are printed differently exactly when they
are not. The text ends in the word `all` exactly when the effect clears the stack, which it does
exactly with -1 pops. There is one slash in the text, and behind it never stands the number -1. -/
theorem text_exact (a b : StackEffect) :
    (a.text = b.text ↔ (a == b) = true) ∧
    (a.text ≠ b.text ↔ (a != b) = true) ∧
    ((a == b) = true ↔ a.pushes = b.pushes ∧ a.pops = b.pops) ∧
    ((∃ front, a.text = front ++ "all") ↔ a.clears = true) ∧
    (a.clears = true ↔ a.pops = -1) ∧
    (∀ front rest, a.text = front ++ "/" ++ rest → front = a.pushes.toInt.repr ∧ rest ≠ "-1" ∧
      rest = if a.clears then "all" else a.pops.toInt.repr) := by
  refine ⟨?_, ?_, ?_, exists_text_eq_append_all_iff, clears_iff, ?_⟩
  · rw [text_inj, beq_iff_eq]
  · rw [Ne, text_inj, bne_iff_ne]
  · rw [beq_iff_eq, StackEffect.mk.injEq]
  · intro front rest h
    obtain ⟨rfl, rfl⟩ := text_eq_append_slash_iff.mp h
    exact ⟨rfl, a.popsText_ne_minusOne, rfl⟩

/-- The word stands for -1 among the pops only. -/
example : text ⟨-1, -1⟩ = "-1/all" ∧ text ⟨-1, -2147483648⟩ = "-1/-2147483648" := by
  decide +kernel

end StackEffect

end CilIsa
