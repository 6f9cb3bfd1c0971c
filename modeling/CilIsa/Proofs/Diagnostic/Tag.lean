import CilIsa.Instruction.Pairing
import CilIsa.Proofs.Coded.Names
import CilIsa.Table.Checked

/-!
# Which tag a message carries

A tag is written with a colon and a blank behind it, or with nothing, and it is found when a colon
or nothing stands behind it. It has no colon itself. So the tag that a message can carry is the
first word of the message, the text before its first colon (`Diagnostic.hasTag_iff`). No message
carries two tags, whatever it goes on with, and a tag is found again behind which any detail was
written (`Diagnostic.hasTag_decides`). In particular it does not matter which mnemonics a detail
quotes.
-/

namespace CilIsa

namespace Tag

theorem nodup_names : ((Enumeration.members : List Tag).map Enumeration.name).Nodup := by
  decide

theorem colon_not_mem_name (t : Coded Tag) : ':' ∉ t.name.toList := by
  cases t with
  | member t => cases t <;> decide
  | outside n unlisted =>
    change ':' ∉ "".toList
    decide

/-- Only the tag that classifies nothing has no text. -/
theorem name_ne_empty {t : Tag} (h : t ≠ .unclassified) : Coded.name (.member t) ≠ "" := by
  cases t with
  | unclassified => exact absurd rfl h
  | _ => decide

end Tag

theorem TableError.tag_cases (e : TableError) :
    e.tag = .duplicateOpcode ∨ e.tag = .invalidOpcodeValue := by
  cases e <;> simp [tag]

namespace Diagnostic

/-! ### The first word of a message -/

/-- The text before the first colon. -/
def firstWord (message : List Char) : List Char := message.takeWhile (· ≠ ':')

/-- A text without colons is the first word where a colon stands behind it, or nothing. -/
theorem firstWord_append {tag rest : List Char} (htag : ':' ∉ tag)
    (hrest : rest.head?.all (· == ':') = true) : firstWord (tag ++ rest) = tag := by
  have hword : ∀ c ∈ tag, decide (c ≠ ':') = true := by
    intro c hc
    rw [decide_eq_true_eq]
    rintro rfl
    exact htag hc
  rw [firstWord, List.takeWhile_append_of_pos hword]
  cases rest with
  | nil => simp
  | cons c rest =>
    have hcolon : c = ':' := by simpa using hrest
    rw [hcolon, List.takeWhile_cons_of_neg (by decide), List.append_nil]

theorem opensWith_append (tag rest : List Char) :
    opensWith tag (tag ++ rest) = rest.head?.all (· == ':') := by
  simp [opensWith]

/-- Behind the first word stands a colon, or nothing. -/
theorem opensWith_firstWord (message : List Char) : opensWith (firstWord message) message = true := by
  obtain ⟨rest, hrest⟩ : ∃ rest, rest = message.dropWhile (· ≠ ':') := ⟨_, rfl⟩
  have hsplit : message = firstWord message ++ rest := by
    rw [hrest, firstWord, List.takeWhile_append_dropWhile]
  have hhead := List.head?_dropWhile_not (fun c => decide (c ≠ ':')) message
  rw [← hrest] at hhead
  have hopens := opensWith_append (firstWord message) rest
  rw [← hsplit] at hopens
  rw [hopens]
  cases rest with
  | nil => rfl
  | cons c rest => simpa using hhead

/-- A text without colons opens a message exactly when it is its first word. -/
theorem opensWith_iff {tag message : List Char} (htag : ':' ∉ tag) :
    opensWith tag message = true ↔ firstWord message = tag := by
  constructor
  · intro h
    obtain ⟨rest, rfl⟩ : tag <+: message := by
      rw [opensWith, Bool.and_eq_true] at h
      exact List.isPrefixOf_iff_prefix.mp h.1
    exact firstWord_append htag (opensWith_append tag rest ▸ h)
  · rintro rfl
    exact opensWith_firstWord message

/-- A message carries a tag exactly when the tag has a text, and the text is the first word of the
message. -/
theorem hasTag_iff {d : Diagnostic} {t : Coded Tag} :
    d.hasTag t = true ↔ t.name ≠ "" ∧ firstWord d.message.toList = t.name.toList := by
  rw [hasTag, Bool.and_eq_true, bne_iff_ne, opensWith_iff (Tag.colon_not_mem_name t)]

/-- A first word is the text of one tag at most. -/
theorem eq_of_hasTag {d : Diagnostic} {t t' : Coded Tag} (h : d.hasTag t = true)
    (h' : d.hasTag t' = true) : t = t' := by
  rw [hasTag_iff] at h h'
  have hname : t.name = t'.name := String.toList_inj.mp (h.2.symm.trans h'.2)
  exact Coded.eq_of_name_eq Tag.nodup_names h.1 hname

theorem exists_member_of_hasTag {d : Diagnostic} {t : Coded Tag} (h : d.hasTag t = true) :
    ∃ tag : Tag, t = .member tag ∧ tag ≠ .unclassified := by
  have hname := (hasTag_iff.mp h).1
  cases t with
  | outside n unlisted => exact absurd rfl hname
  | member tag =>
    refine ⟨tag, rfl, ?_⟩
    rintro rfl
    exact hname rfl

/-! ### Tagged messages -/

/-- What stands behind the tag of a tagged message. -/
def behindTag (detail : String) : String := if detail = "" then "" else ": " ++ detail

theorem behindTag_injective : Function.Injective behindTag := by
  have hne : ∀ detail : String, ": " ++ detail ≠ "" := by
    intro detail h
    exact absurd (String.append_eq_empty_iff.mp h).1 (by decide)
  intro a b h
  rw [behindTag, behindTag] at h
  split_ifs at h with ha hb hb
  · rw [ha, hb]
  · exact absurd h.symm (hne b)
  · exact absurd h (hne a)
  · exact (String.append_right_inj ": ").mp h

theorem head?_behindTag (detail : String) :
    (behindTag detail).toList.head?.all (· == ':') = true := by
  rw [behindTag]
  split
  · rfl
  · rw [String.toList_append]
    rfl

variable {t : Coded Tag}

theorem taggedMessage_eq (ht : t.name ≠ "") (detail : String) :
    taggedMessage t detail = t.name ++ behindTag detail := by
  rw [taggedMessage, if_neg ht, behindTag]
  split
  · rw [String.append_empty]
  · rw [String.append_assoc]

/-- A tag with a text is found in what was tagged with it, and no other tag is. -/
theorem hasTag_tagged_iff (ht : t.name ≠ "") (detail : String) (t' : Coded Tag) :
    (tagged t detail).hasTag t' = true ↔ t' = t := by
  have hself : (tagged t detail).hasTag t = true := by
    refine hasTag_iff.mpr ⟨ht, ?_⟩
    rw [tagged, error, taggedMessage_eq ht, String.toList_append]
    exact firstWord_append (Tag.colon_not_mem_name t) (head?_behindTag detail)
  constructor
  · intro h
    exact eq_of_hasTag h hself
  · rintro rfl
    exact hself

/-- Tag and detail can be told from what they make together. -/
theorem eq_of_tagged_eq {t' : Coded Tag} (ht : t.name ≠ "") (ht' : t'.name ≠ "")
    {detail detail' : String} (h : tagged t detail = tagged t' detail') :
    t = t' ∧ detail = detail' := by
  obtain rfl : t = t' := by
    have hfound := (hasTag_tagged_iff ht detail t).mpr rfl
    rw [h] at hfound
    exact (hasTag_tagged_iff ht' detail' t).mp hfound
  refine ⟨rfl, behindTag_injective ?_⟩
  have hmessage : taggedMessage t detail = taggedMessage t detail' :=
    congrArg Diagnostic.message h
  rw [taggedMessage_eq ht, taggedMessage_eq ht] at hmessage
  exact (String.append_right_inj t.name).mp hmessage

/-! ### Mismatches and faults of tables -/

theorem hasTag_mismatch_iff (m : Mismatch) (t : Coded Tag) :
    m.diagnostic.hasTag t = true ↔ t = .member .invalidOperand :=
  hasTag_tagged_iff (Tag.name_ne_empty (by decide)) m.detail t

theorem hasTag_tableError_iff (e : TableError) (t : Coded Tag) :
    e.diagnostic.hasTag t = true ↔ t = .member e.tag :=
  hasTag_tagged_iff (Tag.name_ne_empty (by cases e <;> simp [TableError.tag])) e.detail t

/-- **Tags are found where they were written, and nowhere else.** No message carries two tags, and
only the three tags with a text are carried at all. What is tagged with one of them carries it and
no other tag, whatever the detail, and both can be told from the message. So every pair of an opcode
and a payload that is refused carries the tag of an invalid operand, and every list that makes no
table that of a duplicate or that of an invalid value, whatever the mnemonics are. -/
theorem hasTag_decides :
    (∀ (d : Diagnostic) (t t' : Coded Tag), d.hasTag t = true → d.hasTag t' = true → t = t') ∧
    (∀ (d : Diagnostic) (t : Coded Tag), d.hasTag t = true →
      ∃ tag : Tag, t = .member tag ∧ tag ≠ .unclassified) ∧
    (∀ (tag : Tag) (detail : String) (t : Coded Tag), tag ≠ .unclassified →
      ((tagged tag detail).hasTag t = true ↔ t = .member tag)) ∧
    (∀ (tag tag' : Tag) (detail detail' : String), tag ≠ .unclassified → tag' ≠ .unclassified →
      tagged tag detail = tagged tag' detail' → tag = tag' ∧ detail = detail') ∧
    (∀ (ρ : Type) (op : Opcode) (p : Payload ρ) (m : Mismatch), Instruction.pair op p = .error m →
      ∀ t, m.diagnostic.hasTag t = true ↔ t = .member .invalidOperand) ∧
    (∀ (ops : List Opcode) (e : TableError), Table.build ops = .error e →
      (∀ t, e.diagnostic.hasTag t = true ↔ t = .member .duplicateOpcode) ∨
      (∀ t, e.diagnostic.hasTag t = true ↔ t = .member .invalidOpcodeValue)) := by
  refine ⟨fun d t t' => eq_of_hasTag, fun d t => exists_member_of_hasTag, ?_, ?_, ?_, ?_⟩
  · intro tag detail t htag
    exact hasTag_tagged_iff (Tag.name_ne_empty htag) detail t
  · intro tag tag' detail detail' htag htag' h
    obtain ⟨heq, hdetail⟩ := eq_of_tagged_eq (Tag.name_ne_empty htag) (Tag.name_ne_empty htag') h
    exact ⟨Coded.member.inj heq, hdetail⟩
  · intro ρ op p m _ t
    exact hasTag_mismatch_iff m t
  · intro ops e _
    have hdecides := hasTag_tableError_iff e
    rcases e.tag_cases with htag | htag
    · rw [htag] at hdecides
      exact .inl hdecides
    · rw [htag] at hdecides
      exact .inr hdecides

/-- A mnemonic may be a tag itself: what quotes it carries its own tag all the same. A longer word
that begins like a tag is not that tag. -/
theorem hasTag_decides_quoted :
    (tagged Tag.duplicateOpcode "instr.invalid_operand: listed twice").hasTag Tag.invalidOperand =
      false ∧
    (tagged Tag.invalidOperand "").hasTag Tag.invalidOperand = true ∧
    (error "instr.invalid_operands: none").hasTag Tag.invalidOperand = false := by
  obtain ⟨-, -, hwritten, -, -, -⟩ := hasTag_decides
  refine ⟨?_, (hwritten .invalidOperand "" _ (by decide)).mpr rfl, by decide⟩
  rw [← Bool.not_eq_true, hwritten .duplicateOpcode _ _ (by decide)]
  decide

end Diagnostic

end CilIsa
