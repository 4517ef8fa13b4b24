import GatewayControl.Proofs.Dns.NameText
import GatewayControl.Proofs.Text.Case

/-!
# `GatewayControl.Proofs.Dns.NameGrammar` -- which texts are names, and how a name splits

`SpellsName` is the grammar of names, said without the checks of the parser: two labels or more with a
single dot between each two, each of 1 to 63 characters of the alphabet and none with a dash in front,
and 253 bytes in all. The parser's limit is another one, on the encoded length of all labels; for texts of
the grammar's alphabet the two limits are the same (`encodedLength_eq`).

A name splits at its first dot. What stands behind the dot is a name again, and the parser takes its text
as it is.

The main statement is `DomainName.grammar_and_split`.
-/

namespace GatewayControl

/-- The alphabet of names: the letters and digits of ASCII, `-` and `_`. -/
def InNameAlphabet (c : Char) : Prop :=
  ('A' ≤ c ∧ c ≤ 'Z') ∨ ('a' ≤ c ∧ c ≤ 'z') ∨ ('0' ≤ c ∧ c ≤ '9') ∨ c = '-' ∨ c = '_'

/-- A label, in whatever case it is written. -/
structure SpellsLabel (label : List Char) : Prop where
  one_le : 1 ≤ label.length
  le_63 : label.length ≤ 63
  alphabet : ∀ c ∈ label, InNameAlphabet c
  noDash : label.head? ≠ some '-'

/-- A name, in whatever case it is written. -/
structure SpellsName (s : String) : Prop where
  labels : ∃ labels, 2 ≤ labels.length ∧ (∀ label ∈ labels, SpellsLabel label) ∧
    s.toList = ['.'].intercalate labels
  le_253 : s.utf8ByteSize ≤ 253

/-! ## Characters -/

theorem isLabelChar_iff {c : Char} : isLabelChar c = true ↔ InNameAlphabet c := by
  have hupper : c.isUpper = (decide ('A'.val ≤ c.val) && decide (c.val ≤ 'Z'.val)) :=
    Bool.decide_and _ _
  have hlower : c.isLower = (decide ('a'.val ≤ c.val) && decide (c.val ≤ 'z'.val)) := rfl
  have halpha : c.isAlpha = (c.isUpper || c.isLower) := rfl
  simp only [isLabelChar, InNameAlphabet, Char.isAlphanum, halpha, hupper, hlower, Char.isDigit,
    Bool.or_eq_true, Bool.and_eq_true, decide_eq_true_eq, beq_iff_eq, or_assoc, Char.le_def]

/-- The lower case of a character is in the alphabet only if the character is. -/
theorem inNameAlphabet_of_toLower {c : Char} (h : InNameAlphabet c.toLower) : InNameAlphabet c := by
  by_cases hupper : 'A' ≤ c ∧ c ≤ 'Z'
  · exact .inl hupper
  · have hsame : c.toLower = c := by
      unfold Char.toLower
      rw [dif_neg fun hc => hupper ⟨hc.1, hc.2⟩]
    rwa [hsame] at h

theorem utf8Size_of_inNameAlphabet {c : Char} (h : InNameAlphabet c) : c.utf8Size = 1 := by
  rw [Char.utf8Size_eq_one_iff]
  simp only [InNameAlphabet, Char.le_def] at h ⊢
  rcases h with h | h | h | rfl | rfl
  · exact UInt32.le_trans h.2 (by decide)
  · exact UInt32.le_trans h.2 (by decide)
  · exact UInt32.le_trans h.2 (by decide)
  · decide
  · decide

/-- A text of one-byte characters is as long in bytes as in characters. -/
theorem utf8ByteSize_ofList {cs : List Char} (h : ∀ c ∈ cs, c.utf8Size = 1) :
    (String.ofList cs).utf8ByteSize = cs.length := by
  have hlength : ∀ c ∈ cs, (String.utf8EncodeChar c).length = 1 := fun c hc => by
    rw [String.length_utf8EncodeChar, h c hc]
  rw [← String.size_toByteArray, String.toByteArray_ofList, List.utf8Encode, List.size_toByteArray,
    List.length_flatMap, List.map_congr_left hlength, List.map_const', List.sum_replicate_nat, Nat.mul_one]

/-! ## Lengths -/

/-- The encoded length is two more than the length of the text: a byte for the first label, whose dot
there is not, and one for the root. -/
theorem encodedLength_eq {labels : List (List Char)} (h : labels ≠ []) :
    encodedLength labels = (['.'].intercalate labels).length + 2 := by
  induction labels with
  | nil => exact absurd rfl h
  | cons label rest ih =>
    cases rest with
    | nil => simp [encodedLength]
    | cons next rest =>
      rw [encodedLength, ih (by simp), List.intercalate_cons_cons]
      simp only [List.length_append, List.length_singleton]
      omega

namespace DomainName

variable {s t : String} {d e : DomainName} {labels : List (List Char)}

theorem encodedLength_of_spells (htwo : 2 ≤ labels.length) (hlabels : ∀ label ∈ labels, SpellsLabel label)
    (hs : s.toList = ['.'].intercalate labels) : encodedLength labels = s.utf8ByteSize + 2 := by
  have hne : labels ≠ [] := by
    rintro rfl
    cases htwo
  have hsize : s.utf8ByteSize = (['.'].intercalate labels).length := by
    rw [← String.ofList_toList (s := s), hs]
    refine utf8ByteSize_ofList fun c hc => ?_
    rcases eq_or_mem_of_mem_intercalate hc with rfl | ⟨label, hl, hc⟩
    · rfl
    · exact utf8Size_of_inNameAlphabet ((hlabels label hl).alphabet c hc)
  rw [encodedLength_eq hne, hsize]

/-! ## What the parser accepts -/

/-- **Nothing is wrong with labels** exactly if they are labels of the grammar, two or more of them, and
fit in their encoded form. -/
theorem fault?_eq_none_iff : fault? labels = none ↔
    2 ≤ labels.length ∧ (∀ label ∈ labels, SpellsLabel label) ∧ encodedLength labels ≤ 255 := by
  constructor
  · intro h
    obtain ⟨htwo, hok, hfit⟩ := labelOk_lower h
    rw [encodedLength_lower] at hfit
    refine ⟨by simpa [lower] using htwo, fun label hl => ?_, hfit⟩
    obtain ⟨hne, hlen, hdash, hchars⟩ := hok (label.map Char.toLower) (List.mem_map_of_mem hl)
    refine ⟨?_, by simpa using hlen, fun c hc => ?_, ?_⟩
    · exact List.length_pos_iff.2 fun hnil => hne (List.map_eq_nil_iff.2 hnil)
    · exact inNameAlphabet_of_toLower (isLabelChar_iff.1 (hchars c.toLower (List.mem_map_of_mem hc)).1)
    · -- a dash is its own lower case
      intro hfirst
      refine hdash ?_
      rw [List.head?_map, hfirst]
      rfl
  · rintro ⟨htwo, hlabels, hfit⟩
    refine fault?_eq_none htwo (fun label hl => ?_) (fun label hl => (hlabels label hl).le_63)
      (fun label hl => (hlabels label hl).noDash)
      (fun label hl c hc => isLabelChar_iff.2 ((hlabels label hl).alphabet c hc)) hfit
    exact List.length_pos_iff.1 (hlabels label hl).one_le

theorem parse_eq_ok_iff : parse s = .ok d ↔
    fault? (s.toList.splitOn '.') = none ∧ d.labels = lower (s.toList.splitOn '.') := by
  unfold parse
  split
  · next fault hf => simp [hf]
  · next hf =>
    simp only [hf, true_and, Except.ok.injEq]
    exact ⟨fun h => h ▸ rfl, fun h => eq_of_labels_eq h.symm⟩

theorem dot_not_mem_of_spells {label : List Char} (h : SpellsLabel label) : '.' ∉ label :=
  fun hmem => isLabelChar_ne_dot (isLabelChar_iff.2 (h.alphabet '.' hmem)) rfl

/-- The texts of the grammar are those whose pieces between dots have no fault. -/
theorem spellsName_iff : SpellsName s ↔ fault? (s.toList.splitOn '.') = none := by
  rw [fault?_eq_none_iff]
  constructor
  · rintro ⟨⟨labels, htwo, hlabels, hs⟩, hsize⟩
    have hne : labels ≠ [] := by
      rintro rfl
      cases htwo
    have hsplit : s.toList.splitOn '.' = labels := by
      rw [hs]
      exact List.splitOn_intercalate '.' (fun label hl => dot_not_mem_of_spells (hlabels label hl)) hne
    rw [hsplit]
    exact ⟨htwo, hlabels, by rw [encodedLength_of_spells htwo hlabels hs]; omega⟩
  · rintro ⟨htwo, hlabels, hfit⟩
    have hs : s.toList = ['.'].intercalate (s.toList.splitOn '.') := (List.intercalate_splitOn '.').symm
    rw [encodedLength_of_spells htwo hlabels hs] at hfit
    exact ⟨⟨_, htwo, hlabels, hs⟩, by omega⟩

/-- **The parser accepts the grammar.** -/
theorem exists_parse_iff : (∃ d, parse s = .ok d) ↔ SpellsName s := by
  rw [spellsName_iff]
  constructor
  · rintro ⟨d, hd⟩
    exact (parse_eq_ok_iff.1 hd).1
  · intro h
    obtain ⟨htwo, hok, hfit⟩ := labelOk_lower h
    exact ⟨⟨_, htwo, hok, hfit⟩, parse_eq_ok_iff.2 ⟨h, rfl⟩⟩

/-! ## Case -/

theorem toLower_eq_dot_iff {c : Char} : c.toLower = '.' ↔ c = '.' := by
  refine ⟨Text.eq_of_toLower_eq (by decide), ?_⟩
  rintro rfl
  rfl

/-- Case does not matter to where a text is cut. -/
theorem splitOn_toLower (cs : List Char) :
    (cs.map Char.toLower).splitOn '.' = lower (cs.splitOn '.') := by
  induction cs with
  | nil => rfl
  | cons c cs ih =>
    rw [List.map_cons, List.splitOn_cons_eq_if_modifyHead, List.splitOn_cons_eq_if_modifyHead, ih]
    by_cases hc : c = '.'
    · subst hc
      rfl
    · have hlow : c.toLower ≠ '.' := fun h => hc (toLower_eq_dot_iff.1 h)
      rw [if_neg (by simpa using hlow), if_neg (by simpa using hc)]
      cases cs.splitOn '.' with
      | nil => rfl
      | cons piece pieces => rfl

/-- Lower case commutes with joining, the dot being its own lower case. -/
theorem map_toLower_intercalate (labels : List (List Char)) :
    (['.'].intercalate labels).map Char.toLower = ['.'].intercalate (lower labels) := by
  induction labels with
  | nil => rfl
  | cons label rest ih =>
    cases rest with
    | nil => simp [lower]
    | cons next rest =>
      rw [List.intercalate_cons_cons, List.map_append, List.map_append, ih]
      simp only [lower, List.map_cons, List.intercalate_cons_cons]
      rfl

/-- **A name is the lower case of its text.** -/
theorem text_of_parse (h : parse s = .ok d) : d.text = s.toLower := by
  obtain ⟨-, hlabels⟩ := parse_eq_ok_iff.1 h
  rw [← String.toList_inj, text, String.toList_ofList, chars, hlabels, ← map_toLower_intercalate,
    List.intercalate_splitOn]
  exact String.toList_map.symm

theorem spellsLabel_of_lower {label : List Char} (h : SpellsLabel (label.map Char.toLower)) :
    SpellsLabel label where
  one_le := by simpa using h.one_le
  le_63 := by simpa using h.le_63
  alphabet c hc := inNameAlphabet_of_toLower (h.alphabet c.toLower (List.mem_map_of_mem hc))
  noDash hdash := h.noDash (by rw [List.head?_map, hdash]; rfl)

theorem spellsName_of_toLower (h : SpellsName s.toLower) : SpellsName s := by
  have hlist : s.toLower.toList = s.toList.map Char.toLower := String.toList_map
  rw [spellsName_iff, hlist, splitOn_toLower, fault?_eq_none_iff] at h
  obtain ⟨htwo, hlabels, hfit⟩ := h
  rw [encodedLength_lower] at hfit
  rw [spellsName_iff, fault?_eq_none_iff]
  exact ⟨by simpa [lower] using htwo,
    fun label hl => spellsLabel_of_lower (hlabels _ (List.mem_map_of_mem hl)), hfit⟩

/-- Case makes no difference to the name that is read. -/
theorem parse_toLower (s : String) : (parse s.toLower).toOption = (parse s).toOption := by
  cases hs : parse s with
  | ok d => rw [← text_of_parse hs, parse_text]
  | error fault =>
    cases hlow : parse s.toLower with
    | error _ => rfl
    | ok d =>
      obtain ⟨e, he⟩ := exists_parse_iff.2 (spellsName_of_toLower (exists_parse_iff.1 ⟨d, hlow⟩))
      rw [hs] at he
      cases he

/-! ## The split -/

theorem zone_eq_self (h : d.label = "") : d.zone = d := by
  refine eq_of_labels_eq ?_
  have htwo := (label_eq_empty_iff d).1 h
  rw [zone_labels, if_neg (by omega)]

/-- A name with a label in front of its zone is the one, a dot, and the other. -/
theorem text_eq_append (h : d.label ≠ "") : d.text = d.label ++ "." ++ d.zone.text := by
  have hlong : 2 < d.labels.length := by
    have hshort : d.labels.length ≠ 2 := fun htwo => h ((label_eq_empty_iff d).2 htwo)
    have htwo := d.two_le
    omega
  rw [← String.toList_inj, label_eq, if_pos hlong]
  simp only [text, chars, zone_labels, if_pos hlong, String.toList_append, String.toList_ofList]
  rcases hlabels : d.labels with _ | ⟨first, _ | ⟨second, rest⟩⟩
  · rw [hlabels] at hlong
    cases hlong
  · rw [hlabels] at hlong
    exact absurd hlong (by simp)
  · simp [List.intercalate_cons_cons]

theorem dot_not_mem_label (d : DomainName) : '.' ∉ d.label.toList := by
  rw [label_eq]
  split
  · match hlabels : d.labels with
    | [] => simp
    | first :: rest =>
      simpa using not_dot_mem_label (d.labels_ok first (by simp [hlabels]))
  · simp

/-- **A text is a name exactly if the grammar of names spells it, and a name splits without loss.**

A text is read exactly if it spells a name; any other one makes a request malformed. What is read is
the text in lower case; it is read again as the same name, and texts that differ in case alone are read
alike. The label of a name has no dot in it, and its zone is a name whose text is read as it is. A name of
two labels, as its text shows them, has an empty label and is its own zone; any other name is its label, a
dot and its zone. So label and zone together determine the name. -/
theorem grammar_and_split :
    (∀ s, (∃ d, parse s = .ok d) ↔ SpellsName s) ∧
    (∀ s, ¬ SpellsName s → ∃ reason, require s =
      .error (.validation ("incorrect format for domain '" ++ s ++ "': " ++ reason))) ∧
    (∀ s d, parse s = .ok d → require s = .ok d ∧ d.text = s.toLower ∧ parse d.text = .ok d) ∧
    (∀ s t : String, s.toLower = t.toLower → (parse s).toOption = (parse t).toOption) ∧
    (∀ d : DomainName, parse d.zone.text = .ok d.zone ∧ '.' ∉ d.label.toList ∧
      (d.label = "" ↔ (d.text.toList.splitOn '.').length = 2) ∧
      (d.label = "" → d.zone = d) ∧
      (d.label ≠ "" → d.text = d.label ++ "." ++ d.zone.text)) ∧
    (∀ d e : DomainName, d.label = e.label → d.zone = e.zone → d = e) := by
  refine ⟨fun s => exists_parse_iff, fun s hs => ?_, fun s d hd => ?_, fun s t hst => ?_, fun d => ?_,
    fun d e hlabel hzone => eq_of_zone_eq_of_label_eq hzone hlabel⟩
  · unfold require
    cases hparse : parse s with
    | ok d => exact absurd (exists_parse_iff.1 ⟨d, hparse⟩) hs
    | error fault => exact ⟨fault.message, rfl⟩
  · exact ⟨require_eq_ok.2 hd, text_of_parse hd, parse_text d⟩
  · rw [← parse_toLower s, hst, parse_toLower t]
  · have hcount : d.text.toList.splitOn '.' = d.labels := by
      rw [text, String.toList_ofList, splitOn_chars]
    rw [hcount]
    exact ⟨parse_text d.zone, dot_not_mem_label d, label_eq_empty_iff d, zone_eq_self, text_eq_append⟩

end DomainName
end GatewayControl
