import GatewayControl.Error
import GatewayControl.Text.Quoted

/-!
# `GatewayControl.Dns.Name` -- domain names

A domain name is a list of at least two labels of lower-case letters, digits, `-` and `_`, none of
which starts with `-`, and whose encoded form fits in 255 bytes. `parse` accepts upper case and
lowers it; every fault of a text has a constructor of its own, and the first in the order of the
constructors is reported.
-/

namespace GatewayControl

/-- A character that may stand in a label. -/
def isLabelChar (c : Char) : Bool := c.isAlphanum || c == '-' || c == '_'

/-- A label in canonical form: 1 to 63 characters, the first of them no `-`, all in lower case. -/
def LabelOk (label : List Char) : Prop :=
  label ≠ [] ∧ label.length ≤ 63 ∧ label.head? ≠ some '-' ∧
    ∀ c ∈ label, isLabelChar c = true ∧ c.toLower = c

instance (label : List Char) : Decidable (LabelOk label) :=
  have : Decidable (∀ c ∈ label, isLabelChar c = true ∧ c.toLower = c) := List.decidableBAll _ _
  inferInstanceAs (Decidable (label ≠ [] ∧ label.length ≤ 63 ∧ label.head? ≠ some '-' ∧
    ∀ c ∈ label, isLabelChar c = true ∧ c.toLower = c))

/-- The length of labels as they are encoded in a query: one byte more for each, and one for the
root. -/
def encodedLength : List (List Char) → Nat
  | [] => 1
  | label :: labels => label.length + 1 + encodedLength labels

/-- A canonical name of two labels or more. -/
structure DomainName where
  labels : List (List Char)
  two_le : 2 ≤ labels.length
  labels_ok : ∀ label ∈ labels, LabelOk label
  fits : encodedLength labels ≤ 255
deriving DecidableEq

/-- Why a text is not a domain name. -/
inductive NameFault where
  | empty
  | edgeDot
  | emptyLabel
  | singleLabel
  | illegal (c : Char)
  | longLabel
  | malformedLabel (label : List Char)
  | tooLong (encoded : Nat)
deriving DecidableEq

/-- The wording of a fault. -/
def NameFault.message : NameFault → String
  | empty => "empty name"
  | edgeDot => "leading or trailing dot"
  | emptyLabel => "empty label"
  | singleLabel => "at least two labels required"
  | illegal c => "illegal character " ++ Text.quotedChar c
  | longLabel => "label longer than 63 bytes"
  | malformedLabel label => "Malformed label: " ++ String.ofList label
  | tooLong encoded => "name label data exceed 255: " ++ toString encoded

namespace DomainName

/-- The first label that cannot be encoded, `used` being the length of what stands before. -/
def encodingFault? (used : Nat) : List (List Char) → Option NameFault
  | [] => none
  | label :: labels =>
    if label.head? = some '-' then some (.malformedLabel label)
    else if 255 < used + (label.length + 1) then some (.tooLong (used + (label.length + 1)))
    else encodingFault? (used + (label.length + 1)) labels

/-- The first fault of a text cut into labels. -/
def fault? (labels : List (List Char)) : Option NameFault :=
  if labels = [[]] then some .empty
  else if labels.head? = some [] ∨ labels.getLast? = some [] then some .edgeDot
  else if [] ∈ labels then some .emptyLabel
  else if labels.length < 2 then some .singleLabel
  else match labels.flatten.find? fun c => !isLabelChar c with
    | some c => some (.illegal c)
    | none =>
      if labels.any fun label => 63 < label.length then some .longLabel
      else encodingFault? 1 labels

/-- Labels in lower case. -/
def lower (labels : List (List Char)) : List (List Char) := labels.map (·.map Char.toLower)

/-- Labels that can be encoded fit behind what is used, and none of them starts with a dash. -/
theorem encodedLength_of_encodingFault? {used : Nat} {labels : List (List Char)}
    (hu : used ≤ 255) (h : encodingFault? used labels = none) :
    used + encodedLength labels ≤ 256 ∧ ∀ label ∈ labels, label.head? ≠ some '-' := by
  induction labels generalizing used with
  | nil => exact ⟨Nat.succ_le_succ hu, by simp⟩
  | cons label labels ih =>
    unfold encodingFault? at h
    split at h
    · simp at h
    next hd =>
      split at h
      · simp at h
      next hl =>
        obtain ⟨hsum, hall⟩ := ih (by omega) h
        refine ⟨?_, ?_⟩
        · simp only [encodedLength]
          omega
        · intro l hmem
          cases hmem with
          | head => exact hd
          | tail _ hmem => exact hall l hmem

/-- The lower case of a character of a label may stand in a label, and is a dash only if the character is. -/
theorem isLabelChar_toLower {c : Char} (h : isLabelChar c = true) :
    isLabelChar c.toLower = true ∧ c.toLower.toLower = c.toLower ∧
      (c.toLower = '-' → c = '-') := by
  have hc : c.toNat < 128 := by
    have halpha : c.isAlpha = (c.isUpper || c.isLower) := rfl
    have hupper : c.isUpper = (decide ('A'.val ≤ c.val) && decide (c.val ≤ 'Z'.val)) :=
      Bool.decide_and _ _
    have hlower : c.isLower = (decide ('a'.val ≤ c.val) && decide (c.val ≤ 'z'.val)) := rfl
    simp only [isLabelChar, Char.isAlphanum, halpha, hupper, hlower, Char.isDigit,
      Bool.or_eq_true, Bool.and_eq_true, decide_eq_true_eq, beq_iff_eq] at h
    simp only [UInt32.le_iff_toNat_le] at h
    rcases h with (h | h) | h
    · rcases h with (⟨_, h⟩ | ⟨_, h⟩) | ⟨_, h⟩ <;> simp at h <;> omega
    · subst h; decide
    · subst h; decide
  have key : ∀ n : Fin 128, isLabelChar (Char.ofNat n) = true →
      isLabelChar (Char.ofNat n).toLower = true ∧
        (Char.ofNat n).toLower.toLower = (Char.ofNat n).toLower ∧
          ((Char.ofNat n).toLower = '-' → Char.ofNat n = '-') := by decide +kernel
  have := key ⟨c.toNat, hc⟩
  simpa using this (by simpa using h)

theorem encodedLength_lower (labels : List (List Char)) :
    encodedLength (lower labels) = encodedLength labels := by
  induction labels with
  | nil => rfl
  | cons label labels ih =>
    unfold lower at ih ⊢
    simp only [List.map_cons, encodedLength, List.length_map, ih]

/-- Labels without a fault are, in lower case, the labels of a name. -/
theorem labelOk_lower {labels : List (List Char)} (h : fault? labels = none) :
    2 ≤ (lower labels).length ∧ (∀ label ∈ lower labels, LabelOk label) ∧
      encodedLength (lower labels) ≤ 255 := by
  unfold fault? at h
  split at h
  · simp at h
  split at h
  · simp at h
  split at h
  · simp at h
  next hne =>
    split at h
    · simp at h
    next h2 =>
      split at h
      · simp at h
      next hfind =>
        split at h
        · simp at h
        next hlong =>
          obtain ⟨hsum, hdash⟩ := encodedLength_of_encodingFault? (by omega) h
          have hchars : ∀ label ∈ labels, ∀ c ∈ label, isLabelChar c = true := by
            intro label hl c hc
            have := List.find?_eq_none.1 hfind c (List.mem_flatten.2 ⟨label, hl, hc⟩)
            simpa using this
          refine ⟨by simp [lower]; omega, ?_, ?_⟩
          · intro low hlow
            obtain ⟨label, hl, rfl⟩ := List.mem_map.1 hlow
            refine ⟨?_, ?_, ?_, ?_⟩
            · intro he
              rw [List.map_eq_nil_iff] at he
              exact hne (he ▸ hl)
            · simp only [List.any_eq_true, decide_eq_true_eq, not_exists, not_and] at hlong
              have := hlong label hl
              simp only [List.length_map]
              omega
            · cases label with
              | nil => simp
              | cons c cs =>
                intro he
                simp only [List.map_cons, List.head?_cons, Option.some.injEq] at he
                have := (isLabelChar_toLower (hchars _ hl c (by simp))).2.2 he
                exact hdash _ hl (by simp [this])
            · intro d hd
              obtain ⟨c, hc, rfl⟩ := List.mem_map.1 hd
              have := isLabelChar_toLower (hchars _ hl c hc)
              exact ⟨this.1, this.2.1⟩
          · rw [encodedLength_lower]
            omega

/-- The name that a text spells, in lower case. -/
def parse (input : String) : Except NameFault DomainName :=
  match h : fault? (input.toList.splitOn '.') with
  | some fault => .error fault
  | none =>
    have ok := labelOk_lower h
    .ok ⟨lower (input.toList.splitOn '.'), ok.1, ok.2.1, ok.2.2⟩

/-- The name that a request spells; anything else makes the request malformed. -/
def require (input : String) : Except GatewayError DomainName :=
  match parse input with
  | .ok name => .ok name
  | .error fault =>
    .error (.validation
      ("incorrect format for domain '" ++ input ++ "': " ++ fault.message))

/-- The characters of a name, labels separated by dots. -/
def chars (name : DomainName) : List Char := ['.'].intercalate name.labels

/-- The text of a name, without a dot at the end. -/
def text (name : DomainName) : String := String.ofList name.chars

/-- The text of a name with the dot of the root. -/
def fqdn (name : DomainName) : String := name.text ++ "."

/-- The zone that a name stands in: the name without its first label, or the name itself if it has
but two. -/
def zone (name : DomainName) : DomainName :=
  match name with
  | ⟨_ :: second :: third :: rest, _, hok, hfit⟩ =>
    ⟨second :: third :: rest, by simp, fun l hl => hok l (by simp [hl]),
      by simp only [encodedLength] at hfit ⊢; omega⟩
  | name => name

/-- The first label of a name below its zone; empty for a name of two labels. -/
def label (name : DomainName) : String :=
  match name.labels with
  | first :: _ :: _ :: _ => String.ofList first
  | _ => ""

/-- The key of the owner record of a zone. -/
def zoneKey (name : DomainName) : String := "zone:" ++ name.fqdn

/-- The key of the service record of a domain. -/
def routingKey (name : DomainName) : String := "routing:" ++ name.text

end DomainName

end GatewayControl
