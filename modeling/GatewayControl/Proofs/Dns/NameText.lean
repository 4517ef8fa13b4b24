import GatewayControl.Authority.Zone

/-!
# `GatewayControl.Proofs.Dns.NameText` -- names, their texts and the keys made from them

A canonical name is read back from its text (`parse_text`), so names, fully qualified forms and
store keys determine each other. The tables that the authorities share a store for never meet: the
owner record of a zone, the hash of a zone, the hash of label claims and the entry of a domain have
different keys for all names (`fqdn_ne_zoneKey` and the lemmas after it). Label and zone together
determine a name (`eq_of_zone_eq_of_label_eq`).
-/

namespace GatewayControl
namespace DomainName

variable {d e z : DomainName}

/-! ## Reading a name back -/

/-- The bounds on labels and lengths tell no two names apart. -/
theorem eq_of_labels_eq (h : d.labels = e.labels) : d = e := by
  cases d
  cases e
  simpa using h

theorem isLabelChar_ne_dot {c : Char} (h : isLabelChar c = true) : c ≠ '.' := by
  intro hc
  subst hc
  exact absurd h (by decide)

/-- A label stays one piece when its name is cut at the dots. -/
theorem not_dot_mem_label {label : List Char} (h : LabelOk label) : '.' ∉ label :=
  fun hmem => isLabelChar_ne_dot (h.2.2.2 '.' hmem).1 rfl

theorem labels_ne_nil (d : DomainName) : d.labels ≠ [] := by
  intro h
  have := d.two_le
  simp [h] at this

/-- Cut at its dots, a name falls into its labels. -/
theorem splitOn_chars (d : DomainName) : d.chars.splitOn '.' = d.labels :=
  List.splitOn_intercalate '.' (fun label hl => not_dot_mem_label (d.labels_ok label hl)) d.labels_ne_nil

/-- The labels of a name are in lower case already. -/
theorem lower_labels (d : DomainName) : lower d.labels = d.labels := by
  unfold lower
  refine (List.map_congr_left fun label hl => ?_).trans (List.map_id _)
  exact (List.map_congr_left fun c hc => ((d.labels_ok label hl).2.2.2 c hc).2).trans (List.map_id _)

theorem one_le_encodedLength (labels : List (List Char)) : 1 ≤ encodedLength labels := by
  cases labels with
  | nil => exact Nat.le_refl 1
  | cons label labels =>
    simp only [encodedLength]
    omega

/-- Labels that fit behind what is used, none with a dash in front, can be encoded. -/
theorem encodingFault?_eq_none {used : Nat} {labels : List (List Char)}
    (hdash : ∀ label ∈ labels, label.head? ≠ some '-')
    (hfit : used + encodedLength labels ≤ 256) :
    encodingFault? used labels = none := by
  induction labels generalizing used with
  | nil => rfl
  | cons label labels ih =>
    simp only [encodedLength] at hfit
    have hrest : 1 ≤ encodedLength labels := one_le_encodedLength labels
    unfold encodingFault?
    rw [if_neg (hdash label (by simp)), if_neg (by omega)]
    exact ih (fun l hl => hdash l (by simp [hl])) (by omega)

/-- Labels in which nothing is wrong, in whatever case they are written. -/
theorem fault?_eq_none {labels : List (List Char)} (htwo : 2 ≤ labels.length)
    (hne : ∀ label ∈ labels, label ≠ []) (hlen : ∀ label ∈ labels, label.length ≤ 63)
    (hdash : ∀ label ∈ labels, label.head? ≠ some '-')
    (hchars : ∀ label ∈ labels, ∀ c ∈ label, isLabelChar c = true)
    (hfit : encodedLength labels ≤ 255) : fault? labels = none := by
  have hnil : [] ∉ labels := fun h => hne [] h rfl
  have hsingle : labels ≠ [[]] := fun h => hnil (by simp [h])
  have hhead : labels.head? ≠ some [] := fun h => hnil (List.mem_of_head? h)
  have hlast : labels.getLast? ≠ some [] := fun h => hnil (List.mem_of_getLast? h)
  have hlegal : (labels.flatten.find? fun c => !isLabelChar c) = none := by
    rw [List.find?_eq_none]
    intro c hc
    obtain ⟨label, hl, hc⟩ := List.mem_flatten.1 hc
    simpa using hchars label hl c hc
  have hlong : (labels.any fun label => 63 < label.length) = false := by
    rw [List.any_eq_false]
    intro label hl
    simpa using hlen label hl
  have hcode : encodingFault? 1 labels = none := encodingFault?_eq_none hdash (by omega)
  unfold fault?
  rw [if_neg hsingle, if_neg (by simp [hhead, hlast]), if_neg hnil, if_neg (by omega), hlegal]
  simp only [hlong, Bool.false_eq_true, if_false, hcode]

/-- The parser finds no fault in the labels of a name. -/
theorem fault?_labels (d : DomainName) : fault? d.labels = none :=
  fault?_eq_none d.two_le (fun l hl => (d.labels_ok l hl).1) (fun l hl => (d.labels_ok l hl).2.1)
    (fun l hl => (d.labels_ok l hl).2.2.1) (fun l hl c hc => ((d.labels_ok l hl).2.2.2 c hc).1) d.fits

/-- **A name is read back from its text.** -/
@[simp] theorem parse_text (d : DomainName) : parse d.text = .ok d := by
  have hsplit : d.text.toList.splitOn '.' = d.labels := by
    rw [text, String.toList_ofList, splitOn_chars]
  unfold parse
  split
  · next fault hf => rw [hsplit, fault?_labels] at hf; cases hf
  · next hf =>
    have hlabels : lower (d.text.toList.splitOn '.') = d.labels := by rw [hsplit, lower_labels]
    exact congrArg Except.ok (eq_of_labels_eq hlabels)

theorem require_eq_ok {input : String} : require input = .ok d ↔ parse input = .ok d := by
  unfold require
  cases parse input <;> simp

/-- Names are told apart by their texts, since each is read back from its own. -/
theorem text_inj : d.text = e.text ↔ d = e := by
  constructor
  · intro h
    have := parse_text d
    rw [h, parse_text e] at this
    exact (Except.ok.inj this).symm
  · rintro rfl
    rfl

/-! ## Keys of the store -/

/-- So are they by their fully qualified forms. -/
theorem fqdn_inj : d.fqdn = e.fqdn ↔ d = e := by
  unfold fqdn
  rw [String.append_left_inj, text_inj]

theorem zoneKey_inj : d.zoneKey = e.zoneKey ↔ d = e := by
  unfold zoneKey
  rw [String.append_right_inj, fqdn_inj]

theorem routingKey_inj : d.routingKey = e.routingKey ↔ d = e := by
  unfold routingKey
  rw [String.append_right_inj, text_inj]

/-- What stands in joined pieces is the separator or stands in a piece. -/
theorem eq_or_mem_of_mem_intercalate {sep c : Char} {pieces : List (List Char)}
    (h : c ∈ [sep].intercalate pieces) : c = sep ∨ ∃ piece ∈ pieces, c ∈ piece := by
  induction pieces with
  | nil => cases h
  | cons piece rest ih =>
    cases rest with
    | nil =>
      rw [List.intercalate_singleton] at h
      exact .inr ⟨piece, List.mem_cons_self .., h⟩
    | cons next rest =>
      rw [List.intercalate_cons_cons, List.append_assoc, List.mem_append, List.mem_append] at h
      rcases h with h | h | h
      · exact .inr ⟨piece, List.mem_cons_self .., h⟩
      · exact .inl (List.mem_singleton.1 h)
      · exact (ih h).imp id fun ⟨p, hp, hc⟩ => ⟨p, List.mem_cons_of_mem _ hp, hc⟩

/-- No name has a colon in it. -/
theorem not_colon_mem_chars (d : DomainName) : ':' ∉ d.chars := by
  intro h
  rcases eq_or_mem_of_mem_intercalate h with h | ⟨label, hl, hc⟩
  · exact absurd h (by decide)
  · exact absurd ((d.labels_ok label hl).2.2.2 ':' hc).1 (by decide)

theorem not_colon_mem_fqdn (d : DomainName) : ':' ∉ d.fqdn.toList := by
  simp [fqdn, text, not_colon_mem_chars]

theorem dot_mem_fqdn (d : DomainName) : '.' ∈ d.fqdn.toList := by simp [fqdn]

theorem colon_mem_zoneKey (d : DomainName) : ':' ∈ d.zoneKey.toList := by simp [zoneKey]

theorem colon_mem_routingKey (d : DomainName) : ':' ∈ d.routingKey.toList := by simp [routingKey]

/-- A hash of records is no owner record: only the key of the latter has a colon. -/
theorem fqdn_ne_zoneKey (d e : DomainName) : d.fqdn ≠ e.zoneKey :=
  fun h => not_colon_mem_fqdn d (h ▸ colon_mem_zoneKey e)

theorem fqdn_ne_routingKey (d e : DomainName) : d.fqdn ≠ e.routingKey :=
  fun h => not_colon_mem_fqdn d (h ▸ colon_mem_routingKey e)

/-- The hash of claims is no zone, since there is no dot in its name. -/
theorem fqdn_ne_managedDomains (d : DomainName) : d.fqdn ≠ managedDomains :=
  fun h => absurd (h ▸ dot_mem_fqdn d) (by decide)

theorem zoneKey_ne_managedDomains (d : DomainName) : d.zoneKey ≠ managedDomains :=
  fun h => absurd (h ▸ colon_mem_zoneKey d) (by decide)

theorem routingKey_ne_managedDomains (d : DomainName) : d.routingKey ≠ managedDomains :=
  fun h => absurd (h ▸ colon_mem_routingKey d) (by decide)

theorem zoneKey_ne_routingKey (d e : DomainName) : d.zoneKey ≠ e.routingKey := by
  intro h
  -- the prefixes differ in their first character
  have := congrArg (fun s => s.toList.head?) h
  simp [zoneKey, routingKey] at this

/-! ## Label and zone -/

/-- A zone has the labels of its name, without the first one if there are more than two. -/
theorem zone_labels (d : DomainName) :
    d.zone.labels = if 2 < d.labels.length then d.labels.tail else d.labels := by
  obtain ⟨labels, htwo, hok, hfit⟩ := d
  match labels with
  | [] => simp at htwo
  | [_] => simp at htwo
  | [_, _] => simp [zone]
  | _ :: _ :: _ :: _ => simp [zone]

theorem label_eq (d : DomainName) :
    d.label = if 2 < d.labels.length then String.ofList (d.labels.headD []) else "" := by
  obtain ⟨labels, htwo, hok, hfit⟩ := d
  match labels with
  | [] => simp at htwo
  | [_] => simp at htwo
  | [_, _] => simp [label]
  | _ :: _ :: _ :: _ => simp [label]

/-- A name of two labels has none below its zone, and every other name has one. -/
theorem label_eq_empty_iff (d : DomainName) : d.label = "" ↔ d.labels.length = 2 := by
  have htwo := d.two_le
  rw [label_eq]
  split
  · next hlong =>
    have hne : d.labels.headD [] ≠ [] := by
      rcases hl : d.labels with _ | ⟨first, rest⟩
      · exact absurd hl d.labels_ne_nil
      · exact (d.labels_ok first (by simp [hl])).1
    have : String.ofList (d.labels.headD []) ≠ "" := fun h =>
      hne (by simpa using congrArg String.toList h)
    simp only [this, false_iff]
    omega
  · simp only [true_iff]
    omega

/-- **Label and zone determine a name.** -/
theorem eq_of_zone_eq_of_label_eq (hz : d.zone = e.zone) (hl : d.label = e.label) : d = e := by
  have hdl := label_eq d
  have hel := label_eq e
  have hlabels : d.zone.labels = e.zone.labels := congrArg labels hz
  rw [zone_labels, zone_labels] at hlabels
  have hshort : d.labels.length = 2 ↔ e.labels.length = 2 := by
    rw [← label_eq_empty_iff, ← label_eq_empty_iff, hl]
  have hd := d.two_le
  have he := e.two_le
  have heq : d.labels = e.labels := by
    -- a name of two labels has the empty label, and is its own zone
    by_cases hlong : 2 < d.labels.length
    · have hlong' : 2 < e.labels.length := by omega
      rw [if_pos hlong, if_pos hlong'] at hlabels
      rw [if_pos hlong] at hdl
      rw [if_pos hlong', ← hl, hdl, String.ofList_inj] at hel
      rcases hdc : d.labels with _ | ⟨first, rest⟩
      · exact absurd hdc d.labels_ne_nil
      rcases hec : e.labels with _ | ⟨first', rest'⟩
      · exact absurd hec e.labels_ne_nil
      simp only [hdc, hec, List.headD_cons, List.tail_cons] at hel hlabels
      rw [hel, hlabels]
    · have hlong' : ¬ 2 < e.labels.length := by omega
      rwa [if_neg hlong, if_neg hlong'] at hlabels
  exact eq_of_labels_eq heq

/-- A name of three labels: `app.example.com`. -/
def sample : DomainName where
  labels := ["app", "example", "com"].map String.toList
  two_le := by decide
  labels_ok := by simp [LabelOk, isLabelChar]
  fits := by decide

theorem parse_sample_zone : parse "example.com" = .ok sample.zone := by
  have htext : sample.zone.text = "example.com" := by decide +kernel
  rw [← htext]
  exact parse_text sample.zone

end DomainName
end GatewayControl
