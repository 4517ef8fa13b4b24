import GatewayControl.Proofs.Dns.NameText
import GatewayControl.Proofs.Json.Written
import GatewayControl.Proofs.Operation.Alone

/-!
# `GatewayControl.Proofs.Authority.ZoneView` -- what a store says about zones

The three views of a store that the zone authority acts on: the owner of a zone (`ownerOf`), the
claimant of a name (`labelClaimant`) and the records of a name (`labelRecords`). Each reading
operation leaves the store alone and answers with its view, or fails where the stored bytes cannot
be read (`alone_readOwner_cases`, `alone_claimant_cases`, `alone_readRecords_cases`). As a tree, a look is
one call and a decision on what it has found (`control_eq`, `claimant_eq`, `readRecords_eq`).
-/

namespace GatewayControl

open Operation ZoneAuthority

namespace MemoryStore

/-- The owner that an owner record names, empty if there is no record; `none` if it cannot be
read. -/
def ownerIn : Option Bytes → Option String
  | none => some ""
  | some bytes => decodeOwner? bytes

/-- The owner of a zone, empty if nobody owns it; `none` if the owner record cannot be read. -/
def ownerOf (zone : DomainName) (s : MemoryStore) : Option String :=
  ownerIn (s.read (.value zone.zoneKey))

/-- The cell that holds the claim of a name. -/
def claimCell (name : DomainName) : Cell := .field managedDomains name.text

/-- The claimant that a claim names, empty if there is no claim; `none` if it is no text. -/
def claimantIn : Option Bytes → Option String
  | none => some ""
  | some bytes => Bytes.toText? bytes

/-- The claimant of a name, empty if nobody claims it; `none` if the claim is no text. -/
def labelClaimant (name : DomainName) (s : MemoryStore) : Option String :=
  claimantIn (s.read (claimCell name))

/-- The cell that holds the records of a name. -/
def recordCell (name : DomainName) : Cell := .field name.zone.fqdn name.label

/-- The records of a name; `none` if they cannot be read. -/
def labelRecords (name : DomainName) (s : MemoryStore) : Option RecordSet :=
  match s.read (recordCell name) with
  | none => some .empty
  | some bytes => RecordSet.decode? bytes

/-- Records and claims are kept apart: the table of claims is no zone. -/
theorem recordCell_ne_claimCell (d e : DomainName) : recordCell d ≠ claimCell e := by
  simp [recordCell, claimCell, DomainName.fqdn_ne_managedDomains]

/-- Every name has a cell of its own for its records, since label and zone determine it. -/
theorem recordCell_inj {d e : DomainName} : recordCell d = recordCell e ↔ d = e := by
  refine ⟨fun h => ?_, fun h => by rw [h]⟩
  rw [recordCell, recordCell, Cell.field.injEq] at h
  exact DomainName.eq_of_zone_eq_of_label_eq (DomainName.fqdn_inj.1 h.1) h.2

theorem claimCell_inj {d e : DomainName} : claimCell d = claimCell e ↔ d = e := by
  refine ⟨fun h => ?_, fun h => by rw [h]⟩
  rw [claimCell, claimCell, Cell.field.injEq] at h
  exact DomainName.text_inj.1 h.2

/-- The owner of a zone is read off its owner record alone. -/
theorem ownerOf_congr {s t : MemoryStore} {zone : DomainName}
    (h : t.read (.value zone.zoneKey) = s.read (.value zone.zoneKey)) :
    t.ownerOf zone = s.ownerOf zone := by
  unfold ownerOf
  rw [h]

/-- The claimant of a name is read off its claim alone. -/
theorem labelClaimant_congr {s t : MemoryStore} {name : DomainName}
    (h : t.read (claimCell name) = s.read (claimCell name)) :
    t.labelClaimant name = s.labelClaimant name := by
  unfold labelClaimant
  rw [h]

/-- The records of a name are read off their cell alone. -/
theorem labelRecords_congr {s t : MemoryStore} {name : DomainName}
    (h : t.read (recordCell name) = s.read (recordCell name)) :
    t.labelRecords name = s.labelRecords name := by
  unfold labelRecords
  rw [h]

theorem labelRecords_of_read {s : MemoryStore} {name : DomainName} {bytes : Bytes}
    (h : s.read (recordCell name) = some bytes) : s.labelRecords name = RecordSet.decode? bytes := by
  unfold labelRecords
  rw [h]

/-- A claim names the user whose text it is. -/
theorem labelClaimant_of_read {s : MemoryStore} {name : DomainName} {user : String}
    (h : s.read (claimCell name) = some (Bytes.ofText user)) : s.labelClaimant name = some user := by
  unfold labelClaimant
  rw [h]
  exact Bytes.toText?_ofText user

/-- A claim that was written is found. -/
theorem labelClaimant_write {s : MemoryStore} (h : s.TakesFields managedDomains) (name : DomainName)
    (user : String) :
    (s.write (claimCell name) (some (Bytes.ofText user))).labelClaimant name = some user := by
  have htakes : s.Takes (claimCell name) := h
  exact labelClaimant_of_read ((read_write _ htakes _ _).trans (if_pos rfl))

end MemoryStore

open MemoryStore

variable {s : MemoryStore} {zone name : DomainName}

/-! ## Owners -/

/-- A written owner is read back. -/
theorem decodeOwner?_encodeOwner (user : String) : decodeOwner? (encodeOwner user) = some user := by
  have hread : Json.Tree.read? (encodeOwner user) =
      some (.object [(Json.pieces "owner", .string (Json.pieces user))]) :=
    Json.Tree.read?_bytes (v := .object [("owner", .string user)]) ⟨trivial, trivial⟩
  unfold decodeOwner?
  rw [hread]
  simp [Json.Tree.record?, Json.Tree.fillSlots, Json.Tree.fillSlot, Json.pieceText?_pieces,
    Json.Tree.text?, Json.maxDepth]

theorem alone_readOwner (ht : s.TakesValue zone.zoneKey) :
    alone (readOwner zone) s =
      (match s.ownerOf zone with
        | some owner => .ok (s.read (.value zone.zoneKey), owner)
        | none => .error .json, s) := by
  unfold readOwner ownerOf ownerIn
  rw [alone_bind_ok (alone_get ht)]
  cases s.read (.value zone.zoneKey) with
  | none => rfl
  | some bytes =>
    simp only
    cases decodeOwner? bytes <;> rfl

/-- A look at the owner of a zone finds it, or fails where the owner record cannot be read. It leaves the
store alone. -/
theorem alone_readOwner_cases (zone : DomainName) (s : MemoryStore) :
    (∃ owner, s.TakesValue zone.zoneKey ∧ s.ownerOf zone = some owner ∧
      alone (readOwner zone) s = (.ok (s.read (.value zone.zoneKey), owner), s)) ∨
    ∃ e, alone (readOwner zone) s = (.error e, s) := by
  by_cases ht : s.TakesValue zone.zoneKey
  · have hrun := alone_readOwner ht
    cases ho : s.ownerOf zone with
    | some owner => exact .inl ⟨owner, ht, rfl, by rw [hrun, ho]⟩
    | none => exact .inr ⟨.json, by rw [hrun, ho]⟩
  · have hrefused : s.Refuses (.get zone.zoneKey) := ht
    exact .inr ⟨_, alone_bind_error (alone_call_refused hrefused)⟩

/-! ## Claimants -/

/-- The failure of an operation that finds a claim which is no text. -/
def unreadableClaim (name : DomainName) : GatewayError :=
  .storage (.other ("claimant of " ++ name.text ++ " is not utf-8"))

theorem alone_claimant (name : DomainName) (ht : s.TakesFields managedDomains) :
    alone (claimant name) s =
      (match s.labelClaimant name with
        | some user => .ok (if user = "" then none else some user)
        | none => .error (unreadableClaim name), s) := by
  unfold claimant labelClaimant claimantIn claimCell
  rw [alone_bind_ok (alone_hget ht)]
  cases s.read (.field managedDomains name.text) with
  | none => rfl
  | some bytes =>
    simp only
    cases Bytes.toText? bytes <;> rfl

/-- A look at the claimant of a name finds one, or nobody, or fails. -/
theorem alone_claimant_cases (name : DomainName) (s : MemoryStore) :
    (∃ user, s.TakesFields managedDomains ∧ s.labelClaimant name = some user ∧
      alone (claimant name) s = (.ok (if user = "" then none else some user), s)) ∨
    ∃ e, alone (claimant name) s = (.error e, s) := by
  by_cases ht : s.TakesFields managedDomains
  · have hrun := alone_claimant name ht
    cases hc : s.labelClaimant name with
    | some user => exact .inl ⟨user, ht, rfl, by rw [hrun, hc]⟩
    | none => exact .inr ⟨_, by rw [hrun, hc]⟩
  · have hrefused : s.Refuses (.hget managedDomains name.text) := ht
    exact .inr ⟨_, alone_bind_error (alone_call_refused hrefused)⟩

/-! ## Records -/

theorem alone_readRecords (ht : s.TakesFields name.zone.fqdn) :
    alone (readRecords name.zone name.label) s =
      (match s.labelRecords name with
        | some set => .ok set
        | none => .error .json, s) := by
  unfold readRecords labelRecords recordCell
  rw [alone_bind_ok (alone_hget ht)]
  cases s.read (.field name.zone.fqdn name.label) with
  | none => rfl
  | some bytes =>
    simp only
    cases RecordSet.decode? bytes <;> rfl

/-- A look at the records of a name finds them, or fails. -/
theorem alone_readRecords_cases (name : DomainName) (s : MemoryStore) :
    (∃ set, s.TakesFields name.zone.fqdn ∧ s.labelRecords name = some set ∧
      alone (readRecords name.zone name.label) s = (.ok set, s)) ∨
    ∃ e, alone (readRecords name.zone name.label) s = (.error e, s) := by
  by_cases ht : s.TakesFields name.zone.fqdn
  · have hrun := alone_readRecords ht
    cases hr : s.labelRecords name with
    | some set => exact .inl ⟨set, ht, rfl, by rw [hrun, hr]⟩
    | none => exact .inr ⟨.json, by rw [hrun, hr]⟩
  · have hrefused : s.Refuses (.hget name.zone.fqdn name.label) := ht
    exact .inr ⟨_, alone_bind_error (alone_call_refused hrefused)⟩

/-! ## A look is one call and a decision -/

/-- Who controls a zone with this owner record. -/
def controlIn (identity : String) (raw : Option Bytes) : Except GatewayError Control :=
  match ownerIn raw with
  | none => .error .json
  | some owner =>
    .ok (if owner = "" then .unclaimed else if owner = identity then .selfManaged else .delegated owner)

/-- The claimant in a stored claim of a name. -/
def claimantFound (name : DomainName) (raw : Option Bytes) : Except GatewayError (Option String) :=
  match claimantIn raw with
  | none => .error (unreadableClaim name)
  | some user => .ok (if user = "" then none else some user)

/-- The record set that is stored under a label. -/
def recordsFound : Option Bytes → Except GatewayError RecordSet
  | none => .ok .empty
  | some bytes =>
    match RecordSet.decode? bytes with
    | some set => .ok set
    | none => .error .json

/-- A claim that was written is read back. -/
theorem claimantFound_ofText {user : String} (hu : user ≠ "") (name : DomainName) :
    claimantFound name (some (Bytes.ofText user)) = .ok (some user) := by
  simp only [claimantFound, claimantIn, Bytes.toText?_ofText, if_neg hu]

/-- Who controls a zone is decided on its owner record. -/
theorem control_eq (auth : ZoneAuthority) (zone : DomainName) :
    auth.control zone = get zone.zoneKey >>= fun raw => check (controlIn auth.identity raw) := by
  unfold ZoneAuthority.control readOwner
  rw [bind_assoc]
  congr 1
  funext raw
  unfold controlIn ownerIn
  cases raw with
  | none => rfl
  | some bytes =>
    simp only
    cases decodeOwner? bytes with
    | none => rfl
    | some owner =>
      simp only [pure_bind]
      by_cases ho : owner = ""
      · rw [if_pos ho, if_pos ho]
        rfl
      by_cases hi : owner = auth.identity
      · rw [if_neg ho, if_pos hi, if_neg ho, if_pos hi]
        rfl
      · rw [if_neg ho, if_neg hi, if_neg ho, if_neg hi]
        rfl

theorem claimant_eq (name : DomainName) :
    claimant name = hget managedDomains name.text >>= fun raw => check (claimantFound name raw) := by
  unfold claimant
  congr 1
  funext raw
  unfold claimantFound claimantIn
  cases raw with
  | none => rfl
  | some bytes =>
    simp only
    cases Bytes.toText? bytes <;> rfl

theorem readRecords_eq (zone : DomainName) (label : String) :
    readRecords zone label = hget zone.fqdn label >>= fun raw => check (recordsFound raw) := by
  unfold readRecords
  congr 1
  funext raw
  unfold recordsFound
  cases raw with
  | none => rfl
  | some bytes =>
    simp only
    cases RecordSet.decode? bytes <;> rfl

end GatewayControl
