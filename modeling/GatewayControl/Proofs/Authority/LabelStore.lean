import GatewayControl.Proofs.Authority.History
import GatewayControl.Proofs.Operation.Disturbance

/-!
# `GatewayControl.Proofs.Authority.LabelStore` -- requests about a label, whatever happens to them

A request about a label moves between stores that differ in the claim and the records of one name
(`MemoryStore.withLabel`). For each operation it is said from which claim and records it would go to which,
which stores it passes on the way, and in which it can fail (`Operation.Endures`).
-/

namespace GatewayControl

open Operation

namespace MemoryStore

/-- The store with this claim and these records of a name. -/
def withLabel (s : MemoryStore) (name : DomainName) (claim : Option Bytes) (set : RecordSet) : MemoryStore :=
  (s.write (claimCell name) claim).write (recordCell name) set.stored

/-- The zone of the name belongs to the owner, and the calls that a request about the name makes are
answered. -/
structure Serves (name : DomainName) (owner : String) (s : MemoryStore) : Prop where
  takesValue : s.TakesValue name.zone.zoneKey
  takesFields_claims : s.TakesFields managedDomains
  takesFields_records : s.TakesFields name.zone.fqdn
  ownerOf : s.ownerOf name.zone = some owner

namespace Serves

variable {s : MemoryStore} {name : DomainName} {owner : String} {claim claim' : Option Bytes}
  {set set' : RecordSet}

theorem read_withLabel (h : s.Serves name owner) (cell : Cell) :
    (s.withLabel name claim set).read cell =
      if cell = recordCell name then set.stored else if cell = claimCell name then claim
      else s.read cell := by
  have hclaim : s.Takes (claimCell name) := h.takesFields_claims
  have hrecords : (s.write (claimCell name) claim).Takes (recordCell name) :=
    (takes_write_iff (claimCell name) hclaim claim (c := recordCell name)
      (DomainName.fqdn_ne_managedDomains name.zone)).2 h.takesFields_records
  rw [MemoryStore.withLabel, read_write _ hrecords, read_write _ hclaim]

theorem read_value_withLabel (h : s.Serves name owner) (key : String) :
    (s.withLabel name claim set).read (.value key) = s.read (.value key) := by
  rw [h.read_withLabel, if_neg (by simp [recordCell]), if_neg (by simp [claimCell])]

theorem read_recordCell (h : s.Serves name owner) :
    (s.withLabel name claim set).read (recordCell name) = set.stored := by
  rw [h.read_withLabel, if_pos rfl]

theorem read_claimCell (h : s.Serves name owner) :
    (s.withLabel name claim set).read (claimCell name) = claim := by
  rw [h.read_withLabel, if_neg (recordCell_ne_claimCell name name).symm, if_pos rfl]

/-- Requests about the name do not get in the way of each other. -/
theorem withLabel (h : s.Serves name owner) (claim : Option Bytes) (set : RecordSet) :
    (s.withLabel name claim set).Serves name owner where
  takesValue := by
    intro field
    rw [h.read_withLabel, if_neg, if_neg]
    · exact h.takesValue field
    · intro heq
      exact DomainName.zoneKey_ne_managedDomains name.zone (Cell.field.inj heq).1
    · intro heq
      exact DomainName.fqdn_ne_zoneKey name.zone name.zone (Cell.field.inj heq).1.symm
  takesFields_claims := (h.read_value_withLabel managedDomains).trans h.takesFields_claims
  takesFields_records := (h.read_value_withLabel name.zone.fqdn).trans h.takesFields_records
  ownerOf := (ownerOf_congr (h.read_value_withLabel _)).trans h.ownerOf

theorem withLabel_self (h : s.Serves name owner) (hclaim : s.read (claimCell name) = claim)
    (hset : s.read (recordCell name) = set.stored) : s.withLabel name claim set = s := by
  refine ext_read fun cell => ?_
  rw [h.read_withLabel]
  split
  · next hcell => rw [hcell, hset]
  split
  · next hcell => rw [hcell, hclaim]
  · rfl

theorem write_claim (h : s.Serves name owner) (claim' : Option Bytes) :
    (s.withLabel name claim set).write (claimCell name) claim' = s.withLabel name claim' set := by
  have htakes : (s.withLabel name claim set).Takes (claimCell name) := (h.withLabel _ _).takesFields_claims
  refine ext_read fun cell => ?_
  rw [read_write _ htakes, h.read_withLabel, h.read_withLabel]
  grind [recordCell_ne_claimCell]

theorem write_records (h : s.Serves name owner) (set' : RecordSet) :
    (s.withLabel name claim set).write (recordCell name) set'.stored = s.withLabel name claim set' := by
  have htakes : (s.withLabel name claim set).Takes (recordCell name) := (h.withLabel _ _).takesFields_records
  refine ext_read fun cell => ?_
  rw [read_write _ htakes, h.read_withLabel, h.read_withLabel]
  grind

end Serves
end MemoryStore

/-- Who controls a zone of this owner. -/
def ZoneAuthority.controlOf (auth : ZoneAuthority) (owner : String) : Control :=
  if owner = "" then .unclaimed else if owner = auth.identity then .selfManaged else .delegated owner

namespace ZoneAuthority

open MemoryStore

variable {F : StoreFault → Prop} {V E : MemoryStore → Prop} {s t : MemoryStore} {name : DomainName}
  {owner user domain : String} {claim freed : Option Bytes} {set : RecordSet} {ips : List Ip}

/-! ## Looks -/

theorem endures_control (h : s.Serves name owner) (auth : ZoneAuthority) (hs : V s) (hE : E s) :
    (auth.control name.zone).Endures F V E s (auth.controlOf owner) s := by
  rw [control_eq]
  refine endures_bind (endures_call (alone_get h.takesValue) hs hs hE) (endures_check ?_ hs)
  have howner : ownerIn (s.read (.value name.zone.zoneKey)) = some owner := h.ownerOf
  unfold controlIn
  rw [howner]
  rfl

/-- The claimant in a claim of a name. -/
theorem endures_claimant (h : s.Serves name owner) {found : Option String}
    (hclaim : claimantFound name (s.read (claimCell name)) = .ok found) (hs : V s) (hE : E s) :
    (claimant name).Endures F V E s found s := by
  rw [claimant_eq]
  exact endures_bind (endures_call (alone_hget h.takesFields_claims) hs hs hE) (endures_check hclaim hs)

theorem endures_readRecords (h : s.Serves name owner) (hset : set.IsAddressSet)
    (hread : s.read (recordCell name) = set.stored) (hs : V s) (hE : E s) :
    (readRecords name.zone name.label).Endures F V E s set s := by
  rw [readRecords_eq]
  refine endures_bind (endures_call (alone_hget h.takesFields_records) hs hs hE) (endures_check ?_ hs)
  rw [← recordCell, hread]
  exact hset.recordsFound_stored

/-! ## Claims -/

/-- Records are added in one step. -/
theorem endures_addRecords (h : s.Serves name owner) (auth : ZoneAuthority) (hset : set.IsAddressSet)
    (hips : ips ≠ []) (hs : V (s.withLabel name claim set)) (hE : E (s.withLabel name claim set))
    (hadded : V (s.withLabel name claim (set.addAll (auth.recordsOf ips)).2)) :
    (auth.addRecords name ips).Endures F V E (s.withLabel name claim set) ()
      (s.withLabel name claim (set.addAll (auth.recordsOf ips)).2) := by
  have hserves := h.withLabel claim set
  unfold addRecords
  refine endures_bind (endures_readRecords hserves hset h.read_recordCell hs hE) ?_
  dsimp only
  split
  · have haddr : ∀ r ∈ auth.recordsOf ips, r.IsAddress := fun r hr => isAddress_of_mem_recordsOf hr
    have hrecords : auth.recordsOf ips ≠ [] := fun hnil => hips (List.map_eq_nil_iff.1 hnil)
    have hstored : (set.addAll (auth.recordsOf ips)).2.stored =
        some (set.addAll (auth.recordsOf ips)).2.encode := by
      unfold RecordSet.stored
      rw [hset.isEmpty_addAll haddr (.inr hrecords)]
      rfl
    refine endures_call ?_ hs hadded hE
    rw [← h.write_records (set.addAll (auth.recordsOf ips)).2, hstored]
    exact alone_hset hserves.takesFields_records _
  · next hkept =>
    rw [RecordSet.addAll_eq_self (Bool.eq_false_iff.2 hkept)] at hadded ⊢
    exact endures_pure () hadded

/-- A label that is free or the user's is the user's in the end. -/
theorem endures_claimLabel (h : s.Serves name owner) (hu : user ≠ "")
    (hclaim : claim = none ∨ claim = some (Bytes.ofText user)) (hs : V (s.withLabel name claim set))
    (hE : E (s.withLabel name claim set))
    (hclaimed : V (s.withLabel name (some (Bytes.ofText user)) set)) (rounds : Nat) :
    (claimLabel user name (rounds + 1)).Endures F V E (s.withLabel name claim set) claim.isNone
      (s.withLabel name (some (Bytes.ofText user)) set) := by
  have hserves := h.withLabel claim set
  rw [claimLabel]
  rcases hclaim with rfl | rfl
  · have hfound : claimantFound name ((s.withLabel name none set).read (claimCell name)) = .ok none := by
      rw [h.read_claimCell]
      rfl
    refine endures_bind (endures_claimant hserves hfound hs hE) ?_
    have hcreate : alone (hsetIfAbsent managedDomains name.text (Bytes.ofText user))
        (s.withLabel name none set) = (.ok true, s.withLabel name (some (Bytes.ofText user)) set) := by
      rw [alone_hsetIfAbsent hserves.takesFields_claims, ← claimCell, if_pos h.read_claimCell, h.write_claim]
    exact endures_bind (endures_call hcreate hs hclaimed hE) (endures_pure true hclaimed)
  · have hfound : claimantFound name
        ((s.withLabel name (some (Bytes.ofText user)) set).read (claimCell name)) = .ok (some user) := by
      rw [h.read_claimCell]
      exact claimantFound_ofText hu name
    refine endures_bind (endures_claimant hserves hfound hs hE) ?_
    simp only [if_true]
    exact endures_pure false hs

/-- **A claim in a zone of the gateway** writes the claim and then the records. It fails with the claim as it
was, or with the user's claim and the records as they were. -/
theorem endures_claimSelfManaged (h : s.Serves name owner) (auth : ZoneAuthority) (hu : user ≠ "")
    (hclaim : claim = none ∨ claim = some (Bytes.ofText user)) (hset : set.IsAddressSet) (hips : ips ≠ [])
    (hs : V (s.withLabel name claim set)) (hclaimed : V (s.withLabel name (some (Bytes.ofText user)) set))
    (hadded : V (s.withLabel name (some (Bytes.ofText user)) (set.addAll (auth.recordsOf ips)).2)) :
    (auth.claimSelfManaged user name ips).Endures F V V (s.withLabel name claim set) ()
      (s.withLabel name (some (Bytes.ofText user)) (set.addAll (auth.recordsOf ips)).2) := by
  unfold claimSelfManaged
  refine endures_bind (endures_claimLabel h hu hclaim hs hs hclaimed 2) ?_
  -- the records cannot fail but in the store where they were to be written
  have hadds : (auth.addRecords name ips).Endures F V (· = s.withLabel name (some (Bytes.ofText user)) set)
      (s.withLabel name (some (Bytes.ofText user)) set) () _ :=
    endures_addRecords h auth hset hips hclaimed rfl hadded
  refine endures_attempt_bind hadds (endures_pure () hadded) ?_
  rintro fault v - - rfl
  rcases hclaim with rfl | rfl
  · have hundo : alone (hdel managedDomains name.text) (s.withLabel name (some (Bytes.ofText user)) set) = _ :=
      alone_hdel (h.withLabel _ _).takesFields_claims
    rw [← claimCell, h.write_claim] at hundo
    exact survives_undo (endures_call hundo hclaimed hs hclaimed) hs _
  · exact survives_throw hclaimed ⟨rfl, hclaimed⟩

/-- A claim goes to the owner of the zone, or to the claimant of the label. -/
theorem endures_claim (h : s.Serves name owner) (auth : ZoneAuthority) (hu : user ≠ "")
    (hd : DomainName.parse domain = .ok name) (hips : ips ≠ []) (hne : owner ≠ "") (hs : V s) (hE : E s)
    (hself : owner = auth.identity → (auth.claimSelfManaged user name ips).Endures F V E s () t)
    (hdelegated : owner ≠ auth.identity → owner = user ∧ (auth.addRecords name ips).Endures F V E s () t) :
    (auth.claim user domain ips).Endures F V E s () t := by
  unfold claim
  rw [checked_eq hu hd, if_neg hips]
  refine endures_bind (endures_control h auth hs hE) ?_
  unfold controlOf
  rw [if_neg hne]
  by_cases hi : owner = auth.identity
  · rw [if_pos hi]
    exact endures_detached (hself hi)
  · obtain ⟨howner, hadd⟩ := hdelegated hi
    rw [if_neg hi]
    simp only [if_pos howner]
    exact hadd

/-! ## Releases -/

/-- **Withdrawing records** removes the records, and then the claim if there are none left. -/
theorem endures_withdraw (h : s.Serves name owner) (auth : ZoneAuthority) {selfManaged : Bool}
    (hset : set.IsAddressSet)
    (hgone : selfManaged = true → (set.removeAll (auth.recordsOf ips)).2.isEmpty = true → freed = none)
    (hkept : ¬ (selfManaged = true ∧ (set.removeAll (auth.recordsOf ips)).2.isEmpty = true) → freed = claim)
    (hs : V (s.withLabel name claim set))
    (hremoved : V (s.withLabel name claim (set.removeAll (auth.recordsOf ips)).2))
    (hfreed : V (s.withLabel name freed (set.removeAll (auth.recordsOf ips)).2)) :
    (auth.withdraw selfManaged name ips).Endures F V V (s.withLabel name claim set) ()
      (s.withLabel name freed (set.removeAll (auth.recordsOf ips)).2) := by
  have hserves := h.withLabel claim set
  unfold withdraw
  refine endures_bind (endures_readRecords hserves hset h.read_recordCell hs hs) ?_
  dsimp only
  by_cases hempty : (set.removeAll (auth.recordsOf ips)).2.isEmpty = true
  · have hstored : (set.removeAll (auth.recordsOf ips)).2.stored = none := if_pos hempty
    have hremove : alone (hdel name.zone.fqdn name.label) (s.withLabel name claim set) = _ :=
      alone_hdel hserves.takesFields_records
    rw [← recordCell, ← hstored, h.write_records] at hremove
    rw [if_pos hempty]
    refine endures_bind (endures_discard (endures_call hremove hs hremoved hs) hremoved) ?_
    cases selfManaged with
    | false =>
      rw [hkept fun hself => absurd hself.1 (by decide)]
      exact endures_pure () hremoved
    | true =>
      have hfree : alone (hdel managedDomains name.text)
          (s.withLabel name claim (set.removeAll (auth.recordsOf ips)).2) = _ :=
        alone_hdel (h.withLabel _ _).takesFields_claims
      rw [← claimCell, h.write_claim, ← hgone rfl hempty] at hfree
      exact endures_discard (endures_call hfree hremoved hfreed hremoved) hfreed
  · obtain rfl := hkept fun hself => hempty hself.2
    rw [if_neg hempty]
    split
    · have hstored : (set.removeAll (auth.recordsOf ips)).2.stored =
          some (set.removeAll (auth.recordsOf ips)).2.encode := if_neg hempty
      refine endures_call ?_ hs hremoved hs
      rw [← h.write_records (set.removeAll (auth.recordsOf ips)).2, hstored]
      exact alone_hset hserves.takesFields_records _
    · next hsame =>
      rw [RecordSet.removeAll_eq_self (Bool.eq_false_iff.2 hsame)] at hremoved ⊢
      exact endures_pure () hremoved

/-- A release goes to the owner of the zone, or to the claimant of the label. -/
theorem endures_release (h : s.Serves name owner) (auth : ZoneAuthority) (hu : user ≠ "")
    (hd : DomainName.parse domain = .ok name) (hne : owner ≠ "") (hs : V s) (hE : E s)
    (hself : owner = auth.identity → (s.read (claimCell name) = none ∨
        s.read (claimCell name) = some (Bytes.ofText user)) ∧
      (auth.withdraw true name ips).Endures F V E s () t)
    (hdelegated : owner ≠ auth.identity →
      owner = user ∧ (auth.withdraw false name ips).Endures F V E s () t) :
    (auth.release user domain ips).Endures F V E s () t := by
  unfold release
  rw [checked_eq hu hd]
  refine endures_bind (endures_control h auth hs hE) ?_
  unfold controlOf
  rw [if_neg hne]
  by_cases hi : owner = auth.identity
  · obtain ⟨hclaim, hwithdraw⟩ := hself hi
    rw [if_pos hi]
    rcases hclaim with hclaim | hclaim
    · have hfound : claimantFound name (s.read (claimCell name)) = .ok none := by
        rw [hclaim]
        rfl
      exact endures_bind (endures_claimant h hfound hs hE) hwithdraw
    · have hfound : claimantFound name (s.read (claimCell name)) = .ok (some user) := by
        rw [hclaim]
        exact claimantFound_ofText hu name
      refine endures_bind (endures_claimant h hfound hs hE) ?_
      simp only [if_true]
      exact hwithdraw
  · obtain ⟨howner, hwithdraw⟩ := hdelegated hi
    rw [if_neg hi]
    simp only [if_pos howner]
    exact hwithdraw

theorem endures_release_unowned (h : s.Serves name "") (auth : ZoneAuthority) (hu : user ≠ "")
    (hd : DomainName.parse domain = .ok name) (hs : V s) (hE : E s) :
    (auth.release user domain ips).Endures F V E s () s := by
  unfold release
  rw [checked_eq hu hd]
  exact endures_bind (endures_control h auth hs hE) (endures_pure () hs)

end ZoneAuthority
end GatewayControl
