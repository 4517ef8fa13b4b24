import GatewayControl.Proofs.Authority.Atomicity
import GatewayControl.Proofs.Authority.LabelStore

/-!
# `GatewayControl.Proofs.Authority.NameRetry` -- repeating interrupted calls on names

A claim, a release or a change to a route writes once or twice. Where it is interrupted, it leaves one of two
or three stores, and from each of them a repetition goes the rest of the way: a claim that is there is not
written again, and addresses that are there or gone are no change. So the call can be repeated until it
succeeds (`Repeatable`), and leaves the store that it would have left without the interruptions
(`interrupted_calls_completed`). On the way the claim is there before the records, and goes after them
(`ClaimsCover`).
-/

namespace GatewayControl

open Operation MemoryStore

variable {identity user domain : String} {s t f : MemoryStore} {name : DomainName} {owner : String}
  {claim : Option Bytes} {set : RecordSet} {ips : List Ip}

/-- In the zones of the gateway, a label with records has a claimant. -/
def ClaimsCover (identity : String) (s : MemoryStore) : Prop :=
  ∀ name : DomainName, s.ownerOf name.zone = some identity → s.read (recordCell name) ≠ none →
    ∃ user, user ≠ "" ∧ s.labelClaimant name = some user

/-- Wherever the operation is interrupted that starts on `s`, it can be repeated until it gets to `f`, and no
label of the gateway is left with records and no claimant on the way. -/
def Repeatable (identity : String) (op : Operation Unit) (s f : MemoryStore) : Prop :=
  ∃ V : MemoryStore → Prop, V s ∧ op.Converges V () f ∧ ∀ t, V t → ClaimsCover identity t

theorem LabelsInOrder.claimsCover (h : LabelsInOrder identity s) : ClaimsCover identity s := by
  intro name howner hrecords
  rcases h.claims name with hnone | ⟨user, hu, hclaim⟩
  · exact absurd hnone ((h.claimed name).2 ⟨howner, hrecords⟩)
  · exact ⟨user, hu, labelClaimant_of_read hclaim⟩

/-- A store with other records and another claim of one name is judged by that name. -/
theorem ClaimsCover.withLabel (h : ClaimsCover identity s) (hserves : s.Serves name owner)
    (hname : owner = identity → set.stored ≠ none →
      ∃ user, user ≠ "" ∧ claim = some (Bytes.ofText user)) :
    ClaimsCover identity (s.withLabel name claim set) := by
  intro other howner hrecords
  rw [ownerOf_congr (hserves.read_value_withLabel _)] at howner
  by_cases hother : other = name
  · subst hother
    rw [hserves.ownerOf, Option.some.injEq] at howner
    rw [hserves.read_recordCell] at hrecords
    obtain ⟨user, hu, rfl⟩ := hname howner hrecords
    exact ⟨user, hu, labelClaimant_of_read hserves.read_claimCell⟩
  · have hrecord : recordCell other ≠ recordCell name := fun heq => hother (recordCell_inj.1 heq)
    have hclaim : claimCell other ≠ claimCell name := fun heq => hother (claimCell_inj.1 heq)
    rw [hserves.read_withLabel, if_neg hrecord, if_neg (recordCell_ne_claimCell _ _)] at hrecords
    rw [labelClaimant_congr (s := s)]
    · exact h other howner hrecords
    · rw [hserves.read_withLabel, if_neg (recordCell_ne_claimCell _ _).symm, if_neg hclaim]

/-- The claims and records of one name that come up between interruptions, with the rest of the store as it
was. -/
def AmongLabels (s : MemoryStore) (name : DomainName) (W : Option Bytes → RecordSet → Prop)
    (t : MemoryStore) : Prop :=
  ∃ claim set, W claim set ∧ t = s.withLabel name claim set

theorem AmongLabels.intro {W : Option Bytes → RecordSet → Prop} (h : W claim set) :
    AmongLabels s name W (s.withLabel name claim set) := ⟨claim, set, h, rfl⟩

/-- What would succeed ends where it converges to. -/
theorem repeatable_of_converges {op : Operation Unit} {V : MemoryStore → Prop}
    (hfull : alone op s = (.ok (), f)) (hs : V s) (hconverges : op.Converges V () t)
    (hcover : ∀ u, V u → ClaimsCover identity u) : Repeatable identity op s f := by
  have hend := hconverges.alone hs
  rw [hfull, Prod.mk.injEq] at hend
  rw [← hend.2] at hconverges
  exact ⟨V, hs, hconverges, hcover⟩

theorem repeatable_of_labels {op : Operation Unit} (h : LabelsInOrder identity s)
    (hserves : s.Serves name owner) (hfull : alone op s = (.ok (), f))
    (W : Option Bytes → RecordSet → Prop) (hread : s.read (recordCell name) = set.stored)
    (hstart : W (s.read (claimCell name)) set)
    (hcover : ∀ c x, W c x → owner = identity → x.stored ≠ none →
      ∃ user, user ≠ "" ∧ c = some (Bytes.ofText user))
    (hendures : ∀ F c x, W c x →
      op.Endures F (AmongLabels s name W) (AmongLabels s name W) (s.withLabel name c x) () t) :
    Repeatable identity op s f := by
  have hs : AmongLabels s name W s := by
    have hself := hserves.withLabel_self rfl hread
    exact ⟨_, _, hstart, hself.symm⟩
  refine repeatable_of_converges (t := t) hfull hs ?_ ?_
  · rintro F u ⟨c, x, hW, rfl⟩
    exact hendures F c x hW
  · rintro u ⟨c, x, hW, rfl⟩
    exact h.claimsCover.withLabel hserves (hcover c x hW)

/-! ## Claims and releases -/

/-- The user may change the label of a zone of the owner. -/
structure MayChange (identity user : String) (name : DomainName) (owner : String) (s : MemoryStore) :
    Prop where
  /-- In a zone of the gateway the label is free or the user's. -/
  claimant : owner = identity →
    s.read (claimCell name) = none ∨ s.read (claimCell name) = some (Bytes.ofText user)
  /-- Any other zone is the user's. -/
  owned : owner ≠ identity → owner = user

namespace ZoneAuthority

variable {auth : ZoneAuthority} {old : Option Bytes} {x : RecordSet}

/-- The claim of a label after a claim of the user. -/
def claimAfter (auth : ZoneAuthority) (owner user : String) (old : Option Bytes) : Option Bytes :=
  if owner = auth.identity then some (Bytes.ofText user) else old

/-- What attempts at a claim leave: everything as it was, or the user's claim and none or all of the
addresses. -/
def LeftByClaim (auth : ZoneAuthority) (owner user : String) (ips : List Ip) (old : Option Bytes)
    (set : RecordSet) (claim : Option Bytes) (x : RecordSet) : Prop :=
  claim = old ∧ x = set ∨
    claim = auth.claimAfter owner user old ∧ (x = set ∨ x = (set.addAll (auth.recordsOf ips)).2)

/-- The claim of a label after a release that has kept these records. -/
def claimKept (auth : ZoneAuthority) (owner : String) (kept : RecordSet) (old : Option Bytes) : Option Bytes :=
  if owner = auth.identity ∧ kept.isEmpty = true then none else old

/-- What attempts at a release leave: all or none of the addresses, and in the end no claim without
records. -/
def LeftByRelease (auth : ZoneAuthority) (owner : String) (ips : List Ip) (old : Option Bytes)
    (set : RecordSet) (claim : Option Bytes) (x : RecordSet) : Prop :=
  claim = old ∧ (x = set ∨ x = (set.removeAll (auth.recordsOf ips)).2) ∨
    claim = auth.claimKept owner (set.removeAll (auth.recordsOf ips)).2 old ∧
      x = (set.removeAll (auth.recordsOf ips)).2

namespace LeftByClaim

theorem isAddressSet (h : auth.LeftByClaim owner user ips old set claim x) (hset : set.IsAddressSet) :
    x.IsAddressSet := by
  rcases h with ⟨-, rfl⟩ | ⟨-, rfl | rfl⟩
  · exact hset
  · exact hset
  · exact hset.addAll fun r hr => isAddress_of_mem_recordsOf hr

/-- A repetition comes to the same records. -/
theorem addAll_eq (h : auth.LeftByClaim owner user ips old set claim x) :
    (x.addAll (auth.recordsOf ips)).2 = (set.addAll (auth.recordsOf ips)).2 := by
  rcases h with ⟨-, rfl⟩ | ⟨-, rfl | rfl⟩
  · rfl
  · rfl
  · exact addAll_recordsOf auth set ips

theorem claimed (h : auth.LeftByClaim owner user ips old set claim x) :
    auth.LeftByClaim owner user ips old set (auth.claimAfter owner user old) x :=
  .inr ⟨rfl, h.elim (fun hleft => .inl hleft.2) And.right⟩

theorem added (h : auth.LeftByClaim owner user ips old set claim x) :
    auth.LeftByClaim owner user ips old set (auth.claimAfter owner user old)
      (x.addAll (auth.recordsOf ips)).2 := .inr ⟨rfl, .inr h.addAll_eq⟩

end LeftByClaim

namespace LeftByRelease

theorem isAddressSet (h : auth.LeftByRelease owner ips old set claim x) (hset : set.IsAddressSet) :
    x.IsAddressSet := by
  rcases h with ⟨-, rfl | rfl⟩ | ⟨-, rfl⟩
  · exact hset
  · exact hset.removeAll _
  · exact hset.removeAll _

/-- A repetition comes to the same records. -/
theorem removeAll_eq (h : auth.LeftByRelease owner ips old set claim x) :
    (x.removeAll (auth.recordsOf ips)).2 = (set.removeAll (auth.recordsOf ips)).2 := by
  rcases h with ⟨-, rfl | rfl⟩ | ⟨-, rfl⟩
  · rfl
  · rw [set.removeAll_removeAll]
  · rw [set.removeAll_removeAll]

theorem removed (h : auth.LeftByRelease owner ips old set claim x) :
    auth.LeftByRelease owner ips old set claim (x.removeAll (auth.recordsOf ips)).2 :=
  h.imp (fun hleft => ⟨hleft.1, .inr h.removeAll_eq⟩) fun hleft => ⟨hleft.1, h.removeAll_eq⟩

theorem freed (h : auth.LeftByRelease owner ips old set claim x) :
    auth.LeftByRelease owner ips old set
      (auth.claimKept owner (set.removeAll (auth.recordsOf ips)).2 old)
      (x.removeAll (auth.recordsOf ips)).2 := .inr ⟨rfl, h.removeAll_eq⟩

/-- Records that are left were there before. -/
theorem stored_ne_none (h : auth.LeftByRelease owner ips old set claim x) (hset : set.IsAddressSet)
    (hstored : x.stored ≠ none) : set.stored ≠ none := by
  intro hnone
  have hempty : set = .empty := hset.eq_empty (by simpa [RecordSet.stored] using hnone)
  have hx : x = set := by
    rcases h with ⟨-, rfl | rfl⟩ | ⟨-, rfl⟩
    · rfl
    · rw [hempty, RecordSet.removeAll_empty]
    · rw [hempty, RecordSet.removeAll_empty]
  exact hstored (hx ▸ hnone)

/-- A claim that goes, goes after the records. -/
theorem claim_eq (h : auth.LeftByRelease owner ips old set claim x) (hstored : x.stored ≠ none) :
    claim = old := by
  rcases h with ⟨rfl, -⟩ | ⟨rfl, rfl⟩
  · rfl
  · exact if_neg fun hgone => hstored (if_pos hgone.2)

/-- The claim of a label that is free or the user's is gone or the user's. -/
theorem claim_cases (h : auth.LeftByRelease owner ips old set claim x)
    (hold : old = none ∨ old = some (Bytes.ofText user)) :
    claim = none ∨ claim = some (Bytes.ofText user) := by
  rcases h with ⟨rfl, -⟩ | ⟨rfl, -⟩
  · exact hold
  · unfold claimKept
    split
    · exact .inl rfl
    · exact hold

end LeftByRelease

/-- A claim that would succeed passes its checks. -/
theorem proper_of_claim (hfull : alone (auth.claim user domain ips) s = (.ok (), f)) :
    user ≠ "" ∧ ∃ name, DomainName.parse domain = .ok name ∧ ips ≠ [] := by
  unfold claim at hfull
  rcases checked_cases user domain _ with ⟨e, he, -⟩ | ⟨hu, name, hname, hop⟩
  · rw [he] at hfull
    cases hfull
  · refine ⟨hu, name, hname, ?_⟩
    rintro rfl
    rw [hop] at hfull
    cases hfull

/-- So does a release. -/
theorem proper_of_release (hfull : alone (auth.release user domain ips) s = (.ok (), f)) :
    user ≠ "" ∧ ∃ name, DomainName.parse domain = .ok name := by
  unfold release at hfull
  rcases checked_cases user domain _ with ⟨e, he, -⟩ | ⟨hu, name, hname, -⟩
  · rw [he] at hfull
    cases hfull
  · exact ⟨hu, name, hname⟩

/-- A label in a zone of the gateway that has records has a claim. -/
theorem claimant_of_stored (h : LabelsInOrder identity s) (howner : s.ownerOf name.zone = some identity)
    (hread : s.read (recordCell name) = set.stored) (hstored : set.stored ≠ none) :
    ∃ user, user ≠ "" ∧ s.read (claimCell name) = some (Bytes.ofText user) := by
  rw [← hread] at hstored
  exact (h.claims name).resolve_left ((h.claimed name).2 ⟨howner, hstored⟩)

/-- The claimant that is found is the one in the claim. -/
theorem claim_cases_of_claimant (h : LabelsInOrder identity s) (name : DomainName) :
    s.read (claimCell name) = none ∧ alone (claimant name) s = (.ok none, s) ∨
      ∃ other, s.read (claimCell name) = some (Bytes.ofText other) ∧
        alone (claimant name) s = (.ok (some other), s) := by
  rw [alone_claimant name h.takesFields_claims]
  unfold labelClaimant claimantIn
  rcases h.claims name with hnone | ⟨other, hother, hsome⟩
  · rw [hnone]
    exact .inl ⟨rfl, rfl⟩
  · rw [hsome]
    refine .inr ⟨other, rfl, ?_⟩
    simp only [Bytes.toText?_ofText, if_neg hother]

/-- A claim that would succeed is one of a user who may change the label. -/
theorem mayChange_of_claim (h : LabelsInOrder auth.identity s) (hu : user ≠ "")
    (hd : DomainName.parse domain = .ok name) (hips : ips ≠ [])
    (hfull : alone (auth.claim user domain ips) s = (.ok (), f)) :
    ∃ owner, owner ≠ "" ∧ s.Serves name owner ∧ MayChange auth.identity user name owner s := by
  rw [alone_claim auth hu hd hips] at hfull
  rcases alone_readOwner_cases name.zone s with ⟨owner, htakes, howner, hrun⟩ | ⟨e, hrun⟩ <;>
    rw [hrun] at hfull
  · have hserves : s.Serves name owner :=
      ⟨htakes, h.takesFields_claims, h.takesFields_records name.zone, howner⟩
    simp only at hfull
    split at hfull
    · cases hfull
    next hne =>
      refine ⟨owner, hne, hserves, ?_⟩
      split at hfull
      · next hi =>
        refine ⟨fun _ => ?_, fun hforeign => absurd hi hforeign⟩
        rw [alone_claimSelfManaged] at hfull
        rcases claim_cases_of_claimant h name with ⟨hclaim, -⟩ | ⟨other, hclaim, hfound⟩
        · exact .inl hclaim
        · rw [hfound] at hfull
          simp only at hfull
          split at hfull
          · next heq => exact .inr (heq ▸ hclaim)
          · cases hfull
      next hi =>
        split at hfull
        · next hmine => exact ⟨fun howner => absurd howner hi, fun _ => hmine⟩
        · cases hfull
  · cases hfull

/-- **A claim endures** on whatever its attempts leave. -/
theorem endures_claim_left (hserves : s.Serves name owner) (hu : user ≠ "")
    (hd : DomainName.parse domain = .ok name) (hips : ips ≠ []) (hne : owner ≠ "")
    (hmay : MayChange auth.identity user name owner s) (hset : set.IsAddressSet)
    (h : auth.LeftByClaim owner user ips (s.read (claimCell name)) set claim x) (F : StoreFault → Prop) :
    let left := AmongLabels s name (auth.LeftByClaim owner user ips (s.read (claimCell name)) set)
    (auth.claim user domain ips).Endures F left left (s.withLabel name claim x) ()
      (s.withLabel name (auth.claimAfter owner user (s.read (claimCell name)))
        (set.addAll (auth.recordsOf ips)).2) := by
  intro left
  have hx : x.IsAddressSet := h.isAddressSet hset
  have hclaimed := h.claimed
  have hadded := h.added
  rw [← h.addAll_eq]
  refine endures_claim (hserves.withLabel claim x) auth hu hd hips hne (.intro h) (.intro h)
    (fun hi => ?_) fun hi => ?_
  · have hmine : auth.claimAfter owner user (s.read (claimCell name)) = some (Bytes.ofText user) := if_pos hi
    have hfree : claim = none ∨ claim = some (Bytes.ofText user) := by
      rcases h with ⟨rfl, -⟩ | ⟨rfl, -⟩
      · exact hmay.claimant hi
      · exact .inr hmine
    rw [hmine] at hclaimed hadded ⊢
    exact endures_claimSelfManaged hserves auth hu hfree hx hips (.intro h) (.intro hclaimed)
      (.intro hadded)
  · have hkept : auth.claimAfter owner user (s.read (claimCell name)) = s.read (claimCell name) := if_neg hi
    obtain rfl : claim = auth.claimAfter owner user (s.read (claimCell name)) :=
      h.elim (fun hleft => hleft.1.trans hkept.symm) And.left
    exact ⟨hmay.owned hi, endures_addRecords hserves auth hx hips (.intro h) (.intro h) (.intro hadded)⟩

/-- **A claim** that would succeed can be repeated until it does. -/
theorem repeatable_claim (h : LabelsInOrder auth.identity s)
    (hfull : alone (auth.claim user domain ips) s = (.ok (), f)) :
    Repeatable auth.identity (auth.claim user domain ips) s f := by
  obtain ⟨hu, name, hname, hips⟩ := proper_of_claim hfull
  obtain ⟨owner, hne, hserves, hmay⟩ := mayChange_of_claim h hu hname hips hfull
  obtain ⟨set, hset, hread⟩ := h.records name
  refine repeatable_of_labels h hserves hfull _ hread (.inl ⟨rfl, rfl⟩) ?_
    fun F c x hleft => endures_claim_left hserves hu hname hips hne hmay hset hleft F
  rintro c x (⟨rfl, rfl⟩ | ⟨rfl, -⟩) hi hstored
  · exact claimant_of_stored h (hi ▸ hserves.ownerOf) hread hstored
  · exact ⟨user, hu, if_pos hi⟩

/-- A release that would succeed finds a zone that nobody owns, and does nothing, or is one of a user who may
change the label. -/
theorem mayChange_of_release (h : LabelsInOrder auth.identity s) (hu : user ≠ "")
    (hd : DomainName.parse domain = .ok name)
    (hfull : alone (auth.release user domain ips) s = (.ok (), f)) :
    ∃ owner, s.Serves name owner ∧ (owner = "" ∨ MayChange auth.identity user name owner s) := by
  rw [alone_release auth hu hd] at hfull
  rcases alone_readOwner_cases name.zone s with ⟨owner, htakes, howner, hrun⟩ | ⟨e, hrun⟩ <;>
    rw [hrun] at hfull
  · refine ⟨owner, ⟨htakes, h.takesFields_claims, h.takesFields_records name.zone, howner⟩, ?_⟩
    simp only at hfull
    split at hfull
    · next hne => exact .inl hne
    right
    split at hfull
    · next hi =>
      refine ⟨fun _ => ?_, fun hforeign => absurd hi hforeign⟩
      rcases claim_cases_of_claimant h name with ⟨hclaim, -⟩ | ⟨other, hclaim, hfound⟩
      · exact .inl hclaim
      · rw [hfound] at hfull
        simp only at hfull
        split at hfull
        · next heq => exact .inr (heq ▸ hclaim)
        · cases hfull
    next hi =>
      split at hfull
      · next hmine => exact ⟨fun howner => absurd howner hi, fun _ => hmine⟩
      · cases hfull
  · cases hfull

/-- **A release endures** on whatever its attempts leave. -/
theorem endures_release_left (hserves : s.Serves name owner) (hu : user ≠ "")
    (hd : DomainName.parse domain = .ok name) (hne : owner ≠ "")
    (hmay : MayChange auth.identity user name owner s) (hset : set.IsAddressSet)
    (h : auth.LeftByRelease owner ips (s.read (claimCell name)) set claim x) (F : StoreFault → Prop) :
    let left := AmongLabels s name (auth.LeftByRelease owner ips (s.read (claimCell name)) set)
    (auth.release user domain ips).Endures F left left (s.withLabel name claim x) ()
      (s.withLabel name
        (auth.claimKept owner (set.removeAll (auth.recordsOf ips)).2 (s.read (claimCell name)))
        (set.removeAll (auth.recordsOf ips)).2) := by
  intro left
  have hwithdraw : ∀ selfManaged : Bool, (selfManaged = true ↔ owner = auth.identity) →
      (auth.withdraw selfManaged name ips).Endures F left left (s.withLabel name claim x) ()
        (s.withLabel name
          (auth.claimKept owner (set.removeAll (auth.recordsOf ips)).2 (s.read (claimCell name)))
          (set.removeAll (auth.recordsOf ips)).2) := by
    intro selfManaged hself
    rw [← h.removeAll_eq]
    refine endures_withdraw hserves auth (h.isAddressSet hset) (fun hs hempty => ?_) (fun hkept => ?_)
      (.intro h) (.intro h.removed) (.intro (h.removeAll_eq ▸ h.freed))
    · exact if_pos ⟨hself.1 hs, hempty⟩
    · rw [hself, h.removeAll_eq] at hkept
      rw [h.removeAll_eq]
      have hclaim : auth.claimKept owner (set.removeAll (auth.recordsOf ips)).2 (s.read (claimCell name)) =
          s.read (claimCell name) := if_neg hkept
      exact h.elim (fun hleft => hclaim.trans hleft.1.symm) fun hleft => hleft.1.symm
  refine endures_release (hserves.withLabel claim x) auth hu hd hne (.intro h) (.intro h)
    (fun hi => ?_) fun hi => ?_
  · refine ⟨?_, hwithdraw true ⟨fun _ => hi, fun _ => rfl⟩⟩
    rw [hserves.read_claimCell]
    exact h.claim_cases (hmay.claimant hi)
  · exact ⟨hmay.owned hi, hwithdraw false ⟨fun hf => absurd hf (by decide), fun howner => absurd howner hi⟩⟩

/-- **A release** that would succeed can be repeated until it does. -/
theorem repeatable_release (h : LabelsInOrder auth.identity s)
    (hfull : alone (auth.release user domain ips) s = (.ok (), f)) :
    Repeatable auth.identity (auth.release user domain ips) s f := by
  obtain ⟨hu, name, hname⟩ := proper_of_release hfull
  obtain ⟨owner, hserves, hmay⟩ := mayChange_of_release h hu hname hfull
  by_cases hne : owner = ""
  · -- nothing is written in a zone that nobody owns
    refine repeatable_of_converges (V := (· = s)) (t := s) hfull rfl (fun F t ht => ?_) fun t ht => ?_
    · subst ht
      exact endures_release_unowned (hne ▸ hserves) auth hu hname rfl rfl
    · subst ht
      exact h.claimsCover
  replace hmay := hmay.resolve_left hne
  obtain ⟨set, hset, hread⟩ := h.records name
  refine repeatable_of_labels h hserves hfull _ hread (.inl ⟨rfl, .inl rfl⟩) ?_
    fun F c x hleft => endures_release_left hserves hu hname hne hmay hset hleft F
  intro c x hleft hi hstored
  rw [hleft.claim_eq hstored]
  exact claimant_of_stored h (hi ▸ hserves.ownerOf) hread (hleft.stored_ne_none hset hstored)

end ZoneAuthority

/-! ## Routes -/

/-- Entries have nothing to do with labels. -/
theorem SameButRoutes.claimsCover (h : SameButRoutes s t) (ht : ClaimsCover identity t) :
    ClaimsCover identity s := by
  intro name howner hrecords
  rw [h.ownerOf] at howner
  rw [recordCell, h.read_field] at hrecords
  rw [labelClaimant_congr (h.read_field managedDomains name.text)]
  exact ht name howner hrecords

/-- **A change to a route** that would succeed can be repeated until it does. -/
theorem RouteCall.repeatable (h : LabelsInOrder identity s) {call : RouteCall}
    (hfull : alone call.operation s = (.ok (), f)) : Repeatable identity call.operation s f := by
  rcases call.operation_cases with ⟨e, hop, -⟩ | ⟨name, verdict, -, hop, hdecides⟩ <;> rw [hop] at hfull ⊢
  · cases hfull
  unfold claimAttempts at hfull ⊢
  have ht : s.TakesValue name.routingKey := by
    apply Classical.byContradiction
    intro ht
    rw [alone_swapRounds_refused ht] at hfull
    cases hfull
  have hloop := hfull
  rw [alone_swapRounds ht] at hloop
  cases hverdict : verdict (s.read (.value name.routingKey)) with
  | answer result =>
    rw [hverdict] at hloop
    cases hloop
    refine repeatable_of_converges (V := (s = ·)) (t := s) hfull rfl (fun F u hu => ?_) fun u hu => ?_
    · subst hu
      exact endures_swapRounds_answer ht hverdict rfl rfl 2
    · subst hu
      exact h.claimsCover
  | replace content =>
    have htakes : s.Takes (.value name.routingKey) := ht
    have hsame : SameButRoutes (s.write (.value name.routingKey) content) s := by
      intro cell hroutes
      rw [read_write _ htakes, if_neg (hroutes name)]
    have hconverges := Converges.swapRounds ht hverdict (hdecides.settles _ _ hverdict) 2
    refine repeatable_of_converges hfull (.inl rfl) hconverges fun u hu => ?_
    rcases hu with rfl | rfl
    · exact h.claimsCover
    · exact hsame.claimsCover h.claimsCover

/-! ## Calls -/

theorem DomainCall.repeatable (h : LabelsInOrder identity s) {call : DomainCall} (hname : call.OnName)
    (hfull : alone (call.operation identity) s = (.ok (), f)) :
    Repeatable identity (call.operation identity) s f := by
  cases call with
  | ofRoute call => exact RouteCall.repeatable h hfull
  | ofZone call =>
    cases call with
    | delegate user domain | revoke user domain => exact absurd hname id
    | claim recordTtl user domain ips =>
      let auth : ZoneAuthority := ⟨identity, recordTtl⟩
      have hlabels : LabelsInOrder auth.identity s := h
      exact ZoneAuthority.repeatable_claim hlabels hfull
    | release recordTtl user domain ips =>
      let auth : ZoneAuthority := ⟨identity, recordTtl⟩
      have hlabels : LabelsInOrder auth.identity s := h
      exact ZoneAuthority.repeatable_release hlabels hfull

/-- **Interrupted calls are completed by repeating them.** A call on a name that would succeed, after complete
calls of any kind, may be attempted any number of times, whatever happens to the attempts. Left alone after
that, it succeeds and leaves the store that it would have left at once; an attempt succeeds only with that
store, and fails only with a fault that has befallen it. All the while, no label in a zone of the gateway
has records and no claimant. -/
theorem interrupted_calls_completed (identity : String) (history : List DomainCall) {call : DomainCall}
    (hname : call.OnName) {f : MemoryStore}
    (hfull : alone (call.operation identity) (historyStore identity history) = (.ok (), f))
    (attempts : List Mishaps) :
    let op := call.operation identity
    let t := op.leftBy attempts (historyStore identity history)
    alone op t = (.ok (), f) ∧ ∀ m : Mishaps,
      (∀ answer, (op.disturbed m t).answer = some answer →
        answer = .ok () ∧ (op.disturbed m t).store = f ∨
          ∃ fault, m.Brings fault ∧ answer = .error (.storage (.store fault))) ∧
      ∀ u ∈ (op.disturbed m t).passed, ClaimsCover identity u := by
  intro op t
  obtain ⟨V, hs, hconverges, hcover⟩ :=
    DomainCall.repeatable (labelsInOrder_history identity history) hname hfull
  have ht : V t := hconverges.leftBy hs attempts
  refine ⟨hconverges.alone ht, fun m => ?_⟩
  have hmeets := hconverges.disturbed ht m
  refine ⟨fun answer hanswer => ?_, fun u hu => hcover u (hmeets.passed u hu)⟩
  rcases hmeets.answer answer hanswer with hok | ⟨fault, hfault, heq, -⟩
  · exact .inl hok
  · exact .inr ⟨fault, hfault, heq⟩

/-- The records of a new claim cannot be written, and the claim cannot be taken back. The repetition finds it
and writes the records. -/
theorem interrupted_calls_completed_after_lost_undo :
    let call : DomainCall := .ofZone (.claim 300 "alice" "app.example.com" [.v4 ⟨10, 0, 0, 1⟩])
    let op := call.operation "gateway"
    let s := historyStore "gateway" [.ofZone (.delegate "gateway" "example.com")]
    let t := op.leftBy [fun n => if 4 ≤ n then some (.fault (.task "down")) else none] s
    t.labelClaimant .sample = some "alice" ∧ t.read (recordCell .sample) = none ∧
      alone op t = (.ok (), (alone op s).2) := by
  intro call op s t
  have hname : call.OnName := trivial
  have hfull : alone op s = (.ok (), (alone op s).2) := Prod.ext (by decide +kernel) rfl
  exact ⟨by decide +kernel, by decide +kernel,
    (interrupted_calls_completed "gateway" [.ofZone (.delegate "gateway" "example.com")] hname hfull _).1⟩

end GatewayControl
