import GatewayControl.Proofs.Authority.LabelRace
import GatewayControl.Proofs.Dns.AddressSet
import GatewayControl.Proofs.Dns.RecordCodec
import GatewayControl.Proofs.Operation.Reliance

/-!
# `GatewayControl.Proofs.Authority.LabelContest` -- a free label has one winner

Any number of users bid for a free label of the gateway at the same time, each with any number of claims.
Whoever writes the claim first wins it for all claims of the user, and everybody else is turned away
(`free_label_has_one_winner`).

The claims agree on a few things (`contest`). The claim of the label is written once and stays; while there
is none there are no records; and the records, once there are some, stay too. What the records are is
bounded from both sides (`Published`). Claims of the winner may overwrite each other's records, as each
writes what it has read together with its own. But whatever is written was offered by the winner, and it
holds all that the last writer had to offer.

Nobody gives up. A round is lost only to somebody who has written the claim, and the next round finds it.
-/

namespace GatewayControl

open Operation MemoryStore ZoneAuthority

variable {ι : Type}

/-- The refusal of a claim of a label that another user has claimed. -/
def labelTaken (name : DomainName) : GatewayError :=
  .unauthorized ("add subdomain " ++ name.text ++ " to zone") name.zone.text

/-- A user bids for a label with records: there is a user, and there are records, all of addresses. -/
structure ProperBid (user : String) (records : List Record) : Prop where
  user_ne : user ≠ ""
  records_ne : records ≠ []
  addresses : ∀ r ∈ records, r.IsAddress

/-- The users who bid for a label, each with the records of one claim. -/
structure Bidding where
  Bids : String → List Record → Prop
  proper : ∀ user records, Bids user records → ProperBid user records

namespace Bidding

variable {bidding : Bidding} {winner user : String} {set : RecordSet} {records : List Record}

/-- Records that the winner offered, and nothing else. -/
structure Offered (bidding : Bidding) (winner : String) (set : RecordSet) : Prop where
  addresses : set.IsAddressSet
  offered : ∀ r ∈ set.toList, ∃ records, bidding.Bids winner records ∧ r ∈ records

/-- Among them all records of one of the winner's bids. -/
structure Published (bidding : Bidding) (winner : String) (set : RecordSet) : Prop
    extends Offered bidding winner set where
  complete : ∃ records, bidding.Bids winner records ∧ ∀ r ∈ records, set.contains r = true

theorem offered_empty (bidding : Bidding) (winner : String) : bidding.Offered winner .empty where
  addresses := RecordSet.isAddressSet_empty
  offered := by
    intro r hr
    cases hr

/-- Adding the records of a bid to what was offered. -/
theorem Offered.addAll (h : bidding.Offered winner set) (hbid : bidding.Bids winner records) :
    bidding.Published winner (set.addAll records).2 where
  addresses := h.addresses.addAll (bidding.proper _ _ hbid).addresses
  offered := by
    intro r hr
    rcases RecordSet.mem_toList_addAll hr with hr | hr
    · exact ⟨records, hbid, hr⟩
    · exact h.offered r hr
  complete := ⟨records, hbid, fun r hr => RecordSet.contains_addAll (.inl hr)⟩

/-- What holds the records of a bid is not empty. -/
theorem ne_empty_of_contains (hbid : bidding.Bids user records)
    (h : ∀ r ∈ records, set.contains r = true) : set ≠ .empty := by
  obtain ⟨r, hr⟩ := List.exists_mem_of_ne_nil records (bidding.proper _ _ hbid).records_ne
  exact RecordSet.ne_empty_of_contains (h r hr)

end Bidding

/-! ## What the claims agree on -/

/-- The user has claimed the name. -/
def ClaimedBy (name : DomainName) (user : String) (s : MemoryStore) : Prop :=
  s.read (claimCell name) = some (Bytes.ofText user)

/-- The state of a contest: the label is free, or a bidder has claimed it and may have published records. -/
inductive Standing (bidding : Bidding) (name : DomainName) (s : MemoryStore) : Prop where
  | free (claim : s.read (claimCell name) = none) (records : s.read (recordCell name) = none)
  | claimed (winner : String) (bid : ∃ records, bidding.Bids winner records)
      (claim : ClaimedBy name winner s) (records : s.read (recordCell name) = none)
  | published (winner : String) (set : RecordSet) (claim : ClaimedBy name winner s)
      (records : s.read (recordCell name) = some set.encode) (set_ok : bidding.Published winner set)

/-- A contest for a label in a zone of the gateway. -/
structure Contest (bidding : Bidding) (identity : String) (name : DomainName) (s : MemoryStore) : Prop where
  owner : s.ownerOf name.zone = some identity
  takesClaims : s.TakesFields managedDomains
  takesRecords : s.TakesFields name.zone.fqdn
  standing : Standing bidding name s

/-- The claim stays, and the records stay there once there are some. -/
structure Onward (name : DomainName) (s t : MemoryStore) : Prop where
  claim : ∀ bytes, s.read (claimCell name) = some bytes → t.read (claimCell name) = some bytes
  records : s.read (recordCell name) ≠ none → t.read (recordCell name) ≠ none

/-- What the claims of a label count on. -/
def contest (bidding : Bidding) (identity : String) (name : DomainName) : Reliance where
  Inv := Contest bidding identity name
  Later := Onward name
  refl := fun _ => ⟨fun _ => id, id⟩
  trans := fun _ _ _ h h' => ⟨fun bytes hs => h'.claim bytes (h.claim bytes hs), h'.records ∘ h.records⟩

namespace Contest

variable {bidding : Bidding} {identity user winner : String} {name : DomainName} {s t : MemoryStore}

theorem claimedBy_inj (h : ClaimedBy name user s) (h' : ClaimedBy name winner s) : user = winner := by
  have hbytes : Bytes.ofText user = Bytes.ofText winner := Option.some.inj (h.symm.trans h')
  have htext := congrArg Bytes.toText? hbytes
  rwa [Bytes.toText?_ofText, Bytes.toText?_ofText, Option.some.injEq] at htext

/-- A name that is claimed was claimed by a bidder. -/
theorem exists_claimedBy (h : Contest bidding identity name s) (hs : s.read (claimCell name) ≠ none) :
    ∃ winner, winner ≠ "" ∧ ClaimedBy name winner s ∧ ∃ records, bidding.Bids winner records := by
  rcases h.standing with ⟨hfree, -⟩ | ⟨winner, ⟨records, hbid⟩, hclaim, -⟩ |
    ⟨winner, set, hclaim, -, hset⟩
  · exact absurd hfree hs
  · exact ⟨winner, (bidding.proper _ _ hbid).user_ne, hclaim, records, hbid⟩
  · obtain ⟨records, hbid, -⟩ := hset.complete
    exact ⟨winner, (bidding.proper _ _ hbid).user_ne, hclaim, records, hbid⟩

/-- What is stored under a claimed name was offered by the claimant. -/
theorem offered_of_claimedBy (h : Contest bidding identity name s) (hclaim : ClaimedBy name user s) :
    (s.read (recordCell name) = none ∨
      ∃ set, s.read (recordCell name) = some set.encode ∧ bidding.Published user set) := by
  rcases h.standing with ⟨hfree, -⟩ | ⟨winner, -, -, hrecords⟩ | ⟨winner, set, hwinner, hrecords, hset⟩
  · rw [ClaimedBy, hfree] at hclaim
    cases hclaim
  · exact .inl hrecords
  · obtain rfl := claimedBy_inj hwinner hclaim
    exact .inr ⟨set, hrecords, hset⟩

theorem takesValue_zoneKey (h : Contest bidding identity name s) (hidentity : identity ≠ "") :
    s.TakesValue name.zone.zoneKey := by
  refine (takesValue_or_takesFields name.zone.zoneKey s).resolve_right fun hfields => ?_
  have howner := h.owner
  rw [ownerOf, show s.read (.value name.zone.zoneKey) = none from hfields] at howner
  exact hidentity (Option.some.inj howner).symm

/-- A contest goes on in a store that holds the same cells. -/
theorem of_read_eq (h : Contest bidding identity name s)
    (hread : ∀ cell, cell = .value name.zone.zoneKey ∨ cell = .value managedDomains ∨
      cell = .value name.zone.fqdn ∨ cell = claimCell name ∨ cell = recordCell name →
      t.read cell = s.read cell) : Contest bidding identity name t ∧ Onward name s t := by
  have hclaim := hread (claimCell name) (by simp)
  have hrecords := hread (recordCell name) (by simp)
  refine ⟨⟨?_, ?_, ?_, ?_⟩, ?_, ?_⟩
  · rw [ownerOf_congr (hread _ (.inl rfl))]
    exact h.owner
  · rw [TakesFields, hread _ (.inr (.inl rfl))]
    exact h.takesClaims
  · rw [TakesFields, hread _ (.inr (.inr (.inl rfl)))]
    exact h.takesRecords
  · rcases h.standing with ⟨hfree, hnone⟩ | ⟨winner, hbid, hclaimed, hnone⟩ |
      ⟨winner, set, hclaimed, hsome, hset⟩
    · exact .free (hclaim.trans hfree) (hrecords.trans hnone)
    · exact .claimed winner hbid (hclaim.trans hclaimed) (hrecords.trans hnone)
    · exact .published winner set (hclaim.trans hclaimed) (hrecords.trans hsome) hset
  · intro bytes hs
    exact hclaim.trans hs
  · intro hs
    rwa [hrecords]

/-- **The claim is written**: a bidder claims the free label. -/
theorem write_claim (h : Contest bidding identity name s) (hfree : s.read (claimCell name) = none)
    {records : List Record} (hbid : bidding.Bids user records) :
    let t := s.write (claimCell name) (some (Bytes.ofText user))
    Contest bidding identity name t ∧ Onward name s t ∧ ClaimedBy name user t := by
  intro t
  have hread : ∀ cell, t.read cell = if cell = claimCell name then some (Bytes.ofText user) else s.read cell :=
    read_write (claimCell name) h.takesClaims _
  have hnone : s.read (recordCell name) = none := by
    rcases h.standing with ⟨-, hnone⟩ | ⟨winner, -, hclaim, -⟩ | ⟨winner, set, hclaim, -, -⟩
    · exact hnone
    · exact absurd (hfree.symm.trans hclaim) (by simp)
    · exact absurd (hfree.symm.trans hclaim) (by simp)
  have hrecords : t.read (recordCell name) = s.read (recordCell name) := by
    rw [hread, if_neg (recordCell_ne_claimCell name name)]
  have hvalue : ∀ key, t.read (.value key) = s.read (.value key) := by
    intro key
    rw [hread, if_neg (by simp [claimCell])]
  have hclaimed : ClaimedBy name user t := by rw [ClaimedBy, hread, if_pos rfl]
  refine ⟨⟨?_, ?_, ?_, ?_⟩, ⟨?_, ?_⟩, hclaimed⟩
  · rw [ownerOf_congr (hvalue _)]
    exact h.owner
  · exact (hvalue _).trans h.takesClaims
  · exact (hvalue _).trans h.takesRecords
  · exact .claimed user ⟨records, hbid⟩ hclaimed (hrecords.trans hnone)
  · intro bytes hs
    rw [hfree] at hs
    cases hs
  · intro hs
    exact absurd hnone hs

/-- **Records are written** by the claimant. -/
theorem write_records (h : Contest bidding identity name s) (hclaim : ClaimedBy name user s)
    {set : RecordSet} (hset : bidding.Published user set) :
    let t := s.write (recordCell name) (some set.encode)
    Contest bidding identity name t ∧ Onward name s t ∧ t.read (recordCell name) ≠ none := by
  intro t
  have hread : ∀ cell, t.read cell = if cell = recordCell name then some set.encode else s.read cell :=
    read_write (recordCell name) h.takesRecords _
  have hclaimed : t.read (claimCell name) = s.read (claimCell name) := by
    rw [hread, if_neg (recordCell_ne_claimCell name name).symm]
  have hvalue : ∀ key, t.read (.value key) = s.read (.value key) := by
    intro key
    rw [hread, if_neg (by simp [recordCell])]
  have hrecords : t.read (recordCell name) = some set.encode := by rw [hread, if_pos rfl]
  refine ⟨⟨?_, ?_, ?_, ?_⟩, ⟨?_, ?_⟩, ?_⟩
  · rw [ownerOf_congr (hvalue _)]
    exact h.owner
  · exact (hvalue _).trans h.takesClaims
  · exact (hvalue _).trans h.takesRecords
  · exact .published user set (hclaimed.trans hclaim) hrecords hset
  · intro bytes hs
    exact hclaimed.trans hs
  · intro _
    rw [hrecords]
    simp
  · rw [hrecords]
    simp

/-! ## What a claim does in a contest -/

/-- The label is taken, and not by the user. -/
def TakenFrom (name : DomainName) (user : String) (e : GatewayError) (s : MemoryStore) : Prop :=
  e = labelTaken name ∧ ∃ winner, winner ≠ user ∧ ClaimedBy name winner s

theorem always_claimedBy (h : ClaimedBy name user s) :
    (contest bidding identity name).Always (ClaimedBy name user) s :=
  fun _ _ hlater => hlater.claim _ h

theorem obeys_control (hidentity : identity ≠ "") (recordTtl : UInt32)
    (hs : Contest bidding identity name s) {E : GatewayError → MemoryStore → Prop} :
    (ZoneAuthority.control ⟨identity, recordTtl⟩ name.zone).Obeys (contest bidding identity name)
      (fun control _ => control = .selfManaged) E s := by
  rw [control_eq]
  have hlook : (get name.zone.zoneKey).Obeys (contest bidding identity name)
      (fun raw _ => controlIn identity raw = .ok .selfManaged) E s := by
    refine obeys_look (c := .get name.zone.zoneKey) fun t ht _ => ?_
    refine ⟨_, step_get (ht.takesValue_zoneKey hidentity), fun _ _ _ => ?_⟩
    have howner : ownerIn (t.read (.value name.zone.zoneKey)) = some identity := ht.owner
    rw [controlIn, howner]
    simp [hidentity]
  refine obeys_bind hlook hs fun raw t ht halways => ?_
  rw [halways.now ht]
  exact obeys_pure fun _ _ _ => rfl

/-- Who looks at the claimant finds whoever has claimed the name; nobody, only if it was free. -/
theorem obeys_claimant (hs : Contest bidding identity name s) {E : GatewayError → MemoryStore → Prop} :
    (claimant name).Obeys (contest bidding identity name)
      (fun found t => (∀ winner, found = some winner → ClaimedBy name winner t) ∧
        (found = none → s.read (claimCell name) = none)) E s := by
  rw [claimant_eq]
  have hlook : (hget managedDomains name.text).Obeys (contest bidding identity name)
      (fun raw t => raw = none ∧ s.read (claimCell name) = none ∨
        ∃ winner, winner ≠ "" ∧ raw = some (Bytes.ofText winner) ∧ ClaimedBy name winner t) E s := by
    refine obeys_look (c := .hget managedDomains name.text) fun t ht hst => ?_
    refine ⟨_, step_hget ht.takesClaims, fun u _ htu => ?_⟩
    by_cases hfree : t.read (claimCell name) = none
    · left
      refine ⟨hfree, ?_⟩
      -- a claim that was there would be there still
      rw [Option.eq_none_iff_forall_ne_some]
      intro bytes hbytes
      exact absurd (hfree.symm.trans (hst.claim bytes hbytes)) (by simp)
    · obtain ⟨winner, hne, hclaim, -⟩ := ht.exists_claimedBy hfree
      exact .inr ⟨winner, hne, hclaim, htu.claim _ hclaim⟩
  refine obeys_bind hlook hs fun raw t ht halways => ?_
  rcases halways.now ht with ⟨rfl, hfree⟩ | ⟨winner, hne, rfl, hclaim⟩
  · refine obeys_pure fun _ _ _ => ⟨fun winner hfound => ?_, fun _ => hfree⟩
    cases hfound
  · rw [claimantFound_ofText hne]
    refine obeys_pure fun u _ htu => ⟨fun winner' hfound => ?_, fun hnone => by cases hnone⟩
    obtain rfl := Option.some.inj hfound
    exact htu.claim _ hclaim

/-- Who finds a claimant is done: it is the user, or the label is taken. -/
theorem obeys_found (h : ClaimedBy name winner s) :
    (if winner = user then pure false
      else throw (.unauthorized ("add subdomain " ++ name.text ++ " to zone") name.zone.text) :
        Operation Bool).Obeys
      (contest bidding identity name) (fun _ => ClaimedBy name user) (TakenFrom name user) s := by
  split
  · next heq => exact obeys_pure (heq ▸ always_claimedBy h)
  · next hne => exact obeys_throw fun t ht hlater => ⟨rfl, winner, hne, hlater.claim _ h⟩

/-- A claim of a label that somebody has claimed ends in its first round. -/
theorem obeys_claimLabel_of_claimed (hs : Contest bidding identity name s)
    (hclaimed : s.read (claimCell name) ≠ none) (rounds : Nat) :
    (claimLabel user name (rounds + 1)).Obeys (contest bidding identity name)
      (fun _ => ClaimedBy name user) (TakenFrom name user) s := by
  rw [claimLabel]
  refine obeys_bind (obeys_claimant hs) hs fun found t ht halways => ?_
  cases found with
  | none => exact absurd ((halways.now ht).2 rfl) hclaimed
  | some winner => exact obeys_found ((halways.now ht).1 winner rfl)

/-- **Two rounds are enough**: who loses the first one finds the winner in the second. -/
theorem obeys_claimLabel (hs : Contest bidding identity name s) {records : List Record}
    (hbid : bidding.Bids user records) (rounds : Nat) :
    (claimLabel user name (rounds + 2)).Obeys (contest bidding identity name)
      (fun _ => ClaimedBy name user) (TakenFrom name user) s := by
  rw [claimLabel]
  refine obeys_bind (obeys_claimant hs) hs fun found t ht halways => ?_
  cases found with
  | some winner => exact obeys_found ((halways.now ht).1 winner rfl)
  | none =>
    have hcreate : (hsetIfAbsent managedDomains name.text (Bytes.ofText user)).Obeys
        (contest bidding identity name)
        (fun written u => if written = true then ClaimedBy name user u
          else u.read (claimCell name) ≠ none) (TakenFrom name user) t := by
      refine obeys_call (c := .hsetIfAbsent managedDomains name.text (Bytes.ofText user)) fun u hu _ => ?_
      have hstep : step (.hsetIfAbsent managedDomains name.text (Bytes.ofText user)) u = _ :=
        step_hsetIfAbsent hu.takesClaims (Bytes.ofText user)
      by_cases hfree : u.read (claimCell name) = none
      · obtain ⟨hinv, hlater, hclaim⟩ := hu.write_claim hfree hbid
        exact ⟨true, _, hstep.trans (if_pos hfree), hinv, hlater, always_claimedBy hclaim⟩
      · refine ⟨false, u, hstep.trans (if_neg hfree), hu, Reliance.refl _ u, fun v _ hlater => ?_⟩
        obtain ⟨winner, -, hclaim, -⟩ := hu.exists_claimedBy hfree
        have hkept : v.read (claimCell name) = some (Bytes.ofText winner) := hlater.claim _ hclaim
        simp [hkept]
    refine obeys_bind hcreate ht fun written u hu halways => ?_
    cases written with
    | true => exact obeys_pure halways
    | false => exact obeys_claimLabel_of_claimed hu (halways.now hu) rounds

/-- The claimant reads what was published before, all of it offered by the claimant. -/
theorem obeys_readRecords (hs : Contest bidding identity name s) (hclaim : ClaimedBy name user s)
    {E : GatewayError → MemoryStore → Prop} :
    (readRecords name.zone name.label).Obeys (contest bidding identity name)
      (fun set t => ClaimedBy name user t ∧ bidding.Offered user set ∧
        (set ≠ .empty → t.read (recordCell name) ≠ none)) E s := by
  rw [readRecords_eq]
  have hlook : (hget name.zone.fqdn name.label).Obeys (contest bidding identity name)
      (fun raw t => ClaimedBy name user t ∧ (raw = none ∨ ∃ set, raw = some set.encode ∧
        bidding.Offered user set ∧ t.read (recordCell name) ≠ none)) E s := by
    refine obeys_look (c := .hget name.zone.fqdn name.label) fun t ht hst => ?_
    refine ⟨_, step_hget ht.takesRecords, fun u _ htu => ?_⟩
    have hclaim' : ClaimedBy name user t := hst.claim _ hclaim
    refine ⟨htu.claim _ hclaim', ?_⟩
    rcases ht.offered_of_claimedBy hclaim' with hnone | ⟨set, hsome, hset⟩
    · exact .inl hnone
    · refine .inr ⟨set, hsome, hset.toOffered, htu.records ?_⟩
      rw [hsome]
      simp
  refine obeys_bind hlook hs fun raw t ht halways => ?_
  obtain ⟨hclaim', hfound⟩ := halways.now ht
  rcases hfound with rfl | ⟨set, rfl, hset, hthere⟩
  · refine obeys_pure fun u _ htu => ⟨htu.claim _ hclaim', bidding.offered_empty user, ?_⟩
    exact fun hne => absurd rfl hne
  · have hfound : recordsFound (some set.encode) = .ok set := by
      rw [recordsFound, RecordSet.decode?_encode hset.addresses.foreign]
    rw [hfound]
    exact obeys_pure fun u _ htu => ⟨htu.claim _ hclaim', hset, fun _ => htu.records hthere⟩

/-- **The claimant publishes** the records of a bid, and does not fail. -/
theorem obeys_addRecords (auth : ZoneAuthority) {ips : List Ip}
    (hbid : bidding.Bids user (auth.recordsOf ips)) (hs : Contest bidding identity name s)
    (hclaim : ClaimedBy name user s) {E : GatewayError → MemoryStore → Prop} :
    (auth.addRecords name ips).Obeys (contest bidding identity name)
      (fun _ t => ClaimedBy name user t ∧ t.read (recordCell name) ≠ none) E s := by
  unfold addRecords
  refine obeys_bind (obeys_readRecords hs hclaim) hs fun set t ht halways => ?_
  obtain ⟨hclaim, hset, hthere⟩ := halways.now ht
  dsimp only
  split
  · next hchanged =>
    refine obeys_call (c := .hset name.zone.fqdn name.label _) fun u hu htu => ?_
    obtain ⟨hinv, hlater, hpublished⟩ := hu.write_records (htu.claim _ hclaim) (hset.addAll hbid)
    refine ⟨(), _, step_hset hu.takesRecords _, hinv, hlater, fun v hv huv => ?_⟩
    exact ⟨huv.claim _ (hlater.claim _ (htu.claim _ hclaim)), huv.records hpublished⟩
  · next hsame =>
    -- all records of the bid are there already, so there are some
    have hcomplete : ∀ r ∈ auth.recordsOf ips, set.contains r = true := by
      intro r hr
      have hadded : (set.addAll (auth.recordsOf ips)).2.contains r = true :=
        RecordSet.contains_addAll (.inl hr)
      rwa [RecordSet.addAll_eq_self (Bool.not_eq_true _ ▸ hsame)] at hadded
    have hpublished := hthere (Bidding.ne_empty_of_contains hbid hcomplete)
    exact obeys_pure fun u _ htu => ⟨htu.claim _ hclaim, htu.records hpublished⟩

/-- The user has claimed the name and published records. -/
def Won (name : DomainName) (user : String) (s : MemoryStore) : Prop :=
  ClaimedBy name user s ∧ s.read (recordCell name) ≠ none

theorem obeys_claimSelfManaged (auth : ZoneAuthority) {ips : List Ip}
    (hbid : bidding.Bids user (auth.recordsOf ips)) (hs : Contest bidding identity name s) :
    (auth.claimSelfManaged user name ips).Obeys (contest bidding identity name)
      (fun _ => Won name user) (TakenFrom name user) s := by
  unfold claimSelfManaged
  refine obeys_bind (obeys_claimLabel hs hbid 1) hs fun fresh t ht halways => ?_
  have hadd := obeys_addRecords auth hbid ht (halways.now ht) (E := fun _ _ => False)
  refine obeys_bind (obeys_attempt hadd ht) ht fun result u hu halways => ?_
  cases result with
  | ok done => exact obeys_pure halways
  | error e => exact absurd (halways.now hu) id

/-- **A bid** ends with the label won by its user, or taken from it. -/
theorem obeys_claim (hidentity : identity ≠ "") {recordTtl : UInt32} {domain : String} {ips : List Ip}
    (hd : DomainName.parse domain = .ok name)
    (hbid : bidding.Bids user (ZoneAuthority.recordsOf ⟨identity, recordTtl⟩ ips))
    (hs : Contest bidding identity name s) :
    (ZoneAuthority.claim ⟨identity, recordTtl⟩ user domain ips).Obeys (contest bidding identity name)
      (fun _ => Won name user) (TakenFrom name user) s := by
  have hproper := bidding.proper _ _ hbid
  have hips : ips ≠ [] := by
    rintro rfl
    exact hproper.records_ne rfl
  unfold ZoneAuthority.claim
  rw [checked_eq hproper.user_ne hd, if_neg hips]
  refine obeys_bind (obeys_control hidentity recordTtl hs) hs fun control t ht halways => ?_
  cases halways.now ht
  exact obeys_detached (obeys_claimSelfManaged ⟨identity, recordTtl⟩ hbid ht)

end Contest

/-! ## The crowd -/

namespace ZoneCall

/-- The call bids for a name: it claims it for a user, with these records. -/
def Bids (call : ZoneCall) (name : DomainName) (user : String) (records : List Record) : Prop :=
  match call with
  | claim recordTtl claimant domain ips =>
    claimant = user ∧ user ≠ "" ∧ DomainName.parse domain = .ok name ∧ ips ≠ [] ∧
      records = ips.map (Record.ofIp recordTtl)
  | delegate _ _ | revoke _ _ | release _ _ _ _ => False

/-- The call is neither about the name nor about its zone as a whole. -/
def Elsewhere (call : ZoneCall) (name : DomainName) : Prop :=
  ∀ other, DomainName.parse call.domain = .ok other →
    call.OnLabel ∧ other ≠ name ∨ call.zone other ≠ name.zone

variable {call : ZoneCall} {name other : DomainName} {c : Call}

theorem Bids.claims {user : String} {records : List Record} (h : call.Bids name user records) :
    call.Claims name user := by
  cases call with
  | claim recordTtl claimant domain ips => exact ⟨h.1, h.2.2.1⟩
  | delegate user domain | revoke user domain | release recordTtl user domain ips => exact absurd h id

theorem Claims.user_inj {user user' : String} (h : call.Claims name user) (h' : call.Claims name user') :
    user = user' := by
  cases call with
  | claim recordTtl claimant domain ips => exact h.1.symm.trans h'.1
  | delegate user domain | revoke user domain | release recordTtl user domain ips => exact absurd h id

/-- A claim that is no bid names no user or no addresses, and is refused before it looks at the store. -/
theorem Claims.refused {user : String} (h : call.Claims name user)
    (hbids : ∀ records, ¬ call.Bids name user records) (identity : String) :
    ∃ e : GatewayError, e.kind = .validation ∧ call.operation identity = throw e := by
  cases call with
  | claim recordTtl claimant domain ips =>
    obtain ⟨rfl, hd⟩ := h
    show ∃ e : GatewayError, e.kind = .validation ∧
      ZoneAuthority.claim ⟨identity, recordTtl⟩ claimant domain ips = throw e
    unfold ZoneAuthority.claim
    rcases checked_cases claimant domain _ with ⟨e, he, hkind⟩ | ⟨hu, other, -, hop⟩
    · exact ⟨e, hkind, he⟩
    · have hips : ips = [] := by
        apply Classical.byContradiction
        intro hips
        exact hbids _ ⟨rfl, hu, hd, hips, rfl⟩
      rw [hop, if_pos hips]
      exact ⟨_, rfl, rfl⟩
  | delegate user domain | revoke user domain | release recordTtl user domain ips => exact absurd h id

theorem Elsewhere.not_claims (h : call.Elsewhere name) (user : String) : ¬ call.Claims name user := by
  intro hclaims
  cases call with
  | claim recordTtl claimant domain ips =>
    rcases h name hclaims.2 with ⟨-, hne⟩ | hne
    · exact hne rfl
    · exact hne rfl
  | delegate user domain | revoke user domain | release recordTtl user domain ips =>
    exact absurd hclaims id

/-- The plain values that a call changes at all are under the names of its zone. -/
theorem key_of_writes {key : String} (h : call.Makes other c) (hw : c.Writes (.value key)) :
    ¬ call.OnLabel ∧ (key = other.zoneKey ∨ key = other.fqdn) := by
  have hlabel : ¬ call.OnLabel := by
    intro hlabel
    rcases cell_of_writes hlabel h hw with hcell | hcell <;> cases hcell
  refine ⟨hlabel, ?_⟩
  have hzone : ∀ content, c.TriesOwner other content ∨ c.Clears other →
      key = other.zoneKey ∨ key = other.fqdn := by
    rintro content (htries | hclears)
    · exact .inl (Cell.value.inj (htries.writes hw))
    · rcases hclears.writes hw with hin | hcell
      · exact absurd hin id
      · exact .inr (Cell.value.inj hcell)
  cases call with
  | delegate user domain | revoke user domain => exact hzone _ h
  | claim recordTtl user domain ips | release recordTtl user domain ips => exact absurd trivial hlabel

/-- Such a call leaves the contest for the name alone. -/
theorem Elsewhere.not_writes (h : call.Elsewhere name) (hd : DomainName.parse call.domain = .ok other)
    (hmakes : call.Makes other c) {cell : Cell}
    (hcell : cell = .value name.zone.zoneKey ∨ cell = .value managedDomains ∨
      cell = .value name.zone.fqdn ∨ cell = claimCell name ∨ cell = recordCell name) :
    ¬ c.Writes cell := by
  intro hw
  have hfar := h other hd
  have hzone : ¬ call.OnLabel → other ≠ name.zone := by
    intro hlabel heq
    have hsame : call.zone other = other := by
      cases call with
      | delegate user domain | revoke user domain => rfl
      | claim recordTtl user domain ips | release recordTtl user domain ips => exact absurd trivial hlabel
    exact hfar.elim (fun hname => hlabel hname.1) fun hne => hne (hsame.trans heq)
  have hlabel : cell.InZone name.zone → cell = claimCell name ∨ cell = recordCell name → False := by
    intro hin hname
    obtain ⟨honlabel, hne⟩ := hfar.resolve_right fun hne => hne (zone_of_writes hmakes hw hin)
    rcases cell_of_writes honlabel hmakes hw with rfl | rfl <;> rcases hname with hname | hname
    · exact recordCell_ne_claimCell other name hname
    · exact hne (recordCell_inj.1 hname)
    · exact hne (claimCell_inj.1 hname)
    · exact recordCell_ne_claimCell name other hname.symm
  rcases hcell with rfl | rfl | rfl | rfl | rfl
  · obtain ⟨honzone, hkey | hkey⟩ := key_of_writes hmakes hw
    · exact hzone honzone (DomainName.zoneKey_inj.1 hkey).symm
    · exact DomainName.fqdn_ne_zoneKey other name.zone hkey.symm
  · obtain ⟨-, hkey | hkey⟩ := key_of_writes hmakes hw
    · exact DomainName.zoneKey_ne_managedDomains other hkey.symm
    · exact DomainName.fqdn_ne_managedDomains other hkey.symm
  · obtain ⟨honzone, hkey | hkey⟩ := key_of_writes hmakes hw
    · exact DomainName.fqdn_ne_zoneKey name.zone other hkey
    · exact hzone honzone (DomainName.fqdn_inj.1 hkey).symm
  · exact hlabel (inZone_claimCell.2 rfl) (.inl rfl)
  · exact hlabel (inZone_recordCell.2 rfl) (.inr rfl)

/-- **A bystander** keeps to what the claims of the name count on. -/
theorem Elsewhere.obeys (h : call.Elsewhere name) (bidding : Bidding) (identity : String)
    (s : MemoryStore) :
    (call.operation identity).run.Obeys (contest bidding identity name) (fun _ _ => True) s := by
  cases hd : DomainName.parse call.domain with
  | error fault =>
    have honly : (call.operation identity).Only fun _ => False := by
      refine only_operation_of_invalid identity fun other hother => ?_
      rw [hd] at hother
      cases hother
    exact Program.Until.obeys honly (fun c t hc => absurd hc id) s
  | ok other =>
    have honly := only_operation identity hd
    refine Program.Until.obeys honly (fun c t hc ht => ?_) s
    obtain ⟨hinv, hlater⟩ := Contest.of_read_eq ht fun cell hcell =>
      read_step_of_not_writes (h.not_writes hd hc hcell) t
    exact ⟨hinv, hlater⟩

end ZoneCall

/-- The bids among some calls. -/
def biddingOf (calls : ι → ZoneCall) (name : DomainName) : Bidding where
  Bids := fun user records => ∃ i, (calls i).Bids name user records
  proper := by
    rintro user records ⟨i, hbid⟩
    cases hcall : calls i with
    | claim recordTtl claimant domain ips =>
      rw [hcall] at hbid
      obtain ⟨-, huser, -, hips, rfl⟩ := hbid
      refine ⟨huser, ?_, ?_⟩
      · simpa using hips
      · intro r hr
        obtain ⟨ip, -, rfl⟩ := List.mem_map.1 hr
        exact Record.isAddress_ofIp recordTtl ip
    | delegate user domain | revoke user domain | release recordTtl user domain ips =>
      rw [hcall] at hbid
      exact absurd hbid id

/-- What a call of a contest is to end with: a bid wins the label, or finds it taken, and any other claim of
it is refused. -/
structure ClaimEnds (call : ZoneCall) (name : DomainName) (result : Except GatewayError Unit)
    (s : MemoryStore) : Prop where
  bid : ∀ user records, call.Bids name user records →
    Promise (fun _ => Contest.Won name user) (Contest.TakenFrom name user) result s
  refused : ∀ user, call.Claims name user → (∀ records, ¬ call.Bids name user records) →
    ∃ e : GatewayError, e.kind = .validation ∧ result = .error e

section Calls

variable {identity user : String} {calls : ι → ZoneCall} {name : DomainName} {s : MemoryStore} {i : ι}
  {records : List Record}

theorem obeys_of_bids (hidentity : identity ≠ "") (hs : Contest (biddingOf calls name) identity name s)
    (hbid : (calls i).Bids name user records) :
    ((calls i).operation identity).run.Obeys (contest (biddingOf calls name) identity name)
      (ClaimEnds (calls i) name) s := by
  have hin : (biddingOf calls name).Bids user records := ⟨i, hbid⟩
  cases hcall : calls i with
  | claim recordTtl claimant domain ips =>
    rw [hcall] at hbid
    obtain ⟨rfl, hu, hd, hips, rfl⟩ := hbid
    have hobeys : (ZoneAuthority.claim ⟨identity, recordTtl⟩ claimant domain ips).Obeys
        (contest (biddingOf calls name) identity name) (fun _ => Contest.Won name claimant)
        (Contest.TakenFrom name claimant) s := Contest.obeys_claim hidentity hd hin hs
    refine Program.Obeys.mono hobeys fun result t hends => ⟨?_, ?_⟩
    · rintro user records ⟨rfl, -⟩
      exact hends
    · rintro user ⟨rfl, -⟩ hnone
      exact absurd ⟨rfl, hu, hd, hips, rfl⟩ (hnone _)
  | delegate user domain | revoke user domain | release recordTtl user domain ips =>
    rw [hcall] at hbid
    exact absurd hbid id

theorem obeys_of_refused (hclaims : (calls i).Claims name user)
    (hnone : ∀ records, ¬ (calls i).Bids name user records) (bidding : Bidding) :
    ((calls i).operation identity).run.Obeys (contest bidding identity name)
      (ClaimEnds (calls i) name) s := by
  obtain ⟨e, hkind, hop⟩ := hclaims.refused hnone identity
  have hrefused : ((calls i).operation identity).Obeys (contest bidding identity name)
      (fun _ _ => False) (fun e _ => e.kind = .validation) s := by
    rw [hop]
    exact obeys_throw fun _ _ _ => hkind
  refine Program.Obeys.mono hrefused fun result t hends => ⟨fun other records hbid => ?_, fun _ _ _ => ?_⟩
  · obtain rfl := hbid.claims.user_inj hclaims
    exact absurd hbid (hnone records)
  · cases result with
    | ok done => exact absurd hends id
    | error e => exact ⟨e, hends, rfl⟩

/-- Every call of a contest keeps to what the bids count on, and ends as it is to end. -/
theorem obeys_of_contest (hidentity : identity ≠ "")
    (hcalls : ∀ i, (∃ user, (calls i).Claims name user) ∨ (calls i).Elsewhere name)
    (hs : Contest (biddingOf calls name) identity name s) (i : ι) :
    ((calls i).operation identity).run.Obeys (contest (biddingOf calls name) identity name)
      (ClaimEnds (calls i) name) s := by
  rcases hcalls i with ⟨user, hclaims⟩ | hfar
  · by_cases hbids : ∃ records, (calls i).Bids name user records
    · obtain ⟨records, hbid⟩ := hbids
      exact obeys_of_bids hidentity hs hbid
    · exact obeys_of_refused hclaims (fun records hbid => hbids ⟨records, hbid⟩) _
  · refine (hfar.obeys (biddingOf calls name) identity s).mono fun result t _ =>
      ⟨fun user records hbid => ?_, fun user hclaims => ?_⟩
    · exact absurd hbid.claims (hfar.not_claims user)
    · exact absurd hclaims (hfar.not_claims user)

end Calls

section Run

variable [DecidableEq ι]

/-- How the contest for a label ends: one user has won it. -/
structure WonBy (calls : ι → ZoneCall) (name : DomainName) (final : Crowd ι (Except GatewayError Unit))
    (winner : String) : Prop where
  bid : ∃ i records, (calls i).Bids name winner records
  winners : ∀ i records, (calls i).Bids name winner records →
    (final.rest i).result? = some (.ok ())
  losers : ∀ i user records, (calls i).Bids name user records → user ≠ winner →
    (final.rest i).result? = some (.error (labelTaken name))
  /-- Claims without a user or addresses bid for nothing. -/
  refused : ∀ i user, (calls i).Claims name user → (∀ records, ¬ (calls i).Bids name user records) →
    ∃ e : GatewayError, e.kind = .validation ∧ (final.rest i).result? = some (.error e)
  claimant : final.store.labelClaimant name = some winner
  /-- The records are of addresses that the winner's bids have brought, and among them all that one of the
  bids has brought. -/
  records : ∃ set, final.store.labelRecords name = some set ∧
    (biddingOf calls name).Published winner set

omit [DecidableEq ι] in
/-- When all claims have ended as they are to, the user who has claimed the name has won it. -/
theorem exists_wonBy {identity : String} {calls : ι → ZoneCall} {name : DomainName}
    {final : Crowd ι (Except GatewayError Unit)}
    (hinv : Contest (biddingOf calls name) identity name final.store)
    (hbid : ∃ i user records, (calls i).Bids name user records)
    (hends : ∀ i user, (calls i).Claims name user → ∃ result,
      (final.rest i).result? = some result ∧ ClaimEnds (calls i) name result final.store) :
    ∃ winner, WonBy calls name final winner := by
  have hbids : ∀ i user records, (calls i).Bids name user records → ∃ result,
      (final.rest i).result? = some result ∧
        Promise (fun _ => Contest.Won name user) (Contest.TakenFrom name user) result final.store := by
    intro i user records hi
    obtain ⟨result, hresult, hend⟩ := hends i user hi.claims
    exact ⟨result, hresult, hend.bid user records hi⟩
  have hclaimed : final.store.read (claimCell name) ≠ none := by
    obtain ⟨i, user, records, hi⟩ := hbid
    obtain ⟨result, -, hresult⟩ := hbids i user records hi
    cases result with
    | ok done =>
      have hwon : Contest.Won name user final.store := hresult
      rw [hwon.1]
      simp
    | error e =>
      obtain ⟨-, winner, -, hwon⟩ : Contest.TakenFrom name user e final.store := hresult
      rw [hwon]
      simp
  obtain ⟨winner, -, hclaim, records, i, hi⟩ := hinv.exists_claimedBy hclaimed
  have hwins : ∀ j bid, (calls j).Bids name winner bid →
      (final.rest j).result? = some (.ok ()) ∧ final.store.read (recordCell name) ≠ none := by
    intro j bid hj
    obtain ⟨result, hresult, hpromise⟩ := hbids j winner bid hj
    cases result with
    | ok done =>
      have hwon : Contest.Won name winner final.store := hpromise
      exact ⟨hresult, hwon.2⟩
    | error e =>
      obtain ⟨-, other, hne, hother⟩ : Contest.TakenFrom name winner e final.store := hpromise
      exact absurd (Contest.claimedBy_inj hother hclaim) hne
  refine ⟨winner, ⟨i, records, hi⟩, fun j bid hj => (hwins j bid hj).1, ?_, ?_, ?_, ?_⟩
  · intro j user bid hj hne
    obtain ⟨result, hresult, hpromise⟩ := hbids j user bid hj
    cases result with
    | ok done =>
      have hwon : Contest.Won name user final.store := hpromise
      exact absurd (Contest.claimedBy_inj hwon.1 hclaim) hne
    | error e =>
      obtain ⟨rfl, -⟩ : Contest.TakenFrom name user e final.store := hpromise
      exact hresult
  · intro j user hj hnone
    obtain ⟨result, hresult, hend⟩ := hends j user hj
    obtain ⟨e, hkind, rfl⟩ := hend.refused user hj hnone
    exact ⟨e, hkind, hresult⟩
  · exact labelClaimant_of_read hclaim
  · obtain ⟨set, hread, hset⟩ := (hinv.offered_of_claimedBy hclaim).resolve_left (hwins i records hi).2
    exact ⟨set, (labelRecords_of_read hread).trans (RecordSet.decode?_encode hset.addresses.foreign), hset⟩

/-- **A free label has one winner.** However the claims of a free label of the gateway overlap, with each
other and with calls on other names: once all of them have ended, one user has won the label, if anybody has
bid for it. -/
theorem free_label_has_one_winner {identity : String} (hidentity : identity ≠ "") {calls : ι → ZoneCall}
    {name : DomainName} {s : MemoryStore}
    (hcalls : ∀ i, (∃ user, (calls i).Claims name user) ∨ (calls i).Elsewhere name)
    (howner : s.ownerOf name.zone = some identity) (hclaims : s.TakesFields managedDomains)
    (hrecords : s.TakesFields name.zone.fqdn) (hfree : s.read (claimCell name) = none)
    (hempty : s.read (recordCell name) = none) (schedule : Nat → ι) (n : Nat)
    (hbid : ∃ i user records, (calls i).Bids name user records)
    (hended : ∀ i user, (calls i).Claims name user →
      (((zoneCrowd identity calls s).trace schedule n).rest i).result? ≠ none) :
    ∃ winner, WonBy calls name ((zoneCrowd identity calls s).trace schedule n) winner := by
  have hstart : Contest (biddingOf calls name) identity name s :=
    ⟨howner, hclaims, hrecords, .free hfree hempty⟩
  have hobey : ∀ i, ((zoneCrowd identity calls s).rest i).Obeys
      (contest (biddingOf calls name) identity name) (ClaimEnds (calls i) name) s :=
    obeys_of_contest hidentity hcalls hstart
  obtain ⟨hinv, hall⟩ := Crowd.obeys_trace hstart hobey schedule n
  refine exists_wonBy hinv hbid fun i user hi => ?_
  obtain ⟨result, hresult⟩ := Option.ne_none_iff_exists'.1 (hended i user hi)
  exact ⟨result, hresult, (hall i).result hinv hresult⟩

end Run

/-- Two claims of one user, and one of another user in between. -/
def contestCalls : Fin 3 → ZoneCall
  | 0 => .claim 300 "alice" DomainName.sample.text [.v4 ⟨10, 0, 0, 1⟩]
  | 1 => .claim 300 "bob" DomainName.sample.text [.v4 ⟨10, 0, 0, 2⟩]
  | 2 => .claim 60 "alice" DomainName.sample.text [.v4 ⟨10, 0, 0, 3⟩]

/-- They take turns until all of them have ended. -/
theorem free_label_has_one_winner_in_turns :
    let crowd := zoneCrowd "gateway" contestCalls (gatewayZone "gateway" DomainName.sample.zone)
    ∃ winner, WonBy contestCalls .sample (crowd.trace (Fin.ofNat 3) 24) winner := by
  intro crowd
  have hbids : ∀ i, ∃ user records, (contestCalls i).Bids .sample user records := by
    intro i
    match i with
    | 0 => exact ⟨"alice", _, rfl, by decide, DomainName.parse_text .sample, by decide, rfl⟩
    | 1 => exact ⟨"bob", _, rfl, by decide, DomainName.parse_text .sample, by decide, rfl⟩
    | 2 => exact ⟨"alice", _, rfl, by decide, DomainName.parse_text .sample, by decide, rfl⟩
  have howner : (gatewayZone "gateway" DomainName.sample.zone).ownerOf DomainName.sample.zone =
      some "gateway" := by decide +kernel
  have hread : ∀ cell ∈ [Cell.value managedDomains, .value DomainName.sample.zone.fqdn,
      claimCell .sample, recordCell .sample],
      (gatewayZone "gateway" DomainName.sample.zone).read cell = none := by decide +kernel
  have hended : ∀ i, ((crowd.trace (Fin.ofNat 3) 24).rest i).result?.isSome = true := by
    subst crowd
    decide +kernel
  have hclaims : ∀ i, ∃ user, (contestCalls i).Claims .sample user := by
    intro i
    obtain ⟨user, records, hbid⟩ := hbids i
    exact ⟨user, hbid.claims⟩
  refine free_label_has_one_winner (by decide) (fun i => .inl (hclaims i)) howner (hread _ (by simp))
    (hread _ (by simp)) (hread _ (by simp)) (hread _ (by simp)) (Fin.ofNat 3) 24 ⟨0, hbids 0⟩ ?_
  intro i user _ hnone
  have hsome := hended i
  rw [hnone] at hsome
  cases hsome

end GatewayControl
