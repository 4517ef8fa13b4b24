import GatewayControl.Proofs.Authority.NameRetry

/-!
# `GatewayControl.Proofs.Authority.ReleaseUndo` -- a release takes back a claim

A claim may write the claim of a label, append addresses, refresh times to live or write nothing, and a
release may rewrite the records, remove them or free the label. Both come down to one claim and one record
set of the name (`alone_claim_withLabel`, `alone_release_withLabel`), and what is released is the data
of the addresses: it need not have been there with this time to live, and need not have been added first
(`removeAll_addAll_recordsOf`). So after a claim a release leaves the store that it would have left before
it (`release_undoes_claim`).
-/

namespace GatewayControl

open Operation MemoryStore

variable {identity user domain : String} {s t : MemoryStore} {name : DomainName} {owner : String}
  {set : RecordSet} {ips : List Ip}

/-- The address is published under the name, with some time to live. -/
def MemoryStore.Publishes (name : DomainName) (ip : Ip) (s : MemoryStore) : Prop :=
  ∃ set ttl, s.labelRecords name = some set ∧ Record.ofIp ttl ip ∈ set.toList

/-- What a name does not publish, its records do not hold under any time to live. -/
theorem MemoryStore.contains_eq_false_of_not_publishes {ip : Ip} (h : ¬ s.Publishes name ip)
    (hset : s.labelRecords name = some set) (ttl : UInt32) :
    set.contains (Record.ofIp ttl ip) = false := by
  refine Bool.eq_false_iff.2 fun hcontains => h ?_
  obtain ⟨r, hr, hsame⟩ := List.any_eq_true.1 hcontains
  have hrecord : r = Record.ofIp r.ttl ip := Record.eq_ofIp_of_sameData hsame
  refine ⟨set, r.ttl, hset, List.mem_flatMap.2 ⟨_, ?_, hrecord ▸ hr⟩⟩
  cases (Record.ofIp ttl ip).type <;> decide

/-- Two changes of one label come to the last. -/
theorem MemoryStore.Serves.withLabel_withLabel (h : s.Serves name owner) {claim claim' : Option Bytes}
    {set' : RecordSet} :
    (s.withLabel name claim set).withLabel name claim' set' = s.withLabel name claim' set' := by
  refine ext_read fun cell => ?_
  rw [(h.withLabel claim set).read_withLabel, h.read_withLabel, h.read_withLabel]
  grind

theorem RecordSet.IsAddressSet.labelRecords_eq (h : set.IsAddressSet)
    (hread : s.read (recordCell name) = set.stored) : s.labelRecords name = some set := by
  unfold labelRecords
  rw [hread, RecordSet.stored]
  cases hempty : set.isEmpty with
  | true => rw [h.eq_empty hempty, if_pos rfl]
  | false => exact RecordSet.decode?_encode h.foreign

namespace ZoneAuthority

variable {auth : ZoneAuthority}

/-- Withdrawing addresses that a name does not publish leaves its records as they are. -/
theorem removeAll_of_not_publishes (hset : set.IsAddressSet)
    (hread : s.read (recordCell name) = set.stored) (hnew : ∀ ip ∈ ips, ¬ s.Publishes name ip) :
    (set.removeAll (auth.recordsOf ips)).2 = set := by
  have hkept : set.removeAll (auth.recordsOf ips) = (false, set) := by
    refine RecordSet.removeAll_of_not_contains fun r hr => ?_
    obtain ⟨ip, hip, rfl⟩ := List.mem_map.1 hr
    exact contains_eq_false_of_not_publishes (hnew ip hip) (hset.labelRecords_eq hread) _
  rw [hkept]

/-- **A claim run alone** by a user who may change the label. -/
theorem alone_claim_withLabel (hserves : s.Serves name owner) (hu : user ≠ "")
    (hd : DomainName.parse domain = .ok name) (hips : ips ≠ []) (hne : owner ≠ "")
    (hmay : MayChange auth.identity user name owner s) (hset : set.IsAddressSet)
    (hread : s.read (recordCell name) = set.stored) :
    alone (auth.claim user domain ips) s =
      (.ok (), s.withLabel name (auth.claimAfter owner user (s.read (claimCell name)))
        (set.addAll (auth.recordsOf ips)).2) := by
  have hstart : AmongLabels s name (auth.LeftByClaim owner user ips (s.read (claimCell name)) set) s :=
    ⟨_, _, .inl ⟨rfl, rfl⟩, (hserves.withLabel_self rfl hread).symm⟩
  refine Converges.alone (V := AmongLabels s name _) ?_ hstart
  rintro F t ⟨claim, x, hleft, rfl⟩
  exact endures_claim_left hserves hu hd hips hne hmay hset hleft F

/-- **A release run alone** by a user who may change the label. -/
theorem alone_release_withLabel (hserves : s.Serves name owner) (hu : user ≠ "")
    (hd : DomainName.parse domain = .ok name) (hne : owner ≠ "")
    (hmay : MayChange auth.identity user name owner s) (hset : set.IsAddressSet)
    (hread : s.read (recordCell name) = set.stored) :
    alone (auth.release user domain ips) s =
      (.ok (), s.withLabel name
        (auth.claimKept owner (set.removeAll (auth.recordsOf ips)).2 (s.read (claimCell name)))
        (set.removeAll (auth.recordsOf ips)).2) := by
  have hstart : AmongLabels s name (auth.LeftByRelease owner ips (s.read (claimCell name)) set) s :=
    ⟨_, _, .inl ⟨rfl, .inl rfl⟩, (hserves.withLabel_self rfl hread).symm⟩
  refine Converges.alone (V := AmongLabels s name _) ?_ hstart
  rintro F t ⟨claim, x, hleft, rfl⟩
  exact endures_release_left hserves hu hd hne hmay hset hleft F

/-- In a store whose labels are in order, a label keeps its claim through a claim and a release by the
user if it would have kept it through the release. -/
theorem claimKept_claimAfter (h : LabelsInOrder auth.identity s) (hserves : s.Serves name owner)
    (hmay : MayChange auth.identity user name owner s) (hset : set.IsAddressSet)
    (hread : s.read (recordCell name) = set.stored) (records : List Record) :
    auth.claimKept owner (set.removeAll records).2
        (auth.claimAfter owner user (s.read (claimCell name))) =
      auth.claimKept owner (set.removeAll records).2 (s.read (claimCell name)) := by
  unfold claimKept claimAfter
  by_cases hi : owner = auth.identity
  · by_cases hempty : (set.removeAll records).2.isEmpty = true
    · rw [if_pos ⟨hi, hempty⟩, if_pos ⟨hi, hempty⟩]
    · -- records that stay were there before, so the claim was the user's
      have hstored : set.stored ≠ none := by
        unfold RecordSet.stored
        split
        · next hnone =>
          rw [hset.eq_empty hnone, RecordSet.removeAll_empty] at hempty
          exact absurd rfl hempty
        · exact Option.some_ne_none _
      obtain ⟨other, -, hclaim⟩ := claimant_of_stored h (hi ▸ hserves.ownerOf) hread hstored
      have hmine := (hmay.claimant hi).resolve_left (by rw [hclaim]; exact Option.some_ne_none _)
      rw [if_pos hi, hmine]
  · rw [if_neg hi]

/-- A label that keeps its records keeps its claim. -/
theorem withLabel_claimKept_self (h : LabelsInOrder auth.identity s) (hserves : s.Serves name owner)
    (hread : s.read (recordCell name) = set.stored) :
    s.withLabel name (auth.claimKept owner set (s.read (claimCell name))) set = s := by
  refine hserves.withLabel_self ?_ hread
  unfold claimKept
  split
  · next hnone =>
    have hrecords : s.read (recordCell name) = none := by rw [hread, RecordSet.stored, if_pos hnone.2]
    exact Classical.byContradiction fun hclaim => ((h.claimed name).1 hclaim).2 hrecords
  · rfl

/-- The user may change the label after a claim as before. -/
theorem mayChange_claimAfter (hserves : s.Serves name owner)
    (hmay : MayChange auth.identity user name owner s) :
    MayChange auth.identity user name owner
      (s.withLabel name (auth.claimAfter owner user (s.read (claimCell name))) set) where
  claimant := fun hi => by
    rw [hserves.read_claimCell]
    exact .inr (if_pos hi)
  owned := hmay.owned

/-- **A release comes to the same** after a claim as without it. -/
theorem alone_release_claimed (h : LabelsInOrder auth.identity s) (hserves : s.Serves name owner)
    (hu : user ≠ "") (hd : DomainName.parse domain = .ok name) (hne : owner ≠ "")
    (hmay : MayChange auth.identity user name owner s) (hset : set.IsAddressSet)
    (hread : s.read (recordCell name) = set.stored) :
    alone (auth.release user domain ips) (s.withLabel name
        (auth.claimAfter owner user (s.read (claimCell name))) (set.addAll (auth.recordsOf ips)).2) =
      alone (auth.release user domain ips) s := by
  have hadded : (set.addAll (auth.recordsOf ips)).2.IsAddressSet :=
    hset.addAll fun r hr => isAddress_of_mem_recordsOf hr
  rw [alone_release_withLabel (hserves.withLabel _ _) hu hd hne (mayChange_claimAfter hserves hmay) hadded
      hserves.read_recordCell,
    alone_release_withLabel hserves hu hd hne hmay hset hread, hserves.read_claimCell,
    hserves.withLabel_withLabel, removeAll_addAll_recordsOf,
    claimKept_claimAfter h hserves hmay hset hread]

/-! ## Requests that differ in spelling -/

/-- Requests that spell the addresses in other forms are the same requests. -/
theorem claim_congr (auth : ZoneAuthority) (user domain : String) {spelled : List Ip}
    (h : spelled.map Ip.canonical = ips.map Ip.canonical) :
    auth.claim user domain spelled = auth.claim user domain ips := by
  have hempty : spelled = [] ↔ ips = [] := by
    rw [← List.map_eq_nil_iff (f := Ip.canonical), h, List.map_eq_nil_iff]
  unfold claim claimSelfManaged addRecords
  simp only [recordsOf_congr auth h, hempty]

theorem release_congr (auth : ZoneAuthority) (user domain : String) {spelled : List Ip}
    (h : spelled.map Ip.canonical = ips.map Ip.canonical) :
    auth.release user domain spelled = auth.release user domain ips := by
  unfold release withdraw
  simp only [recordsOf_congr auth h]

/-- The time to live of the instance that carries a release out does not matter. -/
theorem release_ttl (identity : String) (ttl ttl' : UInt32) (user domain : String) (ips : List Ip) :
    release ⟨identity, ttl⟩ user domain ips = release ⟨identity, ttl'⟩ user domain ips := by
  have hremove : ∀ set : RecordSet, set.removeAll (recordsOf ⟨identity, ttl⟩ ips) =
      set.removeAll (recordsOf ⟨identity, ttl'⟩ ips) := fun set => removeAll_recordsOf _ _ set ips
  unfold release withdraw
  simp only [hremove]
  rfl

/-- **A release undoes a claim.** After a claim that succeeded, the release of the same addresses succeeds,
and leaves the store that it would have left without the claim; if the name published none of them
before, that is the store before the claim. The instances that carry the calls out may have any times
to live, and may be told IPv4 addresses in either form. -/
theorem release_undoes_claim (identity : String) (calls : List ZoneCall) (claimTtl : UInt32)
    (hclaim : alone (claim ⟨identity, claimTtl⟩ user domain ips) (runCalls identity calls .empty) =
      (.ok (), t)) :
    let s := runCalls identity calls .empty
    (∃ u, (∀ releaseTtl, alone (release ⟨identity, releaseTtl⟩ user domain ips) t = (.ok (), u)) ∧
      (∀ releaseTtl, alone (release ⟨identity, releaseTtl⟩ user domain ips) s = (.ok (), u)) ∧
      ∀ name, DomainName.parse domain = .ok name → (∀ ip ∈ ips, ¬ s.Publishes name ip) → u = s) ∧
    ∀ spelled : List Ip, spelled.map Ip.canonical = ips.map Ip.canonical → ∀ auth : ZoneAuthority,
      auth.claim user domain spelled = auth.claim user domain ips ∧
      auth.release user domain spelled = auth.release user domain ips := by
  intro s
  refine ⟨?_, fun spelled h auth => ⟨claim_congr auth user domain h, release_congr auth user domain h⟩⟩
  let auth : ZoneAuthority := ⟨identity, claimTtl⟩
  have horder : LabelsInOrder auth.identity s :=
    SameButRoutes.labelsInOrder (fun _ _ => rfl) (coherent_run identity calls)
  obtain ⟨hu, name, hd, hips⟩ := proper_of_claim hclaim
  obtain ⟨owner, hne, hserves, hmay⟩ := mayChange_of_claim horder hu hd hips hclaim
  obtain ⟨set, hset, hread⟩ := horder.records name
  obtain rfl : t = _ := (Prod.mk.inj
    (hclaim.symm.trans (alone_claim_withLabel hserves hu hd hips hne hmay hset hread))).2
  have hdirect : alone (auth.release user domain ips) s = _ :=
    alone_release_withLabel hserves hu hd hne hmay hset hread
  let kept := (set.removeAll (auth.recordsOf ips)).2
  refine ⟨s.withLabel name (auth.claimKept owner kept (s.read (claimCell name))) kept,
    fun ttl => ?_, fun ttl => ?_, fun name' hd' hnew => ?_⟩
  · rw [release_ttl identity ttl claimTtl, ← hdirect]
    exact alone_release_claimed horder hserves hu hd hne hmay hset hread
  · rw [release_ttl identity ttl claimTtl]
    exact hdirect
  · rw [hd, Except.ok.injEq] at hd'
    subst hd'
    have hkept : kept = set := removeAll_of_not_publishes hset hread hnew
    rw [hkept]
    exact withLabel_claimKept_self horder hserves hread

/-- One of the two addresses is published already, with another time to live and in its other form. -/
theorem release_undoes_claim_at_new_ttl :
    let s := runCalls "gateway" [.delegate "gateway" "example.com",
      .claim 3600 "alice" "app.example.com" [.v4 ⟨10, 0, 0, 1⟩]] .empty
    let ips : List Ip := [.v6 (Ipv4.mapped ⟨10, 0, 0, 1⟩), .v4 ⟨10, 0, 0, 2⟩]
    let t := (alone (claim ⟨"gateway", 60⟩ "alice" "app.example.com" ips) s).2
    alone (claim ⟨"gateway", 60⟩ "alice" "app.example.com" ips) s = (.ok (), t) ∧
      s.labelClaimant .sample = some "alice" ∧
      ∃ u, alone (release ⟨"gateway", 60⟩ "alice" "app.example.com" ips) t = (.ok (), u) ∧
        alone (release ⟨"gateway", 60⟩ "alice" "app.example.com" ips) s = (.ok (), u) := by
  intro s ips t
  have hclaim : alone (claim ⟨"gateway", 60⟩ "alice" "app.example.com" ips) s = (.ok (), t) :=
    Prod.ext (by decide +kernel) rfl
  obtain ⟨u, hafter, hdirect, -⟩ := (release_undoes_claim "gateway" _ 60 hclaim).1
  exact ⟨hclaim, by decide +kernel, u, hafter 60, hdirect 60⟩

end ZoneAuthority
end GatewayControl
