import GatewayControl.Proofs.Authority.OwnerLinear
import GatewayControl.Proofs.Operation.Interruption

/-!
# `GatewayControl.Proofs.Authority.OwnerRetry` -- repeating an interrupted delegation or revocation

A delegation or a revocation replaces the owner record first and clears the zone afterwards. Where it
is interrupted in between, the owner record already says what it is to say, and a repetition that finds
it so has nothing to decide and ends in its first read. `retry_of_interrupted` follows from there: the
repetition always succeeds and the owner record is right, but what the first attempt has left in the
zone stays. The repetition makes up for the interruption only if nothing was replaced yet, or nothing is
left to be cleared (`not_completedByRetrying`).
-/

namespace GatewayControl

open Operation MemoryStore

variable {zone : DomainName} {s t f : MemoryStore} {call : ZoneCall}

/-! ## Zones that are cleared in part -/

/-- The second store lacks some of the contents of the zone, and is the first one otherwise. -/
def PartlyCleared (zone : DomainName) (s t : MemoryStore) : Prop :=
  ∀ cell : Cell, t.read cell = s.read cell ∨ cell.InZone zone ∧ t.read cell = none

theorem PartlyCleared.read_of_not_inZone (h : PartlyCleared zone s t) {cell : Cell}
    (hcell : ¬ cell.InZone zone) : t.read cell = s.read cell :=
  (h cell).resolve_right fun hin => hcell hin.1

/-- What is left once the zone is empty is what clearing it would have left. -/
theorem PartlyCleared.eq_of_cleared (h : PartlyCleared zone s t) (hf : Cleared zone s f)
    (hempty : ∀ cell : Cell, cell.InZone zone → t.read cell = none) : t = f := by
  refine ext_read fun cell => ?_
  rw [hf cell]
  by_cases hcell : cell.InZone zone
  · rw [if_pos hcell]
    exact hempty cell hcell
  · rw [if_neg hcell]
    exact h.read_of_not_inZone hcell

namespace ZoneAuthority

/-- Each call of the clearing removes contents of the zone, or nothing. -/
theorem passes_clearZone (hz : s.TakesFields zone.fqdn) :
    (clearZone zone).Passes (PartlyCleared zone s) s := by
  refine passes_of_only (only_clearZone zone) (fun c t hclears ht cell => ?_) fun cell => .inl rfl
  by_cases hunwritten : ¬ c.Writes cell
  · rw [read_step_of_not_writes hunwritten]
    exact ht cell
  rcases hclears.read_step t cell with hsame | hgone
  · rw [hsame]
    exact ht cell
  rcases hclears.writes (Classical.not_not.1 hunwritten) with hin | hvalue
  · exact .inr ⟨hin, hgone⟩
  · -- the name of the hash has no plain value that could be lost
    have hnone : s.read (.value zone.fqdn) = none := hz
    left
    rw [hgone, hvalue, hnone]

theorem failsFast_clearZone (zone : DomainName) : (clearZone zone).FailsFast := by
  have hclaims : ∀ texts, (clearClaims zone texts).FailsFast := by
    intro texts
    induction texts with
    | nil => exact failsFast_pure ()
    | cons text texts ih =>
      rw [clearClaims_cons]
      split
      · exact failsFast_bind (failsFast_discard (failsFast_call (.hdel managedDomains text)))
          fun _ => ih
      · exact ih
  unfold clearZone
  refine failsFast_bind (failsFast_call (.hkeys zone.fqdn)) fun _ => ?_
  refine failsFast_bind (failsFast_call (.delete zone.fqdn)) fun _ => ?_
  exact failsFast_bind (failsFast_call (.hkeys managedDomains)) hclaims

/-- **What an interruption leaves.** The store is as it was, or the owner record is replaced and the
zone cleared in part. -/
theorem interrupted_cases {verdict : Option Bytes → Verdict Unit}
    (hfull : alone (swapRounds zone.zoneKey verdict (clearZone zone) claimAttempts) s = (.ok (), f))
    (hcut : (swapRounds zone.zoneKey verdict (clearZone zone) claimAttempts).Interrupted s t) :
    s.TakesValue zone.zoneKey ∧ (t = s ∨ ∃ content,
      verdict (s.read (.value zone.zoneKey)) = .replace content ∧
      Cleared zone (s.write (.value zone.zoneKey) content) f ∧
      PartlyCleared zone (s.write (.value zone.zoneKey) content) t) := by
  have ht : s.TakesValue zone.zoneKey := by
    apply Classical.byContradiction
    intro ht
    rw [claimAttempts, alone_swapRounds_refused ht] at hfull
    cases hfull
  rw [claimAttempts, alone_swapRounds ht] at hfull
  refine ⟨ht, ?_⟩
  let Left (t : MemoryStore) : Prop := t = s ∨ ∃ content,
    verdict (s.read (.value zone.zoneKey)) = .replace content ∧
    Cleared zone (s.write (.value zone.zoneKey) content) f ∧
    PartlyCleared zone (s.write (.value zone.zoneKey) content) t
  have hpasses : (swapRounds zone.zoneKey verdict (clearZone zone) claimAttempts).Passes Left s := by
    refine passes_swapRounds ht (.inl rfl) (fun content hverdict => ?_) 2
    rw [hverdict] at hfull
    obtain ⟨hz, hcleared⟩ := cleared_of_alone_ok hfull
    exact (passes_clearZone hz).mono fun u hu => .inr ⟨content, hverdict, hcleared, hu⟩
  exact hcut.of_passes hpasses (failsFast_swapRounds (failsFast_clearZone zone) claimAttempts)

end ZoneAuthority

/-! ## The repetition -/

/-- What a repetition makes of the store `t` that an interruption has left, where the attempt started
from `s` and would have ended in `f`. -/
structure Repeated (zone : DomainName) (s t f u : MemoryStore) : Prop where
  /-- Where the attempt has changed anything, the repetition changes nothing. -/
  idle : t ≠ s → u = t
  /-- The owner record and everything else outside of the zone are as they should be. -/
  outside : ∀ cell : Cell, ¬ cell.InZone zone → u.read cell = f.read cell
  /-- The contents of the zone are as they should be, or still there. -/
  inside : ∀ cell : Cell, cell.InZone zone → u.read cell = f.read cell ∨ u.read cell = s.read cell
  /-- The repetition makes up for the interruption if the attempt has changed nothing, or has done it
  all. -/
  complete : u = f ↔ t = s ∨ ∀ cell : Cell, cell.InZone zone → t.read cell = none

/-- **Repeating an interrupted delegation or revocation** that would have succeeded succeeds. But if the
attempt has changed anything, the repetition changes nothing: all that the attempt did not get to is
still in the zone. -/
theorem retry_of_interrupted (identity : String) (h : call.ChangesOwner zone)
    (hfull : alone (call.operation identity) s = (.ok (), f))
    (hcut : (call.operation identity).Interrupted s t) :
    ∃ u, alone (call.operation identity) t = (.ok (), u) ∧ Repeated zone s t f u := by
  rcases ZoneCall.operation_of_changesOwner identity h with ⟨e, hop, -⟩ | ⟨verdict, hop, hdecides⟩
  · rw [hop] at hfull
    cases hfull
  rw [hop] at hfull hcut ⊢
  obtain ⟨hs, rfl | ⟨content, hverdict, hcleared, hpartly⟩⟩ :=
    ZoneAuthority.interrupted_cases hfull hcut
  · -- nothing has happened yet
    refine ⟨f, hfull, fun hne => absurd rfl hne, fun _ _ => rfl, fun _ _ => .inl rfl, ?_⟩
    exact ⟨fun _ => .inl rfl, fun _ => rfl⟩
  have hwrite : ∀ cell : Cell, (s.write (.value zone.zoneKey) content).read cell =
      if cell = .value zone.zoneKey then content else s.read cell := by
    have htakes : s.Takes (.value zone.zoneKey) := hs
    exact read_write _ htakes content
  have howner : t.read (.value zone.zoneKey) = content := by
    rw [hpartly.read_of_not_inZone id, hwrite, if_pos rfl]
  have ht : t.TakesValue zone.zoneKey := by
    intro field
    rcases hpartly (.field zone.zoneKey field) with hsame | ⟨-, hnone⟩
    · rw [hsame, hwrite, if_neg (fun heq => by cases heq)]
      exact hs field
    · exact hnone
  have hsettled := hdecides.settles _ _ hverdict
  refine ⟨t, ?_, fun _ => rfl, ?_, ?_, ?_⟩
  · -- the record is found as it is to be
    rw [claimAttempts, alone_swapRounds ht, howner, hsettled]
  · intro cell hcell
    rw [hpartly.read_of_not_inZone hcell, hcleared cell, if_neg hcell]
  · intro cell hcell
    rcases hpartly cell with hsame | ⟨-, hnone⟩
    · right
      rw [hsame, hwrite, if_neg]
      rintro rfl
      exact hcell
    · left
      rw [hnone, hcleared cell, if_pos hcell]
  · constructor
    · rintro rfl
      exact .inr fun cell hcell => by rw [hcleared cell, if_pos hcell]
    · rintro (rfl | hempty)
      · rw [howner, hsettled] at hverdict
        cases hverdict
      · exact hpartly.eq_of_cleared hcleared hempty

/-! ## Remains of an interruption -/

/-- The zone `example.com` of a user, with one name in it. -/
def publishedStore : MemoryStore :=
  let delegated := (alone (ZoneAuthority.delegate "alice" "example.com") MemoryStore.empty).2
  (alone (ZoneAuthority.claim ⟨"gateway", 3600⟩ "alice" "app.example.com" [.v4 ⟨10, 0, 0, 1⟩])
    delegated).2

/-- What is left when the owner record is replaced and the first call fails that would have cleared the
zone. -/
def interruptedStore (call : ZoneCall) (s : MemoryStore) : MemoryStore :=
  ((call.operation "gateway").run.failAt (.task "down") 2 s).2

/-- The user's revocation is interrupted, and so is the delegation to another user, who repeats it: the
new owner has the records of the old one. -/
theorem retry_of_interrupted_delegation :
    let call : ZoneCall := .delegate "bob" "example.com"
    let s := interruptedStore (.revoke "alice" "example.com") publishedStore
    let t := interruptedStore call s
    s.read (recordCell .sample) ≠ none ∧
    ∃ u, alone (call.operation "gateway") t = (.ok (), u) ∧
      u.ownerOf DomainName.sample.zone = some "bob" ∧
      u.read (recordCell .sample) = s.read (recordCell .sample) := by
  intro call s t
  have hfull : alone (call.operation "gateway") s = (.ok (), (alone (call.operation "gateway") s).2) :=
    Prod.ext (by decide +kernel) rfl
  have hcut : (call.operation "gateway").Interrupted s t :=
    .failed (.task "down") 2 (Prod.ext (by decide +kernel) rfl)
  have huses : call.ChangesOwner DomainName.sample.zone := DomainName.parse_sample_zone
  obtain ⟨u, hretry, hrepeated⟩ := retry_of_interrupted "gateway" huses hfull hcut
  have howner : t.ownerOf DomainName.sample.zone = some "bob" := by decide +kernel
  have hfree : s.ownerOf DomainName.sample.zone = some "" := by decide +kernel
  have hchanged : t ≠ s := by
    intro heq
    rw [heq, hfree] at howner
    exact absurd howner (by decide)
  rw [hrepeated.idle hchanged] at hretry
  exact ⟨by decide +kernel, t, hretry, howner, by decide +kernel⟩

/-- Interrupted delegations and revocations are completed by repeating them: the store is then the one
that they would have left without the interruption. -/
def CompletedByRetrying (identity : String) : Prop :=
  ∀ (call : ZoneCall) (zone : DomainName) (s t f u : MemoryStore), call.ChangesOwner zone →
    alone (call.operation identity) s = (.ok (), f) → (call.operation identity).Interrupted s t →
    alone (call.operation identity) t = (.ok (), u) → u = f

/-- The record of the name outlives a revocation whose repetition says that all is well. -/
theorem not_completedByRetrying : ¬ CompletedByRetrying "gateway" := by
  intro hclaim
  let call : ZoneCall := .revoke "alice" "example.com"
  let op := call.operation "gateway"
  let left := interruptedStore call publishedStore
  have hfull : alone op publishedStore = (.ok (), (alone op publishedStore).2) :=
    Prod.ext (by decide +kernel) rfl
  have hcut : op.Interrupted publishedStore left :=
    .failed (.task "down") 2 (Prod.ext (by decide +kernel) rfl)
  have hretry : alone op left = (.ok (), (alone op left).2) := Prod.ext (by decide +kernel) rfl
  have hsame := hclaim call DomainName.sample.zone _ _ _ _ DomainName.parse_sample_zone hfull hcut hretry
  have hrecord : (alone op left).2.read (recordCell .sample) ≠
      (alone op publishedStore).2.read (recordCell .sample) := by
    decide +kernel
  exact hrecord (congrArg (read (recordCell .sample)) hsame)

end GatewayControl
