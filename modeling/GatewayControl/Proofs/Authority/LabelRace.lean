import GatewayControl.Proofs.Authority.ZoneTree

/-!
# `GatewayControl.Proofs.Authority.LabelRace` -- who ends the claim of a label

In a zone of the gateway the claim of a label is written only where there is none. What follows the
check of the claimant is not conditional on it: a release removes the records and the claim, and a
claim writes its records or undoes itself, whoever claims the label by then. So a claim is not
ended by its claimant alone (`late_release_ends_claim`). The exact statement is
`claimant_or_overtaken`: what changes under a claim is changed by a call of the claimant, or by a
call that was past its check before the claim was written.
-/

namespace GatewayControl

open Operation MemoryStore

variable {ι : Type}

namespace ZoneCall

/-- The call is made to change the owner of a zone. -/
def HandsOver (call : ZoneCall) (zone : DomainName) : Prop :=
  match call with
  | delegate _ domain | revoke _ domain => DomainName.parse domain = .ok zone
  | claim _ _ _ _ | release _ _ _ _ => False

/-- The call claims a name for a user. -/
def Claims (call : ZoneCall) (name : DomainName) (user : String) : Prop :=
  match call with
  | claim _ claimant domain _ => claimant = user ∧ DomainName.parse domain = .ok name
  | _ => False

/-- The store call by which a call gets past its check of the claimant of a name: a claim finds its
user, or writes the claim where there is none; a release finds its user or nobody. -/
def PassesClaim (call : ZoneCall) (name : DomainName) (c : Call) (s : MemoryStore) : Prop :=
  match call with
  | claim _ user _ _ =>
    c = .hget managedDomains name.text ∧ s.labelClaimant name = some user ∨
      c = .hsetIfAbsent managedDomains name.text (Bytes.ofText user) ∧ s.read (claimCell name) = none
  | release _ user _ _ =>
    c = .hget managedDomains name.text ∧
      (s.labelClaimant name = some "" ∨ s.labelClaimant name = some user)
  | delegate _ _ | revoke _ _ => False

/-- The store calls of a call up to its check of the claimant. -/
def LooksAtClaim (call : ZoneCall) (name : DomainName) (c : Call) : Prop :=
  match call with
  | claim _ user _ _ =>
    c = .get name.zone.zoneKey ∨ c = .hget managedDomains name.text ∨
      c = .hsetIfAbsent managedDomains name.text (Bytes.ofText user)
  | release _ _ _ _ => c = .get name.zone.zoneKey ∨ c = .hget managedDomains name.text
  | delegate _ _ | revoke _ _ => False

/-- The exchange in which a call passes its check of the claimant. -/
def PassingClaim (call : ZoneCall) (name : DomainName) (c : Call) (reply : c.Reply) : Prop :=
  match call with
  | claim _ user _ _ => FindsClaimant name (· = user) c reply ∨ WritesClaim name user c reply
  | release _ user _ _ => FindsClaimant name (fun claimant => claimant = "" ∨ claimant = user) c reply
  | delegate _ _ | revoke _ _ => False

variable {identity user : String} {call : ZoneCall} {name other : DomainName} {c : Call} {cell : Cell}
  {s : MemoryStore}

theorem passesClaim_of_step (h : call.PassingClaim name c (MemoryStore.step c s).1) :
    call.PassesClaim name c s := by
  cases call with
  | delegate user domain => exact h
  | revoke user domain => exact h
  | claim recordTtl user domain ips =>
    rcases h with hfinds | hwrites
    · obtain ⟨hget, claimant, hclaimant, rfl⟩ := hfinds.step
      exact .inl ⟨hget, hclaimant⟩
    · obtain ⟨hset, habsent, -⟩ := hwrites.step
      exact .inr ⟨hset, habsent⟩
  | release recordTtl user domain ips =>
    obtain ⟨hget, claimant, hclaimant, hallowed⟩ := FindsClaimant.step h
    rw [PassesClaim, hclaimant, Option.some.injEq, Option.some.injEq]
    exact ⟨hget, hallowed⟩

/-- When a call passes its check, the name is claimed by the user of the call or by nobody. -/
theorem labelClaimant_step_of_passing (h : call.PassingClaim name c (MemoryStore.step c s).1) :
    (MemoryStore.step c s).2.labelClaimant name = some "" ∨
      (MemoryStore.step c s).2.labelClaimant name = some call.user := by
  have hfinds : ∀ allowed, FindsClaimant name allowed c (MemoryStore.step c s).1 →
      ∃ claimant, (MemoryStore.step c s).2.labelClaimant name = some claimant ∧ allowed claimant := by
    intro allowed hf
    obtain ⟨rfl, claimant, hclaimant, hallowed⟩ := hf.step
    refine ⟨claimant, ?_, hallowed⟩
    rw [labelClaimant_congr (read_step_of_not_writes id s)]
    exact hclaimant
  cases call with
  | delegate user domain => exact absurd h id
  | revoke user domain => exact absurd h id
  | claim recordTtl user domain ips =>
    rcases h with hf | hwrites
    · obtain ⟨claimant, hclaimant, rfl⟩ := hfinds _ hf
      exact .inr hclaimant
    · exact .inr hwrites.step.2.2
  | release recordTtl user domain ips =>
    obtain ⟨claimant, hclaimant, rfl | rfl⟩ := hfinds _ h
    · exact .inl hclaimant
    · exact .inr hclaimant

/-- In a zone of the gateway, a call on a label looks at the claim only, until it passes its check. -/
theorem until_passingClaim (identity : String) (hlabel : call.OnLabel)
    (hd : DomainName.parse call.domain = .ok name) :
    (call.operation identity).Until (call.LooksAtClaim name)
      (fun c reply => call.PassingClaim name c reply ∨ FindsOwner name.zone (· ≠ identity) c reply)
      fun _ => True := by
  cases call with
  | delegate user domain => exact absurd hlabel id
  | revoke user domain => exact absurd hlabel id
  | claim recordTtl user domain ips =>
    refine ZoneAuthority.until_claim ⟨identity, recordTtl⟩ hd ips (.inl rfl) (fun _ _ => .inr ?_) ?_
    · refine ZoneAuthority.until_claimSelfManaged _ user ips ?_
      refine ZoneAuthority.until_claimLabel user claimAttempts (.inr (.inl rfl)) (.inr (.inr rfl)) ?_ ?_
      · intro raw hraw
        exact .inl (.inl (.inl ⟨rfl, rfl, raw, user, rfl, hraw, rfl⟩))
      · exact .inl (.inl (.inr ⟨rfl, rfl, rfl, rfl⟩))
    · intro raw howner hne
      exact .inl (.inr ⟨rfl, raw, user, rfl, howner, hne⟩)
  | release recordTtl user domain ips =>
    refine ZoneAuthority.until_release ⟨identity, recordTtl⟩ hd ips (.inl rfl) (fun _ _ => .inr ?_) ?_
    · refine ⟨.inr rfl, fun raw claimant hraw hallowed => ?_⟩
      exact .inl (.inl ⟨rfl, rfl, raw, claimant, rfl, hraw, hallowed⟩)
    · intro raw howner hne
      exact .inl (.inr ⟨rfl, raw, user, rfl, howner, hne⟩)

/-- Looking at a claim that stands changes nothing. -/
theorem not_looksAtClaim_of_change (hpresent : s.read (claimCell name) ≠ none)
    (hchange : (MemoryStore.step c s).2.read cell ≠ s.read cell) : ¬ call.LooksAtClaim name c := by
  have hget : c ≠ .get name.zone.zoneKey := by
    rintro rfl
    exact hchange (read_step_of_not_writes id s)
  have hhget : c ≠ .hget managedDomains name.text := by
    rintro rfl
    exact hchange (read_step_of_not_writes id s)
  have hset : ∀ value, c ≠ .hsetIfAbsent managedDomains name.text value := by
    rintro value rfl
    rw [step_hsetIfAbsent_of_present hpresent] at hchange
    exact hchange rfl
  cases call with
  | delegate user domain => exact id
  | revoke user domain => exact id
  | claim recordTtl user domain ips =>
    rintro (h | h | h)
    · exact hget h
    · exact hhget h
    · exact hset _ h
  | release recordTtl user domain ips =>
    rintro (h | h)
    · exact hget h
    · exact hhget h

/-- Where the zone is not handed over, its records and claims are changed by calls on their names. -/
theorem onLabel_of_writes (hd : DomainName.parse call.domain = .ok other) (h : call.Makes other c)
    (hw : c.Writes cell) (hcell : cell = recordCell name ∨ cell = claimCell name)
    (hstays : ¬ call.HandsOver name.zone) : other = name ∧ call.OnLabel := by
  have hin : cell.InZone name.zone := by
    rcases hcell with rfl | rfl
    · exact inZone_recordCell.2 rfl
    · exact inZone_claimCell.2 rfl
  have hzone := zone_of_writes h hw hin
  have hlabel : call.OnLabel := by
    cases call with
    | delegate user domain => exact absurd (hzone ▸ hd) hstays
    | revoke user domain => exact absurd (hzone ▸ hd) hstays
    | claim recordTtl user domain ips => trivial
    | release recordTtl user domain ips => trivial
  refine ⟨?_, hlabel⟩
  rcases hcell with rfl | rfl
  · rcases cell_of_writes hlabel h hw with hother | hother
    · exact (recordCell_inj.1 hother).symm
    · exact absurd hother (recordCell_ne_claimCell _ _)
  · rcases cell_of_writes hlabel h hw with hother | hother
    · exact absurd hother.symm (recordCell_ne_claimCell _ _)
    · exact (claimCell_inj.1 hother).symm

/-- A store call that makes a user the claimant of a name belongs to a claim of the user. -/
theorem claims_of_new_claimant (hd : DomainName.parse call.domain = .ok name)
    (h : call.Makes name c) (hlabel : call.OnLabel) (hne : user ≠ "")
    (hbefore : s.labelClaimant name ≠ some user)
    (hafter : (MemoryStore.step c s).2.labelClaimant name = some user) : call.Claims name user := by
  have hkeeps : (MemoryStore.step c s).2.read (claimCell name) ≠ s.read (claimCell name) :=
    fun heq => hbefore (labelClaimant_congr heq ▸ hafter)
  have hget : c ≠ .get name.zone.zoneKey := by
    rintro rfl
    exact hkeeps (read_step_of_not_writes id s)
  -- editing a name can only end its claim
  have hedits : ¬ c.Edits name := by
    intro hedits
    have hends : (MemoryStore.step c s).2.labelClaimant name = some "" :=
      congrArg claimantIn ((hedits.read_step s).resolve_left hkeeps)
    rw [hends, Option.some.injEq] at hafter
    exact hne hafter.symm
  cases call with
  | delegate user domain => exact absurd hlabel id
  | revoke user domain => exact absurd hlabel id
  | release recordTtl user domain ips => exact absurd h (not_or.2 ⟨hget, hedits⟩)
  | claim recordTtl claimant domain ips =>
    obtain rfl := (h.resolve_left hget).resolve_right hedits
    have ht : s.TakesFields managedDomains := by
      apply Classical.byContradiction
      intro hrefused
      exact hkeeps (by rw [step_refused (c := .hsetIfAbsent managedDomains name.text _) hrefused])
    have habsent : s.read (.field managedDomains name.text) = none := by
      apply Classical.byContradiction
      intro hpresent
      exact hkeeps (by rw [step_hsetIfAbsent_of_present hpresent])
    have hwritten := labelClaimant_write ht name claimant
    rw [step_hsetIfAbsent ht, if_pos habsent] at hafter
    exact ⟨Option.some.inj (hwritten.symm.trans hafter), hd⟩

end ZoneCall

section Run

variable [DecidableEq ι] {identity : String} {calls : ι → ZoneCall} {s : MemoryStore}
  {schedule : Nat → ι} {zone name : DomainName} {user : String} {cell : Cell} {n : Nat}

/-- A zone that no call hands over keeps its owner. -/
theorem ownerOf_trace (identity : String) (s : MemoryStore) (schedule : Nat → ι)
    (hstays : ∀ i, ¬ (calls i).HandsOver zone) (n : Nat) :
    ((zoneCrowd identity calls s).trace schedule n).store.ownerOf zone = s.ownerOf zone := by
  induction n with
  | zero => rfl
  | succ n ih =>
    rw [← ih]
    apply ownerOf_congr
    apply Classical.byContradiction
    intro hchange
    obtain ⟨c, hc, hwrites, other, hd, hmakes⟩ := exists_makes hchange
    obtain ⟨rfl, ⟨user, domain, hcall, -⟩ | ⟨user, domain, hcall, -⟩⟩ :=
      ZoneCall.triesOwner_of_writes hmakes hwrites
    · have hstay := hstays (schedule n)
      rw [hcall] at hd hstay
      exact hstay hd
    · have hstay := hstays (schedule n)
      rw [hcall] at hd hstay
      exact hstay hd

/-- Only a claim of a user makes the user the claimant of a name. -/
theorem exists_claims (hstays : ∀ i, ¬ (calls i).HandsOver name.zone) (hne : user ≠ "")
    (hbefore : ((zoneCrowd identity calls s).trace schedule n).store.labelClaimant name ≠ some user)
    (hafter : ((zoneCrowd identity calls s).trace schedule (n + 1)).store.labelClaimant name =
      some user) : (calls (schedule n)).Claims name user := by
  have hchange : ((zoneCrowd identity calls s).trace schedule (n + 1)).store.read (claimCell name) ≠
      ((zoneCrowd identity calls s).trace schedule n).store.read (claimCell name) :=
    fun heq => hbefore (labelClaimant_congr heq ▸ hafter)
  obtain ⟨c, hc, hwrites, other, hd, hmakes⟩ := exists_makes hchange
  obtain ⟨rfl, hlabel⟩ := ZoneCall.onLabel_of_writes hd hmakes hwrites (.inr rfl) (hstays _)
  rw [Crowd.store_trace_succ hc] at hafter
  exact ZoneCall.claims_of_new_claimant hd hmakes hlabel hne hbefore hafter

/-- **A claim is ended by its claimant, or by a call that the claim overtook.** Take a zone of the
gateway that no call hands over. Whatever changes in the records or the claim of a name while a
user claims it belongs to a call of the user, or to a call that passed its check of the claimant
before the user's claim was written. -/
theorem claimant_or_overtaken (identity : String) (calls : ι → ZoneCall) (s : MemoryStore)
    (schedule : Nat → ι) (hgateway : s.ownerOf name.zone = some identity)
    (hstays : ∀ i, ¬ (calls i).HandsOver name.zone) (hne : user ≠ "")
    (hclaimant : ((zoneCrowd identity calls s).trace schedule n).store.labelClaimant name = some user)
    (hcell : cell = recordCell name ∨ cell = claimCell name)
    (hchange : ((zoneCrowd identity calls s).trace schedule (n + 1)).store.read cell ≠
      ((zoneCrowd identity calls s).trace schedule n).store.read cell) :
    (calls (schedule n)).user = user ∨
      ∃ j k, (zoneCrowd identity calls s).Overtaken schedule
        (fun i => (calls i).PassesClaim name) (fun i => (calls i).Claims name user)
        (fun t => t.labelClaimant name = some user) n j k := by
  by_cases hu : (calls (schedule n)).user = user
  · exact .inl hu
  obtain ⟨c, hc, hwrites, other, hd, hmakes⟩ := exists_makes hchange
  obtain ⟨rfl, hlabel⟩ := ZoneCall.onLabel_of_writes hd hmakes hwrites hcell (hstays _)
  have huntil := ZoneCall.until_passingClaim identity hlabel hd
  -- while the claim stands, no attempt to write one changes the store
  have hpresent : ((zoneCrowd identity calls s).trace schedule n).store.read (claimCell other) ≠
      none := by
    intro habsent
    have hnobody := congrArg claimantIn habsent
    exact hne (Option.some.inj (hclaimant.symm.trans hnobody))
  have hbeyond : ¬ (calls (schedule n)).LooksAtClaim other c := by
    rw [Crowd.store_trace_succ hc] at hchange
    exact ZoneCall.not_looksAtClaim_of_change hpresent hchange
  refine .inr ((zoneCrowd identity calls s).exists_overtaken huntil hc hbeyond ?_ ?_ hclaimant)
  · rintro j d (hpassing | hfinds)
    · refine ⟨ZoneCall.passesClaim_of_step hpassing, fun hfound => ?_⟩
      rcases ZoneCall.labelClaimant_step_of_passing hpassing with hnobody | hown
      · exact hne (Option.some.inj (hfound.symm.trans hnobody))
      · exact hu (Option.some.inj (hown.symm.trans hfound))
    · -- the owner that every call finds is the gateway
      obtain ⟨-, owner, howner, hother⟩ := hfinds.step
      rw [ownerOf_trace identity s schedule hstays, hgateway, Option.some.injEq] at howner
      exact absurd howner.symm hother
  · exact fun k hbefore hafter => exists_claims hstays hne hbefore hafter

end Run

/-! ## A release that comes late -/

/-- The store of a gateway that owns one zone, with nothing in it. -/
def gatewayZone (identity : String) (zone : DomainName) : MemoryStore :=
  MemoryStore.empty.write (.value zone.zoneKey) (some (encodeOwner identity))

/-- Among claims and releases of one label in a zone of the gateway, a claim is ended and its records
are changed by its claimant alone. -/
def ClaimantsAlone [DecidableEq ι] (identity : String) (calls : ι → ZoneCall) (name : DomainName)
    (schedule : Nat → ι) : Prop :=
  (∀ i, (calls i).OnLabel ∧ DomainName.parse (calls i).domain = .ok name) →
    let run := (zoneCrowd identity calls (gatewayZone identity name.zone)).trace schedule
    ∀ n user, user ≠ "" → (run n).store.labelClaimant name = some user →
      (run (n + 1)).store.read (claimCell name) = none ∨
        (run (n + 1)).store.read (recordCell name) ≠ (run n).store.read (recordCell name) →
      (calls (schedule n)).user = user

/-- A release of a free label, and a claim of the label by another user. -/
def lateReleaseCalls : Fin 2 → ZoneCall
  | 0 => .release 300 "bob" "app.example.com" [.v4 ⟨10, 0, 0, 1⟩]
  | 1 => .claim 300 "eve" "app.example.com" [.v4 ⟨10, 0, 0, 2⟩]

/-- The release is held up after it found neither claimant nor records, until the claim is done. -/
def lateReleaseSchedule (n : Nat) : Fin 2 := [0, 0, 0, 1, 1, 1, 1, 1, 0, 0].getD n 0

/-- The release removes the records and the claim of the other user. -/
theorem late_release_ends_claim :
    ¬ ClaimantsAlone "gateway" lateReleaseCalls .sample lateReleaseSchedule := by
  intro h
  have hparse : DomainName.parse "app.example.com" = .ok .sample := by
    have htext : DomainName.sample.text = "app.example.com" := by decide +kernel
    rw [← htext]
    exact DomainName.parse_text .sample
  have hcalls : ∀ i, (lateReleaseCalls i).OnLabel ∧
      DomainName.parse (lateReleaseCalls i).domain = .ok .sample := by
    intro i
    match i with
    | 0 => exact ⟨trivial, hparse⟩
    | 1 => exact ⟨trivial, hparse⟩
  have hclaimant : ((zoneCrowd "gateway" lateReleaseCalls (gatewayZone "gateway"
      DomainName.sample.zone)).trace lateReleaseSchedule 9).store.labelClaimant .sample =
      some "eve" := by decide +kernel
  have hends : ((zoneCrowd "gateway" lateReleaseCalls (gatewayZone "gateway"
      DomainName.sample.zone)).trace lateReleaseSchedule (9 + 1)).store.read (claimCell .sample) =
      none := by decide +kernel
  have heve := h hcalls 9 "eve" (by decide) hclaimant (.inl hends)
  exact absurd heve (by decide)

/-- The release had passed its check before the claim. -/
theorem claimant_or_overtaken_by_late_release :
    let name := DomainName.sample
    let crowd := zoneCrowd "gateway" lateReleaseCalls (gatewayZone "gateway" name.zone)
    (lateReleaseCalls (lateReleaseSchedule 9)).user = "eve" ∨
      ∃ j k, crowd.Overtaken lateReleaseSchedule (fun i => (lateReleaseCalls i).PassesClaim name)
        (fun i => (lateReleaseCalls i).Claims name "eve")
        (fun t => t.labelClaimant name = some "eve") 9 j k := by
  intro name crowd
  have hgateway : (gatewayZone "gateway" name.zone).ownerOf name.zone = some "gateway" := by
    subst crowd name
    decide +kernel
  have hstays : ∀ i, ¬ (lateReleaseCalls i).HandsOver name.zone := by
    intro i
    match i with
    | 0 => exact id
    | 1 => exact id
  have hclaimant : (crowd.trace lateReleaseSchedule 9).store.labelClaimant name = some "eve" := by
    subst crowd name
    decide +kernel
  have hchange : (crowd.trace lateReleaseSchedule (9 + 1)).store.read (claimCell name) ≠
      (crowd.trace lateReleaseSchedule 9).store.read (claimCell name) := by
    subst crowd name
    decide +kernel
  exact claimant_or_overtaken "gateway" lateReleaseCalls (gatewayZone "gateway" name.zone)
    lateReleaseSchedule hgateway hstays (by decide) hclaimant (.inr rfl) hchange

end GatewayControl
