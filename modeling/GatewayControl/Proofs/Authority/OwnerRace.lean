import GatewayControl.Proofs.Authority.ZoneTree

/-!
# `GatewayControl.Proofs.Authority.OwnerRace` -- who writes into a zone while it changes hands

The owner record of a zone is replaced by compare-and-set, but what follows the check of the owner is
not conditional on it: claims and releases write records, and delegation and revocation clear the
zone, whoever owns it by then. So a zone is not its owner's alone (`former_owner_clears_zone`). The
exact statement is `owner_or_overtaken`: a change under an owner is made by the owner, or by a call
that was past its check of the owner record before the owner's delegation took effect.
-/

namespace GatewayControl

open Operation MemoryStore

variable {ι : Type}

namespace ZoneCall

/-- The store call by which a call gets past its check of the owner of a zone: claim and release read
the owner record and find their user or the gateway, delegation and revocation replace it. -/
def PassesOwner (identity : String) (call : ZoneCall) (zone : DomainName) (c : Call)
    (s : MemoryStore) : Prop :=
  match call with
  | delegate user _ => c.ReplacesOwner zone (some (encodeOwner user)) s
  | revoke _ _ => c.ReplacesOwner zone none s
  | claim _ user _ _ | release _ user _ _ =>
    c = .get zone.zoneKey ∧ (s.ownerOf zone = some user ∨ s.ownerOf zone = some identity)

/-- The store calls of a call up to its check of the owner. -/
def LooksAtOwner (call : ZoneCall) (zone : DomainName) (c : Call) : Prop :=
  match call with
  | delegate user _ => c.TriesOwner zone (some (encodeOwner user))
  | revoke _ _ => c.TriesOwner zone none
  | claim _ _ _ _ | release _ _ _ _ => c = .get zone.zoneKey

/-- The exchange in which a call passes its check of the owner. -/
def PassingOwner (identity : String) (call : ZoneCall) (zone : DomainName) :
    (c : Call) → c.Reply → Prop :=
  match call with
  | delegate user _ => Swaps zone (some (encodeOwner user))
  | revoke _ _ => Swaps zone none
  | claim _ user _ _ | release _ user _ _ =>
    FindsOwner zone fun owner => owner = user ∨ owner = identity

variable {identity : String} {call : ZoneCall} {name zone : DomainName} {c : Call}

theorem passesOwner_of_step {s : MemoryStore}
    (h : call.PassingOwner identity zone c (MemoryStore.step c s).1) :
    call.PassesOwner identity zone c s := by
  have hfinds : ∀ user, FindsOwner zone (fun owner => owner = user ∨ owner = identity) c
      (MemoryStore.step c s).1 →
      c = .get zone.zoneKey ∧ (s.ownerOf zone = some user ∨ s.ownerOf zone = some identity) := by
    intro user hf
    obtain ⟨hget, owner, howner, hallowed⟩ := hf.step
    rw [howner, Option.some.injEq, Option.some.injEq]
    exact ⟨hget, hallowed⟩
  cases call with
  | delegate user domain => exact Swaps.step h
  | revoke user domain => exact Swaps.step h
  | claim recordTtl user domain ips => exact hfinds user h
  | release recordTtl user domain ips => exact hfinds user h

/-- A call looks at the owner only, until it passes its check. -/
theorem until_passingOwner (identity : String) (hd : DomainName.parse call.domain = .ok name) :
    (call.operation identity).Until (call.LooksAtOwner (call.zone name))
      (call.PassingOwner identity (call.zone name)) fun _ => True := by
  have hself : ∀ user raw, ownerIn raw = some identity →
      FindsOwner name.zone (fun owner => owner = user ∨ owner = identity) (.get name.zone.zoneKey)
        (.ok raw) :=
    fun user raw howner => ⟨rfl, raw, identity, rfl, howner, .inr rfl⟩
  have hown : ∀ user raw, ownerIn raw = some user →
      FindsOwner name.zone (fun owner => owner = user ∨ owner = identity) (.get name.zone.zoneKey)
        (.ok raw) :=
    fun user raw howner => ⟨rfl, raw, user, rfl, howner, .inl rfl⟩
  cases call with
  | delegate user domain =>
    exact ZoneAuthority.until_delegate hd (fun _ => id) (.inl fun _ => ⟨rfl, rfl, rfl⟩)
  | revoke user domain =>
    exact ZoneAuthority.until_revoke hd (fun _ => id) (.inl fun _ => ⟨rfl, rfl, rfl⟩)
  | claim recordTtl user domain ips =>
    exact ZoneAuthority.until_claim ⟨identity, recordTtl⟩ hd ips rfl
      (fun raw howner => .inl (hself user raw howner)) fun raw howner _ => .inl (hown user raw howner)
  | release recordTtl user domain ips =>
    exact ZoneAuthority.until_release ⟨identity, recordTtl⟩ hd ips rfl
      (fun raw howner => .inl (hself user raw howner)) fun raw howner _ => .inl (hown user raw howner)

/-- Looking at the owner changes nothing inside a zone. -/
theorem not_looksAtOwner_of_writes {cell : Cell} (hw : c.Writes cell) (hin : cell.InZone zone)
    (other : DomainName) : ¬ call.LooksAtOwner other c := by
  have htries : ∀ content, ¬ c.TriesOwner other content := by
    intro content htries
    rw [htries.writes hw] at hin
    exact hin
  have hget : c ≠ .get other.zoneKey := by
    rintro rfl
    exact hw
  cases call with
  | delegate user domain => exact htries _
  | revoke user domain => exact htries _
  | claim recordTtl user domain ips => exact hget
  | release recordTtl user domain ips => exact hget

/-- A call that has passed its check has not made another user the owner. -/
theorem ownerOf_step_of_passesOwner {s : MemoryStore} {owner : String}
    (h : call.PassesOwner identity zone c s) (hu : call.user ≠ owner) (hi : owner ≠ identity)
    (hne : owner ≠ "") : (MemoryStore.step c s).2.ownerOf zone ≠ some owner := by
  have hread : ∀ user, user ≠ owner →
      c = .get zone.zoneKey ∧ (s.ownerOf zone = some user ∨ s.ownerOf zone = some identity) →
      (MemoryStore.step c s).2.ownerOf zone ≠ some owner := by
    rintro user huser ⟨rfl, hfound⟩
    rw [ownerOf_congr (read_step_of_not_writes id s)]
    rcases hfound with hfound | hfound
    · rw [hfound]
      exact fun heq => huser (Option.some.inj heq)
    · rw [hfound]
      exact fun heq => hi (Option.some.inj heq).symm
  cases call with
  | delegate user domain =>
    have hafter : (MemoryStore.step c s).2.ownerOf zone = some user :=
      (congrArg ownerIn h.2).trans (decodeOwner?_encodeOwner user)
    rw [hafter]
    exact fun heq => hu (Option.some.inj heq)
  | revoke user domain =>
    have hafter : (MemoryStore.step c s).2.ownerOf zone = some "" := congrArg ownerIn h.2
    rw [hafter]
    exact fun heq => hne (Option.some.inj heq).symm
  | claim recordTtl user domain ips => exact hread user hu h
  | release recordTtl user domain ips => exact hread user hu h

/-- The call delegates a zone to a user. -/
def Delegates (call : ZoneCall) (zone : DomainName) (owner : String) : Prop :=
  match call with
  | delegate user domain => user = owner ∧ DomainName.parse domain = .ok zone
  | _ => False

end ZoneCall

section Run

variable [DecidableEq ι] {identity : String} {calls : ι → ZoneCall} {s : MemoryStore}
  {schedule : Nat → ι} {zone : DomainName} {owner : String} {cell : Cell} {n : Nat}

/-- Only a delegation to a user makes the user the owner of a zone. -/
theorem delegates_of_new_owner (hne : owner ≠ "")
    (hbefore : ((zoneCrowd identity calls s).trace schedule n).store.ownerOf zone ≠ some owner)
    (hafter : ((zoneCrowd identity calls s).trace schedule (n + 1)).store.ownerOf zone = some owner) :
    (calls (schedule n)).Delegates zone owner := by
  have hchange : ((zoneCrowd identity calls s).trace schedule (n + 1)).store.read (.value zone.zoneKey) ≠
      ((zoneCrowd identity calls s).trace schedule n).store.read (.value zone.zoneKey) :=
    fun heq => hbefore (ownerOf_congr heq ▸ hafter)
  obtain ⟨c, hc, hwrites, name, hd, hmakes⟩ := exists_makes hchange
  rw [Crowd.store_trace_succ hc] at hchange hafter
  -- what was written names the new owner, and a revocation names nobody
  have hnamed : ∀ content, c.TriesOwner zone content → ownerIn content = some owner := by
    intro content htries
    rw [← hafter]
    exact congrArg ownerIn ((htries.read_step _).resolve_left hchange).symm
  obtain ⟨rfl, ⟨user, domain, hcall, htries⟩ | ⟨user, domain, -, htries⟩⟩ :=
    ZoneCall.triesOwner_of_writes hmakes hwrites
  · have howner : ownerIn (some (encodeOwner user)) = some user := decodeOwner?_encodeOwner user
    rw [hnamed _ htries, Option.some.injEq] at howner
    rw [hcall] at hd ⊢
    exact ⟨howner.symm, hd⟩
  · have hnobody : ownerIn none = some "" := rfl
    rw [hnamed _ htries, Option.some.injEq] at hnobody
    exact absurd hnobody hne

/-- **A zone is changed by its owner, or by a call that its delegation overtook.** Whatever changes
in the contents of a zone while a user owns it belongs to a call of the user, or to a call that
passed its check of the owner record before the delegation that made the user the owner. -/
theorem owner_or_overtaken (identity : String) (calls : ι → ZoneCall) (s : MemoryStore)
    (schedule : Nat → ι) (hne : owner ≠ "") (hi : owner ≠ identity)
    (howner : ((zoneCrowd identity calls s).trace schedule n).store.ownerOf zone = some owner)
    (hin : cell.InZone zone)
    (hchange : ((zoneCrowd identity calls s).trace schedule (n + 1)).store.read cell ≠
      ((zoneCrowd identity calls s).trace schedule n).store.read cell) :
    (calls (schedule n)).user = owner ∨
      ∃ j k, (zoneCrowd identity calls s).Overtaken schedule
        (fun i => (calls i).PassesOwner identity zone) (fun i => (calls i).Delegates zone owner)
        (fun t => t.ownerOf zone = some owner) n j k := by
  by_cases hu : (calls (schedule n)).user = owner
  · exact .inl hu
  -- the call at `n` writes inside the zone, so it is past its check
  obtain ⟨c, hc, hwrites, name, hd, hmakes⟩ := exists_makes hchange
  have huntil := ZoneCall.until_passingOwner identity hd
  rw [ZoneCall.zone_of_writes hmakes hwrites hin] at huntil
  have hbeyond : ¬ (calls (schedule n)).LooksAtOwner zone c :=
    ZoneCall.not_looksAtOwner_of_writes hwrites hin zone
  refine .inr ((zoneCrowd identity calls s).exists_overtaken huntil hc hbeyond ?_ ?_ howner)
  · intro j d hexchange
    have hpassed := ZoneCall.passesOwner_of_step hexchange
    exact ⟨hpassed, ZoneCall.ownerOf_step_of_passesOwner hpassed hu hi hne⟩
  · exact fun k hbefore hafter => delegates_of_new_owner hne hbefore hafter

end Run

/-! ## A zone that changes hands -/

/-- The contents of a zone with an owner other than the gateway are changed by its owner alone. -/
def OwnersAlone [DecidableEq ι] (identity : String) (calls : ι → ZoneCall) (schedule : Nat → ι) :
    Prop :=
  ∀ n zone owner cell, owner ≠ "" → owner ≠ identity →
    ((zoneCrowd identity calls .empty).trace schedule n).store.ownerOf zone = some owner →
    cell.InZone zone →
    ((zoneCrowd identity calls .empty).trace schedule (n + 1)).store.read cell ≠
      ((zoneCrowd identity calls .empty).trace schedule n).store.read cell →
    (calls (schedule n)).user = owner

/-- A zone goes from one user to another, who publishes a name in it. -/
def handoverCalls : Fin 4 → ZoneCall :=
  List.get [.delegate "alice" "example.com", .revoke "alice" "example.com",
    .delegate "bob" "example.com", .claim 300 "bob" "app.example.com" [.v4 ⟨10, 0, 0, 1⟩]]

/-- The revocation is held up after it removed the owner record, until the new owner is done. -/
def handoverSchedule (n : Nat) : Fin 4 :=
  [0, 0, 0, 0, 0, 1, 1, 2, 2, 2, 2, 2, 3, 3, 3, 1, 1].getD n 0

/-- The former owner's revocation removes the records of the new one. -/
theorem former_owner_clears_zone : ¬ OwnersAlone "gateway" handoverCalls handoverSchedule := by
  intro h
  have howner : ((zoneCrowd "gateway" handoverCalls .empty).trace handoverSchedule 16).store.ownerOf
      DomainName.sample.zone = some "bob" := by decide +kernel
  have hchange : ((zoneCrowd "gateway" handoverCalls .empty).trace handoverSchedule 17).store.read
        (recordCell .sample) ≠
      ((zoneCrowd "gateway" handoverCalls .empty).trace handoverSchedule 16).store.read
        (recordCell .sample) := by decide +kernel
  have hin : (recordCell .sample).InZone DomainName.sample.zone := inZone_recordCell.2 rfl
  have hbob := h 16 DomainName.sample.zone "bob" _ (by decide) (by decide) howner hin hchange
  exact absurd hbob (by decide)

/-- The revocation had passed its check before the new owner's delegation. -/
theorem owner_or_overtaken_in_handover :
    let zone := DomainName.sample.zone
    let crowd := zoneCrowd "gateway" handoverCalls .empty
    (handoverCalls (handoverSchedule 16)).user = "bob" ∨
      ∃ j k, crowd.Overtaken handoverSchedule
        (fun i => (handoverCalls i).PassesOwner "gateway" zone)
        (fun i => (handoverCalls i).Delegates zone "bob") (fun t => t.ownerOf zone = some "bob")
        16 j k := by
  intro zone crowd
  have howner : (crowd.trace handoverSchedule 16).store.ownerOf zone = some "bob" := by
    subst crowd zone
    decide +kernel
  have hchange : (crowd.trace handoverSchedule (16 + 1)).store.read (recordCell .sample) ≠
      (crowd.trace handoverSchedule 16).store.read (recordCell .sample) := by
    subst crowd zone
    decide +kernel
  have hin : (recordCell .sample).InZone zone := inZone_recordCell.2 rfl
  exact owner_or_overtaken "gateway" handoverCalls .empty handoverSchedule (by decide) (by decide)
    howner hin hchange

end GatewayControl
