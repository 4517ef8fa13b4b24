import GatewayControl.Proofs.Authority.ZoneAlone
import GatewayControl.Proofs.Operation.Interleaving

/-!
# `GatewayControl.Proofs.Authority.ZoneTree` -- the trees of the zone operations

Which store calls an operation of the zone authority makes, and after which answers. Three groups of
calls occur: a try for an owner record (`Call.TriesOwner`), the clearing of a zone (`Call.Clears`)
and the editing of one name (`Call.Edits`). Each operation has one lemma about `Until`, whose
hypotheses are the exchanges that lead from one group to the next; at the end stand the calls that
it makes at all (`only_operation`).
-/

namespace GatewayControl

open Operation MemoryStore

/-- A read of the owner record of a zone, or an attempt to replace it by `content`. -/
def Call.TriesOwner (zone : DomainName) (content : Option Bytes) : Call → Prop
  | .get key => key = zone.zoneKey
  | .compareAndSet key _ new => key = zone.zoneKey ∧ new = content
  | _ => False

/-- A call that clears a zone. -/
def Call.Clears (zone : DomainName) : Call → Prop
  | .hkeys _ => True
  | .delete key => key = zone.fqdn
  | .hdel key field => key = managedDomains ∧ standsIn zone field = true
  | _ => False

/-- A call that reads the records or the claim of a name, changes the records or ends the claim. -/
def Call.Edits (name : DomainName) : Call → Prop
  | .hget _ _ => True
  | .hset key field _ => .field key field = recordCell name
  | .hdel key field => .field key field = recordCell name ∨ .field key field = claimCell name
  | _ => False

/-- Who controls a zone that an owner record names. -/
def Control.ofOwner (identity owner : String) : Control :=
  if owner = "" then .unclaimed else if owner = identity then .selfManaged else .delegated owner

namespace ZoneAuthority

variable {P : Call → Prop} {A : (c : Call) → c.Reply → Prop} {user domain : String}
  {zone name : DomainName}

/-! ## Reading -/

theorem until_readOwner {Q : Option Bytes × String → Prop} (hP : P (.get zone.zoneKey))
    (h : ∀ raw owner, ownerIn raw = some owner →
      A (.get zone.zoneKey) (.ok raw) ∨ Q (raw, owner)) : (readOwner zone).Until P A Q := by
  unfold readOwner
  refine until_bind (Q := fun raw => ∀ owner, ownerIn raw = some owner → Q (raw, owner))
    (until_get hP fun raw => ?_) fun raw hraw => ?_
  · by_cases hA : A (.get zone.zoneKey) (.ok raw)
    · exact .inl hA
    · exact .inr fun owner howner => (h raw owner howner).resolve_left hA
  · cases raw with
    | none => exact until_pure (hraw "" rfl)
    | some bytes =>
      simp only
      cases howner : decodeOwner? bytes with
      | some owner => exact until_pure (hraw owner howner)
      | none => exact until_throw .json

theorem until_control {Q : Control → Prop} (auth : ZoneAuthority) (hP : P (.get zone.zoneKey))
    (h : ∀ raw owner, ownerIn raw = some owner →
      A (.get zone.zoneKey) (.ok raw) ∨ Q (.ofOwner auth.identity owner)) :
    (auth.control zone).Until P A Q := by
  unfold control
  refine until_bind (Q := fun found => Q (.ofOwner auth.identity found.2)) (until_readOwner hP h) ?_
  rintro ⟨raw, owner⟩ hfound
  unfold Control.ofOwner at hfound
  simp only at hfound ⊢
  split
  · next hempty => exact until_pure (by rwa [if_pos hempty] at hfound)
  next hempty =>
    rw [if_neg hempty] at hfound
    split
    · next hself => exact until_pure (by rwa [if_pos hself] at hfound)
    · next hself => exact until_pure (by rwa [if_neg hself] at hfound)

theorem until_claimant {Q : Option String → Prop} (hP : P (.hget managedDomains name.text))
    (h : ∀ raw user, claimantIn raw = some user →
      A (.hget managedDomains name.text) (.ok raw) ∨ Q (if user = "" then none else some user)) :
    (claimant name).Until P A Q := by
  unfold claimant
  -- an unreadable claim ends the operation, so only readable ones have to be followed
  refine until_bind
    (Q := fun raw => ∀ user, claimantIn raw = some user → Q (if user = "" then none else some user))
    (until_hget hP fun raw => ?_) fun raw hraw => ?_
  · by_cases hA : A (.hget managedDomains name.text) (.ok raw)
    · exact .inl hA
    · exact .inr fun user huser => (h raw user huser).resolve_left hA
  · cases raw with
    | none => exact until_pure (hraw "" rfl)
    | some bytes =>
      simp only
      cases huser : Bytes.toText? bytes with
      | some user => exact until_pure (hraw user huser)
      | none => exact until_throw _

theorem only_readRecords (name : DomainName) :
    (readRecords name.zone name.label).Only (Call.Edits name) := by
  unfold readRecords
  refine only_bind (only_call (c := .hget name.zone.fqdn name.label) trivial) fun raw => ?_
  cases raw with
  | none => exact only_pure _
  | some bytes =>
    simp only
    cases RecordSet.decode? bytes with
    | some set => exact only_pure set
    | none => exact only_throw .json

/-! ## Checking a request -/

/-- Every request checks its user and its domain, and ends if they are not in order. -/
theorem until_checked {α : Type} {Q : α → Prop} {next : DomainName → Operation α}
    (h : user ≠ "" → ∀ name, DomainName.parse domain = .ok name → (next name).Until P A Q) :
    (check (requireUser user) >>= fun _ => check (DomainName.require domain) >>= next).Until P A Q := by
  refine until_bind (Q := fun _ => user ≠ "") (until_check fun _ huser hempty => ?_) fun _ hu => ?_
  · have hrefuse : requireUser user = .error emptyUser := if_pos hempty
    rw [hrefuse] at huser
    cases huser
  · refine until_bind (Q := fun name => DomainName.parse domain = .ok name)
      (until_check fun name hname => DomainName.require_eq_ok.1 hname) (h hu)

/-! ## Owners -/

theorem only_clearClaims (zone : DomainName) (texts : List String) :
    (clearClaims zone texts).Only (Call.Clears zone) := by
  induction texts with
  | nil => exact only_pure ()
  | cons text texts ih =>
    rw [clearClaims_cons]
    split
    · next hin =>
      have hdel : (hdel managedDomains text).Only (Call.Clears zone) :=
        only_call (c := .hdel managedDomains text) ⟨rfl, hin⟩
      exact only_bind (only_discard hdel) fun _ => ih
    · exact ih

theorem only_clearZone (zone : DomainName) : (clearZone zone).Only (Call.Clears zone) := by
  unfold clearZone
  refine only_bind (only_call (c := .hkeys zone.fqdn) trivial) fun _ => ?_
  refine only_bind (only_call (c := .delete zone.fqdn) rfl) fun _ => ?_
  refine only_bind (only_call (c := .hkeys managedDomains) trivial) fun texts => ?_
  exact only_clearClaims zone texts

/-- Who has replaced the owner record clears the zone, and nobody else does. -/
theorem until_swap {content : Option Bytes} {rest : Operation Unit} (raw : Option Bytes)
    (htry : ∀ c, c.TriesOwner zone content → P c)
    (hswap : (∀ expected, A (.compareAndSet zone.zoneKey expected content) (.ok true)) ∨
      ∀ c, c.Clears zone → P c) (hrest : rest.Until P A fun _ => True) :
    (compareAndSet zone.zoneKey raw content >>= fun changed =>
      if changed then clearZone zone else rest).Until P A fun _ => True := by
  -- the swap is the exchange, or what follows it is covered by `P`
  refine until_bind (Q := fun changed => changed = true → ∀ c, c.Clears zone → P c)
    (until_compareAndSet (htry _ ⟨rfl, rfl⟩) fun changed => ?_) fun changed hclears => ?_
  · cases changed with
    | true => exact hswap.imp (fun hA => hA raw) fun hclears _ => hclears
    | false => exact .inr fun h => by cases h
  · split
    · next hchanged => exact ((only_clearZone zone).mono (hclears hchanged)).until
    · exact hrest

/-- A delegation tries for the owner record until it has replaced it. Then it clears the zone. -/
theorem until_delegateRounds (user : String) (rounds : Nat)
    (htry : ∀ c, c.TriesOwner zone (some (encodeOwner user)) → P c)
    (hswap : (∀ expected, A (.compareAndSet zone.zoneKey expected (some (encodeOwner user))) (.ok true)) ∨
      ∀ c, c.Clears zone → P c) : (delegateRounds user zone rounds).Until P A fun _ => True := by
  induction rounds with
  | zero => exact until_throw _
  | succ rounds ih =>
    unfold delegateRounds
    refine until_bind (Q := fun _ => True) (until_readOwner (htry _ rfl) fun _ _ _ => .inr trivial) ?_
    rintro ⟨raw, owner⟩ -
    simp only
    split
    · exact until_pure trivial
    split
    · exact until_throw _
    exact until_swap raw htry hswap ih

/-- A revocation tries for the owner record until it has removed it. Then it clears the zone. -/
theorem until_revokeRounds (user : String) (rounds : Nat) (htry : ∀ c, c.TriesOwner zone none → P c)
    (hswap : (∀ expected, A (.compareAndSet zone.zoneKey expected none) (.ok true)) ∨
      ∀ c, c.Clears zone → P c) : (revokeRounds user zone rounds).Until P A fun _ => True := by
  induction rounds with
  | zero => exact until_throw _
  | succ rounds ih =>
    unfold revokeRounds
    refine until_bind (Q := fun _ => True) (until_readOwner (htry _ rfl) fun _ _ _ => .inr trivial) ?_
    rintro ⟨raw, owner⟩ -
    simp only
    split
    · exact until_pure trivial
    split
    · exact until_throw _
    exact until_swap raw htry hswap ih

theorem until_delegate (hd : DomainName.parse domain = .ok zone)
    (htry : ∀ c, c.TriesOwner zone (some (encodeOwner user)) → P c)
    (hswap : (∀ expected, A (.compareAndSet zone.zoneKey expected (some (encodeOwner user))) (.ok true)) ∨
      ∀ c, c.Clears zone → P c) : (delegate user domain).Until P A fun _ => True := by
  unfold delegate
  refine until_checked fun _ other hother => ?_
  rw [hd, Except.ok.injEq] at hother
  subst hother
  exact until_delegateRounds user claimAttempts htry hswap

theorem until_revoke (hd : DomainName.parse domain = .ok zone)
    (htry : ∀ c, c.TriesOwner zone none → P c)
    (hswap : (∀ expected, A (.compareAndSet zone.zoneKey expected none) (.ok true)) ∨
      ∀ c, c.Clears zone → P c) : (revoke user domain).Until P A fun _ => True := by
  unfold revoke
  refine until_checked fun _ other hother => ?_
  rw [hd, Except.ok.injEq] at hother
  subst hother
  exact until_revokeRounds user claimAttempts htry hswap

/-! ## Labels -/

theorem only_addRecords (auth : ZoneAuthority) (name : DomainName) (ips : List Ip) :
    (auth.addRecords name ips).Only (Call.Edits name) := by
  unfold addRecords
  refine only_bind (only_readRecords name) fun set => ?_
  simp only
  split
  · exact only_call (c := .hset name.zone.fqdn name.label _) rfl
  · exact only_pure ()

theorem only_withdraw (auth : ZoneAuthority) (selfManaged : Bool) (name : DomainName)
    (ips : List Ip) : (auth.withdraw selfManaged name ips).Only (Call.Edits name) := by
  have hrecord : (hdel name.zone.fqdn name.label).Only (Call.Edits name) :=
    only_call (c := .hdel name.zone.fqdn name.label) (.inl rfl)
  have hclaim : (hdel managedDomains name.text).Only (Call.Edits name) :=
    only_call (c := .hdel managedDomains name.text) (.inr rfl)
  unfold withdraw
  refine only_bind (only_readRecords name) fun set => ?_
  simp only
  split
  · refine only_bind (only_discard hrecord) fun _ => ?_
    split
    · exact only_discard hclaim
    · exact only_pure ()
  split
  · exact only_call (c := .hset name.zone.fqdn name.label _) rfl
  · exact only_pure ()

/-- A claim of a label ends where it finds its own user, or has written the claim itself. -/
theorem until_claimLabel {Q : Bool → Prop} (user : String) (rounds : Nat)
    (hread : P (.hget managedDomains name.text))
    (hwrite : P (.hsetIfAbsent managedDomains name.text (Bytes.ofText user)))
    (hown : ∀ raw, claimantIn raw = some user →
      A (.hget managedDomains name.text) (.ok raw) ∨ Q false)
    (hfresh : A (.hsetIfAbsent managedDomains name.text (Bytes.ofText user)) (.ok true) ∨ Q true) :
    (claimLabel user name rounds).Until P A Q := by
  induction rounds with
  | zero => exact until_throw _
  | succ rounds ih =>
    unfold claimLabel
    refine until_bind (Q := fun found => found = some user → Q false)
      (until_claimant hread fun raw other hother => ?_) fun found hfound => ?_
    · -- the round ends with success only where the claimant is the user
      by_cases hu : other = user
      · subst hu
        exact (hown raw hother).imp_right fun hQ _ => hQ
      · refine .inr fun hsome => ?_
        split at hsome
        · cases hsome
        · exact absurd (Option.some.inj hsome) hu
    cases found with
    | some other =>
      simp only
      split
      · next hu => exact until_pure (hfound (by rw [hu]))
      · exact until_throw _
    | none =>
      refine until_bind (Q := fun written => written = true → Q true)
        (until_hsetIfAbsent hwrite fun written => ?_) fun written hwritten => ?_
      · cases written with
        | true => exact hfresh.imp_right fun hQ _ => hQ
        | false => exact .inr fun h => by cases h
      · split
        · next h => exact until_pure (hwritten h)
        · exact ih

/-- What follows the claim of a label edits its name. -/
theorem until_claimSelfManaged (auth : ZoneAuthority) (user : String) (ips : List Ip)
    (hlabel : (claimLabel user name claimAttempts).Until P A fun _ => ∀ c, c.Edits name → P c) :
    (auth.claimSelfManaged user name ips).Until P A fun _ => True := by
  unfold claimSelfManaged
  refine until_bind hlabel fun fresh hedits => ?_
  have hundo : (hdel managedDomains name.text).Only (Call.Edits name) :=
    only_call (c := .hdel managedDomains name.text) (.inr rfl)
  have hadd := only_attempt ((only_addRecords auth name ips).mono hedits)
  refine until_bind (Q := fun _ => True) hadd.until fun result _ => ?_
  cases result with
  | ok result => exact until_pure trivial
  | error e =>
    simp only
    split
    · exact until_bind (only_discard (only_attempt (hundo.mono hedits))).until fun _ _ => until_throw e
    · exact until_throw e

/-- Who controls a zone decides between two ways to go on, `self` and `own`. -/
theorem until_control_cases {self own : Prop} (auth : ZoneAuthority) (user : String)
    (hget : P (.get zone.zoneKey))
    (hself : ∀ raw, ownerIn raw = some auth.identity → A (.get zone.zoneKey) (.ok raw) ∨ self)
    (hown : ∀ raw, ownerIn raw = some user → user ≠ auth.identity →
      A (.get zone.zoneKey) (.ok raw) ∨ own) :
    (auth.control zone).Until P A fun control =>
      (control = .selfManaged → self) ∧ (control = .delegated user → own) := by
  refine until_control auth hget fun raw owner howner => ?_
  unfold Control.ofOwner
  by_cases hempty : owner = ""
  · rw [if_pos hempty]
    exact .inr ⟨fun h => (by cases h), fun h => (by cases h)⟩
  rw [if_neg hempty]
  by_cases hi : owner = auth.identity
  · rw [if_pos hi]
    exact (hself raw (hi ▸ howner)).imp_right fun h => ⟨fun _ => h, fun h => (by cases h)⟩
  rw [if_neg hi]
  by_cases hu : owner = user
  · subst hu
    exact (hown raw howner hi).imp_right fun h => ⟨fun h => (by cases h), fun _ => h⟩
  · exact .inr ⟨fun h => (by cases h), fun h => absurd (Control.delegated.inj h) hu⟩

/-- A claim reads who owns the zone, and goes on for the gateway or for its own user. -/
theorem until_claim (auth : ZoneAuthority) (hd : DomainName.parse domain = .ok name) (ips : List Ip)
    (hget : P (.get name.zone.zoneKey))
    (hself : ∀ raw, ownerIn raw = some auth.identity → A (.get name.zone.zoneKey) (.ok raw) ∨
      (auth.claimSelfManaged user name ips).Until P A fun _ => True)
    (hown : ∀ raw, ownerIn raw = some user → user ≠ auth.identity →
      A (.get name.zone.zoneKey) (.ok raw) ∨ ∀ c, c.Edits name → P c) :
    (auth.claim user domain ips).Until P A fun _ => True := by
  unfold claim
  refine until_checked fun _ other hother => ?_
  rw [hd, Except.ok.injEq] at hother
  subst hother
  split
  · exact until_throw _
  refine until_bind (until_control_cases auth user hget hself hown) fun control hcontrol => ?_
  cases control with
  | unclaimed => exact until_throw _
  | selfManaged => exact until_detached (hcontrol.1 rfl)
  | delegated owner =>
    simp only
    split
    · next hu => exact ((only_addRecords auth name ips).mono (hcontrol.2 (by rw [hu]))).until
    · exact until_throw _

/-- A release reads who owns the zone, and in a zone of the gateway who claims the label. -/
theorem until_release (auth : ZoneAuthority) (hd : DomainName.parse domain = .ok name)
    (ips : List Ip) (hget : P (.get name.zone.zoneKey))
    (hself : ∀ raw, ownerIn raw = some auth.identity → A (.get name.zone.zoneKey) (.ok raw) ∨
      P (.hget managedDomains name.text) ∧ ∀ raw other, claimantIn raw = some other →
        other = "" ∨ other = user → A (.hget managedDomains name.text) (.ok raw) ∨
          ∀ c, c.Edits name → P c)
    (hown : ∀ raw, ownerIn raw = some user → user ≠ auth.identity →
      A (.get name.zone.zoneKey) (.ok raw) ∨ ∀ c, c.Edits name → P c) :
    (auth.release user domain ips).Until P A fun _ => True := by
  unfold release
  refine until_checked fun _ other hother => ?_
  rw [hd, Except.ok.injEq] at hother
  subst hother
  refine until_bind (until_control_cases auth user hget hself hown) fun control hcontrol => ?_
  cases control with
  | unclaimed => exact until_pure trivial
  | selfManaged =>
    obtain ⟨hread, hclaim⟩ := hcontrol.1 rfl
    simp only
    refine until_bind (Q := fun found => found = none ∨ found = some user → ∀ c, c.Edits name → P c)
      (until_claimant hread fun raw other hother => ?_) fun found hfound => ?_
    · by_cases hfree : other = "" ∨ other = user
      · exact (hclaim raw other hother hfree).imp_right fun h _ => h
      · rw [not_or] at hfree
        refine .inr fun h => ?_
        rw [if_neg hfree.1] at h
        rcases h with h | h
        · cases h
        · exact absurd (Option.some.inj h) hfree.2
    · cases found with
      | none => exact ((only_withdraw auth true name ips).mono (hfound (.inl rfl))).until
      | some other =>
        simp only
        split
        · next hu =>
          exact ((only_withdraw auth true name ips).mono (hfound (.inr (by rw [hu])))).until
        · exact until_throw _
  | delegated owner =>
    simp only
    split
    · next hu =>
      exact ((only_withdraw auth false name ips).mono (hcontrol.2 (by rw [hu]))).until
    · exact until_throw _

end ZoneAuthority

/-! ## Whole calls -/

namespace Call

variable {zone name : DomainName} {content : Option Bytes} {c : Call} {cell : Cell}

theorem TriesOwner.writes (h : c.TriesOwner zone content) (hw : c.Writes cell) :
    cell = .value zone.zoneKey := by
  cases c with
  | compareAndSet key expected new => exact hw.trans (congrArg Cell.value h.1)
  | get key => exact absurd hw id
  | _ => exact absurd h id

/-- A try for an owner record leaves it alone, or replaces it. -/
theorem TriesOwner.read_step (h : c.TriesOwner zone content) (s : MemoryStore) :
    (MemoryStore.step c s).2.read (.value zone.zoneKey) = s.read (.value zone.zoneKey) ∨
      (MemoryStore.step c s).2.read (.value zone.zoneKey) = content := by
  cases c with
  | get key => exact .inl (read_step_of_not_writes id s)
  | compareAndSet key expected new =>
    obtain ⟨rfl, rfl⟩ := h
    by_cases ht : s.TakesValue zone.zoneKey
    · have htakes : s.Takes (.value zone.zoneKey) := ht
      rw [step_compareAndSet ht]
      split
      · exact .inr ((read_write _ htakes _ _).trans (if_pos rfl))
      · exact .inl rfl
    · have hrefused : s.Refuses (.compareAndSet zone.zoneKey expected new) := ht
      rw [step_refused hrefused]
      exact .inl rfl
  | _ => exact absurd h id

theorem Clears.writes (h : c.Clears zone) (hw : c.Writes cell) :
    cell.InZone zone ∨ cell = .value zone.fqdn := by
  cases c with
  | hkeys key => exact absurd hw id
  | delete key =>
    cases cell with
    | value k => exact .inr (congrArg Cell.value (hw.trans h))
    | field k field => exact .inl (.inl (hw.trans h))
  | hdel key field =>
    subst hw
    exact .inl (.inr h)
  | _ => exact absurd h id

theorem Edits.writes (h : c.Edits name) (hw : c.Writes cell) :
    cell = recordCell name ∨ cell = claimCell name := by
  cases c with
  | hget key field => exact absurd hw id
  | hset key field value => exact .inl (hw.trans h)
  | hdel key field => exact h.imp hw.trans hw.trans
  | _ => exact absurd h id

/-- Editing a name leaves its claim alone, or ends it. -/
theorem Edits.read_step (h : c.Edits name) (s : MemoryStore) :
    (MemoryStore.step c s).2.read (claimCell name) = s.read (claimCell name) ∨
      (MemoryStore.step c s).2.read (claimCell name) = none := by
  cases c with
  | hget key field => exact .inl (read_step_of_not_writes id s)
  | hset key field value =>
    have hother : ¬ (Call.hset key field value).Writes (claimCell name) := by
      intro hw
      exact recordCell_ne_claimCell name name (h.symm.trans hw.symm)
    exact .inl (read_step_of_not_writes hother s)
  | hdel key field =>
    by_cases ht : s.TakesFields key
    · have htakes : s.Takes (.field key field) := ht
      rw [step_hdel ht]
      simp only
      rw [read_write _ htakes]
      split
      · exact .inr rfl
      · exact .inl rfl
    · have hrefused : s.Refuses (.hdel key field) := ht
      rw [step_refused hrefused]
      exact .inl rfl
  | _ => exact absurd h id

end Call

namespace ZoneCall

variable {identity : String} {call : ZoneCall} {name : DomainName}

/-- The zone that a call about a name is about. -/
def zone (call : ZoneCall) (name : DomainName) : DomainName :=
  match call with
  | delegate _ _ | revoke _ _ => name
  | claim _ _ _ _ | release _ _ _ _ => name.zone

/-- The store calls that a call about a name makes at all. -/
def Makes (call : ZoneCall) (name : DomainName) (c : Call) : Prop :=
  match call with
  | delegate user _ => c.TriesOwner name (some (encodeOwner user)) ∨ c.Clears name
  | revoke _ _ => c.TriesOwner name none ∨ c.Clears name
  | claim _ user _ _ =>
    c = .get name.zone.zoneKey ∨ c = .hsetIfAbsent managedDomains name.text (Bytes.ofText user) ∨
      c.Edits name
  | release _ _ _ _ => c = .get name.zone.zoneKey ∨ c.Edits name

theorem only_operation (identity : String) (hd : DomainName.parse call.domain = .ok name) :
    (call.operation identity).Only (call.Makes name) := by
  cases call with
  | delegate user domain => exact ZoneAuthority.until_delegate hd (fun c => .inl) (.inr fun c => .inr)
  | revoke user domain => exact ZoneAuthority.until_revoke hd (fun c => .inl) (.inr fun c => .inr)
  | claim recordTtl user domain ips =>
    have hedits : ∀ c : Call, c.Edits name → (claim recordTtl user domain ips).Makes name c :=
      fun c h => .inr (.inr h)
    refine ZoneAuthority.until_claim ⟨identity, recordTtl⟩ hd ips (.inl rfl) (fun _ _ => .inr ?_)
      fun _ _ _ => .inr hedits
    exact ZoneAuthority.until_claimSelfManaged _ user ips
      (ZoneAuthority.until_claimLabel user claimAttempts (hedits _ trivial) (.inr (.inl rfl))
        (fun _ _ => .inr hedits) (.inr hedits))
  | release recordTtl user domain ips =>
    refine ZoneAuthority.until_release ⟨identity, recordTtl⟩ hd ips (.inl rfl) (fun _ _ => .inr ?_)
      fun _ _ _ => .inr fun c => .inr
    exact ⟨.inr trivial, fun _ _ _ _ => .inr fun c => .inr⟩

/-- The call is about the records and the claim of one name, not about a zone. -/
def OnLabel : ZoneCall → Prop
  | delegate _ _ | revoke _ _ => False
  | claim _ _ _ _ | release _ _ _ _ => True

/-- What a call on a label changes are the records and the claim of its name. -/
theorem cell_of_writes {cell : Cell} {c : Call} (hlabel : call.OnLabel) (h : call.Makes name c)
    (hw : c.Writes cell) : cell = recordCell name ∨ cell = claimCell name := by
  cases call with
  | delegate user domain => exact absurd hlabel id
  | revoke user domain => exact absurd hlabel id
  | claim recordTtl user domain ips =>
    rcases h with rfl | rfl | hedits
    · exact absurd hw id
    · exact .inr hw
    · exact hedits.writes hw
  | release recordTtl user domain ips =>
    rcases h with rfl | hedits
    · exact absurd hw id
    · exact hedits.writes hw

/-- Only delegation and revocation write the owner record of a zone, and only of their own. -/
theorem triesOwner_of_writes {zone : DomainName} {c : Call} (h : call.Makes name c)
    (hw : c.Writes (.value zone.zoneKey)) :
    name = zone ∧
      ((∃ user domain, call = .delegate user domain ∧ c.TriesOwner zone (some (encodeOwner user))) ∨
        ∃ user domain, call = .revoke user domain ∧ c.TriesOwner zone none) := by
  have hown : ∀ content, c.TriesOwner name content → name = zone := by
    intro content htries
    have hkey := htries.writes hw
    rw [Cell.value.injEq] at hkey
    exact (DomainName.zoneKey_inj.1 hkey).symm
  have hclears : ¬ c.Clears name := by
    intro hclears
    rcases hclears.writes hw with hin | hkey
    · exact hin
    · rw [Cell.value.injEq] at hkey
      exact DomainName.fqdn_ne_zoneKey _ _ hkey.symm
  have hlabel : ¬ call.OnLabel := by
    intro hlabel
    rcases cell_of_writes hlabel h hw with hcell | hcell <;> cases hcell
  cases call with
  | delegate user domain =>
    have htries := h.resolve_right hclears
    obtain rfl := hown _ htries
    exact ⟨rfl, .inl ⟨user, domain, rfl, htries⟩⟩
  | revoke user domain =>
    have htries := h.resolve_right hclears
    obtain rfl := hown _ htries
    exact ⟨rfl, .inr ⟨user, domain, rfl, htries⟩⟩
  | claim recordTtl user domain ips => exact absurd trivial hlabel
  | release recordTtl user domain ips => exact absurd trivial hlabel

/-- What a call changes inside a zone lies in the zone that it is about. -/
theorem zone_of_writes {zone : DomainName} {cell : Cell} {c : Call} (h : call.Makes name c)
    (hw : c.Writes cell) (hin : cell.InZone zone) : call.zone name = zone := by
  have htries : ∀ content, ¬ c.TriesOwner name content := by
    intro content htries
    rw [htries.writes hw] at hin
    exact hin
  have hclears : c.Clears name → name = zone := by
    intro hclears
    rcases hclears.writes hw with hcell | hcell
    · exact eq_of_inZone hcell hin
    · rw [hcell] at hin
      exact absurd hin id
  have hlabel : call.OnLabel → name.zone = zone := by
    intro hlabel
    rcases cell_of_writes hlabel h hw with rfl | rfl
    · exact inZone_recordCell.1 hin
    · exact inZone_claimCell.1 hin
  cases call with
  | delegate user domain => exact hclears (h.resolve_left (htries _))
  | revoke user domain => exact hclears (h.resolve_left (htries _))
  | claim recordTtl user domain ips => exact hlabel trivial
  | release recordTtl user domain ips => exact hlabel trivial

theorem only_operation_of_invalid (identity : String)
    (h : ∀ name, DomainName.parse call.domain ≠ .ok name) :
    (call.operation identity).Only fun _ => False := by
  obtain ⟨next, hnext⟩ := operation_eq identity call
  rw [hnext]
  exact ZoneAuthority.until_checked fun _ name hname => absurd hname (h name)

end ZoneCall

/-! ## Crowds of calls -/

/-- Calls at work on one store, at a gateway of this identity. -/
def zoneCrowd {ι : Type} (identity : String) (calls : ι → ZoneCall) (s : MemoryStore) :
    Crowd ι (Except GatewayError Unit) where
  store := s
  rest := fun i => ((calls i).operation identity).run

section Run

variable {ι : Type} [DecidableEq ι] {identity : String} {calls : ι → ZoneCall} {s : MemoryStore}
  {schedule : Nat → ι} {n : Nat}

/-- In every run, a call makes only store calls about the name that its domain spells. -/
theorem makes_of_pending {i : ι} {c : Call}
    (hc : ((zoneCrowd identity calls s).trace schedule n).pending i = some c) :
    ∃ name, DomainName.parse (calls i).domain = .ok name ∧ (calls i).Makes name c := by
  cases hd : DomainName.parse (calls i).domain with
  | ok name =>
    exact ⟨name, rfl, Crowd.pending_of_only rfl (ZoneCall.only_operation identity hd) hc⟩
  | error fault =>
    have hinvalid : ∀ name, DomainName.parse (calls i).domain ≠ .ok name := by
      intro name hname
      rw [hd] at hname
      cases hname
    exact absurd (Crowd.pending_of_only rfl
      (ZoneCall.only_operation_of_invalid identity hinvalid) hc) id

/-- What changes in a turn is written by a store call about the name of the call whose turn it is. -/
theorem exists_makes {cell : Cell}
    (hchange : ((zoneCrowd identity calls s).trace schedule (n + 1)).store.read cell ≠
      ((zoneCrowd identity calls s).trace schedule n).store.read cell) :
    ∃ c, ((zoneCrowd identity calls s).trace schedule n).pending (schedule n) = some c ∧
      c.Writes cell ∧ ∃ name, DomainName.parse (calls (schedule n)).domain = .ok name ∧
        (calls (schedule n)).Makes name c := by
  obtain ⟨c, hc, hwrites⟩ := Crowd.exists_writes hchange
  exact ⟨c, hc, hwrites, makes_of_pending hc⟩

end Run

/-! ## Exchanges -/

/-- The exchange that replaces the owner record of a zone by `content`. -/
def Swaps (zone : DomainName) (content : Option Bytes) : (c : Call) → c.Reply → Prop
  | .compareAndSet key _ new, reply => key = zone.zoneKey ∧ new = content ∧ reply = .ok true
  | _, _ => False

/-- The call finds the owner record of a zone as it expects it, and replaces it by `content`. -/
def Call.ReplacesOwner (zone : DomainName) (content : Option Bytes) (c : Call) (s : MemoryStore) :
    Prop :=
  c = .compareAndSet zone.zoneKey (s.read (.value zone.zoneKey)) content ∧
    (MemoryStore.step c s).2.read (.value zone.zoneKey) = content

/-- The exchange that finds an allowed owner in the owner record of a zone. -/
def FindsOwner (zone : DomainName) (allowed : String → Prop) : (c : Call) → c.Reply → Prop
  | .get key, reply =>
    key = zone.zoneKey ∧ ∃ raw owner, reply = .ok raw ∧ ownerIn raw = some owner ∧ allowed owner
  | _, _ => False

/-- The exchange that finds an allowed claimant in the claim of a name. -/
def FindsClaimant (name : DomainName) (allowed : String → Prop) : (c : Call) → c.Reply → Prop
  | .hget key field, reply =>
    key = managedDomains ∧ field = name.text ∧
      ∃ raw user, reply = .ok raw ∧ claimantIn raw = some user ∧ allowed user
  | _, _ => False

/-- The exchange that writes the claim of a name for a user. -/
def WritesClaim (name : DomainName) (user : String) : (c : Call) → c.Reply → Prop
  | .hsetIfAbsent key field value, reply =>
    key = managedDomains ∧ field = name.text ∧ value = Bytes.ofText user ∧ reply = .ok true
  | _, _ => False

section Exchanges

variable {s : MemoryStore} {c : Call} {zone name : DomainName}

theorem Swaps.step {content : Option Bytes} (h : Swaps zone content c (MemoryStore.step c s).1) :
    c.ReplacesOwner zone content s := by
  unfold Call.ReplacesOwner
  cases c with
  | compareAndSet key expected new =>
    obtain ⟨rfl, rfl, hreply⟩ := h
    by_cases ht : s.TakesValue zone.zoneKey
    · have htakes : s.Takes (.value zone.zoneKey) := ht
      rw [step_compareAndSet ht] at hreply ⊢
      split at hreply
      · next hread =>
        rw [if_pos hread, hread]
        exact ⟨rfl, (read_write _ htakes _ _).trans (if_pos rfl)⟩
      · cases hreply
    · have hrefused : s.Refuses (.compareAndSet zone.zoneKey expected new) := ht
      rw [step_refused hrefused] at hreply
      cases hreply
  | _ => exact absurd h id

theorem FindsOwner.step {allowed : String → Prop}
    (h : FindsOwner zone allowed c (MemoryStore.step c s).1) :
    c = .get zone.zoneKey ∧ ∃ owner, s.ownerOf zone = some owner ∧ allowed owner := by
  cases c with
  | get key =>
    obtain ⟨rfl, raw, owner, hreply, howner, hallowed⟩ := h
    refine ⟨rfl, owner, ?_, hallowed⟩
    by_cases ht : s.TakesValue zone.zoneKey
    · rw [step_get ht] at hreply
      cases hreply
      exact howner
    · have hrefused : s.Refuses (.get zone.zoneKey) := ht
      rw [step_refused hrefused] at hreply
      cases hreply
  | _ => exact absurd h id

theorem FindsClaimant.step {allowed : String → Prop}
    (h : FindsClaimant name allowed c (MemoryStore.step c s).1) :
    c = .hget managedDomains name.text ∧ ∃ user, s.labelClaimant name = some user ∧ allowed user := by
  cases c with
  | hget key field =>
    obtain ⟨rfl, rfl, raw, user, hreply, huser, hallowed⟩ := h
    refine ⟨rfl, user, ?_, hallowed⟩
    by_cases ht : s.TakesFields managedDomains
    · rw [step_hget ht] at hreply
      cases hreply
      exact huser
    · have hrefused : s.Refuses (.hget managedDomains name.text) := ht
      rw [step_refused hrefused] at hreply
      cases hreply
  | _ => exact absurd h id

theorem WritesClaim.step {user : String} (h : WritesClaim name user c (MemoryStore.step c s).1) :
    c = .hsetIfAbsent managedDomains name.text (Bytes.ofText user) ∧ s.read (claimCell name) = none ∧
      (MemoryStore.step c s).2.labelClaimant name = some user := by
  cases c with
  | hsetIfAbsent key field value =>
    obtain ⟨rfl, rfl, rfl, hreply⟩ := h
    by_cases ht : s.TakesFields managedDomains
    · rw [step_hsetIfAbsent ht] at hreply ⊢
      split at hreply
      · next habsent =>
        rw [if_pos habsent]
        exact ⟨rfl, habsent, labelClaimant_write ht name user⟩
      · cases hreply
    · have hrefused : s.Refuses (.hsetIfAbsent managedDomains name.text (Bytes.ofText user)) := ht
      rw [step_refused hrefused] at hreply
      cases hreply
  | _ => exact absurd h id

end Exchanges

end GatewayControl
