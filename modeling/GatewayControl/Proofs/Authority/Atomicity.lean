import GatewayControl.Proofs.Authority.OwnerLinear
import GatewayControl.Proofs.Authority.RouteRounds
import GatewayControl.Proofs.Operation.Atomicity

/-!
# `GatewayControl.Proofs.Authority.Atomicity` -- failed calls on names leave no trace

A claim, a release, or a change to a route that fails leaves the store as it found it. Most of them write
last, and the last write either happens or fails. Two write more than once. A claim in a zone of the gateway
writes the claim and then the records, and takes back the claim if the records cannot be written. A release
that takes the last record removes the records and then the claim: that the claims are a hash is known by
then, since the claimant was looked up.

Delegation and revocation do not have this property, as a zone is cleared in several steps. They fail half
way only for a fault of the store (`DomainCall.failsInto_of_kind`).
-/

namespace GatewayControl

open Operation

variable {α σ : Type} [Backend σ] {P : GatewayError → Prop} {name : DomainName}

/-- A request that does not pass its checks does nothing. -/
theorem Operation.failsInto_checked {user domain : String} {next : DomainName → Operation α} {s : σ}
    (h : ∀ name, FailsInto P (next name) s s) :
    FailsInto P (check (requireUser user) >>= fun _ => check (DomainName.require domain) >>= next) s s := by
  rcases ZoneAuthority.checked_cases user domain next with ⟨e, he, -⟩ | ⟨-, name, -, hop⟩
  · rw [he]
    exact failsInto_throw e s
  · rw [hop]
    exact h name

namespace ZoneAuthority

/-! ## What only looks -/

theorem looksOnly_control (hσ : Reversible σ) (auth : ZoneAuthority) (zone : DomainName) :
    LooksOnly σ (auth.control zone) := by
  rw [control_eq]
  exact looksOnly_bind (looksOnly_call fun s => hσ.get s _) fun raw => looksOnly_check _

theorem looksOnly_claimant (hσ : Reversible σ) (name : DomainName) : LooksOnly σ (claimant name) := by
  rw [claimant_eq]
  exact looksOnly_bind (looksOnly_call fun s => hσ.hget s _ _) fun raw => looksOnly_check _

theorem looksOnly_readRecords (hσ : Reversible σ) (zone : DomainName) (label : String) :
    LooksOnly σ (readRecords zone label) := by
  rw [readRecords_eq]
  exact looksOnly_bind (looksOnly_call fun s => hσ.hget s _ _) fun raw => looksOnly_check _

/-- A claimant that was found was looked up in a hash. -/
theorem hget_of_claimant {found : Option String} {s t : σ} (h : alone (claimant name) s = (.ok found, t)) :
    ∃ raw, (Backend.step (.hget managedDomains name.text) s).1 = .ok raw := by
  rcases hstep : (Backend.step (.hget managedDomains name.text) s).1 with fault | raw
  · have hcall : (alone (hget managedDomains name.text) s).1 = .error (.storage (.store fault)) := by
      unfold hget
      rw [alone_call, hstep]
      rfl
    unfold claimant at h
    rw [alone_bind_error (Prod.ext hcall rfl)] at h
    cases h
  · exact ⟨raw, rfl⟩

/-! ## Claims -/

theorem failsInto_addRecords (hσ : Reversible σ) (auth : ZoneAuthority) (name : DomainName)
    (ips : List Ip) (s : σ) : FailsInto P (auth.addRecords name ips) s s := by
  unfold addRecords
  refine (looksOnly_readRecords hσ name.zone name.label).failsInto_bind fun set _ => ?_
  dsimp only
  split
  · exact Reversible.failsInto_call hσ _ s
  · exact failsInto_pure _ s s

theorem failsInto_claimLabel (hσ : Reversible σ) (user : String) (name : DomainName) (rounds : Nat)
    (s : σ) : FailsInto P (claimLabel user name rounds) s s := by
  induction rounds with
  | zero => exact failsInto_throw _ s
  | succ rounds ih =>
    rw [claimLabel]
    refine (looksOnly_claimant hσ name).failsInto_bind fun found _ => ?_
    cases found with
    | some other =>
      dsimp only
      split
      · exact failsInto_pure _ s s
      · exact failsInto_throw _ s
    | none =>
      refine failsInto_bind (Reversible.failsInto_call hσ _ s) fun written u hu => ?_
      cases written with
      | true => exact failsInto_pure _ u s
      | false =>
        obtain ⟨hlost, hstep⟩ := step_of_alone_call hu
        rw [← hstep, hσ.lost_create _ _ _ _ hlost]
        exact ih

/-- Who is told that the claim is new has created it, and who is told that it is old has done nothing. -/
theorem claimLabel_fresh (hσ : Reversible σ) {user : String} {rounds : Nat} {s t : σ} {fresh : Bool}
    (h : alone (claimLabel user name rounds) s = (.ok fresh, t)) :
    if fresh = true then
      (Backend.step (.hsetIfAbsent managedDomains name.text (Bytes.ofText user)) s).1 = .ok true ∧
        (Backend.step (.hsetIfAbsent managedDomains name.text (Bytes.ofText user)) s).2 = t
    else t = s := by
  induction rounds with
  | zero => cases h
  | succ rounds ih =>
    rw [claimLabel] at h
    rcases hclaimant : alone (claimant name) s with ⟨e | found, u⟩
    · rw [alone_bind_error hclaimant] at h
      cases h
    cases (looksOnly_claimant hσ name).eq_of_alone hclaimant
    rw [alone_bind_ok hclaimant] at h
    cases found with
    | some other =>
      simp only at h
      split at h <;> cases h
      rfl
    | none =>
      simp only at h
      rcases hcreate : alone (hsetIfAbsent managedDomains name.text (Bytes.ofText user)) s with
        ⟨e | written, v⟩
      · rw [alone_bind_error hcreate] at h
        cases h
      rw [alone_bind_ok hcreate] at h
      obtain ⟨hanswer, hstep⟩ := step_of_alone_call hcreate
      cases written with
      | true =>
        cases h
        exact ⟨hanswer, hstep⟩
      | false =>
        rw [← hstep, hσ.lost_create _ _ _ _ hanswer] at h
        exact ih h

/-- **A failed claim of a label** has taken back what it wrote. -/
theorem failsInto_claimSelfManaged (hσ : Reversible σ) (auth : ZoneAuthority) (user : String)
    (name : DomainName) (ips : List Ip) (s : σ) :
    FailsInto P (auth.claimSelfManaged user name ips) s s := by
  unfold claimSelfManaged
  refine failsInto_bind (failsInto_claimLabel hσ user name claimAttempts s) fun fresh t ht => ?_
  have hfresh := claimLabel_fresh hσ ht
  refine failsInto_bind (failsInto_attempt _ t s) fun result u hu => ?_
  rw [alone_attempt, Prod.mk.injEq, Except.ok.injEq] at hu
  obtain ⟨hresult, hleft⟩ := hu
  cases result with
  | ok done => exact failsInto_pure _ u s
  | error e =>
    -- the records were not written, so the claim is all there is to undo
    have hkept : u = t := failsInto_addRecords (P := fun _ => True) hσ auth name ips t e u
      (Prod.ext hresult hleft) trivial
    rw [hkept]
    cases fresh with
    | false =>
      have hsame : t = s := hfresh
      rw [hsame]
      exact failsInto_throw e s
    | true =>
      obtain ⟨hcreated, hstep⟩ := hfresh
      have hundone : alone (discard (attempt (hdel managedDomains name.text))) t = (.ok (), s) := by
        rw [alone_discard, alone_attempt]
        unfold hdel
        rw [alone_call, ← hstep, hσ.remove_created s _ _ _ hcreated]
        rfl
      refine failsInto_bind (failsInto_of_ok hundone) fun _ v hv => ?_
      rw [hundone] at hv
      cases hv
      exact failsInto_throw e s

theorem failsInto_claim (hσ : Reversible σ) (auth : ZoneAuthority) (user domain : String)
    (ips : List Ip) (s : σ) : FailsInto P (auth.claim user domain ips) s s := by
  refine failsInto_checked fun name => ?_
  split
  · exact failsInto_throw _ s
  refine (looksOnly_control hσ auth name.zone).failsInto_bind fun control _ => ?_
  cases control with
  | unclaimed => exact failsInto_throw _ s
  | selfManaged => exact failsInto_claimSelfManaged hσ auth user name ips s
  | delegated owner =>
    dsimp only
    split
    · exact failsInto_addRecords hσ auth name ips s
    · exact failsInto_throw _ s

/-! ## Releases -/

/-- **A failed withdrawal** has removed nothing: once the records are gone, so goes the claim. -/
theorem failsInto_withdraw (hσ : Reversible σ) (auth : ZoneAuthority) {selfManaged : Bool}
    (name : DomainName) (ips : List Ip) (s : σ) (hclaims : selfManaged = true →
      ∃ raw, (Backend.step (.hget managedDomains name.text) s).1 = .ok raw) :
    FailsInto P (auth.withdraw selfManaged name ips) s s := by
  unfold withdraw
  refine (looksOnly_readRecords hσ name.zone name.label).failsInto_bind fun set _ => ?_
  dsimp only
  split
  · refine failsInto_bind (failsInto_discard (Reversible.failsInto_call hσ _ s)) fun _ u hu => ?_
    cases selfManaged with
    | false => exact failsInto_pure _ u s
    | true =>
      obtain ⟨raw, hraw⟩ := hclaims rfl
      obtain ⟨existed, hremoved⟩ := hσ.remove_after s _ _ raw hraw name.zone.fqdn name.label
      have hstep : (Backend.step (.hdel name.zone.fqdn name.label) s).2 = u := by
        rw [alone_discard] at hu
        unfold hdel at hu
        rw [alone_call] at hu
        exact (Prod.mk.inj hu).2
      rw [hstep] at hremoved
      exact failsInto_discard (failsInto_of_ok (alone_call_of_step hremoved))
  split
  · exact Reversible.failsInto_call hσ _ s
  · exact failsInto_pure _ s s

theorem failsInto_release (hσ : Reversible σ) (auth : ZoneAuthority) (user domain : String)
    (ips : List Ip) (s : σ) : FailsInto P (auth.release user domain ips) s s := by
  refine failsInto_checked fun name => ?_
  refine (looksOnly_control hσ auth name.zone).failsInto_bind fun control _ => ?_
  cases control with
  | unclaimed => exact failsInto_pure _ s s
  | selfManaged =>
    refine (looksOnly_claimant hσ name).failsInto_bind fun found hfound => ?_
    have hwithdraw : FailsInto P (auth.withdraw true name ips) s s :=
      failsInto_withdraw hσ auth name ips s fun _ => hget_of_claimant hfound
    cases found with
    | none => exact hwithdraw
    | some other =>
      dsimp only
      split
      · exact hwithdraw
      · exact failsInto_throw _ s
  | delegated owner =>
    dsimp only
    split
    · exact failsInto_withdraw hσ auth name ips s fun h => absurd h (by decide)
    · exact failsInto_throw _ s

/-! ## Delegation and revocation -/

/-- Clearing a zone fails for no other reason than a fault of the store. -/
theorem failsInto_clearZone (h : ∀ e, P e → e.kind ≠ .storage) (zone : DomainName) (t s : σ) :
    FailsInto P (clearZone zone) t s := by
  have hclaims : ∀ (texts : List String) (t : σ), FailsInto P (clearClaims zone texts) t s := by
    intro texts
    induction texts with
    | nil => exact fun t => failsInto_pure _ t s
    | cons text texts ih =>
      intro t
      rw [clearClaims_cons]
      split
      · exact failsInto_bind (failsInto_discard (failsInto_call_of_kind h _ t s)) fun _ u _ => ih u
      · exact ih t
  unfold clearZone
  refine failsInto_bind (failsInto_call_of_kind h _ t s) fun _ u _ => ?_
  refine failsInto_bind (failsInto_call_of_kind h _ u s) fun _ v _ => ?_
  exact failsInto_bind (failsInto_call_of_kind h _ v s) fun texts w _ => hclaims texts w

end ZoneAuthority

/-! ## Calls -/

namespace DomainCall

/-- The call is about one name: it claims or releases it, or changes its route. -/
def OnName : DomainCall → Prop
  | ofZone call => call.OnLabel
  | ofRoute _ => True

/-- **A failed call on a name** leaves the store as it was. -/
theorem failsInto_of_onName (hσ : Reversible σ) (identity : String) {call : DomainCall} (h : call.OnName)
    (s : σ) : FailsInto P (call.operation identity) s s := by
  cases call with
  | ofZone call =>
    cases call with
    | delegate user domain | revoke user domain => exact absurd h id
    | claim recordTtl user domain ips => exact ZoneAuthority.failsInto_claim hσ _ user domain ips s
    | release recordTtl user domain ips => exact ZoneAuthority.failsInto_release hσ _ user domain ips s
  | ofRoute call =>
    show FailsInto P call.operation s s
    rcases call.operation_cases with ⟨e, hop, -⟩ | ⟨name, verdict, -, hop, -⟩
    · rw [hop]
      exact failsInto_throw e s
    · rw [hop]
      exact Reversible.failsInto_swapRounds hσ (failsInto_pure ()) claimAttempts s

/-- **A refused call** leaves the store as it was, whatever it is about. -/
theorem failsInto_of_kind (hσ : Reversible σ) (identity : String) (call : DomainCall)
    (h : ∀ e, P e → e.kind ≠ .storage) (s : σ) : FailsInto P (call.operation identity) s s := by
  have hclears : ∀ (zone : DomainName) (t s : σ), FailsInto P (ZoneAuthority.clearZone zone) t s :=
    ZoneAuthority.failsInto_clearZone h
  cases call with
  | ofRoute call =>
    have hname : (ofRoute call).OnName := trivial
    exact failsInto_of_onName hσ identity hname s
  | ofZone call =>
    cases call with
    | delegate user domain =>
      have hrounds : ∀ zone, FailsInto P (ZoneAuthority.delegateRounds user zone claimAttempts) s s := by
        intro zone
        rw [ZoneAuthority.delegateRounds_eq_swapRounds]
        exact Reversible.failsInto_swapRounds hσ (hclears zone) claimAttempts s
      exact failsInto_checked hrounds
    | revoke user domain =>
      have hrounds : ∀ zone, FailsInto P (ZoneAuthority.revokeRounds user zone claimAttempts) s s := by
        intro zone
        rw [ZoneAuthority.revokeRounds_eq_swapRounds]
        exact Reversible.failsInto_swapRounds hσ (hclears zone) claimAttempts s
      exact failsInto_checked hrounds
    | claim recordTtl user domain ips => exact ZoneAuthority.failsInto_claim hσ _ user domain ips s
    | release recordTtl user domain ips => exact ZoneAuthority.failsInto_release hσ _ user domain ips s

end DomainCall
end GatewayControl
