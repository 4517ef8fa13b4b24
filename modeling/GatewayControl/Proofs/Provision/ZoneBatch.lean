import GatewayControl.Proofs.Authority.ZoneRefinement
import GatewayControl.Proofs.Provision.Undo

/-!
# `GatewayControl.Proofs.Provision.ZoneBatch` -- a batch of delegations and addresses is undone

Said about the ownership machine: a delegation is undone by a revocation, and addresses that were
claimed are released. While a batch is provided, whoever was given something has it (`ZoneMachine.Has`).
While it is removed this is not so, as the removal of one request can take with it what another one was
given: what stays true is that nobody else has it, so that the removal is no fault
(`ZoneMachine.MayUndo`). Nothing is left behind because every owner of a zone has a delegation in the
batch, and a zone that nobody owns is empty.

The main statement is `Gateway.undone_zones`, about batches that run on the empty store.
-/

namespace GatewayControl

/-- What a workload asks of the zone authority. -/
inductive ZoneRequest where
  | delegation (user domain : String)
  | addresses (user domain : String) (ips : List Ip)

namespace ZoneRequest

/-- The call that provides it. -/
def give (ttl : UInt32) : ZoneRequest → ZoneCall
  | delegation user domain => .delegate user domain
  | addresses user domain ips => .claim ttl user domain ips

/-- The call that removes it. -/
def undo (ttl : UInt32) : ZoneRequest → ZoneCall
  | delegation user domain => .revoke user domain
  | addresses user domain ips => .release ttl user domain ips

/-- It is a delegation of the zone to the user. -/
def Delegates (zone : DomainName) (user : String) : ZoneRequest → Prop
  | delegation owner domain => owner = user ∧ DomainName.parse domain = .ok zone
  | addresses _ _ _ => False

end ZoneRequest

/-! ## Requests to the machine -/

namespace ZoneMachine

/-- The machine has what was asked for: the user owns the zone, or may add to the addresses as the
owner of their zone or as the claimant of their name. -/
def Has (identity : String) (m : ZoneMachine) : ZoneRequest → Prop
  | .delegation user domain =>
    user ≠ "" ∧ ∃ zone, DomainName.parse domain = .ok zone ∧ m.owner zone = some user
  | .addresses user domain _ =>
    user ≠ "" ∧ ∃ name, DomainName.parse domain = .ok name ∧ (m.OwnsZoneOf identity user name ∨
      m.owner name.zone = some identity ∧ m.claimant name = some user)

/-- The removal of what was asked for is no fault. -/
def MayUndo (identity : String) (m : ZoneMachine) : ZoneRequest → Prop
  | .delegation user domain =>
    user ≠ "" ∧ ∃ zone, DomainName.parse domain = .ok zone ∧ m.MayOwn user zone
  | .addresses user domain _ =>
    user ≠ "" ∧ ∃ name, DomainName.parse domain = .ok name ∧ m.MayRelease identity user name

variable {identity user domain : String} {ttl : UInt32} {zone name : DomainName} {ips : List Ip}
  {m : ZoneMachine} {r other : ZoneRequest}

theorem Has.mayUndo (h : m.Has identity r) : m.MayUndo identity r := by
  cases r with
  | delegation user domain =>
    obtain ⟨hu, zone, hd, howner⟩ := h
    exact ⟨hu, zone, hd, .inr howner⟩
  | addresses user domain ips =>
    obtain ⟨hu, name, hd, hmay⟩ := h
    refine ⟨hu, name, hd, ?_⟩
    rcases hmay with howns | ⟨howner, hclaimant⟩
    · exact .inr (.inl howns)
    · exact .inr (.inr ⟨howner, .inr hclaimant⟩)

/-- A malformed call is refused, a well-formed one is a transition. -/
theorem step_cases (identity : String) (m : ZoneMachine) (call : ZoneCall) :
    ((∃ e, m.step identity call = (.error e, m)) ∧
        (call.user = "" ∨ ∀ name, DomainName.parse call.domain ≠ .ok name)) ∨
      call.user ≠ "" ∧ ∃ name, DomainName.parse call.domain = .ok name ∧ m.step identity call =
        match call with
        | .delegate user _ => m.delegate user name
        | .revoke user _ => m.revoke user name
        | .claim ttl user _ ips => m.claim identity user ttl name ips
        | .release _ user _ ips => m.release identity user name ips := by
  unfold step
  by_cases hu : call.user = ""
  · exact .inl ⟨⟨_, if_pos hu⟩, .inl hu⟩
  rw [if_neg hu]
  cases hr : DomainName.require call.domain with
  | error e =>
    refine .inl ⟨⟨e, rfl⟩, .inr fun name hd => ?_⟩
    rw [DomainName.require_eq_ok.2 hd] at hr
    cases hr
  | ok name => exact .inr ⟨hu, name, DomainName.require_eq_ok.1 hr, rfl⟩

/-- What a provision does to the machine: nothing, or a user owns a zone that was free, or has
addresses under a name. -/
theorem give_cases (identity : String) (ttl : UInt32) (m : ZoneMachine) (r : ZoneRequest) :
    (∃ e, m.step identity (r.give ttl) = (.error e, m)) ∨
      (∃ user domain zone, r = .delegation user domain ∧ user ≠ "" ∧
        DomainName.parse domain = .ok zone ∧ m.MayOwn user zone ∧
        m.step identity (r.give ttl) =
          (.ok (), { m with owner := fun z => if z = zone then some user else m.owner z })) ∨
      (∃ user domain ips name, r = .addresses user domain ips ∧ user ≠ "" ∧
        DomainName.parse domain = .ok name ∧ m.MayClaim identity user name ∧
        m.step identity (r.give ttl) =
          (.ok (), m.relabel name ((m.addresses name).putAll ttl ips)
            (if m.owner name.zone = some identity then some user else m.claimant name))) := by
  rcases step_cases identity m (r.give ttl) with ⟨herror, -⟩ | ⟨hu, name, hd, hstep⟩
  · exact .inl herror
  rw [hstep]
  cases r with
  | delegation user domain =>
    show (∃ e, m.delegate user name = _) ∨ _
    unfold ZoneMachine.delegate
    by_cases hmay : m.MayOwn user name
    · exact .inr (.inl ⟨user, domain, name, rfl, hu, hd, hmay, if_pos hmay⟩)
    · exact .inl ⟨_, if_neg hmay⟩
  | addresses user domain ips =>
    show (∃ e, m.claim identity user ttl name ips = _) ∨ _
    unfold ZoneMachine.claim
    by_cases hips : ips = []
    · exact .inl ⟨_, if_pos hips⟩
    rw [if_neg hips]
    by_cases hfree : m.owner name.zone = none
    · exact .inl ⟨_, if_pos hfree⟩
    rw [if_neg hfree]
    by_cases hmay : m.MayClaim identity user name
    · refine .inr (.inr ⟨user, domain, ips, name, rfl, hu, hd, hmay, ?_⟩)
      show ZoneMachine.claim identity user ttl name ips m = _
      unfold ZoneMachine.claim
      rw [if_neg hips, if_neg hfree, if_pos hmay]
    · exact .inl ⟨_, if_neg hmay⟩

/-- What a removal does to the machine: nothing, or a zone is free and empty, or a name has fewer
addresses and no other claimant. -/
theorem undo_cases (identity : String) (ttl : UInt32) (m : ZoneMachine) (r : ZoneRequest) :
    (∃ e, m.step identity (r.undo ttl) = (.error e, m) ∧ ¬ m.MayUndo identity r) ∨
      (∃ user domain zone, r = .delegation user domain ∧ DomainName.parse domain = .ok zone ∧
        m.step identity (r.undo ttl) = (.ok (), {
          owner := fun z => if z = zone then none else m.owner z
          claimant := fun n => if n.zone = zone then none else m.claimant n
          addresses := fun n => if n.zone = zone then .empty else m.addresses n })) ∨
      (∃ user domain ips name book claimant, r = .addresses user domain ips ∧
        (claimant = none ∨ claimant = m.claimant name) ∧
        m.step identity (r.undo ttl) = (.ok (), m.relabel name book claimant)) := by
  rcases step_cases identity m (r.undo ttl) with ⟨⟨e, herror⟩, hbad⟩ | ⟨hu, name, hd, hstep⟩
  · refine .inl ⟨e, herror, fun hmay => ?_⟩
    cases r <;>
    · obtain ⟨hu, name, hd, -⟩ := hmay
      exact hbad.elim hu fun hno => hno name hd
  rw [hstep]
  cases r with
  | delegation user domain =>
    show (∃ e, m.revoke user name = _ ∧ _) ∨ _
    unfold ZoneMachine.revoke
    by_cases hmay : m.MayOwn user name
    · exact .inr (.inl ⟨user, domain, name, rfl, hd, if_pos hmay⟩)
    · refine .inl ⟨_, if_neg hmay, ?_⟩
      rintro ⟨-, zone, hzone, hown⟩
      exact hmay (Except.ok.inj (hd.symm.trans hzone) ▸ hown)
  | addresses user domain ips =>
    show (∃ e, m.release identity user name ips = _ ∧ _) ∨ _
    unfold ZoneMachine.release
    by_cases hmay : m.MayRelease identity user name
    · refine .inr (.inr ⟨user, domain, ips, name, _, _, rfl, ?_, if_pos hmay⟩)
      split
      · exact .inl rfl
      · exact .inr rfl
    · refine .inl ⟨_, if_neg hmay, ?_⟩
      rintro ⟨-, other, hother, hrelease⟩
      exact hmay (Except.ok.inj (hd.symm.trans hother) ▸ hrelease)

/-! ## On the way up -/

/-- What was given stays with its user, where claimed names have addresses. -/
theorem Has.give (h : m.Has identity other)
    (hclaimed : ∀ n, m.claimant n ≠ none → (m.addresses n).entries ≠ []) (r : ZoneRequest) :
    (m.step identity (r.give ttl)).2.Has identity other := by
  rcases give_cases identity ttl m r with ⟨e, hstep⟩ | ⟨user, domain, zone, -, -, -, hmay, hstep⟩ |
    ⟨user, domain, ips, name, -, -, -, hmay, hstep⟩
  · rwa [hstep]
  · -- a zone that somebody else owns is not given away
    have howner : ∀ z owner, m.owner z = some owner →
        (if z = zone then some user else m.owner z) = some owner := by
      intro z owner hz
      split
      · next heq =>
        rw [heq] at hz
        rcases hmay with hfree | hown
        · rw [hfree] at hz
          cases hz
        · exact hown.symm.trans hz
      · exact hz
    rw [hstep]
    cases other with
    | delegation owner domain =>
      obtain ⟨hu, z, hd, hz⟩ := h
      exact ⟨hu, z, hd, howner z owner hz⟩
    | addresses owner domain ips =>
      obtain ⟨hu, name, hd, ⟨hz, hid⟩ | ⟨hz, hname⟩⟩ := h
      · exact ⟨hu, name, hd, .inl ⟨howner _ _ hz, hid⟩⟩
      · exact ⟨hu, name, hd, .inr ⟨howner _ _ hz, hname⟩⟩
  · rw [hstep]
    cases other with
    | delegation owner domain => exact h
    | addresses owner domain ips =>
      obtain ⟨hu, n, hd, ⟨hz, hid⟩ | ⟨hz, hname⟩⟩ := h
      · exact ⟨hu, n, hd, .inl ⟨hz, hid⟩⟩
      · refine ⟨hu, n, hd, .inr ⟨hz, ?_⟩⟩
        show (if n = name then _ else m.claimant n) = some owner
        split
        · -- a name with a claimant is claimed by no other user
          next heq =>
          subst heq
          rcases hmay with ⟨hown, hne⟩ | ⟨-, hnone | hsame⟩
          · exact absurd (Option.some.inj (hown.symm.trans hz)) hne
          · exact absurd hnone (hclaimed n (by rw [hname]; exact Option.some_ne_none _))
          · rw [if_pos hz, ← hsame, hname]
        · exact hname

/-- Whoever is answered with success has what was asked for. -/
theorem has_give (h : (m.step identity (r.give ttl)).1 = .ok ()) :
    (m.step identity (r.give ttl)).2.Has identity r := by
  rcases give_cases identity ttl m r with ⟨e, hstep⟩ | ⟨user, domain, zone, rfl, hu, hd, -, hstep⟩ |
    ⟨user, domain, ips, name, rfl, hu, hd, hmay, hstep⟩
  · rw [hstep] at h
    cases h
  · rw [hstep]
    exact ⟨hu, zone, hd, if_pos rfl⟩
  · rw [hstep]
    refine ⟨hu, name, hd, ?_⟩
    rcases hmay with howns | ⟨howner, -⟩
    · exact .inl howns
    · refine .inr ⟨howner, ?_⟩
      show (if name = name then _ else _) = some user
      rw [if_pos rfl, if_pos howner]

/-- A new owner asked for the zone. -/
theorem owner_give {z : DomainName} {owner : String}
    (h : (m.step identity (r.give ttl)).2.owner z = some owner) :
    m.owner z = some owner ∨ r.Delegates z owner := by
  rcases give_cases identity ttl m r with ⟨e, hstep⟩ | ⟨user, domain, zone, rfl, -, hd, -, hstep⟩ |
    ⟨user, domain, ips, name, -, -, -, -, hstep⟩
  · rw [hstep] at h
    exact .inl h
  · rw [hstep] at h
    change (if z = zone then some user else m.owner z) = some owner at h
    split at h
    · next heq => exact .inr ⟨Option.some.inj h, heq ▸ hd⟩
    · exact .inl h
  · rw [hstep] at h
    exact .inl h

/-! ## On the way down -/

theorem undo_ok (h : m.MayUndo identity r) : (m.step identity (r.undo ttl)).1 = .ok () := by
  rcases undo_cases identity ttl m r with ⟨e, -, hno⟩ | ⟨user, domain, zone, -, -, hstep⟩ |
    ⟨user, domain, ips, name, book, claimant, -, -, hstep⟩
  · exact absurd h hno
  · rw [hstep]
  · rw [hstep]

/-- A removal stands in the way of no other: it makes zones and names free. -/
theorem MayUndo.undo (h : m.MayUndo identity other) (r : ZoneRequest) :
    (m.step identity (r.undo ttl)).2.MayUndo identity other := by
  rcases undo_cases identity ttl m r with ⟨e, hstep, -⟩ | ⟨user, domain, zone, -, -, hstep⟩ |
    ⟨user, domain, ips, name, book, claimant, -, hclaimant, hstep⟩
  · rwa [hstep]
  · rw [hstep]
    cases other with
    | delegation owner domain =>
      obtain ⟨hu, z, hd, hown⟩ := h
      refine ⟨hu, z, hd, ?_⟩
      show (if z = zone then none else m.owner z) = none ∨
        (if z = zone then none else m.owner z) = some owner
      split
      · exact .inl rfl
      · exact hown
    | addresses owner domain ips =>
      obtain ⟨hu, n, hd, hmay⟩ := h
      refine ⟨hu, n, hd, ?_⟩
      unfold MayRelease OwnsZoneOf at hmay ⊢
      simp only
      by_cases hn : n.zone = zone
      · rw [if_pos hn]
        exact .inl rfl
      · rw [if_neg hn, if_neg hn]
        exact hmay
  · rw [hstep]
    cases other with
    | delegation owner domain => exact h
    | addresses owner domain ips =>
      obtain ⟨hu, n, hd, hmay⟩ := h
      refine ⟨hu, n, hd, ?_⟩
      rcases hmay with hfree | hown | ⟨howner, hclaim⟩
      · exact .inl hfree
      · exact .inr (.inl hown)
      · refine .inr (.inr ⟨howner, ?_⟩)
        show (if n = name then claimant else m.claimant n) = none ∨
          (if n = name then claimant else m.claimant n) = some owner
        split
        · next heq =>
          rcases hclaimant with hnone | hsame
          · exact .inl hnone
          · rw [hsame, ← heq]
            exact hclaim
        · exact hclaim

/-- The removal of a delegation leaves its user without the zone, and makes nobody an owner. -/
theorem owner_undo (hne : ∀ z, m.owner z ≠ some "") {z : DomainName} {owner : String}
    (h : (m.step identity (r.undo ttl)).2.owner z = some owner) :
    m.owner z = some owner ∧ ¬ r.Delegates z owner := by
  rcases undo_cases identity ttl m r with ⟨e, hstep, hno⟩ | ⟨user, domain, zone, rfl, hd, hstep⟩ |
    ⟨user, domain, ips, name, book, claimant, rfl, -, hstep⟩
  · rw [hstep] at h
    refine ⟨h, fun hdelegates => ?_⟩
    cases r with
    | delegation user domain =>
      obtain ⟨rfl, hd⟩ := hdelegates
      have hu : user ≠ "" := fun heq => hne z (heq ▸ h)
      exact hno ⟨hu, z, hd, .inr h⟩
    | addresses user domain ips => exact hdelegates
  · rw [hstep] at h
    change (if z = zone then none else m.owner z) = some owner at h
    split at h
    · cases h
    · next hz =>
      refine ⟨h, fun hdelegates => hz ?_⟩
      exact Except.ok.inj (hdelegates.2.symm.trans hd)
  · rw [hstep] at h
    exact ⟨h, id⟩

end ZoneMachine

/-! ## Workloads -/

namespace Workload

/-- What a workload asks of the zone authority, if it decodes and asks for a zone or for addresses. -/
def zoneRequest? (w : Workload) : Option ZoneRequest :=
  match w.decode with
  | .ok (.delegate domain) => some (.delegation w.user domain)
  | .ok (.subdomain domain ips) => some (.addresses w.user domain ips)
  | _ => none

/-- The workload is for the zone authority. -/
def IsForZones (w : Workload) : Prop := w.type = .delegate ∨ w.type = .subdomain

end Workload

namespace Gateway

variable {g : Gateway} {w : Workload} {r : ZoneRequest}

/-- A workload for the zone authority that does not decode is refused in the same way both times. -/
theorem zoneJobs_of_none (hw : w.IsForZones) (h : w.zoneRequest? = none) :
    ∃ e, g.provisionJob w = .error e ∧ g.decommissionJob w = .error e := by
  have htype : w.type ≠ .fourToSix := by
    rcases hw with hw | hw <;> simp [hw]
  unfold Workload.zoneRequest? at h
  cases hdecode : w.decode with
  | error e => exact ⟨e, g.jobs_of_decode_error (fun heq => absurd heq htype) hdecode⟩
  | ok payload =>
    have hpayload := w.type_of_decode hdecode
    rw [hdecode] at h
    cases payload with
    | delegate domain => cases h
    | subdomain domain ips => cases h
    | proxy | reverseProxy | fourToSix => rcases hw with hw | hw <;> (rw [hw] at hpayload; cases hpayload)

theorem zoneJobs_of_some (h : w.zoneRequest? = some r) :
    g.provisionJob w =
        .ok (.store ((r.give g.zones.recordTtl).operation g.zones.identity)) ∧
      g.decommissionJob w =
        .ok (.store ((r.undo g.zones.recordTtl).operation g.zones.identity)) := by
  unfold Workload.zoneRequest? at h
  split at h
  · next domain hdecode =>
    cases h
    exact g.storeJobs_of_decode hdecode ⟨rfl, rfl⟩
  · next domain ips hdecode =>
    cases h
    exact g.storeJobs_of_decode hdecode ⟨rfl, rfl⟩
  · cases h

/-! ## The batch on a store -/

open MemoryStore

/-- A store of zones that nobody owns is empty. -/
theorem empty_of_unowned {identity : String} {s : MemoryStore} {m : ZoneMachine} (h : Encodes s m)
    (hc : Coherent identity s) (hfree : ∀ zone, m.owner zone = none) : s = .empty := by
  apply ext_read
  intro cell
  rw [read_empty]
  apply Classical.byContradiction
  intro hread
  cases cell with
  | value key =>
    obtain ⟨bytes, hbytes⟩ := Option.ne_none_iff_exists'.1 hread
    obtain ⟨zone, rfl, -⟩ := hc.values key bytes hbytes
    rw [h.owner, hfree] at hread
    exact hread rfl
  | field key name =>
    obtain ⟨name, hcell | hcell⟩ := hc.fields key name hread
    · rw [hcell, h.records] at hread
      exact hread (h.unowned hc (hfree name.zone)).2
    · rw [hcell, h.claimant, (h.unowned hc (hfree name.zone)).1] at hread
      exact hread rfl

/-- The account of the workloads for the zone authority. What there is are the owners of zones; all else
goes with them. -/
def zoneLedger {δ : Type} (g : Gateway) (d : δ) :
    Ledger MemoryStore δ ZoneRequest ZoneMachine (DomainName × String) where
  request? := Workload.zoneRequest?
  Shows m s d' := Encodes s m ∧ Coherent g.zones.identity s ∧ d' = d
  Has := ZoneMachine.Has g.zones.identity
  MayUndo := ZoneMachine.MayUndo g.zones.identity
  Owes m item := m.owner item.1 = some item.2
  Asked r item := r.Delegates item.1 item.2

section Batch

variable {δ : Type} [TunnelDevice δ]

/-- **The zone authority keeps this account**, as the ownership machine does. -/
theorem keeps_zoneLedger (g : Gateway) (d : δ) :
    (g.zoneLedger d).Keeps g Workload.IsForZones MemoryStore.empty d where
  start := by
    refine ⟨.empty, ⟨encodes_empty, coherent_empty _, rfl⟩, ?_⟩
    intro item howner
    cases howner
  finish := by
    rintro m s d' ⟨hencodes, hcoherent, rfl⟩ hnone
    rw [empty_of_unowned hencodes hcoherent]
    intro zone
    apply Option.eq_none_iff_forall_ne_some.2
    exact fun user => hnone (zone, user)
  refuse := fun w hw hr => g.zoneJobs_of_none hw hr
  give := by
    rintro w r m s d' hr ⟨hencodes, hcoherent, rfl⟩
    rw [provision_of_store (g.zoneJobs_of_some hr).1]
    have hstep := simulates_call hencodes hcoherent (r.give g.zones.recordTtl)
    have hclaimed : ∀ n, m.claimant n ≠ none → (m.addresses n).entries ≠ [] := fun n hn =>
      ((hencodes.claimant_ne_none hcoherent n).1 hn).2
    refine ⟨_, ⟨hstep.state, hcoherent.call _, rfl⟩, ?_, ?_, ?_⟩
    · intro hok
      rw [hstep.answer] at hok
      apply ZoneMachine.has_give
      cases hanswer : (m.step g.zones.identity (r.give g.zones.recordTtl)).1 with
      | error e =>
        rw [hanswer] at hok
        cases hok
      | ok u => rfl
    · exact fun other hhas => hhas.give hclaimed r
    · exact fun item howner => ZoneMachine.owner_give howner
  turn := fun m r hhas => hhas.mayUndo
  undo := by
    rintro w r m s d' hr ⟨hencodes, hcoherent, rfl⟩
    rw [decommission_of_store (g.zoneJobs_of_some hr).2]
    have hstep := simulates_call hencodes hcoherent (r.undo g.zones.recordTtl)
    refine ⟨_, ⟨hstep.state, hcoherent.call _, rfl⟩, ?_, ?_, ?_⟩
    · intro hmay
      rw [hstep.answer]
      exact ZoneMachine.undo_ok hmay
    · exact fun other hmay => hmay.undo r
    · exact fun item howner => ZoneMachine.owner_undo (hencodes.owner_ne hcoherent) howner

/-- **A batch of zones and addresses is undone.** -/
theorem undone_zones (g : Gateway) {workloads : List Workload} (h : ∀ w ∈ workloads, w.IsForZones)
    (d : δ) : g.Undone workloads MemoryStore.empty d :=
  (g.keeps_zoneLedger d).undone h

/-- While it stands, the store is coherent and the device is untouched. -/
theorem coherent_zones (g : Gateway) {workloads : List Workload} (h : ∀ w ∈ workloads, w.IsForZones)
    (d : δ) :
    Coherent g.zones.identity (g.provisionEach workloads MemoryStore.empty d).2.1 ∧
      (g.provisionEach workloads MemoryStore.empty d).2.2 = d := by
  obtain ⟨m, ⟨-, hcoherent, hd⟩, -⟩ := (g.keeps_zoneLedger d).shows_provisionEach h
  exact ⟨hcoherent, hd⟩

end Batch

end Gateway
end GatewayControl
