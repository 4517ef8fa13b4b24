import GatewayControl.Proofs.Authority.OwnerLinear
import GatewayControl.Proofs.Authority.RouteRounds
import GatewayControl.Proofs.Operation.Footprint

/-!
# `GatewayControl.Proofs.Authority.Independence` -- calls on different names commute

All calls share one flat space of names, and one hash holds the claims of all zones. Each call has a
footprint of a few cells there (`DomainCall.within_operation`): the entry of a domain; the owner record
and the contents of a zone; or the owner record of a zone, which it only looks at, with the records and
the claim of one name. The texts of different names never meet, so calls on different names are apart
(`DomainCall.Independent.apart`), and can be exchanged whatever the store holds
(`independent_calls_commute`).
-/

namespace GatewayControl

open Operation MemoryStore

variable {zone name : DomainName}

namespace Footprint

/-- What is looked at in the name of a zone: its owner record, and whether the two hashes are hashes. -/
def LooksAtZone (zone : DomainName) (cell : Cell) : Prop :=
  cell.key = zone.zoneKey ∨ cell = .value zone.fqdn ∨ cell = .value managedDomains

/-- A request about a zone changes its owner record and its contents. -/
def ofZone (zone : DomainName) : Footprint :=
  ⟨LooksAtZone zone, fun cell => cell = .value zone.zoneKey ∨ cell.InZone zone⟩

/-- A request about a label changes its records and its claim. -/
def ofLabel (name : DomainName) : Footprint :=
  ⟨LooksAtZone name.zone, fun cell => cell = recordCell name ∨ cell = claimCell name⟩

/-- A request about a route changes the entry. -/
def ofRoute (name : DomainName) : Footprint :=
  ⟨fun cell => cell.key = name.routingKey, fun cell => cell = .value name.routingKey⟩

theorem covers_owner {cell : Cell} (h : cell.key = name.zone.zoneKey) : (ofLabel name).Covers cell :=
  .inl (.inl h)

theorem covers_claim {cell : Cell} (h : cell = .value managedDomains ∨ cell = claimCell name) :
    (ofLabel name).Covers cell := by
  rcases h with hvalue | hclaim
  · exact .inl (.inr (.inr hvalue))
  · exact .inr (.inr hclaim)

end Footprint

/-! ## The footprints of the operations -/

namespace ZoneAuthority

open Footprint (covers_claim)

variable {user : String} {f : Footprint}

/-- Clearing a zone depends on nothing but the zone, though it scans the claims of all zones. -/
theorem within_clearZone (zone : DomainName) : Within (.ofZone zone) (clearZone zone) where
  frame := fun s cell hcell => read_clearZone (fun hz => hcell (.inr hz)) s
  congr := by
    intro s t hagree
    have hfqdn : s.TakesFields zone.fqdn ↔ t.TakesFields zone.fqdn := by
      rw [TakesFields, TakesFields, hagree _ (.inl (.inr (.inl rfl)))]
    have hclaims : s.TakesFields managedDomains ↔ t.TakesFields managedDomains := by
      rw [TakesFields, TakesFields, hagree _ (.inl (.inr (.inr rfl)))]
    by_cases hz : s.TakesFields zone.fqdn
    · by_cases hm : s.TakesFields managedDomains
      · obtain ⟨s', hs, hcleared⟩ := alone_clearZone hz hm
        obtain ⟨t', ht, hcleared'⟩ := alone_clearZone (hfqdn.1 hz) (hclaims.1 hm)
        rw [hs, ht]
        refine ⟨rfl, fun cell hcell => ?_⟩
        rw [hcleared, hcleared', hagree cell hcell]
      · rw [alone_clearZone_claims_refused hz hm,
          alone_clearZone_claims_refused (hfqdn.1 hz) fun h => hm (hclaims.2 h)]
        refine ⟨rfl, fun cell hcell => ?_⟩
        simp only [read_put_none, hagree cell hcell]
    · rw [alone_clearZone_refused hz, alone_clearZone_refused fun h => hz (hfqdn.2 h)]
      exact ⟨rfl, hagree⟩

/-- A delegation keeps to the footprint of its zone. -/
theorem within_delegateRounds (user : String) (zone : DomainName) (rounds : Nat) :
    Within (.ofZone zone) (delegateRounds user zone rounds) := by
  rw [delegateRounds_eq_swapRounds]
  exact within_swapRounds (fun cell hkey => Or.inl (Or.inl hkey)) (Or.inl rfl) (within_clearZone zone) rounds

/-- So does a revocation. -/
theorem within_revokeRounds (user : String) (zone : DomainName) (rounds : Nat) :
    Within (.ofZone zone) (revokeRounds user zone rounds) := by
  rw [revokeRounds_eq_swapRounds]
  exact within_swapRounds (fun cell hkey => Or.inl (Or.inl hkey)) (Or.inl rfl) (within_clearZone zone) rounds

/-! ### Labels -/

/-- A call on the records of a name is within the footprint of the name. -/
theorem within_recordCall {c : Call} (hlooks : ∀ cell, c.Consults cell →
      cell = .value name.zone.fqdn ∨ cell = recordCell name)
    (hchanges : ∀ cell, c.Writes cell → cell = recordCell name) : Within (.ofLabel name) (call c) := by
  refine within_call (fun cell hc => ?_) fun cell hw => .inl (hchanges cell hw)
  rcases hlooks cell hc with hvalue | hrecords
  · exact .inl (.inr (.inl hvalue))
  · exact .inr (.inl hrecords)

/-- So is a call on its claim. -/
theorem within_claimCall {c : Call} (hlooks : ∀ cell, c.Consults cell →
      cell = .value managedDomains ∨ cell = claimCell name)
    (hchanges : ∀ cell, c.Writes cell → cell = claimCell name) : Within (.ofLabel name) (call c) :=
  within_call (fun cell hc => covers_claim (hlooks cell hc)) fun cell hw => .inr (hchanges cell hw)

/-- Control of a zone is seen in its owner record. -/
theorem within_control (auth : ZoneAuthority)
    (h : ∀ cell : Cell, cell.key = zone.zoneKey → f.Covers cell) : Within f (auth.control zone) := by
  rw [control_eq]
  exact within_bind (within_call h fun cell hw => absurd hw id) fun raw => within_check _

/-- The claimant of a name is seen in its claim. -/
theorem within_claimant (h : ∀ cell, cell = .value managedDomains ∨ cell = claimCell name → f.Covers cell) :
    Within f (claimant name) := by
  rw [claimant_eq]
  exact within_bind (within_call h fun cell hw => absurd hw id) fun raw => within_check _

theorem within_readRecords (name : DomainName) :
    Within (.ofLabel name) (readRecords name.zone name.label) := by
  rw [readRecords_eq]
  exact within_bind (within_recordCall (fun cell hc => hc) fun cell hw => absurd hw id)
    fun raw => within_check _

theorem within_addRecords (auth : ZoneAuthority) (name : DomainName) (ips : List Ip) :
    Within (.ofLabel name) (auth.addRecords name ips) := by
  unfold addRecords
  refine within_bind (within_readRecords name) fun set => ?_
  dsimp only
  split
  · exact within_recordCall (fun cell hc => hc) fun cell hw => hw
  · exact within_pure _

/-- Taking a claim keeps to the footprint of the name. -/
theorem within_claimLabel (user : String) (name : DomainName) (rounds : Nat) :
    Within (.ofLabel name) (claimLabel user name rounds) := by
  induction rounds with
  | zero => exact within_throw _
  | succ rounds ih =>
    rw [claimLabel]
    refine within_bind (within_claimant fun _ => covers_claim) fun found => ?_
    cases found with
    | some other =>
      dsimp only
      split
      · exact within_pure _
      · exact within_throw _
    | none =>
      refine within_bind (within_claimCall (fun cell hc => hc) fun cell hw => hw) fun written => ?_
      cases written with
      | true => exact within_pure _
      | false => exact ih

theorem within_claimSelfManaged (auth : ZoneAuthority) (user : String) (name : DomainName)
    (ips : List Ip) : Within (.ofLabel name) (auth.claimSelfManaged user name ips) := by
  unfold claimSelfManaged
  refine within_bind (within_claimLabel user name claimAttempts) fun fresh => ?_
  refine within_bind (within_attempt (within_addRecords auth name ips)) fun result => ?_
  have hundo : Within (.ofLabel name) (discard (attempt (hdel managedDomains name.text))) :=
    within_discard (within_attempt (within_claimCall (fun cell hc => hc) fun cell hw => hw))
  cases result with
  | ok done => exact within_pure _
  | error e =>
    cases fresh with
    | true => exact within_bind hundo fun _ => within_throw e
    | false => exact within_throw e

theorem within_withdraw (auth : ZoneAuthority) (selfManaged : Bool) (name : DomainName)
    (ips : List Ip) : Within (.ofLabel name) (auth.withdraw selfManaged name ips) := by
  unfold withdraw
  refine within_bind (within_readRecords name) fun set => ?_
  dsimp only
  split
  · refine within_bind (within_discard (within_recordCall (fun cell hc => hc) fun cell hw => hw))
      fun _ => ?_
    cases selfManaged with
    | true => exact within_discard (within_claimCall (fun cell hc => hc) fun cell hw => hw)
    | false => exact within_pure _
  split
  · exact within_recordCall (fun cell hc => hc) fun cell hw => hw
  · exact within_pure _

end ZoneAuthority

namespace ZoneCall

/-- The cells that a call about a name depends on. -/
def footprintAt (call : ZoneCall) (name : DomainName) : Footprint :=
  match call with
  | delegate _ _ | revoke _ _ => .ofZone name
  | claim _ _ _ _ | release _ _ _ _ => .ofLabel name

theorem footprintAt_cases (call : ZoneCall) (name : DomainName) :
    call.OnLabel ∧ call.zone name = name.zone ∧ call.footprintAt name = .ofLabel name ∨
      ¬ call.OnLabel ∧ call.zone name = name ∧ call.footprintAt name = .ofZone name := by
  cases call with
  | delegate user domain | revoke user domain => exact .inr ⟨id, rfl, rfl⟩
  | claim recordTtl user domain ips | release recordTtl user domain ips =>
    exact .inl ⟨trivial, rfl, rfl⟩

theorem within_operation (identity : String) (call : ZoneCall) :
    (∃ e, call.operation identity = throw e) ∨ ∃ name, DomainName.parse call.domain = .ok name ∧
      Within (call.footprintAt name) (call.operation identity) := by
  cases call with
  | delegate user domain =>
    rcases ZoneAuthority.checked_cases user domain fun zone =>
      ZoneAuthority.delegateRounds user zone claimAttempts with ⟨e, he, -⟩ | ⟨-, name, hname, hop⟩
    · exact .inl ⟨e, he⟩
    · refine .inr ⟨name, hname, ?_⟩
      have hrun : (delegate user domain).operation identity = _ := hop
      rw [hrun]
      exact ZoneAuthority.within_delegateRounds user name claimAttempts
  | revoke user domain =>
    rcases ZoneAuthority.checked_cases user domain fun zone =>
      ZoneAuthority.revokeRounds user zone claimAttempts with ⟨e, he, -⟩ | ⟨-, name, hname, hop⟩
    · exact .inl ⟨e, he⟩
    · refine .inr ⟨name, hname, ?_⟩
      have hrun : (revoke user domain).operation identity = _ := hop
      rw [hrun]
      exact ZoneAuthority.within_revokeRounds user name claimAttempts
  | claim recordTtl user domain ips =>
    let auth : ZoneAuthority := ⟨identity, recordTtl⟩
    show (∃ e, auth.claim user domain ips = throw e) ∨ ∃ name, DomainName.parse domain = .ok name ∧
      Within (.ofLabel name) (auth.claim user domain ips)
    unfold ZoneAuthority.claim
    rcases ZoneAuthority.checked_cases user domain _ with ⟨e, he, -⟩ | ⟨-, name, hname, hop⟩
    · exact .inl ⟨e, he⟩
    rw [hop]
    refine .inr ⟨name, hname, ?_⟩
    split
    · exact within_throw _
    refine within_bind (ZoneAuthority.within_control auth fun _ => Footprint.covers_owner) fun control => ?_
    cases control with
    | unclaimed => exact within_throw _
    | selfManaged => exact within_detached (ZoneAuthority.within_claimSelfManaged auth user name ips)
    | delegated owner =>
      dsimp only
      split
      · exact ZoneAuthority.within_addRecords auth name ips
      · exact within_throw _
  | release recordTtl user domain ips =>
    let auth : ZoneAuthority := ⟨identity, recordTtl⟩
    show (∃ e, auth.release user domain ips = throw e) ∨ ∃ name, DomainName.parse domain = .ok name ∧
      Within (.ofLabel name) (auth.release user domain ips)
    unfold ZoneAuthority.release
    rcases ZoneAuthority.checked_cases user domain _ with ⟨e, he, -⟩ | ⟨-, name, hname, hop⟩
    · exact .inl ⟨e, he⟩
    rw [hop]
    refine .inr ⟨name, hname, ?_⟩
    refine within_bind (ZoneAuthority.within_control auth fun _ => Footprint.covers_owner) fun control => ?_
    cases control with
    | unclaimed => exact within_pure _
    | selfManaged =>
      refine within_bind (ZoneAuthority.within_claimant fun _ => Footprint.covers_claim) fun found => ?_
      cases found with
      | none => exact ZoneAuthority.within_withdraw auth true name ips
      | some other =>
        dsimp only
        split
        · exact ZoneAuthority.within_withdraw auth true name ips
        · exact within_throw _
    | delegated owner =>
      dsimp only
      split
      · exact ZoneAuthority.within_withdraw auth false name ips
      · exact within_throw _

end ZoneCall

namespace RouteCall

theorem within_operation (call : RouteCall) :
    (∃ e, call.operation = throw e) ∨ ∃ name, DomainName.parse call.domain = .ok name ∧
      Within (.ofRoute name) call.operation := by
  rcases call.operation_cases with ⟨e, he, -⟩ | ⟨name, verdict, hname, hop, -⟩
  · exact .inl ⟨e, he⟩
  · refine .inr ⟨name, hname, ?_⟩
    rw [hop]
    exact within_swapRounds (fun cell hkey => .inl hkey) rfl (within_pure ()) claimAttempts

end RouteCall

/-! ## Calls that are apart -/

namespace Footprint

variable {d e : DomainName}

/-- The contents of a zone are fields, and no owner record. -/
theorem not_looksAtZone_of_inZone {cell : Cell} (h : cell.InZone d) : ¬ LooksAtZone e cell := by
  cases cell with
  | value key => exact absurd h id
  | field key field =>
    have hkey : key ≠ e.zoneKey := by
      rcases h with h | ⟨h, -⟩
      · exact h ▸ DomainName.fqdn_ne_zoneKey d e
      · exact h ▸ (DomainName.zoneKey_ne_managedDomains e).symm
    rintro (h | h | h)
    · exact hkey h
    · cases h
    · cases h

theorem eq_of_looksAtZone_zoneKey (h : LooksAtZone e (.value d.zoneKey)) : d = e := by
  rcases h with h | h | h
  · exact DomainName.zoneKey_inj.1 h
  · exact absurd (Cell.value.inj h).symm (DomainName.fqdn_ne_zoneKey e d)
  · exact absurd (Cell.value.inj h) (DomainName.zoneKey_ne_managedDomains d)

theorem inZone_of_label_changes {cell : Cell} (h : (ofLabel d).changes cell) : cell.InZone d.zone := by
  rcases h with rfl | rfl
  · exact inZone_recordCell.2 rfl
  · exact inZone_claimCell.2 rfl

/-- Requests about two zones do not meet: neither changes what the other depends on. -/
theorem apart_zones (h : d ≠ e) : (ofZone d).Apart (ofZone e) := by
  have hleft : ∀ {d e : DomainName}, d ≠ e → ∀ cell, (ofZone d).changes cell →
      ¬ (ofZone e).Covers cell := by
    rintro d e hne cell (rfl | hcell) (hlooks | hwrites | hwrites)
    · exact hne (eq_of_looksAtZone_zoneKey hlooks)
    · exact hne (DomainName.zoneKey_inj.1 (Cell.value.inj hwrites))
    · exact absurd hwrites id
    · exact not_looksAtZone_of_inZone hcell hlooks
    · subst hwrites
      exact absurd hcell id
    · exact hne (eq_of_inZone hcell hwrites)
  exact ⟨hleft h, hleft h.symm⟩

theorem apart_zone_label (h : d ≠ e.zone) : (ofZone d).Apart (ofLabel e) where
  left := by
    rintro cell (rfl | hcell) (hlooks | hwrites)
    · exact h (eq_of_looksAtZone_zoneKey hlooks)
    · exact absurd (inZone_of_label_changes hwrites) id
    · exact not_looksAtZone_of_inZone hcell hlooks
    · exact h (eq_of_inZone hcell (inZone_of_label_changes hwrites))
  right := by
    rintro cell hcell (hlooks | rfl | hwrites)
    · exact not_looksAtZone_of_inZone (inZone_of_label_changes hcell) hlooks
    · exact absurd (inZone_of_label_changes hcell) id
    · exact h (eq_of_inZone hwrites (inZone_of_label_changes hcell))

/-- Neither do requests about two names, be they in one zone. -/
theorem apart_labels (h : d ≠ e) : (ofLabel d).Apart (ofLabel e) := by
  have hleft : ∀ {d e : DomainName}, d ≠ e → ∀ cell, (ofLabel d).changes cell →
      ¬ (ofLabel e).Covers cell := by
    rintro d e hne cell hcell (hlooks | hwrites)
    · exact not_looksAtZone_of_inZone (inZone_of_label_changes hcell) hlooks
    rcases hcell with rfl | rfl <;> rcases hwrites with hwrites | hwrites
    · exact hne (recordCell_inj.1 hwrites)
    · exact recordCell_ne_claimCell d e hwrites
    · exact recordCell_ne_claimCell e d hwrites.symm
    · exact hne (claimCell_inj.1 hwrites)
  exact ⟨hleft h, hleft h.symm⟩

/-- Nor do requests about the routes of two domains. -/
theorem apart_routes (h : d ≠ e) : (ofRoute d).Apart (ofRoute e) := by
  have hleft : ∀ {d e : DomainName}, d ≠ e → ∀ cell, (ofRoute d).changes cell →
      ¬ (ofRoute e).Covers cell := by
    rintro d e hne cell rfl (hlooks | hwrites)
    · exact hne (DomainName.routingKey_inj.1 hlooks)
    · exact hne (DomainName.routingKey_inj.1 (Cell.value.inj hwrites))
  exact ⟨hleft h, hleft h.symm⟩

/-- No cell of a zone has the name of an entry. -/
theorem key_ne_routingKey_of_inZone {cell : Cell} (h : cell.InZone d) : cell.key ≠ e.routingKey := by
  cases cell with
  | value key => exact absurd h id
  | field key field =>
    rcases h with h | ⟨h, -⟩
    · exact h ▸ DomainName.fqdn_ne_routingKey d e
    · exact h ▸ (DomainName.routingKey_ne_managedDomains e).symm

theorem not_looksAtZone_routingKey : ¬ LooksAtZone d (.value e.routingKey) := by
  rintro (h | h | h)
  · exact DomainName.zoneKey_ne_routingKey d e h.symm
  · exact DomainName.fqdn_ne_routingKey d e (Cell.value.inj h).symm
  · exact DomainName.routingKey_ne_managedDomains e (Cell.value.inj h)

theorem apart_zone_route (d e : DomainName) : (ofZone d).Apart (ofRoute e) where
  left := by
    rintro cell (rfl | hcell) (hlooks | hwrites)
    · exact DomainName.zoneKey_ne_routingKey d e hlooks
    · exact DomainName.zoneKey_ne_routingKey d e (Cell.value.inj hwrites)
    · exact key_ne_routingKey_of_inZone hcell hlooks
    · exact key_ne_routingKey_of_inZone hcell (congrArg Cell.key hwrites)
  right := by
    rintro cell rfl (hlooks | hwrites | hwrites)
    · exact not_looksAtZone_routingKey hlooks
    · exact DomainName.zoneKey_ne_routingKey d e (Cell.value.inj hwrites).symm
    · exact absurd hwrites id

theorem apart_label_route (d e : DomainName) : (ofLabel d).Apart (ofRoute e) where
  left := by
    rintro cell hcell (hlooks | hwrites)
    · exact key_ne_routingKey_of_inZone (inZone_of_label_changes hcell) hlooks
    · exact key_ne_routingKey_of_inZone (inZone_of_label_changes hcell) (congrArg Cell.key hwrites)
  right := by
    rintro cell rfl (hlooks | hwrites)
    · exact not_looksAtZone_routingKey hlooks
    · exact absurd (inZone_of_label_changes hwrites) id

end Footprint

namespace DomainCall

/-- The calls are about different things: a zone or label and a route, the routes of two domains, two
names that are claimed or released, or two zones where one of them is delegated or revoked. Names are
compared as they are stored, not as they are spelled. -/
def Independent : DomainCall → DomainCall → Prop
  | ofZone a, ofZone b => ∀ d e, DomainName.parse a.domain = .ok d → DomainName.parse b.domain = .ok e →
    a.OnLabel ∧ b.OnLabel ∧ d ≠ e ∨ a.zone d ≠ b.zone e
  | ofRoute a, ofRoute b => ∀ d e, DomainName.parse a.domain = .ok d →
    DomainName.parse b.domain = .ok e → d ≠ e
  | ofZone _, ofRoute _ | ofRoute _, ofZone _ => True

/-- The cells that a call about a name depends on. -/
def footprintAt (call : DomainCall) (name : DomainName) : Footprint :=
  match call with
  | ofZone call => call.footprintAt name
  | ofRoute _ => .ofRoute name

/-- **The footprint of a call** that does not fail in its checks is that of its name. -/
theorem within_operation (identity : String) (call : DomainCall) :
    (∃ e, call.operation identity = throw e) ∨ ∃ name, DomainName.parse call.domain = .ok name ∧
      Within (call.footprintAt name) (call.operation identity) := by
  cases call with
  | ofZone call => exact call.within_operation identity
  | ofRoute call => exact call.within_operation

/-- Calls on different names are apart. -/
theorem Independent.apart {a b : DomainCall} {d e : DomainName} (h : a.Independent b)
    (hd : DomainName.parse a.domain = .ok d) (he : DomainName.parse b.domain = .ok e) :
    (a.footprintAt d).Apart (b.footprintAt e) := by
  have hroute : ∀ (call : ZoneCall) (name route : DomainName),
      (call.footprintAt name).Apart (.ofRoute route) := by
    intro call name route
    rcases call.footprintAt_cases name with ⟨-, -, hf⟩ | ⟨-, -, hf⟩ <;> rw [hf]
    · exact Footprint.apart_label_route name route
    · exact Footprint.apart_zone_route name route
  cases a with
  | ofRoute a =>
    cases b with
    | ofRoute b => exact Footprint.apart_routes (h d e hd he)
    | ofZone b => exact (hroute b e d).symm
  | ofZone a =>
    cases b with
    | ofRoute b => exact hroute a d e
    | ofZone b =>
      show (a.footprintAt d).Apart (b.footprintAt e)
      have hdiffer := h d e hd he
      rcases a.footprintAt_cases d with ⟨ha, hza, hf⟩ | ⟨ha, hza, hf⟩ <;>
        rcases b.footprintAt_cases e with ⟨hb, hzb, hg⟩ | ⟨hb, hzb, hg⟩ <;>
        rw [hza, hzb] at hdiffer <;> rw [hf, hg]
      · refine Footprint.apart_labels ?_
        rintro rfl
        exact hdiffer.elim (fun hne => hne.2.2 rfl) fun hne => hne rfl
      · exact (Footprint.apart_zone_label (hdiffer.resolve_left fun hne => hb hne.2.1).symm).symm
      · exact Footprint.apart_zone_label (hdiffer.resolve_left fun hne => ha hne.1)
      · exact Footprint.apart_zones (hdiffer.resolve_left fun hne => ha hne.1)

end DomainCall

/-- **Calls on different names commute.** Whatever the store holds, and whether the calls succeed or fail:
in either order each gets the same answer, and the same store is left. So it is in memory, and in the two
tables that stand for a store in memory. -/
theorem independent_calls_commute (identity : String) {a b : DomainCall} (h : a.Independent b)
    (s : MemoryStore) :
    Commute (· = ·) (a.operation identity) (b.operation identity) s ∧
      ∀ t : TableStore, Represents t s →
        Commute TableStore.SameRows (a.operation identity) (b.operation identity) t := by
  have hcommute : Commute (· = ·) (a.operation identity) (b.operation identity) s := by
    rcases a.within_operation identity with ⟨e, ha⟩ | ⟨d, hd, ha⟩
    · rw [ha]
      exact ⟨rfl, rfl, rfl⟩
    rcases b.within_operation identity with ⟨e, hb⟩ | ⟨e, he, hb⟩
    · rw [hb]
      exact ⟨rfl, rfl, rfl⟩
    · exact ha.commute hb (h.apart hd he) s
  exact ⟨hcommute, fun t ht => hcommute.tables ht⟩

/-- A claim and a release in one zone of the gateway, the release of the name of the zone itself. -/
theorem independent_calls_commute_in_one_zone :
    let store := (alone (ZoneAuthority.delegate "gateway" "example.com") MemoryStore.empty).2
    let a : DomainCall := .ofZone (.claim 300 "alice" DomainName.sample.text [.v4 ⟨10, 0, 0, 1⟩])
    let b : DomainCall := .ofZone (.release 300 "bob" DomainName.sample.zone.text [.v4 ⟨10, 0, 0, 2⟩])
    a.Independent b ∧ Commute (· = ·) (a.operation "gateway") (b.operation "gateway") store := by
  intro store a b
  have h : a.Independent b := by
    intro d e hd he
    cases (DomainName.parse_text DomainName.sample).symm.trans hd
    cases (DomainName.parse_text DomainName.sample.zone).symm.trans he
    refine .inl ⟨trivial, trivial, ?_⟩
    intro heq
    have hlabels := congrArg (fun d : DomainName => d.labels.length) heq
    revert hlabels
    decide +kernel
  exact ⟨h, (independent_calls_commute "gateway" h store).1⟩

end GatewayControl
