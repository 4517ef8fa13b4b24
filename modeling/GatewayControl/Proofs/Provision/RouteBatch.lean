import GatewayControl.Proofs.Authority.Coherence
import GatewayControl.Proofs.Authority.RouteRounds
import GatewayControl.Proofs.Provision.Undo

/-!
# `GatewayControl.Proofs.Provision.RouteBatch` -- a batch of routes is undone

On a store without routes, registrations build up a table of entries and leave the rest alone
(`RoutesOver`). A registration puts an entry where there is none or one of the same user
(`RoutesOver.register`), a removal takes away the entry of its user, whichever request it came from
(`RoutesOver.deregister`). So an entry always has the owner that all successful requests for its domain
have, and goes with the first of them that is removed; the others find nothing left to remove.

The main statement is `Gateway.undone_routes`.
-/

namespace GatewayControl

open Operation MemoryStore

/-- The entries of domains. -/
abbrev RouteTable := DomainName → Option RoutingEntry

namespace RouteTable

/-- The table with another entry of a domain, or none. -/
def put (table : RouteTable) (name : DomainName) (entry : Option RoutingEntry) : RouteTable :=
  fun n => if n = name then entry else table n

/-- An entry of the domain, if there is one, is the user's. -/
def MayChange (table : RouteTable) (user : String) (name : DomainName) : Prop :=
  ∀ entry, table name = some entry → entry.owner = user

variable {table : RouteTable} {name other : DomainName} {entry : RoutingEntry} {user : String}

/-- An entry that is replaced keeps its owner. -/
theorem owned_put (hmay : table.MayChange entry.owner name)
    (h : ∃ old, table other = some old ∧ old.owner = user) :
    ∃ new, table.put name (some entry) other = some new ∧ new.owner = user := by
  obtain ⟨old, hold, howner⟩ := h
  by_cases heq : other = name
  · exact ⟨entry, if_pos heq, (hmay old (heq ▸ hold)).symm.trans howner⟩
  · exact ⟨old, (if_neg heq).trans hold, howner⟩

theorem of_owned_put (h : ∃ new, table.put name (some entry) other = some new ∧ new.owner = user) :
    (other = name ∧ entry.owner = user) ∨ ∃ old, table other = some old ∧ old.owner = user := by
  obtain ⟨new, hnew, howner⟩ := h
  unfold put at hnew
  split at hnew
  · next heq =>
    cases hnew
    exact .inl ⟨heq, howner⟩
  · exact .inr ⟨new, hnew, howner⟩

theorem of_put_none (h : table.put name none other = some entry) : other ≠ name ∧ table other = some entry := by
  unfold put at h
  split at h
  · cases h
  · next hne => exact ⟨hne, h⟩

end RouteTable

/-- The store has neither routes nor hashes in their place. -/
structure WithoutRoutes (s : MemoryStore) : Prop where
  absent : ∀ name : DomainName, s.read (.value name.routingKey) = none
  takes : ∀ name : DomainName, s.TakesValue name.routingKey

/-- A coherent store has owner records, record sets and claims, and nothing else. -/
theorem Coherent.withoutRoutes {identity : String} {s : MemoryStore} (h : Coherent identity s) :
    WithoutRoutes s where
  absent := by
    intro name
    cases hread : s.read (.value name.routingKey) with
    | none => rfl
    | some bytes =>
      obtain ⟨zone, hzone, -⟩ := h.values _ _ hread
      exact absurd hzone.symm (DomainName.zoneKey_ne_routingKey zone name)
  takes := by
    intro name field
    apply Classical.byContradiction
    intro hread
    obtain ⟨other, hother | hother⟩ := h.fields _ _ hread
    · rw [recordCell, Cell.field.injEq] at hother
      exact DomainName.fqdn_ne_routingKey _ _ hother.1.symm
    · rw [claimCell, Cell.field.injEq] at hother
      exact DomainName.routingKey_ne_managedDomains _ hother.1

/-- The store is `base` with the entries of the table. -/
structure RoutesOver (base s : MemoryStore) (table : RouteTable) : Prop where
  routes : ∀ name : DomainName,
    s.read (.value name.routingKey) = (table name).map fun entry => entry.encode name.routingKey
  storable : ∀ name entry, table name = some entry → entry.Storable
  others : ∀ cell, (∀ name : DomainName, cell ≠ .value name.routingKey) → s.read cell = base.read cell

namespace RoutesOver

variable {base s : MemoryStore} {table : RouteTable} {name : DomainName} {user domain : String}

/-- Without entries it is the store itself. -/
theorem start (hbase : WithoutRoutes base) : RoutesOver base base fun _ => none where
  routes := hbase.absent
  storable := by
    intro name entry h
    cases h
  others := fun _ _ => rfl

theorem eq_of_nil (h : RoutesOver base s table) (hbase : WithoutRoutes base)
    (hnone : ∀ name, table name = none) : s = base := by
  apply ext_read
  intro cell
  by_cases hcell : ∃ name : DomainName, cell = .value name.routingKey
  · obtain ⟨name, rfl⟩ := hcell
    rw [h.routes, hnone, hbase.absent]
    rfl
  · exact h.others cell fun name heq => hcell ⟨name, heq⟩

theorem takesValue (h : RoutesOver base s table) (hbase : WithoutRoutes base) (name : DomainName) :
    s.TakesValue name.routingKey := by
  intro field
  rw [h.others (.field name.routingKey field) fun _ => Cell.noConfusion]
  exact hbase.takes name field

/-- One entry was written or removed. -/
theorem write (h : RoutesOver base s table) (hbase : WithoutRoutes base) (name : DomainName)
    (entry : Option RoutingEntry) (hentry : ∀ e, entry = some e → e.Storable) :
    RoutesOver base
      (s.write (.value name.routingKey) (entry.map fun entry => entry.encode name.routingKey))
      (table.put name entry) := by
  have htakes : s.Takes (.value name.routingKey) := h.takesValue hbase name
  unfold RouteTable.put
  constructor
  · intro n
    rw [read_write _ htakes, h.routes]
    by_cases hn : n = name
    · rw [if_pos (by rw [hn]), if_pos hn, hn]
    · rw [if_neg (by simpa using fun heq => hn (DomainName.routingKey_inj.1 heq)), if_neg hn]
  · intro n e he
    split at he
    · exact hentry e he
    · exact h.storable n e he
  · intro cell hcell
    rw [read_write _ htakes, if_neg (hcell name)]
    exact h.others cell hcell

/-- What is read under the key of a domain. -/
theorem read_cases (h : RoutesOver base s table) (name : DomainName) :
    (s.read (.value name.routingKey) = none ∧ table name = none) ∨
      ∃ entry, s.read (.value name.routingKey) = some (entry.encode name.routingKey) ∧
        RoutingEntry.decode (entry.encode name.routingKey) = .ok entry ∧ table name = some entry := by
  have hread := h.routes name
  cases hentry : table name with
  | none =>
    rw [hentry] at hread
    exact .inl ⟨hread, rfl⟩
  | some entry =>
    rw [hentry] at hread
    exact .inr ⟨entry, hread, RoutingEntry.decode_encode (h.storable name entry hentry) _, rfl⟩

/-- Whose entry is under the key of a domain. -/
theorem mayChange_of_read (h : RoutesOver base s table) (name : DomainName)
    (hread : s.read (.value name.routingKey) = none ∨ ∃ bytes existing,
      s.read (.value name.routingKey) = some bytes ∧ RoutingEntry.decode bytes = .ok existing ∧
        existing.owner = user) : table.MayChange user name := by
  intro entry hentry
  rcases h.read_cases name with ⟨-, hnone⟩ | ⟨stored, hstored, hdecode, hsome⟩
  · rw [hnone] at hentry
    cases hentry
  · obtain rfl : stored = entry := Option.some.inj (hsome.symm.trans hentry)
    rcases hread with hnone | ⟨bytes, existing, hbytes, hexisting, howner⟩
    · rw [hstored] at hnone
      cases hnone
    · rw [hstored, Option.some.injEq] at hbytes
      rw [← hbytes, hdecode, Except.ok.injEq] at hexisting
      rwa [hexisting]

/-- **A registration** is refused, or puts its entry where the user may. -/
theorem register (h : RoutesOver base s table) (hbase : WithoutRoutes base) {call : RouteCall}
    (hcall : ∀ user domain, call ≠ .deregister user domain) :
    (∃ e, alone call.operation s = (.error e, s)) ∨
      ∃ name entry, DomainName.parse call.domain = .ok name ∧ call.user ≠ "" ∧
        entry.owner = call.user ∧ table.MayChange call.user name ∧
        ∃ t, alone call.operation s = (.ok (), t) ∧ RoutesOver base t (table.put name (some entry)) := by
  cases hentry : call.registration? with
  | none =>
    -- the secret of a reverse tunnel could not be opened
    cases call with
    | registerForward user domain addr httpPort tlsPort => cases hentry
    | deregister user domain => exact absurd rfl (hcall user domain)
    | registerReverse auth user domain secret =>
      rcases RouteCall.registerReverse_cases auth user domain secret with
        ⟨e, hop, -⟩ | ⟨name, plain, -, -, hplain, -⟩
      · left
        show ∃ e, alone (auth.registerReverse user domain secret) s = _
        rw [hop]
        exact ⟨e, rfl⟩
      · rw [RouteCall.registration?_registerReverse, hplain] at hentry
        cases hentry
  | some entry =>
    rcases call.operation_cases with ⟨e, hop, -⟩ | ⟨name, verdict, hname, hop, hdecides⟩
    · rw [hop]
      exact .inl ⟨e, rfl⟩
    obtain ⟨hstorable, howner⟩ := hdecides.entry entry hentry
    rw [hop, claimAttempts, alone_swapRounds (h.takesValue hbase name)]
    cases hverdict : verdict (s.read (.value name.routingKey)) with
    | answer result =>
      cases result with
      | error e => exact .inl ⟨e, rfl⟩
      | ok u =>
        have hnone := (hdecides.answers _ _ hverdict).2 rfl
        rw [hentry] at hnone
        cases hnone
    | replace content =>
      obtain ⟨hcontent, hold⟩ := hdecides.replaces _ _ hverdict
      rw [hentry, Option.map_some] at hcontent
      refine .inr ⟨name, entry, hname, hdecides.user_ne, howner, h.mayChange_of_read name hold, _, rfl, ?_⟩
      rw [hcontent]
      refine h.write hbase name (some entry) ?_
      intro e he
      exact Option.some.inj he ▸ hstorable

/-- **A removal** is refused, or takes away the entry of its user. -/
theorem deregister (h : RoutesOver base s table) (hbase : WithoutRoutes base) (user domain : String) :
    ((∃ e, alone (RouteAuthority.deregister user domain) s = (.error e, s)) ∧
        ¬ (user ≠ "" ∧ ∃ name, DomainName.parse domain = .ok name ∧ table.MayChange user name)) ∨
      ∃ name, DomainName.parse domain = .ok name ∧
        ∃ t, alone (RouteAuthority.deregister user domain) s = (.ok (), t) ∧
          RoutesOver base t (table.put name none) := by
  unfold RouteAuthority.deregister
  rw [ZoneAuthority.alone_checked]
  by_cases hu : user = ""
  · rw [if_pos hu]
    exact .inl ⟨⟨_, rfl⟩, fun hmay => hmay.1 hu⟩
  rw [if_neg hu]
  cases hr : DomainName.require domain with
  | error e =>
    refine .inl ⟨⟨e, rfl⟩, ?_⟩
    rintro ⟨-, name, hd, -⟩
    rw [DomainName.require_eq_ok.2 hd] at hr
    cases hr
  | ok name =>
    have hd := DomainName.require_eq_ok.1 hr
    have htakes : s.Takes (.value name.routingKey) := h.takesValue hbase name
    have hgone := h.write hbase name none fun e he => by cases he
    simp only
    rw [claimAttempts, RouteAuthority.alone_deregisterRounds (h.takesValue hbase name)]
    rcases h.read_cases name with ⟨hread, hnone⟩ | ⟨entry, hread, hdecode, hsome⟩
    · rw [hread]
      -- there is nothing to be removed
      refine .inr ⟨name, hd, s, rfl, ?_⟩
      rwa [Option.map_none, write_eq_self _ htakes hread] at hgone
    · rw [hread]
      simp only [hdecode]
      by_cases ho : entry.owner = user
      · rw [if_neg (not_not_intro ho)]
        exact .inr ⟨name, hd, _, rfl, hgone⟩
      · rw [if_pos ho]
        refine .inl ⟨⟨_, rfl⟩, ?_⟩
        rintro ⟨-, other, hother, hmay⟩
        obtain rfl : name = other := Except.ok.inj (hd.symm.trans hother)
        exact ho (hmay entry hsome)

end RoutesOver

/-! ## Workloads -/

/-- The workload is for the route authority. -/
def Workload.IsForRoutes (w : Workload) : Prop := w.type = .proxy ∨ w.type = .reverseProxy

namespace Gateway

/-- What a workload asks of the route authority, if it decodes and asks for a route. -/
def routeCall? (g : Gateway) (w : Workload) : Option RouteCall :=
  match w.decode with
  | .ok (.proxy domain addr port portTls) => some (.registerForward w.user domain addr port portTls)
  | .ok (.reverseProxy domain secret) =>
    some (.registerReverse g.routes w.user domain (.encrypted secret))
  | _ => none

variable {g : Gateway} {w : Workload} {call : RouteCall}

theorem routeJobs_of_none (hw : w.IsForRoutes) (h : g.routeCall? w = none) :
    ∃ e, g.provisionJob w = .error e ∧ g.decommissionJob w = .error e := by
  have htype : w.type ≠ .fourToSix := by
    rcases hw with hw | hw <;> simp [hw]
  unfold routeCall? at h
  cases hdecode : w.decode with
  | error e => exact ⟨e, g.jobs_of_decode_error (fun heq => absurd heq htype) hdecode⟩
  | ok payload =>
    have hpayload := w.type_of_decode hdecode
    rw [hdecode] at h
    cases payload with
    | proxy domain addr port portTls => cases h
    | reverseProxy domain secret => cases h
    | delegate | subdomain | fourToSix =>
      rcases hw with hw | hw <;> (rw [hw] at hpayload; cases hpayload)

/-- A route is removed by its user and its domain, whatever kind of route it is. -/
theorem routeJobs_of_some (h : g.routeCall? w = some call) :
    g.provisionJob w = .ok (.store call.operation) ∧
      g.decommissionJob w = .ok (.store (RouteAuthority.deregister call.user call.domain)) ∧
      ∀ user domain, call ≠ .deregister user domain := by
  unfold routeCall? at h
  split at h
  · next domain addr port portTls hdecode =>
    cases h
    obtain ⟨hgive, hundo⟩ := g.storeJobs_of_decode hdecode ⟨rfl, rfl⟩
    exact ⟨hgive, hundo, fun _ _ => RouteCall.noConfusion⟩
  · next domain secret hdecode =>
    cases h
    obtain ⟨hgive, hundo⟩ := g.storeJobs_of_decode hdecode ⟨rfl, rfl⟩
    exact ⟨hgive, hundo, fun _ _ => RouteCall.noConfusion⟩
  · cases h

/-- The account of the workloads for the route authority: entries and their owners. -/
def routeLedger {δ : Type} (g : Gateway) (base : MemoryStore) (d : δ) :
    Ledger MemoryStore δ RouteCall RouteTable (DomainName × String) where
  request? := g.routeCall?
  Shows table s d' := RoutesOver base s table ∧ d' = d
  Has table call := call.user ≠ "" ∧ ∃ name entry, DomainName.parse call.domain = .ok name ∧
    table name = some entry ∧ entry.owner = call.user
  MayUndo table call := call.user ≠ "" ∧ ∃ name, DomainName.parse call.domain = .ok name ∧
    table.MayChange call.user name
  Owes table item := ∃ entry, table item.1 = some entry ∧ entry.owner = item.2
  Asked call item := call.user ≠ "" ∧ call.user = item.2 ∧ DomainName.parse call.domain = .ok item.1

section Batch

variable {δ : Type} [TunnelDevice δ] {base : MemoryStore}

/-- **The route authority keeps this account** on a store without routes. -/
theorem keeps_routeLedger (g : Gateway) (hbase : WithoutRoutes base) (d : δ) :
    (g.routeLedger base d).Keeps g Workload.IsForRoutes base d where
  start := by
    refine ⟨fun _ => none, ⟨.start hbase, rfl⟩, ?_⟩
    rintro item ⟨entry, hentry, -⟩
    cases hentry
  finish := by
    rintro table s d' ⟨h, rfl⟩ hnone
    rw [h.eq_of_nil hbase]
    intro name
    cases hentry : table name with
    | none => rfl
    | some entry => exact absurd ⟨entry, hentry, rfl⟩ (hnone (name, entry.owner))
  refuse := fun w hw hr => g.routeJobs_of_none hw hr
  give := by
    rintro w call table s d' hr ⟨h, rfl⟩
    obtain ⟨hgive, -, hcall⟩ := g.routeJobs_of_some hr
    rw [provision_of_store hgive]
    rcases h.register hbase hcall with ⟨e, hrun⟩ | ⟨name, entry, hd, hu, howner, hmay, t, hrun, ht⟩
    · rw [hrun]
      exact ⟨table, ⟨h, rfl⟩, fun hok => (by cases hok), fun other hhas => hhas, fun i hi => .inl hi⟩
    · rw [hrun]
      refine ⟨_, ⟨ht, rfl⟩, ?_, ?_, ?_⟩
      · exact fun _ => ⟨hu, name, entry, hd, if_pos rfl, howner⟩
      · rintro other ⟨hou, n, old, hn, hold⟩
        obtain ⟨new, hnew⟩ := RouteTable.owned_put (howner ▸ hmay) ⟨old, hold⟩
        exact ⟨hou, n, new, hn, hnew⟩
      · rintro ⟨n, user⟩ hnew
        refine (RouteTable.of_owned_put hnew).symm.imp id ?_
        rintro ⟨rfl, huser⟩
        exact ⟨hu, howner.symm.trans huser, hd⟩
  turn := by
    rintro table call ⟨hu, name, entry, hd, hentry, howner⟩
    refine ⟨hu, name, hd, fun other hother => ?_⟩
    rw [hentry, Option.some.injEq] at hother
    rwa [← hother]
  undo := by
    rintro w call table s d' hr ⟨h, rfl⟩
    obtain ⟨-, hundo, -⟩ := g.routeJobs_of_some hr
    rw [decommission_of_store hundo]
    rcases h.deregister hbase call.user call.domain with ⟨⟨e, hrun⟩, hnot⟩ | ⟨name, hd, t, hrun, ht⟩
    · rw [hrun]
      refine ⟨table, ⟨h, rfl⟩, fun hmay => absurd hmay hnot, fun other hmay => hmay, ?_⟩
      rintro ⟨n, user⟩ ⟨entry, hentry, howner⟩
      refine ⟨⟨entry, hentry, howner⟩, ?_⟩
      rintro ⟨hu, huser, hn⟩
      refine hnot ⟨hu, n, hn, fun other hother => ?_⟩
      rw [hentry, Option.some.injEq] at hother
      rw [← hother, howner, huser]
    · rw [hrun]
      refine ⟨_, ⟨ht, rfl⟩, fun _ => rfl, ?_, ?_⟩
      · rintro other ⟨hou, n, hn, hmay⟩
        exact ⟨hou, n, hn, fun entry hentry => hmay entry (RouteTable.of_put_none hentry).2⟩
      · rintro ⟨n, user⟩ ⟨entry, hentry, howner⟩
        obtain ⟨hne, hold⟩ := RouteTable.of_put_none hentry
        refine ⟨⟨entry, hold, howner⟩, ?_⟩
        rintro ⟨-, -, hn⟩
        exact hne (Except.ok.inj (hn.symm.trans hd))

/-- **A batch of routes is undone** on a store without routes. -/
theorem undone_routes (g : Gateway) (hbase : WithoutRoutes base) {workloads : List Workload}
    (h : ∀ w ∈ workloads, w.IsForRoutes) (d : δ) : g.Undone workloads base d :=
  (g.keeps_routeLedger hbase d).undone h

/-- While it stands, the device is untouched. -/
theorem device_routes (g : Gateway) (hbase : WithoutRoutes base) {workloads : List Workload}
    (h : ∀ w ∈ workloads, w.IsForRoutes) (d : δ) : (g.provisionEach workloads base d).2.2 = d := by
  obtain ⟨table, ⟨-, hd⟩, -⟩ := (g.keeps_routeLedger hbase d).shows_provisionEach h
  exact hd

end Batch

end Gateway
end GatewayControl
