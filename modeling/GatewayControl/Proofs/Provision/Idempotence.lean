import GatewayControl.Proofs.Authority.Idempotence
import GatewayControl.Proofs.Provision.Atomicity
import GatewayControl.Proofs.Provision.Batch

/-!
# `GatewayControl.Proofs.Provision.Idempotence` -- workloads that are there, or gone, already

Providing a workload once more is no fault and changes nothing, and neither does removing it once more
(`Gateway.provisioning_idempotent`). What a workload asks of the store is a call that is idempotent
(`DomainCall.idempotent_operation`), and a device that has carried out a request carries it out again with the
same peers (`MemoryDevice.step_again`). In tables the same rows are left, as the tables stand for a store in
memory both times.
-/

namespace GatewayControl

open Operation

theorem TextMap.insert_insert {α : Type} (map : TextMap α) (key : String) (value : α) :
    (map.insert key value).insert key value = map.insert key value := by
  refine Std.ExtTreeMap.ext_getElem? fun text => ?_
  rw [Std.ExtTreeMap.getElem?_insert]
  split
  · next heq => rw [Std.ExtTreeMap.getElem?_insert, if_pos heq]
  · rfl

theorem TextMap.erase_erase {α : Type} (map : TextMap α) (key : String) :
    (map.erase key).erase key = map.erase key := by
  refine Std.ExtTreeMap.ext_getElem? fun text => ?_
  rw [Std.ExtTreeMap.getElem?_erase]
  split
  · next heq => rw [Std.ExtTreeMap.getElem?_erase, if_pos heq]
  · rfl

/-- **A device that has carried out a request** carries it out again, and stays as it is. -/
theorem MemoryDevice.step_again {call : DeviceCall} {d d' : MemoryDevice}
    (h : step call d = (.ok (), d')) : step call d' = (.ok (), d') := by
  cases call with
  | setup config | teardown =>
    cases h
    rfl
  | upsert peer =>
    rw [step] at h
    split at h
    · next hup =>
      cases h
      refine (if_pos hup).trans ?_
      simp only [TextMap.insert_insert]
    · cases h
  | remove key =>
    rw [step] at h
    split at h
    · next hup =>
      cases h
      refine (if_pos hup).trans ?_
      simp only [TextMap.erase_erase]
    · cases h

namespace Gateway

variable {g : Gateway} {w : Workload} {job : Except GatewayError Job} {s t : MemoryStore}
  {d e : MemoryDevice}

theorem carry_again {request : Except GatewayError DeviceCall} (h : carry request d = (.ok (), e)) :
    carry request e = (.ok (), e) := by
  cases request with
  | error fault => cases h
  | ok call => exact MemoryDevice.step_again h

/-- A job is done again without an effect if its operation is idempotent. -/
theorem runJob_again (hjob : ∀ op, job = .ok (.store op) → Idempotent op) {o : Option PeerConfig}
    (h : runJob job s d = (.ok o, t, e)) : runJob job t e = (.ok o, t, e) := by
  cases job with
  | error fault => cases h
  | ok job =>
    cases job with
    | store op =>
      rcases hop : alone op s with ⟨fault | ⟨⟩, u⟩
      · simp only [runJob, hop] at h
        cases h
      · simp only [runJob, hop] at h
        cases h
        simp only [runJob, hjob op rfl s () _ hop]
        rfl
    | device request answer =>
      rcases hcarry : carry request d with ⟨fault | ⟨⟩, d'⟩
      · simp only [runJob, hcarry] at h
        cases h
      · simp only [runJob, hcarry] at h
        cases h
        simp only [runJob, carry_again hcarry]
        rfl

/-- In tables that stand for the store, the job leaves the same rows. -/
theorem runJob_again_tables (hjob : ∀ op, job = .ok (.store op) → Idempotent op) {o : Option PeerConfig}
    {rows rows' : TableStore} (hrows : Represents rows s) (h : runJob job rows d = (.ok o, rows', e)) :
    ∃ rows'', runJob job rows' e = (.ok o, rows'', e) ∧ TableStore.SameRows rows'' rows' := by
  obtain ⟨hresult, hdevice, hleft⟩ := runJob_of_represents hrows job d
  rw [h] at hresult hdevice hleft
  have hmemory : runJob job s d = (.ok o, (runJob job s d).2.1, e) :=
    Prod.ext hresult.symm (Prod.ext rfl hdevice.symm)
  have hagain := runJob_again hjob hmemory
  obtain ⟨hresult', hdevice', hleft'⟩ := runJob_of_represents hleft job e
  rw [hagain] at hresult' hdevice' hleft'
  exact ⟨_, Prod.ext hresult' (Prod.ext rfl hdevice'), _, hleft', hleft⟩

theorem decommission_eq_ok {σ : Type} [Backend σ] {s t : σ} :
    g.decommission w s d = (.ok (), t, e) ↔ ∃ o, runJob (g.decommissionJob w) s d = (.ok o, t, e) := by
  unfold decommission
  rcases runJob (g.decommissionJob w) s d with ⟨fault | o, t', e'⟩
  · simp [Except.map]
  · simp [Except.map]

/-- What was provided is provided again with the same answer, what was removed is removed again, and store
and device are left as they are. -/
structure IdempotentOn {σ : Type} [Backend σ] (Same : σ → σ → Prop) (g : Gateway) (w : Workload) (s : σ)
    (d : MemoryDevice) : Prop where
  provision : ∀ o t e, g.provision w s d = (.ok o, t, e) →
    ∃ u, g.provision w t e = (.ok o, u, e) ∧ Same u t
  decommission : ∀ t e, g.decommission w s d = (.ok (), t, e) →
    ∃ u, g.decommission w t e = (.ok (), u, e) ∧ Same u t

/-- What a workload asks of the store is idempotent. -/
theorem idempotent_of_storeJob {op : Operation Unit}
    (h : g.provisionJob w = .ok (.store op) ∨ g.decommissionJob w = .ok (.store op)) : Idempotent op := by
  obtain ⟨call, rfl⟩ := exists_call_of_storeJob h
  exact call.idempotent_operation g.zones.identity

/-- **Providing and removing are idempotent.** Take any gateway, with or without tunnels, any workload of any
user, well-formed or not, any store, whatever it holds, and any device in memory. If the workload is provided,
providing it again gives the same answer, and the same store and peers; if it is removed, so does removing it
again. In tables that stand for a store the rows stay the same. -/
theorem provisioning_idempotent (g : Gateway) (w : Workload) (s : MemoryStore) (d : MemoryDevice) :
    g.IdempotentOn (· = ·) w s d ∧
      ∀ rows : TableStore, Represents rows s → g.IdempotentOn TableStore.SameRows w rows d := by
  have hgive : ∀ op, g.provisionJob w = .ok (.store op) → Idempotent op :=
    fun op hop => idempotent_of_storeJob (.inl hop)
  have htake : ∀ op, g.decommissionJob w = .ok (.store op) → Idempotent op :=
    fun op hop => idempotent_of_storeJob (.inr hop)
  refine ⟨⟨fun o t e h => ⟨t, runJob_again hgive h, rfl⟩, fun t e h => ⟨t, ?_, rfl⟩⟩,
    fun rows hrows => ⟨fun o rows' e h => runJob_again_tables hgive hrows h, fun rows' e h => ?_⟩⟩
  · obtain ⟨o, hrun⟩ := decommission_eq_ok.1 h
    exact decommission_eq_ok.2 ⟨o, runJob_again htake hrun⟩
  · obtain ⟨o, hrun⟩ := decommission_eq_ok.1 h
    obtain ⟨rows'', hagain, hsame⟩ := runJob_again_tables htake hrows hrun
    exact ⟨rows'', decommission_eq_ok.2 ⟨o, hagain⟩, hsame⟩

/-- A label that nobody has claimed holds an address twice, with two times to live, and records of another type.
Alice is given it with that address in its other form. -/
theorem provisioning_idempotent_on_leftovers :
    let key : Key := ⟨List.replicate 32 7, rfl⟩
    let g : Gateway := ⟨⟨key, "gw", key, key⟩, ⟨"gw", 3600⟩, ⟨.fixed [], key⟩, none, 30⟩
    let w : Workload := ⟨"1", .subdomain, "alice", .object [("domain", .string "app.example.com"),
      ("ips", .array [.string "::ffff:10.0.0.1", .string "10.0.0.2", .string "10.0.0.2"])]⟩
    let leftovers : Operation Unit := do
      ZoneAuthority.delegate "gw" "example.com"
      hset "example.com." "app" (Bytes.ofText ("\x7b\"a\":[\x7b\"ip\":\"10.0.0.1\",\"ttl\":60\x7d," ++
        "\x7b\"ip\":\"10.0.0.1\",\"ttl\":70\x7d],\"mx\":[1.50]\x7d"))
    let s := (alone leftovers MemoryStore.empty).2
    let rows := (alone leftovers TableStore.empty).2
    let given := g.provision w s MemoryDevice.empty
    let taken := g.decommission w given.2.1 given.2.2
    let stored := g.provision w rows MemoryDevice.empty
    given.1 = .ok none ∧ given.2.1.labelClaimant .sample = some "alice" ∧
      g.provision w given.2.1 given.2.2 = given ∧
      taken.1 = .ok () ∧ g.decommission w taken.2.1 taken.2.2 = taken ∧
      ∃ u, g.provision w stored.2.1 stored.2.2 = (.ok none, u, stored.2.2) ∧ u.SameRows stored.2.1 := by
  intro key g w leftovers s rows given taken stored
  have hgiven : given.1 = .ok none := by decide +kernel
  have htaken : taken.1 = .ok () := by decide +kernel
  have hrows : Represents rows s := (represents_empty.run leftovers.run).2
  have hstored : stored.1 = .ok none :=
    (runJob_of_represents hrows (g.provisionJob w) MemoryDevice.empty).1.trans hgiven
  have hparts : ∀ {α β : Type} (p : Except GatewayError α × β × MemoryDevice) {a : α}, p.1 = .ok a →
      p = (.ok a, p.2.1, p.2.2) := fun p a hp => Prod.ext hp rfl
  obtain ⟨u, hagain, hu⟩ := (provisioning_idempotent g w s MemoryDevice.empty).1.provision _ _ _
    (hparts given hgiven)
  obtain ⟨v, hgone, hv⟩ := (provisioning_idempotent g w given.2.1 given.2.2).1.decommission _ _
    (hparts taken htaken)
  have htables := (provisioning_idempotent g w s MemoryDevice.empty).2 rows hrows
  rw [hu] at hagain
  rw [hv] at hgone
  exact ⟨hgiven, by decide +kernel, hagain.trans (hparts given hgiven).symm, htaken,
    hgone.trans (hparts taken htaken).symm, htables.provision _ _ _ (hparts stored hstored)⟩

end Gateway
end GatewayControl
