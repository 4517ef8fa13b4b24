import GatewayControl.Proofs.Provision.RouteBatch
import GatewayControl.Proofs.Provision.TunnelBatch
import GatewayControl.Proofs.Provision.ZoneBatch
import GatewayControl.Proofs.Store.Interchange

/-!
# `GatewayControl.Proofs.Provision.Batch` -- a batch is fully undone

In startup order zones and addresses come first, then routes, then tunnels
(`Workload.exists_parts`). So a batch is three batches inside each other: routes are provided and removed
while the zones stand, on a store that has no routes yet, and tunnels concern the device alone. Each of
the three is undone, and so is the whole (`Gateway.batch_undone`), whichever of the two stores it runs
on.
-/

namespace GatewayControl

/-! ## The parts of a batch -/

/-- A sorted list is cut where the weights reach a bound. -/
theorem exists_append_of_pairwise {α : Type} {weight : α → Nat} (bound : Nat) {list : List α}
    (h : list.Pairwise fun a b => weight a ≤ weight b) :
    ∃ low high, list = low ++ high ∧ (∀ a ∈ low, weight a < bound) ∧ ∀ a ∈ high, bound ≤ weight a := by
  induction list with
  | nil => exact ⟨[], [], rfl, fun a ha => absurd ha List.not_mem_nil, fun a ha => absurd ha List.not_mem_nil⟩
  | cons a rest ih =>
    obtain ⟨hhead, hrest⟩ := List.pairwise_cons.1 h
    by_cases ha : weight a < bound
    · obtain ⟨low, high, rfl, hlow, hhigh⟩ := ih hrest
      refine ⟨a :: low, high, rfl, fun b hb => ?_, hhigh⟩
      rcases List.mem_cons.1 hb with rfl | hb
      · exact ha
      · exact hlow b hb
    · refine ⟨[], a :: rest, rfl, fun b hb => absurd hb List.not_mem_nil, fun b hb => ?_⟩
      rcases List.mem_cons.1 hb with rfl | hb
      · omega
      · have hle := hhead b hb
        omega

namespace Workload

theorem sortForStartup_perm (workloads : List Workload) :
    (sortForStartup workloads).Perm workloads :=
  List.mergeSort_perm workloads _

theorem position_le_trans (u v w : Workload) (huv : decide (u.type.position ≤ v.type.position) = true)
    (hvw : decide (v.type.position ≤ w.type.position) = true) :
    decide (u.type.position ≤ w.type.position) = true := by
  simp only [decide_eq_true_eq] at huv hvw ⊢
  omega

theorem position_le_total (v w : Workload) : (decide (v.type.position ≤ w.type.position) ||
    decide (w.type.position ≤ v.type.position)) = true := by
  simp only [Bool.or_eq_true, decide_eq_true_eq]
  omega

theorem pairwise_sortForStartup (workloads : List Workload) :
    (sortForStartup workloads).Pairwise fun v w => v.type.position ≤ w.type.position :=
  (List.pairwise_mergeSort position_le_trans position_le_total workloads).imp of_decide_eq_true

/-- **The startup order**: zones and addresses, then routes, then tunnels. -/
theorem exists_parts (workloads : List Workload) :
    ∃ zones routes tunnels, sortForStartup workloads = zones ++ routes ++ tunnels ∧
      (∀ w ∈ zones, w.IsForZones) ∧ (∀ w ∈ routes, w.IsForRoutes) ∧
      ∀ w ∈ tunnels, w.IsForTunnels := by
  have hsorted := pairwise_sortForStartup workloads
  obtain ⟨front, tunnels, hcut, hfront, htunnels⟩ := exists_append_of_pairwise 4 hsorted
  rw [hcut] at hsorted
  obtain ⟨zones, routes, rfl, hzones, hroutes⟩ :=
    exists_append_of_pairwise 2 (List.pairwise_append.1 hsorted).1
  refine ⟨zones, routes, tunnels, hcut, ?_, ?_, ?_⟩
  · intro w hw
    have hlt := hzones w hw
    unfold IsForZones
    revert hlt
    cases w.type <;> decide
  · intro w hw
    have hge := hroutes w hw
    have hlt := hfront w (List.mem_append_right _ hw)
    unfold IsForRoutes
    revert hge hlt
    cases w.type <;> decide
  · intro w hw
    have hge := htunnels w hw
    unfold IsForTunnels
    revert hge
    cases w.type <;> decide

end Workload

namespace Gateway

variable {g : Gateway} {d : MemoryDevice}

/-- A sorted batch is undone on the empty store in memory. -/
theorem undone_sortForStartup (hd : g.Ready d) (workloads : List Workload) :
    g.Undone (Workload.sortForStartup workloads) MemoryStore.empty d := by
  obtain ⟨zones, routes, tunnels, hparts, hzones, hroutes, htunnels⟩ := Workload.exists_parts workloads
  rw [hparts]
  obtain ⟨hcoherent, hzonesd⟩ := g.coherent_zones hzones d
  have hbase := hcoherent.withoutRoutes
  have hfront := (g.undone_zones hzones d).append (g.undone_routes hbase hroutes _)
  refine hfront.append ?_
  -- neither zones nor routes have touched the device
  have hdevice : (g.provisionEach (zones ++ routes) MemoryStore.empty d).2.2 = d := by
    rw [provisionEach_append]
    exact (g.device_routes hbase hroutes _).trans hzonesd
  rw [hdevice]
  exact g.undone_tunnels _ hd htunnels

/-! ## The other store -/

section Tables

variable {δ : Type} [TunnelDevice δ] {t : TableStore} {s : MemoryStore}

/-- A job has the same answer on both stores. -/
theorem runJob_of_represents (h : Represents t s) (job : Except GatewayError Job) (d : δ) :
    (runJob job t d).1 = (runJob job s d).1 ∧ (runJob job t d).2.2 = (runJob job s d).2.2 ∧
      Represents (runJob job t d).2.1 (runJob job s d).2.1 := by
  cases job with
  | error e => exact ⟨rfl, rfl, h⟩
  | ok job =>
    cases job with
    | store op =>
      obtain ⟨hresult, hleft⟩ := Represents.run op.run h
      have hanswer : (op.alone t).1.map (fun () => (none : Option PeerConfig)) =
          (op.alone s).1.map fun () => none := congrArg _ hresult
      exact ⟨hanswer, rfl, hleft⟩
    | device request answer => exact ⟨rfl, rfl, h⟩

theorem provisionEach_of_represents (g : Gateway) (workloads : List Workload) (h : Represents t s) (d : δ) :
    (g.provisionEach workloads t d).1 = (g.provisionEach workloads s d).1 ∧
      (g.provisionEach workloads t d).2.2 = (g.provisionEach workloads s d).2.2 ∧
      Represents (g.provisionEach workloads t d).2.1 (g.provisionEach workloads s d).2.1 := by
  induction workloads generalizing t s d with
  | nil => exact ⟨rfl, rfl, h⟩
  | cons w rest ih =>
    obtain ⟨hresult, hdevice, hleft⟩ := runJob_of_represents h (g.provisionJob w) d
    obtain ⟨hresults, hdevices, hlast⟩ := ih hleft (runJob (g.provisionJob w) t d).2.2
    simp only [provisionEach, provision]
    rw [hdevice] at hresults hdevices hlast ⊢
    exact ⟨by rw [hresult, hresults], hdevices, hlast⟩

theorem decommissionEach_of_represents (g : Gateway) (workloads : List Workload) (h : Represents t s)
    (d : δ) :
    (g.decommissionEach workloads t d).1 = (g.decommissionEach workloads s d).1 ∧
      (g.decommissionEach workloads t d).2.2 = (g.decommissionEach workloads s d).2.2 ∧
      Represents (g.decommissionEach workloads t d).2.1 (g.decommissionEach workloads s d).2.1 := by
  induction workloads generalizing t s d with
  | nil => exact ⟨rfl, rfl, h⟩
  | cons w rest ih =>
    obtain ⟨hresult, hdevice, hleft⟩ := runJob_of_represents h (g.decommissionJob w) d
    obtain ⟨hresults, hdevices, hlast⟩ := ih hleft (runJob (g.decommissionJob w) t d).2.2
    simp only [decommissionEach, decommission]
    rw [hdevice] at hresults hdevices hlast ⊢
    exact ⟨by rw [hresult, hresults], hdevices, hlast⟩

/-- What is undone in memory is undone in tables. -/
theorem Undone.of_memory {workloads : List Workload} {d : δ}
    (h : g.Undone workloads MemoryStore.empty d) : g.Undone workloads TableStore.empty d := by
  obtain ⟨hback, hanswers⟩ := h
  obtain ⟨hgiven, hdevice, hup⟩ := provisionEach_of_represents g workloads represents_empty d
  obtain ⟨htaken, hdevices, hdown⟩ := decommissionEach_of_represents g workloads.reverse hup
    (g.provisionEach workloads TableStore.empty d).2.2
  rw [hdevice] at htaken hdevices hdown
  rw [hback] at hdevices hdown
  show _ ∧ _
  rw [hdevice, hgiven, htaken]
  exact ⟨Prod.ext hdown.eq_empty hdevices, hanswers⟩

end Tables

/-! ## The whole batch -/

/-- Providing a batch and then removing all of it leaves the store and the table of peers empty. Every
workload of the batch is answered, and each one that was provided is removed without a fault. -/
def BatchUndone {σ : Type} [Backend σ] (g : Gateway) (workloads : List Workload) (empty : σ)
    (d : MemoryDevice) : Prop :=
  let given := g.provisionAll workloads empty d
  let taken := g.decommissionAll workloads given.2.1 given.2.2
  (given.1.map Prod.fst).Perm workloads ∧ taken.2.1 = empty ∧ taken.2.2.peers = ∅ ∧
    List.Forall₂ Answers given.1 taken.1.reverse

theorem Undone.batchUndone {σ : Type} [Backend σ] {workloads : List Workload} {empty : σ}
    (h : g.Undone (Workload.sortForStartup workloads) empty d) (hd : g.Ready d) :
    g.BatchUndone workloads empty d := by
  obtain ⟨hback, hanswers⟩ := h
  refine ⟨?_, congrArg Prod.fst hback, ?_, hanswers⟩
  · unfold provisionAll
    rw [map_fst_provisionEach]
    exact Workload.sortForStartup_perm workloads
  · rw [← hd.peers]
    exact congrArg (fun left => left.2.peers) hback

/-- **A batch is fully undone.** Take any workloads, of any types and users, well-formed or not, in any
order, on a node with an empty store of either kind and a device that is ready. Providing them and then
removing all of them in the reverse of the startup order leaves store and peers empty, whichever of them
succeeded, and each workload that was provided is removed without a fault. -/
theorem batch_undone (hd : g.Ready d) (workloads : List Workload) :
    g.BatchUndone workloads MemoryStore.empty d ∧ g.BatchUndone workloads TableStore.empty d := by
  have hundone := undone_sortForStartup hd workloads
  exact ⟨hundone.batchUndone hd, hundone.of_memory.batchUndone hd⟩

/-- Two users ask for one zone, and one of five payloads is malformed: three workloads are provided, and
the batch is undone. -/
theorem batch_undone_contested :
    let key : Key := ⟨List.replicate 32 7, rfl⟩
    let auth : TunnelAuthority := ⟨key, key, "gw.example.com:51820", 51820, 25⟩
    let g : Gateway := ⟨⟨key, "gw", key, key⟩, ⟨"gw", 3600⟩, ⟨.fixed [], key⟩, some auth, 30⟩
    let d := (auth.setup MemoryDevice.empty).2
    let tunnel : Workload := ⟨"1", .fourToSix, "carol", .null⟩
    let route : Workload := ⟨"2", .proxy, "alice", .object [("domain", .string "www.example.com"),
      ("addr", .string "10.0.0.1"), ("port", .number (.int 80)), ("port_tls", .number (.int 443))]⟩
    let label : Workload := ⟨"3", .subdomain, "alice", .object [("domain", .string "www.example.com"),
      ("ips", .array [.string "10.0.0.1"])]⟩
    let zone : Workload := ⟨"4", .delegate, "alice", .object [("domain", .string "example.com")]⟩
    let contested : Workload := ⟨"5", .delegate, "bob", .object [("domain", .string "EXAMPLE.com")]⟩
    g.Ready d ∧
      ((g.provisionAll [tunnel, route, label, zone, contested] TableStore.empty d).1.map fun p =>
        (p.1.id, p.2.isOk)) = [("4", true), ("5", false), ("3", true), ("2", true), ("1", false)] ∧
      g.BatchUndone [tunnel, route, label, zone, contested] MemoryStore.empty d ∧
      g.BatchUndone [tunnel, route, label, zone, contested] TableStore.empty d := by
  intro key auth g d tunnel route label zone contested
  have hd : g.Ready d := g.ready_setup auth MemoryDevice.empty
  have hsorted : Workload.sortForStartup [tunnel, route, label, zone, contested] =
      [zone, contested, label, route, tunnel] := by
    simp [Workload.sortForStartup, List.mergeSort, List.MergeSort.Internal.splitInTwo, tunnel, route,
      label, zone, contested, WorkloadType.position, WorkloadType.startupOrder]
  have hgiven : ((g.provisionEach [zone, contested, label, route, tunnel] TableStore.empty d).1.map
      fun p => (p.1.id, p.2.isOk)) =
        [("4", true), ("5", false), ("3", true), ("2", true), ("1", false)] := by
    decide +kernel
  refine ⟨hd, ?_, batch_undone hd _⟩
  unfold provisionAll
  rw [hsorted]
  exact hgiven

end Gateway
end GatewayControl
