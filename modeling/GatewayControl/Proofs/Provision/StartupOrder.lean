import GatewayControl.Proofs.Authority.OwnerRecords
import GatewayControl.Proofs.Provision.Atomicity
import GatewayControl.Proofs.Provision.Batch

/-!
# `GatewayControl.Proofs.Provision.StartupOrder` -- a batch in startup order

The order in which a batch is provided keeps the workloads of each type in theirs
(`Workload.filter_sortForStartup`), and nothing else of the batch matters (`Workload.sortForStartup_congr`).
Each workload is provided on what the ones before it have left, whatever became of them
(`Gateway.getElem?_provisionEach`).

Delegations come first. A zone is unowned after them exactly if it was before and none of them is for it
(`Gateway.free_after`), as nothing else in a batch touches an owner record. So it does not matter where in the
batch an address stands (`Gateway.batch_in_startup_order`).
-/

namespace GatewayControl

open Operation MemoryStore

/-! ## The order -/

theorem WorkloadType.position_inj {t u : WorkloadType} (h : t.position = u.position) : t = u := by
  revert h
  cases t <;> cases u <;> decide

namespace Workload

/-- **The order is stable**: workloads of one type stay in their order. -/
theorem filter_sortForStartup (workloads : List Workload) (t : WorkloadType) :
    (sortForStartup workloads).filter (fun w => w.type = t) = workloads.filter fun w => w.type = t := by
  have hequal : (workloads.filter fun w => w.type = t).Pairwise fun v w =>
      decide (v.type.position ≤ w.type.position) = true := by
    refine List.pairwise_of_forall_mem_list fun v hv w hw => ?_
    have htype : v.type = t := of_decide_eq_true (List.mem_filter.1 hv).2
    have htype' : w.type = t := of_decide_eq_true (List.mem_filter.1 hw).2
    rw [htype, htype']
    exact decide_eq_true (Nat.le_refl _)
  have hkept := (List.sublist_mergeSort position_le_trans position_le_total hequal List.filter_sublist).filter
    fun w => w.type = t
  rw [List.filter_filter] at hkept
  simp only [Bool.and_self] at hkept
  exact (hkept.eq_of_length ((sortForStartup_perm workloads).filter _).length_eq.symm).symm

/-- Two batches in order are equal if they have the same workloads of each type, in the same order. -/
theorem eq_of_filter_eq {v w : List Workload} (hv : v.Pairwise fun a b => a.type.position ≤ b.type.position)
    (hw : w.Pairwise fun a b => a.type.position ≤ b.type.position)
    (h : ∀ t, v.filter (fun a => a.type = t) = w.filter fun a => a.type = t) : v = w := by
  -- what is in one batch is in the other
  have hmem : ∀ {v w : List Workload}, (∀ t, v.filter (fun a => a.type = t) = w.filter fun a => a.type = t) →
      ∀ a ∈ v, a ∈ w := by
    intro v w h a ha
    have hin : a ∈ v.filter fun b => b.type = a.type := List.mem_filter.2 ⟨ha, decide_eq_true rfl⟩
    rw [h] at hin
    exact List.mem_of_mem_filter hin
  induction v generalizing w with
  | nil =>
    cases w with
    | nil => rfl
    | cons b w => exact absurd (hmem (fun t => (h t).symm) b List.mem_cons_self) List.not_mem_nil
  | cons a v ih =>
    cases w with
    | nil => exact absurd (hmem h a List.mem_cons_self) List.not_mem_nil
    | cons b w =>
      obtain ⟨hhead, hrest⟩ := List.pairwise_cons.1 hv
      obtain ⟨hhead', hrest'⟩ := List.pairwise_cons.1 hw
      -- the first of one batch is not before the first of the other
      have hle : b.type.position ≤ a.type.position := by
        rcases List.mem_cons.1 (hmem h a List.mem_cons_self) with rfl | ha
        · exact Nat.le_refl _
        · exact hhead' a ha
      have hle' : a.type.position ≤ b.type.position := by
        rcases List.mem_cons.1 (hmem (fun t => (h t).symm) b List.mem_cons_self) with rfl | hb
        · exact Nat.le_refl _
        · exact hhead b hb
      have htype : a.type = b.type := WorkloadType.position_inj (Nat.le_antisymm hle' hle)
      have hfirst := h a.type
      rw [List.filter_cons, List.filter_cons, if_pos (decide_eq_true rfl),
        if_pos (decide_eq_true htype.symm)] at hfirst
      obtain ⟨rfl, -⟩ := List.cons.inj hfirst
      refine congrArg (a :: ·) (ih hrest hrest' fun t => ?_)
      have ht := h t
      rw [List.filter_cons, List.filter_cons] at ht
      split at ht
      · exact (List.cons.inj ht).2
      · exact ht

/-- The order depends on nothing but the workloads of each type in their order. -/
theorem sortForStartup_congr {v w : List Workload}
    (h : ∀ t, v.filter (fun a => a.type = t) = w.filter fun a => a.type = t) :
    sortForStartup v = sortForStartup w := by
  refine eq_of_filter_eq (pairwise_sortForStartup v) (pairwise_sortForStartup w) fun t => ?_
  rw [filter_sortForStartup, filter_sortForStartup, h]

/-- The domain of an address that decodes is the text of a name. -/
theorem exists_name_of_decode {w : Workload} {domain : String} {ips : List Ip}
    (h : w.decode = .ok (.subdomain domain ips)) : ∃ name, DomainName.parse domain = .ok name := by
  have htype : w.type = .subdomain := (w.type_of_decode h).symm
  unfold decode at h
  rw [htype] at h
  obtain ⟨⟨domain, ips, ⟨⟩⟩, -, h⟩ := Except.bind_eq_ok.1 h
  obtain ⟨name, hname, h⟩ := Except.bind_eq_ok.1 h
  obtain ⟨ips, -, h⟩ := Except.bind_eq_ok.1 h
  cases h
  exact ⟨name, DomainName.require_eq_ok.1 hname⟩

/-- The workload asks for the zone, decodes and has a user. -/
def AsksFor (zone : DomainName) (w : Workload) : Prop :=
  ∃ domain, w.decode = .ok (.delegate domain) ∧ w.user ≠ "" ∧ DomainName.parse domain = .ok zone

end Workload

namespace Gateway

/-! ## One after the other -/

section Runs

variable {σ δ : Type} [Backend σ] [TunnelDevice δ] {g : Gateway} {w : Workload} {before after : List Workload}

/-- The store and the device that workloads leave which are provided one after the other. -/
def leftBy (g : Gateway) (workloads : List Workload) (s : σ) (d : δ) : σ × δ :=
  workloads.foldl (fun left w => (g.provision w left.1 left.2).2) (s, d)

theorem snd_provisionEach (g : Gateway) (workloads : List Workload) (s : σ) (d : δ) :
    (g.provisionEach workloads s d).2 = g.leftBy workloads s d := by
  induction workloads generalizing s d with
  | nil => rfl
  | cons w rest ih => exact ih (g.provision w s d).2.1 (g.provision w s d).2.2

/-- **Each workload is answered** by its provision on what the ones before it have left. -/
theorem getElem?_provisionEach (g : Gateway) (before : List Workload) (w : Workload) (after : List Workload)
    (s : σ) (d : δ) : (g.provisionEach (before ++ w :: after) s d).1[before.length]? =
      some (w, (g.provision w (g.leftBy before s d).1 (g.leftBy before s d).2).1) := by
  have hlength : (g.provisionEach before s d).1.length = before.length := by
    rw [← List.length_map Prod.fst, map_fst_provisionEach]
  rw [provisionEach_append, ← snd_provisionEach]
  dsimp only
  rw [List.getElem?_append_right (by rw [hlength]), hlength, Nat.sub_self]
  rfl

/-- An answer belongs to a workload, and to the ones before it. -/
theorem exists_of_mem_provisionEach {workloads : List Workload} {s : σ} {d : δ} {given : Provided}
    (h : given ∈ (g.provisionEach workloads s d).1) : ∃ before after,
      workloads = before ++ given.1 :: after ∧
        given.2 = (g.provision given.1 (g.leftBy before s d).1 (g.leftBy before s d).2).1 := by
  obtain ⟨i, hi, hgiven⟩ := List.mem_iff_getElem.1 h
  have hfst := map_fst_provisionEach g workloads s d
  have hlength : i < workloads.length := by
    rw [← hfst, List.length_map]
    exact hi
  have hworkload : workloads[i] = given.1 := by
    rw [← hgiven]
    exact (List.getElem_of_eq hfst.symm hlength).trans (List.getElem_map ..)
  have hsplit : workloads = workloads.take i ++ given.1 :: workloads.drop (i + 1) := by
    rw [← hworkload, ← List.drop_eq_getElem_cons, List.take_append_drop]
  refine ⟨_, _, hsplit, ?_⟩
  have hanswer := g.getElem?_provisionEach (workloads.take i) given.1 (workloads.drop (i + 1)) s d
  rw [← hsplit, List.length_take_of_le hlength.le, List.getElem?_eq_getElem hi, hgiven] at hanswer
  exact congrArg Prod.snd (Option.some.inj hanswer)

end Runs

/-! ## Zones first -/

section Zones

variable {δ : Type} [TunnelDevice δ] {g : Gateway} {w : Workload} {s : MemoryStore} {d : δ}
  {zone : DomainName}

/-- What a workload does to the store: it is a delegation, or does nothing or a call on a name or a route. -/
theorem store_provision (g : Gateway) (w : Workload) (s : MemoryStore) (d : δ) :
    (∃ domain, w.decode = .ok (.delegate domain) ∧
        (g.provision w s d).2.1 = (alone (ZoneAuthority.delegate w.user domain) s).2) ∨
      (∀ domain, w.decode ≠ .ok (.delegate domain)) ∧ ((g.provision w s d).2.1 = s ∨
        ∃ call : DomainCall, call.OnName ∧
          (g.provision w s d).2.1 = (alone (call.operation g.zones.identity) s).2) := by
  rcases g.storeJobs_cases w with ⟨hother, hnone⟩ | ⟨give, -, hgive, -, hcall⟩
  · refine .inr ⟨hother, .inl ?_⟩
    rcases hjob : g.provisionJob w with e | ⟨op⟩ | ⟨request, answer⟩
    · rw [provision_of_error hjob]
    · exact absurd hjob (hnone op).1
    · rw [provision_of_device hjob]
  · rw [provision_of_store hgive]
    rcases hcall with ⟨domain, hdecode, rfl⟩ | ⟨hother, hname⟩
    · exact .inl ⟨domain, hdecode, rfl⟩
    · exact .inr ⟨hother, .inr ⟨give, hname, rfl⟩⟩

/-- **One workload** leaves all owner records readable, and a zone unowned if it was and is not asked for. -/
theorem owners_provision (g : Gateway) (w : Workload) (d : δ) (h : s.OwnersReadable) :
    (g.provision w s d).2.1.OwnersReadable ∧ ∀ zone, (g.provision w s d).2.1.OwnedBy zone "" ↔
      s.OwnedBy zone "" ∧ ¬ w.AsksFor zone := by
  rcases g.store_provision w s d with ⟨domain, hdecode, hstore⟩ | ⟨hother, hstore⟩
  · have hasks : ∀ zone, w.AsksFor zone ↔ w.user ≠ "" ∧ DomainName.parse domain = .ok zone := by
      refine fun zone => ⟨?_, fun hasks => ⟨domain, hdecode, hasks⟩⟩
      rintro ⟨domain', hdecode', hasks⟩
      rw [hdecode] at hdecode'
      cases hdecode'
      exact hasks
    rw [hstore]
    refine ⟨DomainCall.ownersReadable_operation g.zones.identity (.ofZone (.delegate w.user domain)) h,
      fun zone => ?_⟩
    rw [hasks]
    exact ownedBy_empty_delegate_iff h
  · have hnot : ∀ zone, ¬ w.AsksFor zone := by
      rintro zone ⟨domain, hdecode, -⟩
      exact hother domain hdecode
    rcases hstore with hsame | ⟨call, hname, hcall⟩
    · rw [hsame]
      exact ⟨h, fun zone => (and_iff_left (hnot zone)).symm⟩
    · rw [hcall]
      refine ⟨call.ownersReadable_operation g.zones.identity h, fun zone => ?_⟩
      exact (DomainCall.ownedBy_operation_iff g.zones.identity (.inl hname)).trans
        (and_iff_left (hnot zone)).symm

/-- **Some workloads** leave a zone unowned if it was and none of them asks for it. -/
theorem free_after (g : Gateway) (workloads : List Workload) (d : δ) (h : s.OwnersReadable) :
    (g.leftBy workloads s d).1.OwnersReadable ∧ ∀ zone, (g.leftBy workloads s d).1.OwnedBy zone "" ↔
      s.OwnedBy zone "" ∧ ∀ w ∈ workloads, ¬ w.AsksFor zone := by
  induction workloads generalizing s d with
  | nil =>
    exact ⟨h, fun zone => ⟨fun hfree => ⟨hfree, fun w hw => absurd hw List.not_mem_nil⟩, And.left⟩⟩
  | cons w rest ih =>
    obtain ⟨hreadable, hfirst⟩ := g.owners_provision w d h
    obtain ⟨hlast, hrest⟩ := ih (g.provision w s d).2.2 hreadable
    refine ⟨hlast, fun zone => (hrest zone).trans ?_⟩
    rw [hfirst, List.forall_mem_cons, and_assoc]

/-- An address is refused for want of its zone exactly if nobody owns the zone. -/
theorem notFound_provision_iff {domain : String} {ips : List Ip} {name : DomainName}
    (hdecode : w.decode = .ok (.subdomain domain ips)) (hu : w.user ≠ "") (hips : ips ≠ [])
    (hd : DomainName.parse domain = .ok name) (h : s.OwnersReadable) (d : δ) :
    (∃ e, (g.provision w s d).1 = .error e ∧ e.kind = .notFound) ↔ s.OwnedBy name.zone "" := by
  obtain ⟨owner, howner⟩ := h name.zone
  have hjobs := g.storeJobs_of_decode hdecode ⟨rfl, rfl⟩
  have hclaim := ZoneAuthority.claim_notFound_iff g.zones hu hd hips howner
  have hanswer : ∀ e, (g.provision w s d).1 = .error e ↔
      (alone (g.zones.claim w.user domain ips) s).1 = .error e := by
    intro e
    rw [provision_of_store hjobs.1]
    cases (alone (g.zones.claim w.user domain ips) s).1 with
    | error e' => exact ⟨fun h => by cases h; rfl, fun h => by cases h; rfl⟩
    | ok done => exact iff_of_false nofun nofun
  simp only [hanswer]
  exact hclaim.trans ⟨fun hfree => hfree ▸ howner, fun hfree => howner.owner_eq hfree⟩

/-- An address of a batch is refused for want of its zone exactly if nobody owned the zone before the batch
and no workload of the batch asks for it: those that do all come before the address. -/
theorem notFound_provisionAll_iff (h : s.OwnersReadable) {workloads : List Workload} {given : Provided}
    (hgiven : given ∈ (g.provisionAll workloads s d).1) {domain : String} {ips : List Ip} {name : DomainName}
    (hdecode : given.1.decode = .ok (.subdomain domain ips)) (hu : given.1.user ≠ "") (hips : ips ≠ [])
    (hd : DomainName.parse domain = .ok name) :
    (∃ e, given.2 = .error e ∧ e.kind = .notFound) ↔
      s.ownerOf name.zone = some "" ∧ ∀ w ∈ workloads, ¬ w.AsksFor name.zone := by
  obtain ⟨before, after, hsplit, hanswer⟩ := exists_of_mem_provisionEach hgiven
  obtain ⟨hreadable, hfree⟩ := g.free_after before d h
  rw [hanswer, notFound_provision_iff hdecode hu hips hd hreadable, hfree, h.ownedBy_iff]
  refine and_congr_right fun _ => ⟨fun hbefore w hw hasks => ?_, fun hall w hw => ?_⟩
  · obtain ⟨zone, hzone, -⟩ := id hasks
    have hin := (Workload.sortForStartup_perm workloads).mem_iff.2 hw
    rw [hsplit] at hin
    rcases List.mem_append.1 hin with hin | hin
    · exact hbefore w hin hasks
    rcases List.mem_cons.1 hin with rfl | hin
    · rw [hdecode] at hzone
      cases hzone
    · -- a delegation does not come after an address
      have hsorted := Workload.pairwise_sortForStartup workloads
      rw [hsplit] at hsorted
      have hle := (List.pairwise_cons.1 (List.pairwise_append.1 hsorted).2.1).1 w hin
      rw [← given.1.type_of_decode hdecode, ← w.type_of_decode hzone] at hle
      have hlt : ¬ WorkloadType.subdomain.position ≤ WorkloadType.delegate.position := by decide
      exact absurd hle hlt
  · refine hall w ((Workload.sortForStartup_perm workloads).mem_iff.1 ?_)
    rw [hsplit]
    exact List.mem_append_left _ hw

end Zones

/-- **A batch in startup order.** The order is a permutation of the batch, by the positions of the types, in
which workloads of one type stay in their order. On any store and device, each workload is answered once, in
this order, as its provision answers on what the ones before it have left, whatever became of them. So batches
with the same workloads of each type, in the same order, have the same answers and leave the same store and
device. Take a store that calls of any kind at one gateway have made of the empty one. An address that decodes
and has a user and addresses is refused for want of its zone exactly if nobody owned the zone before the batch
and no workload of the batch that decodes and has a user asks for it, wherever they stand. In tables that stand
for the store the answers are the same. -/
theorem batch_in_startup_order (g : Gateway) (workloads : List Workload) :
    let sorted := Workload.sortForStartup workloads
    (sorted.Perm workloads ∧ (sorted.Pairwise fun v w => v.type.position ≤ w.type.position) ∧
      ∀ t, sorted.filter (fun w => w.type = t) = workloads.filter fun w => w.type = t) ∧
    (∀ {σ δ : Type} [Backend σ] [TunnelDevice δ] (s : σ) (d : δ),
      let given := g.provisionAll workloads s d
      given.1.map Prod.fst = sorted ∧ given.2 = g.leftBy sorted s d ∧
      (∀ before w after, sorted = before ++ w :: after → given.1[before.length]? =
        some (w, (g.provision w (g.leftBy before s d).1 (g.leftBy before s d).2).1)) ∧
      ∀ others, (∀ t, others.filter (fun w => w.type = t) = workloads.filter fun w => w.type = t) →
        g.provisionAll others s d = given) ∧
    ∀ {δ : Type} [TunnelDevice δ] (identity : String) (history : List DomainCall) (d : δ),
      let s := historyStore identity history
      (∀ given ∈ (g.provisionAll workloads s d).1, ∀ domain ips,
        given.1.decode = .ok (.subdomain domain ips) → given.1.user ≠ "" → ips ≠ [] →
        ∃ name, DomainName.parse domain = .ok name ∧ ((∃ e, given.2 = .error e ∧ e.kind = .notFound) ↔
          s.ownerOf name.zone = some "" ∧ ∀ w ∈ workloads, ¬ w.AsksFor name.zone)) ∧
      ∀ rows : TableStore, Represents rows s →
        (g.provisionAll workloads rows d).1 = (g.provisionAll workloads s d).1 := by
  intro sorted
  refine ⟨⟨Workload.sortForStartup_perm workloads, Workload.pairwise_sortForStartup workloads,
    Workload.filter_sortForStartup workloads⟩, fun s d => ⟨?_, ?_, fun before w after hsplit => ?_,
    fun others hsame => ?_⟩, fun identity history d => ⟨fun given hgiven domain ips hdecode hu hips => ?_,
    fun rows hrows => ?_⟩⟩
  · exact g.map_fst_provisionEach sorted s d
  · exact g.snd_provisionEach sorted s d
  · unfold provisionAll
    rw [show Workload.sortForStartup workloads = _ from hsplit]
    exact g.getElem?_provisionEach before w after s d
  · unfold provisionAll
    rw [Workload.sortForStartup_congr hsame]
  · obtain ⟨name, hd⟩ := Workload.exists_name_of_decode hdecode
    exact ⟨name, hd, notFound_provisionAll_iff (ownersReadable_history identity history) hgiven hdecode hu hips
      hd⟩
  · exact (g.provisionEach_of_represents sorted hrows d).1

/-- An address that stands before the delegation of its zone is provided after it, and finds the zone. -/
theorem batch_in_startup_order_address_first :
    let key : Key := ⟨List.replicate 32 7, rfl⟩
    let g : Gateway := ⟨⟨key, "gw", key, key⟩, ⟨"gw", 3600⟩, ⟨.fixed [], key⟩, none, 30⟩
    let label : Workload := ⟨"1", .subdomain, "alice", .object [("domain", .string "app.example.com"),
      ("ips", .array [.string "10.0.0.1"])]⟩
    let zone : Workload := ⟨"2", .delegate, "alice", .object [("domain", .string "example.com")]⟩
    let s := historyStore "gw" [.ofZone (.delegate "bob" "example.org")]
    ∃ result, (g.provisionAll [label, zone] s MemoryDevice.empty).1[1]? = some (label, result) ∧
      ¬ ∃ e, result = .error e ∧ e.kind = .notFound := by
  intro key g label zone s
  have hsorted : Workload.sortForStartup [label, zone] = [zone] ++ label :: [] := by
    simp [Workload.sortForStartup, List.mergeSort, List.MergeSort.Internal.splitInTwo, label, zone,
      WorkloadType.position, WorkloadType.startupOrder]
  have hdecode : label.decode = .ok (.subdomain "app.example.com" [.v4 ⟨10, 0, 0, 1⟩]) := rfl
  obtain ⟨-, hruns, hzones⟩ := g.batch_in_startup_order [label, zone]
  obtain ⟨-, -, hanswers, -⟩ := hruns s MemoryDevice.empty
  have hanswer := hanswers [zone] label [] hsorted
  refine ⟨_, hanswer, fun hlost => ?_⟩
  obtain ⟨name, hd, hiff⟩ := (hzones "gw" [.ofZone (.delegate "bob" "example.org")] MemoryDevice.empty).1 _
    (List.mem_of_getElem? hanswer) _ _ hdecode (by decide) (List.cons_ne_nil _ _)
  have hname : name = .sample := by
    have htext : DomainName.sample.text = "app.example.com" := by decide +kernel
    rw [← htext, DomainName.parse_text] at hd
    exact (Except.ok.inj hd).symm
  have hasks : zone.AsksFor name.zone :=
    ⟨"example.com", rfl, by decide, hname ▸ DomainName.parse_sample_zone⟩
  exact (hiff.1 hlost).2 zone (List.mem_cons_of_mem _ List.mem_cons_self) hasks

end Gateway
end GatewayControl
