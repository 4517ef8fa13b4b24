import GatewayControl.Proofs.Provision.Undo

/-!
# `GatewayControl.Proofs.Provision.TunnelBatch` -- a batch of tunnels is undone

The device in memory has a peer for a key only if a workload of the batch brought the key, however it
was spelled. The removal of any such workload takes the peer away, and a peer that is gone is no fault;
so all that a removal needs is a key and a device that is set up (`Gateway.Ready`).

The main statement is `Gateway.undone_tunnels`.
-/

namespace GatewayControl

/-- What a workload asks of the authority over tunnels. -/
structure TunnelRequest where
  auth : TunnelAuthority
  user : String
  publicKey : String

/-- The workload is for the authority over tunnels. -/
def Workload.IsForTunnels (w : Workload) : Prop := w.type = .fourToSix

namespace Gateway

/-- The device has no peers, and is set up if the gateway uses it. -/
structure Ready (g : Gateway) (d : MemoryDevice) : Prop where
  peers : d.peers = ∅
  up : g.tunnel.isSome = true → d.isUp = true

/-- A device that was just set up is ready. -/
theorem ready_setup (g : Gateway) (auth : TunnelAuthority) (d : MemoryDevice) :
    g.Ready (auth.setup d).2 where
  peers := rfl
  up := fun _ => rfl

/-- The device stays up while its peers change. -/
theorem Ready.isUp_of_config {g : Gateway} {d d' : MemoryDevice} (h : g.Ready d)
    (htunnel : g.tunnel.isSome = true) (hconfig : d'.config = d.config) : d'.isUp = true := by
  have hup := h.up htunnel
  unfold MemoryDevice.isUp at hup ⊢
  rwa [hconfig]

/-- What a workload asks of the authority over tunnels, if there is one and the workload decodes. -/
def tunnelRequest? (g : Gateway) (w : Workload) : Option TunnelRequest :=
  match g.tunnel, w.decode with
  | some auth, .ok (.fourToSix publicKey) => some ⟨auth, w.user, publicKey⟩
  | _, _ => none

variable {g : Gateway} {w : Workload} {r : TunnelRequest}

theorem tunnelJobs_of_none (hw : w.IsForTunnels) (h : g.tunnelRequest? w = none) :
    ∃ e, g.provisionJob w = .error e ∧ g.decommissionJob w = .error e := by
  have htype : w.type = .fourToSix := hw
  unfold tunnelRequest? at h
  cases htunnel : g.tunnel with
  | none =>
    refine ⟨.unsupported WorkloadType.fourToSix.text, ?_, ?_⟩
    · simp only [provisionJob, if_pos htype, requireTunnel, htunnel]
      rfl
    · simp only [decommissionJob, if_pos htype, requireTunnel, htunnel]
      rfl
  | some auth =>
    cases hdecode : w.decode with
    | error e => exact ⟨e, g.jobs_of_decode_error (fun _ => ⟨auth, htunnel⟩) hdecode⟩
    | ok payload =>
      have hpayload := w.type_of_decode hdecode
      rw [htype] at hpayload
      rw [htunnel, hdecode] at h
      cases payload with
      | fourToSix publicKey => cases h
      | proxy | reverseProxy | subdomain | delegate => cases hpayload

theorem tunnelJobs_of_some (h : g.tunnelRequest? w = some r) :
    g.provisionJob w =
        .ok (.device (r.auth.addRequest r.user r.publicKey) (some (r.auth.clientConfig r.user))) ∧
      g.decommissionJob w = .ok (.device (do return .remove (← Key.parse r.publicKey)) none) ∧
      g.tunnel.isSome = true := by
  unfold tunnelRequest? at h
  split at h
  · next auth publicKey htunnel hdecode =>
    cases h
    have htype : w.type = .fourToSix := (w.type_of_decode hdecode).symm
    refine ⟨?_, ?_, ?_⟩
    · simp only [provisionJob, if_pos htype, requireTunnel, htunnel, hdecode]
      rfl
    · simp only [decommissionJob, if_pos htype, requireTunnel, htunnel, hdecode]
      rfl
    · rw [htunnel]
      rfl
  · cases h

/-! ## Requests to the device -/

/-- A peer is added for the key that was brought, or nothing happens. -/
theorem carry_addRequest {d : MemoryDevice} (hup : d.isUp = true) (r : TunnelRequest) :
    (∃ e, carry (r.auth.addRequest r.user r.publicKey) d = (.error e, d)) ∨
      ∃ key peer, Key.parse r.publicKey = .ok key ∧
        carry (r.auth.addRequest r.user r.publicKey) d =
          (.ok (), { d with peers := d.peers.insert key.text peer }) := by
  unfold TunnelAuthority.addRequest
  by_cases hu : r.user = ""
  · have hrefuse : requireUser r.user = .error emptyUser := if_pos hu
    rw [hrefuse]
    exact .inl ⟨_, rfl⟩
  have hpass : requireUser r.user = .ok () := if_neg hu
  rw [hpass]
  cases hkey : Key.parse r.publicKey with
  | error e => exact .inl ⟨e, rfl⟩
  | ok key => exact .inr ⟨key, r.auth.peerUpdate r.user key, rfl, if_pos hup⟩

/-- The peer of a key is taken away, if it is a key. -/
theorem carry_remove {d : MemoryDevice} (hup : d.isUp = true) (publicKey : String) :
    (∃ e, Key.parse publicKey = .error e ∧
        carry (do return .remove (← Key.parse publicKey)) d = (.error e, d)) ∨
      ∃ key, Key.parse publicKey = .ok key ∧ carry (do return .remove (← Key.parse publicKey)) d =
        (.ok (), { d with peers := d.peers.erase key.text }) := by
  cases hkey : Key.parse publicKey with
  | error e => exact .inl ⟨e, rfl, rfl⟩
  | ok key => exact .inr ⟨key, rfl, if_pos hup⟩

/-- The account of the workloads for tunnels: the peers of the device by the texts of their keys. -/
def tunnelLedger {σ : Type} (s : σ) (d : MemoryDevice) :
    Ledger σ MemoryDevice TunnelRequest MemoryDevice String where
  request? := g.tunnelRequest?
  Shows m s' d' := s' = s ∧ d' = m ∧ m.config = d.config
  Has _ r := ∃ key, Key.parse r.publicKey = .ok key
  MayUndo _ r := ∃ key, Key.parse r.publicKey = .ok key
  Owes m text := text ∈ m.peers
  Asked r text := ∃ key, Key.parse r.publicKey = .ok key ∧ key.text = text

section Batch

variable {σ : Type} [Backend σ] {d : MemoryDevice}

/-- **The authority over tunnels keeps this account** on a device that is ready. -/
theorem keeps_tunnelLedger (g : Gateway) (s : σ) (hd : g.Ready d) :
    (g.tunnelLedger s d).Keeps g Workload.IsForTunnels s d where
  start := by
    refine ⟨d, ⟨rfl, rfl, rfl⟩, fun text hmem => ?_⟩
    change text ∈ d.peers at hmem
    rw [hd.peers] at hmem
    exact Std.ExtTreeMap.not_mem_empty hmem
  finish := by
    rintro m s' d' ⟨rfl, rfl, hconfig⟩ hnone
    have hpeers : d'.peers = d.peers := by
      rw [hd.peers]
      exact Std.ExtTreeMap.eq_empty_iff_forall_not_mem.2 hnone
    obtain ⟨config, peers⟩ := d'
    obtain rfl : config = d.config := hconfig
    obtain rfl : peers = d.peers := hpeers
    rfl
  refuse := fun w hw hr => g.tunnelJobs_of_none hw hr
  give := by
    rintro w r m s' d' hr ⟨rfl, rfl, hconfig⟩
    obtain ⟨hgive, -, htunnel⟩ := g.tunnelJobs_of_some hr
    have hup := hd.isUp_of_config htunnel hconfig
    rw [provision_of_device hgive]
    rcases carry_addRequest hup r with ⟨e, hcarry⟩ | ⟨key, peer, hkey, hcarry⟩
    · rw [hcarry]
      exact ⟨d', ⟨rfl, rfl, hconfig⟩, fun hok => (by cases hok), fun other hhas => hhas,
        fun text hmem => .inl hmem⟩
    · rw [hcarry]
      refine ⟨_, ⟨rfl, rfl, hconfig⟩, fun _ => ⟨key, hkey⟩, fun other hhas => hhas, ?_⟩
      intro text hmem
      rcases Std.ExtTreeMap.mem_insert.1 hmem with htext | hbefore
      · exact .inr ⟨key, hkey, Std.compare_eq_iff_eq.1 htext⟩
      · exact .inl hbefore
  turn := fun m r hhas => hhas
  undo := by
    rintro w r m s' d' hr ⟨rfl, rfl, hconfig⟩
    obtain ⟨-, hundo, htunnel⟩ := g.tunnelJobs_of_some hr
    have hup := hd.isUp_of_config htunnel hconfig
    rw [decommission_of_device hundo]
    rcases carry_remove hup r.publicKey with ⟨e, hkey, hcarry⟩ | ⟨key, hkey, hcarry⟩
    · rw [hcarry]
      refine ⟨d', ⟨rfl, rfl, hconfig⟩, ?_, fun other hmay => hmay, fun text hmem => ⟨hmem, ?_⟩⟩
      · rintro ⟨key, hparsed⟩
        rw [hkey] at hparsed
        cases hparsed
      · rintro ⟨key, hparsed, -⟩
        rw [hkey] at hparsed
        cases hparsed
    · rw [hcarry]
      refine ⟨_, ⟨rfl, rfl, hconfig⟩, fun _ => rfl, fun other hmay => hmay, fun text hmem => ?_⟩
      obtain ⟨hne, hbefore⟩ := Std.ExtTreeMap.mem_erase.1 hmem
      refine ⟨hbefore, ?_⟩
      rintro ⟨other, hother, htext⟩
      rw [hkey, Except.ok.injEq] at hother
      exact hne (Std.compare_eq_iff_eq.2 (hother ▸ htext))

/-- **A batch of tunnels is undone** on a device that is ready. -/
theorem undone_tunnels (g : Gateway) (s : σ) (hd : g.Ready d) {workloads : List Workload}
    (h : ∀ w ∈ workloads, w.IsForTunnels) : g.Undone workloads s d :=
  (g.keeps_tunnelLedger s hd).undone h

end Batch

end Gateway
end GatewayControl
