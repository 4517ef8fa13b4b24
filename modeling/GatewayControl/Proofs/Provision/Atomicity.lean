import GatewayControl.Proofs.Authority.Atomicity
import GatewayControl.Proofs.Provision.TunnelBatch

/-!
# `GatewayControl.Proofs.Provision.Atomicity` -- failed requests leave no trace

A job is a call on the store or a request to the device, and touches the other of the two in no case. A call
that is refused leaves the store alone (`DomainCall.failsInto_of_kind`), and the device in memory refuses
without doing anything, so a workload that is refused has changed neither
(`failed_requests_leave_no_trace`).
-/

namespace GatewayControl

open Operation

/-- The kinds of errors that lie in the request or in what its user may do, not in the store, the device or
the deadline. -/
def ErrorKind.IsRefusal : ErrorKind → Prop
  | .validation | .unauthorized | .notFound | .unsupported | .directory => True
  | .storage | .device | .timeout | .config | .json | .io => False

theorem ErrorKind.IsRefusal.ne_storage {kind : ErrorKind} (h : kind.IsRefusal) : kind ≠ .storage := by
  rintro rfl
  exact h

/-- A device in memory that refuses a request has not changed. -/
theorem MemoryDevice.eq_of_step_error {call : DeviceCall} {d d' : MemoryDevice} {e : GatewayError}
    (h : step call d = (.error e, d')) : d' = d := by
  cases call with
  | setup config => cases h
  | teardown => cases h
  | upsert peer | remove key =>
    rw [step] at h
    split at h <;> cases h
    rfl

namespace Gateway

variable {σ : Type} [Backend σ] {g : Gateway} {w : Workload}

/-- What a workload asks of the store: nothing, or one call to provide it and one to remove it, and the one to
provide it is a delegation if that is what the payload says, and else about a name. -/
theorem storeJobs_cases (g : Gateway) (w : Workload) :
    (∀ domain, w.decode ≠ .ok (.delegate domain)) ∧
        (∀ op, g.provisionJob w ≠ .ok (.store op) ∧ g.decommissionJob w ≠ .ok (.store op)) ∨
      ∃ give undo : DomainCall, g.provisionJob w = .ok (.store (give.operation g.zones.identity)) ∧
        g.decommissionJob w = .ok (.store (undo.operation g.zones.identity)) ∧
        ((∃ domain, w.decode = .ok (.delegate domain) ∧ give = .ofZone (.delegate w.user domain)) ∨
          (∀ domain, w.decode ≠ .ok (.delegate domain)) ∧ give.OnName) := by
  by_cases hw : w.IsForTunnels
  · refine .inl ⟨fun domain hdecode => ?_, fun op => ?_⟩
    · have htype := w.type_of_decode hdecode
      rw [show w.type = .fourToSix from hw] at htype
      cases htype
    · cases hr : g.tunnelRequest? w with
      | none =>
        obtain ⟨e, hgive, htake⟩ := tunnelJobs_of_none hw hr
        rw [hgive, htake]
        exact ⟨nofun, nofun⟩
      | some r =>
        obtain ⟨hgive, htake, -⟩ := tunnelJobs_of_some hr
        rw [hgive, htake]
        exact ⟨nofun, nofun⟩
  cases hdecode : w.decode with
  | error e =>
    obtain ⟨hgive, htake⟩ := g.jobs_of_decode_error (fun htype => absurd htype hw) hdecode
    rw [hgive, htake]
    exact .inl ⟨nofun, fun op => ⟨nofun, nofun⟩⟩
  | ok payload =>
    have hjobs := fun give undo => @storeJobs_of_decode g w _ hdecode give undo
    right
    cases payload with
    | fourToSix key => exact absurd (w.type_of_decode hdecode).symm hw
    | proxy domain addr port portTls =>
      obtain ⟨hgive, htake⟩ := hjobs _ _ ⟨rfl, rfl⟩
      exact ⟨.ofRoute (.registerForward w.user domain addr port portTls), .ofRoute (.deregister w.user domain),
        hgive, htake, .inr ⟨nofun, trivial⟩⟩
    | reverseProxy domain secret =>
      obtain ⟨hgive, htake⟩ := hjobs _ _ ⟨rfl, rfl⟩
      exact ⟨.ofRoute (.registerReverse g.routes w.user domain (.encrypted secret)),
        .ofRoute (.deregister w.user domain), hgive, htake, .inr ⟨nofun, trivial⟩⟩
    | subdomain domain ips =>
      obtain ⟨hgive, htake⟩ := hjobs _ _ ⟨rfl, rfl⟩
      exact ⟨.ofZone (.claim g.zones.recordTtl w.user domain ips),
        .ofZone (.release g.zones.recordTtl w.user domain ips), hgive, htake, .inr ⟨nofun, trivial⟩⟩
    | delegate domain =>
      obtain ⟨hgive, htake⟩ := hjobs _ _ ⟨rfl, rfl⟩
      exact ⟨.ofZone (.delegate w.user domain), .ofZone (.revoke w.user domain), hgive, htake,
        .inl ⟨domain, rfl, rfl⟩⟩

/-- A job of the store is a call on a zone, a label or a route. -/
theorem exists_call_of_storeJob {op : Operation Unit}
    (h : g.provisionJob w = .ok (.store op) ∨ g.decommissionJob w = .ok (.store op)) :
    ∃ call : DomainCall, op = call.operation g.zones.identity := by
  rcases g.storeJobs_cases w with ⟨-, hnone⟩ | ⟨give, undo, hgive, htake, -⟩
  · exact absurd h (not_or.2 (hnone op))
  · rw [hgive, htake] at h
    rcases h with h | h <;> cases h
    · exact ⟨give, rfl⟩
    · exact ⟨undo, rfl⟩

/-- A request that does not reach the device, or that it refuses, has not changed it. -/
theorem eq_of_carry_error {request : Except GatewayError DeviceCall} {d : MemoryDevice} {e : GatewayError}
    (h : (carry request d).1 = .error e) : (carry request d).2 = d := by
  cases request with
  | error e => rfl
  | ok call => exact MemoryDevice.eq_of_step_error (Prod.ext h rfl)

/-- **A job that is refused** has changed neither the store nor the device. -/
theorem unchanged_of_refusal (hσ : Reversible σ) {job : Except GatewayError Job}
    (hjob : ∀ op, job = .ok (.store op) → ∃ call : DomainCall, op = call.operation g.zones.identity)
    {s t : σ} {d d' : MemoryDevice} {e : GatewayError} (h : runJob job s d = (.error e, t, d'))
    (he : e.kind.IsRefusal) : t = s ∧ d' = d := by
  cases job with
  | error e' =>
    cases h
    exact ⟨rfl, rfl⟩
  | ok job =>
    cases job with
    | store op =>
      obtain ⟨call, rfl⟩ := hjob op rfl
      rcases hrun : alone (call.operation g.zones.identity) s with ⟨e' | done, u⟩
      · rw [runJob, hrun] at h
        cases h
        have hkept := call.failsInto_of_kind (P := fun e => e.kind.IsRefusal) hσ g.zones.identity
          (fun e => ErrorKind.IsRefusal.ne_storage) s e t hrun he
        exact ⟨hkept, rfl⟩
      · rw [runJob, hrun] at h
        cases h
    | device request answer =>
      rcases hcarry : (carry request d).1 with e' | done
      · have hkept := eq_of_carry_error hcarry
        simp only [runJob, hcarry, hkept] at h
        cases h
        exact ⟨rfl, rfl⟩
      · simp only [runJob, hcarry] at h
        cases h

end Gateway

/-- What callers of a gateway on such a store rely on when a request fails. A claim, a release or a change
to a route that fails for any reason has left the store as it was. A workload whose provision or removal is
refused has left the store and the device as they were. -/
structure AtomicOnError (σ : Type) [Backend σ] : Prop where
  call : ∀ (identity : String) (call : DomainCall), call.OnName → ∀ (s t : σ) e,
    alone (call.operation identity) s = (.error e, t) → t = s
  provision : ∀ (g : Gateway) (w : Workload) (s t : σ) (d d' : MemoryDevice) e,
    g.provision w s d = (.error e, t, d') → e.kind.IsRefusal → t = s ∧ d' = d
  decommission : ∀ (g : Gateway) (w : Workload) (s t : σ) (d d' : MemoryDevice) e,
    g.decommission w s d = (.error e, t, d') → e.kind.IsRefusal → t = s ∧ d' = d

theorem Reversible.atomicOnError {σ : Type} [Backend σ] (hσ : Reversible σ) : AtomicOnError σ where
  call := by
    intro identity call hname s t e h
    exact DomainCall.failsInto_of_onName (P := fun _ => True) hσ identity hname s e t h trivial
  provision := by
    intro g w s t d d' e h he
    exact Gateway.unchanged_of_refusal hσ (fun op hop => Gateway.exists_call_of_storeJob (.inl hop)) h he
  decommission := by
    intro g w s t d d' e h he
    have hrun : Gateway.runJob (g.decommissionJob w) s d =
        (.error e, t, d') := by
      unfold Gateway.decommission at h
      rcases hjob : Gateway.runJob (g.decommissionJob w) s d with ⟨e' | done, u, v⟩ <;>
        rw [hjob] at h <;> cases h
      rfl
    exact Gateway.unchanged_of_refusal hσ (fun op hop => Gateway.exists_call_of_storeJob (.inr hop)) hrun he

/-- **Failed requests leave no trace**, in either store and whatever it holds. -/
theorem failed_requests_leave_no_trace : AtomicOnError MemoryStore ∧ AtomicOnError TableStore :=
  ⟨MemoryStore.reversible.atomicOnError, TableStore.reversible.atomicOnError⟩

/-- A claim of a free label whose records cannot be read. -/
theorem failed_requests_leave_no_trace_unreadable :
    let owned := (alone (ZoneAuthority.delegate "gateway" "example.com") MemoryStore.empty).2
    let store := (MemoryStore.step (.hset "example.com." "app" [0x21]) owned).2
    let call : DomainCall := .ofZone (.claim 300 "alice" "app.example.com" [.v4 ⟨10, 0, 0, 1⟩])
    alone (call.operation "gateway") store = (.error .json, store) := by
  intro owned store call
  have hfails : (alone (call.operation "gateway") store).1 = .error .json := by
    subst owned store call
    decide +kernel
  exact Prod.ext hfails
    (failed_requests_leave_no_trace.1.call "gateway" call trivial store _ _ (Prod.ext hfails rfl))

end GatewayControl
