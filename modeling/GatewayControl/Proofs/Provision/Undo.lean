import GatewayControl.Proofs.Except
import GatewayControl.Provision
import Mathlib.Data.List.Forall2

/-!
# `GatewayControl.Proofs.Provision.Undo` -- providing workloads and removing them in reverse

`Undone` is what a batch owes to whoever provides it and then removes it in the reverse order: store
and device are as before, and each removal answers its provision (`Answers`): a workload that was
provided is removed without a fault, whatever became of the others.

Batches are put together by `Undone.append`: what is provided last is removed first. The argument for
a batch of one kind keeps account of the workloads that are still to be removed, as a stack (`Ledger`).
On the way up, whoever was given something has it. On the way down that is no longer so, as one removal
can take with it what another workload was given too; but each may still be removed, and whatever there
is was asked for by a workload on the stack, so that nothing is left when the stack is empty.
`Ledger.Keeps.undone` is the induction over the batch.

What a workload is to an authority depends on its payload alone; `storeJobs_of_decode` names the pair of
operations of each payload, the one that provides it and the one that removes it.
-/

namespace GatewayControl
namespace Gateway

/-- A workload with the answer to its provision. -/
abbrev Provided := Workload × Except GatewayError (Option PeerConfig)

/-- A workload with the answer to its removal. -/
abbrev Removed := Workload × Except GatewayError Unit

/-- The removal is of the workload that was provided, and without a fault if the provision was. -/
def Answers (given : Provided) (taken : Removed) : Prop :=
  taken.1 = given.1 ∧ (given.2.isOk = true → taken.2 = .ok ())

section Undone

variable {σ δ : Type} [Backend σ] [TunnelDevice δ] {g : Gateway} {v w : List Workload} {s : σ} {d : δ}

/-- Workloads provided in this order and removed in the reverse order leave nothing behind, and each
removal answers its provision. -/
def Undone (g : Gateway) (workloads : List Workload) (s : σ) (d : δ) : Prop :=
  let given := g.provisionEach workloads s d
  let taken := g.decommissionEach workloads.reverse given.2.1 given.2.2
  taken.2 = (s, d) ∧ List.Forall₂ Answers given.1 taken.1.reverse

theorem provisionEach_append (g : Gateway) (v w : List Workload) (s : σ) (d : δ) :
    g.provisionEach (v ++ w) s d =
      ((g.provisionEach v s d).1 ++
          (g.provisionEach w (g.provisionEach v s d).2.1 (g.provisionEach v s d).2.2).1,
        (g.provisionEach w (g.provisionEach v s d).2.1 (g.provisionEach v s d).2.2).2) := by
  induction v generalizing s d with
  | nil => rfl
  | cons x v ih =>
    simp only [List.cons_append, provisionEach]
    rw [ih]

theorem decommissionEach_append (g : Gateway) (v w : List Workload) (s : σ) (d : δ) :
    g.decommissionEach (v ++ w) s d =
      ((g.decommissionEach v s d).1 ++
          (g.decommissionEach w (g.decommissionEach v s d).2.1 (g.decommissionEach v s d).2.2).1,
        (g.decommissionEach w (g.decommissionEach v s d).2.1 (g.decommissionEach v s d).2.2).2) := by
  induction v generalizing s d with
  | nil => rfl
  | cons x v ih =>
    simp only [List.cons_append, decommissionEach]
    rw [ih]

theorem map_fst_provisionEach (g : Gateway) (workloads : List Workload) (s : σ) (d : δ) :
    (g.provisionEach workloads s d).1.map Prod.fst = workloads := by
  induction workloads generalizing s d with
  | nil => rfl
  | cons x rest ih =>
    simp only [provisionEach, List.map_cons]
    rw [ih]

/-- **One batch inside another**: what is provided last is removed first. -/
theorem Undone.append (hv : g.Undone v s d)
    (hw : g.Undone w (g.provisionEach v s d).2.1 (g.provisionEach v s d).2.2) :
    g.Undone (v ++ w) s d := by
  obtain ⟨hback, hanswers⟩ := hv
  obtain ⟨hback', hanswers'⟩ := hw
  show _ ∧ _
  simp only [provisionEach_append, List.reverse_append, decommissionEach_append]
  -- after the inner batch store and device are as the outer one left them
  rw [hback']
  exact ⟨hback, List.rel_append hanswers hanswers'⟩

end Undone

/-! ## Jobs -/

section Jobs

variable {σ δ : Type} [Backend σ] [TunnelDevice δ] {g : Gateway} {w : Workload} {e : GatewayError}
  {op : Operation Unit} {request : Except GatewayError DeviceCall} {answer : Option PeerConfig}

theorem provision_of_error (h : g.provisionJob w = .error e) (s : σ) (d : δ) :
    g.provision w s d = (.error e, s, d) := by
  unfold provision
  rw [h]
  rfl

theorem provision_of_store (h : g.provisionJob w = .ok (.store op)) (s : σ) (d : δ) :
    g.provision w s d = ((op.alone s).1.map fun () => none, (op.alone s).2, d) := by
  unfold provision
  rw [h]
  rfl

theorem provision_of_device (h : g.provisionJob w = .ok (.device request answer)) (s : σ) (d : δ) :
    g.provision w s d = ((carry request d).1.map fun () => answer, s, (carry request d).2) := by
  unfold provision
  rw [h]
  rfl

theorem decommission_of_error (h : g.decommissionJob w = .error e) (s : σ) (d : δ) :
    g.decommission w s d = (.error e, s, d) := by
  unfold decommission
  rw [h]
  rfl

theorem decommission_of_store (h : g.decommissionJob w = .ok (.store op)) (s : σ) (d : δ) :
    g.decommission w s d = ((op.alone s).1, (op.alone s).2, d) := by
  unfold decommission
  rw [h]
  simp only [runJob]
  cases (op.alone s).1 <;> rfl

theorem decommission_of_device (h : g.decommissionJob w = .ok (.device request answer)) (s : σ)
    (d : δ) : g.decommission w s d = ((carry request d).1, s, (carry request d).2) := by
  unfold decommission
  rw [h]
  simp only [runJob]
  cases (carry request d).1 <;> rfl

end Jobs

/-! ## Batches of one kind -/

/-- How the workloads of one kind are accounted for. A workload asks for something (`request?`), and
store and device show what there is (`Shows`). Somebody who asked may have it (`Has`) or may at least
undo the request (`MayUndo`); what there is is owed to a request that asked for it (`Owes`, `Asked`). -/
structure Ledger (σ δ request state item : Type) where
  request? : Workload → Option request
  Shows : state → σ → δ → Prop
  Has : state → request → Prop
  MayUndo : state → request → Prop
  Owes : state → item → Prop
  Asked : request → item → Prop

namespace Ledger

variable {σ δ request state item : Type}

/-- What a provision does: its user has what was asked for if the answer is success, everybody else has
what they had, and what is new was asked for. -/
structure Gives (L : Ledger σ δ request state item) (r : request) (m m' : state)
    (result : Except GatewayError (Option PeerConfig)) : Prop where
  self : result.isOk = true → L.Has m' r
  others : ∀ other, L.Has m other → L.Has m' other
  owes : ∀ i, L.Owes m' i → L.Owes m i ∨ L.Asked r i

/-- What a removal does: it is a success if it may be, stands in the way of no other, and leaves nothing
that was asked for. -/
structure Undoes (L : Ledger σ δ request state item) (r : request) (m m' : state)
    (result : Except GatewayError Unit) : Prop where
  self : L.MayUndo m r → result = .ok ()
  others : ∀ other, L.MayUndo m other → L.MayUndo m' other
  owes : ∀ i, L.Owes m' i → L.Owes m i ∧ ¬ L.Asked r i

/-- A state with the workloads that are still to be removed, the last one first: those that were
provided are kept in the sense of `keeps`, and all there is was asked for by one of them. -/
structure Stack (L : Ledger σ δ request state item) (keeps : state → request → Prop)
    (stack : List Provided) (m : state) : Prop where
  kept : ∀ p ∈ stack, p.2.isOk = true → ∃ r, L.request? p.1 = some r ∧ keeps m r
  owed : ∀ i, L.Owes m i → ∃ p ∈ stack, ∃ r, L.request? p.1 = some r ∧ L.Asked r i

variable {L : Ledger σ δ request state item} {m m' : state} {stack : List Provided} {r : request}

namespace Stack

/-- A workload that asks for nothing is refused. -/
theorem push_error {keeps : state → request → Prop} (h : L.Stack keeps stack m) (w : Workload)
    (e : GatewayError) : L.Stack keeps ((w, .error e) :: stack) m where
  kept := by
    intro p hp hok
    rcases List.mem_cons.1 hp with rfl | hp
    · cases hok
    · exact h.kept p hp hok
  owed := by
    intro i hi
    obtain ⟨p, hp, hr⟩ := h.owed i hi
    exact ⟨p, List.mem_cons_of_mem _ hp, hr⟩

theorem push (h : L.Stack L.Has stack m) {w : Workload} (hr : L.request? w = some r)
    {result : Except GatewayError (Option PeerConfig)} (hgives : L.Gives r m m' result) :
    L.Stack L.Has ((w, result) :: stack) m' where
  kept := by
    intro p hp hok
    rcases List.mem_cons.1 hp with rfl | hp
    · exact ⟨r, hr, hgives.self hok⟩
    · obtain ⟨other, hother, hhas⟩ := h.kept p hp hok
      exact ⟨other, hother, hgives.others other hhas⟩
  owed := by
    intro i hi
    rcases hgives.owes i hi with hbefore | hasked
    · obtain ⟨p, hp, hother⟩ := h.owed i hbefore
      exact ⟨p, List.mem_cons_of_mem _ hp, hother⟩
    · exact ⟨_, List.mem_cons_self .., r, hr, hasked⟩

/-- A workload that asks for nothing was refused, and nothing is owed to it. -/
theorem pop_none {keeps : state → request → Prop} {p : Provided} (h : L.Stack keeps (p :: stack) m)
    (hp : L.request? p.1 = none) : L.Stack keeps stack m ∧ ¬ p.2.isOk = true := by
  refine ⟨⟨fun q hq => h.kept q (List.mem_cons_of_mem _ hq), ?_⟩, ?_⟩
  · intro i hi
    obtain ⟨q, hq, r, hr, hasked⟩ := h.owed i hi
    rcases List.mem_cons.1 hq with rfl | hq
    · rw [hp] at hr
      cases hr
    · exact ⟨q, hq, r, hr, hasked⟩
  · intro hok
    obtain ⟨r, hr, -⟩ := h.kept p (List.mem_cons_self ..) hok
    rw [hp] at hr
    cases hr

theorem pop {p : Provided} (h : L.Stack L.MayUndo (p :: stack) m) (hr : L.request? p.1 = some r)
    {result : Except GatewayError Unit} (hundoes : L.Undoes r m m' result) :
    L.Stack L.MayUndo stack m' ∧ (p.2.isOk = true → result = .ok ()) := by
  refine ⟨⟨?_, ?_⟩, ?_⟩
  · intro q hq hok
    obtain ⟨other, hother, hmay⟩ := h.kept q (List.mem_cons_of_mem _ hq) hok
    exact ⟨other, hother, hundoes.others other hmay⟩
  · intro i hi
    obtain ⟨hbefore, hnot⟩ := hundoes.owes i hi
    obtain ⟨q, hq, other, hother, hasked⟩ := h.owed i hbefore
    rcases List.mem_cons.1 hq with rfl | hq
    · -- what the workload itself asked for is gone
      rw [hr, Option.some.injEq] at hother
      exact absurd (hother ▸ hasked) hnot
    · exact ⟨q, hq, other, hother, hasked⟩
  · intro hok
    obtain ⟨other, hother, hmay⟩ := h.kept p (List.mem_cons_self ..) hok
    rw [hr, Option.some.injEq] at hother
    exact hundoes.self (hother ▸ hmay)

end Stack

variable [Backend σ] [TunnelDevice δ]

/-- The account is true of a gateway, for the workloads of a kind that start at a store and a device. -/
structure Keeps (L : Ledger σ δ request state item) (g : Gateway) (kind : Workload → Prop) (s₀ : σ)
    (d₀ : δ) : Prop where
  start : ∃ m, L.Shows m s₀ d₀ ∧ ∀ i, ¬ L.Owes m i
  finish : ∀ m s d, L.Shows m s d → (∀ i, ¬ L.Owes m i) → (s, d) = (s₀, d₀)
  refuse : ∀ w, kind w → L.request? w = none →
    ∃ e, g.provisionJob w = .error e ∧ g.decommissionJob w = .error e
  give : ∀ w r m s d, L.request? w = some r → L.Shows m s d →
    ∃ m', L.Shows m' (g.provision w s d).2.1 (g.provision w s d).2.2 ∧
      L.Gives r m m' (g.provision w s d).1
  turn : ∀ m r, L.Has m r → L.MayUndo m r
  undo : ∀ w r m s d, L.request? w = some r → L.Shows m s d →
    ∃ m', L.Shows m' (g.decommission w s d).2.1 (g.decommission w s d).2.2 ∧
      L.Undoes r m m' (g.decommission w s d).1

namespace Keeps

variable {g : Gateway} {kind : Workload → Prop} {s s₀ : σ} {d d₀ : δ} (h : L.Keeps g kind s₀ d₀)

include h

/-- **On the way up** the last workload that was provided is on top of the stack. -/
theorem stack_provisionEach {workloads : List Workload} (hkind : ∀ w ∈ workloads, kind w)
    (hshows : L.Shows m s d) (hstack : L.Stack L.Has stack m) :
    ∃ m', L.Shows m' (g.provisionEach workloads s d).2.1 (g.provisionEach workloads s d).2.2 ∧
      L.Stack L.Has ((g.provisionEach workloads s d).1.reverse ++ stack) m' := by
  induction workloads generalizing s d m stack with
  | nil => exact ⟨m, hshows, hstack⟩
  | cons w rest ih =>
    have hrest := fun v hv => hkind v (List.mem_cons_of_mem _ hv)
    simp only [provisionEach, List.reverse_cons, List.append_assoc, List.cons_append, List.nil_append]
    cases hr : L.request? w with
    | none =>
      obtain ⟨e, he, -⟩ := h.refuse w (hkind w (List.mem_cons_self ..)) hr
      rw [provision_of_error he]
      exact ih hrest hshows (hstack.push_error w e)
    | some r =>
      obtain ⟨m', hshows', hgives⟩ := h.give w r m s d hr hshows
      exact ih hrest hshows' (hstack.push hr hgives)

/-- **On the way down** each removal takes the top of the stack, and answers its provision. -/
theorem stack_decommissionEach (hkind : ∀ p ∈ stack, kind p.1) (hshows : L.Shows m s d)
    (hstack : L.Stack L.MayUndo stack m) :
    (g.decommissionEach (stack.map Prod.fst) s d).2 = (s₀, d₀) ∧
      List.Forall₂ Answers stack (g.decommissionEach (stack.map Prod.fst) s d).1 := by
  induction stack generalizing s d m with
  | nil =>
    refine ⟨h.finish m s d hshows fun i hi => ?_, .nil⟩
    obtain ⟨p, hp, -⟩ := hstack.owed i hi
    exact absurd hp List.not_mem_nil
  | cons p rest ih =>
    have hrest := fun q hq => hkind q (List.mem_cons_of_mem _ hq)
    simp only [List.map_cons, decommissionEach]
    cases hr : L.request? p.1 with
    | none =>
      obtain ⟨e, -, he⟩ := h.refuse p.1 (hkind p (List.mem_cons_self ..)) hr
      obtain ⟨hstack', hnot⟩ := hstack.pop_none hr
      rw [decommission_of_error he]
      obtain ⟨hback, hanswers⟩ := ih hrest hshows hstack'
      exact ⟨hback, .cons ⟨rfl, fun hok => absurd hok hnot⟩ hanswers⟩
    | some r =>
      obtain ⟨m', hshows', hundoes⟩ := h.undo p.1 r m s d hr hshows
      obtain ⟨hstack', hok⟩ := hstack.pop hr hundoes
      obtain ⟨hback, hanswers⟩ := ih hrest hshows' hstack'
      exact ⟨hback, .cons ⟨rfl, hok⟩ hanswers⟩

/-- What there is once the batch is provided. -/
theorem shows_provisionEach {workloads : List Workload} (hkind : ∀ w ∈ workloads, kind w) :
    ∃ m, L.Shows m (g.provisionEach workloads s₀ d₀).2.1 (g.provisionEach workloads s₀ d₀).2.2 ∧
      L.Stack L.Has (g.provisionEach workloads s₀ d₀).1.reverse m := by
  obtain ⟨m, hshows, hnone⟩ := h.start
  have hempty : L.Stack L.Has [] m :=
    ⟨fun p hp => absurd hp List.not_mem_nil, fun i hi => absurd hi (hnone i)⟩
  have hup := h.stack_provisionEach hkind hshows hempty
  rwa [List.append_nil] at hup

/-- **A batch of one kind is undone** if its account is kept. -/
theorem undone {workloads : List Workload} (hkind : ∀ w ∈ workloads, kind w) :
    g.Undone workloads s₀ d₀ := by
  have hfst := g.map_fst_provisionEach workloads s₀ d₀
  obtain ⟨m, hshows, hstack⟩ := h.shows_provisionEach hkind
  have hkinds : ∀ p ∈ (g.provisionEach workloads s₀ d₀).1.reverse, kind p.1 := by
    intro p hp
    apply hkind
    rw [← hfst]
    exact List.mem_map_of_mem (List.mem_reverse.1 hp)
  have hturned : L.Stack L.MayUndo (g.provisionEach workloads s₀ d₀).1.reverse m := by
    refine ⟨fun p hp hok => ?_, hstack.owed⟩
    obtain ⟨r, hr, hhas⟩ := hstack.kept p hp hok
    exact ⟨r, hr, h.turn m r hhas⟩
  obtain ⟨hdown, hanswers⟩ := h.stack_decommissionEach hkinds hshows hturned
  rw [List.map_reverse, hfst] at hdown hanswers
  refine ⟨hdown, ?_⟩
  rw [← List.forall₂_reverse_iff, List.reverse_reverse]
  exact hanswers

end Keeps

end Ledger

end Gateway

/-! ## Payloads -/

/-- The type of the workloads that have such a payload. -/
def Payload.type : Payload → WorkloadType
  | .proxy .. => .proxy
  | .reverseProxy .. => .reverseProxy
  | .subdomain .. => .subdomain
  | .delegate .. => .delegate
  | .fourToSix .. => .fourToSix

namespace Workload

/-- The payload of a workload is of its type. -/
theorem type_of_decode {w : Workload} {payload : Payload} (h : w.decode = .ok payload) :
    payload.type = w.type := by
  unfold decode at h
  cases htype : w.type with
  | proxy =>
    rw [htype] at h
    obtain ⟨⟨domain, addr, port, portTls, ⟨⟩⟩, -, h⟩ := Except.bind_eq_ok.1 h
    obtain ⟨name, -, h⟩ := Except.bind_eq_ok.1 h
    split at h
    · cases h
    · cases h
      rfl
  | reverseProxy =>
    rw [htype] at h
    obtain ⟨⟨domain, secret, ⟨⟩⟩, -, h⟩ := Except.bind_eq_ok.1 h
    simp only at h
    split at h
    · cases h
    obtain ⟨name, -, h⟩ := Except.bind_eq_ok.1 h
    split at h
    · cases h
    · cases h
      rfl
  | subdomain =>
    rw [htype] at h
    obtain ⟨⟨domain, ips, ⟨⟩⟩, -, h⟩ := Except.bind_eq_ok.1 h
    obtain ⟨name, -, h⟩ := Except.bind_eq_ok.1 h
    obtain ⟨ips, -, h⟩ := Except.bind_eq_ok.1 h
    cases h
    rfl
  | delegate =>
    rw [htype] at h
    obtain ⟨⟨domain, ⟨⟩⟩, -, h⟩ := Except.bind_eq_ok.1 h
    obtain ⟨name, -, h⟩ := Except.bind_eq_ok.1 h
    cases h
    rfl
  | fourToSix =>
    rw [htype] at h
    obtain ⟨⟨publicKey, ⟨⟩⟩, -, h⟩ := Except.bind_eq_ok.1 h
    obtain ⟨key, -, h⟩ := Except.bind_eq_ok.1 h
    cases h
    rfl

end Workload

namespace Gateway

variable {g : Gateway} {w : Workload} {payload : Payload} {e : GatewayError}

/-- A workload that does not decode is refused in the same way both times. -/
theorem jobs_of_decode_error (htunnel : w.type = .fourToSix → ∃ auth, g.tunnel = some auth)
    (h : w.decode = .error e) : g.provisionJob w = .error e ∧ g.decommissionJob w = .error e := by
  by_cases htype : w.type = .fourToSix
  · obtain ⟨auth, hauth⟩ := htunnel htype
    constructor
    · simp only [provisionJob, if_pos htype, requireTunnel, hauth, h]
      rfl
    · simp only [decommissionJob, if_pos htype, requireTunnel, hauth, h]
      rfl
  · constructor
    · simp only [provisionJob, if_neg htype, h]
      rfl
    · simp only [decommissionJob, if_neg htype, h]
      rfl

/-- A payload for the store is provided and removed by these operations. -/
theorem storeJobs_of_decode (h : w.decode = .ok payload) {give undo : Operation Unit}
    (hjobs : match payload with
      | .proxy domain addr port portTls =>
        give = RouteAuthority.registerForward w.user domain addr port portTls ∧
          undo = RouteAuthority.deregister w.user domain
      | .reverseProxy domain secret =>
        give = g.routes.registerReverse w.user domain (.encrypted secret) ∧
          undo = RouteAuthority.deregister w.user domain
      | .subdomain domain ips =>
        give = g.zones.claim w.user domain ips ∧ undo = g.zones.release w.user domain ips
      | .delegate domain =>
        give = ZoneAuthority.delegate w.user domain ∧ undo = ZoneAuthority.revoke w.user domain
      | .fourToSix _ => False) :
    g.provisionJob w = .ok (.store give) ∧ g.decommissionJob w = .ok (.store undo) := by
  have htype := w.type_of_decode h
  cases payload with
  | fourToSix key => cases hjobs
  | proxy | reverseProxy | subdomain | delegate =>
    obtain ⟨rfl, rfl⟩ := hjobs
    have hstore : w.type ≠ .fourToSix := by
      rw [← htype]
      exact WorkloadType.noConfusion
    constructor
    · simp only [provisionJob, if_neg hstore, h]
      rfl
    · simp only [decommissionJob, if_neg hstore, h]
      rfl

end Gateway
end GatewayControl
