import GatewayControl.Proofs.Authority.RouteRounds

/-!
# `GatewayControl.Proofs.Authority.RouteLinear` -- routes change one call at a time

Every request about a route reads one value, decides, and at most replaces that value; so a run of any
number of them is a run of single steps on the whole store (`routes_linearizable`). What users rely on
follows from that: an entry is replaced and removed by calls of its owner alone, and a registration
that succeeded stays until a later call of the same user.
-/

namespace GatewayControl

open Operation MemoryStore

variable {ι : Type}

/-! ## The routing table as an object -/

/-- Requests at work on one store. -/
def routeCrowd (requests : ι → RouteRequest) (s : MemoryStore) :
    Crowd ι (Except GatewayError (Option RoutingEntry)) where
  store := s
  rest := fun i => (requests i).operation.run

/-- The whole store as an object: each request runs alone on it. -/
def routeObject (requests : ι → RouteRequest) :
    SequentialObject ι (Except GatewayError (Option RoutingEntry)) MemoryStore where
  view := id
  Uses := fun _ => True
  run := fun i s => alone (requests i).operation s
  GivesUp := fun i result =>
    ∃ name, DomainName.parse (requests i).domain = .ok name ∧ GaveUp name.routingKey result

variable {requests : ι → RouteRequest} {s : MemoryStore} {i : ι} {name : DomainName}

theorem givesUp_eq (hname : DomainName.parse (requests i).domain = .ok name) :
    (routeObject requests).GivesUp i = GaveUp name.routingKey := by
  funext result
  refine propext ⟨?_, fun hgave => ⟨name, hname, hgave⟩⟩
  rintro ⟨other, hother, hgave⟩
  obtain rfl : name = other := Except.ok.inj (hname.symm.trans hother)
  exact hgave

/-- A request takes effect at one point. -/
theorem atomically_routeRequest (requests : ι → RouteRequest) (s : MemoryStore) (i : ι) :
    ((routeCrowd requests s).rest i).Atomically (fun _ => True) id ((routeObject requests).run i)
      ((routeObject requests).GivesUp i) := by
  show (requests i).operation.run.Atomically _ _ _ _
  have hrun : ∀ t, True → (routeObject requests).run i (id t) =
      ((alone (requests i).operation t).1, id (alone (requests i).operation t).2) := fun t _ => rfl
  rcases (requests i).operation_cases with ⟨e, hop, hkind⟩ | ⟨name, verdict, hname, hop, hdecides⟩
  · rw [hop] at hrun ⊢
    refine .inl ⟨.error e, rfl, ?_, hrun⟩
    rintro ⟨name, -, hgave⟩
    exact not_gaveUp_of_kind hkind _ hgave
  · rw [hop] at hrun ⊢
    rw [givesUp_eq hname]
    exact .inr ((swapsAtOnce_pure hdecides.answers).takesEffect hrun claimAttempts)

/-- A request gives up only after it has seen the entry change. -/
theorem starved_routeRequest (s : MemoryStore)
    (hname : DomainName.parse (requests i).domain = .ok name) (v : Option Bytes) :
    ((routeCrowd requests s).rest i).Starved (fun _ => True) (read (.value name.routingKey))
      (GaveUp name.routingKey) claimAttempts v := by
  show (requests i).operation.run.Starved _ _ _ _ _
  rcases (requests i).operation_cases with ⟨e, hop, hkind⟩ | ⟨other, verdict, hother, hop, hdecides⟩
  · rw [hop]
    exact fun hgave => absurd hgave (not_gaveUp_of_kind hkind _)
  · obtain rfl : name = other := Except.ok.inj (hname.symm.trans hother)
    rw [hop]
    exact (swapsAtOnce_pure hdecides.answers).starved claimAttempts v

/-! ## Runs -/

/-- The entry of a domain; none if there is none, or none that can be read. -/
def MemoryStore.routeOf (name : DomainName) (s : MemoryStore) : Option RoutingEntry :=
  match s.read (.value name.routingKey) with
  | none => none
  | some bytes =>
    match RoutingEntry.decode bytes with
    | .ok entry => some entry
    | .error _ => none

theorem routeOf_of_read {bytes : Bytes} {entry : RoutingEntry}
    (hread : s.read (.value name.routingKey) = some bytes)
    (hdecode : RoutingEntry.decode bytes = .ok entry) : s.routeOf name = some entry := by
  unfold routeOf
  rw [hread]
  simp only
  rw [hdecode]

theorem routeOf_of_absent (hread : s.read (.value name.routingKey) = none) :
    s.routeOf name = none := by
  unfold routeOf
  rw [hread]

theorem routeOf_congr {t : MemoryStore}
    (h : t.read (.value name.routingKey) = s.read (.value name.routingKey)) :
    t.routeOf name = s.routeOf name := by
  unfold routeOf
  rw [h]

section Run

variable [DecidableEq ι] {schedule : Nat → ι} {n : Nat}

/-- **Frame of a turn.** What changes in a turn is the entry of the domain of a call, whose decision on
the old entry was to replace it. -/
theorem exists_decision {cell : Cell}
    (hchange : ((routeCrowd requests s).trace schedule (n + 1)).store.read cell ≠
      ((routeCrowd requests s).trace schedule n).store.read cell) :
    ∃ call name change, requests (schedule n) = .change call ∧
      DomainName.parse call.domain = .ok name ∧ call.Decides name change ∧
      cell = .value name.routingKey ∧
      change (((routeCrowd requests s).trace schedule n).store.read cell) =
        .replace (((routeCrowd requests s).trace schedule (n + 1)).store.read cell) := by
  obtain ⟨c, hc, hwrites⟩ := Crowd.exists_writes hchange
  rw [Crowd.store_trace_succ hc] at hchange ⊢
  rcases (requests (schedule n)).operation_cases with
    ⟨e, hop, -⟩ | ⟨name, verdict, hname, hop, hdecides⟩
  · -- what fails at once makes no calls
    have hnone : (requests (schedule n)).operation.Only fun _ => False := by
      rw [hop]
      exact only_throw e
    exact absurd (Crowd.pending_of_only rfl hnone hc) id
  · have htries : (requests (schedule n)).operation.Only (TriesSwap name.routingKey verdict) := by
      rw [hop]
      exact only_swapRounds_pure none claimAttempts
    obtain ⟨hcell, hreplace⟩ := (Crowd.pending_of_only rfl htries hc).changed hchange
    obtain ⟨call, change, hrequest, hcall, hchanged⟩ := hdecides.replaces _ _ hreplace
    rw [hrequest] at hname
    exact ⟨call, name, change, hrequest, hname, hcall, hcell, hchanged⟩

/-- The entry of a domain is changed by a call on that domain, of the user who owns the entry before and
after. -/
theorem exists_owner_of_changed
    (hchange : ((routeCrowd requests s).trace schedule (n + 1)).store.read (.value name.routingKey) ≠
      ((routeCrowd requests s).trace schedule n).store.read (.value name.routingKey)) :
    ∃ call, requests (schedule n) = .change call ∧ DomainName.parse call.domain = .ok name ∧
      (((routeCrowd requests s).trace schedule n).store.read (.value name.routingKey) = none ∨
        ∃ entry, ((routeCrowd requests s).trace schedule n).store.routeOf name = some entry ∧
          entry.owner = call.user) ∧
      (((routeCrowd requests s).trace schedule (n + 1)).store.read (.value name.routingKey) = none ∨
        ∃ entry, ((routeCrowd requests s).trace schedule (n + 1)).store.routeOf name = some entry ∧
          entry.owner = call.user) := by
  obtain ⟨call, other, change, hrequest, hname, hdecides, hcell, hreplace⟩ := exists_decision hchange
  rw [Cell.value.injEq] at hcell
  obtain rfl := DomainName.routingKey_inj.1 hcell
  obtain ⟨hafter, hbefore⟩ := hdecides.replaces _ _ hreplace
  refine ⟨call, hrequest, hname, ?_, ?_⟩
  · rcases hbefore with hnone | ⟨bytes, existing, hread, hdecode, howner⟩
    · exact .inl hnone
    · exact .inr ⟨existing, routeOf_of_read hread hdecode, howner⟩
  · cases hentry : call.registration? with
    | none =>
      rw [hentry] at hafter
      exact .inl hafter
    | some entry =>
      rw [hentry] at hafter
      obtain ⟨hstorable, howner⟩ := hdecides.entry entry hentry
      exact .inr ⟨entry, routeOf_of_read hafter (RoutingEntry.decode_encode hstorable _), howner⟩

/-- A registration that succeeds in a single step leaves its entry. -/
theorem routeOf_of_registered {call : RouteCall} {entry : RoutingEntry} {t : MemoryStore}
    (hname : DomainName.parse call.domain = .ok name) (hentry : call.registration? = some entry)
    (hrun : alone (RouteRequest.change call).operation s = (.ok none, t)) :
    t.routeOf name = some entry := by
  rcases (RouteRequest.change call).operation_cases with
    ⟨e, hop, -⟩ | ⟨other, verdict, hother, hop, hdecides⟩
  · rw [hop] at hrun
    cases hrun
  obtain rfl : name = other := Except.ok.inj (hname.symm.trans hother)
  rw [hop] at hrun
  by_cases hr : s.Refuses (.get name.routingKey)
  · have ht : ¬ s.TakesValue name.routingKey := hr
    have hrefused : alone (swapRounds name.routingKey verdict (pure none) claimAttempts) s =
        (.error (refusal name.routingKey), s) := alone_swapRounds_refused ht
    rw [hrefused] at hrun
    cases hrun
  have ht : s.TakesValue name.routingKey := Classical.not_not.1 hr
  have htakes : s.Takes (.value name.routingKey) := ht
  have hloop : alone (swapRounds name.routingKey verdict (pure none) claimAttempts) s = _ :=
    alone_swapRounds ht
  rw [hloop] at hrun
  cases hverdict : verdict (s.read (.value name.routingKey)) with
  | answer result =>
    rw [hverdict] at hrun
    cases hrun
    exact absurd hverdict (hdecides.registers call entry _ rfl hentry)
  | replace content =>
    rw [hverdict] at hrun
    cases hrun
    obtain ⟨call, change, ⟨⟩, hcall, hreplace⟩ := hdecides.replaces _ _ hverdict
    have hcontent := (hcall.replaces _ _ hreplace).1
    rw [hentry] at hcontent
    have hread : (s.write (.value name.routingKey) content).read (.value name.routingKey) =
        some (entry.encode name.routingKey) := by
      rw [read_write _ htakes, if_pos rfl]
      exact hcontent
    exact routeOf_of_read hread (RoutingEntry.decode_encode (hcall.entry entry hentry).1 _)

/-- **A registration stays** until a later call of the same user on the same domain. -/
theorem exists_later_of_lost {call : RouteCall} {entry : RoutingEntry} {k m : Nat}
    (hname : DomainName.parse call.domain = .ok name) (hentry : call.registration? = some entry)
    (hrequest : requests i = .change call)
    (heffect : (routeCrowd requests s).EffectAt schedule (routeObject requests) i (.ok none) k)
    (hkm : k < m) (hlost : ((routeCrowd requests s).trace schedule m).store.routeOf name ≠ some entry) :
    ∃ l later, k < l ∧ l < m ∧ schedule l ≠ i ∧ requests (schedule l) = .change later ∧
      DomainName.parse later.domain = .ok name ∧ later.user = entry.owner := by
  have hrun : alone (RouteRequest.change call).operation
      ((routeCrowd requests s).trace schedule k).store =
      (.ok none, ((routeCrowd requests s).trace schedule (k + 1)).store) := by
    rw [← hrequest]
    exact heffect.effect
  have hwritten := routeOf_of_registered hname hentry hrun
  -- the first turn after which the entry is another one
  have hchanged : ((routeCrowd requests s).trace schedule m).store.routeOf name ≠
      ((routeCrowd requests s).trace schedule (k + 1)).store.routeOf name := by
    rw [hwritten]
    exact hlost
  obtain ⟨l, hkl, hlm, hbefore, hsince⟩ := exists_last_change
    (V := fun m => ((routeCrowd requests s).trace schedule m).store.routeOf name ≠ some entry)
    hkm (fun hne => hne hwritten) hlost
  have hstays := Classical.not_not.1 hbefore
  have hchange : ((routeCrowd requests s).trace schedule (l + 1)).store.read (.value name.routingKey) ≠
      ((routeCrowd requests s).trace schedule l).store.read (.value name.routingKey) := by
    intro heq
    exact hsince (l + 1) (Nat.lt_succ_self l) hlm ((routeOf_congr heq).trans hstays)
  obtain ⟨later, hlater, hdomain, howner, -⟩ := exists_owner_of_changed hchange
  refine ⟨l, later, hkl, hlm, ?_, hlater, hdomain, ?_⟩
  · intro hli
    have hsame := heffect.unchanged l (by omega) hli
    exact hchange (congrArg (MemoryStore.read (.value name.routingKey)) hsame)
  · rcases howner with hnone | ⟨existing, hexisting, huser⟩
    · rw [routeOf_of_absent hnone] at hstays
      cases hstays
    · rw [hexisting, Option.some.injEq] at hstays
      rw [← huser, hstays]

/-- **The routing authority is linearizable.** Every run of requests is a run of single steps on the
store, each at a turn of its own and with the answer that it gave; who gave up has changed nothing, and
has seen others change the entry as often as it tried. A registration that succeeded is lost only to a
later call of the same user, and an entry never passes from one user to another. -/
theorem routes_linearizable (requests : ι → RouteRequest) (schedule : Nat → ι) (s : MemoryStore) :
    let crowd := routeCrowd requests s
    let object := routeObject requests
    crowd.Linearizable schedule object ∧
    (∀ n i result, crowd.Answered schedule n i result → ¬ object.GivesUp i result →
      ∃ k, k < n ∧ crowd.EffectAt schedule object i result k) ∧
    (∀ n i name result, DomainName.parse (requests i).domain = .ok name →
      crowd.Answered schedule n i result → GaveUp name.routingKey result →
      (∀ k, k < n → schedule k = i →
        (crowd.trace schedule (k + 1)).store = (crowd.trace schedule k).store) ∧
      crowd.DisturbedOften schedule (read (.value name.routingKey)) n i claimAttempts) ∧
    (∀ n i call name entry, requests i = .change call → DomainName.parse call.domain = .ok name →
      call.registration? = some entry → crowd.Answered schedule n i (.ok none) →
      ∃ k, k < n ∧ schedule k = i ∧
        (crowd.trace schedule (k + 1)).store.routeOf name = some entry ∧
        ∀ m, k < m → (crowd.trace schedule m).store.routeOf name ≠ some entry →
          ∃ l later, k < l ∧ l < m ∧ schedule l ≠ i ∧ requests (schedule l) = .change later ∧
            DomainName.parse later.domain = .ok name ∧ later.user = entry.owner) ∧
    (∀ n name before after, (crowd.trace schedule n).store.routeOf name = some before →
      (crowd.trace schedule (n + 1)).store.routeOf name = some after → after.owner = before.owner) := by
  intro crowd object
  have hlinear : crowd.Linearizable schedule object :=
    crowd.linearizable_of_atomically schedule object (fun _ => trivial)
      (fun n hunused => absurd trivial hunused) fun i _ => atomically_routeRequest requests s i
  refine ⟨hlinear, ?_, ?_, ?_, ?_⟩
  · intro n i result hanswered hkept
    exact hlinear.exists_effect trivial hanswered hkept
  · intro n i name result hname hanswered hgave
    refine ⟨fun k hk hi => hlinear.unchanged trivial hanswered ⟨name, hname, hgave⟩ hk hi, ?_⟩
    exact Crowd.disturbedOften (fun _ => trivial) (starved_routeRequest s hname) hanswered hgave
  · intro n i call name entry hrequest hname hentry hanswered
    have hkept : ¬ object.GivesUp i (.ok none) := by
      rintro ⟨name, -, hgave⟩
      cases hgave
    obtain ⟨k, hk, heffect⟩ := hlinear.exists_effect trivial hanswered hkept
    have hrun : alone (RouteRequest.change call).operation (crowd.trace schedule k).store =
        (.ok none, (crowd.trace schedule (k + 1)).store) := by
      rw [← hrequest]
      exact heffect.effect
    refine ⟨k, hk, heffect.own, routeOf_of_registered hname hentry hrun, fun m hkm hlost => ?_⟩
    exact exists_later_of_lost hname hentry hrequest heffect hkm hlost
  · intro n name before after hbefore hafter
    by_cases hsame : (crowd.trace schedule (n + 1)).store.read (.value name.routingKey) =
        (crowd.trace schedule n).store.read (.value name.routingKey)
    · rw [routeOf_congr hsame, hbefore, Option.some.injEq] at hafter
      rw [hafter]
    obtain ⟨call, -, -, hold, hnew⟩ := exists_owner_of_changed hsame
    rcases hold with hnone | ⟨old, hold, holdOwner⟩
    · rw [routeOf_of_absent hnone] at hbefore
      cases hbefore
    rcases hnew with hnone | ⟨new, hnew, hnewOwner⟩
    · rw [routeOf_of_absent hnone] at hafter
      cases hafter
    rw [hold, Option.some.injEq] at hbefore
    rw [hnew, Option.some.injEq] at hafter
    rw [← hbefore, ← hafter, holdOwner, hnewOwner]

end Run

end GatewayControl
