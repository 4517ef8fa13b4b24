import GatewayControl.Proofs.Authority.RouteLinear

/-!
# `GatewayControl.Proofs.Authority.RouteInvariant` -- what the routing table can hold

Two ways of registering a route lead to one loop of conditional writes, and removals take part in the same
races. What a turn does to the store is said once (`turn_cases`): nothing, or one write on the domain of a
call, of the entry that the call brings, if it brings one. An entry that gets that far has passed its
checks (`RouteCall.fails_or_proper`). So at any time, each name in the store is the key of a domain, and
its value is the entry of the last write on the domain that took effect (`routing_store_invariant`).

The binding of a secret to its user is a prefix, and user names may have colons. Of two users that a secret is
bound to, one has a name that goes on after that of the other and a colon (`BoundTo.nested`), and either of them
may register it.
-/

namespace GatewayControl

open Operation MemoryStore

/-- The secret starts with the user and a colon. -/
def BoundTo (user secret : String) : Prop := (user ++ ":").toList <+: secret.toList

instance (user secret : String) : Decidable (BoundTo user secret) :=
  inferInstanceAs (Decidable (_ <+: _))

/-- Somebody owns the entry, and it leads somewhere: to an address, or to the tunnel of a secret that is
bound to the owner. -/
structure RoutingEntry.Proper (entry : RoutingEntry) : Prop where
  owner_ne : entry.owner ≠ ""
  addr_ne : ∀ addr httpPort tlsPort, entry.route = .forward addr httpPort tlsPort → addr ≠ ""
  bound : ∀ secret, entry.route = .reverse secret → BoundTo entry.owner secret

theorem BoundTo.ne_empty {user secret : String} (h : BoundTo user secret) : secret ≠ "" := by
  rintro rfl
  have hempty := List.prefix_nil.1 h
  simp at hempty

theorem RoutingEntry.Proper.storable {entry : RoutingEntry} (h : entry.Proper) : entry.Storable :=
  fun hroute => (h.bound "" hroute).ne_empty rfl

/-- A secret that is bound to two users is bound to one of them by a name that starts with the other and
a colon. -/
theorem BoundTo.nested {user other secret : String} (h : BoundTo user secret)
    (hother : BoundTo other secret) : other = user ∨ BoundTo user other ∨ BoundTo other user := by
  -- of two prefixes of one text, the shorter is a prefix of the longer
  have hnested : ∀ u v : String, (u ++ ":").toList <+: (v ++ ":").toList → v = u ∨ BoundTo u v := by
    intro u v huv
    rw [String.toList_append, String.toList_append] at huv
    rcases List.prefix_concat_iff.1 huv with heq | hprefix
    · exact .inl (String.toList_inj.1 (List.append_cancel_right heq)).symm
    · refine .inr ?_
      rw [BoundTo, String.toList_append]
      exact hprefix
  rcases List.prefix_or_prefix_of_prefix h hother with huv | hvu
  · exact (hnested user other huv).imp_right .inl
  · exact (hnested other user hvu).elim (fun heq => .inl heq.symm) fun hv => .inr (.inr hv)

/-- A registration fails in its checks, or brings a proper entry. -/
theorem RouteCall.fails_or_proper (call : RouteCall) :
    FailsAtOnce call.operation ∨ ∀ entry, call.registration? = some entry → entry.Proper := by
  cases call with
  | registerForward user domain addr httpPort tlsPort =>
    refine (RouteCall.registerForward_cases user domain addr httpPort tlsPort).imp_right ?_
    rintro ⟨name, hu, -, haddr, -⟩ entry ⟨⟩
    refine ⟨hu, ?_, ?_⟩
    · rintro _ _ _ ⟨⟩
      exact haddr
    · rintro _ ⟨⟩
  | registerReverse auth user domain secret =>
    refine (RouteCall.registerReverse_cases auth user domain secret).imp_right ?_
    rintro ⟨name, plain, hu, -, hplain, -, hbound, -⟩ entry hentry
    rw [registration?_registerReverse, hplain] at hentry
    cases hentry
    refine ⟨hu, ?_, ?_⟩
    · rintro _ _ _ ⟨⟩
    · rintro _ ⟨⟩
      exact hbound
  | deregister user domain =>
    right
    rintro entry ⟨⟩

namespace MemoryStore

theorem getElem?_slots_put (key name : String) (content : Option Bytes) (s : MemoryStore) :
    (s.put key content).slots[name]? = if name = key then content.map .value else s.slots[name]? := by
  cases content <;>
    simp only [put, Std.ExtTreeMap.getElem?_insert, Std.ExtTreeMap.getElem?_erase, Std.compare_eq_iff_eq] <;>
    grind

theorem exists_slot_of_mem_names {s : MemoryStore} {name : String} (h : name ∈ s.names) :
    ∃ slot, s.slots[name]? = some slot := by
  have hmem : name ∈ s.slots := Std.ExtTreeMap.mem_keys.1 h
  exact ⟨_, Std.ExtTreeMap.getElem?_eq_some_getElem hmem⟩

end MemoryStore

/-! ## Turns -/

section Turn

variable {ι α : Type} [DecidableEq ι]

/-- In this turn a conditional write of the value takes effect. -/
def Crowd.SwapsAt (start : Crowd ι α) (schedule : Nat → ι) (key : String) (content : Option Bytes)
    (n : Nat) : Prop :=
  ∃ expected, (start.trace schedule n).pending (schedule n) = some (.compareAndSet key expected content) ∧
    (MemoryStore.step (.compareAndSet key expected content) (start.trace schedule n).store).1 = .ok true

/-- In this turn no value is written. -/
structure Crowd.IdleAt (start : Crowd ι α) (schedule : Nat → ι) (n : Nat) : Prop where
  store_eq : (start.trace schedule (n + 1)).store = (start.trace schedule n).store
  not_swaps : ∀ key content, ¬ start.SwapsAt schedule key content n

variable {start : Crowd ι α} {schedule : Nat → ι} {n : Nat}

/-- A turn writes one value. -/
theorem Crowd.SwapsAt.inj {key key' : String} {content content' : Option Bytes}
    (h : start.SwapsAt schedule key content n) (h' : start.SwapsAt schedule key' content' n) :
    key = key' ∧ content = content' := by
  obtain ⟨expected, hpending, -⟩ := h
  obtain ⟨expected', hpending', -⟩ := h'
  rw [hpending, Option.some.injEq, Call.compareAndSet.injEq] at hpending'
  exact ⟨hpending'.1, hpending'.2.2⟩

theorem Crowd.idleAt_of_none (h : (start.trace schedule n).pending (schedule n) = none) :
    start.IdleAt schedule n where
  store_eq := by
    rw [Crowd.trace, Crowd.step]
    simp only [h]
  not_swaps := by
    rintro key content ⟨expected, hpending, -⟩
    rw [h] at hpending
    cases hpending

theorem Crowd.idleAt_of_get {key : String}
    (h : (start.trace schedule n).pending (schedule n) = some (.get key)) : start.IdleAt schedule n where
  store_eq := Crowd.store_trace_succ h
  not_swaps := by
    rintro other content ⟨expected, hpending, -⟩
    rw [h] at hpending
    cases hpending

/-- A conditional write takes effect, or leaves the store alone. -/
theorem Crowd.swapsAt_or_idleAt {key : String} {expected content : Option Bytes}
    (h : (start.trace schedule n).pending (schedule n) = some (.compareAndSet key expected content)) :
    (start.SwapsAt schedule key content n ∧
      (start.trace schedule (n + 1)).store = (start.trace schedule n).store.put key content) ∨
    start.IdleAt schedule n := by
  have hstore := Crowd.store_trace_succ h
  -- what is written in the turn is what this call writes
  have hidle : (MemoryStore.step (.compareAndSet key expected content) (start.trace schedule n).store).2 =
        (start.trace schedule n).store →
      (MemoryStore.step (.compareAndSet key expected content) (start.trace schedule n).store).1 ≠ .ok true →
      start.IdleAt schedule n := by
    intro hsame hfails
    refine ⟨hstore.trans hsame, ?_⟩
    rintro _ _ ⟨_, hpending, hswap⟩
    rw [h] at hpending
    cases hpending
    exact hfails hswap
  by_cases ht : (start.trace schedule n).store.TakesValue key
  · have hstep := step_compareAndSet ht expected content
    by_cases hsame : (start.trace schedule n).store.read (.value key) = expected
    · rw [if_pos hsame] at hstep
      refine .inl ⟨⟨expected, h, by rw [hstep]⟩, ?_⟩
      rw [hstore, hstep]
      rfl
    · rw [if_neg hsame] at hstep
      refine .inr (hidle (by rw [hstep]) ?_)
      rw [hstep]
      exact fun h => by cases h
  · have hrefused : (start.trace schedule n).store.Refuses (.compareAndSet key expected content) := ht
    refine .inr (hidle (by rw [step_refused hrefused]) ?_)
    rw [step_refused hrefused]
    exact fun h => by cases h

/-- What fails at once makes no calls. -/
theorem not_failsAtOnce_of_pending {requests : ι → RouteRequest} {s : MemoryStore} {i : ι} {c : Call}
    (hc : ((routeCrowd requests s).trace schedule n).pending i = some c) :
    ¬ FailsAtOnce (requests i).operation := by
  rintro ⟨e, he, -⟩
  have hnone : (requests i).operation.Only fun _ => False := by
    rw [he]
    exact only_throw e
  exact Crowd.pending_of_only rfl hnone hc

/-- **What a turn does**: it writes nothing, or the entry that a call brings, under the key of its domain,
or removes the entry if the call brings none. -/
theorem turn_cases (requests : ι → RouteRequest) (schedule : Nat → ι) (s : MemoryStore) (n : Nat) :
    let crowd := routeCrowd requests s
    crowd.IdleAt schedule n ∨
    ∃ call name, requests (schedule n) = .change call ∧ DomainName.parse call.domain = .ok name ∧
      (∀ entry, call.registration? = some entry → entry.Proper) ∧
      crowd.SwapsAt schedule name.routingKey (call.registration?.map (RoutingEntry.encode name.routingKey)) n ∧
      (crowd.trace schedule (n + 1)).store = (crowd.trace schedule n).store.put name.routingKey
        (call.registration?.map (RoutingEntry.encode name.routingKey)) := by
  intro crowd
  cases hc : (crowd.trace schedule n).pending (schedule n) with
  | none => exact .inl (Crowd.idleAt_of_none hc)
  | some c =>
    have hcalls := not_failsAtOnce_of_pending hc
    rcases (requests (schedule n)).operation_cases with hfails | ⟨name, verdict, hname, hop, hdecides⟩
    · exact absurd hfails hcalls
    have htries : (requests (schedule n)).operation.Only (TriesSwap name.routingKey verdict) := by
      rw [hop]
      exact only_swapRounds_pure none claimAttempts
    have htry := Crowd.pending_of_only rfl htries hc
    cases c with
    | get key => exact .inl (Crowd.idleAt_of_get hc)
    | compareAndSet key expected content =>
      obtain ⟨rfl, hverdict⟩ := htry
      obtain ⟨call, change, hrequest, hcall, hchange⟩ := hdecides.replaces _ _ hverdict
      obtain ⟨rfl, -⟩ := hcall.replaces _ _ hchange
      rw [hrequest] at hname hcalls
      rcases Crowd.swapsAt_or_idleAt hc with ⟨hswap, hput⟩ | hidle
      · refine .inr ⟨call, name, hrequest, hname, ?_, hswap, hput⟩
        refine call.fails_or_proper.resolve_left ?_
        rintro ⟨e, hfail, hkind⟩
        exact hcalls ⟨e, congrArg ((fun _ => none) <$> ·) hfail, hkind⟩
      · exact .inl hidle
    | _ => exact absurd htry id

/-! ## Runs -/

/-- The last write on a domain that took effect before turn `n` was that of turn `k`, and it brought the
entry of a registration. -/
structure RegisteredAt (requests : ι → RouteRequest) (s : MemoryStore) (schedule : Nat → ι)
    (name : DomainName) (entry : RoutingEntry) (k n : Nat) : Prop where
  before : k < n
  registered : ∃ call, requests (schedule k) = .change call ∧ DomainName.parse call.domain = .ok name ∧
    call.registration? = some entry
  effect : (routeCrowd requests s).SwapsAt schedule name.routingKey (some (entry.encode name.routingKey)) k
  last : ∀ l content, k < l → l < n → ¬ (routeCrowd requests s).SwapsAt schedule name.routingKey content l

variable {requests : ι → RouteRequest} {s : MemoryStore}

/-- A turn without a write on the domain keeps the last one. -/
theorem RegisteredAt.succ {name : DomainName} {entry : RoutingEntry} {k : Nat}
    (h : RegisteredAt requests s schedule name entry k n)
    (hkept : ∀ content, ¬ (routeCrowd requests s).SwapsAt schedule name.routingKey content n) :
    RegisteredAt requests s schedule name entry k (n + 1) where
  before := Nat.lt_succ_of_lt h.before
  registered := h.registered
  effect := h.effect
  last := by
    intro l content hkl hln
    rcases Nat.lt_succ_iff_lt_or_eq.1 hln with hlt | rfl
    · exact h.last l content hkl hlt
    · exact hkept content

/-- What is stored after any number of turns was brought by the last write on its domain. -/
theorem exists_registeredAt (requests : ι → RouteRequest) (schedule : Nat → ι) (n : Nat) {key : String}
    {slot : Slot} (h : ((routeCrowd requests .empty).trace schedule n).store.slots[key]? = some slot) :
    ∃ (name : DomainName) (entry : RoutingEntry), key = name.routingKey ∧
      slot = .value (entry.encode key) ∧ entry.Proper ∧
      ∃ k, RegisteredAt requests .empty schedule name entry k n := by
  induction n generalizing key slot with
  | zero =>
    have hempty : (MemoryStore.empty.slots[key]? : Option Slot) = none := Std.ExtTreeMap.getElem?_empty
    exact absurd (h.symm.trans hempty) (Option.some_ne_none _)
  | succ n ih =>
    rcases turn_cases requests schedule .empty n with
      hidle | ⟨call, name, hrequest, hname, hproper, heffect, hput⟩
    · rw [hidle.store_eq] at h
      obtain ⟨name, entry, rfl, hvalue, hentry, k, hlast⟩ := ih h
      exact ⟨name, entry, rfl, hvalue, hentry, k, hlast.succ fun content => hidle.not_swaps _ content⟩
    rw [hput, getElem?_slots_put] at h
    split at h
    · next hkey =>
      subst hkey
      cases hentry : call.registration? with
      | none =>
        rw [hentry] at h
        cases h
      | some entry =>
        rw [hentry] at h heffect
        cases h
        refine ⟨name, entry, rfl, rfl, hproper entry hentry, n, ?_⟩
        exact ⟨Nat.lt_succ_self n, ⟨call, hrequest, hname, hentry⟩, heffect, fun l _ hnl hln => by omega⟩
    · next hkey =>
      obtain ⟨other, entry, rfl, hvalue, hentry, k, hlast⟩ := ih h
      refine ⟨other, entry, rfl, hvalue, hentry, k, hlast.succ fun content hswap => ?_⟩
      exact hkey (hswap.inj heffect).1

/-- **The routing table holds registrations alone.** Whatever registrations, removals and look-ups take
turns on the empty store, each name in the store is at any time the key of a domain. Its value is the
stored form of a proper entry under this key, and can be read back. The entry is that of the
registration whose write on the domain was the last to take effect. Its secret, if it has one, is bound
to its owner, and to nobody else unless one of the two names starts with the other and a colon. -/
theorem routing_store_invariant (requests : ι → RouteRequest) (schedule : Nat → ι) (n : Nat) :
    let store := ((routeCrowd requests .empty).trace schedule n).store
    ∀ key ∈ store.names, ∃ (name : DomainName) (entry : RoutingEntry), key = name.routingKey ∧
      store.slots[key]? = some (.value (entry.encode key)) ∧
      RoutingEntry.decode (entry.encode key) = .ok entry ∧ entry.Proper ∧
      (∃ k, RegisteredAt requests .empty schedule name entry k n) ∧
      ∀ secret user, entry.route = .reverse secret → BoundTo user secret →
        user = entry.owner ∨ BoundTo entry.owner user ∨ BoundTo user entry.owner := by
  intro store key hkey
  obtain ⟨slot, hslot⟩ := exists_slot_of_mem_names hkey
  obtain ⟨name, entry, rfl, rfl, hproper, k, hlast⟩ :=
    exists_registeredAt requests schedule n hslot
  refine ⟨name, entry, rfl, hslot, RoutingEntry.decode_encode hproper.storable _, hproper, ⟨k, hlast⟩, ?_⟩
  intro secret user hroute hbound
  exact (hproper.bound secret hroute).nested hbound

/-- A user forwards a domain, and hands it to a tunnel in another spelling at the same time. Both find no
entry; the forward is written first, and the write of the tunnel fails. -/
theorem routing_store_invariant_contested :
    let key : Key := ⟨List.replicate 32 7, rfl⟩
    let requests : Bool → RouteRequest := fun tunnel =>
      if tunnel then .change (.registerReverse ⟨.fixed [], key⟩ "zoë" "APP.example.com" (.plain "zoë:1:2"))
      else .change (.registerForward "zoë" "app.example.com" "10.0.0.5" 80 443)
    let schedule : Nat → Bool := fun n => n = 0 ∨ 3 ≤ n
    let store := ((routeCrowd requests .empty).trace schedule 4).store
    "routing:app.example.com" ∈ store.names ∧
      ∃ (entry : RoutingEntry) (k : Nat), entry.Proper ∧ RegisteredAt requests .empty schedule .sample entry k 4 := by
  intro key requests schedule store
  have hkey : "routing:app.example.com" ∈ store.names := by decide +kernel
  have hsample : DomainName.sample.routingKey = "routing:app.example.com" := by decide +kernel
  obtain ⟨name, entry, hname, -, -, hproper, ⟨k, hlast⟩, -⟩ :=
    routing_store_invariant requests schedule 4 _ hkey
  obtain rfl := DomainName.routingKey_inj.1 (hsample.trans hname)
  exact ⟨hkey, entry, k, hproper, hlast⟩

/-- A name that goes on after a colon does not keep its secrets to itself: the user with the shorter name
registers the same one, which is bound to both. -/
theorem nested_name_shares_secret :
    let auth : RouteAuthority := ⟨.fixed [], ⟨List.replicate 32 7, rfl⟩⟩
    let requests : Bool → RouteRequest := fun nested =>
      if nested then .change (.registerReverse auth "alice:ops" "ops.example.com" (.plain "alice:ops:1"))
      else .change (.registerReverse auth "alice" "app.example.com" (.plain "alice:ops:1"))
    let store := ((routeCrowd requests .empty).trace (fun n => n < 2) 4).store
    ¬ ∀ (key : String) (entry : RoutingEntry), store.read (.value key) = some (entry.encode key) →
      ∀ secret user, entry.route = .reverse secret → BoundTo user secret → user = entry.owner := by
  intro auth requests store h
  have hstored : store.read (.value "routing:app.example.com") =
      some (RoutingEntry.encode "routing:app.example.com" ⟨"alice", .reverse "alice:ops:1"⟩) := by
    decide +kernel
  have hbound : BoundTo "alice:ops" "alice:ops:1" := by decide +kernel
  exact absurd (h _ _ hstored _ _ rfl hbound) (by decide)

end Turn
end GatewayControl
