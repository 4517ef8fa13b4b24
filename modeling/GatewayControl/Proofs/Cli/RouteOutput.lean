import GatewayControl.Cli.Run
import GatewayControl.Proofs.Authority.RouteInvariant
import GatewayControl.Proofs.Store.Interchange
import GatewayControl.Tunnel.Script

/-!
# `GatewayControl.Proofs.Cli.RouteOutput` -- what is shown of a route

The secret of a reverse tunnel is stored in the entry of its domain, and the pretty form of the entry shows
what stands before the first colon of it. What a registration asks for is something else: the secret has to
start with the whole name of its user and a colon, and user names may have colons. So what is shown lies
inside the name of the owner, wherever the colons are (`maskedSecret_of_boundTo`), and the form of a reverse
entry is one text for each domain and owner (`shownEntry_of_boundTo`).

A registration that succeeded has swapped its entry in, and a store keeps what was swapped in
(`KeepsSwaps`). So this entry is the one that is shown afterwards, in either store
(`shown_route_hides_secret`).
-/

namespace GatewayControl

open Operation

/-! ## What is left of a swap -/

/-- A value that was swapped in is there to be read. -/
def KeepsSwaps (σ : Type) [Backend σ] : Prop :=
  ∀ (s : σ) key expected value,
    (Backend.step (.compareAndSet key expected (some value)) s).1 = .ok true →
      (Backend.step (.get key) (Backend.step (.compareAndSet key expected (some value)) s).2).1 =
        .ok (some value)

theorem MemoryStore.keepsSwaps : KeepsSwaps MemoryStore := by
  intro s key expected value h
  change (step (.compareAndSet key expected (some value)) s).1 = .ok true at h
  show (step (.get key) (step (.compareAndSet key expected (some value)) s).2).1 = _
  by_cases ht : s.TakesValue key
  · rw [step_compareAndSet ht] at h ⊢
    split at h
    · next hsame =>
      rw [if_pos hsame, step_get (takes_write (.value key) ht _), read_write (.value key) ht, if_pos rfl]
    · cases h
  · have hrefused : s.Refuses (.compareAndSet key expected (some value)) := ht
    rw [step_refused hrefused] at h
    cases h

/-- A plain value that is read is in the slot of its name. -/
theorem MemoryStore.slot_of_get {s : MemoryStore} {key : String} {raw : Bytes}
    (h : (Backend.step (.get key) s).1 = .ok (some raw)) : s.slots[key]? = some (.value raw) := by
  change s.plain key = .ok (some raw) at h
  unfold plain at h
  split at h
  · cases h
  · next bytes hslot =>
    cases h
    exact hslot
  · cases h

theorem TableStore.keepsSwaps : KeepsSwaps TableStore := by
  intro t key expected value h
  change (step (.compareAndSet key expected (some value)) t).1 = .ok true at h
  show (step (.get key) (step (.compareAndSet key expected (some value)) t).2).1 = _
  rw [step_compareAndSet] at h ⊢
  by_cases hash : t.isHash key = true
  · rw [if_pos hash] at h
    cases h
  · rw [if_neg hash] at h ⊢
    split at h
    · next hsame =>
      rw [if_pos hsame]
      -- the statement on plain values leaves the table of fields alone
      have hread : (t.upsertValue key value).read (.value key) = some value :=
        (read_upsertValue value).trans (if_pos rfl)
      have hvalue : (t.upsertValue key value).value? key = some value := hread
      have hplain : (t.upsertValue key value).isHash key ≠ true := hash
      show (step (.get key) (t.upsertValue key value)).1 = _
      rw [step, if_neg hplain, hvalue]
    · cases h

section Registered

variable {σ : Type} [Backend σ] {s t : σ}

/-- Rounds that succeeded ended with an answer, or with a swap. -/
theorem of_alone_swapRounds {β : Type} {key : String} {verdict : Option Bytes → Verdict β} {rounds : Nat}
    {b done : β} (h : alone (swapRounds key verdict (pure done) rounds) s = (.ok b, t)) :
    (∃ raw, verdict raw = .answer (.ok b)) ∨
      ∃ (u : σ) (raw content : Option Bytes), verdict raw = .replace content ∧
        Backend.step (.compareAndSet key raw content) u = (.ok true, t) := by
  induction rounds generalizing s with
  | zero => cases h
  | succ rounds ih =>
    have hrun : Program.run (swapRounds key verdict (pure done) (rounds + 1)).run s = (.ok b, t) := h
    rw [run_swapRounds_succ, Program.run] at hrun
    rcases hget : Backend.step (.get key) s with ⟨reply, u⟩
    rw [hget] at hrun
    cases reply with
    | error fault => cases hrun
    | ok raw =>
      cases hverdict : verdict raw with
      | answer result =>
        simp only [hverdict, Program.run, Prod.mk.injEq] at hrun
        obtain ⟨rfl, -⟩ := hrun
        exact .inl ⟨raw, hverdict⟩
      | replace content =>
        simp only [hverdict, Program.run] at hrun
        rcases hswap : Backend.step (.compareAndSet key raw content) u with ⟨reply, v⟩
        rw [hswap] at hrun
        cases reply with
        | error fault => cases hrun
        | ok changed =>
          cases changed with
          | false => exact ih hrun
          | true =>
            obtain rfl : v = t := congrArg Prod.snd hrun
            exact .inr ⟨u, raw, content, hverdict, hswap⟩

/-- A registration does not succeed without writing. -/
theorem RouteAuthority.registerVerdict_ne_ok (name : DomainName) (entry : RoutingEntry) (raw : Option Bytes) :
    registerVerdict name entry raw ≠ .answer (.ok ()) := by
  intro h
  unfold registerVerdict at h
  split at h
  · cases h
  split at h
  · cases h
  split at h <;> cases h

theorem RouteAuthority.content_of_registerVerdict {name : DomainName} {entry : RoutingEntry}
    {raw content : Option Bytes} (h : registerVerdict name entry raw = .replace content) :
    content = some (entry.encode name.routingKey) := by
  unfold registerVerdict at h
  split at h
  · cases h
    rfl
  split at h
  · cases h
  split at h
  · cases h
  · cases h
    rfl

/-- **A registration that succeeded has left its entry**, whose secret is bound to the user. -/
theorem read_of_registered (hσ : KeepsSwaps σ) {auth : RouteAuthority} {user domain : String}
    {secret : ReverseSecret} (h : alone (auth.registerReverse user domain secret) s = (.ok (), t)) :
    ∃ name plain, DomainName.parse domain = .ok name ∧ BoundTo user plain ∧
      (Backend.step (.get name.routingKey) t).1 =
        .ok (some (RoutingEntry.encode name.routingKey ⟨user, .reverse plain⟩)) := by
  rcases RouteCall.registerReverse_cases auth user domain secret with
    ⟨e, hfails, -⟩ | ⟨name, plain, -, hname, -, -, hbound, hrounds⟩
  · rw [hfails] at h
    cases h
  refine ⟨name, plain, hname, hbound, ?_⟩
  rw [hrounds, RouteAuthority.registerRounds_eq_swapRounds] at h
  rcases of_alone_swapRounds h with ⟨raw, hanswer⟩ | ⟨u, raw, content, hreplace, hswap⟩
  · exact absurd hanswer (RouteAuthority.registerVerdict_ne_ok name _ raw)
  · obtain rfl := RouteAuthority.content_of_registerVerdict hreplace
    have hkept := hσ u name.routingKey raw _ (congrArg Prod.fst hswap)
    rwa [hswap] at hkept

/-- A look at a domain is one call, and what is read from its answer. -/
theorem alone_entry {domain : String} {name : DomainName} (hname : DomainName.parse domain = .ok name) :
    (alone (RouteAuthority.entry domain) s).1 =
      match (Backend.step (.get name.routingKey) s).1 with
      | .error fault => .error (.storage (.store fault))
      | .ok none => .ok none
      | .ok (some raw) => (RoutingEntry.decode raw).map some := by
  have hrun : (alone (RouteAuthority.entry domain) s).1 =
      (Program.run (swapRounds name.routingKey RouteAuthority.entryVerdict (pure none) 1).run s).1 := by
    rw [RouteAuthority.entry_eq_swapRounds hname 0]
    rfl
  rw [hrun, run_swapRounds_succ, Program.run]
  rcases Backend.step (.get name.routingKey) s with ⟨fault | found, t⟩
  · rfl
  · cases found <;> rfl

/-- An entry that is found has been read from the value of the domain. -/
theorem exists_of_alone_entry {domain : String} {entry : RoutingEntry}
    (h : (alone (RouteAuthority.entry domain) s).1 = .ok (some entry)) :
    ∃ name raw, DomainName.parse domain = .ok name ∧
      (Backend.step (.get name.routingKey) s).1 = .ok (some raw) ∧ RoutingEntry.decode raw = .ok entry := by
  cases hname : DomainName.parse domain with
  | error fault =>
    unfold RouteAuthority.entry DomainName.require at h
    rw [hname] at h
    cases h
  | ok name =>
    rw [alone_entry hname] at h
    split at h
    · cases h
    · cases h
    · next raw hread =>
      cases hdecode : RoutingEntry.decode raw with
      | error e =>
        rw [hdecode] at h
        cases h
      | ok found =>
        rw [hdecode] at h
        cases h
        exact ⟨name, raw, rfl, hread, hdecode⟩

end Registered

/-! ## The form of an entry -/

namespace Cli

/-- What is shown of a domain whose owner hands it to a tunnel. -/
def shownTunnel (domain owner : String) : String :=
  unlines ["Domain: " ++ domain, field "owner" owner, field "kind" "reverse",
    field "secret" (maskedSecret owner)]

/-- **What is shown of a secret lies inside the name of its user.** -/
theorem maskedSecret_of_boundTo {user secret : String} (h : BoundTo user secret) :
    maskedSecret secret = maskedSecret user := by
  obtain ⟨rest, hrest⟩ := h
  have hlist : secret.toList = user.toList ++ ':' :: rest := by
    rw [← hrest, String.toList_append, List.append_assoc]
    rfl
  unfold maskedSecret
  rw [hlist, List.takeWhile_append]
  split
  · next hall =>
    -- without a colon in the name, the one behind it is the first
    have hnone : user.toList.takeWhile (· ≠ ':') = user.toList :=
      List.IsPrefix.eq_of_length (List.takeWhile_prefix _) hall
    rw [hnone]
    simp
  · rfl

/-- A reverse entry is shown as its owner has it, whatever the secret. -/
theorem shownEntry_of_boundTo {owner secret : String} (h : BoundTo owner secret) (domain : String) :
    shownEntry .pretty domain (some ⟨owner, .reverse secret⟩) = shownTunnel domain owner := by
  show unlines ["Domain: " ++ domain, field "owner" owner, field "kind" "reverse",
    field "secret" (maskedSecret secret)] = _
  rw [maskedSecret_of_boundTo h]
  rfl

section Shown

variable {σ η : Type} [Backend σ] [Host η] {c : Context} {domain owner secret : String} {s : σ}

/-- A domain whose entry is found to be a reverse one, bound to its owner, is shown as its owner has it. -/
theorem perform_showRoute (hformat : c.format = .pretty) (hbound : BoundTo owner secret)
    (hentry : (alone (RouteAuthority.entry domain) s).1 = .ok (some ⟨owner, .reverse secret⟩))
    (files : Files) (d : PlacedDevice η) :
    (c.perform files (.showRoute domain) s d).1 = ⟨shownTunnel domain owner, none⟩ := by
  show Transcript.ofExcept ((((alone (RouteAuthority.entry domain) s).1).mapError Failure.ofError).map
    (shownEntry c.format domain)) = _
  rw [hentry, hformat]
  show (⟨shownEntry .pretty domain (some ⟨owner, .reverse secret⟩), none⟩ : Transcript) = _
  rw [shownEntry_of_boundTo hbound]

/-- What is shown after a registration that succeeded. -/
theorem perform_showRoute_of_registered (hσ : KeepsSwaps σ) (hformat : c.format = .pretty)
    {auth : RouteAuthority} {user : String} {request : ReverseSecret} {t : σ}
    (h : alone (auth.registerReverse user domain request) s = (.ok (), t)) (files : Files)
    (d : PlacedDevice η) :
    (c.perform files (.showRoute domain) t d).1 = ⟨shownTunnel domain user, none⟩ := by
  obtain ⟨name, plain, hname, hbound, hread⟩ := read_of_registered hσ h
  have hstorable : (⟨user, .reverse plain⟩ : RoutingEntry).Storable := by
    intro hroute
    exact hbound.ne_empty (Route.reverse.inj hroute)
  apply perform_showRoute hformat hbound
  rw [alone_entry hname, hread]
  show (RoutingEntry.decode _).map some = _
  rw [RoutingEntry.decode_encode hstorable]
  rfl

end Shown

/-- What is shown of a reverse entry that registrations and removals, at work at the same time, have left. -/
theorem perform_showRoute_of_raced {ι η : Type} [DecidableEq ι] [Host η] {c : Context}
    (hformat : c.format = .pretty) (requests : ι → RouteRequest) (schedule : Nat → ι) (n : Nat)
    {domain : String} {entry : RoutingEntry} (hreverse : entry.isReverse = true)
    (hentry : (alone (RouteAuthority.entry domain)
      ((routeCrowd requests .empty).trace schedule n).store).1 = .ok (some entry))
    (files : Files) (d : PlacedDevice η) :
    (c.perform files (.showRoute domain) ((routeCrowd requests .empty).trace schedule n).store d).1 =
      ⟨shownTunnel domain entry.owner, none⟩ := by
  obtain ⟨name, raw, -, hread, hdecode⟩ := exists_of_alone_entry hentry
  -- the value is in the slot of the domain, so some registration has brought it
  obtain ⟨_, stored, -, hstored, hproper, -⟩ :=
    exists_registeredAt requests schedule n (MemoryStore.slot_of_get hread)
  obtain rfl : stored = entry := by
    rw [Slot.value.inj hstored, RoutingEntry.decode_encode hproper.storable, Except.ok.injEq] at hdecode
    exact hdecode
  obtain ⟨owner, route⟩ := stored
  cases route with
  | forward addr httpPort tlsPort => cases hreverse
  | reverse secret => exact perform_showRoute hformat (hproper.bound secret rfl) hentry files d

/-- What users rely on when a route is shown from such a store. -/
structure HidesSecrets (σ : Type) [Backend σ] : Prop where
  /-- After a registration that succeeded, the text is that of the domain and the user. -/
  shown : ∀ {η : Type} [Host η] (c : Context) (files : Files) (d : PlacedDevice η) (auth : RouteAuthority)
    (user domain : String) (secret : ReverseSecret) (s t : σ), c.format = .pretty →
    alone (auth.registerReverse user domain secret) s = (.ok (), t) →
      (c.perform files (.showRoute domain) t d).1 = ⟨shownTunnel domain user, none⟩
  /-- Two secrets are not told apart by it, whatever gateways they were registered at, in whatever forms, and
  whatever was in the stores before. -/
  alike : ∀ {η : Type} [Host η] (c c' : Context) (files files' : Files) (d d' : PlacedDevice η)
    (auth auth' : RouteAuthority) (user domain : String) (secret secret' : ReverseSecret) (s s' t t' : σ),
    c.format = .pretty → c'.format = .pretty →
    alone (auth.registerReverse user domain secret) s = (.ok (), t) →
    alone (auth'.registerReverse user domain secret') s' = (.ok (), t') →
      (c.perform files (.showRoute domain) t d).1 = (c'.perform files' (.showRoute domain) t' d').1

theorem hidesSecrets {σ : Type} [Backend σ] (hσ : KeepsSwaps σ) : HidesSecrets σ where
  shown := by
    intro η _ c files d auth user domain secret s t hformat h
    exact perform_showRoute_of_registered hσ hformat h files d
  alike := by
    intro η _ c c' files files' d d' auth auth' user domain secret secret' s s' t t' hformat hformat' h h'
    rw [perform_showRoute_of_registered hσ hformat h files d,
      perform_showRoute_of_registered hσ hformat' h' files' d']

/-- **Showing a route hides its secret.** After a user's registration of a secret for a domain succeeded in
either store, the pretty form of the route is one text for the domain and the user: two secrets give the same
output, plain or sealed. So it is for every reverse entry that can be found in a store on which any requests
about routes take turns: its output depends on the domain and the owner alone. -/
theorem shown_route_hides_secret :
    HidesSecrets MemoryStore ∧ HidesSecrets TableStore ∧
      ∀ {ι η : Type} [DecidableEq ι] [Host η] (c : Context) (requests : ι → RouteRequest) (schedule : Nat → ι)
        (n : Nat) (domain : String) (entry : RoutingEntry) (files : Files) (d : PlacedDevice η),
        let store := ((routeCrowd requests .empty).trace schedule n).store
        c.format = .pretty → (alone (RouteAuthority.entry domain) store).1 = .ok (some entry) →
          entry.isReverse = true →
          (c.perform files (.showRoute domain) store d).1 = ⟨shownTunnel domain entry.owner, none⟩ := by
  refine ⟨hidesSecrets MemoryStore.keepsSwaps, hidesSecrets TableStore.keepsSwaps, ?_⟩
  intro ι η _ _ c requests schedule n domain entry files d store hformat hentry hreverse
  exact perform_showRoute_of_raced hformat requests schedule n hreverse hentry files d

/-- The name of a user may have a colon. Whatever stands behind the name in the secret, only the part before
the first colon is shown. -/
theorem shown_route_hides_secret_colons :
    let auth : RouteAuthority := ⟨.fixed [], ⟨List.replicate 32 7, rfl⟩⟩
    let first := alone (auth.registerReverse "alice:ops" "app.example.com" (.plain "alice:ops:1"))
      TableStore.empty
    let second := alone (auth.registerReverse "alice:ops" "app.example.com" (.plain "alice:ops:a:b"))
      TableStore.empty
    first.1 = .ok () ∧ second.1 = .ok () ∧ first.2 ≠ second.2 ∧
      ∀ (c : Context) (files : Files) (d : PlacedDevice ScriptedHost), c.format = .pretty →
        (c.perform files (.showRoute "app.example.com") first.2 d).1 =
          (c.perform files (.showRoute "app.example.com") second.2 d).1 ∧
        (c.perform files (.showRoute "app.example.com") first.2 d).1.output =
          "Domain: app.example.com\n  owner:       alice:ops\n  kind:        reverse\n  secret:      alice:****\n" := by
  intro auth first second
  have hfirst : first.1 = .ok () := by decide +kernel
  have hsecond : second.1 = .ok () := by decide +kernel
  have hne : first.2 ≠ second.2 := by decide +kernel
  have hfirst' : first = (.ok (), first.2) := Prod.ext hfirst rfl
  have hsecond' : second = (.ok (), second.2) := Prod.ext hsecond rfl
  have htext : shownTunnel "app.example.com" "alice:ops" =
      "Domain: app.example.com\n  owner:       alice:ops\n  kind:        reverse\n  secret:      alice:****\n" := by
    decide +kernel
  have hhidden := shown_route_hides_secret.2.1
  refine ⟨hfirst, hsecond, hne, fun c files d hformat => ⟨?_, ?_⟩⟩
  · exact hhidden.alike c c files files d d auth auth _ _ _ _ _ _ _ _ hformat hformat hfirst' hsecond'
  · rw [hhidden.shown c files d auth _ _ _ _ _ hformat hfirst', htext]

end Cli
end GatewayControl
