import GatewayControl.Proofs.Authority.Frame
import GatewayControl.Proofs.Operation.Rounds
import GatewayControl.Proofs.Routing.EntryCodec

/-!
# `GatewayControl.Proofs.Authority.RouteRounds` -- requests about routes as rounds of one loop

Every request about a route that passes its checks is a loop of `swapRounds` on the entry of its domain
(`RouteRequest.operation_cases`), a query being one that never replaces anything. What a request makes
of the entry that it reads is decided by the owner that the entry names (`RouteRequest.Decides`).
-/

namespace GatewayControl

open Operation MemoryStore

/-! ## Failures that have nothing to do with the store -/

/-- The cause of a failure lies in the request or in the directory, not in the store. -/
def FailsOutsideStore {α : Type} (result : Except GatewayError α) : Prop :=
  ∀ e, result = .error e → e.kind ≠ .storage

section FailsOutsideStore

variable {α β : Type} {e : GatewayError} {result : Except GatewayError α}
  {next : α → Except GatewayError β}

theorem failsOutsideStore_ok (a : α) : FailsOutsideStore (.ok a) := by
  intro e h
  cases h

theorem failsOutsideStore_error (h : e.kind ≠ .storage) : FailsOutsideStore (.error e : Except _ α) := by
  intro e' he
  cases he
  exact h

theorem failsOutsideStore_validation (reason : String) :
    FailsOutsideStore (.error (.validation reason) : Except _ α) :=
  failsOutsideStore_error nofun

theorem failsOutsideStore_directory (reason : String) :
    FailsOutsideStore (.error (.directory reason) : Except _ α) :=
  failsOutsideStore_error nofun

/-- A sequence of checks fails as one of them does. -/
theorem failsOutsideStore_bind (h : FailsOutsideStore result)
    (hnext : ∀ a, FailsOutsideStore (next a)) : FailsOutsideStore (result >>= next) := by
  cases result with
  | error e =>
    intro e' he
    cases he
    exact h e rfl
  | ok a => exact hnext a

end FailsOutsideStore

theorem failsOutsideStore_sharedKey (secret peer : Key) :
    FailsOutsideStore (Secret.sharedKey secret peer) := by
  unfold Secret.sharedKey
  dsimp only
  split
  · exact failsOutsideStore_ok _
  · exact failsOutsideStore_validation _

/-- A sealed secret is opened without the store, and refused as malformed. -/
theorem failsOutsideStore_openSealed (sealed : String) (secret peer : Key) :
    FailsOutsideStore (Secret.openSealed sealed secret peer) := by
  rw [Secret.openSealed]
  cases Text.Hex.decode (Bytes.ofText (Text.trim sealed)) with
  | error fault => exact failsOutsideStore_validation _
  | ok raw =>
    dsimp only
    refine failsOutsideStore_bind (failsOutsideStore_ok raw) fun raw => ?_
    by_cases hshort : raw.length < Crypto.Gcm.nonceSize + Crypto.Gcm.tagSize
    · rw [if_pos hshort]
      exact failsOutsideStore_validation _
    rw [if_neg hshort]
    refine failsOutsideStore_bind (failsOutsideStore_sharedKey secret peer) fun key => ?_
    cases Crypto.Gcm.decrypt? key (List.take Crypto.Gcm.nonceSize raw)
      (List.drop Crypto.Gcm.nonceSize raw) with
    | none => exact failsOutsideStore_validation _
    | some text =>
      dsimp only
      cases Bytes.toText? text with
      | none => exact failsOutsideStore_validation _
      | some text => exact failsOutsideStore_ok text

theorem failsOutsideStore_parseHex (s : String) : FailsOutsideStore (Key.parseHex s) := by
  unfold Key.parseHex
  split
  · exact failsOutsideStore_directory _
  split
  · exact failsOutsideStore_ok _
  · exact failsOutsideStore_directory _

theorem failsOutsideStore_userUrl (base : Url) (user : String) :
    FailsOutsideStore (Directory.userUrl base user) := by
  unfold Directory.userUrl
  cases base.segments? with
  | none => exact failsOutsideStore_error nofun
  | some segments => exact failsOutsideStore_ok _

/-- Whatever the explorer answers, in whatever form. -/
theorem failsOutsideStore_readResponse (user : String) (response : Http.Response) :
    FailsOutsideStore (Directory.readResponse user response) := by
  unfold Directory.readResponse
  split
  · exact failsOutsideStore_error nofun
  split
  · exact failsOutsideStore_directory _
  split
  · exact failsOutsideStore_parseHex _
  · exact failsOutsideStore_directory _

/-- A look-up that fails is the directory's matter, whether or not the explorer was reached. -/
theorem failsOutsideStore_fetch (directory : Directory) (user : String) :
    FailsOutsideStore (directory.fetch user) := by
  cases directory with
  | fixed keys =>
    unfold Directory.fetch
    dsimp only
    cases keys.lookup user with
    | some key => exact failsOutsideStore_ok key
    | none => exact failsOutsideStore_error nofun
  | explorer base client =>
    unfold Directory.fetch
    refine failsOutsideStore_bind (failsOutsideStore_userUrl base user) fun url => ?_
    cases Http.get client url with
    | ok response => exact failsOutsideStore_readResponse user response
    | error reason => exact failsOutsideStore_directory reason

/-- Bringing a secret into the clear asks the directory at most. -/
theorem failsOutsideStore_reveal (auth : RouteAuthority) (user : String) (secret : ReverseSecret) :
    FailsOutsideStore (auth.reveal user secret) := by
  cases secret with
  | plain secret => exact failsOutsideStore_ok secret
  | encrypted sealed =>
    unfold RouteAuthority.reveal
    dsimp only
    split
    · exact failsOutsideStore_validation _
    · exact failsOutsideStore_bind (failsOutsideStore_fetch auth.directory user) fun peer =>
        failsOutsideStore_openSealed sealed auth.secret peer

theorem failsOutsideStore_checkBound (user secret : String) :
    FailsOutsideStore (RouteAuthority.checkBound user secret) := by
  unfold RouteAuthority.checkBound
  split
  · exact failsOutsideStore_validation _
  split
  · exact failsOutsideStore_ok ()
  · exact failsOutsideStore_validation _

theorem of_checkBound {user secret : String} {checked : Unit}
    (h : RouteAuthority.checkBound user secret = .ok checked) :
    secret ≠ "" ∧ (user ++ ":").toList <+: secret.toList := by
  unfold RouteAuthority.checkBound at h
  split at h
  · cases h
  next hne =>
  split at h
  · next hbound => exact ⟨hne, List.isPrefixOf_iff_prefix.1 hbound⟩
  · cases h

/-! ## The loops -/

namespace RouteAuthority

variable {name : DomainName}

/-- What a registration makes of a stored entry. -/
def registerVerdict (name : DomainName) (entry : RoutingEntry) (raw : Option Bytes) : Verdict Unit :=
  match raw with
  | none => .replace (some (entry.encode name.routingKey))
  | some bytes =>
    match RoutingEntry.decode bytes with
    | .error e => .answer (.error e)
    | .ok existing =>
      if existing.owner ≠ entry.owner then .answer (.error (.unauthorized "add proxy from" name.text))
      else .replace (some (entry.encode name.routingKey))

/-- What a removal makes of a stored entry. -/
def deregisterVerdict (user : String) (name : DomainName) (raw : Option Bytes) : Verdict Unit :=
  match raw with
  | none => .answer (.ok ())
  | some bytes =>
    match RoutingEntry.decode bytes with
    | .error e => .answer (.error e)
    | .ok existing =>
      if existing.owner ≠ user then .answer (.error (.unauthorized "remove proxy from" name.text))
      else .replace none

/-- What a look at an entry makes of it. -/
def entryVerdict (raw : Option Bytes) : Verdict (Option RoutingEntry) :=
  match raw with
  | none => .answer (.ok none)
  | some bytes => .answer ((RoutingEntry.decode bytes).map some)

/-- The rounds of a registration are those of a conditional change. -/
theorem registerRounds_eq_swapRounds (name : DomainName) (entry : RoutingEntry) (rounds : Nat) :
    registerRounds name entry rounds =
      swapRounds name.routingKey (registerVerdict name entry) (pure ()) rounds := by
  refine eq_swapRounds rfl (fun rounds => ?_) rounds
  rw [registerRounds]
  congr 1
  funext raw
  unfold registerVerdict
  cases raw with
  | none => rfl
  | some bytes =>
    simp only
    cases RoutingEntry.decode bytes with
    | error e => rfl
    | ok existing =>
      show (if existing.owner ≠ entry.owner then _ else _ : Operation Unit) = _
      by_cases ho : existing.owner ≠ entry.owner
      · rw [if_pos ho]
        simp only [if_pos ho]
        rfl
      · rw [if_neg ho]
        simp only [if_neg ho]

theorem deregisterRounds_eq_swapRounds (user : String) (name : DomainName) (rounds : Nat) :
    deregisterRounds user name rounds =
      swapRounds name.routingKey (deregisterVerdict user name) (pure ()) rounds := by
  refine eq_swapRounds rfl (fun rounds => ?_) rounds
  rw [deregisterRounds]
  congr 1
  funext raw
  unfold deregisterVerdict
  cases raw with
  | none => rfl
  | some bytes =>
    simp only
    cases RoutingEntry.decode bytes with
    | error e => rfl
    | ok existing =>
      show (if existing.owner ≠ user then _ else _ : Operation Unit) = _
      by_cases ho : existing.owner ≠ user
      · rw [if_pos ho]
        simp only [if_pos ho]
        rfl
      · rw [if_neg ho]
        simp only [if_neg ho]

/-- A look at an entry needs one round, and any number of them is the same. -/
theorem entry_eq_swapRounds {domain : String} (hd : DomainName.parse domain = .ok name) (rounds : Nat) :
    entry domain = swapRounds name.routingKey entryVerdict (pure none) (rounds + 1) := by
  unfold entry
  rw [DomainName.require_eq_ok.2 hd, swapRounds]
  show get name.routingKey >>= _ = get name.routingKey >>= _
  congr 1
  funext raw
  unfold entryVerdict
  cases raw with
  | none => rfl
  | some bytes =>
    simp only
    cases RoutingEntry.decode bytes with
    | error e => rfl
    | ok existing => rfl

end RouteAuthority

/-! ## Calls -/

namespace RouteCall

variable {call : RouteCall} {name : DomainName}

/-- The entry that a registration writes. -/
def registration? : RouteCall → Option RoutingEntry
  | registerForward user _ addr httpPort tlsPort => some ⟨user, .forward addr httpPort tlsPort⟩
  | registerReverse auth user _ secret =>
    match auth.reveal user secret with
    | .ok plain => some ⟨user, .reverse plain⟩
    | .error _ => none
  | deregister _ _ => none

theorem registration?_registerReverse (auth : RouteAuthority) (user domain : String)
    (secret : ReverseSecret) :
    (registerReverse auth user domain secret).registration? =
      (auth.reveal user secret).toOption.map fun plain => ⟨user, .reverse plain⟩ := by
  rw [registration?]
  cases auth.reveal user secret <;> rfl

/-- What a call about a name decides. It answers without a fault of the store, and with success only
if it has nothing to write; it replaces no entry but its user's, by the entry that it brings, and is content
with that when it finds it. -/
structure Decides (call : RouteCall) (name : DomainName) (verdict : Option Bytes → Verdict Unit) :
    Prop where
  user_ne : call.user ≠ ""
  entry : ∀ entry, call.registration? = some entry → entry.Storable ∧ entry.owner = call.user
  answers : ∀ raw result, verdict raw = .answer result →
    ¬ GaveUp name.routingKey result ∧ (result = .ok () → call.registration? = none)
  replaces : ∀ raw content, verdict raw = .replace content →
    content = call.registration?.map (RoutingEntry.encode name.routingKey) ∧
      (raw = none ∨ ∃ bytes existing, raw = some bytes ∧ RoutingEntry.decode bytes = .ok existing ∧
        existing.owner = call.user)
  /-- What the call has written it would write again, or leave as it is. -/
  settles : ∀ raw content, verdict raw = .replace content →
    verdict content = .replace content ∨ verdict content = .answer (.ok ())

theorem not_gaveUp_decode {key : String} {bytes : Bytes} {e : GatewayError}
    (h : RoutingEntry.decode bytes = .error e) {α : Type} : ¬ GaveUp key (.error e : Except _ α) := by
  rintro ⟨⟩
  unfold RoutingEntry.decode at h
  split at h
  · cases h
  split at h
  · cases h
  split at h
  · cases h
  · cases h

/-- A registration replaces its own entry by itself. -/
theorem registerVerdict_settles {entry : RoutingEntry} (hstorable : entry.Storable) {raw content : Option Bytes}
    (h : RouteAuthority.registerVerdict name entry raw = .replace content) :
    RouteAuthority.registerVerdict name entry content = .replace content := by
  have hself : RouteAuthority.registerVerdict name entry (some (entry.encode name.routingKey)) =
      .replace (some (entry.encode name.routingKey)) := by
    simp only [RouteAuthority.registerVerdict, RoutingEntry.decode_encode hstorable, ne_eq, not_true, if_false]
  unfold RouteAuthority.registerVerdict at h
  cases raw with
  | none =>
    cases h
    exact hself
  | some bytes =>
    simp only at h
    split at h
    · cases h
    split at h
    · cases h
    · cases h
      exact hself

/-- A registration decides by the owner of the entry that it finds. -/
theorem decides_registerVerdict {entry : RoutingEntry} (huser : call.user ≠ "")
    (hentry : call.registration? = some entry) (howner : entry.owner = call.user) (hstorable : entry.Storable) :
    call.Decides name (RouteAuthority.registerVerdict name entry) where
  user_ne := huser
  entry := by
    intro other hother
    rw [hentry, Option.some.injEq] at hother
    exact hother ▸ ⟨hstorable, howner⟩
  answers := by
    intro raw result hverdict
    unfold RouteAuthority.registerVerdict at hverdict
    cases raw with
    | none => cases hverdict
    | some bytes =>
      simp only at hverdict
      split at hverdict
      · next e hdecode =>
        cases hverdict
        refine ⟨not_gaveUp_decode hdecode, ?_⟩
        intro hok
        cases hok
      · split at hverdict
        · cases hverdict
          constructor
          · intro hgave
            cases hgave
          · intro hok
            cases hok
        · cases hverdict
  replaces := by
    intro raw content hverdict
    rw [hentry]
    unfold RouteAuthority.registerVerdict at hverdict
    cases raw with
    | none =>
      cases hverdict
      exact ⟨rfl, .inl rfl⟩
    | some bytes =>
      simp only at hverdict
      split at hverdict
      · cases hverdict
      · next existing hdecode =>
        split at hverdict
        · cases hverdict
        · next ho =>
          cases hverdict
          exact ⟨rfl, .inr ⟨bytes, existing, rfl, hdecode, (Classical.not_not.1 ho).trans howner⟩⟩
  settles := fun _ _ hverdict => .inl (registerVerdict_settles hstorable hverdict)

/-- So does a removal. -/
theorem decides_deregisterVerdict {user domain : String} (huser : user ≠ "") :
    (deregister user domain).Decides name (RouteAuthority.deregisterVerdict user name) where
  user_ne := huser
  entry := by
    intro entry hentry
    cases hentry
  answers := by
    intro raw result hverdict
    refine ⟨?_, fun _ => rfl⟩
    unfold RouteAuthority.deregisterVerdict at hverdict
    cases raw with
    | none =>
      cases hverdict
      intro hgave
      cases hgave
    | some bytes =>
      simp only at hverdict
      split at hverdict
      · next e hdecode =>
        cases hverdict
        exact not_gaveUp_decode hdecode
      · split at hverdict
        · cases hverdict
          intro hgave
          cases hgave
        · cases hverdict
  replaces := by
    intro raw content hverdict
    unfold RouteAuthority.deregisterVerdict at hverdict
    cases raw with
    | none => cases hverdict
    | some bytes =>
      simp only at hverdict
      split at hverdict
      · cases hverdict
      · next existing hdecode =>
        split at hverdict
        · cases hverdict
        · next ho =>
          cases hverdict
          exact ⟨rfl, .inr ⟨bytes, existing, rfl, hdecode, Classical.not_not.1 ho⟩⟩
  settles := by
    intro raw content hverdict
    unfold RouteAuthority.deregisterVerdict at hverdict
    cases raw with
    | none => cases hverdict
    | some bytes =>
      simp only at hverdict
      split at hverdict
      · cases hverdict
      split at hverdict
      · cases hverdict
      · cases hverdict
        exact .inr rfl

/-- A forward fails in its checks, or leads to an address and is written in rounds. -/
theorem registerForward_cases (user domain addr : String) (httpPort tlsPort : UInt16) :
    FailsAtOnce (RouteAuthority.registerForward user domain addr httpPort tlsPort) ∨
      ∃ name, user ≠ "" ∧ DomainName.parse domain = .ok name ∧ addr ≠ "" ∧
        RouteAuthority.registerForward user domain addr httpPort tlsPort =
          RouteAuthority.registerRounds name ⟨user, .forward addr httpPort tlsPort⟩ claimAttempts := by
  unfold RouteAuthority.registerForward
  rcases ZoneAuthority.checked_cases user domain _ with ⟨e, he, hkind⟩ | ⟨hu, name, hname, hop⟩
  · exact .inl ⟨e, he, by simp [hkind]⟩
  rw [hop]
  by_cases haddr : addr = ""
  · rw [if_pos haddr]
    exact .inl ⟨_, rfl, fun h => by cases h⟩
  · rw [if_neg haddr]
    exact .inr ⟨name, hu, hname, haddr, rfl⟩

/-- A route to a tunnel fails in its checks, or its secret starts with the user and it is written in
rounds. -/
theorem registerReverse_cases (auth : RouteAuthority) (user domain : String) (secret : ReverseSecret) :
    FailsAtOnce (auth.registerReverse user domain secret) ∨
      ∃ name plain, user ≠ "" ∧ DomainName.parse domain = .ok name ∧
        auth.reveal user secret = .ok plain ∧ plain ≠ "" ∧ (user ++ ":").toList <+: plain.toList ∧
        auth.registerReverse user domain secret =
          RouteAuthority.registerRounds name ⟨user, .reverse plain⟩ claimAttempts := by
  unfold RouteAuthority.registerReverse
  rcases ZoneAuthority.checked_cases user domain _ with ⟨e, he, hkind⟩ | ⟨hu, name, hname, hop⟩
  · exact .inl ⟨e, he, by simp [hkind]⟩
  rw [hop]
  cases hplain : auth.reveal user secret with
  | error e => exact .inl ⟨e, rfl, failsOutsideStore_reveal auth user secret e hplain⟩
  | ok plain =>
    have hrevealed : ∀ next : String → Operation Unit, check (.ok plain) >>= next = next plain :=
      pure_bind plain
    rw [hrevealed]
    cases hchecked : RouteAuthority.checkBound user plain with
    | error e => exact .inl ⟨e, rfl, failsOutsideStore_checkBound user plain e hchecked⟩
    | ok checked =>
      obtain ⟨hne, hbound⟩ := of_checkBound hchecked
      exact .inr ⟨name, plain, hu, hname, rfl, hne, hbound, rfl⟩

/-- **Every call** fails in its checks, or is a conditional change of the entry of its domain. -/
theorem operation_cases (call : RouteCall) :
    FailsAtOnce call.operation ∨ ∃ name verdict, DomainName.parse call.domain = .ok name ∧
      call.operation = swapRounds name.routingKey verdict (pure ()) claimAttempts ∧
      call.Decides name verdict := by
  cases call with
  | registerForward user domain addr httpPort tlsPort =>
    refine (registerForward_cases user domain addr httpPort tlsPort).imp_right ?_
    rintro ⟨name, hu, hname, -, hop⟩
    refine ⟨name, _, hname, hop.trans (RouteAuthority.registerRounds_eq_swapRounds name _ _), ?_⟩
    refine decides_registerVerdict hu rfl rfl ?_
    intro hroute
    cases hroute
  | registerReverse auth user domain secret =>
    refine (registerReverse_cases auth user domain secret).imp_right ?_
    rintro ⟨name, plain, hu, hname, hplain, hne, -, hop⟩
    refine ⟨name, _, hname, hop.trans (RouteAuthority.registerRounds_eq_swapRounds name _ _), ?_⟩
    have hentry : (registerReverse auth user domain secret).registration? =
        some ⟨user, .reverse plain⟩ := by
      rw [registration?_registerReverse, hplain]
      rfl
    refine decides_registerVerdict hu hentry rfl ?_
    intro hroute
    cases hroute
    exact hne rfl
  | deregister user domain =>
    show FailsAtOnce (RouteAuthority.deregister user domain) ∨
      ∃ name verdict, _ ∧ RouteAuthority.deregister user domain = _ ∧ _
    unfold RouteAuthority.deregister
    rcases ZoneAuthority.checked_cases user domain fun name =>
      RouteAuthority.deregisterRounds user name claimAttempts with
      ⟨e, he, hkind⟩ | ⟨hu, name, hname, hop⟩
    · exact .inl ⟨e, he, by simp [hkind]⟩
    rw [hop]
    exact .inr ⟨name, _, hname, RouteAuthority.deregisterRounds_eq_swapRounds user name claimAttempts,
      decides_deregisterVerdict hu⟩

end RouteCall

/-! ## Requests -/

/-- A request about the route of a domain: a change, or a look at the entry. -/
inductive RouteRequest where
  | change (call : RouteCall)
  | entry (domain : String)

namespace RouteRequest

/-- The text that names the domain of a request. -/
def domain : RouteRequest → String
  | change call => call.domain
  | entry domain => domain

/-- The operation of a request. A change brings no entry. -/
def operation : RouteRequest → Operation (Option RoutingEntry)
  | change call => (fun _ => none) <$> call.operation
  | entry domain => RouteAuthority.entry domain

/-- What a request about a name decides: a change decides as its call does, and a look at the entry
replaces nothing. -/
structure Decides (request : RouteRequest) (name : DomainName)
    (verdict : Option Bytes → Verdict (Option RoutingEntry)) : Prop where
  answers : ∀ raw result, verdict raw = .answer result → ¬ GaveUp name.routingKey result
  replaces : ∀ raw content, verdict raw = .replace content →
    ∃ call change, request = .change call ∧ call.Decides name change ∧
      change raw = .replace content
  registers : ∀ call entry raw, request = .change call → call.registration? = some entry →
    verdict raw ≠ .answer (.ok none)

theorem decides_change {call : RouteCall} {name : DomainName} {change : Option Bytes → Verdict Unit}
    (h : call.Decides name change) :
    (RouteRequest.change call).Decides name fun raw => (change raw).map fun _ => none where
  answers := by
    intro raw result hverdict
    cases hchange : change raw with
    | answer answer =>
      rw [hchange] at hverdict
      cases hverdict
      have hkept := (h.answers raw answer hchange).1
      cases answer with
      | ok done =>
        intro hgave
        cases hgave
      | error e =>
        intro hgave
        cases hgave
        exact hkept rfl
    | replace content =>
      rw [hchange] at hverdict
      cases hverdict
  replaces := by
    intro raw content hverdict
    refine ⟨call, change, rfl, h, ?_⟩
    cases hchange : change raw with
    | answer answer =>
      rw [hchange] at hverdict
      cases hverdict
    | replace other =>
      rw [hchange] at hverdict
      cases hverdict
      rfl
  registers := by
    rintro call entry raw ⟨⟩ hentry hverdict
    cases hchange : change raw with
    | answer answer =>
      rw [hchange] at hverdict
      cases answer with
      | ok done =>
        have hnone := (h.answers raw _ hchange).2 rfl
        rw [hentry] at hnone
        cases hnone
      | error e => cases hverdict
    | replace content =>
      rw [hchange] at hverdict
      cases hverdict

theorem decides_entry (domain : String) (name : DomainName) :
    (RouteRequest.entry domain).Decides name RouteAuthority.entryVerdict where
  answers := by
    intro raw result hverdict
    unfold RouteAuthority.entryVerdict at hverdict
    cases raw with
    | none =>
      cases hverdict
      intro hgave
      cases hgave
    | some bytes =>
      cases hverdict
      cases hdecode : RoutingEntry.decode bytes with
      | error e => exact RouteCall.not_gaveUp_decode hdecode
      | ok entry =>
        intro hgave
        cases hgave
  replaces := by
    intro raw content hverdict
    cases raw with
    | none => cases hverdict
    | some bytes => cases hverdict
  registers := by
    intro call entry raw hrequest
    cases hrequest

/-- **Every request** fails in its checks, or is a conditional change of the entry of its domain. -/
theorem operation_cases (request : RouteRequest) :
    FailsAtOnce request.operation ∨ ∃ name verdict, DomainName.parse request.domain = .ok name ∧
      request.operation = swapRounds name.routingKey verdict (pure none) claimAttempts ∧
      request.Decides name verdict := by
  cases request with
  | change call =>
    show FailsAtOnce ((fun _ => none) <$> call.operation) ∨
      ∃ name verdict, _ ∧ (fun _ => none) <$> call.operation = _ ∧ _
    rcases call.operation_cases with ⟨e, hop, hkind⟩ | ⟨name, change, hname, hop, hdecides⟩
    · rw [hop]
      exact .inl ⟨e, rfl, hkind⟩
    · rw [hop, map_swapRounds]
      exact .inr ⟨name, _, hname, rfl, decides_change hdecides⟩
  | entry domain =>
    show FailsAtOnce (RouteAuthority.entry domain) ∨
      ∃ name verdict, DomainName.parse domain = .ok name ∧ RouteAuthority.entry domain = _ ∧ _
    cases hname : DomainName.parse domain with
    | error fault =>
      let reason := "incorrect format for domain '" ++ domain ++ "': " ++ fault.message
      refine .inl ⟨.validation reason, ?_, ?_⟩
      · unfold RouteAuthority.entry DomainName.require
        rw [hname]
        rfl
      · intro hkind
        cases hkind
    | ok name =>
      exact .inr ⟨name, _, rfl, RouteAuthority.entry_eq_swapRounds hname 2, decides_entry domain name⟩

end RouteRequest

end GatewayControl
