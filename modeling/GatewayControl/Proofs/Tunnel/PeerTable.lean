import GatewayControl.Authority.Tunnel
import GatewayControl.Proofs.Operation.Since
import GatewayControl.Proofs.Text.Base64Canonical
import GatewayControl.Proofs.Text.Trim

/-!
# `GatewayControl.Proofs.Tunnel.PeerTable` -- the peers of the device after any calls

A key has one text, and only that text, with white space around it or not, is read as the key
(`Key.parse_eq_ok_iff`). So the table of the device, although it goes by texts, is a table of keys.

What it holds is read off the calls. `LastGrant calls key user` says that `user` brought the key while the
device was up, and that no call after that concerned the key: it was not brought again and not removed, and
the device was neither set up again nor torn down. `Shows` says that the table has exactly the peers of
these grants. Setting the device up makes it so whatever was there before, and every call keeps it so
(`Shows.serve`).

The main statement is `TunnelAuthority.peer_table_follows_keys`.
-/

namespace GatewayControl

/-! ## Keys and their texts -/

namespace Key

variable {s : String} {key key' : Key}

/-- The text of a key, with white space around it or not. -/
def Spells (s : String) (key : Key) : Prop :=
  ∃ before after : List Char, (∀ c ∈ before, Text.isBlank c = true) ∧
    (∀ c ∈ after, Text.isBlank c = true) ∧ s = String.ofList (before ++ key.text.toList ++ after)

theorem text_inj : key.text = key'.text ↔ key = key' := by
  constructor
  · intro h
    have hbytes := Text.Base64.decode_text key.bytes
    have hsame : Text.Base64.text key.bytes = Text.Base64.text key'.bytes := h
    rw [hsame, Text.Base64.decode_text, Except.ok.injEq] at hbytes
    cases key
    cases key'
    simpa using hbytes.symm
  · rintro rfl
    rfl

theorem not_blank_of_mem_text {c : Char} (h : c ∈ key.text.toList) : Text.isBlank c = false := by
  have hall : ∀ k : Fin 256,
      Text.isBlank (Char.ofNat (Text.Base64.symbol (UInt8.ofNat k.val)).toNat) = false := by
    decide +kernel
  rw [text, Text.Base64.text, String.toList_ofList] at h
  obtain ⟨b, hb, rfl⟩ := List.mem_map.1 h
  rcases Text.Base64.mem_encode hb with rfl | ⟨n, rfl⟩
  · decide +kernel
  · exact Text.Base64.forall_lt_of_fin
      (P := fun n => Text.isBlank (Char.ofNat (Text.Base64.symbol n).toNat) = false) hall n.toNat_lt

theorem ofBytes?_eq_some {bytes : Bytes} : ofBytes? bytes = some key ↔ bytes = key.bytes := by
  unfold ofBytes?
  split
  · next size =>
    rw [Option.some.injEq]
    exact ⟨fun h => h ▸ rfl, fun h => by subst h; rfl⟩
  · next size =>
    simp only [reduceCtorEq, false_iff]
    rintro rfl
    exact size key.size

/-- **Only the text of a key is read as the key**, up to white space around it. -/
theorem parse_eq_ok_iff : parse s = .ok key ↔ Spells s key := by
  have htrim : Text.trim s = key.text ↔ Spells s key := by
    rw [← String.ofList_toList (s := key.text)]
    exact Text.trim_eq_iff fun c hc => not_blank_of_mem_text hc
  rw [← htrim]
  unfold parse
  split
  · next fault hfault =>
    simp only [reduceCtorEq, false_iff]
    intro h
    rw [h, text, Text.Base64.decode_text] at hfault
    cases hfault
  · next bytes hbytes =>
    have hspelled := Text.Base64.decode_ofText_eq_ok_iff.1 hbytes
    split
    · next key' hkey =>
      obtain rfl := ofBytes?_eq_some.1 hkey
      rw [Except.ok.injEq, hspelled]
      exact ⟨fun h => h ▸ rfl, fun h => text_inj.1 h⟩
    · next hkey =>
      simp only [reduceCtorEq, false_iff]
      intro h
      rw [h, text, Text.Base64.decode_text, Except.ok.injEq] at hbytes
      rw [ofBytes?_eq_some.2 hbytes.symm] at hkey
      cases hkey

theorem Spells.inj (h : Spells s key) (h' : Spells s key') : key = key' := by
  rw [← parse_eq_ok_iff] at h h'
  rw [h, Except.ok.injEq] at h'
  exact h'

/-- What is no key is refused as malformed. -/
theorem parse_of_not_spells (h : ∀ key, ¬ Spells s key) : ∃ reason, parse s = .error (.validation reason) := by
  have hnone : ∀ key, parse s ≠ .ok key := fun key hkey => h key (parse_eq_ok_iff.1 hkey)
  unfold parse at hnone ⊢
  split at hnone
  · exact ⟨_, rfl⟩
  · split at hnone
    · next key hkey => exact absurd rfl (hnone key)
    · exact ⟨_, rfl⟩

end Key

/-! ## Calls and what is left of them -/

/-- A call to the authority over tunnels. -/
inductive TunnelCall where
  | setup
  | addPeer (user publicKey : String)
  | removePeer (publicKey : String)
  | teardown

/-- The call concerns the key: it is for this key, or for the whole table. -/
def TunnelCall.Concerns (key : Key) : TunnelCall → Prop
  | .setup | .teardown => True
  | .addPeer user publicKey => user ≠ "" ∧ Key.Spells publicKey key
  | .removePeer publicKey => Key.Spells publicKey key

/-- The device was set up, and has not been torn down since. -/
def SetUp (calls : List TunnelCall) : Prop := Since (fun _ call => call = .setup) (· ≠ .teardown) calls

/-- `user` brought the key when the device was up, and no call has concerned the key since. -/
def LastGrant (calls : List TunnelCall) (key : Key) (user : String) : Prop :=
  Since (fun before call => SetUp before ∧ user ≠ "" ∧
    ∃ publicKey, call = .addPeer user publicKey ∧ Key.Spells publicKey key) (¬ ·.Concerns key) calls

section History

variable {calls : List TunnelCall} {call : TunnelCall} {key : Key} {user user' : String}

theorem setUp_concat : SetUp (calls ++ [call]) ↔ call = .setup ∨ (SetUp calls ∧ call ≠ .teardown) :=
  since_concat

theorem lastGrant_concat : LastGrant (calls ++ [call]) key user ↔
    (SetUp calls ∧ user ≠ "" ∧ ∃ publicKey, call = .addPeer user publicKey ∧ Key.Spells publicKey key) ∨
      (LastGrant calls key user ∧ ¬ call.Concerns key) :=
  since_concat

/-- Only what was granted since the device was set up is left. -/
theorem LastGrant.setUp (h : LastGrant calls key user) : SetUp calls := by
  induction calls using List.reverseRecOn with
  | nil => exact absurd h not_since_nil
  | append_singleton calls call ih =>
    rw [setUp_concat]
    rcases lastGrant_concat.1 h with ⟨hup, -, publicKey, rfl, -⟩ | ⟨h, hnot⟩
    · exact .inr ⟨hup, by simp⟩
    · exact .inr ⟨ih h, fun hdown => hnot (hdown ▸ trivial)⟩

/-- A key is one user's. -/
theorem LastGrant.inj (h : LastGrant calls key user) (h' : LastGrant calls key user') : user = user' := by
  obtain ⟨before, call, ⟨-, -, publicKey, rfl, -⟩, -, -, publicKey', hcall, -⟩ :=
    Since.same h h'
      (by rintro before call ⟨-, hne, publicKey, rfl, hkey⟩ hnot; exact hnot ⟨hne, hkey⟩)
      (by rintro before call ⟨-, hne, publicKey, rfl, hkey⟩ hnot; exact hnot ⟨hne, hkey⟩)
  exact (TunnelCall.addPeer.inj hcall).1

end History

namespace TunnelAuthority

/-- Answers a call; only a peer that is added gets more than an acknowledgement. -/
def serve (auth : TunnelAuthority) (call : TunnelCall) (d : MemoryDevice) :
    Except GatewayError (Option PeerConfig) × MemoryDevice :=
  match call with
  | .setup => ((auth.setup d).1.map fun () => none, (auth.setup d).2)
  | .addPeer user publicKey => ((auth.addPeer user publicKey d).1.map some, (auth.addPeer user publicKey d).2)
  | .removePeer publicKey => ((removePeer publicKey d).1.map fun () => none, (removePeer publicKey d).2)
  | .teardown => ((teardown d).1.map fun () => none, (teardown d).2)

/-- The device after calls. -/
def serveAll (auth : TunnelAuthority) (calls : List TunnelCall) (d : MemoryDevice) : MemoryDevice :=
  calls.foldl (fun d call => (auth.serve call d).2) d

/-- The device is up as the calls have it, and its table has exactly the peers of what they granted. -/
structure Shows (auth : TunnelAuthority) (calls : List TunnelCall) (d : MemoryDevice) : Prop where
  isUp : d.isUp = true ↔ SetUp calls
  peers : ∀ name peer, d.peers[name]? = some peer ↔
    ∃ key user, name = key.text ∧ LastGrant calls key user ∧
      peer = ⟨key, auth.address user, auth.keepaliveSecs⟩

variable {auth : TunnelAuthority} {calls : List TunnelCall} {d : MemoryDevice} {key : Key}
  {user publicKey : String}

/-! ## One call -/

theorem addPeer_of_spells (hu : user ≠ "") (hkey : Key.Spells publicKey key) : auth.addPeer user publicKey d =
    if d.isUp then (.ok (auth.clientConfig user),
      { d with peers := d.peers.insert key.text (auth.peerUpdate user key) })
    else (.error MemoryDevice.notUp, d) := by
  have hrequest : auth.addRequest user publicKey = .ok (.upsert (auth.peerUpdate user key)) := by
    unfold addRequest
    rw [requireUser, if_neg hu, Key.parse_eq_ok_iff.2 hkey]
    rfl
  unfold addPeer
  rw [hrequest]
  show _ = if d.isUp then _ else _
  simp only [TunnelDevice.step, MemoryDevice.step]
  split <;> rfl

theorem addPeer_of_empty : auth.addPeer "" publicKey d = (.error emptyUser, d) := rfl

theorem addPeer_of_not_spells (h : ∀ key, ¬ Key.Spells publicKey key) :
    ∃ reason, auth.addPeer user publicKey d = (.error (.validation reason), d) := by
  obtain ⟨reason, hparse⟩ := Key.parse_of_not_spells h
  by_cases hu : user = ""
  · subst hu
    exact ⟨_, rfl⟩
  · refine ⟨reason, ?_⟩
    unfold addPeer addRequest
    rw [requireUser, if_neg hu, hparse]
    rfl

theorem removePeer_of_spells (hkey : Key.Spells publicKey key) : removePeer publicKey d =
    if d.isUp then (.ok (), { d with peers := d.peers.erase key.text })
    else (.error MemoryDevice.notUp, d) := by
  unfold removePeer
  rw [Key.parse_eq_ok_iff.2 hkey]
  rfl

theorem removePeer_of_not_spells (h : ∀ key, ¬ Key.Spells publicKey key) :
    ∃ reason, removePeer publicKey d = (.error (.validation reason), d) := by
  obtain ⟨reason, hparse⟩ := Key.parse_of_not_spells h
  refine ⟨reason, ?_⟩
  unfold removePeer
  rw [hparse]

/-- Adding a peer is refused, fails while the device is down, or puts the peer under its key. -/
theorem addPeer_cases (auth : TunnelAuthority) (user publicKey : String) (d : MemoryDevice) :
    (∃ reason, auth.addPeer user publicKey d = (.error (.validation reason), d) ∧
      ∀ key, ¬ (TunnelCall.addPeer user publicKey).Concerns key) ∨
    (auth.addPeer user publicKey d = (.error MemoryDevice.notUp, d) ∧ d.isUp = false) ∨
    ∃ key, user ≠ "" ∧ Key.Spells publicKey key ∧ d.isUp = true ∧
      auth.addPeer user publicKey d = (.ok (auth.clientConfig user),
        { d with peers := d.peers.insert key.text (auth.peerUpdate user key) }) := by
  by_cases hspells : ∃ key, Key.Spells publicKey key
  · obtain ⟨key, hkey⟩ := hspells
    by_cases hu : user = ""
    · subst hu
      exact .inl ⟨_, addPeer_of_empty, fun key hconcerns => hconcerns.1 rfl⟩
    · rw [addPeer_of_spells hu hkey]
      cases hup : d.isUp with
      | false => exact .inr (.inl ⟨rfl, rfl⟩)
      | true => exact .inr (.inr ⟨key, hu, hkey, rfl, rfl⟩)
  · have hnone : ∀ key, ¬ Key.Spells publicKey key := fun key hkey => hspells ⟨key, hkey⟩
    obtain ⟨reason, hrefused⟩ := addPeer_of_not_spells hnone
    exact .inl ⟨reason, hrefused, fun key hconcerns => hnone key hconcerns.2⟩

/-- Removing a peer is refused, fails while the device is down, or drops what stands under the key. -/
theorem removePeer_cases (publicKey : String) (d : MemoryDevice) :
    (∃ reason, removePeer publicKey d = (.error (.validation reason), d) ∧
      ∀ key, ¬ (TunnelCall.removePeer publicKey).Concerns key) ∨
    (removePeer publicKey d = (.error MemoryDevice.notUp, d) ∧ d.isUp = false) ∨
    ∃ key, Key.Spells publicKey key ∧ d.isUp = true ∧
      removePeer publicKey d = (.ok (), { d with peers := d.peers.erase key.text }) := by
  by_cases hspells : ∃ key, Key.Spells publicKey key
  · obtain ⟨key, hkey⟩ := hspells
    rw [removePeer_of_spells hkey]
    cases hup : d.isUp with
    | false => exact .inr (.inl ⟨rfl, rfl⟩)
    | true => exact .inr (.inr ⟨key, hkey, rfl, rfl⟩)
  · have hnone : ∀ key, ¬ Key.Spells publicKey key := fun key hkey => hspells ⟨key, hkey⟩
    obtain ⟨reason, hrefused⟩ := removePeer_of_not_spells hnone
    exact .inl ⟨reason, hrefused, hnone⟩

/-! ## What every call keeps -/

theorem isUp_congr {d d' : MemoryDevice} (h : d'.config = d.config) : d'.isUp = d.isUp := by
  unfold MemoryDevice.isUp
  rw [h]

/-- A device without peers shows calls that have granted nothing. -/
theorem shows_of_no_peers (hpeers : d.peers = ∅) (hup : d.isUp = true ↔ SetUp calls)
    (hnone : ∀ key user, ¬ LastGrant calls key user) : auth.Shows calls d where
  isUp := hup
  peers name peer := by
    rw [hpeers]
    simp [hnone]

/-- Setting up makes an end of whatever was there. -/
theorem shows_setup (auth : TunnelAuthority) (calls : List TunnelCall) (d : MemoryDevice) :
    auth.Shows (calls ++ [.setup]) (auth.serve .setup d).2 := by
  refine shows_of_no_peers rfl ⟨fun _ => setUp_concat.2 (.inl rfl), fun _ => rfl⟩ fun key user h => ?_
  rcases lastGrant_concat.1 h with ⟨-, -, publicKey, hcall, -⟩ | ⟨-, hnot⟩
  · cases hcall
  · exact hnot trivial

theorem shows_teardown (auth : TunnelAuthority) (calls : List TunnelCall) (d : MemoryDevice) :
    auth.Shows (calls ++ [.teardown]) (auth.serve .teardown d).2 := by
  have hdown : ¬ SetUp (calls ++ [.teardown]) := by
    rw [setUp_concat]
    simp
  exact shows_of_no_peers rfl ⟨fun h => (by cases h), fun h => absurd h hdown⟩
    fun key user h => hdown h.setUp

variable {call : TunnelCall}

/-- While the device is down, nothing can be granted. -/
theorem Shows.of_down (h : auth.Shows calls d) (hdown : d.isUp = false) (hcall : call ≠ .setup) :
    auth.Shows (calls ++ [call]) d := by
  have hnot : ¬ SetUp calls := fun hup => by simp [h.isUp.2 hup] at hdown
  have hnot' : ¬ SetUp (calls ++ [call]) := by
    rw [setUp_concat]
    rintro (hsetup | ⟨hup, -⟩)
    · exact hcall hsetup
    · exact hnot hup
  refine ⟨by simp [hdown, hnot'], fun name peer => ?_⟩
  rw [h.peers]
  constructor
  · rintro ⟨key, user, -, hgrant, -⟩
    exact absurd hgrant.setUp hnot
  · rintro ⟨key, user, -, hgrant, -⟩
    exact absurd hgrant.setUp hnot'

/-- A call that concerns no key is none of the table's business. -/
theorem Shows.of_unconcerned (h : auth.Shows calls d) (hcall : ∀ key, ¬ call.Concerns key) :
    auth.Shows (calls ++ [call]) d := by
  have hkey : Key := ⟨List.replicate 32 0, rfl⟩
  have hsetup : call ≠ .setup := fun h => hcall hkey (h ▸ trivial)
  have hteardown : call ≠ .teardown := fun h => hcall hkey (h ▸ trivial)
  refine ⟨?_, fun name peer => ?_⟩
  · rw [setUp_concat, h.isUp]
    simp [hsetup, hteardown]
  · have hgrant : ∀ key user, LastGrant (calls ++ [call]) key user ↔ LastGrant calls key user := by
      intro key user
      rw [lastGrant_concat]
      constructor
      · rintro (⟨-, hu, publicKey, rfl, hspells⟩ | ⟨hgrant, -⟩)
        · exact absurd ⟨hu, hspells⟩ (hcall key)
        · exact hgrant
      · exact fun hgrant => .inr ⟨hgrant, hcall key⟩
    simp only [h.peers, hgrant]

/-- A call that concerns one key changes the entry of this key, as it says. -/
theorem Shows.of_concerned (h : auth.Shows calls d) (hup : d.isUp = true) {d' : MemoryDevice}
    (hcall : ∀ key', call.Concerns key' ↔ key' = key) (hne : call ≠ .setup ∧ call ≠ .teardown)
    (hconfig : d'.config = d.config)
    (hother : ∀ name, name ≠ key.text → d'.peers[name]? = d.peers[name]?)
    (hthis : ∀ peer, d'.peers[key.text]? = some peer ↔ ∃ user publicKey, call = .addPeer user publicKey ∧
      peer = ⟨key, auth.address user, auth.keepaliveSecs⟩) : auth.Shows (calls ++ [call]) d' := by
  have hup' := h.isUp.1 hup
  refine ⟨?_, fun name peer => ?_⟩
  · rw [isUp_congr hconfig, setUp_concat]
    simp [hup, hup', hne]
  by_cases hname : name = key.text
  · subst hname
    rw [hthis]
    constructor
    · rintro ⟨user, publicKey, rfl, rfl⟩
      obtain ⟨hu, hspells⟩ := (hcall key).2 rfl
      exact ⟨key, user, rfl, lastGrant_concat.2 (.inl ⟨hup', hu, publicKey, rfl, hspells⟩), rfl⟩
    · rintro ⟨key', user, htext, hgrant, rfl⟩
      obtain rfl := Key.text_inj.1 htext
      rcases lastGrant_concat.1 hgrant with ⟨-, -, publicKey, rfl, -⟩ | ⟨-, hnot⟩
      · exact ⟨user, publicKey, rfl, rfl⟩
      · exact absurd ((hcall key).2 rfl) hnot
  · rw [hother name hname, h.peers]
    -- the entry is another key's, and its grant is neither this call nor ended by it
    have hgrant : ∀ key' user, name = key'.text →
        (LastGrant (calls ++ [call]) key' user ↔ LastGrant calls key' user) := by
      intro key' user htext
      have hnot : ¬ call.Concerns key' := fun hconcerns =>
        hname (htext.trans (congrArg Key.text ((hcall key').1 hconcerns)))
      rw [lastGrant_concat]
      constructor
      · rintro (⟨-, hu, publicKey, rfl, hspells⟩ | ⟨hgrant, -⟩)
        · exact absurd ⟨hu, hspells⟩ hnot
        · exact hgrant
      · exact fun hgrant => .inr ⟨hgrant, hnot⟩
    constructor
    · rintro ⟨key', user, htext, hg, rfl⟩
      exact ⟨key', user, htext, (hgrant key' user htext).2 hg, rfl⟩
    · rintro ⟨key', user, htext, hg, rfl⟩
      exact ⟨key', user, htext, (hgrant key' user htext).1 hg, rfl⟩

theorem concerns_addPeer (hu : user ≠ "") (hkey : Key.Spells publicKey key) (key' : Key) :
    (TunnelCall.addPeer user publicKey).Concerns key' ↔ key' = key :=
  ⟨fun h => h.2.inj hkey, fun h => h ▸ ⟨hu, hkey⟩⟩

theorem concerns_removePeer (hkey : Key.Spells publicKey key) (key' : Key) :
    (TunnelCall.removePeer publicKey).Concerns key' ↔ key' = key :=
  ⟨fun h => Key.Spells.inj h hkey, fun h => h ▸ hkey⟩

/-- **Every call keeps the table in step** with what the calls have granted. -/
theorem Shows.serve (h : auth.Shows calls d) (call : TunnelCall) :
    auth.Shows (calls ++ [call]) (auth.serve call d).2 := by
  cases call with
  | setup => exact shows_setup auth calls d
  | teardown => exact shows_teardown auth calls d
  | addPeer user publicKey =>
    show auth.Shows _ (auth.addPeer user publicKey d).2
    rcases addPeer_cases auth user publicKey d with ⟨reason, hrefused, hnone⟩ | ⟨hdown, hnot⟩ |
      ⟨key, hu, hkey, hup, hadded⟩
    · rw [hrefused]
      exact h.of_unconcerned hnone
    · rw [hdown]
      exact h.of_down hnot (by simp)
    · rw [hadded]
      refine h.of_concerned hup (concerns_addPeer hu hkey) (by simp) rfl (fun name hname => ?_)
        fun peer => ?_
      · rw [Std.ExtTreeMap.getElem?_insert, if_neg fun heq => hname (Std.compare_eq_iff_eq.1 heq).symm]
      · rw [Std.ExtTreeMap.getElem?_insert_self, Option.some.injEq]
        constructor
        · rintro rfl
          exact ⟨user, publicKey, rfl, rfl⟩
        · rintro ⟨user', publicKey', hcall, rfl⟩
          cases hcall
          rfl
  | removePeer publicKey =>
    show auth.Shows _ (removePeer publicKey d).2
    rcases removePeer_cases publicKey d with ⟨reason, hrefused, hnone⟩ | ⟨hdown, hnot⟩ |
      ⟨key, hkey, hup, hremoved⟩
    · rw [hrefused]
      exact h.of_unconcerned hnone
    · rw [hdown]
      exact h.of_down hnot (by simp)
    · rw [hremoved]
      refine h.of_concerned hup (concerns_removePeer hkey) (by simp) rfl (fun name hname => ?_)
        fun peer => ?_
      · rw [Std.ExtTreeMap.getElem?_erase, if_neg fun heq => hname (Std.compare_eq_iff_eq.1 heq).symm]
      · rw [Std.ExtTreeMap.getElem?_erase_self]
        simp

theorem Shows.serveAll (h : auth.Shows calls d) (more : List TunnelCall) :
    auth.Shows (calls ++ more) (auth.serveAll more d) := by
  induction more generalizing calls d with
  | nil => rwa [List.append_nil]
  | cons call more ih =>
    rw [List.append_cons]
    exact ih (h.serve call)

theorem shows_empty (auth : TunnelAuthority) : auth.Shows [] .empty :=
  shows_of_no_peers rfl ⟨fun h => (by cases h), fun h => absurd h not_since_nil⟩
    fun key user h => not_since_nil h

/-! ## Answers -/

/-- What is told to a user is what the table holds for the key. -/
theorem exists_peer_of_addPeer {config : PeerConfig} {after : MemoryDevice}
    (h : auth.addPeer user publicKey d = (.ok config, after)) :
    ∃ key peer, Key.Spells publicKey key ∧ after.peers[key.text]? = some peer ∧
      config.ips = [peer.allowedIp.text] := by
  rcases addPeer_cases auth user publicKey d with ⟨reason, hrefused, -⟩ | ⟨hdown, -⟩ |
    ⟨key, -, hkey, -, hadded⟩
  · rw [hrefused] at h
    cases h
  · rw [hdown] at h
    cases h
  · rw [hadded] at h
    cases h
    exact ⟨key, auth.peerUpdate user key, hkey, Std.ExtTreeMap.getElem?_insert_self, rfl⟩

/-- A call that fails leaves the device alone. -/
theorem serve_of_error {e : GatewayError} (h : (auth.serve call d).1 = .error e) :
    (auth.serve call d).2 = d := by
  cases call with
  | setup => cases h
  | teardown => cases h
  | addPeer user publicKey =>
    show (auth.addPeer user publicKey d).2 = d
    rcases addPeer_cases auth user publicKey d with ⟨reason, hrefused, -⟩ | ⟨hdown, -⟩ |
      ⟨key, -, -, -, hadded⟩
    · rw [hrefused]
    · rw [hdown]
    · simp only [serve, hadded] at h
      cases h
  | removePeer publicKey =>
    show (removePeer publicKey d).2 = d
    rcases removePeer_cases publicKey d with ⟨reason, hrefused, -⟩ | ⟨hdown, -⟩ | ⟨key, -, -, hremoved⟩
    · rw [hrefused]
    · rw [hdown]
    · simp only [serve, hremoved] at h
      cases h

/-- **The peer table follows the keys, not their spelling.** Take any calls to set the device up, to add and
to remove peers and to tear it down, of any users and with any texts for keys, on a device in any state if
one of the calls sets it up, else on a new one. The device is up exactly if it was set up and not torn down
since, and its table is the map that gives each key the address of the user who was last granted it: there
is an entry under the text of a key, with the key, this address and the keepalive, for each key with such a
user, and no other entry. A key has one such user at most, and its own text.

In any state of the device, whoever is told an address finds it in the table under the key. The empty user
is refused as malformed, and so is a text that spells no key, whether to add or to remove its peer;
everything else is done while the device is up, and fails at the device while it is down. A call that fails
leaves the device as it was. What is read as a key is its text with white space around it or not, and
nothing else. -/
theorem peer_table_follows_keys (auth : TunnelAuthority) (d : MemoryDevice) (calls : List TunnelCall)
    (h : .setup ∈ calls ∨ d = .empty) :
    (∀ name peer, (auth.serveAll calls d).peers[name]? = some peer ↔
      ∃ key user, name = key.text ∧ LastGrant calls key user ∧
        peer = ⟨key, auth.address user, auth.keepaliveSecs⟩) ∧
    ((auth.serveAll calls d).isUp = true ↔ SetUp calls) ∧
    (∀ key user user', LastGrant calls key user → LastGrant calls key user' → user = user') ∧
    (∀ key key' : Key, key.text = key'.text → key = key') ∧
    (∀ (now : MemoryDevice) (user publicKey : String),
      (∀ config after, auth.addPeer user publicKey now = (.ok config, after) →
        ∃ key peer, Key.Spells publicKey key ∧ after.peers[key.text]? = some peer ∧
          config.ips = [peer.allowedIp.text]) ∧
      (∃ reason, auth.addPeer "" publicKey now = (.error (.validation reason), now)) ∧
      ((∀ key, ¬ Key.Spells publicKey key) →
        (∃ reason, auth.addPeer user publicKey now = (.error (.validation reason), now)) ∧
        ∃ reason, removePeer publicKey now = (.error (.validation reason), now)) ∧
      (∀ key, Key.Spells publicKey key → user ≠ "" → now.isUp = false →
        ∃ reason, auth.addPeer user publicKey now = (.error (.device reason), now)) ∧
      (∀ key, Key.Spells publicKey key → now.isUp = false →
        ∃ reason, removePeer publicKey now = (.error (.device reason), now)) ∧
      (∀ key, Key.Spells publicKey key → now.isUp = true →
        (user ≠ "" → ∃ config, (auth.addPeer user publicKey now).1 = .ok config) ∧
        (removePeer publicKey now).1 = .ok ())) ∧
    (∀ call now e, (auth.serve call now).1 = .error e → (auth.serve call now).2 = now) ∧
    (∀ text key, Key.parse text = .ok key ↔ Key.Spells text key) := by
  have hshows : auth.Shows calls (auth.serveAll calls d) := by
    rcases h with hsetup | rfl
    · obtain ⟨before, after, rfl⟩ := List.append_of_mem hsetup
      have hstart := shows_setup auth before (auth.serveAll before d)
      have hlater := hstart.serveAll after
      rw [List.append_assoc, List.singleton_append] at hlater
      simpa only [serveAll, List.foldl_append, List.foldl_cons] using hlater
    · simpa using (shows_empty auth).serveAll calls
  refine ⟨hshows.peers, hshows.isUp, fun key user user' => LastGrant.inj, fun key key' => Key.text_inj.1,
    fun now user publicKey => ⟨fun config after => exists_peer_of_addPeer, ⟨_, addPeer_of_empty⟩,
      fun hnone => ⟨addPeer_of_not_spells hnone, removePeer_of_not_spells hnone⟩, ?_, ?_, ?_⟩,
    fun call now e => serve_of_error, fun text key => Key.parse_eq_ok_iff⟩
  · intro key hkey hu hdown
    exact ⟨_, by rw [addPeer_of_spells hu hkey, if_neg (by simp [hdown])]; rfl⟩
  · intro key hkey hdown
    exact ⟨_, by rw [removePeer_of_spells hkey, if_neg (by simp [hdown])]; rfl⟩
  · intro key hkey hup
    refine ⟨fun hu => ⟨auth.clientConfig user, ?_⟩, ?_⟩
    · rw [addPeer_of_spells hu hkey, if_pos hup]
    · rw [removePeer_of_spells hkey, if_pos hup]

/-- A key is brought before the device is set up, then by one user, then with other white space by another
one, and once more by nobody: there is one entry, with the address of the second user. -/
theorem peer_table_follows_keys_moved :
    let key : Key := ⟨List.replicate 32 7, rfl⟩
    let auth : TunnelAuthority := ⟨key, key, "gw.example.com:51820", 51820, 25⟩
    let calls : List TunnelCall := [.addPeer "carol" key.text, .setup, .addPeer "bob" key.text,
      .addPeer "eve" (" " ++ key.text ++ "\n"), .addPeer "" key.text]
    (.setup ∈ calls ∨ MemoryDevice.empty = .empty) ∧
      (auth.serveAll calls .empty).peers[key.text]? = some ⟨key, auth.address "eve", 25⟩ := by
  intro key auth calls
  have hsetup : .setup ∈ calls := by simp [calls]
  have hspells : Key.Spells (" " ++ key.text ++ "\n") key := by
    have hblank : Text.isBlank ' ' = true ∧ Text.isBlank '\n' = true := by decide +kernel
    refine ⟨[' '], ['\n'], by simp [hblank.1], by simp [hblank.2], ?_⟩
    rw [← String.toList_inj]
    simp
  have hup : SetUp [.addPeer "carol" key.text, .setup, .addPeer "bob" key.text] :=
    ⟨[.addPeer "carol" key.text], .setup, [.addPeer "bob" key.text], rfl, rfl, by simp⟩
  have hgrant : LastGrant calls key "eve" :=
    ⟨_, .addPeer "eve" (" " ++ key.text ++ "\n"), [.addPeer "" key.text], rfl,
      ⟨hup, by decide, _, rfl, hspells⟩, by simp [TunnelCall.Concerns]⟩
  exact ⟨.inl hsetup,
    ((peer_table_follows_keys auth .empty calls (.inl hsetup)).1 _ _).2 ⟨key, "eve", rfl, hgrant, rfl⟩⟩

end TunnelAuthority
end GatewayControl
