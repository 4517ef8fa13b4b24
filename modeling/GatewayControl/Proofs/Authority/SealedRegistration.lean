import GatewayControl.Proofs.Crypto.Gcm
import GatewayControl.Proofs.Except
import GatewayControl.Proofs.Operation.Alone
import GatewayControl.Proofs.Text.Hex
import GatewayControl.Authority.Route

/-!
# `GatewayControl.Proofs.Authority.SealedRegistration` -- a sealed secret does what the secret does

A user seals a secret with the own secret key and the public key of the gateway, and the gateway opens it
the other way round. Both derive one key if the exchange gives both sides the same (`sharedKey_eq`), and
then the gateway reads what was sealed, however its digits are spelled (`openSealed_of_respells`). From
there on a registration knows the secret alone, so the sealed one and the plain one are one operation
(`registerReverse_congr`), whatever is wrong with the user, the domain or the secret itself.
-/

namespace GatewayControl

open Operation

/-! ## Secrets -/

namespace Secret

open Crypto

variable {nonce : Bytes} {text : String} {own peer : Key} {sealed : String}

/-- Where the other side contributed, the key is the hash of what was agreed on. -/
theorem sharedKey_eq (h : isContributory (exchange own peer) = true) :
    sharedKey own peer = .ok (sha256 (exchange own peer).bytes) := by
  unfold sharedKey
  simp only [h, if_true]

theorem sealWith_eq (nonce : Bytes) (text : String) (h : isContributory (exchange own peer) = true) :
    sealWith nonce text own peer = .ok (Text.Hex.text
      (nonce ++ Gcm.encrypt (sha256 (exchange own peer).bytes) nonce (Bytes.ofText text))) := by
  unfold sealWith
  rw [sharedKey_eq h]
  rfl

/-- Nothing is not the spelling of a sealed secret. -/
theorem ne_empty_of_respells {bytes : Bytes} (hne : bytes ≠ [])
    (h : Text.Hex.Respells (Text.Hex.text bytes) sealed) : sealed ≠ "" := by
  rintro rfl
  have hempty : Text.Hex.decode (Bytes.ofText (Text.trim "")) = .ok [] := rfl
  rw [Text.Hex.decode_of_respells h, Except.ok.injEq] at hempty
  exact hne hempty

/-- **The other side reads what was sealed**, if it derives the same key. -/
theorem openSealed_of_respells {key : Bytes} (hnonce : nonce.length = Gcm.nonceSize)
    (hkey : sharedKey own peer = .ok key)
    (hsealed : Text.Hex.Respells
      (Text.Hex.text (nonce ++ Gcm.encrypt key nonce (Bytes.ofText text))) sealed) :
    openSealed sealed own peer = .ok text := by
  have hlength : ¬ (nonce ++ Gcm.encrypt key nonce (Bytes.ofText text)).length <
      Gcm.nonceSize + Gcm.tagSize := by
    rw [List.length_append, Gcm.length_encrypt]
    omega
  unfold openSealed
  rw [Text.Hex.decode_of_respells hsealed, hkey]
  simp only [Except.ok_bind, if_neg hlength, List.take_left' hnonce, List.drop_left' hnonce,
    Gcm.decrypt?_encrypt, Bytes.toText?_ofText]
  rfl

end Secret

/-! ## Registrations -/

namespace RouteAuthority

open Crypto

variable {auth : RouteAuthority} {user : String}

/-- A registration depends on what a request reveals, not on the form in which it came. -/
theorem registerReverse_congr {request other : ReverseSecret}
    (h : auth.reveal user request = auth.reveal user other) (domain : String) :
    auth.registerReverse user domain request = auth.registerReverse user domain other := by
  unfold registerReverse
  rw [h]

/-- **A sealed secret registers like the secret.** Let the directory name the public key of the user, let
the exchange of the user's key and the gateway's give both sides the same, to which both contributed, and
take any nonce. Every secret can be sealed, and any spelling of the sealed form, with upper-case digits or
white space around it, opens to exactly the secret. To register it is to register the plain secret, by any
user on any text for a domain: the two are one operation, with the same answer and the same store on
every store. -/
theorem sealed_registration_agrees (auth : RouteAuthority) {key : Key} (nonce : Bytes)
    (user domain secret : String)
    (hsame : exchange key (publicKey auth.secret) = exchange auth.secret (publicKey key))
    (hcontributory : isContributory (exchange key (publicKey auth.secret)) = true)
    (hdirectory : auth.directory.fetch user = .ok (publicKey key))
    (hnonce : nonce.length = Gcm.nonceSize) :
    ∃ sealed, Secret.sealWith nonce secret key (publicKey auth.secret) = .ok sealed ∧
      ∀ text, Text.Hex.Respells sealed text →
        Secret.openSealed text auth.secret (publicKey key) = .ok secret ∧
        auth.registerReverse user domain (.encrypted text) =
          auth.registerReverse user domain (.plain secret) ∧
        ∀ {σ : Type} [Backend σ] (s : σ),
          alone (auth.registerReverse user domain (.encrypted text)) s =
            alone (auth.registerReverse user domain (.plain secret)) s := by
  refine ⟨_, Secret.sealWith_eq nonce secret hcontributory, fun text htext => ?_⟩
  rw [hsame] at htext hcontributory
  have hopen := Secret.openSealed_of_respells hnonce (Secret.sharedKey_eq hcontributory) htext
  have hne : text ≠ "" := by
    refine Secret.ne_empty_of_respells (fun hnil => ?_) htext
    rw [(List.append_eq_nil_iff.1 hnil).1] at hnonce
    cases hnonce
  have hreveal : auth.reveal user (.encrypted text) = .ok secret := by
    unfold reveal
    simp only [if_neg hne, hdirectory, Except.ok_bind, hopen]
  have hoperation : auth.registerReverse user domain (.encrypted text) =
      auth.registerReverse user domain (.plain secret) := registerReverse_congr hreveal domain
  exact ⟨hopen, hoperation, fun s => by rw [hoperation]⟩

/-- Alice's secret is accepted in upper case and with blanks around it. -/
theorem sealed_registration_agrees_upper_case :
    let gateway : Key := ⟨List.replicate 32 1, rfl⟩
    let key : Key := ⟨List.replicate 32 2, rfl⟩
    let auth : RouteAuthority := ⟨.fixed [("alice", publicKey key)], gateway⟩
    let nonce : Bytes := List.replicate 12 7
    exchange key (publicKey gateway) = exchange gateway (publicKey key) ∧
      isContributory (exchange key (publicKey gateway)) = true ∧
      (alone (auth.registerReverse "alice" "app.example.com" (.plain "alice:abc123")) MemoryStore.empty).1 =
        .ok () ∧
      ∃ sealed, Secret.sealWith nonce "alice:abc123" key (publicKey gateway) = .ok sealed ∧
        let text := String.ofList ([' '] ++ sealed.toList.map Char.toUpper ++ ['\n'])
        Secret.openSealed text gateway (publicKey key) = .ok "alice:abc123" ∧
        alone (auth.registerReverse "alice" "app.example.com" (.encrypted text)) MemoryStore.empty =
          alone (auth.registerReverse "alice" "app.example.com" (.plain "alice:abc123")) MemoryStore.empty := by
  intro gateway key auth nonce
  have hsame : exchange key (publicKey gateway) = exchange gateway (publicKey key) := by decide +kernel
  have hcontributory : isContributory (exchange key (publicKey gateway)) = true := by decide +kernel
  obtain ⟨sealed, hsealed, hall⟩ := sealed_registration_agrees auth nonce "alice" "app.example.com"
    "alice:abc123" hsame hcontributory rfl rfl
  have hspelled : Text.Hex.Respells sealed
      (String.ofList ([' '] ++ sealed.toList.map Char.toUpper ++ ['\n'])) := by
    refine ⟨[' '], _, ['\n'], rfl, List.forall_mem_singleton.2 rfl, List.forall_mem_singleton.2 rfl, ?_⟩
    exact List.forall₂_map_right_iff.2 (List.forall₂_same.2 fun c _ => .inr rfl)
  obtain ⟨hopen, -, hstore⟩ := hall _ hspelled
  have hok : (alone (auth.registerReverse "alice" "app.example.com" (.plain "alice:abc123"))
      MemoryStore.empty).1 = .ok () := by decide +kernel
  exact ⟨hsame, hcontributory, hok, sealed, hsealed, hopen, hstore MemoryStore.empty⟩

end RouteAuthority
end GatewayControl
