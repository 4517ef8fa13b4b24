import GatewayControl.Proofs.Json.Written
import GatewayControl.Proofs.Text.Base64
import GatewayControl.Routing.Entry

/-!
# `GatewayControl.Proofs.Routing.EntryCodec` -- the stored form of entries is read back

A stored entry is JSON in base64 inside JSON, and each layer is read back as it was written
(`decode_encode`). The one entry that is not is a reverse tunnel without a secret: its fields are those of
a forward to nowhere (`decode_encode_iff`). It is never read either, so whatever has been read once is read
back from its own stored form (`storable_of_decode`), and stored forms tell apart all entries there can be
(`stored_form_faithful`).
-/

namespace GatewayControl

open Json

/-- The stored fields tell the kind of the entry: a reverse tunnel has a secret. -/
def RoutingEntry.Storable (entry : RoutingEntry) : Prop := entry.route ≠ .reverse ""

namespace ServiceRecord

theorem toEntry_ofEntry {entry : RoutingEntry} (h : entry.Storable) : (ofEntry entry).toEntry = entry := by
  obtain ⟨owner, route⟩ := entry
  cases route with
  | forward addr httpPort tlsPort => rfl
  | reverse secret =>
    have hsecret : secret ≠ "" := fun hempty => h (by rw [hempty])
    exact if_neg hsecret

theorem portField?_tree (port : UInt16) :
    portField? (some (.number (literalOf port.toNat))) = some port := by
  have hread : (Tree.number (literalOf port.toNat)).natBelow? 0x10000 = some port.toNat :=
    natBelow?_literalOf port.toNat_lt (Nat.le_trans (Nat.le_of_lt port.toNat_lt) (by decide))
  unfold portField?
  simp only
  rw [hread]
  exact congrArg some (UInt16.ofNat_toNat (x := port))

/-- The fields are read back from the tree of their JSON form. -/
theorem ofTree?_tree (depth : Nat) (r : ServiceRecord) : ofTree? (depth + 1) r.toValue.tree = some r := by
  obtain ⟨addr, secret, tlsPort, httpPort, user⟩ := r
  have hslots : Tree.record? ["addr", "clientsecret", "tlsport", "httpport", "user"] (depth + 1)
      (toValue ⟨addr, secret, tlsPort, httpPort, user⟩).tree =
      some (depth, [some (.string (pieces addr)), some (.string (pieces secret)),
        some (.number (literalOf tlsPort.toNat)), some (.number (literalOf httpPort.toNat)),
        some (.string (pieces user))]) := by
    simp [toValue, Value.tree, Value.treeMembers, Tree.record?, Tree.fillSlots, Tree.fillSlot,
      pieceText?_pieces]
  have htext : ∀ text : String, textField? (some (.string (pieces text))) = some text :=
    fun text => pieceText?_pieces text
  unfold ofTree?
  rw [hslots]
  simp [htext, portField?_tree]

end ServiceRecord

namespace RoutingEntry

theorem read?_bytes {entry : RoutingEntry} (h : entry.Storable) :
    read? entry.toValue.bytes = some entry := by
  have hfinite : entry.toValue.Finite := ⟨trivial, trivial, trivial, trivial, trivial, trivial⟩
  have htree : ServiceRecord.ofTree? maxDepth entry.toValue.tree =
      some (ServiceRecord.ofEntry entry) := ServiceRecord.ofTree?_tree 126 _
  unfold read?
  rw [Tree.read?_bytes hfinite]
  simp only [Option.bind_eq_bind, Option.bind_some, htree]
  exact congrArg some (ServiceRecord.toEntry_ofEntry h)

/-- The envelope repeats the key, and holds the text. -/
theorem envelope?_encode (key : String) (entry : RoutingEntry) :
    envelope? (entry.encode key) = some (key, Text.Base64.text entry.toValue.bytes) := by
  have hread : Tree.read? (entry.encode key) = some (.object [(pieces "Key", .string (pieces key)),
      (pieces "Value", .string (pieces (Text.Base64.text entry.toValue.bytes)))]) :=
    Tree.read?_bytes (v := .object [("Key", .string key),
      ("Value", .string (Text.Base64.text entry.toValue.bytes))]) ⟨trivial, trivial, trivial⟩
  unfold envelope?
  rw [hread]
  simp [Tree.record?, Tree.fillSlots, Tree.fillSlot, pieceText?_pieces, Tree.text?, maxDepth]

/-- **A stored entry is read back**, under whatever key. -/
theorem decode_encode {entry : RoutingEntry} (h : entry.Storable) (key : String) :
    decode (entry.encode key) = .ok entry := by
  unfold decode
  rw [envelope?_encode]
  simp only
  rw [Text.Base64.decode_text]
  simp only
  rw [read?_bytes h]

/-- A reverse tunnel without a secret is read back as something else. -/
theorem decode_encode_iff {entry : RoutingEntry} (key : String) :
    decode (entry.encode key) = .ok entry ↔ entry.Storable := by
  constructor
  · intro hread hroute
    obtain ⟨owner, route⟩ := entry
    obtain rfl : route = .reverse "" := hroute
    have hforward : (⟨owner, .forward "" 0 0⟩ : RoutingEntry).Storable := by
      intro h
      cases h
    -- both have the same fields, so both are stored alike
    have hsame : (⟨owner, .reverse ""⟩ : RoutingEntry).encode key =
        (⟨owner, .forward "" 0 0⟩ : RoutingEntry).encode key := rfl
    rw [hsame, decode_encode hforward] at hread
    cases hread
  · intro h
    exact decode_encode h key

/-! ## Entries that have been read -/

theorem storable_toEntry (r : ServiceRecord) : r.toEntry.Storable := by
  intro hroute
  unfold ServiceRecord.toEntry at hroute
  by_cases hsecret : r.clientSecret = ""
  · rw [if_pos hsecret] at hroute
    cases hroute
  · rw [if_neg hsecret, Route.reverse.injEq] at hroute
    exact hsecret hroute

/-- No bytes are read as a reverse tunnel without a secret. -/
theorem storable_of_decode {raw : Bytes} {entry : RoutingEntry} (h : decode raw = .ok entry) :
    entry.Storable := by
  unfold decode at h
  split at h
  · cases h
  split at h
  · cases h
  split at h
  · cases h
  next service hservice =>
    cases h
    unfold read? at hservice
    obtain ⟨tree, -, hfields⟩ := Option.bind_eq_some_iff.1 hservice
    obtain ⟨fields, -, hentry⟩ := Option.bind_eq_some_iff.1 hfields
    cases hentry
    exact storable_toEntry fields

/-- The envelope and the entry in it determine each other: two stored forms are equal only for one key and
one entry. -/
theorem encode_inj {entry other : RoutingEntry} (h : entry.Storable) (hother : other.Storable)
    {key otherKey : String} (heq : other.encode otherKey = entry.encode key) :
    other = entry ∧ otherKey = key := by
  have hentry := decode_encode hother otherKey
  have henvelope := envelope?_encode otherKey other
  rw [heq, decode_encode h, Except.ok.injEq] at hentry
  rw [heq, envelope?_encode, Option.some.injEq, Prod.mk.injEq] at henvelope
  exact ⟨hentry.symm, henvelope.1.symm⟩

/-- **Stored forms are faithful.** A forward, a reverse tunnel with a secret, and any entry that has been
read from whatever bytes, is read back from its own stored form under every key, and the envelope names
that key. Two such entries, or keys, have two stored forms, and no entry changes its kind. -/
theorem stored_form_faithful {entry : RoutingEntry}
    (h : entry.Storable ∨ ∃ raw, decode raw = .ok entry) (key : String) :
    decode (entry.encode key) = .ok entry ∧
      (envelope? (entry.encode key)).map Prod.fst = some key ∧
      (∀ (other : RoutingEntry) (otherKey : String), (other.Storable ∨ ∃ raw, decode raw = .ok other) →
        other.encode otherKey = entry.encode key → other = entry ∧ otherKey = key) ∧
      ∀ other, decode (entry.encode key) = .ok other → other.isReverse = entry.isReverse := by
  have hstorable : ∀ e : RoutingEntry, (e.Storable ∨ ∃ raw, decode raw = .ok e) → e.Storable := by
    rintro e (he | ⟨raw, he⟩)
    · exact he
    · exact storable_of_decode he
  have hread := decode_encode (hstorable entry h) key
  refine ⟨hread, ?_, ?_, ?_⟩
  · rw [envelope?_encode]
    rfl
  · intro other otherKey hother heq
    exact encode_inj (hstorable entry h) (hstorable other hother) heq
  · intro other hother
    rw [hread, Except.ok.injEq] at hother
    rw [hother]

/-- A secret with quotes, a line feed and letters beyond ASCII survives all three layers. -/
theorem stored_form_faithful_reverse :
    let entry : RoutingEntry := ⟨"zoë", .reverse "zoë:\"a\\b\"\n→"⟩
    entry.Storable ∧ decode (entry.encode "routing:www.example.com") = .ok entry ∧
      (envelope? (entry.encode "routing:www.example.com")).map Prod.fst = some "routing:www.example.com" ∧
      ∀ other, decode (entry.encode "routing:www.example.com") = .ok other → other.isReverse = true := by
  intro entry
  have hstorable : entry.Storable := by
    intro hroute
    exact absurd (Route.reverse.inj hroute) (by decide)
  obtain ⟨hread, hkey, -, hkind⟩ := stored_form_faithful (.inl hstorable) "routing:www.example.com"
  exact ⟨hstorable, hread, hkey, hkind⟩

end RoutingEntry
end GatewayControl
