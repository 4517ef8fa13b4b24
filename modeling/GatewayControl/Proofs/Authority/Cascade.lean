import GatewayControl.Proofs.Authority.ZoneAlone

/-!
# `GatewayControl.Proofs.Authority.Cascade` -- what goes with a zone

A zone is stored in three places: its owner record, the hash of its record sets, and one claim for
each claimed name, in a hash that all zones share. `withoutZone` is the store without all three, and
`read_withoutZone` says of each cell whether it is gone. Revocation and a first delegation look for
the claims in a loop over the shared hash that deletes as it goes; the loop ends at that store
(`cascade`), so a zone goes as a whole and nothing of another zone goes with it, not even of one
that stands below it.
-/

namespace GatewayControl

open Operation

namespace MemoryStore

/-- The store without a zone: without its owner record, its hash, and the claims of names that stand
in it. A claim is stored under a text, which need not be the usual spelling of its name. -/
def withoutZone (zone : DomainName) (s : MemoryStore) : MemoryStore :=
  let rest := (s.put zone.zoneKey none).put zone.fqdn none
  match s.fields managedDomains with
  | .ok claims => rest.putFields managedDomains (claims.filter fun text _ => !standsIn zone text)
  | .error _ => rest

variable {s t : MemoryStore} {zone : DomainName}

/-- The cells that go with a zone. -/
theorem read_withoutZone (hz : s.TakesFields zone.fqdn) (hm : s.TakesFields managedDomains)
    (cell : Cell) :
    (s.withoutZone zone).read cell =
      if cell.key = zone.zoneKey ∨ cell.InZone zone then none else s.read cell := by
  obtain ⟨claims, hok, hread⟩ := fields_eq_ok hm
  have hvalue : s.read (.value zone.fqdn) = none := hz
  have hclaims : s.read (.value managedDomains) = none := hm
  have hkey := zone.zoneKey_ne_managedDomains
  have hfqdn := zone.fqdn_ne_managedDomains
  simp only [withoutZone, hok, read_putFields, read_put_none]
  cases cell with
  | value key =>
    simp only [Cell.key, Cell.InZone]
    grind
  | field key text =>
    simp only [Cell.key, Cell.InZone]
    by_cases hk : key = managedDomains
    · subst hk
      rw [if_pos rfl, Std.ExtTreeMap.getElem?_filter', hread]
      cases s.read (.field managedDomains text) <;> by_cases hs : standsIn zone text = true <;>
        simp [hs, hkey.symm, hfqdn.symm]
    · grind

/-- Clearing a zone after its owner record was written ends at the store without the zone, but for
that record. -/
theorem eq_withoutZone (hv : s.TakesValue zone.zoneKey) (hz : s.TakesFields zone.fqdn)
    (hm : s.TakesFields managedDomains) {content : Option Bytes}
    (hcleared : Cleared zone (s.write (.value zone.zoneKey) content) t) :
    t = (s.withoutZone zone).put zone.zoneKey content := by
  refine ext_read fun cell => ?_
  have hkept := read_write (.value zone.zoneKey) hv content cell
  rw [hcleared cell, hkept, read_put, read_withoutZone hz hm]
  by_cases hc : cell = .value zone.zoneKey
  · rw [if_pos hc, if_pos hc, if_neg (by rw [hc]; exact id)]
  rw [if_neg hc, if_neg hc]
  cases cell with
  | value key =>
    have hk : key ≠ zone.zoneKey := fun h => hc (by rw [h])
    simp [Cell.key, hk]
  | field key text =>
    by_cases hk : key = zone.zoneKey
    · subst hk
      simp [Cell.key, hv text]
    · simp [Cell.key, hk]

end MemoryStore

namespace ZoneAuthority

open MemoryStore

variable {s : MemoryStore} {zone : DomainName} {user domain owner : String} {found : Option Bytes}

/-- Once the owner record is written, the contents of the zone follow. -/
theorem alone_clearZone_write (hv : s.TakesValue zone.zoneKey) (hz : s.TakesFields zone.fqdn)
    (hm : s.TakesFields managedDomains) (content : Option Bytes) :
    alone (clearZone zone) (s.write (.value zone.zoneKey) content) =
      (.ok (), (s.withoutZone zone).put zone.zoneKey content) := by
  have hkept : ∀ key, key ≠ zone.zoneKey → s.TakesFields key →
      (s.write (.value zone.zoneKey) content).TakesFields key := fun key hkey ht =>
    (takes_write_iff (.value zone.zoneKey) hv content (c := .field key "") hkey).2 ht
  obtain ⟨t, hrun, hcleared⟩ := alone_clearZone
    (hkept zone.fqdn (DomainName.fqdn_ne_zoneKey zone zone) hz)
    (hkept managedDomains zone.zoneKey_ne_managedDomains.symm hm)
  rw [hrun, eq_withoutZone hv hz hm hcleared]

theorem alone_readOwner_of_plain (hp : s.plain zone.zoneKey = .ok found)
    (ho : ownerIn found = some owner) :
    s.TakesValue zone.zoneKey ∧ alone (readOwner zone) s = (.ok (found, owner), s) := by
  have hv : s.TakesValue zone.zoneKey := by
    apply Classical.byContradiction
    intro hv
    rw [plain_eq_error hv] at hp
    cases hp
  rw [plain_eq_ok hv, Except.ok.injEq] at hp
  have howner : s.ownerOf zone = some owner := by rw [ownerOf, hp, ho]
  refine ⟨hv, ?_⟩
  rw [alone_readOwner hv, howner, hp]

/-- A zone goes when the user who owns it revokes it, or anybody if its owner record is empty. -/
theorem alone_revoke_held (hu : user ≠ "") (hd : DomainName.parse domain = .ok zone)
    (hz : s.TakesFields zone.fqdn) (hm : s.TakesFields managedDomains) {raw : Bytes}
    (hp : s.plain zone.zoneKey = .ok (some raw)) (ho : decodeOwner? raw = some owner)
    (hmay : owner = user ∨ owner = "") :
    alone (revoke user domain) s = (.ok (), s.withoutZone zone) := by
  obtain ⟨hv, hrun⟩ := alone_readOwner_of_plain hp ho
  have hgone : (s.withoutZone zone).put zone.zoneKey none = s.withoutZone zone := by
    refine ext_read fun cell => ?_
    rw [read_put_none, read_withoutZone hz hm]
    split
    · next hkey => rw [if_pos (.inl hkey)]
    · rfl
  have hallowed : ¬ (owner ≠ "" ∧ owner ≠ user) := by
    rintro ⟨hne, hnu⟩
    exact hmay.elim hnu hne
  rw [alone_revoke hu hd, claimAttempts, alone_revokeRounds, hrun]
  simp only [reduceCtorEq, and_false, if_false, if_neg hallowed]
  rw [alone_clearZone_write hv hz hm, hgone]

/-- A zone that nobody owns starts empty: what was left of it goes before its new owner has it. -/
theorem alone_delegate_unowned (hu : user ≠ "") (hd : DomainName.parse domain = .ok zone)
    (hz : s.TakesFields zone.fqdn) (hm : s.TakesFields managedDomains)
    (hp : s.plain zone.zoneKey = .ok found) (ho : ownerIn found = some "") :
    alone (delegate user domain) s =
      (.ok (), (s.withoutZone zone).put zone.zoneKey (some (encodeOwner user))) := by
  obtain ⟨hv, hrun⟩ := alone_readOwner_of_plain hp ho
  rw [alone_delegate hu hd, claimAttempts, alone_delegateRounds, hrun]
  simp only [if_neg (Ne.symm hu), ne_eq, not_true_eq_false, if_false]
  exact alone_clearZone_write hv hz hm (some (encodeOwner user))

/-- What is stored for another zone does not belong to this one. -/
theorem read_withoutZone_of_ne (hz : s.TakesFields zone.fqdn) (hm : s.TakesFields managedDomains)
    {other : DomainName} (hne : other ≠ zone) {cell : Cell}
    (hcell : cell = .value other.zoneKey ∨ cell.InZone other) :
    (s.withoutZone zone).read cell = s.read cell := by
  rw [read_withoutZone hz hm, if_neg]
  rintro (hkey | hin)
  · cases cell with
    | value key =>
      rcases hcell with hcell | hcell
      · cases hcell
        exact hne (DomainName.zoneKey_inj.1 hkey)
      · exact hcell
    | field key text =>
      rcases hcell with hcell | rfl | ⟨rfl, -⟩
      · cases hcell
      · exact DomainName.fqdn_ne_zoneKey other zone hkey
      · exact zone.zoneKey_ne_managedDomains hkey.symm
  · rcases hcell with rfl | hother
    · exact hin
    · exact hne (eq_of_inZone hother hin)

/-- **A zone goes as a whole, and alone.** A revocation by the owner, and a first delegation, end at
the store without the zone; the delegation puts the record of the new owner in it. Gone are the owner
record, the hash of the zone and the claims whose text spells a name in it, and nothing else: other
zones, those below this one among them, keep their owners, their hashes and their claims. -/
theorem cascade (hu : user ≠ "") (hd : DomainName.parse domain = .ok zone)
    (hz : s.TakesFields zone.fqdn) (hm : s.TakesFields managedDomains) :
    (∀ raw owner, s.plain zone.zoneKey = .ok (some raw) → decodeOwner? raw = some owner →
      owner = user ∨ owner = "" →
      alone (revoke user domain) s = (.ok (), s.withoutZone zone)) ∧
    (s.plain zone.zoneKey = .ok none ∨
      (∃ raw, s.plain zone.zoneKey = .ok (some raw) ∧ decodeOwner? raw = some "") →
      alone (delegate user domain) s =
        (.ok (), (s.withoutZone zone).put zone.zoneKey (some (encodeOwner user)))) ∧
    (∀ cell : Cell, (s.withoutZone zone).read cell =
      if cell.key = zone.zoneKey ∨ cell.InZone zone then none else s.read cell) ∧
    ∀ other, other ≠ zone → ∀ cell : Cell, cell = .value other.zoneKey ∨ cell.InZone other →
      (s.withoutZone zone).read cell = s.read cell := by
  refine ⟨fun raw owner hp ho hmay => alone_revoke_held hu hd hz hm hp ho hmay, ?_,
    read_withoutZone hz hm, fun other hne cell hcell => read_withoutZone_of_ne hz hm hne hcell⟩
  rintro (hp | ⟨raw, hp, ho⟩)
  · exact alone_delegate_unowned hu hd hz hm hp rfl
  · exact alone_delegate_unowned hu hd hz hm hp ho

/-- A store with two zones, one below the other. The outer one has an owner, a record set and a claim
in an unusual spelling; the record of the inner one names nobody. -/
def storeOfSample : MemoryStore :=
  (((empty.write (.value DomainName.sample.zone.zoneKey) (some (encodeOwner "alice"))).write
    (.field DomainName.sample.zone.fqdn "app") (some (Bytes.ofText "null"))).write
    (.field managedDomains "APP.example.COM") (some (Bytes.ofText "bob"))).write
    (.value DomainName.sample.zoneKey) (some (encodeOwner ""))

/-- The outer zone of the store goes with its claim, and the inner one stays. -/
theorem cascade_storeOfSample :
    storeOfSample.plain DomainName.sample.zone.zoneKey = .ok (some (encodeOwner "alice")) ∧
    alone (revoke "alice" "example.com") storeOfSample =
      (.ok (), storeOfSample.withoutZone DomainName.sample.zone) ∧
    (storeOfSample.withoutZone DomainName.sample.zone).read (.field managedDomains "APP.example.COM") =
      none ∧
    (storeOfSample.withoutZone DomainName.sample.zone).read (.value DomainName.sample.zoneKey) =
      some (encodeOwner "") ∧
    alone (delegate "bob" "app.example.com") storeOfSample =
      (.ok (), (storeOfSample.withoutZone DomainName.sample).put DomainName.sample.zoneKey
        (some (encodeOwner "bob"))) := by
  have howned : storeOfSample.plain DomainName.sample.zone.zoneKey =
      .ok (some (encodeOwner "alice")) := rfl
  have hempty : storeOfSample.plain DomainName.sample.zoneKey = .ok (some (encodeOwner "")) := rfl
  have hclaims : storeOfSample.TakesFields managedDomains := by unfold TakesFields; decide +kernel
  have halice : "alice" ≠ "" := by decide
  have hbob : "bob" ≠ "" := by decide
  have houter := cascade (s := storeOfSample) halice DomainName.parse_sample_zone
    (by unfold TakesFields; decide +kernel) hclaims
  have hinner := cascade (s := storeOfSample) hbob (DomainName.parse_text DomainName.sample)
    (by unfold TakesFields; decide +kernel) hclaims
  refine ⟨howned, houter.1 _ _ howned (decodeOwner?_encodeOwner "alice") (.inl rfl), ?_, ?_,
    hinner.2.1 (.inr ⟨_, hempty, decodeOwner?_encodeOwner ""⟩)⟩
  · rw [houter.2.2.1]
    decide +kernel
  · rw [houter.2.2.1]
    decide +kernel

end ZoneAuthority
end GatewayControl
