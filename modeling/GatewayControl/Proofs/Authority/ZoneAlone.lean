import GatewayControl.Proofs.Authority.ZoneView

/-!
# `GatewayControl.Proofs.Authority.ZoneAlone` -- what each zone operation does when it runs alone

One equation for each operation of the zone authority, in terms of the views of the store and of
the cells that it writes. Run alone, a conditional write never loses its race, so the rounds of
delegation, revocation and claim end in the first one. `Cleared` is the effect of clearing a zone;
an operation that fails before its first write leaves the store alone.
-/

namespace GatewayControl

open Operation MemoryStore

/-- The text spells a name that stands in the zone. -/
def standsIn (zone : DomainName) (text : String) : Bool :=
  match DomainName.parse text with
  | .ok name => name.zone = zone
  | .error _ => false

/-- The cell belongs to the contents of a zone: its record sets, and the label claims whose name
stands in it. -/
def Cell.InZone (zone : DomainName) : Cell → Prop
  | .value _ => False
  | .field key name => key = zone.fqdn ∨ key = managedDomains ∧ standsIn zone name = true

instance (zone : DomainName) : DecidablePred (Cell.InZone zone) := fun cell => by
  cases cell <;> unfold Cell.InZone <;> infer_instance

/-- The second store is the first one without the contents of the zone. -/
def Cleared (zone : DomainName) (s t : MemoryStore) : Prop :=
  ∀ cell : Cell, t.read cell = if cell.InZone zone then none else s.read cell

theorem standsIn_text (zone name : DomainName) : standsIn zone name.text = decide (name.zone = zone) := by
  simp [standsIn]

theorem standsIn_iff {zone : DomainName} {text : String} :
    standsIn zone text = true ↔ ∃ name, DomainName.parse text = .ok name ∧ name.zone = zone := by
  unfold standsIn
  cases DomainName.parse text <;> simp

theorem inZone_recordCell {zone name : DomainName} :
    (recordCell name).InZone zone ↔ name.zone = zone := by
  have hkey : (recordCell name).InZone zone ↔
      name.zone.fqdn = zone.fqdn ∨ name.zone.fqdn = managedDomains ∧ standsIn zone name.label = true :=
    Iff.rfl
  rw [hkey, DomainName.fqdn_inj]
  exact or_iff_left fun h => DomainName.fqdn_ne_managedDomains name.zone h.1

theorem inZone_claimCell {zone name : DomainName} :
    (claimCell name).InZone zone ↔ name.zone = zone := by
  have hkey : (claimCell name).InZone zone ↔
      managedDomains = zone.fqdn ∨ managedDomains = managedDomains ∧ standsIn zone name.text = true :=
    Iff.rfl
  rw [hkey, standsIn_text, decide_eq_true_eq]
  refine ⟨fun h => ?_, fun h => .inr ⟨rfl, h⟩⟩
  rcases h with h | h
  · exact absurd h.symm (DomainName.fqdn_ne_managedDomains zone)
  · exact h.2

/-- No cell belongs to two zones. -/
theorem eq_of_inZone {cell : Cell} {d e : DomainName} (hd : cell.InZone d) (he : cell.InZone e) :
    d = e := by
  cases cell with
  | value key => exact absurd hd id
  | field key field =>
    rcases hd with hd | ⟨hdm, hd⟩ <;> rcases he with he | ⟨hem, he⟩
    · exact DomainName.fqdn_inj.1 (hd.symm.trans he)
    · exact absurd (hd.symm.trans hem) (DomainName.fqdn_ne_managedDomains d)
    · exact absurd (he.symm.trans hdm) (DomainName.fqdn_ne_managedDomains e)
    · obtain ⟨name, hname, hnamed⟩ := standsIn_iff.1 hd
      obtain ⟨other, hother, hothered⟩ := standsIn_iff.1 he
      rw [hname, Except.ok.injEq] at hother
      rw [← hnamed, ← hothered, hother]

namespace ZoneAuthority

variable {s : MemoryStore} {user domain : String} {zone name : DomainName}

/-! ## Clearing a zone -/

theorem clearClaims_cons (zone : DomainName) (text : String) (texts : List String) :
    clearClaims zone (text :: texts) =
      if standsIn zone text = true then
        discard (hdel managedDomains text) >>= fun _ => clearClaims zone texts
      else clearClaims zone texts := by
  rw [clearClaims]
  unfold standsIn
  cases DomainName.parse text with
  | error fault => rfl
  | ok name =>
    by_cases hz : name.zone = zone
    · simp only [hz, decide_true, if_true]
    · simp only [hz, decide_false, if_false, Bool.false_eq_true]

theorem alone_clearClaims (zone : DomainName) (ht : s.TakesFields managedDomains) (texts : List String) :
    ∃ t, alone (clearClaims zone texts) s = (.ok (), t) ∧ ∀ cell : Cell, t.read cell =
      if cell ∈ (texts.filter (standsIn zone)).map (Cell.field managedDomains) then none
      else s.read cell := by
  induction texts generalizing s with
  | nil => exact ⟨s, rfl, fun cell => by simp⟩
  | cons text texts ih =>
    rw [clearClaims_cons]
    by_cases hs : standsIn zone text = true
    · have hw := read_write (.field managedDomains text) ht none
      have ht' : (s.write (.field managedDomains text) none).TakesFields managedDomains := by
        unfold TakesFields
        rw [hw, if_neg (by simp)]
        exact ht
      have hdel : alone (discard (hdel managedDomains text)) s =
          (.ok (), s.write (.field managedDomains text) none) := by
        rw [alone_discard, alone_hdel ht]
        rfl
      obtain ⟨t, hrun, hread⟩ := ih ht'
      refine ⟨t, ?_, fun cell => ?_⟩
      · rw [if_pos hs, alone_bind_ok hdel, hrun]
      · rw [hread, hw, List.filter_cons_of_pos hs, List.map_cons]
        by_cases hc : cell = .field managedDomains text
        · rw [if_pos hc, ite_self, if_pos (List.mem_cons.2 (.inl hc))]
        · rw [if_neg hc]
          simp only [List.mem_cons, hc, false_or]
    · rw [if_neg hs, List.filter_cons_of_neg hs]
      exact ih ht

/-- **Clearing a zone** removes its contents and nothing else. -/
theorem alone_clearZone (hz : s.TakesFields zone.fqdn) (hm : s.TakesFields managedDomains) :
    ∃ t, alone (clearZone zone) s = (.ok (), t) ∧ Cleared zone s t := by
  have hkey : managedDomains ≠ zone.fqdn := (DomainName.fqdn_ne_managedDomains zone).symm
  have hm' : (s.put zone.fqdn none).TakesFields managedDomains := by
    unfold TakesFields
    rw [read_put_none]
    exact (if_neg hkey).trans hm
  obtain ⟨t, hrun, hread⟩ := alone_clearClaims zone hm'
    ((s.put zone.fqdn none).fieldNames managedDomains)
  refine ⟨t, ?_, fun cell => ?_⟩
  · unfold clearZone
    rw [alone_bind_ok (alone_hkeys hz), alone_bind_ok (alone_delete zone.fqdn s),
      alone_bind_ok (alone_hkeys hm'), hrun]
  · have hvalue : s.read (.value zone.fqdn) = none := hz
    rw [hread, read_put_none]
    cases cell with
    | value key =>
      by_cases hk : key = zone.fqdn
      · simp [Cell.InZone, Cell.key, hk, hvalue]
      · simp [Cell.InZone, Cell.key, hk]
    | field key text =>
      by_cases hk : key = zone.fqdn
      · simp [Cell.InZone, Cell.key, hk]
      by_cases hkm : key = managedDomains
      · -- a claim that the scan did not find was absent already
        have hmem := mem_fieldNames hm' text
        rw [read_put_none] at hmem
        simp only [Cell.key, hkey, if_false] at hmem
        subst hkm
        simp only [Cell.InZone, Cell.key, hkey, false_or, true_and, if_false, List.mem_map,
          List.mem_filter, Cell.field.injEq, exists_eq_right, hmem]
        grind
      · have hne : Cell.field key text ∉ List.map (Cell.field managedDomains)
            (List.filter (standsIn zone) ((s.put zone.fqdn none).fieldNames managedDomains)) := by
          simp [Ne.symm hkm]
        simp only [Cell.InZone, Cell.key, hk, hkm, hne, if_false, false_or, false_and]

theorem alone_clearZone_refused (hz : ¬ s.TakesFields zone.fqdn) :
    alone (clearZone zone) s = (.error (refusal zone.fqdn), s) :=
  alone_bind_error (alone_call_refused (c := .hkeys zone.fqdn) hz)

/-- The hash of the zone is gone before the hash of claims is found unusable. -/
theorem alone_clearZone_claims_refused (hz : s.TakesFields zone.fqdn)
    (hm : ¬ s.TakesFields managedDomains) :
    alone (clearZone zone) s = (.error (refusal managedDomains), s.put zone.fqdn none) := by
  have hm' : ¬ (s.put zone.fqdn none).TakesFields managedDomains := by
    unfold TakesFields
    rw [read_put_none]
    simp only [Cell.key, (DomainName.fqdn_ne_managedDomains zone).symm, if_false]
    exact hm
  have hrefused : (s.put zone.fqdn none).Refuses (.hkeys managedDomains) := hm'
  unfold clearZone
  rw [alone_bind_ok (alone_hkeys hz), alone_bind_ok (alone_delete zone.fqdn s)]
  exact alone_bind_error (alone_call_refused hrefused)

/-- A zone that was cleared without a fault is empty. -/
theorem cleared_of_alone_ok {t : MemoryStore} (h : alone (clearZone zone) s = (.ok (), t)) :
    s.TakesFields zone.fqdn ∧ Cleared zone s t := by
  by_cases hz : s.TakesFields zone.fqdn
  · by_cases hm : s.TakesFields managedDomains
    · obtain ⟨u, hrun, hcleared⟩ := alone_clearZone hz hm
      rw [hrun] at h
      cases h
      exact ⟨hz, hcleared⟩
    · rw [alone_clearZone_claims_refused hz hm] at h
      cases h
  · rw [alone_clearZone_refused hz] at h
    cases h

/-! ## Delegation and revocation -/

/-- The first round decides: nobody changes the record between the check and the write. -/
theorem alone_delegateRounds (user : String) (zone : DomainName) (rounds : Nat) (s : MemoryStore) :
    alone (delegateRounds user zone (rounds + 1)) s =
      match alone (readOwner zone) s with
      | (.error e, s) => (.error e, s)
      | (.ok (_, owner), s) =>
        if owner = user then (.ok (), s)
        else if owner ≠ "" then (.error (.unauthorized "delegate domain" zone.text), s)
        else alone (clearZone zone) (s.write (.value zone.zoneKey) (some (encodeOwner user))) := by
  unfold delegateRounds
  rcases alone_readOwner_cases zone s with ⟨owner, ht, -, hrun⟩ | ⟨e, hrun⟩
  · rw [alone_bind_ok hrun, hrun]
    simp only
    by_cases hu : owner = user
    · rw [if_pos hu, if_pos hu]
      rfl
    rw [if_neg hu, if_neg hu]
    by_cases ho : owner ≠ ""
    · rw [if_pos ho, if_pos ho]
      rfl
    · have hcas : alone (compareAndSet zone.zoneKey (s.read (.value zone.zoneKey))
          (some (encodeOwner user))) s =
          (.ok true, s.write (.value zone.zoneKey) (some (encodeOwner user))) := by
        rw [alone_compareAndSet ht, if_pos rfl]
      rw [if_neg ho, if_neg ho, alone_bind_ok hcas]
      rfl
  · rw [alone_bind_error hrun, hrun]

theorem alone_revokeRounds (user : String) (zone : DomainName) (rounds : Nat) (s : MemoryStore) :
    alone (revokeRounds user zone (rounds + 1)) s =
      match alone (readOwner zone) s with
      | (.error e, s) => (.error e, s)
      | (.ok (raw, owner), s) =>
        if owner = "" ∧ raw = none then (.ok (), s)
        else if owner ≠ "" ∧ owner ≠ user then
          (.error (.unauthorized "remove delegated domain" zone.text), s)
        else alone (clearZone zone) (s.write (.value zone.zoneKey) none) := by
  unfold revokeRounds
  rcases alone_readOwner_cases zone s with ⟨owner, ht, -, hrun⟩ | ⟨e, hrun⟩
  · rw [alone_bind_ok hrun, hrun]
    simp only
    by_cases hn : owner = "" ∧ s.read (.value zone.zoneKey) = none
    · simp only [hn, and_self, if_true, alone_pure]
    by_cases ho : owner ≠ "" ∧ owner ≠ user
    · rw [if_neg hn, if_pos ho, if_neg hn, if_pos ho]
      rfl
    · have hcas : alone (compareAndSet zone.zoneKey (s.read (.value zone.zoneKey)) none) s =
          (.ok true, s.write (.value zone.zoneKey) none) := by
        rw [alone_compareAndSet ht, if_pos rfl]
      rw [if_neg hn, if_neg ho, if_neg hn, if_neg ho, alone_bind_ok hcas]
      rfl
  · rw [alone_bind_error hrun, hrun]

/-! ## Claims -/

theorem alone_addRecords (auth : ZoneAuthority) (name : DomainName) (ips : List Ip)
    (s : MemoryStore) :
    alone (auth.addRecords name ips) s =
      match alone (readRecords name.zone name.label) s with
      | (.error e, s) => (.error e, s)
      | (.ok set, s) =>
        if (set.addAll (auth.recordsOf ips)).1 = true then
          (.ok (), s.write (recordCell name) (some (set.addAll (auth.recordsOf ips)).2.encode))
        else (.ok (), s) := by
  unfold addRecords
  rcases alone_readRecords_cases name s with ⟨set, ht, -, hrun⟩ | ⟨e, hrun⟩
  · rw [alone_bind_ok hrun, hrun]
    simp only
    split
    · exact alone_hset ht _
    · rfl
  · rw [alone_bind_error hrun, hrun]

/-- Run alone, a claim of a label ends in its first round, unless somebody left an empty claim. -/
theorem alone_claimLabel (user : String) (name : DomainName) (rounds : Nat) (s : MemoryStore) :
    alone (claimLabel user name (rounds + 1)) s =
      match alone (claimant name) s with
      | (.error e, s) => (.error e, s)
      | (.ok (some other), s) =>
        if other = user then (.ok false, s)
        else (.error (.unauthorized ("add subdomain " ++ name.text ++ " to zone") name.zone.text), s)
      | (.ok none, s) =>
        if s.read (claimCell name) = none then
          (.ok true, s.write (claimCell name) (some (Bytes.ofText user)))
        else (.error (.storage (.contended managedDomains)), s) := by
  rcases alone_claimant_cases name s with ⟨other, ht, hc, hrun⟩ | ⟨e, hrun⟩
  · by_cases ho : other = ""
    · simp only [ho, if_true] at hrun
      rw [hrun]
      simp only
      by_cases hcell : s.read (claimCell name) = none
      · unfold claimLabel
        rw [alone_bind_ok hrun, if_pos hcell]
        have hset : alone (hsetIfAbsent managedDomains name.text (Bytes.ofText user)) s =
            (.ok true, s.write (claimCell name) (some (Bytes.ofText user))) := by
          rw [alone_hsetIfAbsent ht]
          exact if_pos hcell
        simp only
        rw [alone_bind_ok hset]
        rfl
      · rw [if_neg hcell]
        have hset : alone (hsetIfAbsent managedDomains name.text (Bytes.ofText user)) s =
            (.ok false, s) := by
          rw [alone_hsetIfAbsent ht]
          exact if_neg hcell
        -- the empty claim is there in every round
        have hrounds : ∀ n, alone (claimLabel user name n) s =
            (.error (.storage (.contended managedDomains)), s) := by
          intro n
          induction n with
          | zero => rfl
          | succ n ih =>
            unfold claimLabel
            rw [alone_bind_ok hrun]
            simp only
            rw [alone_bind_ok hset]
            simpa using ih
        exact hrounds (rounds + 1)
    · simp only [ho, if_false] at hrun
      unfold claimLabel
      rw [alone_bind_ok hrun, hrun]
      simp only
      split <;> rfl
  · unfold claimLabel
    rw [alone_bind_error hrun, hrun]

/-- The records of a name are read alike after another name was written. -/
theorem alone_readRecords_write (name : DomainName) (cell : Cell) (hc : s.Takes cell)
    (content : Option Bytes) (hkey : cell.key ≠ name.zone.fqdn) :
    alone (readRecords name.zone name.label) (s.write cell content) =
      ((alone (readRecords name.zone name.label) s).1, s.write cell content) := by
  have htakes := takes_write_iff cell hc content (c := recordCell name) (Ne.symm hkey)
  have hcell : recordCell name ≠ cell := fun h => hkey (h ▸ rfl)
  by_cases ht : s.TakesFields name.zone.fqdn
  · have ht' : (s.write cell content).TakesFields name.zone.fqdn := htakes.2 ht
    rw [alone_readRecords ht, alone_readRecords ht']
    unfold labelRecords
    rw [read_write cell hc, if_neg hcell]
  · have hrefused : s.Refuses (.hget name.zone.fqdn name.label) := ht
    have hrefused' : (s.write cell content).Refuses (.hget name.zone.fqdn name.label) :=
      fun h => ht (htakes.1 h)
    have hfail : ∀ t : MemoryStore, t.Refuses (.hget name.zone.fqdn name.label) →
        alone (readRecords name.zone name.label) t = (.error (refusal name.zone.fqdn), t) :=
      fun t h => alone_bind_error (alone_call_refused h)
    rw [hfail s hrefused, hfail _ hrefused']

/-- Records that can be read are added, and records that cannot be read stay. -/
theorem alone_attempt_addRecords (auth : ZoneAuthority) (name : DomainName) (ips : List Ip)
    (s : MemoryStore) :
    (∃ t, alone (auth.addRecords name ips) s = (.ok (), t)) ∨
      ∃ e, alone (readRecords name.zone name.label) s = (.error e, s) ∧
        alone (auth.addRecords name ips) s = (.error e, s) := by
  rw [alone_addRecords]
  rcases alone_readRecords_cases name s with ⟨set, -, -, hset⟩ | ⟨e, hset⟩
  · left
    rw [hset]
    simp only
    split <;> exact ⟨_, rfl⟩
  · exact .inr ⟨e, hset, by rw [hset]⟩

/-- **A claim in a zone of the gateway**: the claim and the records are written, or neither. -/
theorem alone_claimSelfManaged (auth : ZoneAuthority) (user : String) (name : DomainName)
    (ips : List Ip) (s : MemoryStore) :
    alone (auth.claimSelfManaged user name ips) s =
      match alone (claimant name) s with
      | (.error e, s) => (.error e, s)
      | (.ok (some other), s) =>
        if other = user then alone (auth.addRecords name ips) s
        else (.error (.unauthorized ("add subdomain " ++ name.text ++ " to zone") name.zone.text), s)
      | (.ok none, s) =>
        if s.read (claimCell name) = none then
          match alone (readRecords name.zone name.label) s with
          | (.error e, s) => (.error e, s)
          | (.ok _, s) =>
            alone (auth.addRecords name ips) (s.write (claimCell name) (some (Bytes.ofText user)))
        else (.error (.storage (.contended managedDomains)), s) := by
  unfold claimSelfManaged claimAttempts
  have hlabel := alone_claimLabel user name 2 s
  rcases alone_claimant_cases name s with ⟨other, ht, hc, hrun⟩ | ⟨e, hrun⟩
  · rw [hrun] at hlabel ⊢
    by_cases ho : other = ""
    · simp only [ho, if_true] at hlabel ⊢
      by_cases hcell : s.read (claimCell name) = none
      · have ht' : s.Takes (claimCell name) := ht
        rw [if_pos hcell] at hlabel ⊢
        have hreads := alone_readRecords_write name (claimCell name) ht'
          (some (Bytes.ofText user)) (DomainName.fqdn_ne_managedDomains name.zone).symm
        -- writing the claim does not change whether the records can be read
        rw [alone_bind_ok hlabel, alone_bind, alone_attempt]
        rcases alone_attempt_addRecords auth name ips
          (s.write (claimCell name) (some (Bytes.ofText user))) with ⟨t, hadd⟩ | ⟨e, hread, hadd⟩
        · rcases alone_readRecords_cases name s with ⟨set, -, -, hset⟩ | ⟨e, hset⟩
          · rw [hset]
            simp only [hadd]
            rfl
          · rw [hset] at hreads
            rw [alone_addRecords, hreads] at hadd
            cases hadd
        · -- the records cannot be read, and the undoing removes the claim just written
          have hset : alone (readRecords name.zone name.label) s = (.error e, s) := by
            rcases alone_readRecords_cases name s with ⟨set, -, -, hset⟩ | ⟨e', hset⟩
            · rw [hread, hset] at hreads
              cases hreads
            · rw [hread, hset] at hreads
              cases hreads
              exact hset
          have hundo := write_write_eq_self (claimCell name) ht' (some (Bytes.ofText user))
          rw [hcell] at hundo
          have hdel : alone (discard (attempt (hdel managedDomains name.text)))
              (s.write (claimCell name) (some (Bytes.ofText user))) = (.ok (), s) := by
            rw [alone_discard, alone_attempt, alone_hdel (takes_write (claimCell name) ht' _)]
            exact congrArg (Prod.mk _) hundo
          rw [hset, hadd]
          simp only [if_true]
          rw [alone_bind_ok hdel]
          rfl
      · rw [if_neg hcell] at hlabel ⊢
        rw [alone_bind_error hlabel]
    · simp only [ho, if_false] at hlabel ⊢
      by_cases hu : other = user
      · rw [if_pos hu] at hlabel ⊢
        rw [alone_bind_ok hlabel, alone_bind, alone_attempt]
        rcases alone (auth.addRecords name ips) s with ⟨_ | _, _⟩ <;> rfl
      · rw [if_neg hu] at hlabel ⊢
        rw [alone_bind_error hlabel]
  · rw [hrun] at hlabel ⊢
    rw [alone_bind_error hlabel]

/-! ## Requests of a user -/

/-- A request without a user, or about no domain, fails; any other goes on with the name. -/
theorem checked_cases {α : Type} (user domain : String) (next : DomainName → Operation α) :
    (∃ e, (check (requireUser user) >>= fun _ => check (DomainName.require domain) >>= next) = throw e ∧
      e.kind = .validation) ∨
    user ≠ "" ∧ ∃ name, DomainName.parse domain = .ok name ∧
      (check (requireUser user) >>= fun _ => check (DomainName.require domain) >>= next) = next name := by
  by_cases hu : user = ""
  · have hrefuse : requireUser user = .error emptyUser := if_pos hu
    rw [hrefuse]
    exact .inl ⟨emptyUser, rfl, rfl⟩
  have hpass : requireUser user = .ok () := if_neg hu
  rw [hpass]
  unfold DomainName.require
  cases hd : DomainName.parse domain with
  | error fault => exact .inl ⟨_, rfl, rfl⟩
  | ok name => exact .inr ⟨hu, name, rfl, rfl⟩

/-- A request that passes its checks is what follows them. -/
theorem checked_eq {α : Type} (hu : user ≠ "") (hd : DomainName.parse domain = .ok name)
    (next : DomainName → Operation α) :
    (check (requireUser user) >>= fun _ => check (DomainName.require domain) >>= next) = next name := by
  have hpass : requireUser user = .ok () := if_neg hu
  rw [hpass, DomainName.require_eq_ok.2 hd]
  rfl

/-- What every request checks before it reads the store: its user and its domain. -/
theorem alone_checked {α : Type} (user domain : String) (next : DomainName → Operation α)
    (s : MemoryStore) :
    alone (check (requireUser user) >>= fun _ => check (DomainName.require domain) >>= next) s =
      if user = "" then (.error emptyUser, s)
      else match DomainName.require domain with
        | .ok name => alone (next name) s
        | .error e => (.error e, s) := by
  by_cases hu : user = ""
  · have hrefuse : requireUser user = .error emptyUser := if_pos hu
    rw [if_pos hu, hrefuse]
    rfl
  · have hpass : requireUser user = .ok () := if_neg hu
    rw [if_neg hu, hpass, alone_bind_ok (alone_check_ok () s)]
    cases DomainName.require domain <;> rfl

theorem alone_delegate (hu : user ≠ "") (hd : DomainName.parse domain = .ok zone) (s : MemoryStore) :
    alone (delegate user domain) s = alone (delegateRounds user zone claimAttempts) s := by
  unfold delegate
  rw [alone_checked, if_neg hu, DomainName.require_eq_ok.2 hd]

theorem alone_revoke (hu : user ≠ "") (hd : DomainName.parse domain = .ok zone) (s : MemoryStore) :
    alone (revoke user domain) s = alone (revokeRounds user zone claimAttempts) s := by
  unfold revoke
  rw [alone_checked, if_neg hu, DomainName.require_eq_ok.2 hd]

/-- A claim goes to the owner of the zone, or to the claimant of the label. -/
theorem alone_claim (auth : ZoneAuthority) (hu : user ≠ "")
    (hd : DomainName.parse domain = .ok name) {ips : List Ip} (hips : ips ≠ []) (s : MemoryStore) :
    alone (auth.claim user domain ips) s =
      match alone (readOwner name.zone) s with
      | (.error e, s) => (.error e, s)
      | (.ok (_, owner), s) =>
        if owner = "" then
          (.error (.notFound ("zone " ++ name.zone.text ++ " (delegate the domain first)")), s)
        else if owner = auth.identity then alone (auth.claimSelfManaged user name ips) s
        else if owner = user then alone (auth.addRecords name ips) s
        else
          (.error (.unauthorized ("add subdomain " ++ name.label ++ " to zone") name.zone.text), s) := by
  unfold claim
  rw [alone_checked, if_neg hu, DomainName.require_eq_ok.2 hd]
  simp only [if_neg hips]
  unfold control
  rcases alone_readOwner_cases name.zone s with ⟨owner, -, -, hrun⟩ | ⟨e, hrun⟩
  · rw [bind_assoc, alone_bind_ok hrun, hrun]
    simp only
    by_cases ho : owner = ""
    · rw [if_pos ho, if_pos ho]
      rfl
    by_cases hi : owner = auth.identity
    · rw [if_neg ho, if_pos hi, if_neg ho, if_pos hi]
      rfl
    · rw [if_neg ho, if_neg hi, if_neg ho, if_neg hi]
      simp only [pure_bind]
      split <;> rfl
  · rw [bind_assoc, alone_bind_error hrun, hrun]

/-- Withdrawing the last record removes the records, and with them the claim. -/
theorem alone_withdraw (auth : ZoneAuthority) {selfManaged : Bool}
    (hm : selfManaged = true → s.TakesFields managedDomains) (name : DomainName) (ips : List Ip) :
    alone (auth.withdraw selfManaged name ips) s =
      match alone (readRecords name.zone name.label) s with
      | (.error e, s) => (.error e, s)
      | (.ok set, s) =>
        if (set.removeAll (auth.recordsOf ips)).2.isEmpty = true then
          (.ok (), if selfManaged = true then (s.write (recordCell name) none).write (claimCell name) none
            else s.write (recordCell name) none)
        else if (set.removeAll (auth.recordsOf ips)).1 = true then
          (.ok (), s.write (recordCell name) (some (set.removeAll (auth.recordsOf ips)).2.encode))
        else (.ok (), s) := by
  unfold withdraw
  rcases alone_readRecords_cases name s with ⟨set, ht, -, hrun⟩ | ⟨e, hrun⟩
  · rw [alone_bind_ok hrun, hrun]
    simp only
    by_cases hempty : (set.removeAll (auth.recordsOf ips)).2.isEmpty = true
    · have hdel : alone (discard (hdel name.zone.fqdn name.label)) s =
          (.ok (), s.write (recordCell name) none) := by
        rw [alone_discard, alone_hdel ht]
        rfl
      rw [if_pos hempty, if_pos hempty, alone_bind_ok hdel]
      cases selfManaged with
      | false => rfl
      | true =>
        have hm' : (s.write (recordCell name) none).TakesFields managedDomains :=
          (takes_write_iff (recordCell name) ht none (c := claimCell name)
            (DomainName.fqdn_ne_managedDomains name.zone).symm).2 (hm rfl)
        simp only [if_true]
        rw [alone_discard, alone_hdel hm']
        rfl
    · rw [if_neg hempty, if_neg hempty]
      split
      · exact alone_hset ht _
      · rfl
  · rw [alone_bind_error hrun, hrun]

/-- A release goes to the owner of the zone, or to the claimant of the label. -/
theorem alone_release (auth : ZoneAuthority) (hu : user ≠ "")
    (hd : DomainName.parse domain = .ok name) (ips : List Ip) (s : MemoryStore) :
    alone (auth.release user domain ips) s =
      match alone (readOwner name.zone) s with
      | (.error e, s) => (.error e, s)
      | (.ok (_, owner), s) =>
        if owner = "" then (.ok (), s)
        else if owner = auth.identity then
          match alone (claimant name) s with
          | (.error e, s) => (.error e, s)
          | (.ok none, s) => alone (auth.withdraw true name ips) s
          | (.ok (some other), s) =>
            if other = user then alone (auth.withdraw true name ips) s
            else (.error (releaseRefused name), s)
        else if owner = user then alone (auth.withdraw false name ips) s
        else (.error (releaseRefused name), s) := by
  unfold release
  rw [alone_checked, if_neg hu, DomainName.require_eq_ok.2 hd]
  simp only
  unfold control
  rcases alone_readOwner_cases name.zone s with ⟨owner, -, -, hrun⟩ | ⟨e, hrun⟩
  · rw [bind_assoc, alone_bind_ok hrun, hrun]
    simp only
    by_cases ho : owner = ""
    · rw [if_pos ho, if_pos ho]
      rfl
    by_cases hi : owner = auth.identity
    · rw [if_neg ho, if_pos hi, if_neg ho, if_pos hi]
      simp only [pure_bind]
      rcases alone_claimant_cases name s with ⟨other, -, -, hclaim⟩ | ⟨e, hclaim⟩
      · rw [alone_bind_ok hclaim, hclaim]
        by_cases hother : other = ""
        · simp only [if_pos hother]
        · simp only [if_neg hother]
          split <;> rfl
      · rw [alone_bind_error hclaim, hclaim]
    · rw [if_neg ho, if_neg hi, if_neg ho, if_neg hi]
      simp only [pure_bind]
      split <;> rfl
  · rw [bind_assoc, alone_bind_error hrun, hrun]

end ZoneAuthority

/-! ## Calls -/

/-- A change to zones and labels that a user asks for. The instance that carries it out brings its
own time to live for records. -/
inductive ZoneCall where
  | delegate (user domain : String)
  | revoke (user domain : String)
  | claim (recordTtl : UInt32) (user domain : String) (ips : List Ip)
  | release (recordTtl : UInt32) (user domain : String) (ips : List Ip)
deriving DecidableEq, Repr

namespace ZoneCall

/-- The user who issues a call. -/
def user : ZoneCall → String
  | delegate user _ | revoke user _ | claim _ user _ _ | release _ user _ _ => user

/-- The text that names the zone or label of a call. -/
def domain : ZoneCall → String
  | delegate _ domain | revoke _ domain | claim _ _ domain _ | release _ _ domain _ => domain

/-- The operation of a call at a gateway of this identity. -/
def operation (identity : String) : ZoneCall → Operation Unit
  | delegate user domain => ZoneAuthority.delegate user domain
  | revoke user domain => ZoneAuthority.revoke user domain
  | claim recordTtl user domain ips => ZoneAuthority.claim ⟨identity, recordTtl⟩ user domain ips
  | release recordTtl user domain ips => ZoneAuthority.release ⟨identity, recordTtl⟩ user domain ips

/-- Every call checks its user and its domain before anything else. -/
theorem operation_eq (identity : String) (call : ZoneCall) :
    ∃ next : DomainName → Operation Unit, call.operation identity =
      (check (requireUser call.user) >>= fun _ =>
        check (DomainName.require call.domain) >>= next) := by
  cases call <;> exact ⟨_, rfl⟩

/-- A call without a user, or on a text that is no domain, leaves the store alone. -/
theorem alone_operation_of_invalid {identity : String} {call : ZoneCall}
    (h : call.user = "" ∨ ∀ name, DomainName.parse call.domain ≠ .ok name) (s : MemoryStore) :
    (alone (call.operation identity) s).2 = s := by
  obtain ⟨next, hnext⟩ := operation_eq identity call
  rw [hnext, ZoneAuthority.alone_checked]
  by_cases hu : call.user = ""
  · rw [if_pos hu]
  rw [if_neg hu]
  cases hr : DomainName.require call.domain with
  | error e => rfl
  | ok name => exact absurd (DomainName.require_eq_ok.1 hr) (h.resolve_left hu name)

end ZoneCall
end GatewayControl
