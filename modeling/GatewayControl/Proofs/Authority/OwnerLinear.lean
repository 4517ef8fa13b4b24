import GatewayControl.Proofs.Authority.ZoneTree
import GatewayControl.Proofs.Operation.Rounds

/-!
# `GatewayControl.Proofs.Authority.OwnerLinear` -- the owner of a zone changes hands at one point

Delegation and revocation are rounds of a conditional change of the owner record, followed by the
clearing of the zone. However they overlap, with each other and with claims and releases, the owner
record evolves as if each of them had taken its decision and written the record in one step
(`owner_linearizable`).

The one point is the read in which an operation finds its answer, or the replacement that succeeds.
For the latter it does not matter what happened since the read: the replacement compares the bytes,
and the decision depends on nothing else. What it costs to lose is counted as well: who gives up has
seen the record change as often as it has tried.
-/

namespace GatewayControl

open Operation MemoryStore

variable {ι : Type}

/-! ## The loops -/

namespace ZoneAuthority

variable {user : String} {zone : DomainName}

/-- What a delegation makes of an owner record. -/
def delegateVerdict (user : String) (zone : DomainName) (raw : Option Bytes) : Verdict Unit :=
  match ownerIn raw with
  | none => .answer (.error .json)
  | some owner =>
    if owner = user then .answer (.ok ())
    else if owner ≠ "" then .answer (.error (.unauthorized "delegate domain" zone.text))
    else .replace (some (encodeOwner user))

/-- What a revocation makes of an owner record. -/
def revokeVerdict (user : String) (zone : DomainName) (raw : Option Bytes) : Verdict Unit :=
  match ownerIn raw with
  | none => .answer (.error .json)
  | some owner =>
    if owner = "" ∧ raw = none then .answer (.ok ())
    else if owner ≠ "" ∧ owner ≠ user then
      .answer (.error (.unauthorized "remove delegated domain" zone.text))
    else .replace none

/-- What a delegation or a revocation decides. It answers without a fault of the store that others
brought about, and finds nothing left to do where it has replaced the record. -/
structure Decides (zone : DomainName) (verdict : Option Bytes → Verdict Unit) : Prop where
  answers : ∀ raw result, verdict raw = .answer result → ¬ GaveUp zone.zoneKey result
  settles : ∀ raw content, verdict raw = .replace content → verdict content = .answer (.ok ())

/-- A decision that refuses, agrees, or asks for one content with which it agrees. -/
theorem Decides.of_cases {verdict : Option Bytes → Verdict Unit} (content : Option Bytes)
    (hcases : ∀ raw, (∃ e, verdict raw = .answer (.error e) ∧ e.kind ≠ .storage) ∨
      verdict raw = .answer (.ok ()) ∨ verdict raw = .replace content)
    (hagrees : verdict content = .answer (.ok ())) : Decides zone verdict where
  answers := by
    intro raw result hverdict
    rcases hcases raw with ⟨e, hraw, hkind⟩ | hraw | hraw
    · rw [hraw] at hverdict
      cases hverdict
      exact not_gaveUp_of_kind hkind _
    · rw [hraw] at hverdict
      cases hverdict
      rintro ⟨⟩
    · rw [hraw] at hverdict
      cases hverdict
  settles := by
    intro raw new hverdict
    rcases hcases raw with ⟨e, hraw, -⟩ | hraw | hraw
    · rw [hraw] at hverdict
      cases hverdict
    · rw [hraw] at hverdict
      cases hverdict
    · rw [hraw] at hverdict
      cases hverdict
      exact hagrees

theorem decides_delegateVerdict (user : String) (zone : DomainName) :
    Decides zone (delegateVerdict user zone) := by
  refine .of_cases (some (encodeOwner user)) (fun raw => ?_) ?_
  · unfold delegateVerdict
    cases ownerIn raw with
    | none => exact .inl ⟨.json, rfl, by decide⟩
    | some owner =>
      simp only
      split
      · exact .inr (.inl rfl)
      split
      · exact .inl ⟨_, rfl, fun hkind => by cases hkind⟩
      · exact .inr (.inr rfl)
  · have howner : ownerIn (some (encodeOwner user)) = some user := decodeOwner?_encodeOwner user
    unfold delegateVerdict
    rw [howner]
    exact if_pos rfl

theorem decides_revokeVerdict (user : String) (zone : DomainName) :
    Decides zone (revokeVerdict user zone) := by
  refine .of_cases none (fun raw => ?_) ?_
  · unfold revokeVerdict
    cases ownerIn raw with
    | none => exact .inl ⟨.json, rfl, by decide⟩
    | some owner =>
      simp only
      split
      · exact .inr (.inl rfl)
      split
      · exact .inl ⟨_, rfl, fun hkind => by cases hkind⟩
      · exact .inr (.inr rfl)
  · simp [revokeVerdict, ownerIn]

/-- Reading the owner is reading the record and looking into it. -/
theorem readOwner_eq (zone : DomainName) :
    readOwner zone = get zone.zoneKey >>= fun raw =>
      match ownerIn raw with
      | some owner => pure (raw, owner)
      | none => throw GatewayError.json := by
  unfold readOwner
  congr 1
  funext raw
  cases raw with
  | none => rfl
  | some bytes =>
    cases hdecode : decodeOwner? bytes with
    | some owner => simp only [ownerIn, hdecode]
    | none => simp only [ownerIn, hdecode]

theorem delegateRounds_eq_swapRounds (user : String) (zone : DomainName) (rounds : Nat) :
    delegateRounds user zone rounds =
      swapRounds zone.zoneKey (delegateVerdict user zone) (clearZone zone) rounds := by
  refine eq_swapRounds rfl (fun rounds => ?_) rounds
  rw [delegateRounds, readOwner_eq, bind_assoc]
  congr 1
  funext raw
  unfold delegateVerdict
  cases ownerIn raw with
  | none => rfl
  | some owner =>
    simp only [pure_bind]
    by_cases hu : owner = user
    · rw [if_pos hu, if_pos hu]
      rfl
    rw [if_neg hu, if_neg hu]
    by_cases ho : owner ≠ ""
    · rw [if_pos ho, if_pos ho]
      rfl
    · rw [if_neg ho, if_neg ho]

theorem revokeRounds_eq_swapRounds (user : String) (zone : DomainName) (rounds : Nat) :
    revokeRounds user zone rounds =
      swapRounds zone.zoneKey (revokeVerdict user zone) (clearZone zone) rounds := by
  refine eq_swapRounds rfl (fun rounds => ?_) rounds
  rw [revokeRounds, readOwner_eq, bind_assoc]
  congr 1
  funext raw
  unfold revokeVerdict
  cases ownerIn raw with
  | none => rfl
  | some owner =>
    simp only [pure_bind]
    by_cases hn : owner = "" ∧ raw = none
    · rw [if_pos hn, if_pos hn]
      rfl
    rw [if_neg hn, if_neg hn]
    by_cases ho : owner ≠ "" ∧ owner ≠ user
    · rw [if_pos ho, if_pos ho]
      rfl
    · rw [if_neg ho, if_neg ho]

end ZoneAuthority

/-! ## Zones whose tables are of the right kind -/

/-- The owner record of a zone is no hash; its records and all claims are hashes, where they exist. -/
structure ZoneKept (zone : DomainName) (s : MemoryStore) : Prop where
  owner : s.TakesValue zone.zoneKey
  records : s.TakesFields zone.fqdn
  claims : s.TakesFields managedDomains

theorem zoneKept_empty (zone : DomainName) : ZoneKept zone .empty where
  owner := fun _ => read_empty _
  records := read_empty _
  claims := read_empty _

variable {s t : MemoryStore} {zone name : DomainName} {identity : String} {call : ZoneCall}

/-- A cell that no operation on zones fills stays empty. -/
theorem ZoneKept.of_read (h : ZoneKept zone s)
    (hread : ∀ cell : Cell, (∀ d : DomainName, cell ≠ .value d.zoneKey) →
      (∀ d, cell ≠ recordCell d) → (∀ d, cell ≠ claimCell d) → s.read cell = none →
      t.read cell = none) : ZoneKept zone t where
  owner := by
    intro field
    refine hread _ (fun d hd => by cases hd) (fun d hd => ?_) (fun d hd => ?_) (h.owner field)
    · rw [recordCell, Cell.field.injEq] at hd
      exact DomainName.fqdn_ne_zoneKey _ _ hd.1.symm
    · rw [claimCell, Cell.field.injEq] at hd
      exact DomainName.zoneKey_ne_managedDomains _ hd.1
  records := by
    refine hread _ (fun d hd => ?_) (fun d hd => by cases hd) (fun d hd => by cases hd) h.records
    rw [Cell.value.injEq] at hd
    exact DomainName.fqdn_ne_zoneKey _ _ hd
  claims := by
    refine hread _ (fun d hd => ?_) (fun d hd => by cases hd) (fun d hd => by cases hd) h.claims
    rw [Cell.value.injEq] at hd
    exact DomainName.zoneKey_ne_managedDomains _ hd.symm

/-- Another owner record leaves the tables as they are. -/
theorem ZoneKept.write (h : ZoneKept zone s) (content : Option Bytes) :
    ZoneKept zone (s.write (.value zone.zoneKey) content) := by
  refine h.of_read fun cell hvalue _ _ hnone => ?_
  have htakes : s.Takes (.value zone.zoneKey) := h.owner
  rw [read_write _ htakes, if_neg (hvalue zone)]
  exact hnone

/-- Clearing a zone removes, and fills nothing. -/
theorem Call.Clears.read_step {c : Call} (h : c.Clears zone) (s : MemoryStore) (cell : Cell) :
    (MemoryStore.step c s).2.read cell = s.read cell ∨
      (MemoryStore.step c s).2.read cell = none := by
  by_cases hunwritten : ¬ c.Writes cell
  · exact .inl (read_step_of_not_writes hunwritten s)
  have hw := Classical.not_not.1 hunwritten
  cases c with
  | hkeys key => exact absurd hw id
  | delete key =>
    have hkey : cell.key = key := hw
    rw [step_delete]
    simp only
    rw [read_put_none, if_pos hkey]
    exact .inr rfl
  | hdel key field =>
    by_cases ht : s.TakesFields key
    · have hcell : cell = .field key field := hw
      have htakes : s.Takes (.field key field) := ht
      rw [step_hdel ht]
      simp only
      rw [read_write _ htakes, if_pos hcell]
      exact .inr rfl
    · have hrefused : s.Refuses (.hdel key field) := ht
      rw [step_refused hrefused]
      exact .inl rfl
  | _ => exact absurd h id

/-- A store call of an operation on zones fills owner records, records and claims only. -/
theorem ZoneCall.read_step_of_unused {c : Call} {cell : Cell} (h : call.Makes name c)
    (howner : cell ≠ .value name.zoneKey) (hrecord : cell ≠ recordCell name)
    (hclaim : cell ≠ claimCell name) (hnone : s.read cell = none) :
    (MemoryStore.step c s).2.read cell = none := by
  by_cases hunwritten : ¬ c.Writes cell
  · rw [read_step_of_not_writes hunwritten]
    exact hnone
  have hw := Classical.not_not.1 hunwritten
  have hclears : c.Clears name → (MemoryStore.step c s).2.read cell = none := by
    intro hclears
    rcases hclears.read_step s cell with hsame | hgone
    · exact hsame.trans hnone
    · exact hgone
  have hlabel : ¬ call.OnLabel := by
    intro hlabel
    rcases cell_of_writes hlabel h hw with hcell | hcell
    · exact hrecord hcell
    · exact hclaim hcell
  cases call with
  | delegate user domain => exact hclears (h.resolve_left fun htries => howner (htries.writes hw))
  | revoke user domain => exact hclears (h.resolve_left fun htries => howner (htries.writes hw))
  | claim recordTtl user domain ips => exact absurd trivial hlabel
  | release recordTtl user domain ips => exact absurd trivial hlabel

/-- The tables of a zone stay of the right kind in every run. -/
theorem zoneKept_trace [DecidableEq ι] {calls : ι → ZoneCall} (h : ZoneKept zone s)
    (schedule : Nat → ι) (n : Nat) :
    ZoneKept zone ((zoneCrowd identity calls s).trace schedule n).store := by
  induction n with
  | zero => exact h
  | succ n ih =>
    refine ih.of_read fun cell howner hrecord hclaim hnone => ?_
    cases hc : ((zoneCrowd identity calls s).trace schedule n).pending (schedule n) with
    | none =>
      rw [Crowd.trace, Crowd.step]
      simp only [hc]
      exact hnone
    | some c =>
      obtain ⟨name, -, hmakes⟩ := makes_of_pending hc
      rw [Crowd.store_trace_succ hc]
      exact ZoneCall.read_step_of_unused hmakes (howner name) (hrecord name) (hclaim name) hnone

/-! ## Clearing a zone -/

namespace ZoneAuthority

/-- Clearing a zone does not touch the owner record. -/
theorem read_owner_of_clears {c : Call} (h : c.Clears zone) (s : MemoryStore) :
    (MemoryStore.step c s).2.read (.value zone.zoneKey) = s.read (.value zone.zoneKey) := by
  refine read_step_of_not_writes (fun hw => ?_) s
  rcases h.writes hw with hin | hcell
  · exact hin
  · rw [Cell.value.injEq] at hcell
    exact DomainName.fqdn_ne_zoneKey _ _ hcell.symm

theorem quiet_hkeys {key : String} (hkey : ∀ s, ZoneKept zone s → s.TakesFields key) :
    (hkeys key).Quiet (ZoneKept zone) (read (.value zone.zoneKey)) := by
  refine quiet_call (c := .hkeys key) fun s hs => ?_
  rw [step_hkeys (hkey s hs)]
  exact ⟨rfl, _, rfl⟩

theorem quiet_clearClaims (zone : DomainName) (texts : List String) :
    (clearClaims zone texts).Quiet (ZoneKept zone) (read (.value zone.zoneKey)) := by
  induction texts with
  | nil => exact quiet_pure ()
  | cons text texts ih =>
    rw [clearClaims_cons]
    by_cases hin : standsIn zone text = true
    · rw [if_pos hin]
      refine quiet_bind (quiet_discard (quiet_call (c := .hdel managedDomains text) fun s hs => ?_))
        fun _ => ih
      have hclears : (Call.hdel managedDomains text).Clears zone := ⟨rfl, hin⟩
      refine ⟨read_owner_of_clears hclears s, ?_⟩
      rw [step_hdel hs.claims]
      exact ⟨_, rfl⟩
    · rw [if_neg hin]
      exact ih

/-- **Clearing a zone** whose tables are of the right kind never fails, and leaves its owner alone. -/
theorem quiet_clearZone (zone : DomainName) :
    (clearZone zone).Quiet (ZoneKept zone) (read (.value zone.zoneKey)) := by
  unfold clearZone
  refine quiet_bind (quiet_hkeys fun s hs => hs.records) fun _ => ?_
  refine quiet_bind (quiet_call (c := .delete zone.fqdn) fun s _ => ?_) fun _ => ?_
  · have hclears : (Call.delete zone.fqdn).Clears zone := rfl
    exact ⟨read_owner_of_clears hclears s, _, rfl⟩
  · exact quiet_bind (quiet_hkeys fun s hs => hs.claims) fun texts => quiet_clearClaims zone texts

/-- Delegation and revocation are decided by the owner record alone. -/
theorem swapsAtOnce {verdict : Option Bytes → Verdict Unit} (h : Decides zone verdict) :
    SwapsAtOnce (ZoneKept zone) (read (.value zone.zoneKey)) zone.zoneKey verdict (clearZone zone)
      () where
  decides := h.answers
  write := fun s content hs _ => hs.write content
  finish_alone := by
    intro s hs
    obtain ⟨t, hrun, hcleared⟩ := alone_clearZone hs.records hs.claims
    rw [hrun]
    exact ⟨rfl, (hcleared _).trans (if_neg id)⟩
  finish_settled := by
    refine (quiet_clearZone zone).mono ?_
    rintro result ⟨⟨⟩, rfl⟩
    rfl

end ZoneAuthority

/-! ## The owner record as an object -/

namespace ZoneCall

/-- The call is a delegation or a revocation of the zone. -/
def ChangesOwner (call : ZoneCall) (zone : DomainName) : Prop :=
  match call with
  | delegate _ domain | revoke _ domain => DomainName.parse domain = .ok zone
  | claim _ _ _ _ | release _ _ _ _ => False

/-- A delegation or a revocation fails in its checks, or is a conditional change of the owner record. -/
theorem operation_of_changesOwner (identity : String) (h : call.ChangesOwner zone) :
    FailsAtOnce (call.operation identity) ∨
    ∃ verdict, call.operation identity =
        swapRounds zone.zoneKey verdict (ZoneAuthority.clearZone zone) claimAttempts ∧
      ZoneAuthority.Decides zone verdict := by
  cases call with
  | delegate user domain =>
    have hd : DomainName.parse domain = .ok zone := h
    show FailsAtOnce (ZoneAuthority.delegate user domain) ∨
      ∃ verdict, ZoneAuthority.delegate user domain = _ ∧ _
    unfold ZoneAuthority.delegate
    rcases ZoneAuthority.checked_cases user domain fun zone =>
      ZoneAuthority.delegateRounds user zone claimAttempts with ⟨e, he, hkind⟩ | ⟨-, name, hname, hop⟩
    · exact .inl ⟨e, he, by simp [hkind]⟩
    obtain rfl : name = zone := Except.ok.inj (hname.symm.trans hd)
    rw [hop, ZoneAuthority.delegateRounds_eq_swapRounds]
    exact .inr ⟨_, rfl, ZoneAuthority.decides_delegateVerdict user name⟩
  | revoke user domain =>
    have hd : DomainName.parse domain = .ok zone := h
    show FailsAtOnce (ZoneAuthority.revoke user domain) ∨
      ∃ verdict, ZoneAuthority.revoke user domain = _ ∧ _
    unfold ZoneAuthority.revoke
    rcases ZoneAuthority.checked_cases user domain fun zone =>
      ZoneAuthority.revokeRounds user zone claimAttempts with ⟨e, he, hkind⟩ | ⟨-, name, hname, hop⟩
    · exact .inl ⟨e, he, by simp [hkind]⟩
    obtain rfl : name = zone := Except.ok.inj (hname.symm.trans hd)
    rw [hop, ZoneAuthority.revokeRounds_eq_swapRounds]
    exact .inr ⟨_, rfl, ZoneAuthority.decides_revokeVerdict user name⟩
  | claim recordTtl user domain ips => exact absurd h id
  | release recordTtl user domain ips => exact absurd h id

end ZoneCall

/-- The owner record of a zone as an object: each delegation or revocation runs alone on a store that
holds nothing but the record. -/
def ownerObject (identity : String) (calls : ι → ZoneCall) (zone : DomainName) :
    SequentialObject ι (Except GatewayError Unit) (Option Bytes) where
  view := read (.value zone.zoneKey)
  Uses := fun i => (calls i).ChangesOwner zone
  run := fun i raw =>
    let (result, t) := alone ((calls i).operation identity)
      (MemoryStore.empty.write (.value zone.zoneKey) raw)
    (result, t.read (.value zone.zoneKey))
  GivesUp := fun _ => GaveUp zone.zoneKey

/-- Run alone, a conditional change of an owner record depends on the record alone. -/
theorem alone_swapRounds_congr (verdict : Option Bytes → Verdict Unit) (hs : ZoneKept zone s)
    (ht : ZoneKept zone t) (hsame : t.read (.value zone.zoneKey) = s.read (.value zone.zoneKey))
    (rounds : Nat) :
    let loop := swapRounds zone.zoneKey verdict (ZoneAuthority.clearZone zone) (rounds + 1)
    (alone loop t).1 = (alone loop s).1 ∧
      (alone loop t).2.read (.value zone.zoneKey) = (alone loop s).2.read (.value zone.zoneKey) := by
  intro loop
  rw [alone_swapRounds ht.owner, alone_swapRounds hs.owner, hsame]
  cases verdict (s.read (.value zone.zoneKey)) with
  | answer result => exact ⟨rfl, hsame⟩
  | replace content =>
    simp only
    obtain ⟨t', htrun, htcleared⟩ := ZoneAuthority.alone_clearZone (ht.write content).records
      (ht.write content).claims
    obtain ⟨s', hsrun, hscleared⟩ := ZoneAuthority.alone_clearZone (hs.write content).records
      (hs.write content).claims
    rw [htrun, hsrun]
    refine ⟨rfl, ?_⟩
    have hcell : ¬ (Cell.value zone.zoneKey).InZone zone := id
    have htakes : s.Takes (.value zone.zoneKey) := hs.owner
    have htakes' : t.Takes (.value zone.zoneKey) := ht.owner
    simp only
    rw [htcleared, hscleared, if_neg hcell, if_neg hcell, read_write _ htakes', read_write _ htakes,
      if_pos rfl, if_pos rfl]

/-- **The object says what every store says**: run alone on a store whose tables are of the right kind,
a delegation or a revocation answers as the object does, and leaves the owner record that it leaves. -/
theorem ownerObject_run (identity : String) (calls : ι → ZoneCall) {i : ι}
    (huses : (calls i).ChangesOwner zone) (ht : ZoneKept zone t) :
    (ownerObject identity calls zone).run i (t.read (.value zone.zoneKey)) =
      ((alone ((calls i).operation identity) t).1,
        (alone ((calls i).operation identity) t).2.read (.value zone.zoneKey)) := by
  have hempty := zoneKept_empty zone
  have htakes : MemoryStore.empty.Takes (.value zone.zoneKey) := hempty.owner
  have hread : (MemoryStore.empty.write (.value zone.zoneKey) (t.read (.value zone.zoneKey))).read
      (.value zone.zoneKey) = t.read (.value zone.zoneKey) := by
    rw [read_write _ htakes, if_pos rfl]
  unfold ownerObject
  simp only
  rcases ZoneCall.operation_of_changesOwner identity huses with ⟨e, hop, -⟩ | ⟨verdict, hop, -⟩
  · rw [hop]
    exact congrArg _ hread
  · rw [hop]
    obtain ⟨hresult, hafter⟩ := alone_swapRounds_congr verdict ht
      (hempty.write (t.read (.value zone.zoneKey))) hread 2
    exact Prod.ext hresult hafter

/-! ## Runs -/

variable {calls : ι → ZoneCall} {i : ι}

/-- A delegation or a revocation takes effect at one point. -/
theorem atomically_of_changesOwner (identity : String) (huses : (calls i).ChangesOwner zone) :
    ((zoneCrowd identity calls s).rest i).Atomically (ZoneKept zone) (read (.value zone.zoneKey))
      ((ownerObject identity calls zone).run i) (GaveUp zone.zoneKey) := by
  show ((calls i).operation identity).run.Atomically _ _ _ _
  have hrun := fun t (ht : ZoneKept zone t) => ownerObject_run identity calls huses ht
  rcases ZoneCall.operation_of_changesOwner identity huses with
    ⟨e, hop, hkind⟩ | ⟨verdict, hop, hdecides⟩
  · rw [hop] at hrun ⊢
    exact .inl ⟨.error e, rfl, not_gaveUp_of_kind hkind _, hrun⟩
  · rw [hop] at hrun ⊢
    exact .inr ((ZoneAuthority.swapsAtOnce hdecides).takesEffect hrun claimAttempts)

/-- A delegation or a revocation gives up only after it has seen the owner record change. -/
theorem starved_of_changesOwner (identity : String) (huses : (calls i).ChangesOwner zone)
    (v : Option Bytes) :
    ((zoneCrowd identity calls s).rest i).Starved (ZoneKept zone) (read (.value zone.zoneKey))
      (GaveUp zone.zoneKey) claimAttempts v := by
  show ((calls i).operation identity).run.Starved _ _ _ _ _
  rcases ZoneCall.operation_of_changesOwner identity huses with
    ⟨e, hop, hkind⟩ | ⟨verdict, hop, hdecides⟩
  · rw [hop]
    exact fun hgave => absurd hgave (not_gaveUp_of_kind hkind _)
  · rw [hop]
    exact (ZoneAuthority.swapsAtOnce hdecides).starved claimAttempts v

section Run

variable [DecidableEq ι] {schedule : Nat → ι} {n : Nat}

/-- All other calls leave the owner record alone. -/
theorem read_owner_trace_succ (hother : ¬ (calls (schedule n)).ChangesOwner zone) :
    ((zoneCrowd identity calls s).trace schedule (n + 1)).store.read (.value zone.zoneKey) =
      ((zoneCrowd identity calls s).trace schedule n).store.read (.value zone.zoneKey) := by
  apply Classical.byContradiction
  intro hchange
  obtain ⟨c, -, hwrites, name, hd, hmakes⟩ := exists_makes hchange
  obtain ⟨rfl, ⟨user, domain, hcall, -⟩ | ⟨user, domain, hcall, -⟩⟩ :=
    ZoneCall.triesOwner_of_writes hmakes hwrites
  · rw [hcall] at hd hother
    exact hother hd
  · rw [hcall] at hd hother
    exact hother hd

/-- **Zone ownership is linearizable.** In every run, the owner record of a zone evolves as if each
delegation and each revocation of the zone had run alone at one of its own turns, with the answer that
it gave. Who gave up has not changed the record, and has seen others change it as often as it tried.
Claims and releases never change an owner record. -/
theorem owner_linearizable (identity : String) (calls : ι → ZoneCall) (schedule : Nat → ι)
    (hs : ZoneKept zone s) :
    let crowd := zoneCrowd identity calls s
    let object := ownerObject identity calls zone
    crowd.Linearizable schedule object ∧
    (∀ i t, (calls i).ChangesOwner zone → ZoneKept zone t →
      object.run i (object.view t) = ((alone ((calls i).operation identity) t).1,
        object.view (alone ((calls i).operation identity) t).2)) ∧
    (∀ n i result, (calls i).ChangesOwner zone → crowd.Answered schedule n i result →
      ¬ GaveUp zone.zoneKey result → ∃ k, k < n ∧ crowd.EffectAt schedule object i result k) ∧
    (∀ n i result, (calls i).ChangesOwner zone → crowd.Answered schedule n i result →
      GaveUp zone.zoneKey result →
      (∀ k, k < n → schedule k = i → object.view (crowd.trace schedule (k + 1)).store =
        object.view (crowd.trace schedule k).store) ∧
      crowd.DisturbedOften schedule object.view n i claimAttempts) ∧
    (∀ n (other : DomainName), (calls (schedule n)).OnLabel →
      (crowd.trace schedule (n + 1)).store.read (.value other.zoneKey) =
        (crowd.trace schedule n).store.read (.value other.zoneKey)) := by
  intro crowd object
  have hinv : ∀ n, ZoneKept zone (crowd.trace schedule n).store := zoneKept_trace hs schedule
  have hlinear : crowd.Linearizable schedule object :=
    crowd.linearizable_of_atomically schedule object hinv (fun n => read_owner_trace_succ)
      fun i huses => atomically_of_changesOwner identity huses
  refine ⟨hlinear, ?_, ?_, ?_, ?_⟩
  · intro i t huses ht
    exact ownerObject_run identity calls huses ht
  · intro n i result huses hanswered hkept
    exact hlinear.exists_effect huses hanswered hkept
  · intro n i result huses hanswered hgave
    refine ⟨fun k hk hi => hlinear.unchanged huses hanswered hgave hk hi, ?_⟩
    exact Crowd.disturbedOften hinv (starved_of_changesOwner identity huses) hanswered hgave
  · intro n other hlabel
    refine read_owner_trace_succ fun hchanges => ?_
    cases hcall : calls (schedule n) with
    | delegate user domain =>
      rw [hcall] at hlabel
      exact hlabel
    | revoke user domain =>
      rw [hcall] at hlabel
      exact hlabel
    | claim recordTtl user domain ips =>
      rw [hcall] at hchanges
      exact hchanges
    | release recordTtl user domain ips =>
      rw [hcall] at hchanges
      exact hchanges

end Run

/-! ## A delegation that gives up -/

/-- One user asks for a zone that another user takes and leaves, again and again. -/
def contendedCalls : Fin 6 → ZoneCall :=
  List.get [.delegate "alice" "example.com", .delegate "bob" "example.com",
    .revoke "bob" "example.com", .delegate "bob" "example.com", .revoke "bob" "example.com",
    .delegate "bob" "example.com"]

/-- The zone is free whenever the first user looks, and taken when she tries. -/
def contendedSchedule (n : Nat) : Fin 6 :=
  [0, 1, 1, 0, 2, 2, 0, 3, 3, 0, 4, 4, 0, 5, 5, 0].getD n 0

/-- She gives up, and the owner record has changed three times in the meantime. -/
theorem owner_linearizable_when_contended :
    let zone := DomainName.sample.zone
    let crowd := zoneCrowd "gateway" contendedCalls .empty
    crowd.Answered contendedSchedule 16 0 (.error (.storage (.contended zone.zoneKey))) ∧
    crowd.Linearizable contendedSchedule (ownerObject "gateway" contendedCalls zone) ∧
    crowd.DisturbedOften contendedSchedule (read (.value zone.zoneKey)) 16 0 claimAttempts := by
  intro zone crowd
  have huses : (contendedCalls 0).ChangesOwner zone := DomainName.parse_sample_zone
  have hanswered : crowd.Answered contendedSchedule 16 0
      (.error (.storage (.contended zone.zoneKey))) := by
    refine ⟨⟨0, by decide, rfl⟩, ?_⟩
    subst crowd zone
    decide +kernel
  obtain ⟨hlinear, -, -, hgave, -⟩ :=
    owner_linearizable "gateway" contendedCalls contendedSchedule (zoneKept_empty zone)
  exact ⟨hanswered, hlinear, (hgave 16 0 _ huses hanswered rfl).2⟩

end GatewayControl
