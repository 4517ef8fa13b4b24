import GatewayControl.Proofs.Authority.Idempotence
import GatewayControl.Proofs.Authority.ZoneTree
import GatewayControl.Proofs.Dns.Unmanaged

/-!
# `GatewayControl.Proofs.Authority.Unmanaged` -- what claims and releases leave alone

The field of a label may hold what no user of the gateway has put there: mail records, aliases, addresses
added by hand. A claim or a release reads all of it, changes the records for its own addresses and
writes the rest back, or writes nothing, or, as a release that finds nothing else left, removes the field
(`ZoneCall.Leaves`, `ZoneCall.leaves_operation`). So it goes through any run of them, as the set that was
written is the set that the next call reads (`unmanaged_records_kept`).
-/

namespace GatewayControl

open Operation MemoryStore

variable {s t : MemoryStore} {name : DomainName} {user domain : String} {ips : List Ip} {set : RecordSet}

namespace ZoneCall

/-- The addresses of a call. -/
def addresses : ZoneCall → List Ip
  | delegate _ _ | revoke _ _ => []
  | claim _ _ _ ips | release _ _ _ ips => ips

/-- The call is a release, which takes its addresses out of the first set and leaves the second. -/
def TakesOut (call : ZoneCall) (set left : RecordSet) : Prop :=
  match call with
  | release recordTtl _ _ ips => left = (set.removeAll (ips.map (Record.ofIp recordTtl))).2
  | _ => False

/-- What a call on a label does to the records of its name, `set`: it does not write them, writes them back
with other records for its own addresses, or takes these out and with the last record removes the field. -/
inductive Leaves (call : ZoneCall) (name : DomainName) (set : RecordSet) (s t : MemoryStore) : Prop
  | unchanged (hread : t.read (recordCell name) = s.read (recordCell name))
  | written (now : RecordSet) (hsame : set.SameBut call.addresses now)
      (hread : t.read (recordCell name) = some now.encode)
  | removed (left : RecordSet) (hrelease : call.TakesOut set left) (hempty : left.isEmpty = true)
      (hread : t.read (recordCell name) = none)

end ZoneCall

/-! ## One call -/

namespace ZoneAuthority

variable (auth : ZoneAuthority)

/-- Adding records writes the set back with other records for the addresses, or does not write. -/
theorem leaves_addRecords (user domain : String) (ips : List Ip) (hset : s.labelRecords name = some set) :
    (ZoneCall.claim auth.recordTtl user domain ips).Leaves name set s
      (alone (auth.addRecords name ips) s).2 := by
  rw [alone_addRecords]
  rcases alone_readRecords_cases name s with ⟨found, ht, hfound, hrun⟩ | ⟨e, hrun⟩ <;> rw [hrun]
  · rw [hset] at hfound
    cases hfound
    dsimp only
    split
    · have htakes : s.Takes (recordCell name) := ht
      refine .written _ (RecordSet.sameBut_addAll set auth.recordTtl (List.Subset.refl ips)) ?_
      exact (read_write _ htakes _ _).trans (if_pos rfl)
    · exact .unchanged rfl
  · exact .unchanged rfl

theorem leaves_claimSelfManaged (user domain : String) (ips : List Ip)
    (hset : s.labelRecords name = some set) :
    (ZoneCall.claim auth.recordTtl user domain ips).Leaves name set s
      (alone (auth.claimSelfManaged user name ips) s).2 := by
  rw [alone_claimSelfManaged]
  rcases alone_claimant_cases name s with ⟨other, ht, -, hrun⟩ | ⟨e, hrun⟩ <;> rw [hrun]
  · by_cases hother : other = ""
    · rw [if_pos hother]
      dsimp only
      split
      · rcases alone_readRecords_cases name s with ⟨found, -, -, hreads⟩ | ⟨e, hreads⟩ <;> rw [hreads]
        · -- the claim that is written first does not touch the records
          have htakes : s.Takes (claimCell name) := ht
          have hread : (s.write (claimCell name) (some (Bytes.ofText user))).read (recordCell name) =
              s.read (recordCell name) :=
            (read_write _ htakes _ _).trans (if_neg (recordCell_ne_claimCell name name))
          cases leaves_addRecords auth user domain ips ((labelRecords_congr hread).trans hset) with
          | unchanged h => exact .unchanged (h.trans hread)
          | written now hsame h => exact .written now hsame h
          | removed left hrelease => exact absurd hrelease id
        · exact .unchanged rfl
      · exact .unchanged rfl
    · rw [if_neg hother]
      dsimp only
      split
      · exact leaves_addRecords auth user domain ips hset
      · exact .unchanged rfl
  · exact .unchanged rfl

/-- Removing them writes back the rest, and takes the field away if nothing is left. -/
theorem leaves_withdraw (user domain : String) (ips : List Ip) {selfManaged : Bool}
    (hm : selfManaged = true → s.TakesFields managedDomains) (hset : s.labelRecords name = some set) :
    (ZoneCall.release auth.recordTtl user domain ips).Leaves name set s
      (alone (auth.withdraw selfManaged name ips) s).2 := by
  rw [alone_withdraw auth hm]
  rcases alone_readRecords_cases name s with ⟨found, ht, hfound, hrun⟩ | ⟨e, hrun⟩ <;> rw [hrun]
  · rw [hset] at hfound
    cases hfound
    dsimp only
    split
    · next hempty =>
      exact .removed _ rfl hempty ((read_withdrawn name ht hm _).trans (if_pos (.inl rfl)))
    split
    · have htakes : s.Takes (recordCell name) := ht
      refine .written _ (RecordSet.sameBut_removeAll set auth.recordTtl (List.Subset.refl ips)) ?_
      exact (read_write _ htakes _ _).trans (if_pos rfl)
    · exact .unchanged rfl
  · exact .unchanged rfl

theorem leaves_claim (hu : user ≠ "") (hd : DomainName.parse domain = .ok name)
    (hset : s.labelRecords name = some set) :
    (ZoneCall.claim auth.recordTtl user domain ips).Leaves name set s
      (alone (auth.claim user domain ips) s).2 := by
  by_cases hips : ips = []
  · unfold ZoneAuthority.claim
    rw [checked_eq hu hd, if_pos hips]
    exact .unchanged rfl
  rw [alone_claim auth hu hd hips]
  rcases alone_readOwner_cases name.zone s with ⟨owner, -, -, hrun⟩ | ⟨e, hrun⟩ <;> rw [hrun]
  · dsimp only
    split
    · exact .unchanged rfl
    split
    · exact leaves_claimSelfManaged auth user domain ips hset
    split
    · exact leaves_addRecords auth user domain ips hset
    · exact .unchanged rfl
  · exact .unchanged rfl

theorem leaves_release (hu : user ≠ "") (hd : DomainName.parse domain = .ok name)
    (hset : s.labelRecords name = some set) :
    (ZoneCall.release auth.recordTtl user domain ips).Leaves name set s
      (alone (auth.release user domain ips) s).2 := by
  rw [alone_release auth hu hd]
  rcases alone_readOwner_cases name.zone s with ⟨owner, -, -, hrun⟩ | ⟨e, hrun⟩ <;> rw [hrun]
  · dsimp only
    split
    · exact .unchanged rfl
    split
    · rcases alone_claimant_cases name s with ⟨other, ht, -, hclaim⟩ | ⟨e, hclaim⟩ <;> rw [hclaim]
      · by_cases hother : other = ""
        · rw [if_pos hother]
          exact leaves_withdraw auth user domain ips (fun _ => ht) hset
        · rw [if_neg hother]
          dsimp only
          split
          · exact leaves_withdraw auth user domain ips (fun _ => ht) hset
          · exact .unchanged rfl
      · exact .unchanged rfl
    split
    · exact leaves_withdraw auth user domain ips (fun hself => absurd hself Bool.false_ne_true) hset
    · exact .unchanged rfl
  · exact .unchanged rfl

end ZoneAuthority

/-- **One call** on a label keeps all records but those for its addresses. -/
theorem ZoneCall.leaves_operation (identity : String) {call : ZoneCall} (hlabel : call.OnLabel)
    (hd : DomainName.parse call.domain = .ok name) (hset : s.labelRecords name = some set) :
    call.Leaves name set s (alone (call.operation identity) s).2 := by
  by_cases hu : call.user = ""
  · rw [alone_operation_of_invalid (.inl hu)]
    exact .unchanged rfl
  cases call with
  | delegate user domain | revoke user domain => exact absurd hlabel id
  | claim recordTtl user domain ips =>
    exact ZoneAuthority.leaves_claim ⟨identity, recordTtl⟩ hu hd hset
  | release recordTtl user domain ips =>
    exact ZoneAuthority.leaves_release ⟨identity, recordTtl⟩ hu hd hset

/-! ## Runs -/

/-- The store after calls that run one after another, each at a gateway of its own identity. -/
def runAt (calls : List (String × ZoneCall)) (s : MemoryStore) : MemoryStore :=
  calls.foldl (fun s call => (alone (call.2.operation call.1) s).2) s

/-- All addresses of some calls. -/
def usedBy (calls : List (String × ZoneCall)) : List Ip := calls.flatMap fun call => call.2.addresses

theorem runAt_append (calls more : List (String × ZoneCall)) (s : MemoryStore) :
    runAt (calls ++ more) s = runAt more (runAt calls s) := List.foldl_append

theorem usedBy_append (calls more : List (String × ZoneCall)) :
    usedBy (calls ++ more) = usedBy calls ++ usedBy more := List.flatMap_append

/-- The stored records of a name differ from `set` in the records for the addresses alone. -/
def MemoryStore.Keeps (name : DomainName) (set : RecordSet) (ips : List Ip) (s : MemoryStore) : Prop :=
  ∃ bytes now, s.read (recordCell name) = some bytes ∧ RecordSet.decode? bytes = some now ∧
    set.SameBut ips now

/-- What a call writes is read again, as nothing in it is a floating-point number. -/
theorem MemoryStore.Keeps.call {call : ZoneCall} (h : s.Keeps name set ips)
    (hfree : Json.Value.FloatFreeMembers set.foreign) (identity : String) (hlabel : call.OnLabel)
    (hd : DomainName.parse call.domain = .ok name) :
    (alone (call.operation identity) s).2.Keeps name set (ips ++ call.addresses) ∨
      (alone (call.operation identity) s).2.read (recordCell name) = none ∧
        ∃ before left, s.labelRecords name = some before ∧ call.TakesOut before left ∧
          left.isEmpty = true := by
  obtain ⟨bytes, now, hread, hnow, hsame⟩ := h
  have hrecords : s.labelRecords name = some now := (labelRecords_of_read hread).trans hnow
  have hmore : set.SameBut (ips ++ call.addresses) now :=
    hsame.mono (List.subset_append_left ips call.addresses)
  cases ZoneCall.leaves_operation identity hlabel hd hrecords with
  | unchanged h => exact .inl ⟨bytes, now, h.trans hread, hnow, hmore⟩
  | written later hlater h =>
    have hlater : set.SameBut (ips ++ call.addresses) later :=
      hmore.trans (hlater.mono (List.subset_append_right ips call.addresses))
    have hkept : RecordSet.Kept later.foreign := by
      rw [hlater.foreign, ← hsame.foreign]
      exact kept_of_labelRecords hrecords
    refine .inl ⟨_, later, h, RecordSet.decode?_encode_of_kept hkept ?_, hlater⟩
    rw [hlater.foreign]
    exact hfree
  | removed left hrelease hempty h => exact .inr ⟨h, now, left, hrecords, hrelease, hempty⟩

/-- As long as no call removes the field, all records are kept but those for the addresses of the calls. -/
theorem MemoryStore.Keeps.run {calls : List (String × ZoneCall)} (h : s.Keeps name set ips)
    (hfree : Json.Value.FloatFreeMembers set.foreign)
    (hcalls : ∀ call ∈ calls, call.2.OnLabel ∧ DomainName.parse call.2.domain = .ok name)
    (hfield : ∀ done, done <+: calls → (runAt done s).read (recordCell name) ≠ none) :
    (runAt calls s).Keeps name set (ips ++ usedBy calls) := by
  induction calls generalizing s ips with
  | nil =>
    rw [usedBy, List.flatMap_nil, List.append_nil]
    exact h
  | cons call rest ih =>
    obtain ⟨⟨hlabel, hd⟩, hrest⟩ := List.forall_mem_cons.1 hcalls
    rcases h.call hfree call.1 hlabel hd with hkeeps | ⟨hgone, -⟩
    · have hlater := ih hkeeps hrest fun done hdone => hfield (call :: done)
        (List.cons_prefix_cons.2 ⟨rfl, hdone⟩)
      rw [List.append_assoc] at hlater
      exact hlater
    · exact absurd hgone (hfield [call] (List.cons_prefix_cons.2 ⟨rfl, List.nil_prefix⟩))

/-- **Claims and releases never touch what they do not manage.** Let the field of a name hold any bytes that
decode to a set of records without floating-point numbers in other types. Then, up to the first one that
removes the field, claims and releases of the name by any users keep it decodable, and in it the values
of all other types, all aliases and texts, and all addresses that none of them names, in their order and
with their times to live. A call that removes the field is a release, and leaves no record of any type and
no value of another type but nulls and empty lists. -/
theorem unmanaged_records_kept {bytes : Bytes} (calls : List (String × ZoneCall))
    (last : String × ZoneCall) (hread : s.read (recordCell name) = some bytes)
    (hset : RecordSet.decode? bytes = some set) (hfree : Json.Value.FloatFreeMembers set.foreign)
    (hcalls : ∀ call ∈ calls ++ [last], call.2.OnLabel ∧ DomainName.parse call.2.domain = .ok name)
    (hfield : ∀ done, done <+: calls → (runAt done s).read (recordCell name) ≠ none) :
    match (runAt (calls ++ [last]) s).read (recordCell name) with
    | some bytes => ∃ now, RecordSet.decode? bytes = some now ∧ set.SameBut (usedBy (calls ++ [last])) now
    | none => ∃ before left, (runAt calls s).labelRecords name = some before ∧ last.2.TakesOut before left ∧
        left.a = [] ∧ left.aaaa = [] ∧ left.cname = [] ∧ left.txt = [] ∧
        ∀ p ∈ left.foreign, p.2 = .null ∨ p.2 = .array [] := by
  obtain ⟨hbefore, hlast⟩ := List.forall_mem_append.1 hcalls
  obtain ⟨hlabel, hd⟩ := hlast last (List.mem_singleton.2 rfl)
  have hstart : s.Keeps name set [] := ⟨bytes, set, hread, hset, .refl [] set⟩
  have hkeeps := hstart.run hfree hbefore hfield
  rw [runAt_append, usedBy_append]
  rcases hkeeps.call hfree last.1 hlabel hd with ⟨bytes, now, hnow, hdecode, hsame⟩ |
    ⟨hgone, before, left, hrecords, hrelease, hempty⟩
  · have hafter : (runAt [last] (runAt calls s)).read (recordCell name) = some bytes := hnow
    rw [hafter]
    have hused : usedBy [last] = last.2.addresses := List.append_nil _
    rw [hused]
    exact ⟨now, hdecode, hsame⟩
  · have hafter : (runAt [last] (runAt calls s)).read (recordCell name) = none := hgone
    rw [hafter]
    exact ⟨before, left, hrecords, hrelease, RecordSet.isEmpty_eq_true.1 hempty⟩

/-- A mail record, a text and an address that stands there twice, next to a claim and a release of
another address. -/
theorem unmanaged_records_kept_mail :
    let name := DomainName.sample
    let stored := Bytes.ofText ("\x7b\"mx\":[10],\"txt\":[\x7b\"text\":\"v=1\",\"ttl\":30\x7d]," ++
      "\"a\":[\x7b\"ip\":\"10.1.1.1\",\"ttl\":60\x7d,\x7b\"ip\":\"10.1.1.1\",\"ttl\":7\x7d]\x7d")
    let set : RecordSet := ⟨[⟨⟨10, 1, 1, 1⟩, 60⟩, ⟨⟨10, 1, 1, 1⟩, 7⟩], [], [], [⟨"v=1", 30⟩],
      [("mx", .array [.number (.int 10)])]⟩
    let s := (alone (ZoneAuthority.delegate "alice" "example.com") MemoryStore.empty).2.write
      (recordCell name) (some stored)
    let calls : List (String × ZoneCall) :=
      [("gateway", .claim 300 "alice" name.text [.v4 ⟨10, 0, 0, 1⟩]),
        ("gateway", .release 60 "alice" name.text [.v4 ⟨10, 0, 0, 1⟩])]
    ∃ bytes now, (runAt calls s).read (recordCell name) = some bytes ∧ RecordSet.decode? bytes = some now ∧
      set.SameBut (usedBy calls) now := by
  intro name stored set s calls
  have hread : s.read (recordCell name) = some stored := by
    subst name stored s
    decide +kernel
  have hset : RecordSet.decode? stored = some set := rfl
  have hfree : Json.Value.FloatFreeMembers set.foreign := ⟨⟨trivial, trivial⟩, trivial⟩
  have hcalls : ∀ call ∈ calls, call.2.OnLabel ∧ DomainName.parse call.2.domain = .ok name := by
    intro call hcall
    rcases List.mem_pair.1 hcall with rfl | rfl <;> exact ⟨trivial, DomainName.parse_text name⟩
  have hfield : ∀ done, done <+: calls.take 1 → (runAt done s).read (recordCell name) ≠ none := by
    have hinits : ∀ done ∈ (calls.take 1).inits, (runAt done s).read (recordCell name) ≠ none := by
      subst name stored s calls
      decide +kernel
    exact fun done hdone => hinits done ((List.mem_inits _ _).2 hdone)
  have hkept := unmanaged_records_kept (calls.take 1) calls[1] hread hset hfree hcalls hfield
  have hstays : (runAt calls s).read (recordCell name) ≠ none := by
    subst name stored s calls
    decide +kernel
  cases hafter : (runAt calls s).read (recordCell name) with
  | none => exact absurd hafter hstays
  | some bytes =>
    have hsplit : calls.take 1 ++ [calls[1]] = calls := rfl
    rw [hsplit, hafter] at hkept
    obtain ⟨now, hnow, hsame⟩ := hkept
    exact ⟨bytes, now, rfl, hnow, hsame⟩

end GatewayControl
