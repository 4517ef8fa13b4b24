import GatewayControl.Proofs.Authority.Independence
import GatewayControl.Proofs.Authority.ZoneRefinement

/-!
# `GatewayControl.Proofs.Authority.History` -- what complete calls of all kinds leave

Calls about zones look at no entry of a route, and calls about routes change nothing else: that is what
their footprints say. So a history of complete calls leaves the store that its calls about zones would have
left without the others, but for the entries (`SameButRoutes`), and what the coherence of that store says of
records and claims goes for both (`labelsInOrder_history`).
-/

namespace GatewayControl

open Operation MemoryStore

/-- The store that complete calls of a gateway make of the empty one, one after another. -/
def historyStore (identity : String) (history : List DomainCall) : MemoryStore :=
  history.foldl (fun s call => (alone (call.operation identity) s).2) .empty

/-- The stores differ in the entries of routes alone. -/
def SameButRoutes (s t : MemoryStore) : Prop :=
  ∀ cell : Cell, (∀ name : DomainName, cell ≠ .value name.routingKey) → s.read cell = t.read cell

/-- The records and the claims of all labels can be read, and those that have claims are those of the
gateway that have records. -/
structure LabelsInOrder (identity : String) (s : MemoryStore) : Prop where
  takesFields_claims : s.TakesFields managedDomains
  takesFields_records : ∀ zone : DomainName, s.TakesFields zone.fqdn
  records : ∀ name, ∃ set : RecordSet, set.IsAddressSet ∧ s.read (recordCell name) = set.stored
  claims : ∀ name, s.read (claimCell name) = none ∨
    ∃ user, user ≠ "" ∧ s.read (claimCell name) = some (Bytes.ofText user)
  claimed : ∀ name, s.read (claimCell name) ≠ none ↔
    s.ownerOf name.zone = some identity ∧ s.read (recordCell name) ≠ none

variable {identity : String} {s t : MemoryStore} {name : DomainName}

/-- A set that is stored is read back. -/
theorem RecordSet.IsAddressSet.recordsFound_stored {set : RecordSet} (h : set.IsAddressSet) :
    recordsFound set.stored = .ok set := by
  unfold RecordSet.stored
  split
  · next hempty =>
    rw [h.eq_empty hempty]
    rfl
  · simp only [recordsFound, RecordSet.decode?_encode h.foreign]

/-! ## Calls -/

namespace SameButRoutes

/-- Calls about zones do the same whatever the entries are. -/
theorem ofZone (h : SameButRoutes s t) (call : ZoneCall) :
    SameButRoutes (alone (call.operation identity) s).2 (alone (call.operation identity) t).2 := by
  rcases call.within_operation identity with ⟨e, he⟩ | ⟨name, -, hwithin⟩
  · rw [he]
    exact h
  -- the call covers no entry
  have hcovers : ∀ cell, (call.footprintAt name).Covers cell →
      ∀ route : DomainName, cell ≠ .value route.routingKey := by
    rintro cell hcell route rfl
    rcases call.footprintAt_cases name with ⟨-, -, hf⟩ | ⟨-, -, hf⟩ <;> rw [hf] at hcell
    · exact (Footprint.apart_label_route name route).right _ rfl hcell
    · exact (Footprint.apart_zone_route name route).right _ rfl hcell
  obtain ⟨-, hagree⟩ := hwithin.congr s t fun cell hcell => h cell (hcovers cell hcell)
  intro cell hroutes
  by_cases hcell : (call.footprintAt name).changes cell
  · exact hagree cell (.inr hcell)
  · rw [hwithin.frame s cell hcell, hwithin.frame t cell hcell]
    exact h cell hroutes

/-- Calls about routes change nothing but entries. -/
theorem ofRoute (h : SameButRoutes s t) (call : RouteCall) :
    SameButRoutes (alone call.operation s).2 t := by
  rcases call.within_operation with ⟨e, he⟩ | ⟨name, -, hwithin⟩
  · rw [he]
    exact h
  intro cell hroutes
  rw [hwithin.frame s cell fun hcell => hroutes name hcell]
  exact h cell hroutes

/-- What is read of zones, records and claims is the same. -/
theorem ownerOf (h : SameButRoutes s t) (zone : DomainName) : s.ownerOf zone = t.ownerOf zone :=
  ownerOf_congr <| h _ fun route heq => DomainName.zoneKey_ne_routingKey zone route (Cell.value.inj heq)

theorem read_field (h : SameButRoutes s t) (key field : String) :
    s.read (.field key field) = t.read (.field key field) :=
  h _ fun _ heq => by cases heq

theorem takesFields (h : SameButRoutes s t) {key : String} (hkey : ∀ route : DomainName, key ≠ route.routingKey)
    (ht : t.TakesFields key) : s.TakesFields key :=
  (h _ fun route heq => hkey route (Cell.value.inj heq)).trans ht

/-- What a coherent store says of labels goes for every store that differs in entries alone. -/
theorem labelsInOrder (h : SameButRoutes s t) (ht : Coherent identity t) : LabelsInOrder identity s where
  takesFields_claims :=
    h.takesFields (fun route heq => DomainName.routingKey_ne_managedDomains route heq.symm)
      ht.takesFields_claims
  takesFields_records := fun zone =>
    h.takesFields (DomainName.fqdn_ne_routingKey zone) (ht.takesFields_fqdn zone)
  records := by
    intro name
    obtain ⟨set, hset, -, hread⟩ := ht.labelRecords_cases name
    refine ⟨set, hset, ?_⟩
    rw [recordCell, h.read_field, ← recordCell, RecordSet.stored]
    rcases hread with ⟨hread, rfl⟩ | ⟨hread, hempty⟩
    · exact hread
    · rw [hread, hempty]
      rfl
  claims := by
    intro name
    rw [claimCell, h.read_field]
    exact ht.claim_cases name
  claimed := by
    intro name
    rw [claimCell, h.read_field, recordCell, h.read_field, h.ownerOf]
    exact ht.claimed name

end SameButRoutes

/-! ## Histories -/

/-- **Labels are in order** after every history of complete calls. -/
theorem labelsInOrder_history (identity : String) (history : List DomainCall) :
    LabelsInOrder identity (historyStore identity history) := by
  have hsame : ∀ s t, Coherent identity t → SameButRoutes s t → ∃ u, Coherent identity u ∧
      SameButRoutes (history.foldl (fun s call => (alone (call.operation identity) s).2) s) u := by
    induction history with
    | nil => exact fun s t ht hst => ⟨t, ht, hst⟩
    | cons call history ih =>
      intro s t ht hst
      cases call with
      | ofZone call => exact ih _ _ (ht.call call) (hst.ofZone call)
      | ofRoute call => exact ih _ _ ht (hst.ofRoute call)
  obtain ⟨t, ht, hst⟩ := hsame .empty .empty (coherent_empty identity) fun _ _ => rfl
  exact hst.labelsInOrder ht

end GatewayControl
