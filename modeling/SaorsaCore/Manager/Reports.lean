import SaorsaCore.Manager.Notices
import SaorsaCore.Routing.Displacement

/-!
# Events as the difference of two tables

The engine assembles the events of a call by hand, from the evictions that it carried out
and from two snapshots of the closest peers.  They are the difference between the table
before and the table after: one event for each peer that entered or left, and one with
the two close groups if these differ.
-/

namespace SaorsaCore.Manager

open Routing List RoutingTableEvent EngineConfig

/-- The events are the difference between the table before and the table after. -/
structure Reports {Score : Type*} (config : EngineConfig Score) (before : RoutingTable)
    (result : RoutingTable × List RoutingTableEvent) : Prop where
  entered : ∀ peer, result.2.count (.peerAdded peer) =
    if members before peer = false ∧ members result.1 peer = true then 1 else 0
  left : ∀ peer, result.2.count (.peerRemoved peer) =
    if members before peer = true ∧ members result.1 peer = false then 1 else 0
  closest : result.2.filter isCloseGroupChange =
    if before.kClosestIds config.kValue = result.1.kClosestIds config.kValue then []
    else [.kClosestPeersChanged (before.kClosestIds config.kValue)
      (result.1.kClosestIds config.kValue)]

section Calls

variable {Score : Type*} {config : EngineConfig Score} {localId : PeerId} {k : ℕ}
  {before after table : RoutingTable} {removed added : List PeerId}

theorem count_mutationEvents {event : RoutingTableEvent}
    (hevent : isCloseGroupChange event = false) (changes : List RoutingTableEvent) :
    (config.mutationEvents before after changes).count event = changes.count event := by
  have hlast : count event (if before.kClosestIds config.kValue !=
      after.kClosestIds config.kValue then [kClosestPeersChanged
        (before.kClosestIds config.kValue) (after.kClosestIds config.kValue)] else []) =
      0 := by
    rw [count_eq_zero]
    intro hmem
    split at hmem
    · rw [mem_singleton.mp hmem] at hevent
      cases hevent
    · cases hmem
  rw [mutationEvents, count_append, hlast, Nat.add_zero]

/-- Lists of the peers that left and entered, without repetition, make the events the
difference. -/
theorem reports_mutationEvents (hremoved : removed.Nodup) (hadded : added.Nodup)
    (hleft : ∀ peer, peer ∈ removed ↔ members before peer = true ∧ members after peer = false)
    (hentered : ∀ peer, peer ∈ added ↔ members before peer = false ∧ members after peer = true) :
    Reports config before (after, config.mutationEvents before after
      (removed.map .peerRemoved ++ added.map .peerAdded)) where
  entered peer := by
    have hother : (removed.map peerRemoved).count (.peerAdded peer) = 0 := by
      simp [count_eq_zero]
    rw [count_mutationEvents rfl, count_append, hother, Nat.zero_add,
      count_map_of_injective added _ (fun _ _ => peerAdded.inj),
      hadded.count]
    simp only [hentered peer]
  left peer := by
    have hother : (added.map peerAdded).count (.peerRemoved peer) = 0 := by
      simp [count_eq_zero]
    rw [count_mutationEvents rfl, count_append, hother, Nat.add_zero,
      count_map_of_injective removed _ (fun _ _ => peerRemoved.inj),
      hremoved.count]
    simp only [hleft peer]
  closest := by
    have hchanges : (removed.map peerRemoved ++
        added.map peerAdded).filter isCloseGroupChange = [] := by
      simp [isCloseGroupChange]
    rw [mutationEvents, filter_append, hchanges, nil_append]
    by_cases hsame : before.kClosestIds config.kValue = after.kClosestIds config.kValue
    · simp [hsame]
    · simp [hsame, isCloseGroupChange]

theorem reports_touched (hbefore : before.Valid localId k) (hafter : after.Valid localId k)
    (hmembers : members after = members before) : Reports config before (after, []) := by
  have hevents : config.mutationEvents before after
      (([] : List PeerId).map .peerRemoved ++ ([] : List PeerId).map .peerAdded) = [] := by
    simp [mutationEvents, kClosestIds_eq_of_members_eq hbefore hafter hmembers config.kValue]
  rw [← hevents]
  apply reports_mutationEvents nodup_nil nodup_nil
  all_goals
    intro peer
    rw [hmembers]
    simp

theorem reports_removeNodeById (table : RoutingTable) (peer : PeerId) :
    Reports config table (config.removeNodeById table peer) := by
  have hmembers : ∀ other, members (config.removeNodeById table peer).1 other =
      (decide (other ≠ peer) && members table other) := members_removeNodeById table peer
  rw [removeNodeById] at hmembers ⊢
  split at hmembers
  · next habsent =>
      rw [if_pos habsent]
      constructor <;> simp
  · next hpresent =>
      have hmember : members table peer = true := by
        simpa [members, Option.isSome_iff_ne_none] using hpresent
      rw [if_neg hpresent]
      apply reports_mutationEvents (nodup_singleton peer) (nodup_nil (α := PeerId))
      · intro other
        rw [hmembers other, mem_singleton]
        by_cases hother : other = peer
        · simp [hother, hmember]
        · simp [hother]
      · intro other
        rw [hmembers other]
        cases members table other <;> simp

theorem reports_executeAdmission {node : NodeInfo} {swaps : List PeerId} {now : ℕ}
    {events : List RoutingTableEvent} (hvalid : table.Valid localId k)
    (habsent : table.findNodeById node.id = none)
    (hswaps : ∀ peer ∈ swaps, members table peer = true)
    (hresult : config.executeAdmission table node swaps now =
      (after, .ok (.admitted events))) : Reports config table (after, events) := by
  have hevicts := executeSwaps_evicts hvalid swaps
  have hreplaces :=
    executeAdmission_replaces hvalid habsent (congrArg Prod.snd hresult)
  rw [hresult] at hreplaces
  have hmembers (peer : PeerId) : members after peer = true ↔
      (members table peer = true ∧ peer ∉ swaps) ∨ peer = node.id := by
    rw [← mem_ids_iff_members hreplaces.valid, ← mem_ids_iff_members hvalid]
    simp only [mem_map, hreplaces.mem_allNodes_iff]
    grind [KBucket.id_insertedNode]
  have hout : members table node.id = false := by
    rw [members, habsent, Option.isSome_none]
  simp only [executeAdmission] at hresult
  split at hresult
  · cases hresult
  · cases hresult
    apply reports_mutationEvents hevicts.nodup_executed (nodup_singleton node.id)
    · intro peer
      rw [hevicts.mem_executed, ← Bool.not_eq_true (members _ peer), hmembers]
      grind
    · intro peer
      rw [mem_singleton, hmembers]
      grind

variable [LinearOrder Score] {observation : EngineConfig.Observation Score}

theorem reports_admitted {node : NodeInfo} {events : List RoutingTableEvent}
    (hvalid : table.Valid localId k)
    (hadmitted : config.Admitted observation table node after events) :
    Reports config table (after, events) := by
  cases hadmitted with
  | touched keeps =>
    have hkept : after.Valid localId k ∧ members after = members table := by
      apply keeps fun touched => touched.Valid localId k ∧ members touched = members table
      · rintro touched address addressType now ⟨htouched, hmembers⟩
        exact ⟨htouched.touchNode node.id address addressType now,
          (touchNode_members htouched node.id address addressType now).trans hmembers⟩
      · exact ⟨hvalid, rfl⟩
    exact reports_touched hvalid hkept.1 hkept.2
  | entered swaps absent displaces result =>
    apply reports_executeAdmission hvalid absent _ result
    intro peer hpeer
    obtain ⟨other, hother, rfl, -⟩ := displaces peer hpeer
    rw [members, hvalid.findNodeById_of_mem hother, Option.isSome_some]

end Calls

/-- The events of an admission and of a removal, on every table that the engine can reach,
are the difference between the table before and the table after. -/
theorem run_events_report {Score : Type*} [LinearOrder Score] (codec : AddressCodec)
    (config : EngineConfig Score) {localId : PeerId} {k now : ℕ}
    {ops : List (RoutingOp Score)} {table : RoutingTable}
    (hrun : (RoutingTable.new localId k now).run codec config ops = table) :
    (∀ observation order incoming after events,
      config.addNode observation order table incoming = (after, .ok (.admitted events)) →
      Reports config table (after, events)) ∧
    ∀ peer, Reports config table (config.removeNodeById table peer) := by
  have hvalid : table.Valid localId k := by
    rw [← hrun]
    exact RoutingTable.run_valid codec config ops (RoutingTable.Valid.new localId k now)
  constructor
  · intro observation order incoming after events hadmitted
    exact reports_admitted hvalid (addNode_admitted hvalid hadmitted)
  · exact reports_removeNodeById table

/-! Peer `11` takes the slot of peer `8` in a full bucket, so that both and the close group
are in the events; the events of a removal of peer `8` before that report it as well. -/

section Example

private def swapped : RoutingTable × Except RoutingError AdmissionResult :=
  (EngineConfig.withDefaults 4).addNode doubts (HashOrder.insertion _) fullBucket
    (exampleNode 11 [0xcb007501])

theorem fullBucket_events_report :
    Reports (EngineConfig.withDefaults 4) fullBucket
        (swapped.1, [.peerRemoved 8, .peerAdded 11,
          .kClosestPeersChanged [8, 9, 10, 12] [9, 10, 11, 12]]) ∧
      Reports (EngineConfig.withDefaults 4) fullBucket
        ((EngineConfig.withDefaults 4).removeNodeById fullBucket 8) := by
  have hswapped : swapped.2 = .ok (.admitted [.peerRemoved 8, .peerAdded 11,
      .kClosestPeersChanged [8, 9, 10, 12] [9, 10, 11, 12]]) := by
    decide +kernel
  have hreport := run_events_report { decode := fun _ => none } _ fullBucket_eq_run
  exact ⟨hreport.1 _ _ _ _ _ (Prod.ext rfl hswapped), hreport.2 8⟩

end Example

end SaorsaCore.Manager
