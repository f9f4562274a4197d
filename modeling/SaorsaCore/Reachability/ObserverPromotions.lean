import SaorsaCore.Reachability.ObserverThreads

/-!
# Promotions are published once

A handler learns of a promotion when its observer makes an address reach the threshold,
and publishes it when it has done its work.  The promotions that are published and those
that handlers have in hand add up to one for every address that has reached the
threshold.
-/

namespace SaorsaCore.Reachability

open List MapWrite Handler

section Promotions

variable {normalize : SocketAddr → SocketAddr} {state : ProofState} {write : MapWrite}

/-- How often the promotion of the address was published. -/
def promotions (ext : SocketAddr) (state : ProofState) : ℕ :=
  state.emitted.count (.directAddressPromoted ext)

/-- How often it should be. -/
def promotionLevel (ext : SocketAddr) (state : ProofState) : ℕ :=
  if minDistinctObserversForDirect ≤ (state.provenExternals ext).length then 1 else 0

/-- How many promotions of the address the handler has in hand. -/
def Handler.carriedPromotions (ext : SocketAddr) : Handler → ℕ
  | connect _ _ _ (.credit _ _ promoted) => promoted.count ext
  | connect _ _ _ (.publish events) => events.count (.directAddressPromoted ext)
  | report _ _ (.publish events) => events.count (.directAddressPromoted ext)
  | pin _ _ (.visit _ promoted) => promoted.count ext
  | pin _ _ (.inspect _ _ promoted) => promoted.count ext
  | pin _ _ (.credit _ _ promoted) => promoted.count ext
  | pin _ _ (.publish events) => events.count (.directAddressPromoted ext)
  | _ => 0

theorem count_map_directAddressPromoted (promoted : List SocketAddr) (ext : SocketAddr) :
    (promoted.map AddressEvent.directAddressPromoted).count (.directAddressPromoted ext)
      = promoted.count ext := by
  apply count_map_of_injective
  intro first second heq
  cases heq
  rfl

theorem count_map_selfAddressUpdated (updated : List SocketAddr) (ext : SocketAddr) :
    (updated.map AddressEvent.selfAddressUpdated).count (.directAddressPromoted ext) = 0 := by
  simp [count_eq_zero]

/-- An observer moves the level exactly if it is answered with a promotion. -/
theorem promotionLevel_recordAttributedObserver (peerIp : IpAddr) (recorded ext : SocketAddr)
    (state : ProofState) :
    promotionLevel ext (state.recordAttributedObserver peerIp recorded).1 = promotionLevel ext state
        + (state.recordAttributedObserver peerIp recorded).2.toList.count ext := by
  by_cases hext : ext = recorded
  · subst hext
    have hentry : (state.recordAttributedObserver peerIp ext).1.provenExternals ext
        = (state.provenExternals ext).insert peerIp :=
      Function.update_self ..
    rw [promotionLevel, promotionLevel, hentry, ProofState.recordAttributedObserver]
    by_cases hpresent : peerIp ∈ state.provenExternals ext
    · simp [hpresent]
    · have hinserted : (state.provenExternals ext).contains peerIp = false := by
        simpa using hpresent
      simp only [length_insert_of_not_mem hpresent, hinserted, Bool.not_false,
        Bool.true_and, beq_iff_eq, minDistinctObserversForDirect]
      generalize (state.provenExternals ext).length = count
      rcases count with _ | _ | count
      · simp
      · simp
      · simp
  · have hentry : (state.recordAttributedObserver peerIp recorded).1.provenExternals ext
        = state.provenExternals ext :=
      Function.update_of_ne hext ..
    have hanswer : (state.recordAttributedObserver peerIp recorded).2.toList.count ext = 0 := by
      simp only [ProofState.recordAttributedObserver]
      split <;> simp [Ne.symm hext]
    rw [promotionLevel, promotionLevel, hentry, hanswer, Nat.add_zero]

section Balance

variable (ext : SocketAddr)

theorem promotions_recordAttributedObserver (peerIp : IpAddr) (recorded : SocketAddr)
    (state : ProofState) :
    promotions ext (state.recordAttributedObserver peerIp recorded).1 = promotions ext state :=
  rfl

/-- Publishing moves a promotion from the handler to the published ones. -/
theorem promotions_emit (event : AddressEvent) (published : List AddressEvent)
    (state : ProofState) :
    promotions ext (state.emit [event])
        + published.count (.directAddressPromoted ext) + promotionLevel ext state
      = promotions ext state + (event :: published).count (.directAddressPromoted ext)
        + promotionLevel ext (state.emit [event]) := by
  have hlevel : promotionLevel ext (state.emit [event]) = promotionLevel ext state := rfl
  rw [hlevel]
  simp only [promotions, ProofState.emit, count_append, count_cons, count_nil]
  omega

theorem ConnectStage.promotions_next {socketAddr : SocketAddr} {side : Side}
    {order : HashOrder SocketAddr} {stage next : ConnectStage}
    (hnext : stage.next normalize socketAddr side order state = some (write, next)) :
    promotions ext (write.apply normalize state)
        + (Handler.connect socketAddr side order next).carriedPromotions ext
        + promotionLevel ext state
      = promotions ext state
        + (Handler.connect socketAddr side order stage).carriedPromotions ext
        + promotionLevel ext (write.apply normalize state) := by
  cases stage with
  | start =>
    cases hnext
    simp only [apply]
    split <;> rfl
  | unlisted =>
    cases hnext
    rfl
  | checked wasKnownBefore =>
    cases hnext
    split
    · rfl
    · split <;> rfl
  | readPins =>
    cases hnext
    simp only [apply]
    split <;> rfl
  | mark pinnedDirect =>
    cases hnext
    rfl
  | readReports pinnedDirect =>
    cases hnext
    rfl
  | credit pinnedDirect prior promoted =>
    cases prior with
    | nil =>
      cases hnext
      simp [carriedPromotions, apply, count_map_directAddressPromoted]
    | cons reported prior =>
      simp only [ConnectStage.next] at hnext
      split at hnext
      · cases hnext
        simp only [carriedPromotions, apply, count_append, promotionLevel_recordAttributedObserver]
        rw [promotions_recordAttributedObserver]
        omega
      · cases hnext
        rfl
  | publish published =>
    cases published with
    | nil => cases hnext
    | cons event published =>
      cases hnext
      exact promotions_emit ext event published state

theorem ReportStage.promotions_next {peerAddr observedExternal : SocketAddr}
    {stage next : ReportStage}
    (hnext : stage.next normalize peerAddr observedExternal state = some (write, next)) :
    promotions ext (write.apply normalize state)
        + (Handler.report peerAddr observedExternal next).carriedPromotions ext
        + promotionLevel ext state
      = promotions ext state
        + (Handler.report peerAddr observedExternal stage).carriedPromotions ext
        + promotionLevel ext (write.apply normalize state) := by
  cases stage with
  | start =>
    simp only [ReportStage.next] at hnext
    split at hnext
    · cases hnext
      rfl
    · cases hnext
      rfl
  | recorded =>
    cases hnext
    rfl
  | noted publishableAdded =>
    cases hnext
    simp only [apply]
    split
    · rfl
    · simp only [carriedPromotions, count_map_selfAddressUpdated]
  | readPins publishableAdded =>
    cases hnext
    rfl
  | credit pinnedDirect publishableAdded =>
    simp only [ReportStage.next] at hnext
    split at hnext
    · cases hnext
      simp only [carriedPromotions, apply, count_append,
        count_map_selfAddressUpdated, count_map_directAddressPromoted,
        promotionLevel_recordAttributedObserver]
      rw [promotions_recordAttributedObserver]
      omega
    · cases hnext
      simp only [carriedPromotions, apply, count_map_selfAddressUpdated]
  | publish published =>
    cases published with
    | nil => cases hnext
    | cons event published =>
      cases hnext
      exact promotions_emit ext event published state

theorem PinStage.promotions_next {socketAddr : SocketAddr} {sweep : Sweep}
    {stage next : PinStage}
    (hnext : stage.next normalize socketAddr sweep state = some (write, next)) :
    promotions ext (write.apply normalize state)
        + (Handler.pin socketAddr sweep next).carriedPromotions ext
        + promotionLevel ext state
      = promotions ext state
        + (Handler.pin socketAddr sweep stage).carriedPromotions ext
        + promotionLevel ext (write.apply normalize state) := by
  cases stage with
  | start =>
    cases hnext
    split <;> rfl
  | iterate =>
    cases hnext
    rfl
  | visit rest promoted =>
    cases rest with
    | nil =>
      cases hnext
      simp only [apply, carriedPromotions]
      split
      · next hempty =>
          rw [isEmpty_iff.mp hempty]
          rfl
      · rw [count_map_directAddressPromoted]
    | cons peerIp rest =>
      cases hnext
      simp only [apply]
      split <;> rfl
  | inspect peerIp rest promoted =>
    cases hnext
    simp only [apply]
    split <;> rfl
  | credit peerIp rest promoted =>
    cases hnext
    simp only [carriedPromotions, apply, count_append, promotionLevel_recordAttributedObserver]
    rw [promotions_recordAttributedObserver]
    omega
  | publish published =>
    cases published with
    | nil => cases hnext
    | cons event published =>
      cases hnext
      exact promotions_emit ext event published state

theorem Handler.promotions_next {handler next : Handler}
    (hnext : handler.next normalize state = some (write, next)) :
    promotions ext (write.apply normalize state) + next.carriedPromotions ext
        + promotionLevel ext state
      = promotions ext state + handler.carriedPromotions ext
        + promotionLevel ext (write.apply normalize state) := by
  cases handler with
  | connect socketAddr side order stage =>
    obtain ⟨⟨made, reached⟩, hmade, hpair⟩ := Option.map_eq_some_iff.mp hnext
    cases hpair
    exact ConnectStage.promotions_next ext hmade
  | report peerAddr observedExternal stage =>
    obtain ⟨⟨made, reached⟩, hmade, hpair⟩ := Option.map_eq_some_iff.mp hnext
    cases hpair
    exact ReportStage.promotions_next ext hmade
  | pin socketAddr sweep stage =>
    obtain ⟨⟨made, reached⟩, hmade, hpair⟩ := Option.map_eq_some_iff.mp hnext
    cases hpair
    exact PinStage.promotions_next ext hmade

end Balance

theorem Handler.Finished.carriedPromotions {handler : Handler}
    (hfinished : handler.Finished) (ext : SocketAddr) :
    handler.carriedPromotions ext = 0 := by
  cases hfinished <;> rfl

end Promotions

end SaorsaCore.Reachability
