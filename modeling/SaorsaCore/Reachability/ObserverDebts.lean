import SaorsaCore.Reachability.ObserverOutline

/-!
# Who owes the credit

A peer is due for an address once it is eligible, has reported the address and the
address is pinned.  The handler that makes the last of the three true has the other two
before its eyes: it owes the credit, and it goes on owing it until it gives it.
-/

namespace SaorsaCore.Reachability

open ReportStage PinStage Handler Option MapWrite List

section Races

variable {Index : Type*} {normalize : SocketAddr → SocketAddr}
  {events : Index → ObserverEvent} {dialed : List SocketAddr} {state : ProofState}
  {write : MapWrite}

/-- The peer is eligible and has reported the address, and the address is pinned. -/
def Due (state : ProofState) (debt : IpAddr × SocketAddr) : Prop :=
  debt.1 ∈ state.proofEligiblePeers ∧ debt.2 ∈ state.peerObservations debt.1
    ∧ debt.2 ∈ state.externalAddresses.direct

def Paid (state : ProofState) (debt : IpAddr × SocketAddr) : Prop :=
  debt.1 ∈ state.provenExternals debt.2

variable (normalize) in
/-- The handler is on its way to credit the peer for the address. -/
def Handler.Owes : Handler → IpAddr × SocketAddr → Prop
  | connect socketAddr _ _ (.readReports pinnedDirect), debt =>
    remoteIp normalize socketAddr = debt.1 ∧ debt.2 ∈ pinnedDirect
  | connect socketAddr _ _ (.credit pinnedDirect prior _), debt =>
    remoteIp normalize socketAddr = debt.1 ∧ debt.2 ∈ pinnedDirect ∧ debt.2 ∈ prior
  | report peerAddr observedExternal .recorded, debt =>
    remoteIp normalize peerAddr = debt.1 ∧ normalize observedExternal = debt.2
  | report peerAddr observedExternal (.noted _), debt =>
    remoteIp normalize peerAddr = debt.1 ∧ normalize observedExternal = debt.2
  | report peerAddr observedExternal (.readPins _), debt =>
    remoteIp normalize peerAddr = debt.1 ∧ normalize observedExternal = debt.2
  | report peerAddr observedExternal (.credit pinnedDirect _), debt =>
    remoteIp normalize peerAddr = debt.1 ∧ normalize observedExternal = debt.2
      ∧ debt.2 ∈ pinnedDirect
  | pin socketAddr _ .iterate, debt => normalize socketAddr = debt.2
  | pin socketAddr _ (.visit rest _), debt => normalize socketAddr = debt.2 ∧ debt.1 ∈ rest
  | pin socketAddr _ (.inspect peerIp rest _), debt =>
    normalize socketAddr = debt.2 ∧ (debt.1 = peerIp ∨ debt.1 ∈ rest)
  | pin socketAddr _ (.credit peerIp rest _), debt =>
    normalize socketAddr = debt.2 ∧ (debt.1 = peerIp ∨ debt.1 ∈ rest)
  | _, _ => False

theorem Paid.recordObserver (peerIp : IpAddr) (ext : SocketAddr) (state : ProofState) :
    Paid (apply normalize (.recordObserver peerIp ext) state) (peerIp, ext) := by
  simp [Paid, apply, ProofState.recordAttributedObserver]

section Debts

variable {debt : IpAddr × SocketAddr} (hdue : Due state debt) (hnormal : normalize debt.2 = debt.2)
include hdue hnormal

/-- A connection handler that owes credit goes through all the reports it has read. -/
theorem ConnectStage.owes_next {socketAddr : SocketAddr} {side : Side}
    {order : HashOrder SocketAddr} {stage next : ConnectStage}
    (howes : (connect socketAddr side order stage).Owes normalize debt)
    (hnext : stage.next normalize socketAddr side order state = some (write, next)) :
    Paid (write.apply normalize state) debt
      ∨ (connect socketAddr side order next).Owes normalize debt := by
  cases stage with
  | readReports pinnedDirect =>
    obtain ⟨hpeer, hpinned⟩ := howes
    cases hnext
    refine .inr ⟨hpeer, hpinned, (order.perm _).mem_iff.mpr ?_⟩
    rw [hpeer]
    exact hdue.2.1
  | credit pinnedDirect prior promoted =>
    obtain ⟨hpeer, hpinned, hprior⟩ := howes
    cases prior with
    | nil => cases hprior
    | cons ext prior =>
      simp only [ConnectStage.next] at hnext
      rcases mem_cons.mp hprior with hhead | hrest
      · rw [← hhead, hnormal, if_pos hpinned] at hnext
        cases hnext
        rw [hpeer]
        exact .inl (Paid.recordObserver debt.1 debt.2 state)
      · split at hnext
        · cases hnext
          exact .inr ⟨hpeer, hpinned, hrest⟩
        · cases hnext
          exact .inr ⟨hpeer, hpinned, hrest⟩
  | _ => exact howes.elim

/-- A report handler finds its peer eligible and the address pinned. -/
theorem ReportStage.owes_next {peerAddr observedExternal : SocketAddr}
    {stage next : ReportStage}
    (howes : (report peerAddr observedExternal stage).Owes normalize debt)
    (hnext : stage.next normalize peerAddr observedExternal state = some (write, next)) :
    Paid (write.apply normalize state) debt
      ∨ (report peerAddr observedExternal next).Owes normalize debt := by
  cases stage with
  | recorded =>
    cases hnext
    exact .inr howes
  | noted publishableAdded =>
    have heligible : remoteIp normalize peerAddr ∈ state.proofEligiblePeers := by
      rw [howes.1]
      exact hdue.1
    simp only [ReportStage.next, if_pos heligible] at hnext
    cases hnext
    exact .inr howes
  | readPins publishableAdded =>
    cases hnext
    exact .inr ⟨howes.1, howes.2, hdue.2.2⟩
  | credit pinnedDirect publishableAdded =>
    obtain ⟨hpeer, hext, hpinned⟩ := howes
    simp only [ReportStage.next, hext, hnormal, if_pos hpinned] at hnext
    cases hnext
    rw [hpeer]
    exact .inl (Paid.recordObserver debt.1 debt.2 state)
  | _ => exact howes.elim

/-- The back-fill comes to every peer that was there when it started. -/
theorem PinStage.owes_next {socketAddr : SocketAddr} {sweep : Sweep}
    (hkey : debt.1 ∈ state.observers) {stage next : PinStage}
    (howes : (pin socketAddr sweep stage).Owes normalize debt)
    (hnext : stage.next normalize socketAddr sweep state = some (write, next)) :
    Paid (write.apply normalize state) debt ∨ (pin socketAddr sweep next).Owes normalize debt := by
  cases stage with
  | iterate =>
    cases hnext
    exact .inr ⟨howes, sweep.covers _ _ hkey⟩
  | visit rest promoted =>
    obtain ⟨hext, hrest⟩ := howes
    cases rest with
    | nil => cases hrest
    | cons peerIp rest =>
      simp only [PinStage.next] at hnext
      split at hnext
      · cases hnext
        exact .inr ⟨hext, mem_cons.mp hrest⟩
      · next hineligible =>
          cases hnext
          rcases mem_cons.mp hrest with rfl | hrest
          · exact absurd hdue.1 hineligible
          · exact .inr ⟨hext, hrest⟩
  | inspect peerIp rest promoted =>
    obtain ⟨hext, hrest⟩ := howes
    simp only [PinStage.next, hext, hnormal] at hnext
    split at hnext
    · cases hnext
      exact .inr ⟨hext, hrest⟩
    · next hunreported =>
        cases hnext
        rcases hrest with rfl | hrest
        · exact absurd hdue.2.1 hunreported
        · exact .inr ⟨hext, hrest⟩
  | credit peerIp rest promoted =>
    obtain ⟨hext, hrest⟩ := howes
    simp only [PinStage.next, hext, hnormal] at hnext
    cases hnext
    rcases hrest with rfl | hrest
    · exact .inl (Paid.recordObserver debt.1 debt.2 state)
    · exact .inr ⟨hext, hrest⟩
  | _ => exact howes.elim

end Debts

theorem Handler.owes_next (haccounted : Accounted normalize events dialed state)
    (hnormalize : ∀ addr, normalize (normalize addr) = normalize addr)
    {handler next : Handler} {debt : IpAddr × SocketAddr} (hdue : Due state debt)
    (howes : handler.Owes normalize debt)
    (hnext : handler.next normalize state = some (write, next)) :
    Paid (write.apply normalize state) debt ∨ next.Owes normalize debt := by
  have hnormal : normalize debt.2 = debt.2 :=
    haccounted.normalize_observed hnormalize hdue.2.1
  have hkey : debt.1 ∈ state.observers := (haccounted.observed _ _ hdue.2.1).1
  cases handler with
  | connect socketAddr side order stage =>
    obtain ⟨⟨made, reached⟩, hmade, hpair⟩ := map_eq_some_iff.mp hnext
    cases hpair
    exact ConnectStage.owes_next hdue hnormal howes hmade
  | report peerAddr observedExternal stage =>
    obtain ⟨⟨made, reached⟩, hmade, hpair⟩ := map_eq_some_iff.mp hnext
    cases hpair
    exact owes_next hdue hnormal howes hmade
  | pin socketAddr sweep stage =>
    obtain ⟨⟨made, reached⟩, hmade, hpair⟩ := map_eq_some_iff.mp hnext
    cases hpair
    exact owes_next hdue hnormal hkey howes hmade

/-- Only three kinds of writes make a credit due. -/
theorem Due.of_apply {debt : IpAddr × SocketAddr} (hnew : ¬ Due state debt)
    (hdue : Due (write.apply normalize state) debt) :
    write = .markEligible debt.1 ∨ write = .recordReport debt.1 debt.2
      ∨ ∃ addr, write = .pinDirect addr ∧ normalize addr = debt.2
        ∧ (state.externalAddresses.pinDirect normalize addr).2 = true := by
  obtain ⟨heligible, hobserved, hdirect⟩ := hdue
  cases write with
  | markEligible peerIp =>
    rcases mem_insert_iff.mp heligible with hpeer | heligible
    · exact .inl (by rw [hpeer])
    · exact absurd ⟨heligible, hobserved, hdirect⟩ hnew
  | recordReport peerIp ext =>
    simp only [apply, ProofState.recordObservation, Function.update_apply] at hobserved
    split at hobserved
    · next hpeer =>
        rcases mem_append.mp hobserved with hobserved | hadded
        · rw [← hpeer] at hobserved
          exact absurd ⟨heligible, hobserved, hdirect⟩ hnew
        · rw [hpeer, mem_singleton.mp hadded]
          exact .inr (.inl rfl)
    · exact absurd ⟨heligible, hobserved, hdirect⟩ hnew
  | recordUnverified ext =>
    simp only [apply] at hdirect
    rw [(ExternalAddresses.recordUnverified_frame normalize _ _).2] at hdirect
    exact absurd ⟨heligible, hobserved, hdirect⟩ hnew
  | pinDirect addr =>
    rcases ExternalAddresses.mem_direct_pinDirect hdirect with hdirect | ⟨hadded, hpinned⟩
    · exact absurd ⟨heligible, hobserved, hdirect⟩ hnew
    · exact .inr (.inr ⟨addr, rfl, hadded.symm, hpinned⟩)
  | _ => exact absurd ⟨heligible, hobserved, hdirect⟩ hnew

section NewDebts

variable {debt : IpAddr × SocketAddr} (hnew : ¬ Due state debt)
  (hdue : Due (write.apply normalize state) debt)
include hnew hdue

/-- A connection handler that makes a credit due by its mark has the address in its
snapshot: the snapshot is what is pinned. -/
theorem ConnectStage.owes_new {socketAddr : SocketAddr} {side : Side}
    {order : HashOrder SocketAddr} {stage next : ConnectStage}
    (hholds : stage.Holds (remoteIp normalize socketAddr) state)
    (hnext : stage.next normalize socketAddr side order state = some (write, next)) :
    (connect socketAddr side order next).Owes normalize debt := by
  have hkinds := Due.of_apply hnew hdue
  cases stage with
  | mark pinnedDirect =>
    cases hnext
    have hpeer : remoteIp normalize socketAddr = debt.1 := by simpa using hkinds
    refine ⟨hpeer, ?_⟩
    rw [hholds]
    exact hdue.2.2
  | credit pinnedDirect prior promoted =>
    cases prior with
    | nil =>
      cases hnext
      simp at hkinds
    | cons ext prior =>
      simp only [ConnectStage.next] at hnext
      split at hnext <;> cases hnext <;> simp at hkinds
  | publish published =>
    cases published with
    | nil => cases hnext
    | cons event published =>
      cases hnext
      simp at hkinds
  | _ =>
    cases hnext
    simp at hkinds

theorem ReportStage.owes_new {peerAddr observedExternal : SocketAddr}
    {stage next : ReportStage}
    (hnext : stage.next normalize peerAddr observedExternal state = some (write, next)) :
    (report peerAddr observedExternal next).Owes normalize debt := by
  have hkinds := Due.of_apply hnew hdue
  cases stage with
  | start =>
    simp only [ReportStage.next] at hnext
    split at hnext
    · cases hnext
      simpa [Handler.Owes] using hkinds
    · cases hnext
      simp at hkinds
  | credit pinnedDirect publishableAdded =>
    simp only [ReportStage.next] at hnext
    split at hnext <;> cases hnext <;> simp at hkinds
  | publish published =>
    cases published with
    | nil => cases hnext
    | cons event published =>
      cases hnext
      simp at hkinds
  | _ =>
    cases hnext
    simp at hkinds

theorem PinStage.owes_new {socketAddr : SocketAddr} {sweep : Sweep}
    (hnormalize : ∀ addr, normalize (normalize addr) = normalize addr)
    {stage next : PinStage}
    (hnext : stage.next normalize socketAddr sweep state = some (write, next)) :
    (pin socketAddr sweep next).Owes normalize debt := by
  have hkinds := Due.of_apply hnew hdue
  cases stage with
  | start =>
    simp only [PinStage.next] at hnext
    cases hnext
    have hpin : normalize socketAddr = debt.2 ∧ (state.externalAddresses.pinDirect
        normalize (normalize socketAddr)).2 = true := by
      simpa [hnormalize] using hkinds
    rw [if_pos hpin.2]
    exact hpin.1
  | visit rest promoted =>
    cases rest with
    | nil =>
      cases hnext
      simp at hkinds
    | cons peerIp rest =>
      cases hnext
      simp at hkinds
  | publish published =>
    cases published with
    | nil => cases hnext
    | cons event published =>
      cases hnext
      simp at hkinds
  | _ =>
    cases hnext
    simp at hkinds

/-- The handler whose move makes a credit due owes it afterwards. -/
theorem Outline.owes_new (hnormalize : ∀ addr, normalize (normalize addr) = normalize addr)
    {event : ObserverEvent} {handler next : Handler}
    (houtline : Outline normalize event handler state)
    (hnext : handler.next normalize state = some (write, next)) :
    next.Owes normalize debt := by
  cases houtline with
  | connected hstage =>
    obtain ⟨⟨made, reached⟩, hmade, hpair⟩ := map_eq_some_iff.mp hnext
    cases hpair
    exact ConnectStage.owes_new hnew hdue hstage hmade
  | reported hstage =>
    obtain ⟨⟨made, reached⟩, hmade, hpair⟩ := map_eq_some_iff.mp hnext
    cases hpair
    exact owes_new hnew hdue hmade
  | discovered hstage =>
    obtain ⟨⟨made, reached⟩, hmade, hpair⟩ := map_eq_some_iff.mp hnext
    cases hpair
    exact owes_new hnew hdue hnormalize hmade

end NewDebts

theorem Handler.Finished.not_owes {handler : Handler} (hfinished : handler.Finished)
    (debt : IpAddr × SocketAddr) : ¬ handler.Owes normalize debt := by
  cases hfinished <;> exact id

end Races

end SaorsaCore.Reachability
