import SaorsaCore.Reachability.ObserverDebts
import SaorsaCore.Reachability.ObserverPromotions

/-!
# Credit under interleaving

Connections, reports and pins are handled at the same time, one thread each, and their
accesses to the shared maps interleave freely.  A peer is due for an address once it is
eligible, has reported the address and the address is pinned.  The handler that makes
the last of the three true has the other two before its eyes and owes the credit, with
one exception: a connection handler judges by the pins it read before it marked its
peer.  Credit is complete in every run in which no pin falls into that gap.
-/

namespace SaorsaCore.Reachability

open Handler Transition List Option

section Races

variable {Index : Type*} {normalize : SocketAddr → SocketAddr}
  {events : Index → ObserverEvent} {dialed : List SocketAddr} {known : List IpAddr}
  {index : Index}

variable (normalize events dialed) in
/-- What holds at every moment of a race. -/
structure RaceInvariant (system : Threads Index ProofState Handler) : Prop where
  outlined : system.Outlined (Accounted normalize events dialed)
    fun index => Outline normalize (events index)
  answered : system.Answered Due Paid (Handler.Owes normalize)

/-- When all handlers have finished, the observers of an address are the peers that
qualify for it. -/
theorem RaceInvariant.mem_provenExternals {system : Threads Index ProofState Handler}
    (hinvariant : RaceInvariant normalize events dialed system)
    (hfinished : ∀ index, (system.threads index).Finished) (peerIp : IpAddr)
    (ext : SocketAddr) :
    peerIp ∈ system.state.provenExternals ext ↔ Qualifies normalize events peerIp ext := by
  constructor
  · intro hproven
    have haccounted := hinvariant.outlined.invariant
    obtain ⟨heligible, hobserved, hdirect⟩ := haccounted.proven ext peerIp hproven
    exact ⟨haccounted.eligible peerIp heligible, (haccounted.observed peerIp ext hobserved).2,
      haccounted.direct ext hdirect⟩
  · rintro ⟨⟨first, hconnects⟩, ⟨second, hreports⟩, ⟨third, hdiscovers⟩⟩
    have houtline := fun index =>
      (hinvariant.outlined.outline index).finished (hfinished index)
    have hdue : Due system.state (peerIp, ext) :=
      ⟨(houtline first).1 peerIp hconnects, (houtline second).2.1 peerIp ext hreports,
        (houtline third).2.2 ext hdiscovers⟩
    exact hinvariant.answered.paid (fun index debt => (hfinished index).not_owes debt) hdue

section Runs

variable (hnormalize : ∀ addr, normalize (normalize addr) = normalize addr)
  (hadmissible : Admissible normalize events dialed known)
include hadmissible

theorem RaceInvariant.start :
    RaceInvariant normalize events dialed (raceStart events dialed known) := by
  constructor
  · refine ⟨?_, fun index => ?_⟩
    · exact {
        dialed := rfl
        relay := rfl
        directNodup := nodup_nil
        direct := fun _ hmem => nomatch hmem
        observedNodup := fun _ => nodup_nil
        observed := fun _ _ hmem => nomatch hmem
        eligible := fun _ hmem => nomatch hmem
        provenNodup := fun _ => nodup_nil
        proven := fun _ _ hmem => nomatch hmem }
    · simp only [raceStart]
      cases hevent : events index with
      | connected socketAddr order =>
        apply Outline.connected
        apply hadmissible.unknown index
        rw [hevent]
        rfl
      | reported peerAddr observedExternal => exact .reported trivial
      | discovered socketAddr sweep => exact .discovered trivial
  · exact fun debt hdue => nomatch hdue.1

variable [DecidableEq Index]
include hnormalize

variable {system : Threads Index ProofState Handler}

theorem RaceInvariant.step {next : Threads Index ProofState Handler}
    (hinvariant : RaceInvariant normalize events dialed system)
    (hundisturbed : Undisturbed normalize system index)
    (hstep : system.step (Handler.move normalize) index = some next) :
    RaceInvariant normalize events dialed next := by
  obtain ⟨later, thread, hmove, rfl⟩ := Threads.step_eq_some hstep
  obtain ⟨write, hnext, rfl⟩ := move_eq_some hmove
  have haccounted := hinvariant.outlined.invariant
  have houtline := hinvariant.outlined.outline index
  obtain ⟨hwarranted, hown⟩ := houtline.next hnormalize hadmissible haccounted hnext
  have hgrows := haccounted.grows hadmissible hwarranted
  constructor
  · apply hinvariant.outlined.update (haccounted.apply hadmissible hwarranted) hown
    intro other hother hothers
    apply hothers.stable hadmissible hother hwarranted hgrows
    exact fun hsnapshot => hundisturbed ⟨other, hsnapshot⟩ _ hmove
  · apply hinvariant.answered.update
    · exact fun debt hpaid => hgrows.proven debt.2 debt.1 hpaid
    · exact fun debt hdue howes =>
        owes_next haccounted hnormalize hdue howes hnext
    · exact fun debt hnew hdue => houtline.owes_new hnew hdue hnormalize hnext

theorem RaceInvariant.reaches (hreaches : Transition.Reaches (Threads.step (Handler.move normalize))
      (Undisturbed normalize) (raceStart events dialed known) system) :
    RaceInvariant normalize events dialed system := by
  apply hreaches.invariant (RaceInvariant.start hadmissible)
  intro system index next hinvariant hundisturbed hstep
  exact hinvariant.step hnormalize hadmissible hundisturbed hstep

omit hadmissible hnormalize in
/-- The level of promotions is what was published and what handlers have in hand. -/
theorem promotions_reaches [Fintype Index] (ext : SocketAddr)
    {allowed : Threads Index ProofState Handler → Index → Prop}
    (hreaches : Transition.Reaches (Threads.step (Handler.move normalize)) allowed
      (raceStart events dialed known) system) :
    system.Balanced (promotions ext) (promotionLevel ext) (Handler.carriedPromotions ext) := by
  apply hreaches.invariant
  · have hcarried : ∀ index, ((raceStart events dialed known).threads index).carriedPromotions
        ext = 0 := by
      intro index
      simp only [raceStart]
      cases events index <;> rfl
    rw [Threads.Balanced, Finset.sum_eq_zero fun index _ => hcarried index]
    rfl
  · intro system index next hbalanced _ hstep
    obtain ⟨later, thread, hmove, rfl⟩ := Threads.step_eq_some hstep
    obtain ⟨write, hnext, rfl⟩ := move_eq_some hmove
    exact hbalanced.update (promotions_next ext hnext)

/-- In every interleaving in which no pin takes effect between the moment a connection
handler reads the pins and the moment it marks its peer, every peer that connected and
reported a discovered address is credited in the end, and the promotion of an address is
published once if two peers qualify for it and never otherwise. -/
theorem interleaved_credit_complete [Fintype Index]
    {system : Threads Index ProofState Handler}
    (hreaches : Transition.Reaches (Threads.step (Handler.move normalize))
      (Undisturbed normalize) (raceStart events dialed known) system)
    (hdone : ∀ index, (system.threads index).move normalize system.state = none)
    (ext : SocketAddr) :
    (∀ peerIp, Qualifies normalize events peerIp ext →
        peerIp ∈ system.state.provenExternals ext)
      ∧ ((∃ first second, first ≠ second ∧ Qualifies normalize events first ext
            ∧ Qualifies normalize events second ext) →
          system.state.emitted.count (.directAddressPromoted ext) = 1)
      ∧ ((¬ ∃ first second, first ≠ second ∧ Qualifies normalize events first ext
            ∧ Qualifies normalize events second ext) →
          .directAddressPromoted ext ∉ system.state.emitted) := by
  have hinvariant := RaceInvariant.reaches hnormalize hadmissible hreaches
  have hfinished := fun index => finished (hdone index)
  have hproven := fun peerIp =>
    hinvariant.mem_provenExternals hfinished peerIp ext
  have hcount : system.state.emitted.count (.directAddressPromoted ext)
      = promotionLevel ext system.state := by
    have hbalanced := promotions_reaches ext hreaches
    rw [Threads.Balanced, Finset.sum_eq_zero fun index _ =>
      (hfinished index).carriedPromotions ext] at hbalanced
    exact hbalanced
  have htwo := ProofState.two_observers_iff (hinvariant.outlined.invariant.provenNodup ext)
  refine ⟨fun peerIp hqualifies => (hproven peerIp).mpr hqualifies, ?_, ?_⟩
  · rintro ⟨first, second, hne, hfirst, hsecond⟩
    rw [hcount]
    exact if_pos (htwo.mpr ⟨first, second, hne, (hproven first).mpr hfirst,
      (hproven second).mpr hsecond⟩)
  · intro hnone
    apply count_eq_zero.mp
    rw [hcount]
    apply if_neg
    intro hreached
    obtain ⟨first, second, hne, hfirst, hsecond⟩ := htwo.mp hreached
    exact hnone ⟨first, second, hne, (hproven first).mp hfirst, (hproven second).mp hsecond⟩

end Runs

instance [Fintype Index] (system : Threads Index ProofState Handler) (index : Index) :
    Decidable (Undisturbed normalize system index) :=
  inferInstanceAs (Decidable (_ → _))

end Races

/-! ## A connection and a pin at the same time -/

/-- Two strangers, `10.0.0.1` and `10.0.0.2`, connect and report the external address
`5.6.7.8:4000`, which is discovered. -/
def strangerEvents : Fin 5 → ObserverEvent
  | 0 => .reported (.v4 0x0a000001 9000) (.v4 0x05060708 4000)
  | 1 => .connected (.v4 0x0a000002 9000) (HashOrder.insertion _)
  | 2 => .reported (.v4 0x0a000002 9000) (.v4 0x05060708 4000)
  | 3 => .connected (.v4 0x0a000001 9000) (HashOrder.insertion _)
  | 4 => .discovered (.v4 0x05060708 4000) (Sweep.ofOrder (HashOrder.insertion _))

theorem strangerEvents_admissible : Admissible id strangerEvents [] [] := by
  constructor
  · intro first second hne peerIp hfirst hsecond
    fin_cases first <;> fin_cases second <;>
      simp_all [strangerEvents, ObserverEvent.Connects]
    all_goals
      rw [← hfirst] at hsecond
      revert hsecond
      decide
  · exact fun index peerIp _ => not_mem_nil
  · exact fun index socketAddr order _ => not_mem_nil
  · intro index peerIp hconnects other ext hdiscovers
    fin_cases index <;> fin_cases other <;>
      simp_all [strangerEvents, ObserverEvent.Connects, ObserverEvent.Discovers]
    all_goals
      rw [← hconnects, ← hdiscovers]
      decide
  · intro peerIp
    have hall : ∀ ext, (∃ index, (strangerEvents index).ReportsTo id peerIp ext) →
        ext ∈ [SocketAddr.v4 0x05060708 4000] := by
      rintro ext ⟨index, hreports⟩
      fin_cases index <;> simp_all [strangerEvents, ObserverEvent.ReportsTo]
    exact AtMost.of_subset hall (by decide)
  · have hall : ∀ ext, (∃ index, (strangerEvents index).Discovers id ext) →
        ext ∈ [SocketAddr.v4 0x05060708 4000] := by
      rintro ext ⟨index, hdiscovers⟩
      fin_cases index <;> simp_all [strangerEvents, ObserverEvent.Discovers]
    exact AtMost.of_subset hall (by decide)

theorem strangers_qualify : Qualifies id strangerEvents (.v4 0x0a000001) (.v4 0x05060708 4000)
      ∧ Qualifies id strangerEvents (.v4 0x0a000002) (.v4 0x05060708 4000) :=
  ⟨⟨⟨3, rfl⟩, ⟨0, rfl, rfl⟩, ⟨4, rfl⟩⟩, ⟨⟨1, rfl⟩, ⟨2, rfl, rfl⟩, ⟨4, rfl⟩⟩⟩

/-- One handler after the other, the discovery last. -/
def inTurn : List (Fin 5) :=
  List.replicate 4 0 ++ List.replicate 7 1 ++ List.replicate 5 2 ++ List.replicate 8 3
    ++ List.replicate 10 4

theorem inTurn_credits :
    ∃ system, Transition.Reaches (Threads.step (Handler.move id)) (Undisturbed id)
        (raceStart strangerEvents [] []) system
      ∧ .v4 0x0a000001 ∈ system.state.provenExternals (.v4 0x05060708 4000)
      ∧ system.state.emitted.count (.directAddressPromoted (.v4 0x05060708 4000)) = 1 := by
  have hrun : (run (Threads.step (move id)) (Undisturbed id)
      (raceStart strangerEvents [] []) inTurn).any (fun system =>
        decide (∀ index, ((system.threads index).move id system.state).isNone)) = true := by
    decide +kernel
  obtain ⟨system, hsystem, hdone⟩ := (any_eq_true _ _).mp hrun
  have hreaches := reaches_of_run hsystem
  have hcomplete := interleaved_credit_complete (fun _ => rfl) strangerEvents_admissible
    hreaches (fun index => isNone_iff_eq_none.mp (of_decide_eq_true hdone index))
    (.v4 0x05060708 4000)
  obtain ⟨hfirst, hsecond⟩ := strangers_qualify
  exact ⟨system, hreaches, hcomplete.1 _ hfirst, hcomplete.2.1 ⟨_, _, by decide, hfirst, hsecond⟩⟩

/-- The handler of the last connection reads the pins; then the address is pinned and
the back-fill passes over the peer, which is not yet eligible; then the handler marks
the peer and finds the address missing in what it read. -/
def pinInTheGap : List (Fin 5) :=
  List.replicate 4 0 ++ List.replicate 7 1 ++ List.replicate 5 2 ++ List.replicate 4 3
    ++ List.replicate 8 4 ++ List.replicate 4 3

theorem pinInTheGap_loses_credit :
    Admissible id strangerEvents [] []
      ∧ Qualifies id strangerEvents (.v4 0x0a000001) (.v4 0x05060708 4000)
      ∧ Qualifies id strangerEvents (.v4 0x0a000002) (.v4 0x05060708 4000)
      ∧ ∃ system, Transition.Reaches (Threads.step (Handler.move id)) (fun _ _ => True)
          (raceStart strangerEvents [] []) system
        ∧ (∀ index, (system.threads index).move id system.state = none)
        ∧ .v4 0x0a000001 ∉ system.state.provenExternals (.v4 0x05060708 4000)
        ∧ .directAddressPromoted (.v4 0x05060708 4000) ∉ system.state.emitted := by
  have hrun : (run (Threads.step (move id)) (fun _ _ => True)
      (raceStart strangerEvents [] []) pinInTheGap).any (fun system =>
        decide ((∀ index, ((system.threads index).move id system.state).isNone)
          ∧ .v4 0x0a000001 ∉ system.state.provenExternals (.v4 0x05060708 4000)
          ∧ .directAddressPromoted (.v4 0x05060708 4000) ∉ system.state.emitted))
      = true := by
    decide +kernel
  obtain ⟨system, hsystem, hlost⟩ := (any_eq_true _ _).mp hrun
  obtain ⟨hdone, hproven, hemitted⟩ := of_decide_eq_true hlost
  exact ⟨strangerEvents_admissible, strangers_qualify.1, strangers_qualify.2, system,
    reaches_of_run hsystem,
    fun index => isNone_iff_eq_none.mp (hdone index), hproven, hemitted⟩

end SaorsaCore.Reachability
