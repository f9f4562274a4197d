import SaorsaCore.Core.Flag
import SaorsaCore.Transport.Links

/-!
# Connection events

A peer is connected while it has an entry in `peer_to_channel`.  The step that creates
or removes the entry is followed by the event about it, and calls about the same peer
may act in between.  Every step acts on the entry of a peer and on the events about it
as a step of a `Flag`, provided that the entry comes or goes only when no call has an
event about the peer still to send.
-/

namespace SaorsaCore.Transport

open ChannelMaps Flag.Step ChannelState Function Transition PeerEvent Option List

/-- What an event says about a peer. -/
def PeerEvent.statusOf (peer : PeerId) : PeerEvent → Option Bool
  | .peerConnected connected _ => if connected = peer then some true else none
  | .peerDisconnected disconnected => if disconnected = peer then some false else none

/-- What the last event about a peer says. -/
def lastStatus (peer : PeerId) (events : List PeerEvent) : Option Bool :=
  (events.filterMap (PeerEvent.statusOf peer)).getLast?

theorem lastStatus_append (peer : PeerId) (events : List PeerEvent) (event : PeerEvent) :
    lastStatus peer (events ++ [event]) = (event.statusOf peer).or (lastStatus peer events) := by
  rw [lastStatus, filterMap_append, getLast?_append]
  cases hstatus : event.statusOf peer with
  | none => simp [filterMap, hstatus, lastStatus]
  | some status => simp [filterMap, hstatus]

namespace Call

/-- The call has still to send that the peer is connected. -/
def connecting (peer : PeerId) : Call → ℕ
  | .insertPeer entered _ _ true => if entered = peer then 1 else 0
  | .announce announced _ => if announced = peer then 1 else 0
  | _ => 0

/-- The call has still to send that the peer is disconnected. -/
def disconnecting (peer : PeerId) : Call → ℕ
  | .announceEmpty _ emptied _ => if emptied = peer then 1 else 0
  | .drop dropped _ => if dropped = peer then 1 else 0
  | _ => 0

end Call

/-- No call has an event about the peer still to send. -/
def silent (peer : PeerId) (calls : List Call) : Bool :=
  calls.all fun call => call.connecting peer == 0 && call.disconnecting peer == 0

theorem owed_of_silent {peer : PeerId} {calls : List Call} (hsilent : silent peer calls = true) :
    owed (Call.connecting peer) calls = 0 ∧ owed (Call.disconnecting peer) calls = 0 := by
  simp only [silent, List.all_eq_true, Bool.and_eq_true, beq_iff_eq] at hsilent
  exact ⟨owed_eq_zero_iff.mpr fun call hcall => (hsilent call hcall).1,
    owed_eq_zero_iff.mpr fun call hcall => (hsilent call hcall).2⟩

/-- The entry of a peer is created or removed only when no call has an event about the
peer still to send. -/
def prompt (state : ChannelState) : ChannelStep → Bool
  | .register peer _ _ =>
    (state.maps.peerToChannel peer).isSome || silent peer state.calls
  | .disconnect peer _ =>
    (state.maps.peerToChannel peer).isNone || silent peer state.calls
  | .advance (.scrub channel (peer :: _)) =>
    state.maps.peerToChannel peer != some {channel} || silent peer state.calls
  | _ => true

/-- The entry of a peer, the last event about it, and the events still to send. -/
def ChannelState.flag (state : ChannelState) (peer : PeerId) : Flag where
  value := (state.maps.peerToChannel peer).isSome
  told := lastStatus peer state.events == some true
  raising := owed (Call.connecting peer) state.calls
  lowering := owed (Call.disconnecting peer) state.calls

attribute [simp] Call.connecting Call.disconnecting ChannelState.flag

section Steps

variable {state next : ChannelState} (peer : PeerId)

/-- A step that is not about the connection of the peer. -/
theorem flag_stay (hvalue : (next.maps.peerToChannel peer).isSome =
      (state.maps.peerToChannel peer).isSome)
    (htold : lastStatus peer next.events = lastStatus peer state.events)
    (hraising : owed (Call.connecting peer) next.calls = owed (Call.connecting peer) state.calls)
    (hlowering : owed (Call.disconnecting peer) next.calls =
      owed (Call.disconnecting peer) state.calls) :
    Flag.Step (state.flag peer) (next.flag peer) :=
  Flag.Step.stay (Flag.ext hvalue
    (congrArg (fun status : Option Bool => status == some true) htold) hraising hlowering)

variable {target : PeerId}

theorem flag_register {entered : ChannelId} {userAgent : String}
    (hprompt : prompt state (.register target entered userAgent) = true)
    (hstep : channelStep state (.register target entered userAgent) = some next) :
    Flag.Step (state.flag peer) (next.flag peer) := by
  injection hstep with hnext
  subst hnext
  cases hentry : state.maps.peerToChannel target with
  | some channels =>
    apply flag_stay
    · simp only [insertChannel, hentry, update_apply]
      split
      · next hsame => rw [hsame, hentry]; rfl
      · rfl
    · rfl
    all_goals
      simp only [insertChannel, hentry]
      split <;> simp
  | none =>
    rw [prompt, hentry, isSome_none, Bool.false_or] at hprompt
    obtain ⟨hraising, hlowering⟩ := owed_of_silent hprompt
    by_cases hpeer : target = peer
    · subst hpeer
      refine raise hraising hlowering (Flag.ext ?_ rfl ?_ ?_)
      all_goals simp [insertChannel, hentry, Nat.add_comm]
    · apply flag_stay
      · simp [insertChannel, hentry, update_of_ne (Ne.symm hpeer)]
      · rfl
      all_goals simp [insertChannel, hentry, hpeer]

theorem flag_remove {removed : ChannelId} {visits : List PeerId}
    (hstep : channelStep state (.remove removed visits) = some next) :
    Flag.Step (state.flag peer) (next.flag peer) := by
  rcases channelStep_remove hstep with rfl | ⟨peers, -, -, rfl⟩
  · exact stay rfl
  · apply flag_stay <;> simp [removeChannel]

theorem flag_disconnect {visits : List ChannelId}
    (hprompt : prompt state (.disconnect target visits) = true)
    (hstep : channelStep state (.disconnect target visits) = some next) :
    Flag.Step (state.flag peer) (next.flag peer) := by
  rcases channelStep_disconnect hstep with rfl | ⟨channels, hentry, -, rfl⟩
  · exact stay rfl
  rw [prompt, hentry, isNone_some, Bool.false_or] at hprompt
  obtain ⟨hraising, hlowering⟩ := owed_of_silent hprompt
  by_cases hpeer : target = peer
  · subst hpeer
    refine lower hraising hlowering (Flag.ext ?_ rfl ?_ ?_)
    all_goals simp [removePeer, Nat.add_comm]
  · apply flag_stay
    · simp [removePeer, update_of_ne (Ne.symm hpeer)]
    · rfl
    all_goals simp [hpeer]

variable {call : Call}

/-- A step of a call that leaves the entry of the peer and the last event about it. -/
theorem flag_advance_quiet (hcall : call ∈ state.calls)
    (hvalue : ((call.advance state.maps).maps.peerToChannel peer).isSome =
      (state.maps.peerToChannel peer).isSome)
    (htold : lastStatus peer (state.events ++ (call.advance state.maps).events) =
      lastStatus peer state.events)
    (hraising : owed (Call.connecting peer) (call.advance state.maps).rest = call.connecting peer)
    (hlowering : owed (Call.disconnecting peer) (call.advance state.maps).rest =
      call.disconnecting peer) :
    Flag.Step (state.flag peer) ((state.advance call).flag peer) := by
  apply flag_stay
  · exact hvalue
  · exact htold
  · rw [advance, owed_append, hraising, owed_erase _ hcall]
  · rw [advance, owed_append, hlowering, owed_erase _ hcall]

theorem flag_advance_scrub {target : ChannelId} {scrubbed : PeerId}
    {remaining : List PeerId} (htidy : state.maps.Tidy)
    (hprompt : prompt state (.advance (.scrub target (scrubbed :: remaining))) = true)
    (hcall : Call.scrub target (scrubbed :: remaining) ∈ state.calls) :
    Flag.Step (state.flag peer)
      ((state.advance (.scrub target (scrubbed :: remaining))).flag peer) := by
  cases hentry : state.maps.peerToChannel scrubbed with
  | none =>
    have hscrub : state.maps.scrubChannel scrubbed target = (state.maps, false) := by
      simp [scrubChannel, hentry]
    apply flag_advance_quiet _ hcall <;> simp [hscrub]
  | some channels =>
    by_cases hlast : channels.erase target = ∅
    · have hscrub : state.maps.scrubChannel scrubbed target =
          (state.maps.removePeer scrubbed, true) := by
        simp [scrubChannel, hentry, hlast]
      have hsingle : channels = {target} := by
        have hnonempty : channels ≠ ∅ := fun hempty =>
          htidy.channels scrubbed (by rw [hentry, hempty])
        exact ((Finset.erase_eq_empty_iff _ _).mp hlast).resolve_left hnonempty
      rw [prompt, hentry, hsingle, bne_self_eq_false, Bool.false_or] at hprompt
      obtain ⟨hraising, hlowering⟩ := owed_of_silent hprompt
      have hcalls := fun owes => owed_erase owes hcall
      by_cases hpeer : scrubbed = peer
      · subst hpeer
        refine lower hraising hlowering (Flag.ext ?_ ?_ ?_ ?_)
        all_goals simp [hscrub, hcalls, removePeer, Nat.add_comm]
      · apply flag_advance_quiet _ hcall
        · simp [hscrub, removePeer, update_of_ne (Ne.symm hpeer)]
        all_goals simp [hscrub, hpeer]
    · apply flag_advance_quiet _ hcall
      · simp only [Call.advance, scrubChannel, hentry, if_neg hlast, update_apply]
        split
        · next hsame => rw [hsame, hentry]; rfl
        · rfl
      all_goals simp [scrubChannel, hentry, hlast]

theorem flag_advance_announce {userAgent : String}
    (hcall : Call.announce target userAgent ∈ state.calls) :
    Flag.Step (state.flag peer) ((state.advance (.announce target userAgent)).flag peer) := by
  by_cases hpeer : target = peer
  · subst hpeer
    have hcalls := fun owes => owed_erase owes hcall
    refine raised ?_ (Flag.ext rfl ?_ rfl ?_)
    all_goals simp [hcalls, lastStatus_append, statusOf, Nat.add_comm]
  · apply flag_advance_quiet _ hcall rfl <;> simp [lastStatus_append, statusOf, hpeer]

/-- A call sends that a peer is disconnected and goes on with calls that owe no event. -/
theorem flag_advance_disconnected (hcall : call ∈ state.calls)
    (hmaps : (call.advance state.maps).maps = state.maps)
    (hevents : (call.advance state.maps).events = [.peerDisconnected target])
    (hraising : owed (Call.connecting peer) (call.advance state.maps).rest = 0)
    (hlowering : owed (Call.disconnecting peer) (call.advance state.maps).rest = 0)
    (hconnecting : call.connecting peer = 0)
    (hdisconnecting : call.disconnecting peer = if target = peer then 1 else 0) :
    Flag.Step (state.flag peer) ((state.advance call).flag peer) := by
  by_cases hpeer : target = peer
  · have hcalls := fun owes => owed_erase owes hcall
    rw [if_pos hpeer] at hdisconnecting
    refine lowered ?_ (Flag.ext ?_ ?_ ?_ rfl)
    · simp only [flag, advance, owed_append, hlowering,
        hcalls (Call.disconnecting peer), hdisconnecting]
      omega
    · simp only [flag, advance, hmaps]
    · simp only [flag, advance, hevents, lastStatus_append, statusOf, hpeer]
      rfl
    · simp only [flag, advance, owed_append, hraising, hcalls (Call.connecting peer), hconnecting]
  · apply flag_advance_quiet _ hcall
    · rw [hmaps]
    · rw [hevents, lastStatus_append, statusOf, if_neg hpeer, none_or]
    · rw [hraising, hconnecting]
    · rw [hlowering, hdisconnecting, if_neg hpeer]

/-- Every step acts on every peer as a step of its flag. -/
theorem channelStep_flag {action : ChannelStep} (htidy : state.maps.Tidy)
    (hprompt : prompt state action = true)
    (hstep : channelStep state action = some next) :
    Flag.Step (state.flag peer) (next.flag peer) := by
  cases action with
  | register target entered userAgent => exact flag_register _ hprompt hstep
  | remove removed visits => exact flag_remove _ hstep
  | disconnect target visits => exact flag_disconnect _ hprompt hstep
  | advance call =>
    obtain ⟨hcall, rfl⟩ := channelStep_advance hstep
    cases call with
    | insertPeer target entered userAgent isNewPeer =>
      cases isNewPeer <;> apply flag_advance_quiet _ hcall <;> simp [insertPeer]
    | announce target userAgent => exact flag_advance_announce _ hcall
    | scrub target remaining =>
      cases remaining with
      | nil => apply flag_advance_quiet _ hcall <;> simp
      | cons scrubbed remaining => exact flag_advance_scrub _ htidy hprompt hcall
    | announceEmpty target scrubbed remaining =>
      exact flag_advance_disconnected _ hcall rfl rfl rfl rfl rfl rfl
    | drop target remaining =>
      cases remaining with
      | nil => exact flag_advance_disconnected _ hcall rfl rfl rfl rfl rfl rfl
      | cons dropped remaining =>
        apply flag_advance_quiet _ hcall <;> simp [peerToChannel_dropPeer]

end Steps

/-! ## Runs -/

/-- In every run in which a peer's entry comes and goes only when no event about the
peer is still to be sent, the last event about a peer says that it is connected exactly
if it has a channel, once all calls have finished. -/
theorem lastStatus_agrees {state : ChannelState}
    (hreaches : Transition.Reaches channelStep
      (fun state action => prompt state action = true) idleState state)
    (hfinished : state.calls = []) (peer : PeerId) :
    lastStatus peer state.events = some true ↔ (state.maps.channelsOf peer).Nonempty := by
  have hinvariant : state.maps.Tidy ∧ (state.flag peer).Sound := by
    apply hreaches.invariant
    · exact ⟨idleState_inverse.tidy, by constructor <;> simp [flag, idleState, lastStatus, empty]⟩
    · rintro before action next ⟨htidy, hsound⟩ hprompt hstep
      exact ⟨channelStep_tidy htidy hstep, hsound.step (channelStep_flag peer htidy hprompt hstep)⟩
  obtain ⟨htidy, hsound⟩ := hinvariant
  have hsettled := hsound.settled
  simp only [flag, hfinished, owed_nil, forall_true_left] at hsettled
  rw [nonempty_channelsOf_iff (htidy.channels peer), ← hsettled, beq_iff_eq]

/-- A peer connects, is disconnected, and connects again. -/
theorem prompt_reconnection_agrees :
    ∃ state, Transition.Reaches channelStep
        (fun state action => prompt state action = true) idleState state ∧
      state.calls = [] ∧ (state.maps.channelsOf 1).Nonempty ∧
      lastStatus 1 state.events = some true := by
  have hrun : (run channelStep (fun state action => prompt state action = true)
      idleState (registration 1 "c" ++ [.disconnect 1 ["c"], .advance (.drop 1 ["c"]),
        .advance (.drop 1 [])] ++ registration 1 "d")).map
        (fun state => (state.calls, decide (state.maps.channelsOf 1).Nonempty)) =
      some ([], true) := by
    decide +kernel
  obtain ⟨state, hstate, hvalues⟩ := map_eq_some_iff.mp hrun
  simp only [Prod.mk.injEq, decide_eq_true_eq] at hvalues
  obtain ⟨hfinished, hchannel⟩ := hvalues
  have hreaches := reaches_of_run hstate
  exact ⟨state, hreaches, hfinished, hchannel,
    (lastStatus_agrees hreaches hfinished 1).mpr hchannel⟩

/-- A new peer is disconnected before its registration has sent `PeerConnected`. -/
theorem overtaken_registration_disagrees :
    ∃ state, Transition.Reaches channelStep (fun _ _ => True) idleState state ∧
      state.calls = [] ∧ lastStatus 1 state.events = some true ∧
      ¬(state.maps.channelsOf 1).Nonempty := by
  have hrun : (run channelStep (fun _ _ => True) idleState
      [.register 1 "c" "node", .advance (.insertPeer 1 "c" "node" true),
        .disconnect 1 ["c"], .advance (.drop 1 ["c"]), .advance (.drop 1 []),
        .advance (.announce 1 "node")]).map
        (fun state => (state.calls, lastStatus 1 state.events,
          decide (state.maps.channelsOf 1).Nonempty)) = some ([], some true, false) := by
    decide +kernel
  obtain ⟨state, hstate, hvalues⟩ := map_eq_some_iff.mp hrun
  simp only [Prod.mk.injEq, decide_eq_false_iff_not] at hvalues
  exact ⟨state, reaches_of_run hstate, hvalues⟩

end SaorsaCore.Transport
