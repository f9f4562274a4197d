import SaorsaCore.Transport.Channels

/-!
# The two maps are inverse

Every step of the transport acts on the records of one pair of a peer and a channel
as a step of a `Link`, provided that a registration of the pair does not overlap with
a removal of it.  So the two maps are inverse whenever no call is in progress.
-/

namespace SaorsaCore.Transport

open ChannelState ChannelMaps Function Transition Option List

namespace ChannelMaps

variable (maps : ChannelMaps) (peer other : PeerId) (channel target : ChannelId)
  (userAgent : String)

/-! ## What an operation does to the maps -/

@[simp]
theorem channelsOf_insertChannel : (maps.insertChannel peer channel userAgent).1.channelsOf other =
      if other = peer then insert channel (maps.channelsOf peer)
      else maps.channelsOf other := by
  rw [insertChannel]
  split
  · next channels hentry =>
      simp only [channelsOf, update_apply]
      split
      · rw [hentry, getD_some, getD_some]
      · rfl
  · next hentry =>
      simp only [channelsOf, update_apply]
      split
      · rw [hentry]
        rfl
      · rfl

theorem channelToPeers_insertChannel :
    (maps.insertChannel peer channel userAgent).1.channelToPeers = maps.channelToPeers := by
  rw [insertChannel]
  split <;> rfl

@[simp]
theorem peersOf_insertChannel : (maps.insertChannel peer channel userAgent).1.peersOf target =
      maps.peersOf target := by
  rw [peersOf, channelToPeers_insertChannel, ← peersOf]

variable {maps peer channel userAgent} in
theorem inserted_iff : (maps.insertChannel peer channel userAgent).2.1 = true ↔
      channel ∉ maps.channelsOf peer := by
  rw [insertChannel, channelsOf]
  split
  · next channels hentry => simp [hentry]
  · next hentry => simp [hentry]

@[simp]
theorem peersOf_insertPeer : (maps.insertPeer channel peer).peersOf target =
      if target = channel then insert peer (maps.peersOf channel)
      else maps.peersOf target := by
  simp only [insertPeer, peersOf, update_apply]
  split <;> rfl

@[simp]
theorem peersOf_removeChannel : (maps.removeChannel channel).peersOf target =
      if target = channel then ∅ else maps.peersOf target := by
  simp only [removeChannel, peersOf, update_apply]
  split <;> rfl

@[simp]
theorem channelsOf_removePeer : (maps.removePeer peer).channelsOf other =
      if other = peer then ∅ else maps.channelsOf other := by
  simp only [removePeer, channelsOf, update_apply]
  split <;> rfl

@[simp]
theorem channelsOf_scrubChannel : (maps.scrubChannel peer channel).1.channelsOf other =
      if other = peer then (maps.channelsOf peer).erase channel
      else maps.channelsOf other := by
  rw [scrubChannel]
  split
  · next hentry =>
      split
      · next hsame => simp [hsame, channelsOf, hentry]
      · rfl
  · next channels hentry =>
      have hchannels : maps.channelsOf peer = channels := by simp [channelsOf, hentry]
      split
      · next hlast => rw [channelsOf_removePeer, hchannels, hlast]
      · simp only [channelsOf, update_apply, hentry]
        split <;> rfl

theorem channelToPeers_scrubChannel :
    (maps.scrubChannel peer channel).1.channelToPeers = maps.channelToPeers := by
  rw [scrubChannel]
  split
  · rfl
  · split <;> rfl

@[simp]
theorem peersOf_scrubChannel :
    (maps.scrubChannel peer channel).1.peersOf target = maps.peersOf target := by
  rw [peersOf, channelToPeers_scrubChannel, ← peersOf]

@[simp]
theorem peersOf_dropPeer : (maps.dropPeer channel peer).peersOf target =
      if target = channel then (maps.peersOf channel).erase peer
      else maps.peersOf target := by
  rw [dropPeer]
  split
  · next hentry =>
      split
      · next hsame => simp [hsame, peersOf, hentry]
      · rfl
  · next peers hentry =>
      simp only [peersOf, update_apply, hentry]
      split
      · split
        · next hlast => rw [getD_some, hlast]; rfl
        · rfl
      · rfl

theorem peerToChannel_dropPeer :
    (maps.dropPeer channel peer).peerToChannel = maps.peerToChannel := by
  rw [dropPeer]
  split <;> rfl

@[simp]
theorem channelsOf_dropPeer :
    (maps.dropPeer channel peer).channelsOf other = maps.channelsOf other := by
  rw [channelsOf, peerToChannel_dropPeer, ← channelsOf]

end ChannelMaps

/-! ## What calls still owe to a pair -/

namespace Call

/-- The call has still to enter the peer under the channel. -/
def entering (peer : PeerId) (channel : ChannelId) : Call → ℕ
  | .insertPeer entered target _ _ => if entered = peer ∧ target = channel then 1 else 0
  | _ => 0

/-- The call has still to drop the peer from the channel. -/
def leaving (peer : PeerId) (channel : ChannelId) : Call → ℕ
  | .drop dropped remaining => if dropped = peer then remaining.count channel else 0
  | _ => 0

/-- The call has still to scrub the channel from the entry of the peer. -/
def scrubbing (peer : PeerId) (channel : ChannelId) : Call → ℕ
  | .scrub target remaining => if target = channel then remaining.count peer else 0
  | .announceEmpty target _ remaining =>
    if target = channel then remaining.count peer else 0
  | _ => 0

end Call

/-- How often something is owed by the calls in progress. -/
def owed (owes : Call → ℕ) (calls : List Call) : ℕ :=
  (calls.map owes).sum

@[simp]
theorem owed_cons (owes : Call → ℕ) (call : Call) (calls : List Call) :
    owed owes (call :: calls) = owes call + owed owes calls := by
  simp [owed]

@[simp]
theorem owed_append (owes : Call → ℕ) (calls others : List Call) :
    owed owes (calls ++ others) = owed owes calls + owed owes others := by
  simp [owed]

@[simp]
theorem owed_nil (owes : Call → ℕ) : owed owes [] = 0 := rfl

theorem owed_eq_zero_iff {owes : Call → ℕ} {calls : List Call} :
    owed owes calls = 0 ↔ ∀ call ∈ calls, owes call = 0 := by
  rw [owed, sum_eq_zero_iff]
  simp

theorem owed_erase (owes : Call → ℕ) {call : Call} {calls : List Call} (hcall : call ∈ calls) :
    owed owes calls = owes call + owed owes (calls.erase call) :=
  (sum_map_erase owes hcall).symm

theorem Visits.count {A : Type*} [DecidableEq A] {visits : List A}
    {members : Finset A} (hvisits : Visits visits members) (member : A) :
    visits.count member = if member ∈ members then 1 else 0 := by
  simp only [hvisits.1.count, ← hvisits.2, List.mem_toFinset]

/-- The records of a pair and what is owed to it. -/
def ChannelState.link (state : ChannelState) (peer : PeerId) (channel : ChannelId) : Link where
  forward := decide (channel ∈ state.maps.channelsOf peer)
  backward := decide (peer ∈ state.maps.peersOf channel)
  entering := owed (Call.entering peer channel) state.calls
  leaving := owed (Call.leaving peer channel) state.calls
  scrubbing := owed (Call.scrubbing peer channel) state.calls

attribute [simp] Call.entering Call.leaving Call.scrubbing ChannelState.link
  ChannelState.advance Call.advance

/-- A channel is entered for a peer only when no call has still to remove it there,
and a peer is disconnected only when no call has still to enter it under one of its
channels. -/
def Serial (state : ChannelState) : ChannelStep → Prop
  | .register peer channel _ => channel ∈ state.maps.channelsOf peer ∨
    ∀ call ∈ state.calls, call.leaving peer channel = 0 ∧ call.scrubbing peer channel = 0
  | .disconnect peer _ => ∀ channel ∈ state.maps.channelsOf peer,
    ∀ call ∈ state.calls, call.entering peer channel = 0
  | .remove _ _ => True
  | .advance _ => True

section Steps

variable {state next : ChannelState} (peer : PeerId) (channel : ChannelId)

/-- A step that leaves the records of the pair and what is owed to it. -/
theorem link_stay (hforward : channel ∈ next.maps.channelsOf peer ↔
      channel ∈ state.maps.channelsOf peer)
    (hbackward : peer ∈ next.maps.peersOf channel ↔ peer ∈ state.maps.peersOf channel)
    (hentering : owed (Call.entering peer channel) next.calls =
      owed (Call.entering peer channel) state.calls)
    (hleaving : owed (Call.leaving peer channel) next.calls =
      owed (Call.leaving peer channel) state.calls)
    (hscrubbing : owed (Call.scrubbing peer channel) next.calls =
      owed (Call.scrubbing peer channel) state.calls) :
    Link.Step (state.link peer channel) (next.link peer channel) := by
  have hsame : next.link peer channel = state.link peer channel :=
    Link.ext (decide_eq_decide.mpr hforward) (decide_eq_decide.mpr hbackward)
      hentering hleaving hscrubbing
  exact Link.Step.stay hsame

variable {target : PeerId}

theorem link_register {entered : ChannelId} {userAgent : String}
    (hserial : Serial state (.register target entered userAgent))
    (hstep : channelStep state (.register target entered userAgent) = some next) :
    Link.Step (state.link peer channel) (next.link peer channel) := by
  injection hstep with hnext
  subst hnext
  by_cases hpresent : entered ∈ state.maps.channelsOf target
  · -- A channel that is already there is not entered again.
    rw [if_neg fun hinserted => inserted_iff.mp hinserted hpresent]
    apply link_stay
    · rw [channelsOf_insertChannel, Finset.insert_eq_of_mem hpresent]
      split
      · next hsame => rw [hsame]
      · rfl
    · rw [peersOf_insertChannel]
    · rfl
    · rfl
    · rfl
  · rw [if_pos (inserted_iff.mpr hpresent)]
    by_cases hpair : target = peer ∧ entered = channel
    · obtain ⟨rfl, rfl⟩ := hpair
      obtain ⟨hleaving, hscrubbing⟩ :=
        forall₂_and.mp (hserial.resolve_left hpresent)
      refine Link.Step.enter (decide_eq_false hpresent)
        (owed_eq_zero_iff.mpr hleaving) (owed_eq_zero_iff.mpr hscrubbing)
        (Link.ext ?_ ?_ ?_ ?_ ?_)
      all_goals simp [Nat.add_comm]
    · apply link_stay
      · rw [channelsOf_insertChannel]
        grind
      all_goals simp [hpair]

theorem link_remove {removed : ChannelId} {visits : List PeerId}
    (hstep : channelStep state (.remove removed visits) = some next) :
    Link.Step (state.link peer channel) (next.link peer channel) := by
  rcases channelStep_remove hstep with rfl | ⟨peers, hentry, hvisits, rfl⟩
  · exact Link.Step.stay rfl
  have hpeers : state.maps.peersOf removed = peers := by
    rw [peersOf, hentry]
    rfl
  by_cases hpair : removed = channel ∧ peer ∈ peers
  · obtain ⟨rfl, hmem⟩ := hpair
    refine Link.Step.scrub (decide_eq_true (hpeers ▸ hmem)) (Link.ext rfl ?_ ?_ ?_ ?_)
    all_goals simp [hvisits.count, hmem, Nat.add_comm]
  · apply link_stay
    · rfl
    · rw [peersOf_removeChannel]
      grind
    all_goals simp [hvisits.count]
    exact not_and.mp hpair

theorem link_disconnect {visits : List ChannelId}
    (hserial : Serial state (.disconnect target visits))
    (hstep : channelStep state (.disconnect target visits) = some next) :
    Link.Step (state.link peer channel) (next.link peer channel) := by
  rcases channelStep_disconnect hstep with rfl | ⟨channels, hentry, hvisits, rfl⟩
  · exact Link.Step.stay rfl
  have hchannels : state.maps.channelsOf target = channels := by
    rw [channelsOf, hentry]
    rfl
  by_cases hpair : target = peer ∧ channel ∈ channels
  · obtain ⟨rfl, hmem⟩ := hpair
    have hpresent : channel ∈ state.maps.channelsOf target := hchannels ▸ hmem
    refine Link.Step.leave (decide_eq_true hpresent)
      (owed_eq_zero_iff.mpr (hserial channel hpresent)) (Link.ext ?_ rfl ?_ ?_ ?_)
    all_goals simp [hvisits.count, hmem, Nat.add_comm]
  · apply link_stay
    · rw [channelsOf_removePeer]
      grind
    · rfl
    all_goals simp [hvisits.count]
    exact not_and.mp hpair

theorem link_advance_insertPeer {entered : ChannelId} {userAgent : String} {isNewPeer : Bool}
    (hcall : Call.insertPeer target entered userAgent isNewPeer ∈ state.calls) :
    Link.Step (state.link peer channel)
      ((state.advance (.insertPeer target entered userAgent isNewPeer)).link peer
        channel) := by
  have hcalls := fun owes => owed_erase owes hcall
  by_cases hpair : target = peer ∧ entered = channel
  · obtain ⟨rfl, rfl⟩ := hpair
    refine Link.Step.entered ?_ (Link.ext rfl ?_ rfl ?_ ?_)
    all_goals cases isNewPeer <;> simp [hcalls, Nat.add_comm]
  · apply link_stay
    · rfl
    · rw [advance, Call.advance, peersOf_insertPeer]
      grind
    all_goals cases isNewPeer <;> simp [hcalls, hpair]

/-- Whether or not the peer lost its last channel, the call goes on with the other
peers. -/
theorem owed_advance_scrub (maps : ChannelMaps) (target : ChannelId)
    (scrubbed : PeerId) (remaining : List PeerId) :
    let rest := (Call.advance maps (.scrub target (scrubbed :: remaining))).rest
    owed (Call.entering peer channel) rest = 0 ∧ owed (Call.leaving peer channel) rest = 0 ∧
      owed (Call.scrubbing peer channel) rest =
        if target = channel then remaining.count peer else 0 := by
  rw [Call.advance]
  cases (maps.scrubChannel scrubbed target).2 <;> exact ⟨rfl, rfl, rfl⟩

theorem link_advance_scrub {target : ChannelId} {scrubbed : PeerId}
    {remaining : List PeerId}
    (hcall : Call.scrub target (scrubbed :: remaining) ∈ state.calls) :
    Link.Step (state.link peer channel)
      ((state.advance (.scrub target (scrubbed :: remaining))).link peer
        channel) := by
  have hcalls := fun owes => owed_erase owes hcall
  have howes : (Call.scrub target (scrubbed :: remaining)).scrubbing peer channel =
      if target = channel then (scrubbed :: remaining).count peer else 0 := rfl
  obtain ⟨hentering, hleaving, hscrubbing⟩ :=
    owed_advance_scrub peer channel state.maps target scrubbed remaining
  by_cases hpair : scrubbed = peer ∧ target = channel
  · obtain ⟨rfl, rfl⟩ := hpair
    refine Link.Step.scrubbed ?_ (Link.ext ?_ ?_ ?_ ?_ rfl)
    · simp only [link, advance, owed_append, hscrubbing, hcalls, howes, if_true, count_cons_self]
      omega
    · simp
    · simp
    · simp only [link, advance, owed_append, hentering, hcalls, Call.entering]
    · simp only [link, advance, owed_append, hleaving, hcalls, Call.leaving]
  · apply link_stay
    · rw [advance, Call.advance, channelsOf_scrubChannel]
      grind
    · rw [advance, Call.advance, peersOf_scrubChannel]
    · simp only [advance, owed_append, hentering, hcalls, Call.entering]
    · simp only [advance, owed_append, hleaving, hcalls, Call.leaving]
    · rw [advance, owed_append, hscrubbing, hcalls, howes, count_cons]
      grind

theorem link_advance_drop {dropped : ChannelId} {remaining : List ChannelId}
    (hcall : Call.drop target (dropped :: remaining) ∈ state.calls) :
    Link.Step (state.link peer channel)
      ((state.advance (.drop target (dropped :: remaining))).link peer channel) := by
  have hcalls := fun owes => owed_erase owes hcall
  by_cases hpair : target = peer ∧ dropped = channel
  · obtain ⟨rfl, rfl⟩ := hpair
    refine Link.Step.left ?_ (Link.ext ?_ ?_ ?_ rfl ?_)
    · simp only [link, advance, hcalls, Call.advance,
        Call.leaving, owed_append, owed_cons, owed_nil, if_true,
        count_cons_self]
      omega
    all_goals simp [hcalls]
  · apply link_stay
    · rw [advance, Call.advance, channelsOf_dropPeer]
    · rw [advance, Call.advance, peersOf_dropPeer]
      grind
    · simp [hcalls]
    · simp only [advance, hcalls, Call.advance, Call.leaving,
        owed_append, owed_cons, owed_nil, count_cons]
      grind
    · simp [hcalls]

/-- A call that sends an event or returns owes afterwards what it owed before. -/
theorem link_advance_quiet {call : Call} (hcall : call ∈ state.calls)
    (hmaps : (call.advance state.maps).maps = state.maps)
    (hentering : owed (Call.entering peer channel) (call.advance state.maps).rest =
      call.entering peer channel)
    (hleaving : owed (Call.leaving peer channel) (call.advance state.maps).rest =
      call.leaving peer channel)
    (hscrubbing : owed (Call.scrubbing peer channel) (call.advance state.maps).rest =
      call.scrubbing peer channel) :
    Link.Step (state.link peer channel) ((state.advance call).link peer channel) := by
  apply link_stay
  · rw [advance, hmaps]
  · rw [advance, hmaps]
  · rw [advance, owed_append, hentering, owed_erase _ hcall]
  · rw [advance, owed_append, hleaving, owed_erase _ hcall]
  · rw [advance, owed_append, hscrubbing, owed_erase _ hcall]

/-- Every step acts on every pair as a step of its link. -/
theorem channelStep_link {action : ChannelStep} (hserial : Serial state action)
    (hstep : channelStep state action = some next) :
    Link.Step (state.link peer channel) (next.link peer channel) := by
  cases action with
  | register target entered userAgent => exact link_register _ _ hserial hstep
  | remove removed visits => exact link_remove _ _ hstep
  | disconnect target visits => exact link_disconnect _ _ hserial hstep
  | advance call =>
    obtain ⟨hcall, rfl⟩ := channelStep_advance hstep
    cases call with
    | insertPeer target entered userAgent isNewPeer =>
      exact link_advance_insertPeer _ _ hcall
    | announce target userAgent => exact link_advance_quiet _ _ hcall rfl rfl rfl rfl
    | scrub target remaining =>
      cases remaining with
      | nil =>
        apply link_advance_quiet _ _ hcall rfl rfl rfl
        simp
      | cons scrubbed remaining => exact link_advance_scrub _ _ hcall
    | announceEmpty target scrubbed remaining =>
      exact link_advance_quiet _ _ hcall rfl rfl rfl rfl
    | drop target remaining =>
      cases remaining with
      | nil =>
        apply link_advance_quiet _ _ hcall rfl rfl
        · simp
        · rfl
      | cons dropped remaining => exact link_advance_drop _ _ hcall

end Steps

/-! ## Sets and user agents -/

/-- No stored set is empty, and the peers with an entry are those with a user
agent. -/
structure ChannelMaps.Tidy (maps : ChannelMaps) : Prop where
  channels : ∀ peer, maps.peerToChannel peer ≠ some ∅
  peers : ∀ channel, maps.channelToPeers channel ≠ some ∅
  agents : ∀ peer, (maps.peerUserAgents peer).isSome = (maps.peerToChannel peer).isSome

namespace ChannelMaps.Tidy

variable {maps : ChannelMaps}

variable (htidy : maps.Tidy)
include htidy

theorem insertChannel (peer : PeerId) (channel : ChannelId)
    (userAgent : String) : (maps.insertChannel peer channel userAgent).1.Tidy := by
  rw [ChannelMaps.insertChannel]
  split
  · next channels hentry =>
      refine ⟨fun other => ?_, htidy.peers, fun other => ?_⟩
      · simp only [update_apply]
        split
        · simp
        · exact htidy.channels other
      · simp only [update_apply, htidy.agents]
        split
        · next hsame => simp [hsame, hentry]
        · rfl
  · refine ⟨fun other => ?_, htidy.peers, fun other => ?_⟩
    · simp only [update_apply]
      split
      · simp
      · exact htidy.channels other
    · simp only [update_apply]
      split
      · rfl
      · exact htidy.agents other

theorem insertPeer (channel : ChannelId) (peer : PeerId) : (maps.insertPeer channel peer).Tidy := by
  refine ⟨htidy.channels, fun target => ?_, htidy.agents⟩
  simp only [ChannelMaps.insertPeer, update_apply]
  split
  · simp
  · exact htidy.peers target

theorem removeChannel (channel : ChannelId) : (maps.removeChannel channel).Tidy := by
  refine ⟨htidy.channels, fun target => ?_, htidy.agents⟩
  simp only [ChannelMaps.removeChannel, update_apply]
  split
  · simp
  · exact htidy.peers target

theorem removePeer (peer : PeerId) : (maps.removePeer peer).Tidy := by
  refine ⟨fun other => ?_, htidy.peers, fun other => ?_⟩
  all_goals simp only [ChannelMaps.removePeer, update_apply]
  all_goals split
  · simp
  · exact htidy.channels other
  · rfl
  · exact htidy.agents other

theorem scrubChannel (peer : PeerId) (channel : ChannelId) :
    (maps.scrubChannel peer channel).1.Tidy := by
  rw [ChannelMaps.scrubChannel]
  split
  · exact htidy
  · next channels hentry =>
      split
      · exact htidy.removePeer peer
      · next hmore =>
          refine ⟨fun other => ?_, htidy.peers, fun other => ?_⟩
          all_goals simp only [update_apply]
          · split
            · simpa using hmore
            · exact htidy.channels other
          · rw [htidy.agents]
            split
            · next hsame => simp [hsame, hentry]
            · rfl

theorem dropPeer (channel : ChannelId) (peer : PeerId) : (maps.dropPeer channel peer).Tidy := by
  rw [ChannelMaps.dropPeer]
  split
  · exact htidy
  · refine ⟨htidy.channels, fun target => ?_, htidy.agents⟩
    simp only [update_apply]
    split
    · split
      · simp
      · next hmore => simpa using hmore
    · exact htidy.peers target

theorem advance (call : Call) : (call.advance maps).maps.Tidy := by
  cases call with
  | insertPeer peer channel userAgent isNewPeer => exact htidy.insertPeer channel peer
  | announce peer userAgent => exact htidy
  | scrub channel remaining =>
    cases remaining with
    | nil => exact htidy
    | cons peer remaining => exact htidy.scrubChannel peer channel
  | announceEmpty channel peer remaining => exact htidy
  | drop peer remaining =>
    cases remaining with
    | nil => exact htidy
    | cons channel remaining => exact htidy.dropPeer channel peer

end ChannelMaps.Tidy

variable {state : ChannelState}

theorem channelStep_tidy {next : ChannelState} {action : ChannelStep} (htidy : state.maps.Tidy)
    (hstep : channelStep state action = some next) : next.maps.Tidy := by
  cases action with
  | register peer channel userAgent =>
    cases hstep
    exact htidy.insertChannel peer channel userAgent
  | remove channel visits =>
    rcases channelStep_remove hstep with rfl | ⟨peers, -, -, rfl⟩
    · exact htidy
    · exact htidy.removeChannel channel
  | disconnect peer visits =>
    rcases channelStep_disconnect hstep with rfl | ⟨channels, -, -, rfl⟩
    · exact htidy
    · exact htidy.removePeer peer
  | advance call =>
    obtain ⟨-, rfl⟩ := channelStep_advance hstep
    exact htidy.advance call

/-! ## Runs -/

/-- The two maps are inverse, no stored set is empty, and the peers with a user agent
are those with a channel. -/
structure ChannelMaps.Inverse (maps : ChannelMaps) : Prop where
  links : ∀ peer channel, channel ∈ maps.channelsOf peer ↔ peer ∈ maps.peersOf channel
  channels : ∀ peer, maps.peerToChannel peer ≠ some ∅
  peers : ∀ channel, maps.channelToPeers channel ≠ some ∅
  agents : ∀ peer, (maps.peerUserAgents peer).isSome ↔ (maps.channelsOf peer).Nonempty

/-- Where no stored set is empty, a peer has an entry exactly if it has a channel. -/
theorem ChannelMaps.nonempty_channelsOf_iff {maps : ChannelMaps} {peer : PeerId}
    (hstored : maps.peerToChannel peer ≠ some ∅) :
    (maps.channelsOf peer).Nonempty ↔ (maps.peerToChannel peer).isSome := by
  rw [channelsOf]
  cases hentry : maps.peerToChannel peer with
  | none => simp
  | some channels =>
    rw [hentry] at hstored
    simpa [Finset.nonempty_iff_ne_empty] using hstored

theorem ChannelMaps.Inverse.tidy {maps : ChannelMaps} (hinverse : maps.Inverse) : maps.Tidy where
  channels := hinverse.channels
  peers := hinverse.peers
  agents peer := by
    rw [Bool.eq_iff_iff, hinverse.agents, nonempty_channelsOf_iff (hinverse.channels peer)]

/-- What holds between the steps of all calls. -/
structure ChannelState.Sound (state : ChannelState) : Prop where
  tidy : state.maps.Tidy
  links : ∀ peer channel, (state.link peer channel).Sound

theorem ChannelState.Sound.of_inverse (hinverse : state.maps.Inverse)
    (hidle : state.calls = []) : state.Sound where
  tidy := hinverse.tidy
  links peer channel := by
    refine ⟨?_, ?_, ?_, fun _ _ _ => ?_⟩
    · simp [link, hidle]
    · simp [link, hidle]
    · simp [link, hidle]
    · exact decide_eq_decide.mpr (hinverse.links peer channel)

theorem ChannelState.Sound.step {next : ChannelState} {action : ChannelStep}
    (hsound : state.Sound) (hserial : Serial state action)
    (hstep : channelStep state action = some next) : next.Sound where
  tidy := channelStep_tidy hsound.tidy hstep
  links peer channel :=
    (hsound.links peer channel).step (channelStep_link peer channel hserial hstep)

theorem ChannelState.Sound.inverse (hsound : state.Sound) (hfinished : state.calls = []) :
    state.maps.Inverse where
  links peer channel := by
    have hsettled := (hsound.links peer channel).settled
    simp only [link, hfinished, owed_nil, forall_true_left] at hsettled
    exact decide_eq_decide.mp hsettled
  channels := hsound.tidy.channels
  peers := hsound.tidy.peers
  agents peer := by
    rw [hsound.tidy.agents, nonempty_channelsOf_iff (hsound.tidy.channels peer)]

/-- Calls that do not overlap on a pair leave the two maps inverse once all of them
have finished. -/
theorem finished_calls_inverse {start state : ChannelState}
    (hstart : start.maps.Inverse) (hidle : start.calls = [])
    (hreaches : Transition.Reaches channelStep Serial start state)
    (hfinished : state.calls = []) : state.maps.Inverse := by
  have hsound : state.Sound :=
    hreaches.invariant (ChannelState.Sound.of_inverse hstart hidle)
      fun _ _ _ hbefore hserial hstep => hbefore.step hserial hstep
  exact hsound.inverse hfinished

/-! ## Two runs -/

def idleState : ChannelState := ⟨ChannelMaps.empty, [], []⟩

theorem idleState_inverse : idleState.maps.Inverse := by
  constructor <;> simp [idleState, empty, channelsOf, peersOf]

/-- A peer is registered on a channel, from the first step to the event. -/
def registration (peer : PeerId) (channel : ChannelId) : List ChannelStep :=
  [.register peer channel "node", .advance (.insertPeer peer channel "node" true),
    .advance (.announce peer "node")]

instance (state : ChannelState) (action : ChannelStep) : Decidable (Serial state action) :=
  match action with
  | .register _ _ _ => inferInstanceAs (Decidable (_ ∨ _))
  | .disconnect _ _ => inferInstanceAs (Decidable (∀ _ ∈ _, ∀ _ ∈ _, _ = 0))
  | .remove _ _ => inferInstanceAs (Decidable True)
  | .advance _ => inferInstanceAs (Decidable True)

/-- A disconnect that overlaps with a registration of the same peer on the same
channel leaves the channel without the peer. -/
theorem overlapping_calls_diverge :
    ∃ state, Transition.Reaches channelStep (fun _ _ => True) idleState state ∧
      state.calls = [] ∧ "c" ∈ state.maps.channelsOf 1 ∧
      1 ∉ state.maps.peersOf "c" := by
  have hrun : (run channelStep (fun _ _ => True) idleState
      (registration 1 "c" ++ [.disconnect 1 ["c"]] ++ registration 1 "c" ++
        [.advance (.drop 1 ["c"]), .advance (.drop 1 [])])).map
        (fun state => (state.calls, decide ("c" ∈ state.maps.channelsOf 1),
          decide (1 ∈ state.maps.peersOf "c"))) = some ([], true, false) := by
    decide +kernel
  obtain ⟨state, hstate, hvalues⟩ := map_eq_some_iff.mp hrun
  simp only [Prod.mk.injEq, decide_eq_true_eq, decide_eq_false_iff_not] at hvalues
  exact ⟨state, reaches_of_run hstate, hvalues⟩

/-- A registration that is over before the disconnect begins. -/
theorem ordered_calls_inverse :
    ∃ state, Transition.Reaches channelStep Serial idleState state ∧
      state.calls = [] ∧ state.maps.Inverse := by
  have hrun : (run channelStep Serial idleState
      (registration 1 "c" ++ [.disconnect 1 ["c"], .advance (.drop 1 ["c"]),
        .advance (.drop 1 [])] ++ registration 1 "c")).map
        (fun state => state.calls) = some [] := by
    decide +kernel
  obtain ⟨state, hstate, hfinished⟩ := map_eq_some_iff.mp hrun
  have hreaches := reaches_of_run hstate
  exact ⟨state, hreaches, hfinished,
    finished_calls_inverse idleState_inverse rfl hreaches hfinished⟩

end SaorsaCore.Transport
