import SaorsaCore.Core.Link
import SaorsaCore.Core.Transition
import SaorsaCore.Identity

/-!
# Peers and channels

The transport keeps two maps between authenticated peers and channels, and the user
agent of every connected peer.  The calls `register_authenticated_peer_channel_static`,
`remove_channel_mappings_static` and `disconnect_peer` run concurrently.  A step of the
model is one operation on an entry of a map, or the sending of one event.
-/

namespace SaorsaCore.Transport

open Option

/-- A channel is named by the socket address of its remote end. -/
abbrev ChannelId := String

/-- The events about peers that subscribers receive. -/
inductive PeerEvent
  | peerConnected (peer : PeerId) (userAgent : String)
  | peerDisconnected (peer : PeerId)
  deriving DecidableEq, Repr

/-! ## The maps -/

structure ChannelMaps where
  peerToChannel : PeerId → Option (Finset ChannelId)
  channelToPeers : ChannelId → Option (Finset PeerId)
  peerUserAgents : PeerId → Option String

namespace ChannelMaps

def empty : ChannelMaps :=
  ⟨fun _ => none, fun _ => none, fun _ => none⟩

def channelsOf (maps : ChannelMaps) (peer : PeerId) : Finset ChannelId :=
  (maps.peerToChannel peer).getD ∅

def peersOf (maps : ChannelMaps) (channel : ChannelId) : Finset PeerId :=
  (maps.channelToPeers channel).getD ∅

/-- The entry of a registered peer.  A peer without an entry is new, and its user
agent is stored under the lock of the entry.  Returns whether the channel was
inserted and whether the peer is new. -/
def insertChannel (maps : ChannelMaps) (peer : PeerId) (channel : ChannelId)
    (userAgent : String) : ChannelMaps × Bool × Bool :=
  match maps.peerToChannel peer with
  | some channels =>
    ({ maps with
      peerToChannel :=
        Function.update maps.peerToChannel peer (some (insert channel channels)) },
      decide (channel ∉ channels), false)
  | none =>
    ({ maps with
      peerToChannel := Function.update maps.peerToChannel peer (some {channel})
      peerUserAgents := Function.update maps.peerUserAgents peer (some userAgent) },
      true, true)

/-- `channel_to_peers.entry(channel).or_default().insert(peer)` -/
def insertPeer (maps : ChannelMaps) (channel : ChannelId) (peer : PeerId) : ChannelMaps :=
  { maps with
    channelToPeers := Function.update maps.channelToPeers channel
      (some (insert peer (maps.peersOf channel))) }

/-- `channel_to_peers.remove(channel)` -/
def removeChannel (maps : ChannelMaps) (channel : ChannelId) : ChannelMaps :=
  { maps with
    channelToPeers := Function.update maps.channelToPeers channel none }

/-- The removal of a peer's entry, and of its user agent under the same lock. -/
def removePeer (maps : ChannelMaps) (peer : PeerId) : ChannelMaps :=
  { maps with
    peerToChannel := Function.update maps.peerToChannel peer none
    peerUserAgents := Function.update maps.peerUserAgents peer none }

/-- Take a closed channel out of the entry of a peer.  Returns whether it was the
last one. -/
def scrubChannel (maps : ChannelMaps) (peer : PeerId) (channel : ChannelId) : ChannelMaps × Bool :=
  match maps.peerToChannel peer with
  | none => (maps, false)
  | some channels =>
    if channels.erase channel = ∅ then (maps.removePeer peer, true)
    else
      ({ maps with
        peerToChannel := Function.update maps.peerToChannel peer
          (some (channels.erase channel)) }, false)

/-- Take a disconnected peer out of the entry of a channel.  A channel without
peers loses its entry. -/
def dropPeer (maps : ChannelMaps) (channel : ChannelId) (peer : PeerId) : ChannelMaps :=
  match maps.channelToPeers channel with
  | none => maps
  | some peers =>
    { maps with
      channelToPeers := Function.update maps.channelToPeers channel
        (if peers.erase peer = ∅ then none else some (peers.erase peer)) }

end ChannelMaps

/-! ## Calls in progress -/

/-- Where a call in progress stands.  The sets it visits are listed in the order of
their iteration. -/
inductive Call
  | insertPeer (peer : PeerId) (channel : ChannelId) (userAgent : String)
      (isNewPeer : Bool)
  | announce (peer : PeerId) (userAgent : String)
  | scrub (channel : ChannelId) (remaining : List PeerId)
  | announceEmpty (channel : ChannelId) (peer : PeerId) (remaining : List PeerId)
  | drop (peer : PeerId) (remaining : List ChannelId)
  deriving DecidableEq, Repr

/-- What one step of a call leaves: the maps, the rest of the call if there is one,
and the events it sent. -/
structure Advance where
  maps : ChannelMaps
  rest : List Call
  events : List PeerEvent

def Call.advance (maps : ChannelMaps) : Call → Advance
  | .insertPeer peer channel userAgent isNewPeer =>
    ⟨maps.insertPeer channel peer, if isNewPeer then [.announce peer userAgent] else [], []⟩
  | .announce peer userAgent => ⟨maps, [], [.peerConnected peer userAgent]⟩
  | .scrub _ [] => ⟨maps, [], []⟩
  | .scrub channel (peer :: remaining) =>
    let scrubbed := maps.scrubChannel peer channel
    ⟨scrubbed.1, if scrubbed.2 then [.announceEmpty channel peer remaining]
      else [.scrub channel remaining], []⟩
  | .announceEmpty channel peer remaining =>
    ⟨maps, [.scrub channel remaining], [.peerDisconnected peer]⟩
  | .drop peer [] => ⟨maps, [], [.peerDisconnected peer]⟩
  | .drop peer (channel :: remaining) =>
    ⟨maps.dropPeer channel peer, [.drop peer remaining], []⟩

structure ChannelState where
  maps : ChannelMaps
  calls : List Call
  events : List PeerEvent

/-- A call in progress goes on. -/
def ChannelState.advance (state : ChannelState) (call : Call) : ChannelState :=
  let next := call.advance state.maps
  { maps := next.maps
    calls := next.rest ++ state.calls.erase call
    events := state.events ++ next.events }

/-- A call begins with its first operation, or a call in progress goes on.  The
order in which a call will visit a set is part of the step. -/
inductive ChannelStep
  | register (peer : PeerId) (channel : ChannelId) (userAgent : String)
  | remove (channel : ChannelId) (visits : List PeerId)
  | disconnect (peer : PeerId) (visits : List ChannelId)
  | advance (call : Call)
  deriving DecidableEq, Repr

/-- `visits` lists the members of a set, each once. -/
def Visits {A : Type*} [DecidableEq A] (visits : List A) (members : Finset A) : Prop :=
  visits.Nodup ∧ visits.toFinset = members

instance {A : Type*} [DecidableEq A] (visits : List A) (members : Finset A) :
    Decidable (Visits visits members) :=
  inferInstanceAs (Decidable (_ ∧ _))

/-- One step of the transport, if it is enabled. -/
def channelStep (state : ChannelState) : ChannelStep → Option ChannelState
  | .register peer channel userAgent =>
    let entry := state.maps.insertChannel peer channel userAgent
    let calls := if entry.2.1 then
        [.insertPeer peer channel userAgent entry.2.2] else []
    some { state with
      maps := entry.1
      calls := calls ++ state.calls }
  | .remove channel visits =>
    match state.maps.channelToPeers channel with
    | none => some state
    | some peers =>
      if Visits visits peers then
        some { state with
          maps := state.maps.removeChannel channel
          calls := .scrub channel visits :: state.calls }
      else none
  | .disconnect peer visits =>
    match state.maps.peerToChannel peer with
    | none => some state
    | some channels =>
      if Visits visits channels then
        some { state with
          maps := state.maps.removePeer peer
          calls := .drop peer visits :: state.calls }
      else none
  | .advance call =>
    if call ∈ state.calls then some (state.advance call) else none

section Inversion

variable {state next : ChannelState} {peer : PeerId} {channel : ChannelId}

theorem channelStep_remove {visits : List PeerId}
    (hstep : channelStep state (.remove channel visits) = some next) :
    next = state ∨ ∃ peers, state.maps.channelToPeers channel = some peers ∧
      Visits visits peers ∧ next = { state with
        maps := state.maps.removeChannel channel
        calls := .scrub channel visits :: state.calls } := by
  rw [channelStep] at hstep
  split at hstep
  · exact .inl (some.inj hstep).symm
  · next peers hentry =>
      rw [ite_none_right_eq_some, some.injEq] at hstep
      exact .inr ⟨peers, hentry, hstep.1, hstep.2.symm⟩

theorem channelStep_disconnect {visits : List ChannelId}
    (hstep : channelStep state (.disconnect peer visits) = some next) :
    next = state ∨ ∃ channels, state.maps.peerToChannel peer = some channels ∧
      Visits visits channels ∧ next = { state with
        maps := state.maps.removePeer peer
        calls := .drop peer visits :: state.calls } := by
  rw [channelStep] at hstep
  split at hstep
  · exact .inl (some.inj hstep).symm
  · next channels hentry =>
      rw [ite_none_right_eq_some, some.injEq] at hstep
      exact .inr ⟨channels, hentry, hstep.1, hstep.2.symm⟩

theorem channelStep_advance {call : Call} (hstep : channelStep state (.advance call) = some next) :
    call ∈ state.calls ∧ next = state.advance call := by
  rw [channelStep, ite_none_right_eq_some, some.injEq] at hstep
  exact ⟨hstep.1, hstep.2.symm⟩

end Inversion

end SaorsaCore.Transport
