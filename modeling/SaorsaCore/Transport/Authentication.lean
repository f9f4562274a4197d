import SaorsaCore.Transport.Links
import SaorsaCore.Transport.WireMessage

/-!
# Who a channel belongs to

A node associates a peer with a channel when a message that verifies as signed by the
peer arrives on the channel.  Honest peers sign what they send.  An adversary sends
whatever it likes, except that it cannot produce a signature of an honest peer on
bytes the peer has not signed.

A signature says nothing about the channel, so a copy of an honest peer's message is
accepted on every channel.  Without copies, a peer is only associated with channels on
which it has sent a message itself.
-/

namespace SaorsaCore.Transport

open ChannelMaps Call ChannelState Option List Transition WireFormat

variable {Key Signature : Type*}

/-- The transport of this node, the messages on their way to it, the bytes honest
peers have signed, and the channels on which they have sent to this node. -/
structure World where
  transport : ChannelState
  inFlight : List (ChannelId × Bytes)
  signed : List (PeerId × Bytes)
  sent : List (PeerId × ChannelId)

inductive WorldStep
  /-- An honest peer signs a message and sends it to this node on a channel, or to
  somebody else. -/
  | honestSend (peer : PeerId) (bytes : Bytes) (channel : Option ChannelId)
  | adversarySend (channel : ChannelId) (bytes : Bytes)
  /-- A message is taken from a channel and dispatched. -/
  | receive (channel : ChannelId) (bytes : Bytes)
  /-- The other calls of the transport. -/
  | transport (action : ChannelStep)
  deriving DecidableEq, Repr

section Step

variable (format : WireFormat Key Signature) (self : PeerId) (honest : PeerId → Bool)

/-- The part of `run_shard_consumer` that records who sent a message.  Messages of the
node itself that come back are skipped. -/
def consume (transport : ChannelState) (channel : ChannelId) (bytes : Bytes) :
    Option ChannelState :=
  match format.parseProtocolMessage bytes with
  | none => some transport
  | some parsed =>
    match parsed.authenticatedNodeId with
    | none => some transport
    | some appId =>
      if appId = self then some transport
      else channelStep transport (.register appId channel parsed.userAgent)

/-- One step of the world, if it is enabled.  An honest peer signs in its own name.
A channel is only registered when a message is received. -/
def worldStep (world : World) : WorldStep → Option World
  | .honestSend peer bytes channel =>
    match format.decode bytes with
    | none => none
    | some message =>
      match format.signableBytes message.signable with
      | none => none
      | some signable =>
        if honest peer = true ∧ message.fromPeer = peer then
          some { world with
            inFlight := (channel.map fun channel => (channel, bytes)).toList ++ world.inFlight
            signed := (peer, signable) :: world.signed
            sent := (channel.map fun channel => (peer, channel)).toList ++ world.sent }
        else none
  | .adversarySend channel bytes =>
    some { world with inFlight := (channel, bytes) :: world.inFlight }
  | .receive channel bytes =>
    if (channel, bytes) ∈ world.inFlight then
      (consume format self world.transport channel bytes).map fun transport =>
        { world with transport := transport }
    else none
  | .transport (.register _ _ _) => none
  | .transport action =>
    (channelStep world.transport action).map fun transport =>
      { world with transport := transport }

/-- Signatures are ideal: if the signature of a message verifies under the key of an honest
peer, then it was made by the peer on the same bytes. -/
def Ideal (world : World) : WorldStep → Prop
  | .adversarySend _ bytes => ∀ message key signable signature,
    format.decode bytes = some message →
    format.publicKeyFromBytes message.publicKey = some key →
    format.signableBytes message.signable = some signable →
    format.signatureFromBytes message.signature = some signature →
    format.mlDsaVerify key signable signature = some true →
    honest (format.peerIdFromPublicKey key) = true →
      (format.peerIdFromPublicKey key, signable) ∈ world.signed
  | _ => True

/-- The adversary sends no message that verifies as what an honest peer has signed, unless
the peer has itself sent on the same channel. -/
def NoReplay (world : World) : WorldStep → Prop
  | .adversarySend channel bytes => ∀ message signable peer,
    format.decode bytes = some message →
    format.signableBytes message.signable = some signable →
    (peer, signable) ∈ world.signed → format.verifyMessageSignature message = .ok peer →
      (peer, channel) ∈ world.sent
  | _ => True

end Step

/-! ## Associations -/

/-- The peer is associated with the channel in one of the two maps, or a call in
progress is about to. -/
def ChannelState.Associates (state : ChannelState) (peer : PeerId) (channel : ChannelId) : Prop :=
  channel ∈ state.maps.channelsOf peer ∨ peer ∈ state.maps.peersOf channel ∨ ∃ userAgent isNewPeer,
      Call.insertPeer peer channel userAgent isNewPeer ∈ state.calls

namespace ChannelState.Associates

variable {state next : ChannelState} {peer : PeerId} {channel : ChannelId}

/-- A step that enters nothing and begins no registration. -/
theorem of_subset (hchannels : next.maps.channelsOf peer ⊆ state.maps.channelsOf peer)
    (hpeers : next.maps.peersOf channel ⊆ state.maps.peersOf channel)
    (hcalls : ∀ userAgent isNewPeer, Call.insertPeer peer channel userAgent isNewPeer ∈ next.calls →
        Call.insertPeer peer channel userAgent isNewPeer ∈ state.calls)
    (hassociates : next.Associates peer channel) :
    state.Associates peer channel := by
  rcases hassociates with hforward | hbackward | ⟨userAgent, isNewPeer, hcall⟩
  · exact Or.inl (hchannels hforward)
  · exact Or.inr (Or.inl (hpeers hbackward))
  · exact Or.inr (Or.inr ⟨userAgent, isNewPeer, hcalls _ _ hcall⟩)

theorem of_register {target : PeerId} {entered : ChannelId} {userAgent : String}
    (hstep : channelStep state (.register target entered userAgent) = some next)
    (hassociates : next.Associates peer channel) :
    state.Associates peer channel ∨ (peer = target ∧ channel = entered) := by
  injection hstep with hnext
  subst hnext
  rcases hassociates with hforward | hbackward | ⟨agent, isNewPeer, hcall⟩
  · rw [channelsOf_insertChannel] at hforward
    split at hforward
    · next hsame =>
        rcases Finset.mem_insert.mp hforward with rfl | hold
        · exact Or.inr ⟨hsame, rfl⟩
        · exact Or.inl (Or.inl (hsame ▸ hold))
    · exact Or.inl (Or.inl hforward)
  · rw [peersOf_insertChannel] at hbackward
    exact Or.inl (Or.inr (Or.inl hbackward))
  · rcases mem_append.mp hcall with hbegun | hold
    · split at hbegun
      · cases mem_singleton.mp hbegun
        exact Or.inr ⟨rfl, rfl⟩
      · cases hbegun
    · exact Or.inl (Or.inr (Or.inr ⟨agent, isNewPeer, hold⟩))

/-- No call in progress leads to a registration. -/
theorem insertPeer_not_mem_rest (maps : ChannelMaps) (call : Call)
    (userAgent : String) (isNewPeer : Bool) :
    Call.insertPeer peer channel userAgent isNewPeer ∉ (call.advance maps).rest := by
  cases call with
  | insertPeer target entered agent isNew => cases isNew <;> simp [Call.advance]
  | announce target agent => simp [Call.advance]
  | scrub target remaining =>
    cases remaining with
    | nil => simp [Call.advance]
    | cons scrubbed remaining =>
      rw [Call.advance]
      cases (maps.scrubChannel scrubbed target).2 <;> simp
  | announceEmpty target scrubbed remaining => simp [Call.advance]
  | drop target remaining => cases remaining <;> simp [Call.advance]

theorem of_advance {call : Call} (hcall : call ∈ state.calls)
    (hassociates : (state.advance call).Associates peer channel) :
    state.Associates peer channel := by
  have hcalls : ∀ userAgent isNewPeer, Call.insertPeer peer channel userAgent isNewPeer ∈
          (state.advance call).calls →
        Call.insertPeer peer channel userAgent isNewPeer ∈ state.calls := by
    intro userAgent isNewPeer hmem
    rcases mem_append.mp hmem with hrest | hold
    · exact absurd hrest (insertPeer_not_mem_rest _ _ _ _)
    · exact mem_of_mem_erase hold
  have hquiet (hmaps : (state.advance call).maps = state.maps) : state.Associates peer channel :=
    of_subset (by rw [hmaps]) (by rw [hmaps]) hcalls hassociates
  cases call with
  | insertPeer target entered agent isNew =>
    rcases hassociates with hforward | hbackward | ⟨userAgent, isNewPeer, hmem⟩
    · exact Or.inl hforward
    · simp only [ChannelState.advance, Call.advance, ChannelMaps.peersOf_insertPeer] at hbackward
      split at hbackward
      · next hsame =>
          rcases Finset.mem_insert.mp hbackward with rfl | hold
          · exact Or.inr (Or.inr ⟨agent, isNew, hsame ▸ hcall⟩)
          · exact Or.inr (Or.inl (hsame ▸ hold))
      · exact Or.inr (Or.inl hbackward)
    · exact Or.inr (Or.inr ⟨userAgent, isNewPeer, hcalls _ _ hmem⟩)
  | announce target agent => exact hquiet rfl
  | scrub target remaining =>
    cases remaining with
    | nil => exact hquiet rfl
    | cons scrubbed remaining =>
      refine of_subset ?_ ?_ hcalls hassociates
      · simp only [ChannelState.advance, Call.advance, ChannelMaps.channelsOf_scrubChannel]
        split
        · next hsame =>
            rw [hsame]
            exact Finset.erase_subset _ _
        · exact Finset.Subset.refl _
      · simp only [ChannelState.advance, Call.advance, ChannelMaps.peersOf_scrubChannel]
        exact Finset.Subset.refl _
  | announceEmpty target scrubbed remaining => exact hquiet rfl
  | drop target remaining =>
    cases remaining with
    | nil => exact hquiet rfl
    | cons dropped remaining =>
      refine of_subset ?_ ?_ hcalls hassociates
      · simp only [ChannelState.advance, Call.advance, ChannelMaps.channelsOf_dropPeer]
        exact Finset.Subset.refl _
      · simp only [ChannelState.advance, Call.advance, ChannelMaps.peersOf_dropPeer]
        split
        · next hsame =>
            rw [hsame]
            exact Finset.erase_subset _ _
        · exact Finset.Subset.refl _

end ChannelState.Associates

/-- Only a registration brings a new association. -/
theorem channelStep_associates {state next : ChannelState} {action : ChannelStep}
    {peer : PeerId} {channel : ChannelId}
    (hstep : channelStep state action = some next)
    (hassociates : next.Associates peer channel) :
    state.Associates peer channel ∨ ∃ userAgent, action = .register peer channel userAgent := by
  cases action with
  | register target entered userAgent =>
    rcases ChannelState.Associates.of_register hstep hassociates with
      hold | ⟨rfl, rfl⟩
    · exact Or.inl hold
    · exact Or.inr ⟨userAgent, rfl⟩
  | remove removed visits =>
    rcases channelStep_remove hstep with rfl | ⟨peers, -, -, rfl⟩
    · exact .inl hassociates
    · refine .inl (ChannelState.Associates.of_subset ?_ ?_ ?_ hassociates)
      · exact Finset.Subset.refl (state.maps.channelsOf peer)
      · rw [peersOf_removeChannel]
        split
        · exact Finset.empty_subset _
        · exact Finset.Subset.refl _
      · simp
  | disconnect target visits =>
    rcases channelStep_disconnect hstep with rfl | ⟨channels, -, -, rfl⟩
    · exact .inl hassociates
    · refine .inl (ChannelState.Associates.of_subset ?_ ?_ ?_ hassociates)
      · rw [channelsOf_removePeer]
        split
        · exact Finset.empty_subset _
        · exact Finset.Subset.refl _
      · exact Finset.Subset.refl (state.maps.peersOf channel)
      · simp
  | advance call =>
    obtain ⟨hcall, rfl⟩ := channelStep_advance hstep
    exact .inl (hassociates.of_advance hcall)

/-! ## Runs without copies -/

/-- Every association of an honest peer, and every message on its way that would
bring one, goes back to a message the peer sent on the channel. -/
structure World.Attributed (format : WireFormat Key Signature)
    (honest : PeerId → Bool) (world : World) : Prop where
  associations : ∀ peer channel, honest peer = true →
    world.transport.Associates peer channel → (peer, channel) ∈ world.sent
  messages : ∀ channel bytes message peer, (channel, bytes) ∈ world.inFlight →
    format.decode bytes = some message →
    format.verifyMessageSignature message = .ok peer → honest peer = true →
      (peer, channel) ∈ world.sent

def World.initial : World := ⟨idleState, [], [], []⟩

section Attribution

variable {format : WireFormat Key Signature} {self : PeerId}
  {honest : PeerId → Bool} {world next : World}

theorem World.Attributed.initial : World.initial.Attributed format honest where
  associations peer channel _ hassociates := by
    simp [World.initial, idleState, ChannelState.Associates, empty,
      channelsOf, peersOf] at hassociates
  messages channel bytes message peer hmem := by
    cases hmem

variable {bytes : Bytes}

section

variable (hattributed : world.Attributed format honest)
include hattributed

theorem World.Attributed.honestSend
    {peer : PeerId} {channel : Option ChannelId}
    (hstep : worldStep format self honest world (.honestSend peer bytes channel) =
      some next) : next.Attributed format honest := by
  rw [worldStep] at hstep
  split at hstep
  · cases hstep
  · next message hdecode =>
      split at hstep
      · cases hstep
      · split at hstep
        · next hhonest =>
            cases hstep
            refine ⟨fun other target hother hassociates => ?_,
              fun target sentBytes sentMessage other hmem hsent hverified hother => ?_⟩
            · exact mem_append_right _ (hattributed.associations other target hother hassociates)
            · rcases mem_append.mp hmem with hnew | hold
              · obtain ⟨_, hchannel, hpair⟩ := map_eq_some_iff.mp (mem_toList.mp hnew)
                cases hpair
                rw [hdecode] at hsent
                cases hsent
                obtain ⟨_, _, _, -, -, hfrom, -⟩ :=
                  verifyMessageSignature_eq_ok hverified
                refine mem_append_left _ ?_
                rw [← hfrom, hhonest.2, hchannel]
                exact mem_singleton_self _
              · exact mem_append_right _ (hattributed.messages _ _ _ _ hold hsent hverified hother)
        · cases hstep

theorem World.Attributed.adversarySend
    {channel : ChannelId} (hideal : Ideal format honest world (.adversarySend channel bytes))
    (hnoreplay : NoReplay format world (.adversarySend channel bytes))
    (hstep : worldStep format self honest world (.adversarySend channel bytes) =
      some next) : next.Attributed format honest := by
  cases hstep
  refine ⟨hattributed.associations,
    fun target sentBytes message peer hmem hdecode hverified hhonest => ?_⟩
  rcases mem_cons.mp hmem with hnew | hold
  · cases hnew
    -- What verifies was signed by the peer, so it is a copy.
    obtain ⟨key, signable, signature, hkey, rfl, -, hsignable, hsignature, hverify⟩ :=
      verifyMessageSignature_eq_ok hverified
    have hsigned := hideal message key signable signature hdecode hkey hsignable hsignature
      hverify hhonest
    exact hnoreplay message signable _ hdecode hsignable hsigned hverified
  · exact hattributed.messages _ _ _ _ hold hdecode hverified hhonest

theorem World.Attributed.receive
    {channel : ChannelId}
    (hstep : worldStep format self honest world (.receive channel bytes) =
      some next) : next.Attributed format honest := by
  rw [worldStep] at hstep
  split at hstep
  · next hmem =>
      obtain ⟨transport, hconsume, rfl⟩ := map_eq_some_iff.mp hstep
      refine ⟨fun peer target hhonest hassociates => ?_, hattributed.messages⟩
      rw [consume] at hconsume
      split at hconsume
      · cases hconsume
        exact hattributed.associations peer target hhonest hassociates
      · next parsed hparse =>
          split at hconsume
          · cases hconsume
            exact hattributed.associations peer target hhonest hassociates
          · next appId hauthenticated =>
              split at hconsume
              · cases hconsume
                exact hattributed.associations peer target hhonest hassociates
              · rcases channelStep_associates hconsume hassociates with
                  hold | ⟨userAgent, hregister⟩
                · exact hattributed.associations peer target hhonest hold
                · cases hregister
                  obtain ⟨message, hdecode, hverified⟩ :=
                    parseProtocolMessage_authenticated hparse
                      hauthenticated
                  exact hattributed.messages _ _ _ _ hmem hdecode hverified hhonest
  · cases hstep

theorem World.Attributed.transport
    {action : ChannelStep}
    (hstep : worldStep format self honest world (.transport action) = some next) :
    next.Attributed format honest := by
  have hchannel : ∃ transport, channelStep world.transport action = some transport ∧
      { world with transport := transport } = next ∧
      ∀ peer channel userAgent, action ≠ .register peer channel userAgent := by
    cases action with
    | register peer channel userAgent => cases hstep
    | remove channel visits =>
      obtain ⟨transport, htransport, hnext⟩ := map_eq_some_iff.mp hstep
      exact ⟨transport, htransport, hnext, nofun⟩
    | disconnect peer visits =>
      obtain ⟨transport, htransport, hnext⟩ := map_eq_some_iff.mp hstep
      exact ⟨transport, htransport, hnext, nofun⟩
    | advance call =>
      obtain ⟨transport, htransport, hnext⟩ := map_eq_some_iff.mp hstep
      exact ⟨transport, htransport, hnext, nofun⟩
  obtain ⟨transport, htransport, rfl, hother⟩ := hchannel
  refine ⟨fun peer channel hhonest hassociates => ?_, hattributed.messages⟩
  rcases channelStep_associates htransport hassociates with hold | ⟨userAgent, hregister⟩
  · exact hattributed.associations peer channel hhonest hold
  · exact absurd hregister (hother peer channel userAgent)

end

/-- In a run without copies, an honest peer is only associated with a channel on which
it has sent a message itself. -/
theorem association_from_sender
    (hreaches : Transition.Reaches (worldStep format self honest)
      (fun world step => Ideal format honest world step ∧ NoReplay format world step)
      World.initial world)
    {peer : PeerId} {channel : ChannelId} (hhonest : honest peer = true)
    (hassociated : channel ∈ world.transport.maps.channelsOf peer ∨
      peer ∈ world.transport.maps.peersOf channel) :
    (peer, channel) ∈ world.sent := by
  have hattributed : world.Attributed format honest := by
    apply hreaches.invariant World.Attributed.initial
    intro before step after hbefore hallowed hstep
    cases step with
    | honestSend sender bytes target => exact hbefore.honestSend hstep
    | adversarySend target bytes =>
      exact hbefore.adversarySend hallowed.1 hallowed.2 hstep
    | receive target bytes => exact hbefore.receive hstep
    | transport action => exact hbefore.transport hstep
  apply hattributed.associations peer channel hhonest
  rcases hassociated with hforward | hbackward
  · exact Or.inl hforward
  · exact Or.inr (Or.inl hbackward)

end Attribution

/-! ## A copied message -/

/-- A format with one message for each peer whose id is a byte.  Its key and its
signature are that byte. -/
def byteFormat : WireFormat PeerId PeerId where
  decode
    | [sender] => some ⟨"ping", [], BitVec.ofNat 256 sender.toNat, 0, "node", [sender],
      [sender]⟩
    | _ => none
  signableBytes fields := some [UInt8.ofNat fields.fromPeer.toNat]
  publicKeyFromBytes
    | [key] => some (BitVec.ofNat 256 key.toNat)
    | _ => none
  peerIdFromPublicKey := id
  signatureFromBytes
    | [signature] => some (BitVec.ofNat 256 signature.toNat)
    | _ => none
  mlDsaVerify key _ signature := some (signature == key)

/-- Peer `1` is honest, the node itself is peer `0`. -/
def onlyOneHonest (peer : PeerId) : Bool := peer == 1

/-- The steps an adversary does not take part in. -/
def Unopposed (_ : World) : WorldStep → Prop
  | .adversarySend _ _ => False
  | _ => True

instance (world : World) (step : WorldStep) : Decidable (Unopposed world step) :=
  match step with
  | .honestSend _ _ _ => inferInstanceAs (Decidable True)
  | .adversarySend _ _ => inferInstanceAs (Decidable False)
  | .receive _ _ => inferInstanceAs (Decidable True)
  | .transport _ => inferInstanceAs (Decidable True)

theorem Unopposed.allowed (format : WireFormat Key Signature)
    (honest : PeerId → Bool) {world : World} {step : WorldStep}
    (hunopposed : Unopposed world step) :
    Ideal format honest world step ∧ NoReplay format world step := by
  cases step with
  | adversarySend channel bytes => exact hunopposed.elim
  | honestSend peer bytes channel => exact ⟨trivial, trivial⟩
  | receive channel bytes => exact ⟨trivial, trivial⟩
  | transport action => exact ⟨trivial, trivial⟩

/-- Peer `1` has sent a message to somebody else, and the adversary has sent a copy
of it to this node. -/
def copiedWorld : World := ⟨idleState, [("a", [1])], [(1, [1])], []⟩

theorem reaches_copiedWorld : Transition.Reaches (worldStep byteFormat 0 onlyOneHonest)
      (Ideal byteFormat onlyOneHonest) World.initial copiedWorld := by
  have hsend : worldStep byteFormat 0 onlyOneHonest World.initial
      (.honestSend 1 [1] none) = some ⟨idleState, [], [(1, [1])], []⟩ := rfl
  have hcopy : worldStep byteFormat 0 onlyOneHonest ⟨idleState, [], [(1, [1])], []⟩
      (.adversarySend "a" [1]) = some copiedWorld := rfl
  refine (Transition.Reaches.refl.tail ?_ hsend).tail ?_ hcopy
  · trivial
  · intro message key signable signature hdecode hkey hsignable _ _ _
    cases hdecode
    cases hkey
    cases hsignable
    exact mem_singleton.mpr rfl

/-- The node associates peer `1` with the channel of the adversary, on which the peer
has sent nothing. -/
theorem copied_message_associates :
    ∃ world, Transition.Reaches (worldStep byteFormat 0 onlyOneHonest)
        (Ideal byteFormat onlyOneHonest) World.initial world ∧
      onlyOneHonest 1 = true ∧ "a" ∈ world.transport.maps.channelsOf 1 ∧
      1 ∈ world.transport.maps.peersOf "a" ∧ (1, "a") ∉ world.sent := by
  have hrun : (run (worldStep byteFormat 0 onlyOneHonest) Unopposed copiedWorld [.receive "a" [1],
        .transport (.advance (.insertPeer 1 "a" "node" true))]).map (fun world =>
          (decide ("a" ∈ world.transport.maps.channelsOf 1),
            decide (1 ∈ world.transport.maps.peersOf "a"),
            decide ((1, "a") ∈ world.sent))) = some (true, true, false) := by
    decide +kernel
  obtain ⟨world, hworld, hvalues⟩ := map_eq_some_iff.mp hrun
  simp only [Prod.mk.injEq, decide_eq_true_eq, decide_eq_false_iff_not] at hvalues
  have hreaches := (reaches_of_run hworld).mono fun _ _ hunopposed =>
    (hunopposed.allowed byteFormat onlyOneHonest).1
  exact ⟨world, reaches_copiedWorld.trans hreaches, rfl, hvalues⟩

/-- The peer sends the same message itself. -/
theorem sent_message_associates :
    ∃ world, Transition.Reaches (worldStep byteFormat 0 onlyOneHonest)
        (fun world step => Ideal byteFormat onlyOneHonest world step ∧
          NoReplay byteFormat world step) World.initial world ∧
      "b" ∈ world.transport.maps.channelsOf 1 ∧ (1, "b") ∈ world.sent := by
  have hrun : (run (worldStep byteFormat 0 onlyOneHonest) Unopposed
      World.initial [.honestSend 1 [1] (some "b"), .receive "b" [1]]).map
        (fun world => decide ("b" ∈ world.transport.maps.channelsOf 1)) = some true := by
    decide +kernel
  obtain ⟨world, hworld, hvalue⟩ := map_eq_some_iff.mp hrun
  have hassociated := of_decide_eq_true hvalue
  have hreaches := (reaches_of_run hworld).mono fun _ _ hunopposed =>
    hunopposed.allowed byteFormat onlyOneHonest
  exact ⟨world, hreaches, hassociated, association_from_sender hreaches rfl (Or.inl hassociated)⟩

end SaorsaCore.Transport
