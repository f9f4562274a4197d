import SaorsaCore.Address.SignedRecord

/-!
# The signed record of this node

The node signs its own addresses anew whenever they change and keeps the last record it
has signed.  Receivers drop a publication whose sequence does not grow, so the sequence
is taken from the clock but never falls behind the record that was kept: it grows even if
the clock goes backwards.  Signing may be randomized, so each call has a signing function
of its own.
-/

namespace SaorsaCore.Manager

open SignedAddressRecord List Option

/-- `u64::MAX` -/
def u64Max : ℕ := 2 ^ 64 - 1

/-- The public part of the identity of this node. -/
structure NodeIdentity where
  peerId : PeerId
  publicKey : List Byte

/-- What one call finds: the addresses of this node, the clock in nanoseconds since the
epoch, and the outcome of signing. -/
structure SelfSnapshot where
  records : List TransportAddressRecord
  clock : ℤ
  sign : List Byte → Option (List Byte)

def nextPublishSeq (clock : ℤ) : ℕ :=
  if 0 ≤ clock then max (min clock.toNat u64Max) 1 else 1

section Calls

variable (wire : AddressWire) (signatures : AddressSignatures) (identity : NodeIdentity)

/-- The record before it is signed. -/
def unsignedRecord (sequence : ℕ) (records : List TransportAddressRecord) : SignedAddressRecord :=
  { owner := identity.peerId
    sequence := sequence
    records := records
    publicKey := identity.publicKey
    signature := [] }

/-- `SignedAddressRecord::sign` -/
def signRecord (sign : List Byte → Option (List Byte)) (sequence : ℕ)
    (records : List TransportAddressRecord) : Except RecordError SignedAddressRecord :=
  let record := unsignedRecord identity sequence records
  match record.validate wire with
  | .error cause => .error cause
  | .ok () =>
    match signatures.signableBytes SignedAddressRecord.domain record.owner record.sequence
        record.records with
    | none => .error .encode
    | some bytes =>
      match sign bytes with
      | none => .error .signature
      | some signature => .ok { record with signature := signature }

/-- The sequence of the next record to be signed. -/
def freshSequence (cached : Option VerifiedAddressRecord) (clock : ℤ) : ℕ :=
  max (nextPublishSeq clock) (match cached with
      | none => 1
      | some proof => min (proof.sequence + 1) u64Max)

/-- `local_signed_address_record`: what is kept afterwards, and the answer. -/
def localSignedAddressRecord (cached : Option VerifiedAddressRecord) (snapshot : SelfSnapshot) :
    Option VerifiedAddressRecord × Option SignedAddressRecord :=
  if snapshot.records.isEmpty then (cached, none)
  else if cached.map VerifiedAddressRecord.records = some snapshot.records then
    (cached, cached.map VerifiedAddressRecord.signed)
  else
    match signRecord wire signatures identity snapshot.sign
        (freshSequence cached snapshot.clock) snapshot.records with
    | .error _ => (cached, none)
    | .ok record => ((record.verify wire signatures).toOption, some record)

/-- The record kept, and the records returned so far. -/
structure SelfRecords where
  cached : Option VerifiedAddressRecord
  returned : List SignedAddressRecord

def SelfRecords.step (state : SelfRecords) (snapshot : SelfSnapshot) : SelfRecords :=
  let result := localSignedAddressRecord wire signatures identity state.cached snapshot
  { cached := result.1
    returned := state.returned ++ result.2.toList }

/-- The state after a sequence of calls. -/
def selfRecords (snapshots : List SelfSnapshot) : SelfRecords :=
  snapshots.foldl (SelfRecords.step wire signatures identity)
    { cached := none, returned := [] }

/-- The answer to a call after these ones. -/
def selfAnswer (before : List SelfSnapshot) (snapshot : SelfSnapshot) :
    Option SignedAddressRecord :=
  (localSignedAddressRecord wire signatures identity
    (selfRecords wire signatures identity before).cached snapshot).2

/-- The addresses can be published: there are some, and they pass the checks. -/
def Publishable (records : List TransportAddressRecord) : Prop :=
  (unsignedRecord identity 1 records).validate wire = .ok ()

/-- Plain data can be encoded, the key signs, and what was just signed verifies. -/
structure SigningWorks (snapshots : List SelfSnapshot) : Prop where
  encodes : ∀ sequence records, (signatures.signableBytes SignedAddressRecord.domain
    identity.peerId sequence records).isSome
  signs : ∀ snapshot ∈ snapshots, ∀ bytes, (snapshot.sign bytes).isSome
  verifies : ∀ snapshot ∈ snapshots, ∀ sequence records record,
    signRecord wire signatures identity snapshot.sign sequence records = .ok record →
      ∃ proof, record.verify wire signatures = .ok proof

end Calls

variable {wire : AddressWire} {signatures : AddressSignatures} {identity : NodeIdentity}
  {snapshots before : List SelfSnapshot} {snapshot : SelfSnapshot}
  {records : List TransportAddressRecord} {record : SignedAddressRecord} {sequence : ℕ}

/-! ## One call -/

theorem nextPublishSeq_pos (clock : ℤ) : 1 ≤ nextPublishSeq clock := by
  rw [nextPublishSeq]
  split
  · exact le_max_right _ _
  · exact le_refl 1

theorem nextPublishSeq_le (clock : ℤ) : nextPublishSeq clock ≤ max clock.toNat 1 := by
  rw [nextPublishSeq]
  split
  · exact max_le_max_right 1 (min_le_left _ _)
  · exact le_max_right _ _

theorem freshSequence_pos (cached : Option VerifiedAddressRecord) (clock : ℤ) :
    1 ≤ freshSequence cached clock :=
  (nextPublishSeq_pos clock).trans (le_max_left _ _)

/-- The checks look at the sequence only to see whether it is zero. -/
theorem validate_unsignedRecord (hsequence : sequence ≠ 0) :
    (unsignedRecord identity sequence records).validate wire =
      (unsignedRecord identity 1 records).validate wire := by
  rw [validate, validate]
  apply if_congr _ rfl rfl
  change (decide (sequence = 0) || records.isEmpty ||
      decide (maxTransportAddressRecords < records.length)) = true ↔
    (decide ((1 : ℕ) = 0) || records.isEmpty ||
      decide (maxTransportAddressRecords < records.length)) = true
  simp [hsequence]

theorem signRecord_eq_ok {sign : List Byte → Option (List Byte)}
    (hsign : signRecord wire signatures identity sign sequence records = .ok record) :
    record.sequence = sequence ∧ record.records = records := by
  rw [signRecord] at hsign
  split at hsign
  · cases hsign
  · split at hsign
    · cases hsign
    · split at hsign <;> cases hsign
      exact ⟨rfl, rfl⟩

theorem SigningWorks.signRecord_ok (hworks : SigningWorks wire signatures identity snapshots)
    (hmem : snapshot ∈ snapshots) (hvalid : Publishable wire identity records)
    (hsequence : sequence ≠ 0) :
    ∃ record, signRecord wire signatures identity snapshot.sign sequence records = .ok record := by
  obtain ⟨bytes, hbytes⟩ := isSome_iff_exists.mp (hworks.encodes sequence records)
  obtain ⟨signature, hsignature⟩ :=
    isSome_iff_exists.mp (hworks.signs snapshot hmem bytes)
  have hchecked := (validate_unsignedRecord hsequence).trans hvalid
  refine ⟨{ unsignedRecord identity sequence records with signature := signature }, ?_⟩
  simp only [signRecord, hchecked]
  simp only [unsignedRecord, hbytes, hsignature]

/-- A call answers nothing and keeps its record, answers the record it has, or answers a
fresh one that it keeps. -/
theorem localSignedAddressRecord_cases (cached : Option VerifiedAddressRecord)
    (hworks : SigningWorks wire signatures identity snapshots)
    (hmem : snapshot ∈ snapshots) :
    (localSignedAddressRecord wire signatures identity cached snapshot = (cached, none) ∧
      ¬Publishable wire identity snapshot.records) ∨
    (∃ proof, cached = some proof ∧ proof.records = snapshot.records ∧
      localSignedAddressRecord wire signatures identity cached snapshot =
        (cached, some proof.signed)) ∨
    ∃ record, (∀ proof, cached = some proof → proof.records ≠ snapshot.records) ∧
      record.sequence = freshSequence cached snapshot.clock ∧
      record.records = snapshot.records ∧
      localSignedAddressRecord wire signatures identity cached snapshot =
        (some ⟨record⟩, some record) := by
  rw [localSignedAddressRecord]
  split
  · next hempty =>
      refine .inl ⟨rfl, ?_⟩
      intro hvalid
      rw [Publishable, validate, if_pos (by simp [unsignedRecord, hempty])] at hvalid
      cases hvalid
  · split
    · next hsame =>
        obtain ⟨proof, rfl, hrecords⟩ := map_eq_some_iff.mp hsame
        exact .inr (.inl ⟨proof, rfl, hrecords, rfl⟩)
    · next hchanged =>
        have hdiffers : ∀ proof, cached = some proof → proof.records ≠ snapshot.records := by
          rintro proof rfl heq
          exact hchanged (by rw [map_some, heq])
        have hsequence : freshSequence cached snapshot.clock ≠ 0 :=
          Nat.one_le_iff_ne_zero.mp (freshSequence_pos cached snapshot.clock)
        cases hsigned : signRecord wire signatures identity snapshot.sign
            (freshSequence cached snapshot.clock) snapshot.records with
        | error cause =>
          refine .inl ⟨rfl, ?_⟩
          intro hvalid
          obtain ⟨record, hrecord⟩ := hworks.signRecord_ok hmem hvalid hsequence
          rw [hsigned] at hrecord
          cases hrecord
        | ok record =>
          obtain ⟨proof, hproof⟩ := hworks.verifies snapshot hmem _ _ record hsigned
          obtain ⟨hnumber, hrecords⟩ := signRecord_eq_ok hsigned
          have hkept : proof = ⟨record⟩ := by
            rw [← (verify_eq_ok hproof).1]
          refine .inr (.inr ⟨record, hdiffers, hnumber, hrecords, ?_⟩)
          simp only [hproof, hkept, Except.toOption]

/-! ## Whole histories -/

/-- The record kept is the last one returned, no record has a higher sequence, and there
is room for as many more sequences as there may be calls. -/
structure SelfRecords.Current (room : ℕ) (state : SelfRecords) : Prop where
  cached : state.cached = state.returned.getLast?.map VerifiedAddressRecord.mk
  positive : ∀ record ∈ state.returned, 1 ≤ record.sequence
  newest : ∀ last, state.returned.getLast? = some last →
    ∀ record ∈ state.returned, record.sequence ≤ last.sequence
  bounded : ∀ record ∈ state.returned, record.sequence + room ≤ u64Max

variable {state : SelfRecords} {room : ℕ}

theorem SelfRecords.Current.freshSequence_bounds {clock : ℤ}
    (hcurrent : state.Current (room + 1)) (hclock : max clock 0 + (room + 1) < 2 ^ 64) :
    (∀ record ∈ state.returned, record.sequence < freshSequence state.cached clock) ∧
      freshSequence state.cached clock + room ≤ u64Max := by
  have hnext := nextPublishSeq_le clock
  have hmax : u64Max = 2 ^ 64 - 1 := rfl
  cases hlast : state.returned.getLast? with
  | none =>
    rw [hcurrent.cached, hlast, getLast?_eq_none_iff.mp hlast]
    simp only [freshSequence, map_none]
    exact ⟨by simp, by omega⟩
  | some last =>
    have hmem := mem_of_getLast? hlast
    have hroom := hcurrent.bounded last hmem
    have hfresh : freshSequence state.cached clock =
        max (nextPublishSeq clock) (last.sequence + 1) := by
      have hsaturated : freshSequence (some ⟨last⟩) clock =
          max (nextPublishSeq clock) (min (last.sequence + 1) u64Max) := rfl
      rw [hcurrent.cached, hlast, map_some, hsaturated]
      omega
    rw [hfresh]
    refine ⟨?_, by omega⟩
    intro record hrecord
    have hnewest := hcurrent.newest last hlast record hrecord
    omega

/-- A record that is at least as new as all others is returned and kept. -/
theorem SelfRecords.Current.append (hcurrent : state.Current (room + 1))
    (hpositive : 1 ≤ record.sequence)
    (hnewest : ∀ other ∈ state.returned, other.sequence ≤ record.sequence)
    (hbounded : record.sequence + room ≤ u64Max) :
    SelfRecords.Current room
      { cached := some ⟨record⟩, returned := state.returned ++ [record] } where
  cached := by rw [List.getLast?_concat, map_some]
  positive other hother := by
    rcases mem_append.mp hother with hold | hnew
    · exact hcurrent.positive other hold
    · rwa [mem_singleton.mp hnew]
  newest last hlast other hother := by
    rw [getLast?_concat, some.injEq] at hlast
    subst hlast
    rcases mem_append.mp hother with hold | hnew
    · exact hnewest other hold
    · rw [mem_singleton.mp hnew]
  bounded other hother := by
    rcases mem_append.mp hother with hold | hnew
    · have hroom := hcurrent.bounded other hold
      omega
    · rwa [mem_singleton.mp hnew]

theorem SelfRecords.Current.step (hworks : SigningWorks wire signatures identity snapshots)
    (hmem : snapshot ∈ snapshots) (hclock : max snapshot.clock 0 + (room + 1) < 2 ^ 64)
    (hcurrent : state.Current (room + 1)) :
    (state.step wire signatures identity snapshot).Current room := by
  rw [SelfRecords.step]
  rcases localSignedAddressRecord_cases state.cached hworks hmem with
    ⟨hresult, -⟩ | ⟨proof, hproof, -, hresult⟩ | ⟨record, -, hnumber, -, hresult⟩
  · rw [hresult]
    refine ⟨?_, ?_, ?_, ?_⟩
    · simpa using hcurrent.cached
    · simpa using hcurrent.positive
    · simpa using hcurrent.newest
    · intro record hrecord
      have hroom := hcurrent.bounded record (by simpa using hrecord)
      omega
  · -- The record kept is the last one returned.
    rw [hcurrent.cached] at hproof
    obtain ⟨last, hlast, rfl⟩ := map_eq_some_iff.mp hproof
    have hreturned := mem_of_getLast? hlast
    have hroom := hcurrent.bounded last hreturned
    rw [hresult, hcurrent.cached, hlast]
    exact hcurrent.append (hcurrent.positive last hreturned) (hcurrent.newest last hlast) (by omega)
  · obtain ⟨hgrows, hroom⟩ := hcurrent.freshSequence_bounds hclock
    rw [hresult]
    apply hcurrent.append
    · rw [hnumber]
      exact freshSequence_pos state.cached snapshot.clock
    · intro other hother
      rw [hnumber]
      exact (hgrows other hother).le
    · rwa [hnumber]

/-- After any number of calls, with room for those that are still to come. -/
theorem selfRecords_current (hworks : SigningWorks wire signatures identity snapshots)
    (hmem : ∀ snapshot ∈ before, snapshot ∈ snapshots) (hclock : ∀ snapshot ∈ before,
      max snapshot.clock 0 + (before.length + room : ℕ) < 2 ^ 64) :
    (selfRecords wire signatures identity before).Current room := by
  induction before using reverseRecOn generalizing room with
  | nil => exact ⟨rfl, by simp [selfRecords], by simp [selfRecords], by simp [selfRecords]⟩
  | append_singleton before snapshot ih =>
    have hstep : selfRecords wire signatures identity (before ++ [snapshot]) =
        (selfRecords wire signatures identity before).step wire signatures identity
          snapshot := by
      rw [selfRecords, foldl_append]
      rfl
    rw [hstep]
    rw [length_append, length_singleton] at hclock
    apply SelfRecords.Current.step hworks (hmem snapshot (by simp))
    · have hlast := hclock snapshot (by simp)
      push_cast at hlast ⊢
      omega
    · apply ih
      · intro other hother
        exact hmem other (mem_append_left _ hother)
      · intro other hother
        have hother := hclock other (mem_append_left _ hother)
        push_cast at hother ⊢
        omega

/-! ## Answers -/

/-- With publishable addresses there is an answer, whatever is kept. -/
theorem exists_answer (cached : Option VerifiedAddressRecord)
    (hworks : SigningWorks wire signatures identity snapshots)
    (hmem : snapshot ∈ snapshots) (hvalid : Publishable wire identity snapshot.records) :
    ∃ record, (localSignedAddressRecord wire signatures identity cached snapshot).2 =
      some record := by
  rcases localSignedAddressRecord_cases cached hworks hmem with
    ⟨-, hinvalid⟩ | ⟨proof, -, -, hresult⟩ | ⟨record, -, -, -, hresult⟩
  · exact absurd hvalid hinvalid
  · exact ⟨proof.signed, by rw [hresult]⟩
  · exact ⟨record, by rw [hresult]⟩

/-- What one call answers after the records returned so far. -/
theorem SelfRecords.Current.answer (hcurrent : state.Current (room + 1))
    (hworks : SigningWorks wire signatures identity snapshots) (hmem : snapshot ∈ snapshots)
    (hclock : max snapshot.clock 0 + (room + 1) < 2 ^ 64)
    (hanswer : (localSignedAddressRecord wire signatures identity state.cached
      snapshot).2 = some record) :
    record.records = snapshot.records ∧ record.sequence ≠ 0 ∧
      (state.returned.getLast?.map SignedAddressRecord.records = some snapshot.records →
        state.returned.getLast? = some record) ∧
      (state.returned.getLast?.map SignedAddressRecord.records ≠ some snapshot.records →
        ∀ earlier ∈ state.returned, earlier.sequence < record.sequence) := by
  rcases localSignedAddressRecord_cases state.cached hworks hmem with
    ⟨hresult, -⟩ | ⟨proof, hproof, hrecords, hresult⟩ |
      ⟨fresh, hdiffers, hnumber, hrecords, hresult⟩
  · rw [hresult] at hanswer
    cases hanswer
  · rw [hresult] at hanswer
    cases hanswer
    rw [hcurrent.cached] at hproof
    obtain ⟨kept, hkept, rfl⟩ := map_eq_some_iff.mp hproof
    have hpositive := hcurrent.positive kept (mem_of_getLast? hkept)
    rw [hkept]
    exact ⟨hrecords, Nat.one_le_iff_ne_zero.mp hpositive, fun _ => rfl,
      fun hother => absurd (congrArg some hrecords) hother⟩
  · rw [hresult] at hanswer
    cases hanswer
    have hpositive := freshSequence_pos state.cached snapshot.clock
    have hgrows := hcurrent.freshSequence_bounds hclock
    refine ⟨hrecords, by omega, ?_, ?_⟩
    · intro hsame
      obtain ⟨kept, hkept, hequal⟩ := map_eq_some_iff.mp hsame
      have hcached : state.cached = some ⟨kept⟩ := by
        rw [hcurrent.cached, hkept, map_some]
      exact absurd hequal (hdiffers ⟨kept⟩ hcached)
    · intro _ earlier hearlier
      rw [hnumber]
      exact hgrows.1 earlier hearlier

/-- In every sequence of calls, each call with publishable addresses answers a record of
exactly these.  It is the last record returned if that has the same addresses, and else
has a sequence above all sequences returned before. -/
theorem selfAnswer_spec {wire : AddressWire} {signatures : AddressSignatures}
    {identity : NodeIdentity} {snapshots : List SelfSnapshot}
    (hworks : SigningWorks wire signatures identity snapshots)
    (hclock : ∀ snapshot ∈ snapshots,
      max snapshot.clock 0 + (snapshots.length : ℕ) < 2 ^ 64)
    {before rest : List SelfSnapshot} {snapshot : SelfSnapshot}
    (hposition : snapshots = before ++ snapshot :: rest) :
    (Publishable wire identity snapshot.records →
      ∃ record, selfAnswer wire signatures identity before snapshot = some record) ∧
    ∀ record, selfAnswer wire signatures identity before snapshot = some record →
      record.records = snapshot.records ∧ record.sequence ≠ 0 ∧
      ∀ last, last = (selfRecords wire signatures identity before).returned.getLast? →
        (last.map SignedAddressRecord.records = some snapshot.records →
          last = some record) ∧
        (last.map SignedAddressRecord.records ≠ some snapshot.records →
          ∀ earlier ∈ (selfRecords wire signatures identity before).returned,
            earlier.sequence < record.sequence) := by
  have hmem : snapshot ∈ snapshots := by simp [hposition]
  have hlength : before.length + (rest.length + 1) = snapshots.length := by simp [hposition]
  have hcurrent : (selfRecords wire signatures identity before).Current (rest.length + 1) := by
    apply selfRecords_current hworks
    · intro other hother
      rw [hposition]
      exact mem_append_left _ hother
    · intro other hother
      rw [hlength]
      apply hclock
      rw [hposition]
      exact mem_append_left _ hother
  have hroom : max snapshot.clock 0 + ((rest.length : ℤ) + 1) < 2 ^ 64 := by
    have hown := hclock snapshot hmem
    push_cast [← hlength] at hown
    omega
  constructor
  · exact exists_answer _ hworks hmem
  · intro record hanswer
    obtain ⟨hrecords, hsequence, hlast⟩ := hcurrent.answer hworks hmem hroom hanswer
    refine ⟨hrecords, hsequence, ?_⟩
    rintro last rfl
    exact hlast

/-! The same addresses before and after a call that finds none are answered with the same
record, so that a change of addresses does not always raise the sequence. -/

section Example

private def toySignatures : AddressSignatures :=
  { signableBytes := fun _ _ _ records => some (records.flatMap (·.address))
    peerIdFromPublicKey := fun _ => some 7
    isSignature := fun _ => true
    mlDsaVerify := fun _ bytes signature => some (signature == bytes) }

private def toyWire : AddressWire := { decode := fun _ => none, encode := fun _ => none }

private def toyIdentity : NodeIdentity := { peerId := 7, publicKey := [1] }

private def snapshotAt (records : List TransportAddressRecord) (clock : ℤ) : SelfSnapshot :=
  { records := records, clock := clock, sign := some }

private def unknownTransport (payload : Byte) : TransportAddressRecord :=
  { transport := 99, reachability := 2, address := [payload] }

private theorem toy_signingWorks (calls : List (List TransportAddressRecord × ℤ)) :
    SigningWorks toyWire toySignatures toyIdentity
      (calls.map fun call => snapshotAt call.1 call.2) where
  encodes _ _ := rfl
  signs snapshot hsnapshot bytes := by
    obtain ⟨call, -, rfl⟩ := mem_map.mp hsnapshot
    rfl
  verifies snapshot hsnapshot sequence records record hsigned := by
    obtain ⟨call, -, rfl⟩ := mem_map.mp hsnapshot
    simp only [signRecord] at hsigned
    split at hsigned
    · cases hsigned
    · next hvalid =>
        cases hsigned
        refine ⟨⟨{ unsignedRecord toyIdentity sequence records with
          signature := records.flatMap (·.address) }⟩, ?_⟩
        have hchecked : validate toyWire
            { unsignedRecord toyIdentity sequence records with
              signature := records.flatMap (·.address) } = .ok () := hvalid
        simp only [unsignedRecord] at hchecked ⊢
        rw [verify, hchecked]
        simp [verifySignature, toySignatures, toyIdentity]

private def knownAddress : SelfSnapshot := snapshotAt [unknownTransport 1] 5

private def noAddress : SelfSnapshot := snapshotAt [] 6

private def otherAddress : SelfSnapshot := snapshotAt [unknownTransport 2] (-3)

/-- The third call finds other addresses than the second one and answers a record whose
sequence is that of the first. -/
theorem selfAnswer_after_gap :
    SigningWorks toyWire toySignatures toyIdentity [knownAddress, noAddress, knownAddress] ∧
      (∀ snapshot ∈ [knownAddress, noAddress, knownAddress],
        max snapshot.clock 0 + (3 : ℕ) < 2 ^ 64) ∧
      Publishable toyWire toyIdentity knownAddress.records ∧
      knownAddress.records ≠ noAddress.records ∧
      (selfRecords toyWire toySignatures toyIdentity [knownAddress, noAddress]).returned.map
        SignedAddressRecord.sequence = [5] ∧
      (selfAnswer toyWire toySignatures toyIdentity [knownAddress, noAddress]
        knownAddress).map SignedAddressRecord.sequence = some 5 := by
  refine ⟨toy_signingWorks [([unknownTransport 1], 5), ([], 6), ([unknownTransport 1], 5)],
    by decide +kernel, ?_, ?_, ?_, ?_⟩
  · rw [Publishable]
    decide +kernel
  all_goals decide +kernel

/-- The clock falls back before the epoch while the addresses change, and the sequence
grows. -/
theorem selfAnswer_after_clock_reset :
    ∃ record, selfAnswer toyWire toySignatures toyIdentity [knownAddress] otherAddress =
        some record ∧
      ∀ earlier ∈ (selfRecords toyWire toySignatures toyIdentity [knownAddress]).returned,
        earlier.sequence < record.sequence := by
  have hworks := toy_signingWorks [([unknownTransport 1], 5), ([unknownTransport 2], -3)]
  have hposition : [([unknownTransport 1], (5 : ℤ)), ([unknownTransport 2], -3)].map
      (fun call => snapshotAt call.1 call.2) = [knownAddress] ++ otherAddress :: [] := rfl
  have hspec := selfAnswer_spec hworks (by decide +kernel) hposition
  have hvalid : Publishable toyWire toyIdentity otherAddress.records := by
    rw [Publishable]
    decide +kernel
  obtain ⟨record, hrecord⟩ := hspec.1 hvalid
  refine ⟨record, hrecord, ((hspec.2 record hrecord).2.2 _ rfl).2 ?_⟩
  decide +kernel

end Example

end SaorsaCore.Manager
