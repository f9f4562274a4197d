import SaorsaCore.Address.SignedRecord
import SaorsaCore.Core.Frames

/-!
# Bundles of signed records

Signed records travel in a binary body, each behind its length.  A bundle is read whole
or not at all, and only as far as its limits allow: the number of records, the size of
each and the number of elements of its fields.  Postcard is a parameter.
-/

namespace SaorsaCore.Manager

open Frames List

def maxSignedAddressBytes : ℕ := 40 * 1024

/-- Postcard of `SignedAddressRecord`; `none` is an error.  Reading stops at the end of
the value.  The two sizes are those of ML-DSA-65. -/
structure RecordCodec where
  encode : SignedAddressRecord → Option (List Byte)
  takeFromBytes : List Byte → Option (SignedAddressRecord × List Byte)
  publicKeySize : ℕ
  signatureSize : ℕ

/-- Texts of the source; Postcard's own errors are only named. -/
inductive BundleError where
  | postcard
  | invalid (message : String)
  deriving DecidableEq, Repr

namespace RecordCodec

variable (codec : RecordCodec)

/-- The limits of `bounded_vec` at the fields of a record. -/
def isBounded (record : SignedAddressRecord) : Bool :=
  record.records.length ≤ maxTransportAddressRecords
    && record.records.all (·.address.length ≤ maxTransportAddressPayload)
    && record.publicKey.length ≤ codec.publicKeySize
    && record.signature.length ≤ codec.signatureSize

def decode (bytes : List Byte) : Except BundleError SignedAddressRecord :=
  if maxSignedAddressBytes < bytes.length then
    .error (.invalid "signed address record exceeds envelope limit")
  else
    match codec.takeFromBytes bytes with
    | none => .error .postcard
    | some (record, _) => if codec.isBounded record then .ok record else .error .postcard

/-- `encode_record_bundle`; the length of a record that passed the check is a `u32`. -/
def encodeRecordBundle : List SignedAddressRecord → Except BundleError (List Byte)
  | [] => .ok []
  | record :: rest =>
    match codec.encode record with
    | none => .error .postcard
    | some encoded =>
      if maxSignedAddressBytes < encoded.length then
        .error (.invalid "signed record exceeds limit")
      else do
        let bytes ← encodeRecordBundle rest
        return frame 4 encoded ++ bytes

/-- `decode_record_bundle`; the number counts down from `max_records`. -/
def decodeRecordBundle : ℕ → List Byte → Except BundleError (List SignedAddressRecord)
  | _, [] => .ok []
  | 0, _ :: _ => .error (.invalid "invalid signed record bundle")
  | room + 1, byte :: more =>
    let bytes := byte :: more
    if bytes.length < 4 then .error (.invalid "invalid signed record bundle")
    else
      let length := ofBigEndian (bytes.take 4)
      let body := bytes.drop 4
      if body.length < length then .error (.invalid "truncated signed record")
      else do
        let record ← codec.decode (body.take length)
        let records ← decodeRecordBundle room (body.drop length)
        return record :: records

/-- A well-formed bundle: at most so many bodies, each of which is read as its record. -/
def IsBundle (maxRecords : ℕ) (bundle : List Byte) (records : List SignedAddressRecord) : Prop :=
  ∃ bodies, bundle = frames 4 bodies ∧ bodies.length ≤ maxRecords ∧
    List.Forall₂ (fun body record => codec.decode body = .ok record) bodies records

/-- The encoding of a record that has one. -/
def body (record : SignedAddressRecord) : List Byte :=
  (codec.encode record).getD []

/-- The bytes a record takes in a bundle. -/
def frameSize (record : SignedAddressRecord) : ℕ :=
  (frame 4 (codec.body record)).length

/-- The record has an encoding within the limit. -/
def Writable (record : SignedAddressRecord) : Prop :=
  codec.encode record = some (codec.body record) ∧
    (codec.body record).length ≤ maxSignedAddressBytes

variable {codec} {record : SignedAddressRecord} {body : List Byte}

theorem decode_eq_ok (hdecode : codec.decode body = .ok record) :
    body.length ≤ maxSignedAddressBytes ∧ codec.isBounded record := by
  rw [decode] at hdecode
  by_cases hlong : maxSignedAddressBytes < body.length
  · rw [if_pos hlong] at hdecode
    contradiction
  · rw [if_neg hlong] at hdecode
    refine ⟨Nat.le_of_not_lt hlong, ?_⟩
    split at hdecode
    · contradiction
    · split at hdecode
      · cases hdecode
        assumption
      · contradiction

theorem length_lt_of_le {bytes : List Byte} (hle : bytes.length ≤ maxSignedAddressBytes) :
    bytes.length < 256 ^ 4 :=
  Nat.lt_of_le_of_lt hle (by decide)

theorem decodeRecordBundle_frame_append (room : ℕ) (rest : List Byte)
    (hdecode : codec.decode body = .ok record) :
    codec.decodeRecordBundle (room + 1) (frame 4 body ++ rest) =
      (codec.decodeRecordBundle room rest).map (record :: ·) := by
  have hlength : 4 ≤ (frame 4 body ++ rest).length := by
    rw [length_append, length_frame]
    omega
  have hnumber : ofBigEndian ((frame 4 body ++ rest).take 4) = body.length :=
    ofBigEndian_take_frame_append (length_lt_of_le (decode_eq_ok hdecode).1)
  have hbody : (frame 4 body ++ rest).drop 4 = body ++ rest := drop_frame_append 4 body rest
  cases hbytes : frame 4 body ++ rest with
  | nil =>
    rw [hbytes] at hlength
    exact absurd hlength (by decide)
  | cons byte more =>
    rw [hbytes] at hlength hnumber hbody
    simp only [decodeRecordBundle]
    rw [if_neg (by omega), hnumber, hbody,
      if_neg (by rw [length_append]; omega), take_left, drop_left, hdecode]
    cases codec.decodeRecordBundle room rest <;> rfl

variable {maxRecords : ℕ} {records : List SignedAddressRecord}

/-- What a nonempty bundle that is read starts with. -/
theorem decodeRecordBundle_cons_eq_ok {byte : Byte} {more : List Byte}
    (hdecode : codec.decodeRecordBundle maxRecords (byte :: more) = .ok records) :
    ∃ room body rest record others, maxRecords = room + 1 ∧
      byte :: more = frame 4 body ++ rest ∧ records = record :: others ∧
      codec.decode body = .ok record ∧ codec.decodeRecordBundle room rest = .ok others := by
  cases maxRecords with
  | zero => contradiction
  | succ room =>
    simp only [decodeRecordBundle] at hdecode
    by_cases hshort : (byte :: more).length < 4
    · rw [if_pos hshort] at hdecode
      contradiction
    rw [if_neg hshort] at hdecode
    by_cases htruncated : ((byte :: more).drop 4).length < ofBigEndian ((byte :: more).take 4)
    · rw [if_pos htruncated] at hdecode
      contradiction
    rw [if_neg htruncated] at hdecode
    have hframe := eq_frame_append (Nat.le_of_not_lt hshort) (Nat.le_of_not_lt htruncated)
    cases hbody : codec.decode (((byte :: more).drop 4).take
        (ofBigEndian ((byte :: more).take 4))) with
    | error =>
      rw [hbody] at hdecode
      contradiction
    | ok record =>
      cases hrest : codec.decodeRecordBundle room (((byte :: more).drop 4).drop
          (ofBigEndian ((byte :: more).take 4))) with
      | error =>
        rw [hbody, hrest] at hdecode
        contradiction
      | ok others =>
        rw [hbody, hrest] at hdecode
        cases hdecode
        exact ⟨room, _, _, record, others, rfl, hframe, rfl, hbody, hrest⟩

/-- Exactly the well-formed bundles are read. -/
theorem decodeRecordBundle_eq_ok_iff {bundle : List Byte} :
    codec.decodeRecordBundle maxRecords bundle = .ok records ↔
      codec.IsBundle maxRecords bundle records := by
  constructor
  · intro hdecode
    induction hroom : maxRecords generalizing bundle records maxRecords with
    | zero =>
      subst hroom
      cases bundle with
      | nil =>
        cases hdecode
        exact ⟨[], rfl, Nat.zero_le _, .nil⟩
      | cons byte more => contradiction
    | succ room ih =>
      subst hroom
      cases bundle with
      | nil =>
        cases hdecode
        exact ⟨[], rfl, Nat.zero_le _, .nil⟩
      | cons byte more =>
        obtain ⟨_, body, rest, record, others, hroom, hbytes, rfl, hbody, hrest⟩ :=
          decodeRecordBundle_cons_eq_ok hdecode
        cases hroom
        obtain ⟨bodies, rfl, hmost, hbodies⟩ := ih hrest rfl
        exact ⟨body :: bodies, hbytes, Nat.succ_le_succ hmost, .cons hbody hbodies⟩
  · rintro ⟨bodies, rfl, hmost, hdecode⟩
    induction hdecode generalizing maxRecords with
    | nil => cases maxRecords <;> rfl
    | @cons body record bodies records hbody _ ih =>
      cases maxRecords with
      | zero => exact absurd hmost (Nat.not_succ_le_zero _)
      | succ room =>
        rw [frames_cons, decodeRecordBundle_frame_append room _ hbody,
          ih (Nat.le_of_succ_le_succ hmost)]
        rfl

/-- Postcard's rule: a value is read back from its encoding whatever follows. -/
def ReadsBack (codec : RecordCodec) : Prop :=
  ∀ record bytes rest, codec.encode record = some bytes →
    codec.takeFromBytes (bytes ++ rest) = some (record, rest)

theorem ReadsBack.decode_encode (hreads : codec.ReadsBack) (hbounded : codec.isBounded record)
    (hencode : codec.encode record = some body)
    (hlength : body.length ≤ maxSignedAddressBytes) : codec.decode body = .ok record := by
  have htake := hreads record body [] hencode
  rw [append_nil] at htake
  rw [decode, if_neg (Nat.not_lt.mpr hlength), htake]
  exact if_pos hbounded

/-- The bundle of one record is one frame. -/
theorem encodeRecordBundle_singleton {encoded : List Byte}
    (hencode : codec.encodeRecordBundle [record] = .ok encoded) :
    ∃ body, codec.encode record = some body ∧ body.length ≤ maxSignedAddressBytes ∧
      encoded = frame 4 body := by
  simp only [encodeRecordBundle] at hencode
  cases hbody : codec.encode record with
  | none =>
    rw [hbody] at hencode
    contradiction
  | some body =>
    rw [hbody] at hencode
    by_cases hlong : maxSignedAddressBytes < body.length
    · simp only [hlong, if_true] at hencode
      contradiction
    · simp only [hlong, if_false] at hencode
      cases hencode
      exact ⟨body, rfl, Nat.le_of_not_lt hlong, append_nil _⟩

/-! ## Round trip and cut bundles -/

variable {records : List SignedAddressRecord} {bundle : List Byte}

/-- A bundle that is written holds the encodings of its records, all within the limit. -/
theorem encodeRecordBundle_eq_ok (hencode : codec.encodeRecordBundle records = .ok bundle) :
    (∀ record ∈ records, codec.Writable record) ∧ bundle = frames 4 (records.map codec.body) := by
  induction records generalizing bundle with
  | nil =>
    cases hencode
    exact ⟨by simp, rfl⟩
  | cons record rest ih =>
    simp only [encodeRecordBundle] at hencode
    cases hbody : codec.encode record with
    | none =>
      rw [hbody] at hencode
      contradiction
    | some encoded =>
      rw [hbody] at hencode
      by_cases hlong : maxSignedAddressBytes < encoded.length
      · simp only [hlong, if_true] at hencode
        contradiction
      · simp only [hlong, if_false] at hencode
        cases hrest : codec.encodeRecordBundle rest with
        | error =>
          rw [hrest] at hencode
          contradiction
        | ok others =>
          rw [hrest] at hencode
          cases hencode
          obtain ⟨hwritable, hothers⟩ := ih hrest
          have hsame : codec.body record = encoded := by rw [RecordCodec.body, hbody]; rfl
          refine ⟨forall_mem_cons.mpr ⟨⟨?_, ?_⟩, hwritable⟩, ?_⟩
          · rw [hsame, hbody]
          · rw [hsame]
            exact Nat.le_of_not_lt hlong
          · rw [map_cons, frames_cons, hsame, hothers]

/-- Records that all have an encoding within the limit are written. -/
theorem encodeRecordBundle_of_writable (hwritable : ∀ record ∈ records, codec.Writable record) :
    codec.encodeRecordBundle records = .ok (frames 4 (records.map codec.body)) := by
  induction records with
  | nil => rfl
  | cons record rest ih =>
    rw [forall_mem_cons] at hwritable
    obtain ⟨⟨hencode, hlength⟩, hrest⟩ := hwritable
    rw [encodeRecordBundle, hencode]
    simp only [if_neg (Nat.not_lt.mpr hlength), ih hrest]
    rfl

theorem encodeRecordBundle_singleton_of_writable (hwritable : codec.Writable record) :
    codec.encodeRecordBundle [record] = .ok (frame 4 (codec.body record)) := by
  rw [encodeRecordBundle_of_writable (forall_mem_singleton.mpr hwritable),
    map_singleton, frames_cons, frames_nil, append_nil]

/-- Postcard reads the record back from its encoding: the value is complete and none of its
fields exceeds the limit it is read with. -/
def DecodesBack (codec : RecordCodec) (record : SignedAddressRecord) : Prop :=
  ∀ bytes, codec.encode record = some bytes →
    (∃ rest, codec.takeFromBytes bytes = some (record, rest)) ∧ codec.isBounded record

theorem DecodesBack.decode_body (hback : codec.DecodesBack record)
    (hwritable : codec.Writable record) : codec.decode (codec.body record) = .ok record := by
  obtain ⟨⟨rest, htake⟩, hbounded⟩ := hback _ hwritable.1
  rw [decode, if_neg (Nat.not_lt.mpr hwritable.2), htake]
  exact if_pos hbounded

/-- No bundle yields more records than the limit. -/
theorem length_le_of_decodeRecordBundle
    (hdecode : codec.decodeRecordBundle maxRecords bundle = .ok records) :
    records.length ≤ maxRecords := by
  obtain ⟨bodies, -, hmost, hbodies⟩ := decodeRecordBundle_eq_ok_iff.mp hdecode
  rwa [← hbodies.length_eq]

/-- The position at which the first records end in their bundle. -/
def endOf (codec : RecordCodec) (records : List SignedAddressRecord) (count : ℕ) : ℕ :=
  ((records.take count).map codec.frameSize).sum

theorem length_frames_take (count : ℕ) :
    (frames 4 ((records.map codec.body).take count)).length = codec.endOf records count := by
  rw [length_frames, ← map_take, map_map]
  rfl

theorem endOf_lt_endOf_succ {position : ℕ} (hposition : position < records.length) :
    codec.endOf records position < codec.endOf records (position + 1) := by
  have hframe : 0 < codec.frameSize records[position] := by
    rw [frameSize, length_frame]
    omega
  rw [endOf, endOf, take_succ_eq_append_getElem hposition, map_append,
    sum_append, map_singleton, sum_singleton]
  exact Nat.lt_add_of_pos_right hframe

theorem endOf_mono : Monotone (codec.endOf records) := by
  apply monotone_nat_of_le_succ
  intro position
  by_cases hposition : position < records.length
  · exact (endOf_lt_endOf_succ hposition).le
  · rw [endOf, endOf, take_of_length_le (Nat.le_of_not_lt hposition),
      take_of_length_le (Nat.le_succ_of_le (Nat.le_of_not_lt hposition))]

/-- The records that lie within the first records' bytes are these records. -/
theorem endOf_succ_le_endOf_iff {position count : ℕ} (hposition : position < records.length) :
    codec.endOf records (position + 1) ≤ codec.endOf records count ↔ position < count := by
  constructor
  · intro hle
    by_contra hcount
    have hmono : codec.endOf records count ≤ codec.endOf records position :=
      endOf_mono (Nat.le_of_not_lt hcount)
    have hlt := (endOf_lt_endOf_succ hposition : _ < codec.endOf _ _)
    omega
  · exact fun hlt => endOf_mono hlt

section Cut

variable (hback : ∀ record ∈ records, codec.DecodesBack record)
  (hencode : codec.encodeRecordBundle records = .ok bundle)

include hback hencode

theorem forall₂_decode_body : List.Forall₂ (fun body record => codec.decode body = .ok record)
      (records.map codec.body) records := by
  have hwritable := (encodeRecordBundle_eq_ok hencode).1
  rw [forall₂_map_left_iff, forall₂_same]
  exact fun record hrecord => (hback record hrecord).decode_body (hwritable record hrecord)

theorem decodeRecordBundle_encode {maxRecords : ℕ} (hmost : records.length ≤ maxRecords) :
    codec.decodeRecordBundle maxRecords bundle = .ok records := by
  rw [decodeRecordBundle_eq_ok_iff]
  refine ⟨records.map codec.body, (encodeRecordBundle_eq_ok hencode).2, ?_,
    forall₂_decode_body hback hencode⟩
  rwa [length_map]

/-- What is read of the start of a bundle are its first records, and it ends with the last
of them. -/
theorem decodeRecordBundle_cut {maxRecords : ℕ} {cut rest : List Byte}
    {result : List SignedAddressRecord} (hcut : cut ++ rest = bundle)
    (hdecode : codec.decodeRecordBundle maxRecords cut = .ok result) :
    ∃ whole, result = records.take whole ∧ cut.length = codec.endOf records whole := by
  obtain ⟨hwritable, rfl⟩ := encodeRecordBundle_eq_ok hencode
  obtain ⟨bodies, rfl, -, hbodies⟩ := decodeRecordBundle_eq_ok_iff.mp hdecode
  have hread : ∀ body ∈ bodies, body.length < 256 ^ 4 := by
    have hboth : List.Forall₂ (fun body record => body.length < 256 ^ 4 ∧
        codec.decode body = .ok record) bodies result :=
      hbodies.imp fun body record hrecord =>
        ⟨length_lt_of_le (decode_eq_ok hrecord).1, hrecord⟩
    exact ((forall₂_and_left _ _).mp hboth).1
  have hwritten : ∀ body ∈ records.map codec.body, body.length < 256 ^ 4 := by
    intro body hbody
    obtain ⟨record, hrecord, rfl⟩ := mem_map.mp hbody
    exact length_lt_of_le (hwritable record hrecord).2
  have hfirst := eq_take_of_frames_append hread hwritten (by decide) hcut
  refine ⟨bodies.length, ?_, ?_⟩
  · have hrecords := forall₂_take bodies.length (forall₂_decode_body hback hencode)
    rw [← hfirst] at hrecords
    apply right_unique_forall₂' _ hbodies hrecords
    intro body left right hleft hright
    exact Except.ok.inj (hleft.symm.trans hright)
  · rw [← length_frames_take, ← hfirst]

end Cut

/-- Where Postcard reads the records of a bundle back: the bundle of at most `maxRecords`
records is read as these records.  No bytes are read as more records than that.  The start of
a bundle is rejected, or it ends where a record ends and is read as exactly the records that
lie within it. -/
theorem recordBundle_roundTrip (codec : RecordCodec) (maxRecords : ℕ) :
    (∀ (records : List SignedAddressRecord) (bundle : List Byte),
      (∀ record ∈ records, codec.DecodesBack record) →
      codec.encodeRecordBundle records = .ok bundle → records.length ≤ maxRecords →
        codec.decodeRecordBundle maxRecords bundle = .ok records) ∧
    (∀ (bytes : List Byte) (result : List SignedAddressRecord),
      codec.decodeRecordBundle maxRecords bytes = .ok result →
        result.length ≤ maxRecords) ∧
    ∀ (records : List SignedAddressRecord) (bundle cut : List Byte),
      (∀ record ∈ records, codec.DecodesBack record) →
      codec.encodeRecordBundle records = .ok bundle → cut <+: bundle →
        (∃ error, codec.decodeRecordBundle maxRecords cut = .error error) ∨
          ∃ whole, codec.decodeRecordBundle maxRecords cut = .ok (records.take whole) ∧
            cut.length = codec.endOf records whole ∧
            ∀ position < records.length,
              (codec.endOf records (position + 1) ≤ cut.length ↔ position < whole) := by
  refine ⟨?_, ?_, ?_⟩
  · intro records bundle hback hencode hmost
    exact decodeRecordBundle_encode hback hencode hmost
  · intro bytes result hdecode
    exact length_le_of_decodeRecordBundle hdecode
  · intro records bundle cut hback hencode hcut
    cases hdecode : codec.decodeRecordBundle maxRecords cut with
    | error error => exact Or.inl ⟨error, rfl⟩
    | ok result =>
      obtain ⟨rest, hrest⟩ := hcut
      obtain ⟨whole, rfl, hlength⟩ := decodeRecordBundle_cut hback hencode hrest hdecode
      refine Or.inr ⟨whole, rfl, hlength, fun position hposition => ?_⟩
      rw [hlength]
      exact endOf_succ_le_endOf_iff hposition

/-- A record with one address, and a Postcard that knows no other. -/
def soleRecord : SignedAddressRecord :=
  { owner := 1
    sequence := 1
    records := [{ transport := 1, reachability := 1, address := [5] }]
    publicKey := []
    signature := [] }

def soleCodec : RecordCodec :=
  { encode := fun record => if record = soleRecord then some [7, 8] else none
    takeFromBytes := fun bytes =>
      if bytes.take 2 = [7, 8] then some (soleRecord, bytes.drop 2) else none
    publicKeySize := 1952
    signatureSize := 3309 }

/-- Two records come back; a cut after the first yields the first, a cut within the second
is rejected. -/
theorem recordBundle_roundTrip_sole :
    soleCodec.decodeRecordBundle 2 [0, 0, 0, 2, 7, 8, 0, 0, 0, 2, 7, 8] =
        .ok [soleRecord, soleRecord] ∧
      (∃ whole, soleCodec.decodeRecordBundle 2 [0, 0, 0, 2, 7, 8] =
        .ok ([soleRecord, soleRecord].take whole)) ∧
      ∃ error, soleCodec.decodeRecordBundle 2 [0, 0, 0, 2, 7, 8, 0, 0, 0, 2, 7] =
        .error error := by
  have hback : ∀ record ∈ [soleRecord, soleRecord], soleCodec.DecodesBack record := by
    intro record hrecord bytes hencode
    have hsole : record = soleRecord := by simpa using hrecord
    subst hsole
    cases hencode
    exact ⟨⟨[], rfl⟩, by decide⟩
  have hencode : soleCodec.encodeRecordBundle [soleRecord, soleRecord] =
      .ok [0, 0, 0, 2, 7, 8, 0, 0, 0, 2, 7, 8] := by
    decide
  obtain ⟨hwhole, -, hcut⟩ := recordBundle_roundTrip soleCodec 2
  refine ⟨hwhole _ _ hback hencode (by decide), ?_, ?_⟩
  · have heval : soleCodec.decodeRecordBundle 2 [0, 0, 0, 2, 7, 8] = .ok [soleRecord] := by
      decide
    rcases hcut _ _ [0, 0, 0, 2, 7, 8] hback hencode ⟨_, rfl⟩ with ⟨error, hrejected⟩ | hread
    · rw [heval] at hrejected
      cases hrejected
    · exact hread.imp fun whole hread => hread.1
  · have heval : soleCodec.decodeRecordBundle 2 [0, 0, 0, 2, 7, 8, 0, 0, 0, 2, 7] =
        .error (.invalid "truncated signed record") := by
      decide
    rcases hcut _ _ [0, 0, 0, 2, 7, 8, 0, 0, 0, 2, 7] hback hencode ⟨_, rfl⟩ with
      hrejected | ⟨whole, hread, -⟩
    · exact hrejected
    · rw [heval] at hread
      cases hread

end RecordCodec

end SaorsaCore.Manager
