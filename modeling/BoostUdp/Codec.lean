import BoostUdp.Packet

/-!
# The validator accepts the encoder's image

A batch of at least 20 bytes is its decoded header and its payload written one
after the other.  What `validate_batch` tests on top of that pins the magic,
the length and the checksum to the values `build_batch` writes.
-/

namespace BoostUdp

open LittleEndian

theorem PacketHeader.encode_decode {data : List Byte}
    (complete : kPacketHeaderSize ≤ data.length) :
    (decode data).encode = data.take kPacketHeaderSize := by
  unfold kPacketHeaderSize at complete
  have pieces : data.take 20 =
      data.take 4 ++ (data.drop 4).take 4 ++ (data.drop 8).take 4 ++
        (data.drop 12).take 4 ++ (data.drop 16).take 4 := by
    simp only [← List.take_add]
  rw [encode, decode, wordBytes_wordAt (by omega), wordBytes_wordAt (by omega),
    wordBytes_wordAt (by omega), wordBytes_wordAt (by omega),
    wordBytes_wordAt (by omega)]
  exact pieces.symm

theorem PacketHeader.encode_decode_append {data : List Byte}
    (complete : kPacketHeaderSize ≤ data.length) :
    (decode data).encode ++ data.drop kPacketHeaderSize = data := by
  rw [encode_decode complete, List.take_append_drop]

/-- What one call of `build_batch` is given, the bytes its distribution draws
included. -/
structure BatchSource where
  seq : Word
  batchTotal : Word
  payload : List Byte
  deriving DecidableEq, Repr

/-- A byte distribution that reads its bytes off a list. -/
def listedBytes : List Byte → Byte × List Byte
  | [] => (0, [])
  | byte :: bytes => (byte, bytes)

theorem drawBytes_listedBytes (payload : List Byte) :
    drawBytes listedBytes payload.length payload = (payload, []) := by
  induction payload with
  | nil => rfl
  | cons byte payload induction =>
      simp only [List.length_cons, drawBytes, listedBytes, induction]

/-- The batch is what `build_batch` leaves in any buffer of its size. -/
structure BuiltFrom (source : BatchSource) (batch : List Byte) : Prop where
  seq_lt : source.seq < source.batchTotal
  payload_length : source.payload.length = batch.length - kPacketHeaderSize
  built : ∀ buffer : List Byte, buffer.length = batch.length →
    buildBatch listedBytes buffer source.seq source.batchTotal
      source.payload = .ok (batch, [])

theorem BuiltFrom.eq_encodeBatch {source : BatchSource} {batch : List Byte}
    (complete : kPacketHeaderSize ≤ batch.length)
    (built : BuiltFrom source batch) :
    batch = encodeBatch source.seq source.batchTotal source.payload := by
  have result := built.built batch rfl
  rw [buildBatch_eq listedBytes source.payload complete built.seq_lt,
    ← built.payload_length, drawBytes_listedBytes] at result
  simp only [Except.ok.injEq, Prod.mk.injEq, and_true] at result
  exact result.symm

theorem builtFrom_encodeBatch {seq batchTotal : Word} (payload : List Byte)
    (below : seq < batchTotal) :
    BuiltFrom ⟨seq, batchTotal, payload⟩
      (encodeBatch seq batchTotal payload) := by
  have whole := length_encodeBatch seq batchTotal payload
  constructor
  · exact below
  · rw [whole]
    exact (Nat.add_sub_cancel_left ..).symm
  · intro buffer sized
    have room : kPacketHeaderSize ≤ buffer.length := by
      rw [sized, whole]
      exact Nat.le_add_right _ _
    have drawn : buffer.length - kPacketHeaderSize = payload.length := by
      rw [sized, whole]
      exact Nat.add_sub_cancel_left ..
    rw [buildBatch_eq listedBytes payload room below, drawn,
      drawBytes_listedBytes]

/-- The payload of an encoded batch is what follows its header. -/
theorem drop_encodeBatch (seq batchTotal : Word) (payload : List Byte) :
    (encodeBatch seq batchTotal payload).drop kPacketHeaderSize = payload :=
  List.drop_left' (length_encode _)

/-- A batch determines what it was built from. -/
theorem BuiltFrom.source_eq {source : BatchSource} {batch : List Byte}
    (complete : kPacketHeaderSize ≤ batch.length)
    (built : BuiltFrom source batch) :
    source =
      { seq := (PacketHeader.decode batch).seq
        batchTotal := (PacketHeader.decode batch).batchTotal
        payload := batch.drop kPacketHeaderSize } := by
  rw [built.eq_encodeBatch complete, decode_encodeBatch_seq,
    decode_encodeBatch_batchTotal, drop_encodeBatch]

/-- A batch that passes validation is the encoding of its own header fields
and payload. -/
theorem ValidBatch.eq_encodeBatch {batch : List Byte}
    (valid : ValidBatch batch) :
    batch = encodeBatch (PacketHeader.decode batch).seq
      (PacketHeader.decode batch).batchTotal
      (batch.drop kPacketHeaderSize) := by
  obtain ⟨complete, magic, length, _, crc⟩ := validateBatch_eq_ok valid
  have split := PacketHeader.encode_decode_append complete
  have whole : kPacketHeaderSize + (batch.drop kPacketHeaderSize).length =
      batch.length := by
    rw [List.length_drop]
    omega
  have checksum : (PacketHeader.decode batch).crc32 =
      crc32Compute ({ PacketHeader.decode batch with crc32 := 0 }.encode ++
        batch.drop kPacketHeaderSize) := by
    have zeroed := batchCrc32_encode (PacketHeader.decode batch)
      (batch.drop kPacketHeaderSize)
    rw [split, whole] at zeroed
    rw [crc, zeroed]
  have sized : (PacketHeader.decode batch).length =
      BitVec.ofNat 32 batch.length := by
    rw [← length, BitVec.ofNat_toNat, BitVec.setWidth_eq]
  have blank : { PacketHeader.decode batch with crc32 := 0 } =
      blankHeader (PacketHeader.decode batch).seq
        (PacketHeader.decode batch).batchTotal batch.length := by
    simp only [blankHeader, magic, sized]
  rw [blank] at checksum
  have header : PacketHeader.decode batch =
      { blankHeader (PacketHeader.decode batch).seq
          (PacketHeader.decode batch).batchTotal batch.length with
        crc32 := (PacketHeader.decode batch).crc32 } := by
    rw [← blank]
  calc
    batch = (PacketHeader.decode batch).encode ++
        batch.drop kPacketHeaderSize := split.symm
    _ = encodeBatch (PacketHeader.decode batch).seq
          (PacketHeader.decode batch).batchTotal
          (batch.drop kPacketHeaderSize) := by
        rw [encodeBatch, whole, ← checksum, ← header]

/-- `validate_batch` accepts exactly what `build_batch` can write.  The
arguments and the payload are unique and read off the batch, and
`peek_batch_length` finds its length whatever follows it. -/
theorem validateBatch_ok_iff_built (batch : List Byte) :
    (validateBatch batch batch.length = .ok ↔
      kPacketHeaderSize ≤ batch.length ∧ batch.length ≤ kMaxPacketLength ∧
        ∃! source, BuiltFrom source batch) ∧
    (validateBatch batch batch.length = .ok →
      (∀ source, BuiltFrom source batch →
        (PacketHeader.decode batch).magic = kPacketMagic ∧
        (PacketHeader.decode batch).seq = source.seq ∧
        (PacketHeader.decode batch).batchTotal = source.batchTotal ∧
        (PacketHeader.decode batch).length.toNat = batch.length ∧
        batch.drop kPacketHeaderSize = source.payload) ∧
      peekBatchLength batch = batch.length ∧
      ∀ more, peekBatchLength (batch ++ more) = batch.length) := by
  constructor
  · constructor
    · intro valid
      have accepted : ValidBatch batch := valid
      have wellFormed := accepted.wellFormed
      refine ⟨wellFormed.complete, ?_, ?_⟩
      · rw [← accepted.header_length]
        exact wellFormed.length_le
      · refine ⟨⟨(PacketHeader.decode batch).seq,
            (PacketHeader.decode batch).batchTotal,
            batch.drop kPacketHeaderSize⟩, ?_, ?_⟩
        · have built := builtFrom_encodeBatch
            (batch.drop kPacketHeaderSize) wellFormed.seq_lt
          rw [← accepted.eq_encodeBatch] at built
          exact built
        · intro source built
          exact built.source_eq wellFormed.complete
    · rintro ⟨complete, small, source, built, _⟩
      have encoded := built.eq_encodeBatch complete
      have whole := length_encodeBatch source.seq source.batchTotal
        source.payload
      have valid : ValidBatch
          (encodeBatch source.seq source.batchTotal source.payload) :=
        encodeBatch_valid built.seq_lt (by rw [← whole, ← encoded]; exact small)
      rw [← encoded] at valid
      exact valid
  · intro valid
    have accepted : ValidBatch batch := valid
    have wellFormed := accepted.wellFormed
    refine ⟨?_, ?_, ?_⟩
    · intro source built
      have same := built.source_eq wellFormed.complete
      rw [same]
      exact ⟨wellFormed.magic, rfl, rfl, accepted.header_length, rfl⟩
    · rw [wellFormed.peekBatchLength_eq, accepted.header_length]
    · intro more
      have longer := (plausibleHeader_append_iff wellFormed.complete more).mpr
        wellFormed
      rw [longer.peekBatchLength_eq,
        PacketHeader.decode_append wellFormed.complete,
        accepted.header_length]

end BoostUdp
