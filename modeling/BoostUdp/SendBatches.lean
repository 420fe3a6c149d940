import BoostUdp.Packet
import Mathlib.Data.Int.Bitwise

/-!
# The sender script of the Linux tests

`send_batches.py` computes with unbounded integers and masks them to 32 bits
by hand.  Its integers are `Int` here, with the operators on them bit by bit
in two's complement.  The checksum and the batches it produces are those of
the packet header.
-/

namespace BoostUdp

open LittleEndian

namespace SendBatches

def MAGIC : Int := 0x42554450
def HEADER_SIZE : Int := 20

inductive PyError where
  | valueError (message : String)
  | indexError
  | structError
  deriving DecidableEq, Repr

/-- One turn of the bit loop of `_crc32_update`. -/
def crc32Bit (crc : Int) : Int :=
  let mask := Int.land (-(Int.land crc 1)) 0xFFFFFFFF
  Int.land (Int.xor (crc >>> 1) (Int.land 0xEDB88320 mask)) 0xFFFFFFFF

def crc32Update (crc byte : Int) : Int :=
  Nat.iterate crc32Bit 8 (Int.xor crc byte)

def crc32Compute (data : List Byte) : Int :=
  Int.xor
    (data.foldl (fun crc b => crc32Update crc b.toNat) 0xFFFFFFFF)
    0xFFFFFFFF

/-- `struct.pack_into` with a format `<I..I`: as many words as values. -/
def packInto (buffer : List Byte) (offset : Nat) (values : List Int) :
    Except PyError (List Byte) :=
  if buffer.length < offset + 4 * values.length then
    .error .structError
  else if values.all fun value => 0 ≤ value ∧ value ≤ 0xFFFFFFFF then
    .ok (buffer.take offset ++
      values.flatMap (fun value => wordBytes (BitVec.ofInt 32 value)) ++
      buffer.drop (offset + 4 * values.length))
  else
    .error .structError

def batchCrc32 (data : List Byte) : Except PyError Int := do
  let buf ← packInto data 16 [0]
  return crc32Compute buf

/-- `buffer[index] = value` of a `bytearray`. -/
def setItem (buffer : List Byte) (index : Nat) (value : Int) :
    Except PyError (List Byte) :=
  if buffer.length ≤ index then
    .error .indexError
  else if 0 ≤ value ∧ value < 256 then
    .ok (buffer.set index (BitVec.ofInt 8 value))
  else
    .error (.valueError "byte must be in range(0, 256)")

/-- The loop that fills the payload, over the indices still to be set. -/
def fillPayload : List Nat → Int → List Byte → Except PyError (List Byte)
  | [], _, payload => .ok payload
  | i :: rest, state, payload => do
      let state := Int.land (state * 1103515245 + 12345) 0xFFFFFFFF
      let payload ← setItem payload i (Int.land state 0xFF)
      fillPayload rest state payload

def buildBatch (seq batchTotal size seed : Int) :
    Except PyError (List Byte) :=
  if size < HEADER_SIZE then
    .error (.valueError "size too small")
  else do
    let payload := List.replicate size.toNat 0
    let state := seed + seq * 10007
    let payload ← fillPayload
      (List.range' HEADER_SIZE.toNat (size - HEADER_SIZE).toNat) state payload
    let payload ← packInto payload 0 [MAGIC, seq, batchTotal, size, 0]
    let crc ← batchCrc32 payload
    packInto payload 16 [crc]

theorem xor_natCast (left right : Nat) :
    Int.xor left right = ((left ^^^ right : Nat) : Int) := rfl

/-- Masking to 32 bits leaves a 32-bit number as it is. -/
theorem mask_word (word : Word) :
    Int.land (word.toNat : Int) 0xFFFFFFFF = word.toNat := by
  have whole : word.toNat &&& (2 ^ 32 - 1) = word.toNat := by
    rw [Nat.and_two_pow_sub_one_eq_mod, Nat.mod_eq_of_lt word.isLt]
  exact congrArg Nat.cast whole

/-- The masked unary minus of the script is the wrapping one. -/
theorem mask_low_bit (crc : Word) :
    Int.land (-(Int.land (crc.toNat : Int) 1)) 0xFFFFFFFF =
      (-(crc &&& 1#32)).toNat := by
  have low : Int.land (crc.toNat : Int) 1 = (crc &&& 1#32).toNat := rfl
  rw [low, BitVec.and_one_eq_setWidth_ofBool_getLsbD]
  cases crc.getLsbD 0 with
  | false => decide
  | true => decide +kernel

theorem crc32Bit_eq (crc : Word) :
    crc32Bit crc.toNat = (BoostUdp.crc32Bit crc).toNat := by
  have tap : Int.land 0xEDB88320 ((-(crc &&& 1#32)).toNat : Int) =
      ((0xEDB88320#32 &&& -(crc &&& 1#32)).toNat : Int) := by
    rw [BitVec.toNat_and]
    rfl
  have shifted : (crc.toNat : Int) >>> 1 = ((crc >>> 1).toNat : Int) := by
    rw [BitVec.toNat_ushiftRight]
    rfl
  calc
    crc32Bit crc.toNat
        = Int.land (((crc >>> 1) ^^^
            (0xEDB88320#32 &&& -(crc &&& 1#32))).toNat : Int) 0xFFFFFFFF := by
          simp only [crc32Bit, mask_low_bit, tap, shifted]
          rw [BitVec.toNat_xor, ← xor_natCast]
    _ = (BoostUdp.crc32Bit crc).toNat := mask_word _

theorem iterate_crc32Bit_eq (count : Nat) (crc : Word) :
    Nat.iterate crc32Bit count crc.toNat =
      (Nat.iterate BoostUdp.crc32Bit count crc).toNat := by
  induction count generalizing crc with
  | zero => rfl
  | succ count induction =>
      rw [Function.iterate_succ_apply, Function.iterate_succ_apply,
        crc32Bit_eq, induction]

theorem crc32Update_eq (crc : Word) (byte : Byte) :
    crc32Update crc.toNat byte.toNat =
      (BoostUdp.crc32Update crc byte).toNat := by
  have widened : (byte.setWidth 32).toNat = byte.toNat := by
    rw [BitVec.toNat_setWidth, Nat.mod_eq_of_lt]
    have small := byte.isLt
    omega
  have mixed : Int.xor (crc.toNat : Int) byte.toNat =
      ((crc ^^^ byte.setWidth 32).toNat : Int) := by
    rw [BitVec.toNat_xor, widened]
    rfl
  rw [crc32Update, mixed]
  exact iterate_crc32Bit_eq 8 _

theorem crc32Compute_eq (data : List Byte) :
    crc32Compute data = (BoostUdp.crc32Compute data).toNat := by
  have register : ∀ (data : List Byte) (crc : Word),
      data.foldl (fun crc b => crc32Update crc b.toNat) (crc.toNat : Int) =
        ((data.foldl BoostUdp.crc32Update crc).toNat : Int) := by
    intro data
    induction data with
    | nil =>
        intro crc
        rfl
    | cons byte data induction =>
        intro crc
        simp only [List.foldl_cons, crc32Update_eq, induction]
  have all := register data 0xFFFFFFFF#32
  rw [BoostUdp.crc32Compute, BitVec.toNat_xor, ← xor_natCast, ← all]
  rfl

/-- Packing a single word overwrites its four bytes. -/
theorem packInto_word {buffer : List Byte} {offset : Nat} (word : Word)
    (fits : offset + 4 ≤ buffer.length) :
    packInto buffer offset [(word.toNat : Int)] =
      .ok (storeWord buffer offset word) := by
  have range := word.isLt
  have room : ¬buffer.length <
      offset + 4 * [(word.toNat : Int)].length := by
    simp only [List.length_singleton]
    omega
  have inRange : ([(word.toNat : Int)].all
      fun value => 0 ≤ value ∧ value ≤ 0xFFFFFFFF) = true := by
    simp only [List.all_cons, List.all_nil, Bool.and_true, decide_eq_true_eq]
    omega
  have same : BitVec.ofInt 32 (word.toNat : Int) = word := by
    rw [BitVec.ofInt_natCast, BitVec.ofNat_toNat, BitVec.setWidth_eq]
  rw [packInto, if_neg room, if_pos inRange, List.flatMap_singleton, same,
    List.length_singleton, Nat.mul_one, storeWord]

theorem batchCrc32_eq {data : List Byte}
    (complete : kPacketHeaderSize ≤ data.length) :
    batchCrc32 data = .ok (BoostUdp.batchCrc32 data data.length).toNat := by
  unfold kPacketHeaderSize at complete
  have packed : packInto data 16 [0] = .ok (storeWord data 16 0) :=
    packInto_word 0 (by omega)
  rw [batchCrc32, packed, BoostUdp.batchCrc32, List.take_length,
    ← crc32Compute_eq]
  rfl

theorem setItem_masked {buffer : List Byte} {index : Nat}
    (inside : index < buffer.length) (state : Nat) :
    ∃ filled, setItem buffer index (Int.land state 0xFF) = .ok filled ∧
      filled.length = buffer.length := by
  have small : state &&& 0xFF ≤ 0xFF := Nat.and_le_right
  have range : 0 ≤ Int.land (state : Int) 0xFF ∧
      Int.land (state : Int) 0xFF < 256 := by
    have cast : Int.land (state : Int) 0xFF = ((state &&& 0xFF : Nat) : Int) :=
      rfl
    rw [cast]
    omega
  rw [setItem, if_neg (Nat.not_le.mpr inside), if_pos range]
  exact ⟨_, rfl, List.length_set⟩

/-- The state of the generator stays a natural number, and every byte it gives
fits. -/
theorem fillPayload_total {indices : List Nat} {payload : List Byte}
    (inside : ∀ index ∈ indices, index < payload.length) (state : Nat) :
    ∃ filled, fillPayload indices state payload = .ok filled ∧
      filled.length = payload.length := by
  induction indices generalizing payload state with
  | nil => exact ⟨payload, rfl, rfl⟩
  | cons index rest induction =>
      have masked : Int.land ((state : Int) * 1103515245 + 12345) 0xFFFFFFFF =
          ((state * 1103515245 + 12345 &&& 0xFFFFFFFF : Nat) : Int) := rfl
      obtain ⟨next, set, sized⟩ := setItem_masked
        (inside index List.mem_cons_self)
        (state * 1103515245 + 12345 &&& 0xFFFFFFFF)
      have inside' : ∀ other ∈ rest, other < next.length := by
        intro other member
        rw [sized]
        exact inside other (List.mem_cons_of_mem _ member)
      obtain ⟨filled, filling, length⟩ := induction inside'
        (state * 1103515245 + 12345 &&& 0xFFFFFFFF)
      refine ⟨filled, ?_, length.trans sized⟩
      simp only [fillPayload, masked, set]
      exact filling

/-- The five words of the header go in front of the payload. -/
theorem packInto_header {payload : List Byte} (seq batchTotal : Word)
    {size : Nat} (sized : payload.length = size)
    (complete : kPacketHeaderSize ≤ size) (small : size ≤ kMaxPacketLength) :
    packInto payload 0 [MAGIC, seq.toNat, batchTotal.toNat, size, 0] =
      .ok ((blankHeader seq batchTotal size).encode ++
        payload.drop kPacketHeaderSize) := by
  unfold kPacketHeaderSize at complete
  unfold kMaxPacketLength at small
  have seqRange := seq.isLt
  have totalRange := batchTotal.isLt
  have room : ¬payload.length <
      0 + 4 * [MAGIC, (seq.toNat : Int), batchTotal.toNat, size, 0].length := by
    simp only [List.length_cons, List.length_nil]
    omega
  have fits : ([MAGIC, (seq.toNat : Int), batchTotal.toNat, size, 0].all
      fun value => 0 ≤ value ∧ value ≤ 0xFFFFFFFF) = true := by
    simp only [List.all_cons, List.all_nil, MAGIC, Bool.and_true,
      Bool.and_eq_true, decide_eq_true_eq]
    omega
  have magic : BitVec.ofInt 32 MAGIC = kPacketMagic := by decide
  have blank : BitVec.ofInt 32 0 = (0 : Word) := by decide
  have word : ∀ value : Word, BitVec.ofInt 32 (value.toNat : Int) = value := by
    intro value
    rw [BitVec.ofInt_natCast, BitVec.ofNat_toNat, BitVec.setWidth_eq]
  have length : BitVec.ofInt 32 (size : Int) = BitVec.ofNat 32 size :=
    BitVec.ofInt_natCast 32 size
  have past : 0 + 4 *
      [MAGIC, (seq.toNat : Int), batchTotal.toNat, size, 0].length =
        kPacketHeaderSize := rfl
  have words : [MAGIC, (seq.toNat : Int), batchTotal.toNat, size, 0].flatMap
      (fun value => wordBytes (BitVec.ofInt 32 value)) =
        (blankHeader seq batchTotal size).encode := by
    rw [List.flatMap_cons, List.flatMap_cons, List.flatMap_cons,
      List.flatMap_cons, List.flatMap_cons, List.flatMap_nil, magic, blank,
      word, word, length]
    rfl
  rw [packInto, if_neg room, if_pos fits, past, words, List.take_zero,
    List.nil_append]

/-- The checksum of a batch with an empty checksum field, and the batch with
the field filled in. -/
theorem packInto_checksum (seq batchTotal : Word) (payload : List Byte) :
    let blank := blankHeader seq batchTotal
      (kPacketHeaderSize + payload.length)
    let crc := BoostUdp.crc32Compute (blank.encode ++ payload)
    batchCrc32 (blank.encode ++ payload) = .ok (crc.toNat : Int) ∧
      packInto (blank.encode ++ payload) 16 [(crc.toNat : Int)] =
        .ok (encodeBatch seq batchTotal payload) := by
  intro blank crc
  have whole := length_encode_append blank payload
  have complete : kPacketHeaderSize ≤ (blank.encode ++ payload).length := by
    rw [whole]
    exact Nat.le_add_right _ _
  constructor
  · rw [batchCrc32_eq complete, whole, batchCrc32_encode]
    rfl
  · rw [packInto_word crc (Nat.le_trans (by decide) complete),
      storeWord_encode]
    rfl

theorem buildBatch_eq (seq batchTotal : Word) {size : Nat}
    (complete : kPacketHeaderSize ≤ size) (small : size ≤ kMaxPacketLength)
    (seed : Nat) :
    ∃ payload, kPacketHeaderSize + payload.length = size ∧
      buildBatch seq.toNat batchTotal.toNat size seed =
        .ok (encodeBatch seq batchTotal payload) := by
  have inside : ∀ index ∈ List.range' HEADER_SIZE.toNat
      ((size : Int) - HEADER_SIZE).toNat,
      index < (List.replicate (size : Int).toNat (0 : Byte)).length := by
    intro index member
    rw [List.mem_range'_1] at member
    rw [List.length_replicate]
    unfold HEADER_SIZE at member
    omega
  have start : (seed : Int) + seq.toNat * 10007 =
      ((seed + seq.toNat * 10007 : Nat) : Int) := by
    push_cast
    rfl
  obtain ⟨filled, filling, length⟩ := fillPayload_total inside
    (seed + seq.toNat * 10007)
  have sized : filled.length = size := by
    rw [length, List.length_replicate]
    rfl
  have whole :
      kPacketHeaderSize + (filled.drop kPacketHeaderSize).length = size := by
    rw [List.length_drop, sized]
    omega
  have header := packInto_header seq batchTotal sized complete small
  obtain ⟨checksum, stored⟩ := packInto_checksum seq batchTotal
    (filled.drop kPacketHeaderSize)
  rw [whole] at checksum stored
  have long : ¬(size : Int) < HEADER_SIZE := by
    unfold HEADER_SIZE
    unfold kPacketHeaderSize at complete
    omega
  refine ⟨filled.drop kPacketHeaderSize, whole, ?_⟩
  simp only [buildBatch, if_neg long, start, filling, bind, Except.bind,
    header, checksum, stored]

end SendBatches

/-- The script and the C++ header agree: what the script builds passes
`validate_batch` and decodes to the script's arguments, and their checksums
are the same number on every byte string with room for a header. -/
theorem sendBatches_agrees :
    (∀ seq batchTotal size seed : Int, 0 ≤ seq → seq < batchTotal →
      batchTotal < 2 ^ 32 → 20 ≤ size → size ≤ 65536 → 0 ≤ seed →
      ∃ batch, SendBatches.buildBatch seq batchTotal size seed = .ok batch ∧
        (batch.length : Int) = size ∧
        validateBatch batch size.toNat = .ok ∧
        (PacketHeader.decode batch).magic = kPacketMagic ∧
        ((PacketHeader.decode batch).seq.toNat : Int) = seq ∧
        ((PacketHeader.decode batch).batchTotal.toNat : Int) = batchTotal ∧
        ((PacketHeader.decode batch).length.toNat : Int) = size) ∧
    ∀ data : List Byte, 20 ≤ data.length →
      SendBatches.batchCrc32 data =
        .ok ((batchCrc32 data data.length).toNat : Int) := by
  constructor
  · intro seq batchTotal size seed first below small complete fits seeded
    obtain ⟨seq, rfl⟩ := Int.eq_ofNat_of_zero_le first
    obtain ⟨batchTotal, rfl⟩ := Int.eq_ofNat_of_zero_le (a := batchTotal)
      (by omega)
    obtain ⟨size, rfl⟩ := Int.eq_ofNat_of_zero_le (a := size) (by omega)
    obtain ⟨seed, rfl⟩ := Int.eq_ofNat_of_zero_le seeded
    have seqWord : (BitVec.ofNat 32 seq).toNat = seq := by
      rw [BitVec.toNat_ofNat, Nat.mod_eq_of_lt (by omega)]
    have totalWord : (BitVec.ofNat 32 batchTotal).toNat = batchTotal := by
      rw [BitVec.toNat_ofNat, Nat.mod_eq_of_lt (by omega)]
    have lower : kPacketHeaderSize ≤ size := by
      unfold kPacketHeaderSize
      omega
    have upper : size ≤ kMaxPacketLength := by
      unfold kMaxPacketLength
      omega
    have inRange : BitVec.ofNat 32 seq < BitVec.ofNat 32 batchTotal := by
      rw [BitVec.lt_def, seqWord, totalWord]
      omega
    obtain ⟨payload, whole, built⟩ := SendBatches.buildBatch_eq
      (BitVec.ofNat 32 seq) (BitVec.ofNat 32 batchTotal) lower upper seed
    rw [seqWord, totalWord] at built
    have sized := length_encodeBatch (BitVec.ofNat 32 seq)
      (BitVec.ofNat 32 batchTotal) payload
    rw [whole] at sized
    have valid : ValidBatch (encodeBatch (BitVec.ofNat 32 seq)
        (BitVec.ofNat 32 batchTotal) payload) :=
      encodeBatch_valid inRange (by rw [whole]; exact upper)
    refine ⟨_, built, ?_, ?_, valid.wellFormed.magic, ?_, ?_, ?_⟩
    · rw [sized]
    · rw [ValidBatch, sized] at valid
      exact valid
    · rw [decode_encodeBatch_seq, seqWord]
    · rw [decode_encodeBatch_batchTotal, totalWord]
    · rw [valid.header_length, sized]
  · intro data complete
    exact SendBatches.batchCrc32_eq complete

theorem sendBatches_agrees_default :
    ∃ batch, SendBatches.buildBatch 0 1 4000 42 = .ok batch ∧
      validateBatch batch 4000 = .ok := by
  obtain ⟨batch, built, _, valid, _⟩ := sendBatches_agrees.1 0 1 4000 42
    (by decide) (by decide) (by decide) (by decide) (by decide) (by decide)
  exact ⟨batch, built, valid⟩

end BoostUdp
