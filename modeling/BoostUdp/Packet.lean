import BoostUdp.LittleEndian

/-!
# The BDUP batch format

A batch is a packed 20-byte little-endian header followed by the payload.
The checksum in the header covers the whole batch with its own field zeroed.
-/

namespace BoostUdp

open LittleEndian

def kPacketMagic : Word := 0x42554450#32
def kMaxPacketLength : Nat := 64 * 1024
def kPacketHeaderSize : Nat := 20

theorem kPacketHeaderSize_pos : 0 < kPacketHeaderSize := by decide

structure PacketHeader where
  magic : Word
  seq : Word
  batchTotal : Word
  length : Word
  crc32 : Word
  deriving DecidableEq, Repr

/-- The `memcpy` of the first 20 bytes into a packed header. -/
def PacketHeader.decode (data : List Byte) : PacketHeader :=
  { magic := wordAt data 0
    seq := wordAt data 4
    batchTotal := wordAt data 8
    length := wordAt data 12
    crc32 := wordAt data 16 }

def PacketHeader.encode (header : PacketHeader) : List Byte :=
  wordBytes header.magic ++ wordBytes header.seq ++
    wordBytes header.batchTotal ++ wordBytes header.length ++
    wordBytes header.crc32

/-- One turn of the bit loop of `crc32_update`. -/
def crc32Bit (crc : Word) : Word :=
  let mask := -(crc &&& 1#32)
  (crc >>> 1) ^^^ (0xEDB88320#32 &&& mask)

def crc32Update (crc : Word) (byte : Byte) : Word :=
  Nat.iterate crc32Bit 8 (crc ^^^ byte.setWidth 32)

def crc32Compute (data : List Byte) : Word :=
  data.foldl crc32Update 0xFFFFFFFF#32 ^^^ 0xFFFFFFFF#32

def batchCrc32 (batch : List Byte) (totalSize : Nat) : Word :=
  crc32Compute (storeWord (batch.take totalSize) 16 0)

def headerMetaPlausible (seq batchTotal length : Word) : Bool :=
  if batchTotal = 0 ∨ batchTotal ≤ seq then
    false
  else if length.toNat < kPacketHeaderSize ∨
      kMaxPacketLength < length.toNat then
    false
  else
    true

/-- The bytes that `count` calls of the distribution produce. -/
def drawBytes {ρ : Type} (byteDist : ρ → Byte × ρ) :
    Nat → ρ → List Byte × ρ
  | 0, rng => ([], rng)
  | count + 1, rng =>
      let (byte, rng) := byteDist rng
      let (bytes, rng) := drawBytes byteDist count rng
      (byte :: bytes, rng)

/-- The batch is a buffer of fixed size; its old contents are overwritten. -/
def buildBatch {ρ : Type} (byteDist : ρ → Byte × ρ) (batch : List Byte)
    (seq batchTotal : Word) (rng : ρ) : Except String (List Byte × ρ) :=
  if batch.length < kPacketHeaderSize then
    .error "batch size smaller than header"
  else if batchTotal = 0 ∨ batchTotal ≤ seq then
    .error "invalid seq/batch_total"
  else
    let (payload, rng) :=
      drawBytes byteDist (batch.length - kPacketHeaderSize) rng
    let header : PacketHeader :=
      { magic := kPacketMagic
        seq := seq
        batchTotal := batchTotal
        length := BitVec.ofNat 32 batch.length
        crc32 := 0 }
    let batch := header.encode ++ payload
    .ok (storeWord batch 16 (batchCrc32 batch batch.length), rng)

inductive BatchValidation where
  | ok
  | tooShort
  | badMagic
  | badLength
  | badMeta
  | badSession
  | badCrc
  deriving DecidableEq, Repr

def validateBatch (data : List Byte) (receivedLength : Nat) :
    BatchValidation :=
  if receivedLength < kPacketHeaderSize then
    .tooShort
  else
    let header := PacketHeader.decode data
    if header.magic ≠ kPacketMagic then
      .badMagic
    else if header.length.toNat ≠ receivedLength then
      .badLength
    else if !headerMetaPlausible header.seq header.batchTotal header.length then
      .badMeta
    else if header.crc32 ≠ batchCrc32 data receivedLength then
      .badCrc
    else
      .ok

/-- The second component is the session total after the call: the source
writes it through a reference. -/
def validateBatchSession (header : PacketHeader)
    (sessionBatchTotal : Option Word) : BatchValidation × Option Word :=
  if !headerMetaPlausible header.seq header.batchTotal header.length then
    (.badMeta, sessionBatchTotal)
  else
    match sessionBatchTotal with
    | none => (.ok, some header.batchTotal)
    | some total =>
        if total ≠ header.batchTotal then (.badSession, some total)
        else (.ok, some total)

/-- Zero when no plausible header starts the data. -/
def peekBatchLength (data : List Byte) : Nat :=
  if data.length < kPacketHeaderSize then
    0
  else
    let header := PacketHeader.decode data
    if header.magic ≠ kPacketMagic then
      0
    else if !headerMetaPlausible header.seq header.batchTotal header.length then
      0
    else
      header.length.toNat

theorem PacketHeader.decode_append {data : List Byte}
    (complete : kPacketHeaderSize ≤ data.length) (more : List Byte) :
    decode (data ++ more) = decode data := by
  unfold kPacketHeaderSize at complete
  simp only [decode]
  rw [wordAt_append_left (by omega), wordAt_append_left (by omega),
    wordAt_append_left (by omega), wordAt_append_left (by omega),
    wordAt_append_left (by omega)]

theorem PacketHeader.decode_take {data : List Byte} {count : Nat}
    (complete : kPacketHeaderSize ≤ count) (fits : count ≤ data.length) :
    decode (data.take count) = decode data := by
  have long : kPacketHeaderSize ≤ (data.take count).length := by
    simpa [fits] using complete
  calc
    decode (data.take count)
        = decode (data.take count ++ data.drop count) :=
          (decode_append long _).symm
    _ = decode data := by rw [List.take_append_drop]

theorem length_encode (header : PacketHeader) :
    header.encode.length = kPacketHeaderSize := rfl

@[simp] theorem PacketHeader.decode_encode_append (header : PacketHeader)
    (rest : List Byte) : decode (header.encode ++ rest) = header := by
  have field : ∀ (offset : Nat) (before : List Byte) (word : Word)
      (after : List Byte), before.length = offset →
      wordAt (before ++ (wordBytes word ++ after)) offset = word := by
    intro offset before word after front
    rw [wordAt_append_right _ (Nat.le_of_eq front), front, Nat.sub_self,
      wordAt_wordBytes_append]
  cases header with
  | mk magic seq batchTotal length crc32 =>
      simp only [decode, encode, List.append_assoc, mk.injEq]
      refine ⟨wordAt_wordBytes_append _ _,
        field 4 (wordBytes magic) seq _ rfl, ?_, ?_, ?_⟩
      · have := field 8 (wordBytes magic ++ wordBytes seq)
          batchTotal
        simpa only [List.append_assoc] using this _ rfl
      · have := field 12
          (wordBytes magic ++ (wordBytes seq ++ wordBytes batchTotal)) length
        simpa only [List.append_assoc] using this _ rfl
      · have := field 16
          (wordBytes magic ++ (wordBytes seq ++
            (wordBytes batchTotal ++ wordBytes length))) crc32
        simpa only [List.append_assoc] using this _ rfl

theorem headerMetaPlausible_iff {seq batchTotal length : Word} :
    headerMetaPlausible seq batchTotal length = true ↔
      seq < batchTotal ∧ kPacketHeaderSize ≤ length.toNat ∧
        length.toNat ≤ kMaxPacketLength := by
  unfold headerMetaPlausible
  by_cases outOfRange : batchTotal = 0 ∨ batchTotal ≤ seq
  · simp only [if_pos outOfRange, Bool.false_eq_true, false_iff]
    rintro ⟨below, _, _⟩
    rcases outOfRange with rfl | above
    · simp at below
    · exact absurd below (BitVec.not_lt.mpr above)
  · have below : seq < batchTotal :=
      BitVec.not_le.mp (not_or.mp outOfRange).2
    rw [if_neg outOfRange]
    by_cases sizes : length.toNat < kPacketHeaderSize ∨
        kMaxPacketLength < length.toNat
    · simp only [if_pos sizes, Bool.false_eq_true, false_iff]
      omega
    · simp only [if_neg sizes, true_iff]
      exact ⟨below, by omega, by omega⟩

/-- The 20 bytes at the front are a plausible header. -/
structure PlausibleHeader (data : List Byte) : Prop where
  complete : kPacketHeaderSize ≤ data.length
  magic : (PacketHeader.decode data).magic = kPacketMagic
  seq_lt : (PacketHeader.decode data).seq < (PacketHeader.decode data).batchTotal
  length_ge : kPacketHeaderSize ≤ (PacketHeader.decode data).length.toNat
  length_le : (PacketHeader.decode data).length.toNat ≤ kMaxPacketLength

theorem PlausibleHeader.plausible_meta {data : List Byte}
    (wellFormed : PlausibleHeader data) :
    headerMetaPlausible (PacketHeader.decode data).seq
      (PacketHeader.decode data).batchTotal
      (PacketHeader.decode data).length = true :=
  headerMetaPlausible_iff.mpr
    ⟨wellFormed.seq_lt, wellFormed.length_ge, wellFormed.length_le⟩

theorem PlausibleHeader.peekBatchLength_eq {data : List Byte}
    (wellFormed : PlausibleHeader data) :
    peekBatchLength data = (PacketHeader.decode data).length.toNat := by
  have complete := wellFormed.complete
  simp [peekBatchLength, Nat.not_lt.mpr complete, wellFormed.magic,
    wellFormed.plausible_meta]

theorem peekBatchLength_ne_zero_iff {data : List Byte} :
    peekBatchLength data ≠ 0 ↔ PlausibleHeader data := by
  constructor
  · intro nonzero
    unfold peekBatchLength at nonzero
    by_cases short : data.length < kPacketHeaderSize
    · exact absurd (if_pos short) nonzero
    · rw [if_neg short] at nonzero
      dsimp only at nonzero
      by_cases magic : (PacketHeader.decode data).magic = kPacketMagic
      · rw [if_neg (not_not_intro magic)] at nonzero
        cases checked : headerMetaPlausible (PacketHeader.decode data).seq
            (PacketHeader.decode data).batchTotal
            (PacketHeader.decode data).length with
        | false =>
            rw [checked] at nonzero
            exact absurd rfl nonzero
        | true =>
            have wellFormed := headerMetaPlausible_iff.mp checked
            exact ⟨Nat.not_lt.mp short, magic, wellFormed.1, wellFormed.2.1,
              wellFormed.2.2⟩
      · exact absurd (if_pos magic) nonzero
  · intro wellFormed
    rw [wellFormed.peekBatchLength_eq]
    exact Nat.ne_of_gt
      (Nat.lt_of_lt_of_le kPacketHeaderSize_pos wellFormed.length_ge)

theorem peekBatchLength_eq_zero_iff {data : List Byte} :
    peekBatchLength data = 0 ↔ ¬PlausibleHeader data := by
  rw [← peekBatchLength_ne_zero_iff, not_not]

theorem PlausibleHeader.peek_bounds {data : List Byte}
    (wellFormed : PlausibleHeader data) :
    kPacketHeaderSize ≤ peekBatchLength data ∧
      peekBatchLength data ≤ kMaxPacketLength := by
  rw [wellFormed.peekBatchLength_eq]
  exact ⟨wellFormed.length_ge, wellFormed.length_le⟩

/-- The test reads the first 20 bytes only. -/
theorem plausibleHeader_append_iff {data : List Byte}
    (complete : kPacketHeaderSize ≤ data.length) (more : List Byte) :
    PlausibleHeader (data ++ more) ↔ PlausibleHeader data := by
  have same := PacketHeader.decode_append complete more
  constructor
  · rintro ⟨_, magic, seq, lower, upper⟩
    rw [same] at magic seq lower upper
    exact ⟨complete, magic, seq, lower, upper⟩
  · rintro ⟨_, magic, seq, lower, upper⟩
    rw [← same] at magic seq lower upper
    refine ⟨?_, magic, seq, lower, upper⟩
    simpa using Nat.le_add_right_of_le complete

theorem plausibleHeader_take_iff {data : List Byte} {count : Nat}
    (complete : kPacketHeaderSize ≤ count) (fits : count ≤ data.length) :
    PlausibleHeader (data.take count) ↔ PlausibleHeader data := by
  have long : kPacketHeaderSize ≤ (data.take count).length := by
    simpa [fits] using complete
  have split := plausibleHeader_append_iff long (data.drop count)
  rw [List.take_append_drop] at split
  exact split.symm

/-- The header carries the session's total, if there is one yet. -/
def SameSession (total : Option Word) (header : PacketHeader) : Prop :=
  ∀ known, total = some known → header.batchTotal = known

instance (total : Option Word) (header : PacketHeader) :
    Decidable (SameSession total header) :=
  match total with
  | none => .isTrue (fun _ absurdity => by contradiction)
  | some known =>
      decidable_of_iff (header.batchTotal = known)
        ⟨fun same _ found => by cases found; exact same,
          fun all => all known rfl⟩

theorem validateBatchSession_ok {header : PacketHeader} {total : Option Word}
    (wellFormed : headerMetaPlausible header.seq header.batchTotal
      header.length = true)
    (same : SameSession total header) :
    validateBatchSession header total = (.ok, some header.batchTotal) := by
  cases total with
  | none => simp [validateBatchSession, wellFormed]
  | some known =>
      have equal := same known rfl
      simp [validateBatchSession, wellFormed, ← equal]

theorem validateBatchSession_badSession {header : PacketHeader}
    {total : Option Word}
    (wellFormed : headerMetaPlausible header.seq header.batchTotal
      header.length = true)
    (other : ¬SameSession total header) :
    validateBatchSession header total = (.badSession, total) := by
  cases total with
  | none => exact absurd (fun _ absurdity => by contradiction) other
  | some known =>
      have different : known ≠ header.batchTotal := by
        intro equal
        apply other
        intro found same
        cases same
        exact equal.symm
      simp [validateBatchSession, wellFormed, different]

/-- A complete batch at the front of the data, as `validate_batch` accepts it
when told its length. -/
def ValidBatch (batch : List Byte) : Prop :=
  validateBatch batch batch.length = .ok

instance (batch : List Byte) : Decidable (ValidBatch batch) :=
  inferInstanceAs (Decidable (_ = _))

theorem validateBatch_eq_ok {data : List Byte} {receivedLength : Nat}
    (valid : validateBatch data receivedLength = .ok) :
    kPacketHeaderSize ≤ receivedLength ∧
      (PacketHeader.decode data).magic = kPacketMagic ∧
      (PacketHeader.decode data).length.toNat = receivedLength ∧
      headerMetaPlausible (PacketHeader.decode data).seq
        (PacketHeader.decode data).batchTotal
        (PacketHeader.decode data).length = true ∧
      (PacketHeader.decode data).crc32 = batchCrc32 data receivedLength := by
  unfold validateBatch at valid
  split at valid
  · contradiction
  · dsimp only at valid
    split at valid
    · contradiction
    · split at valid
      · contradiction
      · split at valid
        · contradiction
        · split at valid
          · contradiction
          · simp_all

theorem validateBatch_take {data : List Byte} {count : Nat}
    (complete : kPacketHeaderSize ≤ count) (fits : count ≤ data.length) :
    validateBatch (data.take count) count = validateBatch data count := by
  have sameCrc : batchCrc32 (data.take count) count = batchCrc32 data count := by
    rw [batchCrc32, batchCrc32, List.take_take, Nat.min_self]
  simp only [validateBatch, PacketHeader.decode_take complete fits, sameCrc]

theorem ValidBatch.of_validateBatch {data : List Byte} {count : Nat}
    (fits : count ≤ data.length) (valid : validateBatch data count = .ok) :
    ValidBatch (data.take count) := by
  have complete := (validateBatch_eq_ok valid).1
  have length : (data.take count).length = count := by simp [fits]
  rw [ValidBatch, length, validateBatch_take complete fits, valid]

theorem ValidBatch.wellFormed {batch : List Byte} (valid : ValidBatch batch) :
    PlausibleHeader batch := by
  obtain ⟨complete, magic, length, wellFormed, _⟩ := validateBatch_eq_ok valid
  have range := headerMetaPlausible_iff.mp wellFormed
  exact ⟨complete, magic, range.1, range.2.1, range.2.2⟩

theorem ValidBatch.header_length {batch : List Byte}
    (valid : ValidBatch batch) :
    (PacketHeader.decode batch).length.toNat = batch.length :=
  (validateBatch_eq_ok valid).2.2.1

/-- The header `build_batch` writes before the checksum is known. -/
def blankHeader (seq batchTotal : Word) (size : Nat) : PacketHeader :=
  { magic := kPacketMagic
    seq := seq
    batchTotal := batchTotal
    length := BitVec.ofNat 32 size
    crc32 := 0 }

/-- The batch with this header and payload, checksum filled in. -/
def encodeBatch (seq batchTotal : Word) (payload : List Byte) : List Byte :=
  let blank :=
    blankHeader seq batchTotal (kPacketHeaderSize + payload.length)
  { blank with crc32 := crc32Compute (blank.encode ++ payload) }.encode ++
    payload

theorem storeWord_encode (header : PacketHeader) (payload : List Byte)
    (crc : Word) :
    storeWord (header.encode ++ payload) 16 crc =
      { header with crc32 := crc }.encode ++ payload := rfl

theorem length_encode_append (header : PacketHeader) (payload : List Byte) :
    (header.encode ++ payload).length =
      kPacketHeaderSize + payload.length := by
  rw [List.length_append, length_encode]

/-- The checksum does not depend on the checksum field. -/
theorem batchCrc32_encode (header : PacketHeader) (payload : List Byte) :
    batchCrc32 (header.encode ++ payload)
        (kPacketHeaderSize + payload.length) =
      crc32Compute ({ header with crc32 := 0 }.encode ++ payload) := by
  have whole := length_encode_append header payload
  rw [batchCrc32, List.take_of_length_le (Nat.le_of_eq whole),
    storeWord_encode]

theorem length_encodeBatch (seq batchTotal : Word) (payload : List Byte) :
    (encodeBatch seq batchTotal payload).length =
      kPacketHeaderSize + payload.length :=
  length_encode_append _ _

theorem decode_encodeBatch_seq (seq batchTotal : Word)
    (payload : List Byte) :
    (PacketHeader.decode (encodeBatch seq batchTotal payload)).seq = seq := by
  simp [encodeBatch, blankHeader]

theorem decode_encodeBatch_batchTotal (seq batchTotal : Word)
    (payload : List Byte) :
    (PacketHeader.decode
      (encodeBatch seq batchTotal payload)).batchTotal = batchTotal := by
  simp [encodeBatch, blankHeader]

theorem encodeBatch_valid {seq batchTotal : Word} {payload : List Byte}
    (below : seq < batchTotal)
    (small : kPacketHeaderSize + payload.length ≤ kMaxPacketLength) :
    ValidBatch (encodeBatch seq batchTotal payload) := by
  have whole := length_encodeBatch seq batchTotal payload
  have fits : (BitVec.ofNat 32 (kPacketHeaderSize + payload.length)).toNat =
      kPacketHeaderSize + payload.length := by
    rw [BitVec.toNat_ofNat, Nat.mod_eq_of_lt]
    unfold kMaxPacketLength at small
    omega
  have wellFormed : headerMetaPlausible seq batchTotal
      (BitVec.ofNat 32 (kPacketHeaderSize + payload.length)) = true := by
    rw [headerMetaPlausible_iff, fits]
    exact ⟨below, Nat.le_add_right _ _, small⟩
  have long : ¬kPacketHeaderSize + payload.length < kPacketHeaderSize := by
    omega
  rw [ValidBatch, whole, validateBatch, if_neg long]
  simp only [encodeBatch, PacketHeader.decode_encode_append,
    batchCrc32_encode]
  simp [blankHeader, fits, wellFormed]

theorem length_drawBytes {ρ : Type} (byteDist : ρ → Byte × ρ) (count : Nat)
    (rng : ρ) : (drawBytes byteDist count rng).1.length = count := by
  induction count generalizing rng with
  | zero => rfl
  | succ count induction => simp [drawBytes, induction]

/-- `build_batch` succeeds exactly when the buffer holds a header and the
sequence number is in range, and then encodes the drawn payload. -/
theorem buildBatch_eq {ρ : Type} (byteDist : ρ → Byte × ρ)
    {buffer : List Byte} {seq batchTotal : Word} (rng : ρ)
    (room : kPacketHeaderSize ≤ buffer.length) (below : seq < batchTotal) :
    buildBatch byteDist buffer seq batchTotal rng =
      let drawn :=
        drawBytes byteDist (buffer.length - kPacketHeaderSize) rng
      .ok (encodeBatch seq batchTotal drawn.1, drawn.2) := by
  have total : kPacketHeaderSize + (buffer.length - kPacketHeaderSize) =
      buffer.length := by omega
  have inRange : ¬(batchTotal = 0 ∨ batchTotal ≤ seq) := by
    rintro (rfl | above)
    · simp at below
    · exact absurd below (BitVec.not_lt.mpr above)
  have drawnLength := length_drawBytes byteDist
    (buffer.length - kPacketHeaderSize) rng
  simp only [buildBatch, if_neg (Nat.not_lt.mpr room), if_neg inRange,
    length_encode_append, drawnLength, total, storeWord_encode, encodeBatch,
    blankHeader]
  have crc := batchCrc32_encode
    (blankHeader seq batchTotal buffer.length)
    (drawBytes byteDist (buffer.length - kPacketHeaderSize) rng).1
  rw [drawnLength, total] at crc
  simp only [blankHeader] at crc
  rw [crc]

end BoostUdp
