import BoostUdp.BoundsChecked
import BoostUdp.Server.LoopRun

/-!
# The receiver with every access checked

`ingest_fragment` and the functions it calls once more, with the position in
the datagram as the source keeps it.  Each read, copy and erasure is checked
against its buffer, the branches that cannot be taken are faults, and the
representation invariant is tested whenever `ingest_fragment` returns.
-/

namespace BoostUdp

open LittleEndian StreamMachine

/-- The representation of a reassembly: a short tail, or a buffer of the size
that the header at its front announces. -/
structure WellFormed (receiver : Receiver) : Prop where
  inactive : receiver.reassembly.active = false →
    receiver.reassembly.buffer.length ≤ kPacketHeaderSize - 1 ∧
      receiver.reassembly.filled = 0 ∧ receiver.reassembly.expected = 0 ∧
      receiver.reassembly.fragmentSizes = []
  sizes : receiver.reassembly.active = true →
    receiver.reassembly.buffer.length = receiver.reassembly.expected ∧
      kPacketHeaderSize ≤ receiver.reassembly.filled ∧
      receiver.reassembly.filled ≤ receiver.reassembly.expected ∧
      receiver.reassembly.expected ≤ kMaxBatchSize ∧
      receiver.reassembly.fragmentSizes.sum =
        receiver.reassembly.filled - kPacketHeaderSize
  header : receiver.reassembly.active = true →
    (PacketHeader.decode receiver.reassembly.buffer).magic = kPacketMagic ∧
      (PacketHeader.decode receiver.reassembly.buffer).length.toNat =
        receiver.reassembly.expected ∧
      headerMetaPlausible
        (PacketHeader.decode receiver.reassembly.buffer).seq
        (PacketHeader.decode receiver.reassembly.buffer).batchTotal
        (PacketHeader.decode receiver.reassembly.buffer).length = true ∧
      receiver.stats.wireBatchTotal =
        some (PacketHeader.decode receiver.reassembly.buffer).batchTotal

instance (receiver : Receiver) : Decidable (WellFormed receiver) :=
  decidable_of_iff (_ ∧ _ ∧ _)
    ⟨fun ⟨inactive, sizes, header⟩ => ⟨inactive, sizes, header⟩,
      fun ⟨inactive, sizes, header⟩ => ⟨inactive, sizes, header⟩⟩

namespace Checked

open BoundsChecked

inductive Fault where
  | outOfBounds
  | shortBatch
  | sessionCheck (result : BatchValidation)
  | validation (result : BatchValidation)
  | badLength (length : Nat)
  | malformed
  | outOfFuel
  deriving DecidableEq, Repr

/-- The `memcpy` of a header. -/
def readHeader (buffer : List Byte) (start : Nat) :
    Except Fault PacketHeader := do
  let bytes ← readAt .outOfBounds buffer start kPacketHeaderSize
  return PacketHeader.decode bytes

def peekBatchLength (buffer : List Byte) (start available : Nat) :
    Except Fault Nat :=
  if available < kPacketHeaderSize then
    .ok 0
  else do
    let header ← readHeader buffer start
    if header.magic ≠ kPacketMagic then
      .ok 0
    else if !headerMetaPlausible header.seq header.batchTotal header.length then
      .ok 0
    else
      .ok header.length.toNat

def validateBatch (buffer : List Byte) (start receivedLength : Nat) :
    Except Fault BatchValidation :=
  if receivedLength < kPacketHeaderSize then
    .ok .tooShort
  else do
    let header ← readHeader buffer start
    if header.magic ≠ kPacketMagic then
      .ok .badMagic
    else if header.length.toNat ≠ receivedLength then
      .ok .badLength
    else if !headerMetaPlausible header.seq header.batchTotal header.length then
      .ok .badMeta
    else do
      let batch ← readAt .outOfBounds buffer start receivedLength
      if header.crc32 ≠ batchCrc32 batch receivedLength then
        .ok .badCrc
      else
        .ok .ok

def findLoop (buffer : List Byte) (start length : Nat) :
    List Nat → Except Fault Nat
  | [] => .ok length
  | i :: rest => do
      let batchLen ← peekBatchLength buffer (start + i) (length - i)
      if kPacketHeaderSize ≤ batchLen ∧ batchLen ≤ kMaxBatchSize then
        .ok i
      else
        findLoop buffer start length rest

def findBatchHeaderOffset (buffer : List Byte) (start length : Nat) :
    Except Fault Nat :=
  if length < kPacketHeaderSize then
    .ok length
  else
    let last := length - kPacketHeaderSize
    findLoop buffer start length (List.range (last + 1))

def findNextLoop (buffer : List Byte) (length : Nat)
    (wantSeq : Option Word) :
    List Nat → Option Word → Except Fault (Nat × Option Word)
  | [], wireBatchTotal => .ok (length, wireBatchTotal)
  | i :: rest, wireBatchTotal => do
      let batchLen ← peekBatchLength buffer i (length - i)
      if batchLen < kPacketHeaderSize ∨ kMaxBatchSize < batchLen then
        findNextLoop buffer length wantSeq rest wireBatchTotal
      else do
        let candidate ← readHeader buffer i
        if !headerMetaPlausible candidate.seq candidate.batchTotal
            candidate.length then
          findNextLoop buffer length wantSeq rest wireBatchTotal
        else if wantSeq.any (fun want => candidate.seq ≠ want) then
          findNextLoop buffer length wantSeq rest wireBatchTotal
        else if wireBatchTotal.any
            (fun total => candidate.batchTotal ≠ total) then
          findNextLoop buffer length wantSeq rest wireBatchTotal
        else
          let (check, wireBatchTotal) :=
            validateBatchSession candidate wireBatchTotal
          if check ≠ .ok then
            findNextLoop buffer length wantSeq rest wireBatchTotal
          else if candidate.length.toNat ≠ batchLen then
            findNextLoop buffer length wantSeq rest wireBatchTotal
          else
            .ok (i, wireBatchTotal)

def findNextBatchHeaderOffset (buffer : List Byte) (length : Nat)
    (wantSeq : Option Word) (wireBatchTotal : Option Word) :
    Except Fault (Nat × Option Word) :=
  if length < kPacketHeaderSize then
    .ok (length, wireBatchTotal)
  else
    let last := length - kPacketHeaderSize
    findNextLoop buffer length wantSeq (List.range' 1 last) wireBatchTotal

def salvageCarry (header : PacketHeader) (buffer : List Byte)
    (batchLen : Nat) (wireBatchTotal : Option Word) :
    Except Fault (List Byte × Option Word) :=
  if kPacketHeaderSize < batchLen then do
    let (salvageAt, wireBatchTotal) ←
      findNextBatchHeaderOffset buffer batchLen (wantedSeq header)
        wireBatchTotal
    if salvageAt < batchLen then do
      let candidate ← readHeader buffer salvageAt
      let suffix := batchLen - salvageAt
      if candidate.length.toNat ≤ suffix then do
        let validation ←
          validateBatch buffer salvageAt candidate.length.toNat
        if validation = .ok then do
          let carry ← eraseFront .outOfBounds buffer salvageAt
          .ok (carry, wireBatchTotal)
        else
          .ok ([], wireBatchTotal)
      else
        .ok ([], wireBatchTotal)
    else
      .ok ([], wireBatchTotal)
  else
    .ok ([], wireBatchTotal)

def tryCompleteBatch
    (ingest : Receiver → List Byte → Except Fault Receiver)
    (receiver : Receiver) : Except Fault (Bool × Receiver) :=
  let reassembly := receiver.reassembly
  if reassembly.expected < kPacketHeaderSize then
    .error .shortBatch
  else do
    let header ← readHeader reassembly.buffer 0
    let (sessionCheck, total) :=
      validateBatchSession header receiver.stats.wireBatchTotal
    let receiver := receiver.setWireBatchTotal total
    if sessionCheck ≠ .ok then
      .error (.sessionCheck sessionCheck)
    else do
      let validation ←
        validateBatch reassembly.buffer 0 reassembly.expected
      if validation = .badCrc then do
        let (carry, total) ← salvageCarry header reassembly.buffer
          reassembly.expected receiver.stats.wireBatchTotal
        let receiver :=
          (((receiver.countBad.setWireBatchTotal total).report
            (.bad validation reassembly.buffer carry.length)).resetReassembly)
        if carry.isEmpty then
          .ok (false, receiver)
        else do
          let receiver ← ingest receiver carry
          .ok (false, receiver)
      else if validation ≠ .ok then
        .error (.validation validation)
      else
        let stats := trackSequence receiver.stats header.seq
        let receiver :=
          { receiver with stats := { stats with batches := stats.batches + 1 } }
        let mss :=
          if 1 < reassembly.fragmentSizes.length then
            inferDetectedMss reassembly.fragmentSizes
          else
            none
        .ok (true,
          (receiver.report
            (.ok reassembly.buffer reassembly.fragmentSizes mss)).resetReassembly)

/-- A turn without an active reassembly, with the position reached. -/
inductive Turn where
  | leave (receiver : Receiver)
  | again (receiver : Receiver) (offset : Nat)

/-- `while (buffer.size() < kPacketHeaderSize)`, counting the bytes that are
missing. -/
def fillHeader (data : List Byte) :
    Nat → List Byte → Nat → Except Fault (List Byte × Nat)
  | 0, buffer, offset => .ok (buffer, offset)
  | missing + 1, buffer, offset =>
      if data.length ≤ offset then
        .ok (buffer, offset)
      else do
        let byte ← readAt .outOfBounds data offset 1
        fillHeader data missing (buffer ++ byte) (offset + 1)

def headerTurn (receiver : Receiver) (offset : Nat) : Except Fault Turn := do
  let buffer := receiver.reassembly.buffer
  let expectedLength ← peekBatchLength buffer 0 buffer.length
  if expectedLength = 0 then do
    let aligned ← findBatchHeaderOffset buffer 0 buffer.length
    if 1 < buffer.length ∧ 0 < aligned ∧ aligned < buffer.length then do
      let rest ← eraseFront .outOfBounds buffer aligned
      .ok (.again
        ((receiver.report (.resyncSkip aligned)).setBuffer rest) offset)
    else do
      let rest ← eraseFront .outOfBounds buffer 1
      .ok (.again (receiver.setBuffer rest) offset)
  else do
    let header ← readHeader buffer 0
    let (sessionCheck, total) :=
      validateBatchSession header receiver.stats.wireBatchTotal
    let receiver := receiver.setWireBatchTotal total
    if sessionCheck ≠ .ok then do
      let rest ← eraseFront .outOfBounds buffer 1
      .ok (.again (receiver.setBuffer rest) offset)
    else if expectedLength < kPacketHeaderSize ∨
        kMaxBatchSize < expectedLength then
      .error (.badLength expectedLength)
    else
      .ok (.again
        ({ receiver with
          reassembly :=
            { receiver.reassembly with
              expected := expectedLength
              buffer := resizeBuffer buffer expectedLength
              filled := kPacketHeaderSize
              active := true } }.report (.reassemble header))
        offset)

def fillTurn (receiver : Receiver) (data : List Byte) (offset : Nat) :
    Except Fault Turn := do
  let (buffer, offset) ← fillHeader data
    (kPacketHeaderSize - receiver.reassembly.buffer.length)
    receiver.reassembly.buffer offset
  let receiver := receiver.setBuffer buffer
  if buffer.length < kPacketHeaderSize then
    .ok (.leave receiver)
  else
    headerTurn receiver offset

def huntTurn (receiver : Receiver) (data : List Byte) (offset : Nat) :
    Except Fault Turn :=
  if receiver.reassembly.buffer.isEmpty then do
    let remaining ← subtract .outOfBounds data.length offset
    let aligned ← findBatchHeaderOffset data offset remaining
    if remaining ≤ aligned then do
      let keep := min remaining (kPacketHeaderSize - 1)
      let tail ← readAt .outOfBounds data (data.length - keep) keep
      .ok (.leave (receiver.setBuffer (receiver.reassembly.buffer ++ tail)))
    else if 0 < aligned then
      fillTurn (receiver.report (.resyncSkip aligned)) data (offset + aligned)
    else
      fillTurn receiver data offset
  else
    fillTurn receiver data offset

def copyFragment (receiver : Receiver) (data : List Byte) (offset : Nat) :
    Except Fault (Receiver × Nat) := do
  let reassembly := receiver.reassembly
  let space ← subtract .outOfBounds reassembly.expected reassembly.filled
  let remaining ← subtract .outOfBounds data.length offset
  let take := min remaining space
  let bytes ← readAt .outOfBounds data offset take
  let buffer ← writeAt .outOfBounds reassembly.buffer reassembly.filled bytes
  .ok
    ({ receiver with
        reassembly :=
          { reassembly with
            fragmentSizes := reassembly.fragmentSizes ++ [take]
            buffer := buffer
            filled := reassembly.filled + take } },
      offset + take)

/-- The test when `ingest_fragment` returns. -/
def returned (receiver : Receiver) : Except Fault Receiver := do
  require .malformed (WellFormed receiver)
  .ok receiver

def ingestLoop : Nat → Receiver → List Byte → Nat → Except Fault Receiver
  | 0, _, _, _ => .error .outOfFuel
  | fuel + 1, receiver, data, offset =>
      if data.length ≤ offset then
        .ok receiver
      else if !receiver.reassembly.active then do
        match ← huntTurn receiver data offset with
        | .leave receiver => .ok receiver
        | .again receiver offset => ingestLoop fuel receiver data offset
      else do
        let (receiver, offset) ← copyFragment receiver data offset
        if receiver.reassembly.expected ≤ receiver.reassembly.filled then do
          let ingest := fun receiver carry => do
            let receiver ←
              ingestLoop fuel (Receiver.countFragment receiver) carry 0
            returned receiver
          let (_, receiver) ← tryCompleteBatch ingest receiver
          ingestLoop fuel receiver data offset
        else
          ingestLoop fuel receiver data offset

def ingestFragment (receiver : Receiver) (data : List Byte) :
    Except Fault Receiver := do
  let receiver ← ingestLoop (ingestFuel receiver data)
    (Receiver.countFragment receiver) data 0
  returned receiver

def ingestAll (receiver : Receiver) (datagrams : List (List Byte)) :
    Except Fault Receiver :=
  datagrams.foldlM ingestFragment receiver

end Checked

end BoostUdp
