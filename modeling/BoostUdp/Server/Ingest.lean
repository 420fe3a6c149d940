import BoostUdp.Server.State

/-!
# Reassembly of batches from datagrams

`ingest_fragment` and the functions it calls.  The unread part of a datagram
is a list; the position in it is what has been dropped.  `ingest_fragment` and
`try_complete_batch` call each other: the loop takes fuel, and the completion
step takes the function it re-ingests salvaged bytes with.
-/

namespace BoostUdp

open LittleEndian

/-- The least offset of a plausible header, or the length of the data. -/
def findBatchHeaderOffset (data : List Byte) : Nat :=
  if data.length < kPacketHeaderSize then
    data.length
  else
    let last := data.length - kPacketHeaderSize
    let found := (List.range (last + 1)).find? fun i =>
      let batchLen := peekBatchLength (data.drop i)
      decide (kPacketHeaderSize ≤ batchLen ∧ batchLen ≤ kMaxBatchSize)
    found.getD data.length

/-- The loop of `find_next_batch_header_offset` over the offsets still to be
tried, with the session total it may set on the way. -/
def findNextLoop (data : List Byte) (wantSeq : Option Word) :
    List Nat → Option Word → Nat × Option Word
  | [], wireBatchTotal => (data.length, wireBatchTotal)
  | i :: rest, wireBatchTotal =>
      let batchLen := peekBatchLength (data.drop i)
      if batchLen < kPacketHeaderSize ∨ kMaxBatchSize < batchLen then
        findNextLoop data wantSeq rest wireBatchTotal
      else
        let candidate := PacketHeader.decode (data.drop i)
        if !headerMetaPlausible candidate.seq candidate.batchTotal
            candidate.length then
          findNextLoop data wantSeq rest wireBatchTotal
        else if wantSeq.any (fun want => candidate.seq ≠ want) then
          findNextLoop data wantSeq rest wireBatchTotal
        else if wireBatchTotal.any
            (fun total => candidate.batchTotal ≠ total) then
          findNextLoop data wantSeq rest wireBatchTotal
        else
          let (check, wireBatchTotal) :=
            validateBatchSession candidate wireBatchTotal
          if check ≠ .ok then
            findNextLoop data wantSeq rest wireBatchTotal
          else if candidate.length.toNat ≠ batchLen then
            findNextLoop data wantSeq rest wireBatchTotal
          else
            (i, wireBatchTotal)

def findNextBatchHeaderOffset (data : List Byte) (wantSeq : Option Word)
    (wireBatchTotal : Option Word) : Nat × Option Word :=
  if data.length < kPacketHeaderSize then
    (data.length, wireBatchTotal)
  else
    let last := data.length - kPacketHeaderSize
    findNextLoop data wantSeq (List.range' 1 last) wireBatchTotal

/-- The sequence number the batch after a failed one should carry. -/
def wantedSeq (header : PacketHeader) : Option Word :=
  if headerMetaPlausible header.seq header.batchTotal header.length then
    if header.seq + 1 < header.batchTotal then some (header.seq + 1) else none
  else
    none

/-- The tail of a failed batch that is worth ingesting again: it starts with a
complete batch that passes its checksum. -/
def salvageCarry (header : PacketHeader) (buffer : List Byte)
    (batchLen : Nat) (wireBatchTotal : Option Word) :
    List Byte × Option Word :=
  if kPacketHeaderSize < batchLen then
    let (salvageAt, wireBatchTotal) :=
      findNextBatchHeaderOffset (buffer.take batchLen) (wantedSeq header)
        wireBatchTotal
    if salvageAt < batchLen then
      let candidate := PacketHeader.decode (buffer.drop salvageAt)
      let suffix := batchLen - salvageAt
      if candidate.length.toNat ≤ suffix ∧
          validateBatch (buffer.drop salvageAt) candidate.length.toNat =
            .ok then
        (buffer.drop salvageAt, wireBatchTotal)
      else
        ([], wireBatchTotal)
    else
      ([], wireBatchTotal)
  else
    ([], wireBatchTotal)

def tryCompleteBatch
    (ingest : Receiver → List Byte → Option Receiver)
    (receiver : Receiver) : Option (Bool × Receiver) :=
  let reassembly := receiver.reassembly
  if reassembly.expected < kPacketHeaderSize then
    some (false, receiver.countBad.resetReassembly)
  else
    let header := PacketHeader.decode reassembly.buffer
    let (sessionCheck, total) :=
      validateBatchSession header receiver.stats.wireBatchTotal
    let receiver := receiver.setWireBatchTotal total
    if sessionCheck ≠ .ok then
      some (false,
        (receiver.countBad.report
          (.bad sessionCheck reassembly.buffer 0)).resetReassembly)
    else
      let validation := validateBatch reassembly.buffer reassembly.expected
      if validation ≠ .ok then
        let (carry, total) := salvageCarry header reassembly.buffer
          reassembly.expected receiver.stats.wireBatchTotal
        let receiver :=
          (((receiver.countBad.setWireBatchTotal total).report
            (.bad validation reassembly.buffer carry.length)).resetReassembly)
        if carry.isEmpty then
          some (false, receiver)
        else
          (ingest receiver carry).map fun receiver => (false, receiver)
      else
        let stats := trackSequence receiver.stats header.seq
        let receiver :=
          { receiver with stats := { stats with batches := stats.batches + 1 } }
        let mss :=
          if 1 < reassembly.fragmentSizes.length then
            inferDetectedMss reassembly.fragmentSizes
          else
            none
        some (true,
          (receiver.report
            (.ok reassembly.buffer reassembly.fragmentSizes mss)).resetReassembly)

/-- A turn of the loop with no active reassembly leaves `ingest_fragment` or
goes round again with what is unread. -/
inductive Turn where
  | leave (receiver : Receiver)
  | again (receiver : Receiver) (unread : List Byte)

/-- `while (buffer.size() < kPacketHeaderSize)`: push unread bytes. -/
def fillHeader : List Byte → List Byte → List Byte × List Byte
  | buffer, [] => (buffer, [])
  | buffer, byte :: unread =>
      if buffer.length < kPacketHeaderSize then
        fillHeader (buffer ++ [byte]) unread
      else
        (buffer, byte :: unread)

/-- `buffer.resize(size)` of the source: cut off or pad with zeros. -/
def resizeBuffer (buffer : List Byte) (size : Nat) : List Byte :=
  buffer.take size ++ List.replicate (size - buffer.length) 0

/-- The buffer holds 20 bytes: start a reassembly or drop bytes at its
front. -/
def headerTurn (receiver : Receiver) (unread : List Byte) : Turn :=
  let buffer := receiver.reassembly.buffer
  let expectedLength := peekBatchLength buffer
  if expectedLength = 0 then
    let aligned := findBatchHeaderOffset buffer
    if 1 < buffer.length ∧ 0 < aligned ∧ aligned < buffer.length then
      .again ((receiver.report (.resyncSkip aligned)).setBuffer
        (buffer.drop aligned)) unread
    else
      .again (receiver.setBuffer (buffer.drop 1)) unread
  else
    let header := PacketHeader.decode buffer
    let (sessionCheck, total) :=
      validateBatchSession header receiver.stats.wireBatchTotal
    let receiver := receiver.setWireBatchTotal total
    if sessionCheck ≠ .ok then
      .again (receiver.setBuffer (buffer.drop 1)) unread
    else if expectedLength < kPacketHeaderSize ∨
        kMaxBatchSize < expectedLength then
      .again
        ((receiver.countBad.report (.badLength expectedLength)).resetReassembly)
        unread
    else
      .again
        ({ receiver with
          reassembly :=
            { receiver.reassembly with
              expected := expectedLength
              buffer := resizeBuffer buffer expectedLength
              filled := kPacketHeaderSize
              active := true } }.report (.reassemble header))
        unread

def fillTurn (receiver : Receiver) (unread : List Byte) : Turn :=
  let (buffer, unread) := fillHeader receiver.reassembly.buffer unread
  let receiver := receiver.setBuffer buffer
  if buffer.length < kPacketHeaderSize then
    .leave receiver
  else
    headerTurn receiver unread

def huntTurn (receiver : Receiver) (unread : List Byte) : Turn :=
  if receiver.reassembly.buffer.isEmpty then
    let remaining := unread.length
    let aligned := findBatchHeaderOffset unread
    if remaining ≤ aligned then
      let keep := min remaining (kPacketHeaderSize - 1)
      .leave (receiver.setBuffer
        (receiver.reassembly.buffer ++ unread.drop (remaining - keep)))
    else if 0 < aligned then
      fillTurn (receiver.report (.resyncSkip aligned)) (unread.drop aligned)
    else
      fillTurn receiver unread
  else
    fillTurn receiver unread

/-- Copy unread bytes into the active batch, as many as it has room for. -/
def copyFragment (receiver : Receiver) (unread : List Byte) :
    Receiver × List Byte :=
  let reassembly := receiver.reassembly
  let space := reassembly.expected - reassembly.filled
  let take := min unread.length space
  ({ receiver with
      reassembly :=
        { reassembly with
          fragmentSizes := reassembly.fragmentSizes ++ [take]
          buffer := reassembly.buffer.take reassembly.filled ++
            unread.take take ++
            reassembly.buffer.drop (reassembly.filled + take)
          filled := reassembly.filled + take } },
    unread.drop take)

/-- The loop of `ingest_fragment`.  `none` means that the fuel ran out. -/
def ingestLoop : Nat → Receiver → List Byte → Option Receiver
  | 0, _, _ => none
  | fuel + 1, receiver, unread =>
      if unread.isEmpty then
        some receiver
      else if !receiver.reassembly.active then
        match huntTurn receiver unread with
        | .leave receiver => some receiver
        | .again receiver unread => ingestLoop fuel receiver unread
      else
        let (receiver, unread) := copyFragment receiver unread
        if receiver.reassembly.expected ≤ receiver.reassembly.filled then
          -- the nested `ingest_fragment` call on the carried bytes
          let ingest := fun receiver carry =>
            ingestLoop fuel (Receiver.countFragment receiver) carry
          match tryCompleteBatch ingest receiver with
          | none => none
          | some (_, receiver) => ingestLoop fuel receiver unread
        else
          ingestLoop fuel receiver unread

/-- The bytes of the stream the receiver still holds. -/
def BatchReassembly.held (reassembly : BatchReassembly) : List Byte :=
  if reassembly.active then
    reassembly.buffer.take reassembly.filled
  else
    reassembly.buffer

/-- Enough turns for every byte held or unread (`ingestFragment_tracks`). -/
def ingestFuel (receiver : Receiver) (data : List Byte) : Nat :=
  3 * (receiver.reassembly.held.length + data.length) + 3

def ingestFragment (receiver : Receiver) (data : List Byte) :
    Option Receiver :=
  ingestLoop (ingestFuel receiver data) receiver.countFragment data

/-- A sequence of datagrams. -/
def ingestAll (receiver : Receiver) (datagrams : List (List Byte)) :
    Option Receiver :=
  datagrams.foldlM ingestFragment receiver

/-- A state that some sequence of datagrams leads to from a fresh session. -/
def Reachable (receiver : Receiver) : Prop :=
  ∃ datagrams, ingestAll {} datagrams = some receiver

end BoostUdp
