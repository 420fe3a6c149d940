import BoostUdp.Packet
import Mathlib.Data.Finset.Card

/-!
# Receiver state

The statistics of one session, the batch under reassembly, and the log of
what the receiver reports in verbose mode.  The log keeps the data of each
report, whether or not the run prints it.
-/

namespace BoostUdp

open LittleEndian

def kMaxBatchSize : Nat := 64 * 1024

structure ServerStats where
  batches : Nat := 0
  fragments : Nat := 0
  badBatches : Nat := 0
  lost : Nat := 0
  duplicates : Nat := 0
  outOfOrder : Nat := 0
  seenSeq : Finset Word := ∅
  haveSeq : Bool := false
  highestSeq : Word := 0
  wireBatchTotal : Option Word := none
  deriving DecidableEq

structure BatchReassembly where
  buffer : List Byte := []
  filled : Nat := 0
  expected : Nat := 0
  active : Bool := false
  fragmentSizes : List Nat := []
  deriving DecidableEq, Repr

/-- What the receiver reports about the stream, with the bytes it is about.
The start of a reassembly is logged also where the source prints nothing for
it, as for a batch that is only a header. -/
inductive Event where
  | resyncSkip (bytes : Nat)
  | reassemble (header : PacketHeader)
  | ok (batch : List Byte) (fragmentSizes : List Nat) (mss : Option Nat)
  | bad (reason : BatchValidation) (batch : List Byte) (carry : Nat)
  | badLength (length : Nat)
  deriving DecidableEq, Repr

structure Receiver where
  stats : ServerStats := {}
  reassembly : BatchReassembly := {}
  log : List Event := []
  deriving DecidableEq

namespace Receiver

def report (receiver : Receiver) (event : Event) : Receiver :=
  { receiver with log := receiver.log ++ [event] }

def resetReassembly (receiver : Receiver) : Receiver :=
  { receiver with reassembly := {} }

def countFragment (receiver : Receiver) : Receiver :=
  { receiver with stats.fragments := receiver.stats.fragments + 1 }

def countBad (receiver : Receiver) : Receiver :=
  { receiver with stats.badBatches := receiver.stats.badBatches + 1 }

def setWireBatchTotal (receiver : Receiver) (total : Option Word) :
    Receiver :=
  { receiver with stats.wireBatchTotal := total }

def setBuffer (receiver : Receiver) (buffer : List Byte) : Receiver :=
  { receiver with reassembly.buffer := buffer }

end Receiver

/-- The most frequent slice size, ties toward the larger one. -/
def inferDetectedMss (sizes : List Nat) : Option Nat :=
  if sizes.length < 2 then
    none
  else
    let best := sizes.foldl
      (fun (best : Nat × Nat) value =>
        let count := sizes.count value
        if best.2 < count ∨ (count = best.2 ∧ best.1 < value) then
          (value, count)
        else
          best)
      (sizes.headD 0, 0)
    some best.1

def trackSequence (stats : ServerStats) (seq : Word) : ServerStats :=
  if seq ∈ stats.seenSeq then
    { stats with duplicates := stats.duplicates + 1 }
  else
    let stats :=
      if stats.haveSeq ∧ seq < stats.highestSeq then
        { stats with outOfOrder := stats.outOfOrder + 1 }
      else
        stats
    let stats := { stats with seenSeq := insert seq stats.seenSeq }
    if !stats.haveSeq then
      { stats with haveSeq := true, highestSeq := seq }
    else
      { stats with
        highestSeq :=
          if stats.highestSeq < seq then seq else stats.highestSeq }

/-- The loop `for (seq = 0; seq <= upper; ++seq)` over a 32-bit counter that
wraps.  `none`: it is still running when the fuel is used up. -/
def lostLoop (upper : Word) :
    Nat → Word → ServerStats → Option ServerStats
  | 0, _, _ => none
  | fuel + 1, seq, stats =>
      if seq ≤ upper then
        lostLoop upper fuel (seq + 1)
          (if seq ∉ stats.seenSeq then
            { stats with lost := stats.lost + 1 }
          else
            stats)
      else
        some stats

/-- After one test for each value of the counter it has wrapped around, and
the loop never ends. -/
def lostFuel : Nat := 2 ^ 32 + 1

def finalizeLost (stats : ServerStats) (cliBatchCount : Option Nat) :
    Option ServerStats :=
  match cliBatchCount with
  | some count =>
      if count = 0 then
        some stats
      else
        lostLoop (BitVec.ofNat 32 (count - 1)) lostFuel 0 stats
  | none =>
      match stats.wireBatchTotal with
      | some total => lostLoop (total - 1) lostFuel 0 stats
      | none =>
          if stats.haveSeq then
            lostLoop stats.highestSeq lostFuel 0 stats
          else
            some stats

end BoostUdp
