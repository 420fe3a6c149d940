import BoostUdp.EndToEnd
import BoostUdp.Traffic

/-!
# A port that several senders use

Batches of clients with different counts, interleaved in any way.  The first
one defines the session, and those of every other count leave no trace but in
the number of datagrams.
-/

namespace BoostUdp

open LittleEndian

/-- The session that comes first over traffic that holds a whole run of it. -/
theorem WholeRun.flawless_traffic {count size : Nat} {first : List Byte}
    {others : List (List Byte)} (traffic : Traffic (first :: others))
    (session : (PacketHeader.decode first).batchTotal = BitVec.ofNat 32 count)
    (run : WholeRun count size
      (sessionBlocks (BitVec.ofNat 32 count) (first :: others)))
    (bounded : count < 2 ^ 32) {buffers : List (List Byte)}
    (same : buffers.flatten = (first :: others).flatten)
    {stats : ServerStats} (summarised : Summarised none buffers stats) :
    Flawless count buffers.length stats := by
  have valid : ∀ batch ∈ sessionBlocks (BitVec.ofNat 32 count)
      (first :: others), ValidBatch batch :=
    fun batch member => (run.member batch member).1.valid
  have every : (sessionBlocks (BitVec.ofNat 32 count)
      (first :: others)).filter (fun batch => ValidBatch batch) =
        sessionBlocks (BitVec.ofNat 32 count) (first :: others) := by
    rw [List.filter_eq_self]
    intro batch member
    exact decide_eq_true (valid batch member)
  have none : (sessionBlocks (BitVec.ofNat 32 count)
      (first :: others)).countP (fun batch => ¬ValidBatch batch) = 0 := by
    rw [List.countP_eq_zero]
    intro batch member
    rw [decide_eq_true_eq]
    exact not_not_intro (valid batch member)
  have reports := traffic.summary session (by
    rw [every]
    exact run.increasing) same summarised
  rw [none, List.countP_eq_length_filter, every, run.length_eq,
    toNat_ofNat_word bounded, Nat.sub_self] at reports
  exact reports

/-- Between the batches of the client come those of other ones, which were
asked for other counts. -/
structure Visit.Crowded {σ ρ : Type} (platform : Platform)
    (byteDist : σ → Byte × σ)
    (sendBatch : List Byte → Nat → Except String (List (List Byte)))
    (path : ReceivePath ρ) (visit : Visit σ) (first : List Byte)
    (others : List (List Byte)) : Prop
    extends visit.Steady platform sendBatch path where
  traffic : Traffic (first :: others)
  session : (PacketHeader.decode first).batchTotal =
    BitVec.ofNat 32 visit.options.batchCount
  own : sessionBlocks (BitVec.ofNat 32 visit.options.batchCount)
      (first :: others) =
    (runClient byteDist sendBatch visit.options visit.rng).batches
  bytes : visit.burst.payloads.flatten = (first :: others).flatten

/-- A server without `--count` that several clients use at the same time: each
session prints a flawless summary of the client whose batch comes first,
however the batches of the others are interleaved with it and whatever the
network made of the datagrams. -/
theorem runServer_isolates {σ ρ : Type} {platform : Platform}
    {byteDist : σ → Byte × σ}
    {sendBatch : List Byte → Nat → Except String (List (List Byte))}
    {path : ReceivePath ρ} {options : ServerOptions}
    (carries : Carries sendBatch) {visits : List (Visit σ)}
    (crowded : ∀ visit ∈ visits, ∃ first others,
      visit.Crowded platform byteDist sendBatch path first others)
    (idle : options.batchCount = none)
    (room : ∀ limit, options.sessionLimit = some limit →
      visits.length ≤ limit) :
    ∃ summaries,
      runServer path.wrapper.receive options
          (visits.flatMap fun visit => visit.burst.ticks path) =
        { summaries := summaries
          stop :=
            if options.sessionLimit = some visits.length then
              .returned []
            else
              .waiting {} } ∧
        List.Forall₂
          (fun visit => Flawless visit.options.batchCount
            visit.burst.arrivals.length) visits summaries := by
  have steady : ∀ visit ∈ visits,
      visit.Steady platform sendBatch path := by
    intro visit member
    obtain ⟨_, _, shared⟩ := crowded visit member
    exact shared.toSteady
  obtain ⟨summaries, served, summarised⟩ :=
    runServer_visits steady idle room
  refine ⟨summaries, served, forall₂_summaries summarised ?_⟩
  intro visit member stats printed
  obtain ⟨first, others, shared⟩ := crowded visit member
  obtain ⟨run, _⟩ := @runClient_wholeRun _ byteDist _ _ shared.sendable
    carries shared.succeeds shared.count visit.rng
  rw [← shared.own] at run
  have flawless := run.flawless_traffic shared.traffic shared.session
    shared.count shared.bytes printed
  rwa [Burst.length_payloads] at flawless

/-- Behind each batch of one client there is one of another, that was asked
for three. -/
def sharedPort : List (List Byte) :=
  [encodeBatch 0 2 [0x50], encodeBatch 0 3 [0x50, 0x50],
    encodeBatch 1 2 [0x50], encodeBatch 1 3 [0x50, 0x50]]

theorem sharedPort_traffic : Traffic sharedPort := by
  have length : sharedPort.flatten.length = 86 := by decide +kernel
  have inside : ∀ offset < 86,
      peekBatchLength (sharedPort.flatten.drop offset) ≠ 0 →
        offset = 0 ∨ offset = 21 ∨ offset = 43 ∨ offset = 64 := by
    decide +kernel
  refine
    { headed := by decide +kernel
      longer := by decide +kernel
      starts := ?_ }
  intro offset header
  have below := lt_length_of_header header
  rw [length] at below
  rcases inside offset below header with rfl | rfl | rfl | rfl
  · exact ⟨[], _, _, rfl, rfl⟩
  · exact ⟨[_], _, _, rfl, rfl⟩
  · exact ⟨[_, _], _, _, rfl, rfl⟩
  · exact ⟨[_, _, _], _, _, rfl, rfl⟩

def sharedVisit : Visit Byte :=
  { twoSmallBatches with burst := burstAtOnce sharedPort }

theorem runServer_isolates_two :
    ∃ stats,
      runServer receiveDatagram { port := 5000 }
          (sharedVisit.burst.ticks plainPath) =
        { summaries := [stats], stop := .returned [] } ∧
      stats.batches = 2 ∧ stats.fragments = 4 ∧ stats.badBatches = 0 := by
  have crowded : ∀ visit ∈ [sharedVisit], ∃ first others,
      visit.Crowded .posix sameByte (sendBatchFallback List.length)
        plainPath first others := by
    intro visit member
    rw [List.mem_singleton.mp member]
    exact ⟨_, _,
      { twoSmallBatches_undisturbed.toSteady with
        separate := burstAtOnce_separate (by simp [sharedPort])
        delivered := fun arrival _ => plainPath_delivers arrival
        traffic := sharedPort_traffic
        session := by decide +kernel
        own := by decide +kernel
        bytes := congrArg List.flatten (payloads_atOnce sharedPort) }⟩
  obtain ⟨summaries, served, flawless⟩ := @runServer_isolates _ _ _ _ _ _
    { port := 5000 } sendBatchFallback_carries _ crowded rfl
    (by
      intro limit known
      cases known
      decide)
  cases flawless with
  | cons one rest =>
      cases rest
      rw [List.flatMap_cons, List.flatMap_nil, List.append_nil] at served
      exact ⟨_, served, one.batches, one.fragments, one.badBatches⟩

end BoostUdp
