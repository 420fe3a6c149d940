import BoostUdp.ClientRun
import BoostUdp.ServerRun
import BoostUdp.WholeRun

/-!
# From the client to the summary

A client that the command line allows, a network that keeps the order of the
bytes, and a server in either mode: the server prints what the client sent.
-/

namespace BoostUdp

open LittleEndian

def ClientRun.datagrams (run : ClientRun (List (List Byte))) :
    List (List Byte) :=
  run.sent.flatMap Prod.snd

theorem length_buildBatch {ρ : Type} {byteDist : ρ → Byte × ρ}
    {buffer batch : List Byte} {seq batchTotal : Word} {rng rest : ρ}
    (built : buildBatch byteDist buffer seq batchTotal rng =
      .ok (batch, rest)) : batch.length = buffer.length := by
  by_cases short : buffer.length < kPacketHeaderSize
  · rw [buildBatch, if_pos short] at built
    contradiction
  · by_cases refused : batchTotal = 0 ∨ batchTotal ≤ seq
    · rw [buildBatch, if_neg short, if_pos refused] at built
      contradiction
    · have below : seq < batchTotal :=
        BitVec.not_le.mp fun above => refused (Or.inr above)
      have room := Nat.not_lt.mp short
      rw [buildBatch_eq byteDist rng room below] at built
      have encoded := congrArg Prod.fst (Except.ok.inj built)
      dsimp only at encoded
      rw [← encoded, length_encodeBatch, length_drawBytes]
      omega

section Client

variable {ρ τ : Type} (byteDist : ρ → Byte × ρ)
  (sendBatch : List Byte → Nat → Except String τ) (options : ClientOptions)

/-- Every batch has the size that was asked for, and went out as `sendBatch`
sends it. -/
theorem sendLoop_entries (remaining i : Nat) {buffer : List Byte}
    (room : buffer.length = options.batchSize) (rng : ρ) :
    ∀ entry ∈ (sendLoop byteDist sendBatch options remaining i buffer
        rng).sent,
      entry.1.length = options.batchSize ∧
        sendBatch entry.1 options.mss = .ok entry.2 := by
  induction remaining generalizing i buffer rng with
  | zero =>
      intro entry member
      contradiction
  | succ remaining induction =>
      intro entry member
      rw [sendLoop] at member
      rcases built : buildBatch byteDist buffer (BitVec.ofNat 32 i)
          (BitVec.ofNat 32 options.batchCount) rng with
        error | ⟨batch, rest⟩
      · rw [built] at member
        contradiction
      · rw [built] at member
        dsimp only at member
        have length := (length_buildBatch built).trans room
        cases succeeded : sendBatch batch options.mss with
        | error error =>
          rw [succeeded] at member
          contradiction
        | ok sent =>
          simp only [succeeded, ClientRun.prepend, List.singleton_append]
            at member
          rcases List.mem_cons.mp member with rfl | later
          · exact ⟨length, succeeded⟩
          · exact induction (i + 1) length rest entry later

end Client

/-- A way to send a batch that puts all of its bytes on the wire, in order. -/
structure Carries
    (sendBatch : List Byte → Nat → Except String (List (List Byte))) :
    Prop where
  whole : ∀ {batch mss datagrams},
    sendBatch batch mss = .ok datagrams → datagrams.flatten = batch

theorem sendBatchFallback_carries :
    Carries (sendBatchFallback List.length) :=
  { whole := by
      intro batch mss datagrams sent
      obtain ⟨segments, all, flat⟩ := sendBatchFallback_complete batch mss
      cases sent.symm.trans all
      exact flat }

section Stream

variable {ρ : Type} {byteDist : ρ → Byte × ρ}
  {sendBatch : List Byte → Nat → Except String (List (List Byte))}
  {options : ClientOptions}

theorem ClientRun.datagrams_flatten {run : ClientRun (List (List Byte))}
    (whole : ∀ entry ∈ run.sent, entry.2.flatten = entry.1) :
    run.datagrams.flatten = run.batches.flatten := by
  obtain ⟨sent, error⟩ := run
  simp only [ClientRun.datagrams, ClientRun.batches] at whole ⊢
  induction sent with
  | nil => rfl
  | cons entry sent induction =>
      have later := induction
        fun other member => whole other (List.mem_cons_of_mem _ member)
      rw [List.flatMap_cons, List.flatten_append, later,
        whole entry List.mem_cons_self, List.map_cons, List.flatten_cons]

/-- An accepted command line with a count that fits into the header puts one
whole run on the wire. -/
theorem runClient_wholeRun (sendable : options.Sendable)
    (carries : Carries sendBatch)
    (succeeds : ∀ batch, ∃ sent, sendBatch batch options.mss = .ok sent)
    (small : options.batchCount < 2 ^ 32) (rng : ρ) :
    WholeRun options.batchCount options.batchSize
        (runClient byteDist sendBatch options rng).batches ∧
      (runClient byteDist sendBatch options rng).datagrams.flatten =
        (runClient byteDist sendBatch options rng).batches.flatten := by
  have sends := runClient_sends byteDist sendable succeeds small rng
  have room : (List.replicate options.batchSize (0 : Byte)).length =
      options.batchSize := List.length_replicate
  have entries := sendLoop_entries byteDist sendBatch options
    options.batchCount 0 room rng
  constructor
  · refine ⟨sends.sequence, ?_⟩
    intro batch member
    obtain ⟨entry, found, rfl⟩ := List.mem_map.mp member
    obtain ⟨length, _⟩ := entries entry found
    obtain ⟨valid, total⟩ := sends.valid entry.1 member
    refine ⟨⟨?_, ?_⟩, length⟩
    · rw [ValidBatch, length]
      exact valid
    · apply BitVec.eq_of_toNat_eq
      rw [total, toNat_ofNat_word small]
  · apply ClientRun.datagrams_flatten
    intro entry found
    exact carries.whole (entries entry found).2

end Stream

/-- The idle session over the part of a run that was sent, cut in any way. -/
theorem PartRun.undamaged {count size sent : Nat}
    {batches : List (List Byte)} (run : PartRun count size sent batches)
    (sending : 0 < sent) (below : sent ≤ count) (bounded : count < 2 ^ 32)
    (longer : kPacketHeaderSize < size) {buffers : List (List Byte)}
    (same : buffers.flatten = batches.flatten) {stats : ServerStats}
    (summarised : Summarised none buffers stats) :
    Undamaged sent (count - sent) buffers.length stats := by
  obtain ⟨receiver, ingested, printed⟩ := summarised
  have served := run.served longer same ingested
  obtain ⟨stats', printed', undamaged⟩ := served.summary sending
    (Nat.lt_of_lt_of_le sending below) bounded (Or.inl rfl)
  cases printed.symm.trans printed'
  exact undamaged

theorem WholeRun.flawless {count size : Nat} {batches : List (List Byte)}
    (run : WholeRun count size batches) (positive : 0 < count)
    (bounded : count < 2 ^ 32) (longer : kPacketHeaderSize < size)
    {buffers : List (List Byte)}
    (same : buffers.flatten = batches.flatten) {stats : ServerStats}
    (summarised : Summarised none buffers stats) :
    Flawless count buffers.length stats := by
  have undamaged := run.undamaged positive (Nat.le_refl count) bounded longer
    same summarised
  rwa [Nat.sub_self] at undamaged

section Counting

variable {ρ : Type} (path : ReceivePath ρ)

/-- The loop with `--count` leaves at the arrival that completes the last
wanted batch, whatever comes behind it. -/
theorem countLoop_delivers {wantBatches quiet : Nat}
    {arrivals : List Arrival} {idleDeadline : Option Nat}
    (timely : Timely quiet idleDeadline arrivals)
    (delivered : ∀ arrival ∈ arrivals, path.Delivers arrival)
    {receiver after : Receiver}
    (ingested : ingestAll receiver (payloads arrivals) = some after)
    (wanted : ∀ used later, arrivals = used ++ later → later ≠ [] →
      ∀ between, ingestAll receiver (payloads used) = some between →
        between.stats.batches < wantBatches)
    (enough : wantBatches ≤ after.stats.batches)
    (more : List (Tick ρ)) :
    countLoop path.wrapper.receive wantBatches idleDeadline receiver
      (arrivals.map path.toTick ++ more) = .ok (.left after more) := by
  induction arrivals generalizing idleDeadline receiver with
  | nil =>
      cases ingested
      exact countLoop_enough enough idleDeadline more
  | cons arrival arrivals induction =>
      obtain ⟨now, readable, clock⟩ := path.shape arrival
      obtain ⟨early, rest⟩ := timely
      have positive : 0 < millisecond := by decide
      have first : ¬wantBatches ≤ receiver.stats.batches :=
        Nat.not_le.mpr (wanted [] _ rfl (by simp) receiver rfl)
      have pending : ¬(idleDeadline.any
          (fun deadline => deadline ≤ (path.toTick arrival).now) = true ∧
            (!receiver.reassembly.active) = true) := by
        rintro ⟨expired, _⟩
        obtain ⟨deadline, known, passed⟩ := (Option.any_eq_true _ _).mp expired
        have ahead := early deadline known
        rw [decide_eq_true_eq, now] at passed
        omega
      cases onward : ingestFragment receiver arrival.data with
      | none => simp [payloads, ingestAll, onward] at ingested
      | some between =>
          have remaining : ingestAll between (payloads arrivals) =
              some after := by
            simpa [payloads, ingestAll, onward] using ingested
          have later : ∀ used later, arrivals = used ++ later →
              later ≠ [] → ∀ last,
                ingestAll between (payloads used) = some last →
                  last.stats.batches < wantBatches := by
            intro used later split nonempty last reached
            apply wanted (arrival :: used) later (by rw [split]; rfl) nonempty
            simpa [payloads, ingestAll, onward] using reached
          rw [List.map_cons, List.cons_append,
            countLoop_receives first pending, path.wrapper.delivers
              (delivered arrival List.mem_cons_self), onward]
          simp only [clock]
          exact induction rest
            (fun other member =>
              delivered other (List.mem_cons_of_mem _ member))
            remaining later

/-- The counting session over one whole run, of which every byte is needed. -/
theorem runReceiveLoop_wholeRun {count size : Nat}
    {batches : List (List Byte)} (run : WholeRun count size batches)
    (positive : 0 < count) (bounded : count < 2 ^ 32)
    (longer : kPacketHeaderSize < size) {burst : Burst}
    (separate : burst.Separate)
    (nonempty : ∀ arrival ∈ burst.arrivals, arrival.data ≠ [])
    (delivered : ∀ arrival ∈ burst.arrivals, path.Delivers arrival)
    (same : burst.payloads.flatten = batches.flatten)
    (more : List (Tick ρ)) :
    ∃ stats, Flawless count burst.arrivals.length stats ∧
      runReceiveLoop path.wrapper.receive (some count)
          (burst.arrivals.map path.toTick ++ more) =
        .ok (.summary stats more) := by
  obtain ⟨receiver, ingested, tracks⟩ := ingestAll_fresh burst.payloads
  have served := run.served longer same ingested
  rw [burst.length_payloads] at served
  have wanted : ∀ used later, burst.arrivals = used ++ later →
      later ≠ [] → ∀ between,
        ingestAll {} (payloads used) = some between →
          between.stats.batches < count := by
    intro used later split left between reached
    have cut : batches.flatten =
        (payloads used).flatten ++ (payloads later).flatten := by
      rw [← same, Burst.payloads, split, payloads, List.map_append,
        List.flatten_append]
      rfl
    have missing : (payloads later).flatten ≠ [] := by
      obtain ⟨arrival, member⟩ := List.exists_mem_of_ne_nil later left
      intro empty
      have blank := List.flatten_eq_nil_iff.mp empty arrival.data
        (List.mem_map_of_mem member)
      apply nonempty arrival _ blank
      rw [split]
      exact List.mem_append_right _ member
    have fewer := batches_lt_of_prefix
      (fun batch member => (run.member batch member).1)
      (fun batch member => (run.member batch member).2 ▸ longer) cut missing
      rfl reached
    rwa [run.length_eq] at fewer
  have enough : count ≤ receiver.stats.batches :=
    Nat.le_of_eq served.undamaged.batches.symm
  have left := countLoop_delivers path separate.timely delivered ingested
    wanted enough more
  obtain ⟨stats, summarised, flawless⟩ :=
    served.summary positive positive bounded (Or.inr rfl)
  rw [Nat.sub_self] at flawless
  exact ⟨stats, flawless, runReceiveLoop_summary_iff.mpr
    ⟨receiver, left, summarised⟩⟩

end Counting

/-- A client, and what the server sees of its run. -/
structure Visit (σ : Type) where
  options : ClientOptions
  rng : σ
  burst : Burst

/-- The client was started with an accepted command line, its count fits into
the header and its batches are longer than one, its sends succeed, and what
reaches the server comes without a pause. -/
structure Visit.Steady {σ ρ : Type} (platform : Platform)
    (sendBatch : List Byte → Nat → Except String (List (List Byte)))
    (path : ReceivePath ρ) (visit : Visit σ) : Prop where
  accepted : ∃ argv,
    parseClientOptions platform argv {} = .ok (true, visit.options)
  count : visit.options.batchCount < 2 ^ 32
  size : kPacketHeaderSize < visit.options.batchSize
  succeeds : ∀ batch, ∃ sent,
    sendBatch batch visit.options.mss = .ok sent
  separate : visit.burst.Separate
  delivered : ∀ arrival ∈ visit.burst.arrivals, path.Delivers arrival

/-- All bytes of the client reach the server, in order. -/
structure Visit.Undisturbed {σ ρ : Type} (platform : Platform)
    (byteDist : σ → Byte × σ)
    (sendBatch : List Byte → Nat → Except String (List (List Byte)))
    (path : ReceivePath ρ) (visit : Visit σ) : Prop
    extends visit.Steady platform sendBatch path where
  bytes : visit.burst.payloads.flatten =
    (runClient byteDist sendBatch visit.options
      visit.rng).datagrams.flatten

theorem timely_atOnce (datagrams : List (List Byte))
    {idleDeadline : Option Nat}
    (first : ∀ deadline, idleDeadline = some deadline →
      deadline = kIdleTimeout) :
    Timely 0 idleDeadline (atOnce datagrams) := by
  have short : 0 + millisecond ≤ kIdleTimeout := by decide
  induction datagrams generalizing idleDeadline with
  | nil =>
      intro deadline known
      rw [first deadline known]
      exact Or.inr short
  | cons data datagrams induction =>
      constructor
      · intro deadline known
        rw [first deadline known]
        exact short
      · apply induction
        intro deadline known
        cases known
        exact Nat.zero_add kIdleTimeout

theorem payloads_atOnce (datagrams : List (List Byte)) :
    payloads (atOnce datagrams) = datagrams := by
  rw [payloads, atOnce, List.map_map]
  exact List.map_id datagrams

/-- A network that brings the datagrams at once. -/
def burstAtOnce (datagrams : List (List Byte)) : Burst :=
  { arrivals := atOnce datagrams, quiet := 0 }

theorem burstAtOnce_separate {datagrams : List (List Byte)}
    (traffic : datagrams ≠ []) : (burstAtOnce datagrams).Separate :=
  { traffic := mt List.map_eq_nil_iff.mp traffic
    timely := timely_atOnce datagrams (by simp) }

/-- A client on Linux with a random generator that repeats its byte. -/
def visitAtOnce (options : ClientOptions) : Visit Byte :=
  { options := options
    rng := 0x50
    burst := burstAtOnce (runClient sameByte
      (sendBatchFallback List.length) options 0x50).datagrams }

theorem visitAtOnce_undisturbed {options : ClientOptions}
    (accepted : ∃ argv,
      parseClientOptions .posix argv {} = .ok (true, options))
    (count : options.batchCount < 2 ^ 32)
    (size : kPacketHeaderSize < options.batchSize) :
    (visitAtOnce options).Undisturbed .posix sameByte
      (sendBatchFallback List.length) plainPath := by
  obtain ⟨argv, parsed⟩ := accepted
  have sendable := parseClientOptions_sendable parsed
  have succeeds : ∀ batch, ∃ sent,
      sendBatchFallback List.length batch options.mss = .ok sent := by
    intro batch
    obtain ⟨sent, succeeded, _⟩ :=
      sendBatchFallback_complete batch options.mss
    exact ⟨sent, succeeded⟩
  have received := payloads_atOnce (runClient sameByte
    (sendBatchFallback List.length) options 0x50).datagrams
  refine
    { accepted := ⟨argv, parsed⟩
      count := count
      size := size
      succeeds := succeeds
      separate := burstAtOnce_separate ?_
      delivered := fun arrival _ => plainPath_delivers arrival
      bytes := congrArg List.flatten received }
  intro none
  obtain ⟨run, wire⟩ := @runClient_wholeRun _ sameByte _ _ sendable
    sendBatchFallback_carries succeeds count 0x50
  rw [none] at wire
  have blank := List.flatten_eq_nil_iff.mp wire.symm
  obtain ⟨batch, member⟩ := List.exists_mem_of_length_pos
    (Nat.lt_of_lt_of_eq sendable.count.1 run.length_eq.symm)
  have length := (run.member batch member).2
  rw [blank batch member, List.length_nil] at length
  omega

section System

variable {σ ρ : Type} {platform : Platform} {byteDist : σ → Byte × σ}
  {sendBatch : List Byte → Nat → Except String (List (List Byte))}
  {path : ReceivePath ρ} {visit : Visit σ} {options : ServerOptions}

theorem Visit.Steady.sendable
    (steady : visit.Steady platform sendBatch path) :
    visit.options.Sendable := by
  obtain ⟨argv, accepted⟩ := steady.accepted
  exact parseClientOptions_sendable accepted

/-- A server without `--count` prints one summary for each client, of what
reached it from that one. -/
theorem runServer_visits {visits : List (Visit σ)}
    (steady : ∀ visit ∈ visits, visit.Steady platform sendBatch path)
    (idle : options.batchCount = none)
    (room : ∀ limit, options.sessionLimit = some limit →
      visits.length ≤ limit) :
    ∃ summaries,
      runServer path.wrapper.receive options
          (visits.flatMap fun visit => visit.burst.ticks path) =
        { summaries := summaries
          stop :=
            if options.sessionLimit = some visits.length then
              .returned []
            else
              .waiting {} } ∧
        List.Forall₂
          (fun visit => Summarised none visit.burst.payloads) visits
          summaries := by
  have length : (visits.map Visit.burst).length = visits.length :=
    List.length_map _
  have separate : ∀ burst ∈ visits.map Visit.burst, burst.Separate := by
    intro burst member
    obtain ⟨visit, found, rfl⟩ := List.mem_map.mp member
    exact (steady visit found).separate
  have delivered : ∀ burst ∈ visits.map Visit.burst,
      ∀ arrival ∈ burst.arrivals, path.Delivers arrival := by
    intro burst member
    obtain ⟨visit, found, rfl⟩ := List.mem_map.mp member
    exact (steady visit found).delivered
  obtain ⟨summaries, sessions, summarised⟩ :=
    sessions_bursts path separate delivered
  rw [List.flatMap_map] at sessions
  have counted := summarised.length_eq
  rw [← length, counted] at room ⊢
  rw [List.forall₂_map_left_iff] at summarised
  exact ⟨summaries, sessionLoop_sessions path idle sessions
    (Nat.lt_succ_self _) room, summarised⟩

theorem forall₂_summaries {claim : Visit σ → ServerStats → Prop}
    {visits : List (Visit σ)} {summaries : List ServerStats}
    (summarised : List.Forall₂
      (fun visit => Summarised none visit.burst.payloads) visits summaries)
    (holds : ∀ visit ∈ visits, ∀ stats,
      Summarised none visit.burst.payloads stats → claim visit stats) :
    List.Forall₂ claim visits summaries := by
  rw [List.forall₂_iff_zip] at summarised ⊢
  refine ⟨summarised.1, ?_⟩
  intro visit stats member
  exact holds visit (List.of_mem_zip member).1 stats (summarised.2 member)

/-- The session of an undisturbed client has a flawless summary. -/
theorem Visit.Undisturbed.flawless (carries : Carries sendBatch)
    (undisturbed : visit.Undisturbed platform byteDist sendBatch path)
    {stats : ServerStats}
    (summarised : Summarised none visit.burst.payloads stats) :
    Flawless visit.options.batchCount visit.burst.arrivals.length stats := by
  have sendable := undisturbed.sendable
  obtain ⟨run, wire⟩ := runClient_wholeRun sendable carries
    undisturbed.succeeds undisturbed.count visit.rng
  have flawless := run.flawless sendable.count.1 undisturbed.count
    undisturbed.size (undisturbed.bytes.trans wire) summarised
  rw [Burst.length_payloads] at flawless
  exact flawless

/-- A server without `--count` serves one client after the other, each with its
own count and size: it prints a flawless summary for each of them, and then
waits for the next one or returns as `--loop` says. -/
theorem runServer_serves (carries : Carries sendBatch)
    {visits : List (Visit σ)}
    (undisturbed : ∀ visit ∈ visits,
      visit.Undisturbed platform byteDist sendBatch path)
    (idle : options.batchCount = none)
    (room : ∀ limit, options.sessionLimit = some limit →
      visits.length ≤ limit) :
    ∃ summaries,
      runServer path.wrapper.receive options
          (visits.flatMap fun visit => visit.burst.ticks path) =
        { summaries := summaries
          stop :=
            if options.sessionLimit = some visits.length then
              .returned []
            else
              .waiting {} } ∧
        List.Forall₂
          (fun visit => Flawless visit.options.batchCount
            visit.burst.arrivals.length) visits summaries := by
  obtain ⟨summaries, served, summarised⟩ := runServer_visits
    (fun visit member => (undisturbed visit member).toSteady) idle room
  refine ⟨summaries, served, forall₂_summaries summarised ?_⟩
  intro visit member stats
  exact (undisturbed visit member).flawless carries

end System

def twoSmallBatches : Visit Byte :=
  visitAtOnce
    { destAddress := "10.0.0.15"
      destPort := 5000
      batchSize := 21
      batchCount := 2
      mss := 7 }

theorem twoSmallBatches_undisturbed :
    twoSmallBatches.Undisturbed .posix sameByte
      (sendBatchFallback List.length) plainPath :=
  visitAtOnce_undisturbed
    ⟨["boostudp_client", "--dest", "10.0.0.15", "--port=5000", "--size",
      "21", "--count", "2", "--mss=7"], by decide⟩ (by decide) (by decide)

def oneLargeBatch : Visit Byte :=
  visitAtOnce
    { destAddress := "10.0.0.15"
      destPort := 5000
      batchSize := 4000
      batchCount := 1 }

theorem oneLargeBatch_undisturbed :
    oneLargeBatch.Undisturbed .posix sameByte
      (sendBatchFallback List.length) plainPath :=
  visitAtOnce_undisturbed
    ⟨["boostudp_client", "--dest", "10.0.0.15", "--port=5000", "--size",
      "4000", "--count", "1"], by decide⟩ (by decide) (by decide)

theorem runServer_serves_two :
    ∃ summaries,
      runServer receiveDatagram
          { port := 5000, loop := true, loopCount := some 2 }
          (twoSmallBatches.burst.ticks plainPath ++
            oneLargeBatch.burst.ticks plainPath) =
        { summaries := summaries, stop := .returned [] } ∧
        summaries.map ServerStats.batches = [2, 1] := by
  have undisturbed : ∀ visit ∈ [twoSmallBatches, oneLargeBatch],
      visit.Undisturbed .posix sameByte (sendBatchFallback List.length)
        plainPath := by
    intro visit member
    rcases List.mem_pair.mp member with rfl | rfl
    · exact twoSmallBatches_undisturbed
    · exact oneLargeBatch_undisturbed
  obtain ⟨summaries, served, flawless⟩ := @runServer_serves _ _ _ _ _ _
    { port := 5000, loop := true, loopCount := some 2 }
    sendBatchFallback_carries _ undisturbed rfl
    (by
      intro limit known
      cases known
      decide)
  refine ⟨summaries, ?_, ?_⟩
  · rw [List.flatMap_cons, List.flatMap_cons, List.flatMap_nil,
      List.append_nil] at served
    exact served
  · cases flawless with
    | cons one rest =>
        cases rest with
        | cons two rest =>
            cases rest
            rw [List.map_cons, List.map_cons, List.map_nil, one.batches,
              two.batches]
            rfl

section System

variable {σ ρ : Type} {platform : Platform} {byteDist : σ → Byte × σ}
  {sendBatch : List Byte → Nat → Except String (List (List Byte))}
  {path : ReceivePath ρ} {visit : Visit σ} {options : ServerOptions}

/-- A server with the `--count` of its client returns when the last byte of the
client arrives, with a flawless summary, and leaves everything behind it
unread. -/
theorem runServer_counts (carries : Carries sendBatch)
    (undisturbed : visit.Undisturbed platform byteDist sendBatch path)
    (nonempty : ∀ arrival ∈ visit.burst.arrivals, arrival.data ≠ [])
    (counting : options.batchCount = some visit.options.batchCount)
    (once : options.loop = false) (more : List (Tick ρ)) :
    ∃ stats,
      runServer path.wrapper.receive options
          (visit.burst.arrivals.map path.toTick ++ more) =
        { summaries := [stats], stop := .returned more } ∧
      Flawless visit.options.batchCount visit.burst.arrivals.length
        stats := by
  have sendable := undisturbed.sendable
  obtain ⟨run, wire⟩ := runClient_wholeRun sendable carries
    undisturbed.succeeds undisturbed.count visit.rng
  obtain ⟨stats, flawless, finished⟩ := runReceiveLoop_wholeRun path run
    sendable.count.1 undisturbed.count undisturbed.size undisturbed.separate
    nonempty undisturbed.delivered (undisturbed.bytes.trans wire) more
  rw [← counting] at finished
  exact ⟨stats, sessionLoop_last path.wrapper finished (Or.inl once),
    flawless⟩

end System

/-- The silence behind the client is not waited for. -/
theorem runServer_counts_two :
    ∃ stats,
      runServer receiveDatagram { port := 5000, batchCount := some 2 }
          (twoSmallBatches.burst.ticks plainPath) =
        { summaries := [stats]
          stop := .returned [silence 0 (.failed .timedOut)] } ∧
      stats.batches = 2 ∧ stats.lost = 0 := by
  have nonempty : ∀ arrival ∈ twoSmallBatches.burst.arrivals,
      arrival.data ≠ [] := by decide +kernel
  obtain ⟨stats, counted, flawless⟩ := @runServer_counts _ _ _ _ _ _ _
    { port := 5000, batchCount := some 2 } sendBatchFallback_carries
    twoSmallBatches_undisturbed nonempty rfl rfl
    [silence 0 (.failed .timedOut)]
  exact ⟨stats, counted, flawless.batches, flawless.lost⟩

end BoostUdp
