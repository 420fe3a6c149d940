import BoostUdp.Server.InStep
import BoostUdp.SessionTotal

/-!
# Where a reassembly starts

A receiver without a reassembly hunts for the next header of its session.
However the stream is cut, it starts at the first offset where one is, and
where there is none it retains as many bytes as a header could still need.
-/

namespace BoostUdp

open LittleEndian StreamMachine

/-- A header that may start a reassembly: 20 bytes are present,
`peek_batch_length` accepts them, and the batch total is the session's, when
that is known. -/
structure HeaderAt (total : Option Word) (stream : List Byte) (offset : Nat) :
    Prop where
  complete : offset + kPacketHeaderSize ≤ stream.length
  peeked : peekBatchLength (stream.drop offset) ≠ 0
  session : ∀ known, total = some known →
    (PacketHeader.decode (stream.drop offset)).batchTotal = known

theorem headerAt_iff {total : Option Word} {stream : List Byte}
    {offset : Nat} :
    HeaderAt total stream offset ↔
      SessionHeader total (stream.drop offset) := by
  constructor
  · intro header
    exact ⟨peekBatchLength_ne_zero_iff.mp header.peeked, header.session⟩
  · intro header
    have complete := header.wellFormed.complete
    have positive := kPacketHeaderSize_pos
    rw [List.length_drop] at complete
    exact
      { complete := by omega
        peeked := peekBatchLength_ne_zero_iff.mpr header.wellFormed
        session := header.same }

/-- Nothing has started: only a short tail is retained. -/
structure StillHunting (start after : Receiver)
    (datagrams : List (List Byte)) : Prop where
  reassembly : after.reassembly =
    { buffer := datagrams.flatten.drop
        (datagrams.flatten.length -
          min (kPacketHeaderSize - 1) datagrams.flatten.length) }
  stats : after.stats =
    { start.stats with
      fragments := start.stats.fragments + datagrams.length }
  log : ∃ skipped, after.log = start.log ++ skipped ∧
    ∀ event ∈ skipped, event.verdict = none

def Verdict.judged? : Verdict → Option (List Byte)
  | .started _ => none
  | .accepted batch => some batch
  | .rejected batch _ => some batch

instance (stream : List Byte) (offset : Nat) :
    Decidable (Judged stream offset) :=
  inferInstanceAs (Decidable (_ ∧ _))

/-- The first reassembly started is the one at this offset: for its header,
and over the bytes from there on. -/
structure StartedAt (start after : Receiver) (stream : List Byte)
    (offset : Nat) : Prop where
  log : ∃ skipped later,
    after.log = start.log ++ skipped ++
      .reassemble (PacketHeader.decode (stream.drop offset)) :: later ∧
    (∀ event ∈ skipped, event.verdict = none) ∧
    (later.filterMap Event.verdict).head?.bind Verdict.judged? =
      if Judged stream offset then some (firstBatch stream offset) else none
  total : after.stats.wireBatchTotal =
    some (PacketHeader.decode (stream.drop offset)).batchTotal
  collecting : ¬Judged stream offset →
    after.reassembly.active = true ∧
      after.reassembly.held = stream.drop offset

/-- What is left of the stream when no header of the session is in it. -/
theorem drain_stillHunting (config : ScanConfig) {total : Option Word}
    (state : config.state = { total := total })
    (quiet : ∀ offset, ¬SessionHeader total (config.pending.drop offset)) :
    scanner.drain config =
      { config with
        position := config.position + (config.pending.length -
          min (kPacketHeaderSize - 1) config.pending.length)
        pending := config.pending.drop (config.pending.length -
          min (kPacketHeaderSize - 1) config.pending.length) } := by
  have positive := kPacketHeaderSize_pos
  rw [drain_skip config state (config.pending.length -
    min (kPacketHeaderSize - 1) config.pending.length) (by
      intro offset below
      exact ⟨by omega, quiet offset⟩)]
  apply drain_short
  · exact state
  · rw [List.length_drop]
    omega

/-- The batch at the header of a collecting scanner is judged next. -/
theorem drain_judged {config : ScanConfig} {total : Option Word}
    {expected : BatchLength}
    (state : config.state = { total := total, collecting := some expected })
    (arrived : expected.value ≤ config.pending.length)
    (beyond : kPacketHeaderSize < config.pending.length) :
    ∃ verdict,
      verdict.judged? = some (config.pending.take expected.value) ∧
      config.trail ++ [(config.position, verdict)] <+:
        (scanner.drain config).trail := by
  by_cases valid : ValidBatch (config.pending.take expected.value)
  · refine ⟨.accepted _, rfl, ?_⟩
    rw [scanner.drain_of_some (advance_accept state arrived beyond valid)]
    refine List.IsPrefix.trans ?_ (scanner.trail_prefix_drain _)
    exact List.prefix_rfl
  · refine ⟨.rejected _ (salvaged total
      (config.pending.take expected.value)).length, rfl, ?_⟩
    rw [scanner.drain_of_some (advance_reject state arrived beyond valid)]
    refine List.IsPrefix.trans ?_ (scanner.trail_prefix_drain _)
    exact List.prefix_rfl

/-- The start of a reassembly has its own event. -/
theorem exists_reassemble {events : List Event} {header : PacketHeader}
    {rest : List Verdict}
    (found : events.filterMap Event.verdict = .started header :: rest) :
    ∃ skipped later, events = skipped ++ .reassemble header :: later ∧
      (∀ event ∈ skipped, event.verdict = none) ∧
      later.filterMap Event.verdict = rest := by
  obtain ⟨skipped, event, later, split, silent, started, others⟩ :=
    List.filterMap_eq_cons_iff.mp found
  cases event with
  | reassemble other =>
      cases started
      exact ⟨skipped, later, split, silent, others⟩
  | resyncSkip bytes => contradiction
  | ok batch sizes mss => cases started
  | bad reason batch carry => cases started
  | badLength length => contradiction

section Shadow

variable {start after reached : Receiver} {calls : Nat} {config : ScanConfig}
  {total : Option Word}

/-- What the shadow found the original has logged. -/
theorem InStep.logged (inStep : InStep start (shadow total) after reached)
    (tracks : Tracks calls reached config) {found : List (Nat × Verdict)}
    (trail : config.trail = (shadowConfig total).trail ++ found) :
    ∃ events, after.log = start.log ++ events ∧
      events.filterMap Event.verdict = found.map Prod.snd := by
  obtain ⟨events, updates, work⟩ := inStep.work
  refine ⟨events, work.log, ?_⟩
  have verdicts := tracks.logged.trail
  have past := (shadow_tracks total).logged.trail
  rw [trail, List.map_append, past] at verdicts
  simp only [Receiver.verdicts, work.log', List.filterMap_append] at verdicts
  exact (List.append_cancel_left verdicts).symm

/-- A shadow that has found nothing has only counted its datagrams. -/
theorem Tracks.shadow_stats (tracks : Tracks calls reached config)
    (trail : config.trail = (shadowConfig total).trail) :
    reached.stats =
      { (shadow total).stats with
        fragments := (shadow total).stats.fragments + calls } := by
  have past := (shadow_tracks total).logged
  have same : reached.verdicts = (shadow total).verdicts := by
    rw [← tracks.logged.trail, ← past.trail, trail]
  rw [tracks.logged.stats, same, tally_fragments, ← past.stats]

theorem InStep.quiet_stats (inStep : InStep start (shadow total) after reached)
    (same : start.stats.wireBatchTotal = total)
    (tracks : Tracks calls reached config)
    (trail : config.trail = (shadowConfig total).trail) :
    after.stats =
      { start.stats with
        fragments := start.stats.fragments + calls } := by
  have found := tracks.shadow_stats trail
  have stats := inStep.quiet (by rw [found]) (by rw [found])
    (congrArg ServerStats.fragments found)
  have wire : reached.stats.wireBatchTotal = start.stats.wireBatchTotal := by
    rw [found, same]
    exact shadow_wireBatchTotal total
  rw [stats, wire]

end Shadow

theorem stillHunting_of_shadow {start after reached : Receiver}
    {datagrams : List (List Byte)}
    (inStep : InStep start (shadow start.stats.wireBatchTotal) after reached)
    (tracks : Tracks datagrams.length reached
      (scanner.feed (shadowConfig start.stats.wireBatchTotal)
        datagrams.flatten))
    (quiet : ∀ offset, ¬SessionHeader start.stats.wireBatchTotal
      (datagrams.flatten.drop offset)) :
    StillHunting start after datagrams := by
  have ended := drain_stillHunting
    ((shadowConfig start.stats.wireBatchTotal).extend datagrams.flatten) rfl
    quiet
  rw [feed, ended] at tracks
  obtain ⟨events, logged, none⟩ := inStep.logged tracks
    (List.append_nil _).symm
  refine
    { reassembly := ?_
      stats := inStep.quiet_stats rfl tracks rfl
      log := ⟨events, logged, List.filterMap_eq_nil_iff.mp none⟩ }
  rw [inStep.reassembly]
  rcases tracks.phase with hunting | collecting
  · exact hunting.reassembly
  · obtain ⟨expected, state, _⟩ := collecting.state
    have clash := congrArg ScanState.collecting state
    contradiction

/-- The scanner at the first header of the session. -/
def foundHeader {total : Option Word} {stream : List Byte} {offset : Nat}
    (header : SessionHeader total (stream.drop offset)) : ScanConfig :=
  { state :=
      { total := some (PacketHeader.decode (stream.drop offset)).batchTotal
        collecting := some header.wellFormed.batchLength }
    position := 0 + offset
    pending := stream.drop offset
    trail := (shadowConfig total).trail ++
      [(0 + offset, .started (PacketHeader.decode (stream.drop offset)))] }

section FoundHeader

variable {total : Option Word} {stream : List Byte} {offset : Nat}
  (header : SessionHeader total (stream.drop offset))

theorem total_foundHeader :
    (scanner.drain (foundHeader header)).state.total =
      some (PacketHeader.decode (stream.drop offset)).batchTotal :=
  scanner.drain_induction
    (fun later => later.state.total =
      some (PacketHeader.decode (stream.drop offset)).batchTotal)
    total_advance _ rfl

theorem drain_foundHeader_waiting (unjudged : ¬Judged stream offset) :
    scanner.drain (foundHeader header) = foundHeader header := by
  apply scanner.drain_of_none
  apply scanner.advance_eq_none
  apply scanStep_collecting_short
  rw [Judged, not_and_or] at unjudged
  simp only [PlausibleHeader.batchLength, foundHeader, List.length_drop]
  omega

theorem drain_foundHeader_judged (judged : Judged stream offset) :
    ∃ verdict more,
      verdict.judged? = some (firstBatch stream offset) ∧
      (scanner.drain (foundHeader header)).trail =
        (shadowConfig total).trail ++
          (0 + offset,
            .started (PacketHeader.decode (stream.drop offset))) ::
          (0 + offset, verdict) :: more := by
  have arrived : header.wellFormed.batchLength.value ≤
      (stream.drop offset).length := by
    rw [PlausibleHeader.batchLength, List.length_drop]
    exact Nat.le_sub_of_add_le' judged.1
  have beyond : kPacketHeaderSize < (stream.drop offset).length := by
    have more := judged.2
    rw [List.length_drop]
    omega
  have state : (foundHeader header).state =
      { total := some (PacketHeader.decode (stream.drop offset)).batchTotal
        collecting := some header.wellFormed.batchLength } := rfl
  obtain ⟨verdict, batch, more, trail⟩ := drain_judged state arrived beyond
  refine ⟨verdict, more, batch, ?_⟩
  rw [← trail]
  simp [foundHeader]

end FoundHeader

theorem startedAt_of_shadow {start after reached : Receiver} {calls : Nat}
    {stream : List Byte}
    (inStep : InStep start (shadow start.stats.wireBatchTotal) after reached)
    (tracks : Tracks calls reached
      (scanner.feed (shadowConfig start.stats.wireBatchTotal) stream))
    {offset : Nat}
    (header : SessionHeader start.stats.wireBatchTotal (stream.drop offset))
    (least : ∀ earlier < offset, ¬SessionHeader start.stats.wireBatchTotal
      (stream.drop earlier)) :
    StartedAt start after stream offset := by
  have ended : scanner.feed (shadowConfig start.stats.wireBatchTotal) stream =
      scanner.drain (foundHeader header) :=
    drain_first ((shadowConfig start.stats.wireBatchTotal).extend stream) rfl
      header least
  rw [ended] at tracks
  have total := tracks.total_eq
  rw [total_foundHeader, ← inStep.total] at total
  by_cases judged : Judged stream offset
  · obtain ⟨verdict, more, batch, trail⟩ :=
      drain_foundHeader_judged header judged
    obtain ⟨events, logged, found⟩ := inStep.logged tracks trail
    obtain ⟨skipped, later, split, silent, others⟩ := exists_reassemble found
    refine
      { log := ⟨skipped, later, ?_, silent, ?_⟩
        total := total.symm
        collecting := fun unjudged => absurd judged unjudged }
    · rw [logged, split, List.append_assoc]
    · simp [others, batch, judged]
  · have waiting := drain_foundHeader_waiting header judged
    rw [waiting] at tracks
    obtain ⟨events, logged, found⟩ := inStep.logged tracks rfl
    obtain ⟨skipped, later, split, silent, others⟩ := exists_reassemble found
    refine
      { log := ⟨skipped, later, ?_, silent, ?_⟩
        total := total.symm
        collecting := fun _ => ?_ }
    · rw [logged, split, List.append_assoc]
    · simp [others, judged]
    · rw [inStep.reassembly]
      exact ⟨tracks.active_eq, tracks.held_eq⟩

/-- From any reset state, hunting is leftmost and complete, however the
stream is cut into datagrams. -/
theorem header_hunt {start : Receiver} (reset : start.reassembly = {})
    (datagrams : List (List Byte)) :
    ∃ after, ingestAll start datagrams = some after ∧
      ((∀ offset, ¬HeaderAt start.stats.wireBatchTotal datagrams.flatten
          offset) →
        StillHunting start after datagrams) ∧
      ∀ offset,
        IsLeast
            { offset | HeaderAt start.stats.wireBatchTotal
              datagrams.flatten offset }
            offset →
          StartedAt start after datagrams.flatten offset := by
  obtain ⟨reached, ingested, tracks⟩ :=
    ingestAll_tracks (shadow_tracks start.stats.wireBatchTotal) datagrams
  obtain ⟨after, arrived, inStep⟩ :=
    InStep.of_shadow (ingestAll_inStep (shadow_inStep reset) datagrams)
      ingested
  rw [Nat.zero_add] at tracks
  refine ⟨after, arrived, ?_, ?_⟩
  · intro nowhere
    apply stillHunting_of_shadow inStep tracks
    intro offset header
    exact nowhere offset (headerAt_iff.mpr header)
  · intro offset least
    apply startedAt_of_shadow inStep tracks (headerAt_iff.mp least.1)
    intro earlier below header
    exact Nat.not_lt.mpr (least.2 (headerAt_iff.mpr header)) below

/-- The header of a 21-byte batch in a session of two. -/
def splitHeader : List Byte :=
  PacketHeader.encode
    { magic := kPacketMagic
      seq := 1
      batchTotal := 2
      length := 21
      crc32 := 0 }

/-- A header behind one stray byte that two datagrams share. -/
theorem header_hunt_split :
    ∃ after,
      ingestAll { stats := { batches := 1, wireBatchTotal := some 2 } }
          [0x50#8 :: splitHeader.take 7, splitHeader.drop 7] = some after ∧
        StartedAt { stats := { batches := 1, wireBatchTotal := some 2 } } after
          [0x50#8 :: splitHeader.take 7, splitHeader.drop 7].flatten 1 := by
  have reset : Receiver.reassembly
      { stats := { batches := 1, wireBatchTotal := some 2 } } = {} := rfl
  obtain ⟨after, ingested, _, started⟩ :=
    header_hunt reset [0x50#8 :: splitHeader.take 7, splitHeader.drop 7]
  refine ⟨after, ingested, started 1 ⟨?_, ?_⟩⟩
  · exact
      { complete := by decide
        peeked := by decide
        session := by
          intro known found
          cases found
          decide }
  · intro offset header
    apply Nat.one_le_iff_ne_zero.mpr
    intro front
    subst front
    exact header.peeked (by decide)

end BoostUdp
