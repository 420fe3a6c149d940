import BoostUdp.Server.Refinement

/-!
# Runs of the scanner

What one move of the scanner does to a whole configuration, the invariant of
the header under collection, and the runs over streams that are put together
from valid batches.
-/

namespace BoostUdp

open LittleEndian StreamMachine

/-- Everything a move of the scanner can do. -/
inductive ScanMove (config : ScanConfig) : ScanConfig → Prop where
  | header (header : SessionHeader config.state.total config.pending)
      (hunting : config.state.collecting = none) :
      ScanMove config
        { config with
          state :=
            { total := some (PacketHeader.decode config.pending).batchTotal
              collecting := some header.wellFormed.batchLength }
          trail := config.trail ++
            [(config.position,
              .started (PacketHeader.decode config.pending))] }
  | skip (hunting : config.state.collecting = none)
      (complete : kPacketHeaderSize ≤ config.pending.length)
      (other : ¬SessionHeader config.state.total config.pending) :
      ScanMove config
        { config with
          position := config.position + 1
          pending := config.pending.drop 1 }
  | accept (expected : BatchLength)
      (collecting : config.state.collecting = some expected)
      (arrived : expected.value ≤ config.pending.length)
      (beyond : kPacketHeaderSize < config.pending.length)
      (valid : ValidBatch (config.pending.take expected.value)) :
      ScanMove config
        { state := { total := config.state.total }
          position := config.position + expected.value
          pending := config.pending.drop expected.value
          trail := config.trail ++
            [(config.position,
              .accepted (config.pending.take expected.value))] }
  | reject (expected : BatchLength)
      (collecting : config.state.collecting = some expected)
      (arrived : expected.value ≤ config.pending.length)
      (beyond : kPacketHeaderSize < config.pending.length)
      (invalid : ¬ValidBatch (config.pending.take expected.value)) :
      ScanMove config
        { state := { total := config.state.total }
          position := config.position +
            rejectedAdvance config.state.total
              (config.pending.take expected.value)
          pending := config.pending.drop
            (rejectedAdvance config.state.total
              (config.pending.take expected.value))
          trail := config.trail ++
            [(config.position,
              .rejected (config.pending.take expected.value)
                (salvaged config.state.total
                  (config.pending.take expected.value)).length)] }

theorem advance_cases {config next : ScanConfig}
    (advanced : scanner.advance config = some next) :
    ScanMove config next := by
  obtain ⟨move, stepped, rfl⟩ := scanner.advance_eq_some advanced
  cases scanStep_cases stepped with
  | header header hunting =>
      simpa [Config.apply] using ScanMove.header header hunting
  | skip hunting complete other =>
      simpa [Config.apply] using ScanMove.skip hunting complete other
  | judge expected collecting arrived beyond =>
      by_cases valid : ValidBatch (config.pending.take expected.value)
      · rw [judge_accept valid, List.length_take_of_le arrived]
        exact .accept expected collecting arrived beyond valid
      · rw [judge_reject valid]
        exact .reject expected collecting arrived beyond valid

theorem scanStep_single {state : ScanState} {input : List Byte}
    {move : Move ScanState Verdict}
    (stepped : scanner.step state input = some move) :
    move.outputs.length ≤ 1 := by
  cases scanStep_cases stepped with
  | header =>
      exact Nat.le_refl 1
  | skip =>
      exact Nat.zero_le 1
  | judge =>
      unfold judge
      split <;> exact Nat.le_refl 1

theorem advance_header {config : ScanConfig} {total : Option Word}
    (state : config.state = { total := total })
    (header : SessionHeader total config.pending) :
    scanner.advance config =
      some
        { config with
          state :=
            { total := some (PacketHeader.decode config.pending).batchTotal
              collecting := some header.wellFormed.batchLength }
          trail := config.trail ++
            [(config.position,
              .started (PacketHeader.decode config.pending))] } := by
  have stepped := scanStep_hunting_header header
  rw [← state] at stepped
  simp [advance, scanner, stepped, Config.apply]

theorem advance_accept {config : ScanConfig} {total : Option Word}
    {expected : BatchLength}
    (state : config.state = { total := total, collecting := some expected })
    (arrived : expected.value ≤ config.pending.length)
    (beyond : kPacketHeaderSize < config.pending.length)
    (valid : ValidBatch (config.pending.take expected.value)) :
    scanner.advance config =
      some
        { state := { total := total }
          position := config.position + expected.value
          pending := config.pending.drop expected.value
          trail := config.trail ++
            [(config.position,
              .accepted (config.pending.take expected.value))] } := by
  have stepped : scanStep config.state config.pending =
      some (judge total (config.pending.take expected.value)) := by
    rw [state]
    exact scanStep_collecting_judge arrived beyond
  rw [judge_accept valid, List.length_take_of_le arrived] at stepped
  simp [advance, scanner, stepped, Config.apply]

theorem advance_reject {config : ScanConfig} {total : Option Word}
    {expected : BatchLength}
    (state : config.state = { total := total, collecting := some expected })
    (arrived : expected.value ≤ config.pending.length)
    (beyond : kPacketHeaderSize < config.pending.length)
    (invalid : ¬ValidBatch (config.pending.take expected.value)) :
    scanner.advance config =
      some
        { state := { total := total }
          position := config.position +
            rejectedAdvance total (config.pending.take expected.value)
          pending := config.pending.drop
            (rejectedAdvance total (config.pending.take expected.value))
          trail := config.trail ++
            [(config.position,
              .rejected (config.pending.take expected.value)
                (salvaged total
                  (config.pending.take expected.value)).length)] } := by
  have stepped : scanStep config.state config.pending =
      some (judge total (config.pending.take expected.value)) := by
    rw [state]
    exact scanStep_collecting_judge arrived beyond
  rw [judge_reject invalid] at stepped
  simp [advance, scanner, stepped, Config.apply]

/-- The session total is set once. -/
theorem total_advance {config next : ScanConfig} {total : Word}
    (known : config.state.total = some total)
    (advanced : scanner.advance config = some next) :
    next.state.total = some total := by
  cases advance_cases advanced with
  | header header =>
      exact congrArg some (header.same total known)
  | skip =>
      exact known
  | accept =>
      exact known
  | reject =>
      exact known

theorem total_feed {config : ScanConfig} {total : Word}
    (known : config.state.total = some total) (chunk : List Byte) :
    (scanner.feed config chunk).state.total = some total :=
  scanner.drain_induction (fun later => later.state.total = some total)
    total_advance _ known

/-- A collecting scanner stands at the header that made it collect. -/
def Announced (config : ScanConfig) : Prop :=
  ∀ expected, config.state.collecting = some expected →
    PlausibleHeader config.pending ∧
      (PacketHeader.decode config.pending).length.toNat = expected.value ∧
      config.state.total =
        some (PacketHeader.decode config.pending).batchTotal

theorem Announced.advance {config next : ScanConfig}
    (advanced : scanner.advance config = some next) : Announced next := by
  cases advance_cases advanced with
  | header header =>
      intro expected collecting
      cases collecting
      exact ⟨header.wellFormed, rfl, rfl⟩
  | skip hunting =>
      intro expected collecting
      exact absurd (hunting.symm.trans collecting) (by simp)
  | accept =>
      intro expected collecting
      contradiction
  | reject =>
      intro expected collecting
      contradiction

theorem Announced.extend {config : ScanConfig} (announced : Announced config)
    (chunk : List Byte) : Announced (config.extend chunk) := by
  intro expected collecting
  obtain ⟨wellFormed, length, total⟩ := announced expected collecting
  have sameHeader := PacketHeader.decode_append wellFormed.complete chunk
  refine ⟨(plausibleHeader_append_iff wellFormed.complete chunk).mpr wellFormed,
    ?_, ?_⟩
  · rw [Config.extend_pending, sameHeader]
    exact length
  · rw [Config.extend_pending, sameHeader]
    exact total

theorem announced_fresh : Announced ScanConfig.fresh := by
  intro expected collecting
  contradiction

/-- The position of a run inside a stream, with the header it collects. -/
structure Standing (stream : List Byte) (config : ScanConfig) : Prop where
  inside : config.Inside stream
  announced : Announced config

theorem Standing.advance {stream : List Byte} {config next : ScanConfig}
    (standing : Standing stream config)
    (advanced : scanner.advance config = some next) :
    Standing stream next :=
  ⟨scanner.advance_inside standing.inside advanced,
    Announced.advance advanced⟩

theorem standing_start (stream : List Byte) :
    Standing stream (ScanConfig.fresh.extend stream) :=
  ⟨⟨Nat.zero_le _, by simp [ScanConfig.fresh]⟩, announced_fresh.extend stream⟩

/-- What holds at the start of a stream and is preserved by every move of the
run through it holds of its scan. -/
theorem scan_induction (stream : List Byte) (Invariant : ScanConfig → Prop)
    (initial : Invariant (ScanConfig.fresh.extend stream))
    (preserved : ∀ {config next}, Standing stream config →
      Invariant config → scanner.advance config = some next →
      Invariant next) :
    Standing stream (scan stream) ∧ Invariant (scan stream) := by
  apply scanner.drain_induction
    (fun config => Standing stream config ∧ Invariant config)
  · rintro config next ⟨standing, invariant⟩ advanced
    exact ⟨standing.advance advanced, preserved standing invariant advanced⟩
  · exact ⟨standing_start stream, initial⟩

theorem scan_standing (stream : List Byte) : Standing stream (scan stream) :=
  (scan_induction stream (fun _ => True) trivial fun _ _ _ => trivial).1

/-- More bytes continue the run. -/
theorem scan_append (stream more : List Byte) :
    scan (stream ++ more) = scanner.feed (scan stream) more :=
  (scanner.feed_feed _ _ _).symm

theorem advance_scan (stream : List Byte) :
    scanner.advance (scan stream) = none :=
  scanner.advance_drain _

/-- Where a finished run stands: hunting with a tail shorter than a header,
or collecting a batch that is not complete, or one that is only a header. -/
theorem waiting_cases {config : ScanConfig} (announced : Announced config)
    (waiting : scanner.advance config = none) :
    (config.state.collecting = none ∧
        config.pending.length < kPacketHeaderSize) ∨
      ∃ expected, config.state.collecting = some expected ∧
        (config.pending.length < expected.value ∨
          config.pending.length = kPacketHeaderSize) := by
  have blocked := scanner.step_eq_none waiting
  change scanStep config.state config.pending = none at blocked
  cases collecting : config.state.collecting with
  | none =>
      refine Or.inl ⟨rfl, ?_⟩
      by_contra complete
      simp only [scanStep, collecting, if_neg complete] at blocked
      split at blocked <;> contradiction
  | some expected =>
      refine Or.inr ⟨expected, rfl, ?_⟩
      have complete := (announced expected collecting).1.complete
      by_contra arrived
      push Not at arrived
      have judged : ¬(config.pending.length < expected.value ∨
          config.pending.length ≤ kPacketHeaderSize) := by omega
      simp [scanStep, collecting, judged] at blocked

/-- A scanner that hunts where no header of its session starts finds
nothing. -/
theorem drain_quiet (config : ScanConfig) {total : Option Word}
    (state : config.state = { total := total })
    (quiet : ∀ offset, ¬SessionHeader total (config.pending.drop offset)) :
    (scanner.drain config).trail = config.trail ∧
      (scanner.drain config).state = { total := total } := by
  have positive := kPacketHeaderSize_pos
  rw [drain_skip config state
    (config.pending.length + 1 - kPacketHeaderSize) (by
      intro offset below
      exact ⟨by omega, quiet offset⟩)]
  rw [scanner.drain_of_none]
  · exact ⟨rfl, state⟩
  · apply scanner.advance_eq_none
    change scanStep config.state _ = none
    rw [state]
    apply scanStep_hunting_short
    rw [List.length_drop]
    omega

/-- A scanner that hunts stops at the first header of its session. -/
theorem drain_first (config : ScanConfig) {total : Option Word}
    (state : config.state = { total := total }) {first : Nat}
    (header : SessionHeader total (config.pending.drop first))
    (least : ∀ earlier < first,
      ¬SessionHeader total (config.pending.drop earlier)) :
    scanner.drain config =
      scanner.drain
        { state :=
            { total := some
                (PacketHeader.decode (config.pending.drop first)).batchTotal
              collecting := some header.wellFormed.batchLength }
          position := config.position + first
          pending := config.pending.drop first
          trail := config.trail ++
            [(config.position + first,
              .started (PacketHeader.decode
                (config.pending.drop first)))] } := by
  have positive := kPacketHeaderSize_pos
  have complete := header.wellFormed.complete
  rw [List.length_drop] at complete
  rw [drain_skip config state first (by
    intro earlier below
    exact ⟨by omega, least earlier below⟩)]
  let reached : ScanConfig :=
    { config with
      position := config.position + first
      pending := config.pending.drop first }
  have arrived : SessionHeader total reached.pending := header
  have standing : reached.state = { total := total } := state
  exact scanner.drain_of_some (advance_header standing arrived)

/-- A scanner that hunts where a header of its session starts further on
stops at the first one. -/
theorem drain_started (config : ScanConfig) {total : Option Word}
    (state : config.state = { total := total }) {offset : Nat}
    (header : SessionHeader total (config.pending.drop offset)) :
    ∃ first, first ≤ offset ∧
      SessionHeader total (config.pending.drop first) ∧
      (config.trail ++
        [(config.position + first,
          Verdict.started (PacketHeader.decode
            (config.pending.drop first)))]) <+:
        (scanner.drain config).trail := by
  have exists_header : ∃ offset,
      SessionHeader total (config.pending.drop offset) := ⟨offset, header⟩
  have found := Nat.find_spec exists_header
  refine ⟨Nat.find exists_header, Nat.find_min' exists_header header, found,
    ?_⟩
  rw [drain_first config state found fun earlier below =>
    Nat.find_min exists_header below]
  refine List.IsPrefix.trans ?_ (scanner.trail_prefix_drain _)
  exact List.prefix_rfl

/-- A batch of the session with this total. -/
structure BatchOf (total : Word) (batch : List Byte) : Prop where
  valid : ValidBatch batch
  batchTotal : (PacketHeader.decode batch).batchTotal = total

theorem BatchOf.sameSession {known : Option Word} {total : Word}
    {batch : List Byte} (member : BatchOf total batch)
    (session : known = none ∨ known = some total) (more : List Byte) :
    SessionHeader known (batch ++ more) := by
  have wellFormed := member.valid.wellFormed
  refine ⟨(plausibleHeader_append_iff wellFormed.complete more).mpr wellFormed,
    ?_⟩
  rw [PacketHeader.decode_append wellFormed.complete]
  intro found equal
  rcases session with absent | present
  · simp [absent] at equal
  · rw [present] at equal
    cases equal
    exact member.batchTotal

/-- The batch that the salvaged tail of a failed one starts with. -/
def rescuedBatch (batch : List Byte) (offset : Nat) : List Byte :=
  (batch.drop offset).take
    (PacketHeader.decode (batch.drop offset)).length.toNat

theorem Rescued.decode_rescuedBatch {total : Word} {batch : List Byte}
    {offset : Nat} (rescued : Rescued total batch offset) :
    PacketHeader.decode (rescuedBatch batch offset) =
      PacketHeader.decode (batch.drop offset) := by
  apply PacketHeader.decode_take
  · exact (validateBatch_eq_ok rescued.2.2).1
  · rw [List.length_drop]
    exact rescued.2.1

theorem Rescued.member {total : Word} {batch : List Byte} {offset : Nat}
    (rescued : Rescued total batch offset) :
    BatchOf total (rescuedBatch batch offset) := by
  constructor
  · apply ValidBatch.of_validateBatch _ rescued.2.2
    rw [List.length_drop]
    exact rescued.2.1
  · rw [rescued.decode_rescuedBatch]
    exact (nextCandidate_iff.mp rescued.1.candidate).2.2

/-- The tail is that batch and what is behind it, which is shorter than the
failed batch by more than a header. -/
theorem Rescued.tail_eq {total : Word} {batch : List Byte} {offset : Nat}
    (rescued : Rescued total batch offset) :
    ∃ behind, batch.drop offset = rescuedBatch batch offset ++ behind ∧
      behind.length + 21 ≤ batch.length := by
  refine ⟨(batch.drop offset).drop
    (PacketHeader.decode (batch.drop offset)).length.toNat,
    (List.take_append_drop _ _).symm, ?_⟩
  have positive := rescued.1.behind
  have complete := rescued.1.complete
  have long := (validateBatch_eq_ok rescued.2.2).1
  unfold kPacketHeaderSize at long complete
  rw [List.length_drop, List.length_drop]
  omega

/-- The scanner, waiting with nothing pending at the start of a batch. -/
def atBoundary (total : Option Word) (position : Nat)
    (trail : List (Nat × Verdict)) : ScanConfig :=
  { state := { total := total }
    position := position
    pending := []
    trail := trail }

theorem atBoundary_waiting (total : Option Word) (position : Nat)
    (trail : List (Nat × Verdict)) :
    scanner.advance (atBoundary total position trail) = none := by
  apply scanner.advance_eq_none
  change scanStep { total := total } [] = none
  exact scanStep_hunting_short (by decide)

/-- A header at the boundary makes the scanner collect. -/
theorem feed_boundary_header {known : Option Word} {total : Word}
    {batch : List Byte} (member : BatchOf total batch)
    (session : known = none ∨ known = some total) (position : Nat)
    (trail : List (Nat × Verdict)) (more : List Byte) :
    ∃ expected : BatchLength, expected.value = batch.length ∧
      scanner.feed (atBoundary known position trail) (batch ++ more) =
        scanner.drain
          { state := { total := some total, collecting := some expected }
            position := position
            pending := batch ++ more
            trail := trail ++
              [(position, .started (PacketHeader.decode batch))] } := by
  have header := member.sameSession session more
  have complete := member.valid.wellFormed.complete
  have sameHeader := PacketHeader.decode_append complete more
  refine ⟨header.wellFormed.batchLength, ?_, ?_⟩
  · simp only [PlausibleHeader.batchLength, sameHeader]
    exact member.valid.header_length
  · let start : ScanConfig :=
      (atBoundary known position trail).extend (batch ++ more)
    have advanced : scanner.advance start = some _ :=
      advance_header rfl header
    have drained := scanner.drain_of_some advanced
    simp only [start, Config.extend_pending, Config.extend_position,
      Config.extend_trail, atBoundary, List.nil_append, sameHeader,
      member.batchTotal] at drained
    exact drained

/-- A valid batch at the boundary is accepted as soon as more than a header
has arrived. -/
theorem feed_boundary_batch {known : Option Word} {total : Word}
    {batch : List Byte} (member : BatchOf total batch)
    (session : known = none ∨ known = some total) (position : Nat)
    (trail : List (Nat × Verdict)) {more : List Byte}
    (beyond : kPacketHeaderSize < (batch ++ more).length) :
    scanner.feed (atBoundary known position trail) (batch ++ more) =
      scanner.feed
        (atBoundary (some total) (position + batch.length)
          (trail ++ [(position, .started (PacketHeader.decode batch)),
            (position, .accepted batch)])) more := by
  obtain ⟨expected, length, collected⟩ :=
    feed_boundary_header member session position trail more
  rw [collected]
  have front : (batch ++ more).take expected.value = batch := by
    rw [length, List.take_left]
  have arrived : expected.value ≤ (batch ++ more).length := by
    rw [length, List.length_append]
    exact Nat.le_add_right _ _
  apply scanner.drain_of_some
  rw [advance_accept rfl arrived beyond (by
    rw [front]
    exact member.valid)]
  simp [length, atBoundary, Config.extend]

/-- A header-only batch at the end of the stream is not judged. -/
theorem feed_boundary_headerOnly {known : Option Word} {total : Word}
    {batch : List Byte} (member : BatchOf total batch)
    (session : known = none ∨ known = some total) (position : Nat)
    (trail : List (Nat × Verdict))
    (headerOnly : batch.length = kPacketHeaderSize) :
    ∃ expected : BatchLength, expected.value = kPacketHeaderSize ∧
      scanner.feed (atBoundary known position trail) batch =
        { state := { total := some total, collecting := some expected }
          position := position
          pending := batch
          trail := trail ++
            [(position, .started (PacketHeader.decode batch))] } := by
  obtain ⟨expected, length, collected⟩ :=
    feed_boundary_header member session position trail []
  rw [List.append_nil] at collected
  refine ⟨expected, length.trans headerOnly, ?_⟩
  rw [collected]
  apply scanner.drain_of_none
  apply scanner.advance_eq_none
  exact scanStep_collecting_short (Or.inr (Nat.le_of_eq headerOnly))

end BoostUdp
