import BoostUdp.SessionSummary

/-!
# Which batch defines the session

The session total is taken from the first plausible header of the stream, at
the time the header is seen.  When the batch behind it fails and nothing in it
is salvaged, the receiver goes on with a total that no accepted batch has.
-/

namespace BoostUdp

open LittleEndian StreamMachine

/-- The first offset of the stream where a plausible header starts. -/
structure FirstHeader (stream : List Byte) (offset : Nat) : Prop where
  wellFormed : PlausibleHeader (stream.drop offset)
  first : ∀ earlier < offset, ¬PlausibleHeader (stream.drop earlier)

/-- The batch of the first header: as many bytes as the header announces. -/
def firstBatch (stream : List Byte) (offset : Nat) : List Byte :=
  (stream.drop offset).take
    (PacketHeader.decode (stream.drop offset)).length.toNat

/-- The batch of the first header is judged within the stream: it is complete
and more than a header has been received. -/
def Judged (stream : List Byte) (offset : Nat) : Prop :=
  offset + (PacketHeader.decode (stream.drop offset)).length.toNat ≤
      stream.length ∧
    offset + kPacketHeaderSize < stream.length

/-- The batch of the first header is valid, or a valid batch of its session is
salvaged from it, as soon as it can be judged. -/
def FirstBatchHolds (stream : List Byte) : Prop :=
  ∀ offset, FirstHeader stream offset → Judged stream offset →
    ValidBatch (firstBatch stream offset) ∨
      ∃ tail, Rescued
        (PacketHeader.decode (stream.drop offset)).batchTotal
        (firstBatch stream offset) tail

theorem FirstHeader.complete {stream : List Byte} {offset : Nat}
    (header : FirstHeader stream offset) :
    offset + kPacketHeaderSize ≤ stream.length := by
  have complete := header.wellFormed.complete
  have positive := kPacketHeaderSize_pos
  rw [List.length_drop] at complete
  omega

/-- More bytes do not change what the first header is. -/
theorem firstHeader_append_iff {stream : List Byte} {offset : Nat}
    (complete : offset + kPacketHeaderSize ≤ stream.length)
    (more : List Byte) :
    FirstHeader (stream ++ more) offset ↔ FirstHeader stream offset := by
  have same : ∀ earlier ≤ offset,
      PlausibleHeader ((stream ++ more).drop earlier) ↔
        PlausibleHeader (stream.drop earlier) := by
    intro earlier below
    rw [List.drop_append_of_le_length (by omega)]
    apply plausibleHeader_append_iff
    rw [List.length_drop]
    omega
  constructor
  · intro header
    exact
      { wellFormed := (same offset (Nat.le_refl _)).mp header.wellFormed
        first := fun earlier below found =>
          header.first earlier below
            ((same earlier (Nat.le_of_lt below)).mpr found) }
  · intro header
    exact
      { wellFormed := (same offset (Nat.le_refl _)).mpr header.wellFormed
        first := fun earlier below found =>
          header.first earlier below
            ((same earlier (Nat.le_of_lt below)).mp found) }

theorem FirstHeader.decode_append {stream : List Byte} {offset : Nat}
    (header : FirstHeader stream offset) (more : List Byte) :
    PacketHeader.decode ((stream ++ more).drop offset) =
      PacketHeader.decode (stream.drop offset) := by
  have complete := header.complete
  rw [List.drop_append_of_le_length (by omega)]
  exact PacketHeader.decode_append header.wellFormed.complete more

theorem FirstHeader.firstBatch_append {stream : List Byte} {offset : Nat}
    (header : FirstHeader stream offset) (more : List Byte)
    (fits : offset + (PacketHeader.decode
      (stream.drop offset)).length.toNat ≤ stream.length) :
    firstBatch (stream ++ more) offset = firstBatch stream offset := by
  have inside : offset ≤ stream.length := by omega
  rw [firstBatch, header.decode_append more,
    List.drop_append_of_le_length inside,
    List.take_append_of_le_length (by rw [List.length_drop]; omega),
    firstBatch]

/-- The pending bytes start with a complete valid batch of the session. -/
def AtValidBatch (config : ScanConfig) : Prop :=
  ∃ size ≤ config.pending.length, ValidBatch (config.pending.take size) ∧
    config.state.total =
      some (PacketHeader.decode config.pending).batchTotal

/-- How a run comes to its first accepted batch. -/
def Opening (stream : List Byte) (config : ScanConfig) : Prop :=
  (config.state.total = none ∧
      ∀ earlier < config.position, ¬PlausibleHeader (stream.drop earlier)) ∨
    (FirstHeader stream config.position ∧ config.state.collecting ≠ none) ∨
    AtValidBatch config ∨
    acceptedSpans config.trail ≠ []

theorem atValidBatch_of_rescued {config : ScanConfig} {total : Word}
    {batch : List Byte} {tail : Nat}
    (pending : ∃ more, config.pending = batch.drop tail ++ more)
    (session : config.state.total = some total)
    (rescued : Rescued total batch tail) : AtValidBatch config := by
  obtain ⟨next, fits, valid⟩ := rescued
  obtain ⟨more, split⟩ := pending
  obtain ⟨wellFormed, _, same⟩ := nextCandidate_iff.mp next.candidate
  have room : (PacketHeader.decode (batch.drop tail)).length.toNat ≤
      (batch.drop tail).length := by
    rw [List.length_drop]
    exact fits
  refine ⟨(PacketHeader.decode (batch.drop tail)).length.toNat, ?_, ?_, ?_⟩
  · rw [split, List.length_append]
    exact Nat.le_add_right_of_le room
  · rw [split, List.take_append_of_le_length room]
    exact ValidBatch.of_validateBatch room valid
  · rw [split, PacketHeader.decode_append wellFormed.complete, same]
    exact session

theorem AtValidBatch.sessionHeader {config : ScanConfig}
    (valid : AtValidBatch config) :
    SessionHeader config.state.total config.pending := by
  obtain ⟨size, fits, batch, session⟩ := valid
  have complete := batch.wellFormed.complete
  rw [List.length_take_of_le fits] at complete
  refine ⟨(plausibleHeader_take_iff complete fits).mp batch.wellFormed, ?_⟩
  intro known same
  rw [session] at same
  exact Option.some.inj same

theorem AtValidBatch.take_expected {config : ScanConfig}
    (valid : AtValidBatch config) (announced : Announced config)
    {expected : BatchLength}
    (collecting : config.state.collecting = some expected) :
    ValidBatch (config.pending.take expected.value) := by
  obtain ⟨size, fits, batch, _⟩ := valid
  obtain ⟨_, length, _⟩ := announced expected collecting
  have complete := batch.wellFormed.complete
  have header := batch.header_length
  rw [List.length_take_of_le fits] at complete header
  rw [PacketHeader.decode_take complete fits, length] at header
  rw [header]
  exact batch

/-- Under the condition a valid batch is salvaged from the first batch when
that one fails. -/
theorem FirstHeader.rescued {stream more : List Byte} {config : ScanConfig}
    (first : FirstHeader stream config.position)
    (holds : FirstBatchHolds (stream ++ more))
    (standing : Standing stream config) {expected : BatchLength}
    (collecting : config.state.collecting = some expected)
    (arrived : expected.value ≤ config.pending.length)
    (beyond : kPacketHeaderSize < config.pending.length)
    (invalid : ¬ValidBatch (config.pending.take expected.value)) :
    ∃ tail, Rescued (PacketHeader.decode config.pending).batchTotal
      (config.pending.take expected.value) tail := by
  have pending := standing.inside.2
  have whole := standing.inside.length_pending
  obtain ⟨_, length, _⟩ := standing.announced expected collecting
  have firstMore :=
    (firstHeader_append_iff first.complete more).mpr first
  have sameHeader := first.decode_append more
  rw [← pending] at sameHeader
  have judged : Judged (stream ++ more) config.position := by
    rw [Judged, sameHeader, length, List.length_append]
    omega
  have fits : config.position +
      (PacketHeader.decode
        (stream.drop config.position)).length.toNat ≤ stream.length := by
    rw [← pending, length]
    omega
  have sameBatch : firstBatch (stream ++ more) config.position =
      config.pending.take expected.value := by
    rw [first.firstBatch_append more fits, firstBatch, ← pending, length]
  have outcome := holds config.position firstMore judged
  rw [sameBatch, sameHeader] at outcome
  exact outcome.resolve_left invalid

/-- As long as the condition holds of a longer stream, every move of a run
through the shorter one keeps it on its way to an accepted batch. -/
theorem Opening.advance {stream more : List Byte}
    (holds : FirstBatchHolds (stream ++ more)) {config next : ScanConfig}
    (standing : Standing stream config) (opening : Opening stream config)
    (advanced : scanner.advance config = some next) :
    Opening stream next := by
  have pending := standing.inside.2
  rcases opening with ⟨unset, before⟩ | ⟨first, collects⟩ | valid | accepted
  · cases advance_cases advanced with
    | header header hunting =>
        refine Or.inr (Or.inl ⟨⟨?_, before⟩, by simp⟩)
        rw [← pending]
        exact header.wellFormed
    | skip hunting complete other =>
        refine Or.inl ⟨unset, fun earlier below wellFormed => ?_⟩
        rcases Nat.lt_succ_iff_lt_or_eq.mp below with old | rfl
        · exact before earlier old wellFormed
        · rw [← pending] at wellFormed
          refine other ⟨wellFormed, fun known same => ?_⟩
          exact absurd (unset.symm.trans same) (by simp)
    | accept expected collecting =>
        have total := (standing.announced expected collecting).2.2
        exact absurd (unset.symm.trans total) (by simp)
    | reject expected collecting =>
        have total := (standing.announced expected collecting).2.2
        exact absurd (unset.symm.trans total) (by simp)
  · cases advance_cases advanced with
    | header header hunting =>
        exact absurd hunting collects
    | skip hunting complete other =>
        exact absurd hunting collects
    | accept expected collecting arrived beyond valid =>
        refine Or.inr (Or.inr (Or.inr ?_))
        simp [acceptedSpans_append, Verdict.accepted?]
    | reject expected collecting arrived beyond invalid =>
        obtain ⟨tail, rescued⟩ :=
          first.rescued holds standing collecting arrived beyond invalid
        have total := (standing.announced expected collecting).2.2
        refine Or.inr (Or.inr (Or.inl ?_))
        refine atValidBatch_of_rescued
          ⟨config.pending.drop expected.value, ?_⟩ total rescued
        dsimp only
        rw [drop_rejectedAdvance, total, salvaged_rescued rescued]
  · cases advance_cases advanced with
    | header header hunting =>
        obtain ⟨size, fits, batch, session⟩ := valid
        exact Or.inr (Or.inr (Or.inl ⟨size, fits, batch, rfl⟩))
    | skip hunting complete other =>
        exact absurd valid.sessionHeader other
    | accept expected collecting arrived beyond judged =>
        refine Or.inr (Or.inr (Or.inr ?_))
        simp [acceptedSpans_append, Verdict.accepted?]
    | reject expected collecting arrived beyond invalid =>
        exact absurd (valid.take_expected standing.announced collecting) invalid
  · refine Or.inr (Or.inr (Or.inr ?_))
    obtain ⟨move, _, rfl⟩ := scanner.advance_eq_some advanced
    intro none
    rw [Config.apply, acceptedSpans, List.filterMap_append] at none
    exact accepted (List.append_eq_nil_iff.mp none).1

/-- Idle receivers have no session total, or that of a batch they have
accepted. -/
def DefinedByAccepted (receiver : Receiver) : Prop :=
  receiver.reassembly.active = false →
    receiver.stats.wireBatchTotal = none ∨
      ∃ batch ∈ receiver.acceptedBatches,
        receiver.stats.wireBatchTotal =
          some (PacketHeader.decode batch).batchTotal

theorem definedByAccepted_of_holds {stream more : List Byte}
    (holds : FirstBatchHolds (stream ++ more)) {calls : Nat}
    {receiver : Receiver} (tracks : Tracks calls receiver (scan stream)) :
    DefinedByAccepted receiver := by
  intro idle
  rw [tracks.active_eq] at idle
  have hunting : (scan stream).state.collecting = none := by
    simpa using idle
  have start : Opening stream (ScanConfig.fresh.extend stream) :=
    Or.inl ⟨rfl, fun earlier below => absurd below (Nat.not_lt_zero earlier)⟩
  have opening := (scan_induction stream (Opening stream) start
    (Opening.advance holds)).2
  rcases opening with ⟨unset, _⟩ | ⟨_, collects⟩ | valid | accepted
  · exact Or.inl (tracks.total_eq.symm.trans unset)
  · exact absurd hunting collects
  · have state : (scan stream).state =
        { total := (scan stream).state.total } := by
      rw [← hunting]
    have moves := advance_header state valid.sessionHeader
    rw [advance_scan] at moves
    contradiction
  · obtain ⟨span, member⟩ := List.exists_mem_of_ne_nil _ accepted
    refine Or.inr ⟨span.2, ?_, ?_⟩
    · rw [Receiver.acceptedBatches_eq, ← tracks.logged.trail,
        ← acceptedSpans_batches]
      exact List.mem_map_of_mem member
    · rw [← tracks.total_eq]
      exact (scan_provenance stream).session span member

/-- A run reaches the first header with nothing found. -/
theorem FirstHeader.scan_eq {stream : List Byte} {offset : Nat}
    (header : FirstHeader stream offset) :
    scan stream =
      scanner.drain
        { state := {}
          position := offset
          pending := stream.drop offset
          trail := [] } := by
  have complete := header.complete
  have unset : (ScanConfig.fresh.extend stream).state = { total := none } :=
    rfl
  rw [scan, feed, drain_skip _ unset offset]
  · simp [ScanConfig.fresh]
  · intro earlier below
    refine ⟨?_, fun found => header.first earlier below found.wellFormed⟩
    simp only [ScanConfig.fresh, Config.extend_pending, List.nil_append]
    omega

/-- A header whose batch fails with nothing to salvage is passed over, but its
total stays. -/
theorem drain_failed (config : ScanConfig) {total : Option Word}
    (state : config.state = { total := total })
    (header : SessionHeader total config.pending) {batch : List Byte}
    (arrived : (PacketHeader.decode config.pending).length.toNat ≤
      config.pending.length)
    (beyond : kPacketHeaderSize < config.pending.length)
    (front : config.pending.take
      (PacketHeader.decode config.pending).length.toNat = batch)
    (invalid : ¬ValidBatch batch)
    (lost : salvaged
      (some (PacketHeader.decode config.pending).batchTotal) batch = []) :
    scanner.drain config =
      scanner.drain
        { state :=
            { total := some (PacketHeader.decode config.pending).batchTotal }
          position := config.position +
            (PacketHeader.decode config.pending).length.toNat
          pending := config.pending.drop
            (PacketHeader.decode config.pending).length.toNat
          trail := config.trail ++
            [(config.position,
                .started (PacketHeader.decode config.pending)),
              (config.position, .rejected batch 0)] } := by
  subst front
  have advance : rejectedAdvance
      (some (PacketHeader.decode config.pending).batchTotal)
      (config.pending.take
        (PacketHeader.decode config.pending).length.toNat) =
        (PacketHeader.decode config.pending).length.toNat := by
    rw [rejectedAdvance, lost, List.length_take_of_le arrived]
    rfl
  let collecting : ScanConfig :=
    { config with
      state :=
        { total := some (PacketHeader.decode config.pending).batchTotal
          collecting := some header.wellFormed.batchLength }
      trail := config.trail ++
        [(config.position,
          .started (PacketHeader.decode config.pending))] }
  have failed : scanner.advance collecting = some _ :=
    advance_reject rfl arrived beyond invalid
  rw [scanner.drain_of_some (advance_header state header),
    scanner.drain_of_some failed]
  simp only [collecting, PlausibleHeader.batchLength, advance, lost,
    List.length_nil, List.append_assoc, List.cons_append, List.nil_append]

/-- A stream that ends where its first batch fails with nothing to salvage
leaves the scanner idle, with nothing accepted, and with a session total. -/
theorem scan_failed {stream : List Byte} {offset : Nat}
    (header : FirstHeader stream offset) (judged : Judged stream offset)
    (ends : stream.length < offset +
      (PacketHeader.decode (stream.drop offset)).length.toNat +
        kPacketHeaderSize)
    (invalid : ¬ValidBatch (firstBatch stream offset))
    (lost : ∀ tail, ¬Rescued
      (PacketHeader.decode (stream.drop offset)).batchTotal
      (firstBatch stream offset) tail) :
    (scan stream).state =
        { total :=
            some (PacketHeader.decode (stream.drop offset)).batchTotal } ∧
      acceptedSpans (scan stream).trail = [] := by
  obtain ⟨fits, beyond⟩ := judged
  have nothing : salvaged
      (some (PacketHeader.decode (stream.drop offset)).batchTotal)
      (firstBatch stream offset) = [] := by
    by_contra carried
    obtain ⟨tail, rescued⟩ := rescued_of_salvaged carried
    exact lost tail rescued
  let reached : ScanConfig :=
    { state := {}
      position := offset
      pending := stream.drop offset
      trail := [] }
  have start : SessionHeader none reached.pending :=
    ⟨header.wellFormed, fun _ absurdity => by contradiction⟩
  have arrived : (PacketHeader.decode reached.pending).length.toNat ≤
      reached.pending.length := by
    rw [List.length_drop]
    exact Nat.le_sub_of_add_le (Nat.add_comm _ _ ▸ fits)
  have longer : kPacketHeaderSize < reached.pending.length := by
    rw [List.length_drop]
    omega
  have failed := drain_failed reached rfl start arrived longer rfl invalid
    nothing
  rw [header.scan_eq, failed, scanner.drain_of_none]
  · exact ⟨rfl, rfl⟩
  · apply scanner.advance_eq_none
    apply scanStep_hunting_short
    have size : reached.pending.length = stream.length - offset :=
      List.length_drop
    change (reached.pending.drop
      (PacketHeader.decode (stream.drop offset)).length.toNat).length <
        kPacketHeaderSize
    rw [List.length_drop, size]
    omega

/-- Right after the first batch of a stream has failed with nothing to salvage
the receiver is idle, has accepted nothing, and has a session total. -/
theorem exists_failed_prefix {stream : List Byte} {offset : Nat}
    (header : FirstHeader stream offset) (judged : Judged stream offset)
    (invalid : ¬ValidBatch (firstBatch stream offset))
    (lost : ∀ tail, ¬Rescued
      (PacketHeader.decode (stream.drop offset)).batchTotal
      (firstBatch stream offset) tail) :
    ∃ front total, front <+: stream ∧
      (scan front).state = { total := some total } ∧
      acceptedSpans (scan front).trail = [] := by
  obtain ⟨fits, beyond⟩ := judged
  have positive := kPacketHeaderSize_pos
  obtain ⟨count, larger, smaller, complete, within⟩ : ∃ count,
      (PacketHeader.decode (stream.drop offset)).length.toNat ≤ count ∧
      count < (PacketHeader.decode (stream.drop offset)).length.toNat +
        kPacketHeaderSize ∧
      kPacketHeaderSize < count ∧ offset + count ≤ stream.length := by
    have atLeast := header.wellFormed.length_ge
    rcases Nat.eq_or_lt_of_le atLeast with headerOnly | longer
    · refine ⟨kPacketHeaderSize + 1, ?_, ?_, ?_, ?_⟩ <;>
        unfold kPacketHeaderSize at * <;> omega
    · exact ⟨_, Nat.le_refl _, by omega, longer, fits⟩
  obtain ⟨front, more, rfl, length⟩ : ∃ front more, stream = front ++ more ∧
      front.length = offset + count :=
    ⟨stream.take (offset + count), stream.drop (offset + count),
      (List.take_append_drop _ _).symm, List.length_take_of_le within⟩
  have headerFront := (firstHeader_append_iff (by omega) more).mp header
  have sameHeader := headerFront.decode_append more
  rw [sameHeader] at larger smaller lost
  rw [headerFront.firstBatch_append more (by omega)] at invalid lost
  obtain ⟨state, accepted⟩ := scan_failed headerFront
    ⟨by omega, by omega⟩ (by omega) invalid lost
  exact ⟨front, _, List.prefix_append _ _, state, accepted⟩

/-- In every session over a prefix of the stream the total is defined by an
accepted batch exactly when the first batch that can be judged in the stream
is valid, or has a valid batch salvaged from it. -/
theorem definedByAccepted_iff (stream : List Byte) :
    (∀ datagrams : List (List Byte), datagrams.flatten <+: stream →
        ∃ receiver, ingestAll {} datagrams = some receiver ∧
          DefinedByAccepted receiver) ↔
      FirstBatchHolds stream := by
  constructor
  · intro defined offset header judged
    by_contra fails
    obtain ⟨invalid, lost⟩ := not_or.mp fails
    obtain ⟨front, total, within, state, accepted⟩ :=
      exists_failed_prefix header judged invalid (not_exists.mp lost)
    obtain ⟨receiver, ingested, holds⟩ := defined [front] (by simpa using within)
    have tracks := tracks_of_ingestAll ingested
    have flat : [front].flatten = front := by simp
    rw [flat] at tracks
    have idle : receiver.reassembly.active = false := by
      rw [tracks.active_eq, state]
      rfl
    rcases holds idle with unset | ⟨batch, member, _⟩
    · rw [← tracks.total_eq, state] at unset
      contradiction
    · rw [Receiver.acceptedBatches_eq, ← tracks.logged.trail,
        ← acceptedSpans_batches, accepted] at member
      contradiction
  · rintro holds datagrams ⟨more, rfl⟩
    obtain ⟨receiver, ingested, tracks⟩ := ingestAll_fresh datagrams
    exact ⟨receiver, ingested, definedByAccepted_of_holds holds tracks⟩

/-- A first batch of total 2 whose header arrives with total 3 fails its
checksum, and the valid batch after it is discarded. -/
theorem corrupt_header_defines_session :
    ∃ receiver,
      ingestAll {} [(encodeBatch 0 2 [0x50#8]).set 8 0x03#8,
          encodeBatch 1 2 [0x50#8]] = some receiver ∧
        ¬DefinedByAccepted receiver ∧
        receiver.stats.wireBatchTotal = some 3 ∧
        receiver.stats.batches = 0 := by
  have found : (ingestAll {} [(encodeBatch 0 2 [0x50#8]).set 8 0x03#8,
      encodeBatch 1 2 [0x50#8]]).any (fun receiver =>
        receiver.reassembly.active = false ∧
          receiver.acceptedBatches = [] ∧
          receiver.stats.wireBatchTotal = some 3 ∧
          receiver.stats.batches = 0) = true := by
    decide +kernel
  obtain ⟨receiver, ingested, checked⟩ := (Option.any_eq_true _ _).mp found
  obtain ⟨idle, none, total, batches⟩ := of_decide_eq_true checked
  refine ⟨receiver, ingested, ?_, total, batches⟩
  intro defined
  rcases defined idle with unset | ⟨batch, member, _⟩
  · exact absurd (total.symm.trans unset) (by simp)
  · rw [none] at member
    exact List.not_mem_nil member

end BoostUdp
