import BoostUdp.DatagramCuts

/-!
# Where accepted batches come from

Every accepted batch is a substring of the received stream, and the substrings
do not overlap.  The invariant follows the position of the scanner: it never
moves back past the end of a batch it has accepted, not even when it returns
to the salvaged tail of a rejected one.
-/

namespace BoostUdp

open LittleEndian StreamMachine

/-- The accepted batches of a run with the positions they start at. -/
def acceptedSpans (trail : List (Nat × Verdict)) :
    List (Nat × List Byte) :=
  trail.filterMap fun entry =>
    entry.2.accepted?.map fun batch => (entry.1, batch)

theorem acceptedSpans_append (trail : List (Nat × Verdict))
    (entry : Nat × Verdict) :
    acceptedSpans (trail ++ [entry]) =
      acceptedSpans trail ++
        (entry.2.accepted?.map fun batch => (entry.1, batch)).toList := by
  simp only [acceptedSpans, List.filterMap_append]
  cases accepted : entry.2.accepted? <;> simp [accepted]

theorem acceptedSpans_batches (trail : List (Nat × Verdict)) :
    (acceptedSpans trail).map Prod.snd =
      acceptedBatches (trail.map Prod.snd) := by
  simp only [acceptedSpans, acceptedBatches, List.map_filterMap,
    List.filterMap_map]
  congr 1
  funext entry
  simp

/-- The batches a run has accepted lie behind its position, one after the
other, and belong to its session. -/
structure Provenance (stream : List Byte) (config : ScanConfig) : Prop where
  substring : ∀ span ∈ acceptedSpans config.trail,
    (stream.drop span.1).take span.2.length = span.2
  behind : ∀ span ∈ acceptedSpans config.trail,
    span.1 + span.2.length ≤ config.position
  ordered : (acceptedSpans config.trail).Pairwise fun earlier later =>
    earlier.1 + earlier.2.length ≤ later.1
  valid : ∀ span ∈ acceptedSpans config.trail, ValidBatch span.2
  session : ∀ span ∈ acceptedSpans config.trail,
    config.state.total = some (PacketHeader.decode span.2).batchTotal

/-- A move that accepts nothing. -/
theorem Provenance.keep {stream : List Byte} {config next : ScanConfig}
    (provenance : Provenance stream config)
    (same : acceptedSpans next.trail = acceptedSpans config.trail)
    (onward : config.position ≤ next.position)
    (total : ∀ known, config.state.total = some known →
      next.state.total = some known) :
    Provenance stream next := by
  refine
    { substring := by rw [same]; exact provenance.substring
      behind := ?_
      ordered := by rw [same]; exact provenance.ordered
      valid := by rw [same]; exact provenance.valid
      session := ?_ }
  · rw [same]
    intro span member
    exact Nat.le_trans (provenance.behind span member) onward
  · rw [same]
    intro span member
    exact total _ (provenance.session span member)

/-- A move that accepts a batch where the run stands. -/
theorem Provenance.accept {stream : List Byte} {config next : ScanConfig}
    (provenance : Provenance stream config) {span : Nat × List Byte}
    (spans : acceptedSpans next.trail = acceptedSpans config.trail ++ [span])
    (start : span.1 = config.position)
    (position : next.position = span.1 + span.2.length)
    (substring : (stream.drop span.1).take span.2.length = span.2)
    (valid : ValidBatch span.2)
    (kept : next.state.total = config.state.total)
    (session : next.state.total =
      some (PacketHeader.decode span.2).batchTotal) :
    Provenance stream next := by
  have both : ∀ {Holds : Nat × List Byte → Prop},
      (∀ old ∈ acceptedSpans config.trail, Holds old) → Holds span →
        ∀ any ∈ acceptedSpans next.trail, Holds any := by
    intro Holds old new
    rw [spans]
    exact List.forall_mem_append.mpr ⟨old, List.forall_mem_singleton.mpr new⟩
  have onward : config.position ≤ next.position := by omega
  refine
    { substring := both provenance.substring substring
      behind := both
        (fun old member => Nat.le_trans (provenance.behind old member) onward)
        (Nat.le_of_eq position.symm)
      ordered := ?_
      valid := both provenance.valid valid
      session := both
        (fun old member => kept.trans (provenance.session old member))
        session }
  rw [spans, List.pairwise_append]
  refine ⟨provenance.ordered, List.pairwise_singleton _ _, ?_⟩
  intro earlier old later new
  rw [List.mem_singleton.mp new, start]
  exact provenance.behind earlier old

theorem Provenance.advance {stream : List Byte} {config next : ScanConfig}
    (standing : Standing stream config)
    (provenance : Provenance stream config)
    (advanced : scanner.advance config = some next) :
    Provenance stream next := by
  cases advance_cases advanced with
  | header header hunting =>
      apply provenance.keep
      · simp [acceptedSpans_append, Verdict.accepted?]
      · exact Nat.le_refl _
      · intro known same
        exact congrArg some (header.same known same)
  | skip hunting complete other =>
      exact provenance.keep rfl (Nat.le_succ _) fun _ same => same
  | accept expected collecting arrived beyond valid =>
      have total := (standing.announced expected collecting).2.2
      have size := List.length_take_of_le arrived
      have sameHeader := PacketHeader.decode_take expected.atLeast arrived
      let span := (config.position, config.pending.take expected.value)
      have spans : acceptedSpans (config.trail ++
          [(span.1, .accepted span.2)]) =
          acceptedSpans config.trail ++ [span] := by
        simp [acceptedSpans_append, Verdict.accepted?]
      apply provenance.accept spans
      · rfl
      · rw [size]
      · rw [size, ← standing.inside.2]
      · exact valid
      · rfl
      · rw [sameHeader]
        exact total
  | reject expected collecting arrived beyond invalid =>
      apply provenance.keep
      · simp [acceptedSpans_append, Verdict.accepted?]
      · exact Nat.le_add_right _ _
      · exact fun _ same => same

theorem scan_provenance (stream : List Byte) :
    Provenance stream (scan stream) := by
  apply (scan_induction stream (Provenance stream) ?_ ?_).2
  · have empty : acceptedSpans ScanConfig.fresh.trail = [] := rfl
    constructor <;> simp [empty]
  · intro config next standing provenance advanced
    exact provenance.advance standing advanced

/-- An accepted batch, cut out of the stream where it starts. -/
theorem Provenance.cutout {stream : List Byte} {config : ScanConfig}
    (provenance : Provenance stream config) (span : Nat × List Byte)
    (member : span ∈ acceptedSpans config.trail) :
    (stream.drop span.1).take span.2.length = span.2 ∧
      span.2.length ≤ (stream.drop span.1).length ∧
      PacketHeader.decode span.2 =
        PacketHeader.decode (stream.drop span.1) := by
  have substring := provenance.substring span member
  have fits : span.2.length ≤ (stream.drop span.1).length := by
    have cut := congrArg List.length substring
    rw [List.length_take] at cut
    omega
  refine ⟨substring, fits, ?_⟩
  have complete := (provenance.valid span member).wellFormed.complete
  rw [← PacketHeader.decode_take complete fits, substring]

/-- The batches of a session are disjoint substrings of what was received, in
the order of acceptance; each is valid and of the session, and the sequence
numbers seen are theirs. -/
theorem accepted_batches_are_disjoint_substrings
    (datagrams : List (List Byte)) :
    ∃ receiver, ingestAll {} datagrams = some receiver ∧
      ∃ spans : List (Nat × Nat),
        receiver.acceptedBatches =
            spans.map (fun span =>
              (datagrams.flatten.drop span.1).take span.2) ∧
          receiver.stats.batches = spans.length ∧
          spans.Pairwise (fun earlier later =>
            earlier.1 + earlier.2 ≤ later.1) ∧
          (∀ span ∈ spans,
            span.1 + span.2 ≤ datagrams.flatten.length ∧
              validateBatch (datagrams.flatten.drop span.1) span.2 = .ok ∧
              receiver.stats.wireBatchTotal =
                some (PacketHeader.decode
                  (datagrams.flatten.drop span.1)).batchTotal) ∧
          receiver.stats.seenSeq =
            (spans.map fun span =>
              (PacketHeader.decode
                (datagrams.flatten.drop span.1)).seq).toFinset := by
  obtain ⟨receiver, ingested, tracks⟩ := ingestAll_fresh datagrams
  refine ⟨receiver, ingested, ?_⟩
  let stream := datagrams.flatten
  let spans := acceptedSpans (scan stream).trail
  have provenance := scan_provenance stream
  have inside := (scan_standing stream).inside
  have accepted : spans.map Prod.snd = receiver.acceptedBatches := by
    rw [Receiver.acceptedBatches_eq, ← tracks.logged.trail]
    exact acceptedSpans_batches _
  have cutout := provenance.cutout
  refine ⟨spans.map fun span => (span.1, span.2.length), ?_, ?_, ?_, ?_, ?_⟩
  · rw [← accepted, List.map_map]
    apply List.map_congr_left
    intro span member
    exact (cutout span member).1.symm
  · rw [tracks.logged.batches, ← Receiver.acceptedBatches_eq,
      ← accepted, List.length_map, List.length_map]
  · rw [List.pairwise_map]
    exact provenance.ordered
  · intro pair member
    obtain ⟨span, spanMember, rfl⟩ := List.mem_map.mp member
    obtain ⟨substring, fits, sameHeader⟩ := cutout span spanMember
    have valid := provenance.valid span spanMember
    refine ⟨Nat.le_trans (provenance.behind span spanMember) inside.1, ?_, ?_⟩
    · rw [← validateBatch_take valid.wellFormed.complete fits, substring]
      exact valid
    · rw [← tracks.total_eq, provenance.session span spanMember, sameHeader]
  · rw [tracks.logged.seenSeq, ← Receiver.acceptedBatches_eq,
      ← accepted, List.map_map, List.map_map]
    congr 1
    apply List.map_congr_left
    intro span member
    simp only [Function.comp_apply, batchSeq, (cutout span member).2.2]
    rfl

end BoostUdp
