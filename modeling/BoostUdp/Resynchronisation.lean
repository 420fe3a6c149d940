import BoostUdp.SessionSummary

/-!
# Resynchronisation

Whatever the receiver holds when a stream of good batches begins, a batch that
was announced in front of the stream ends within one maximal batch length.
From there on the scanner hunts, and the first good batch it comes to aligns
it for good.
-/

namespace BoostUdp

open LittleEndian StreamMachine

/-- The batches that start `kMaxBatchSize` or more into the stream, when the
first one starts at `offset`. -/
def lateBatches : Nat → List (List Byte) → List (List Byte)
  | _, [] => []
  | offset, batch :: batches =>
      if kMaxBatchSize ≤ offset then
        batch :: lateBatches (offset + batch.length) batches
      else
        lateBatches (offset + batch.length) batches

theorem lateBatches_append (offset : Nat) (first second : List (List Byte)) :
    lateBatches offset (first ++ second) =
      lateBatches offset first ++
        lateBatches (offset + first.flatten.length) second := by
  induction first generalizing offset with
  | nil => simp [lateBatches]
  | cons batch batches induction =>
      simp only [List.cons_append, lateBatches, induction, List.flatten_cons,
        List.length_append, Nat.add_assoc]
      split <;> rfl

theorem lateBatches_singleton (offset : Nat) (batch : List Byte) :
    lateBatches offset [batch] =
      if kMaxBatchSize ≤ offset then [batch] else [] := rfl

/-- A stream of good batches of one session: nothing else in it looks like a
header. -/
structure GoodStream (total : Word) (batches : List (List Byte)) : Prop where
  members : ∀ batch ∈ batches, BatchOf total batch
  longer : ∀ batch ∈ batches, kPacketHeaderSize < batch.length
  starts : ∀ offset, peekBatchLength (batches.flatten.drop offset) ≠ 0 →
    ∃ before batch after, batches = before ++ batch :: after ∧
      offset = before.flatten.length

section Streams

variable {total : Word} {batches : List (List Byte)}

theorem GoodStream.header (good : GoodStream total batches)
    {before after : List (List Byte)} {batch : List Byte}
    (split : batches = before ++ batch :: after) :
    SessionHeader (some total) (batch ++ after.flatten) ∧
      kPacketHeaderSize < batch.length := by
  have member : batch ∈ batches := by simp [split]
  have batchOf := good.members batch member
  exact ⟨batchOf.sameSession (Or.inr rfl) _, good.longer batch member⟩

/-- The header at the start of a good batch announces its length. -/
theorem GoodStream.batchLength_eq (good : GoodStream total batches)
    {before after : List (List Byte)} {batch : List Byte}
    (split : batches = before ++ batch :: after) {pending : List Byte}
    (bytes : pending = (batch :: after).flatten)
    (header : PlausibleHeader pending) :
    header.batchLength.value = batch.length := by
  have member : batch ∈ batches := by simp [split]
  have valid := (good.members batch member).valid
  subst bytes
  simp only [PlausibleHeader.batchLength, List.flatten_cons,
    PacketHeader.decode_append valid.wellFormed.complete]
  exact valid.header_length

/-- A late batch comes after every batch that is not late. -/
theorem GoodStream.lateBatches_eq_nil (good : GoodStream total batches)
    {before after : List (List Byte)} (split : batches = before ++ after)
    {bound : Nat} (atMost : before.flatten.length ≤ bound)
    (early : ∀ first batch rest, batches = first ++ batch :: rest →
      kMaxBatchSize ≤ first.flatten.length → bound ≤ first.flatten.length) :
    lateBatches 0 before = [] := by
  induction before using List.reverseRecOn generalizing after with
  | nil => rfl
  | append_singleton before last induction =>
      have cut : batches = before ++ last :: after := by simp [split]
      have size := (good.header cut).2
      rw [List.flatten_append, List.length_append, List.flatten_singleton]
        at atMost
      rw [lateBatches_append, induction cut (by omega), lateBatches_singleton,
        if_neg, List.nil_append]
      intro late
      have above := early before last after cut (by omega)
      omega

/-- A good batch that is accepted behind `before` is accounted for. -/
theorem GoodStream.lateBatches_accept (good : GoodStream total batches)
    {before rest : List (List Byte)} {batch : List Byte}
    (split : batches = before ++ batch :: rest)
    (accepted between : List (List Byte)) :
    ∃ between', accepted ++ between ++ lateBatches 0 before ++ [batch] =
      accepted ++ between' ++ lateBatches 0 (before ++ [batch]) := by
  rw [lateBatches_append, lateBatches_singleton]
  by_cases late : kMaxBatchSize ≤ before.flatten.length
  · refine ⟨between, ?_⟩
    rw [if_pos (by omega)]
    simp
  · have atMost : before.flatten.length ≤ kMaxBatchSize := by omega
    have none := good.lateBatches_eq_nil split atMost
      (fun _ _ _ _ above => above)
    refine ⟨between ++ [batch], ?_⟩
    rw [if_neg (by omega), none]
    simp

end Streams

section Runs

variable {total : Word} {batches : List (List Byte)} (garbage : List Byte)
  (accepted : List (List Byte))

/-- Not aligned: hunting in front of every late batch, or collecting a batch
that ends in front of every late batch. -/
def Unaligned (batches : List (List Byte)) (config : ScanConfig) : Prop :=
  (config.state.collecting = none ∧
      ∀ first batch rest, batches = first ++ batch :: rest →
        kMaxBatchSize ≤ first.flatten.length →
        config.position ≤ garbage.length + first.flatten.length) ∨
    ∃ expected, config.state.collecting = some expected ∧
      config.position + expected.value < garbage.length + kMaxBatchSize

/-- Aligned with the good batches: at the start of one of them, or
collecting it, with every late one before it accepted. -/
def Aligned (batches : List (List Byte)) (config : ScanConfig) : Prop :=
  ∃ before after, batches = before ++ after ∧
    config.position = garbage.length + before.flatten.length ∧
    (∃ between, acceptedBatches (config.trail.map Prod.snd) =
      accepted ++ between ++ lateBatches 0 before) ∧
    ∀ expected, config.state.collecting = some expected →
      ∃ batch rest, after = batch :: rest ∧ expected.value = batch.length

/-- What every move of a run through a good stream preserves. -/
structure Resynchronising (total : Word) (batches : List (List Byte))
    (config : ScanConfig) : Prop where
  session : config.state.total = some total
  kept : accepted <+: acceptedBatches (config.trail.map Prod.snd)
  phase : Unaligned garbage batches config ∨
    Aligned garbage accepted batches config

variable {garbage accepted}

theorem Resynchronising.kept_advance {config next : ScanConfig}
    (kept : accepted <+: acceptedBatches (config.trail.map Prod.snd))
    (advanced : scanner.advance config = some next) :
    accepted <+: acceptedBatches (next.trail.map Prod.snd) := by
  obtain ⟨move, _, rfl⟩ := scanner.advance_eq_some advanced
  rw [Config.apply, List.map_append, acceptedBatches_append]
  exact kept.trans (List.prefix_append _ _)

/-- The pending bytes of an aligned run are the batches that are left. -/
theorem aligned_pending {config : ScanConfig}
    (standing : Standing (garbage ++ batches.flatten) config)
    {before after : List (List Byte)} (split : batches = before ++ after)
    (position : config.position = garbage.length + before.flatten.length) :
    config.pending = after.flatten := by
  rw [standing.inside.2, position, ← List.drop_drop, List.drop_left, split,
    List.flatten_append, List.drop_left]

theorem collected_eq {config : ScanConfig} {batch : List Byte}
    {rest : List (List Byte)} {expected : BatchLength}
    (bytes : config.pending = (batch :: rest).flatten)
    (length : expected.value = batch.length) :
    config.pending.take expected.value = batch := by
  rw [bytes, length, List.flatten_cons, List.take_left]

/-- An unaligned run that comes to a header either takes it for one in front
of the stream or is aligned. -/
theorem GoodStream.unaligned_header (good : GoodStream total batches)
    {config : ScanConfig}
    (standing : Standing (garbage ++ batches.flatten) config)
    (kept : accepted <+: acceptedBatches (config.trail.map Prod.snd))
    (early : ∀ first batch rest, batches = first ++ batch :: rest →
      kMaxBatchSize ≤ first.flatten.length →
      config.position ≤ garbage.length + first.flatten.length)
    (wellFormed : PlausibleHeader config.pending) {next : ScanConfig}
    (position : next.position = config.position)
    (collecting : next.state.collecting = some wellFormed.batchLength)
    (verdicts : acceptedBatches (next.trail.map Prod.snd) =
      acceptedBatches (config.trail.map Prod.snd)) :
    Unaligned garbage batches next ∨
      Aligned garbage accepted batches next := by
  by_cases front : config.position < garbage.length
  · refine Or.inl (Or.inr ⟨_, collecting, ?_⟩)
    have atMost := wellFormed.batchLength.atMost
    have same : kMaxPacketLength = kMaxBatchSize := rfl
    omega
  · have behind : garbage.length ≤ config.position := Nat.not_lt.mp front
    have pending : config.pending =
        batches.flatten.drop (config.position - garbage.length) := by
      rw [standing.inside.2, List.drop_append, List.drop_of_length_le behind,
        List.nil_append]
    obtain ⟨before, batch, after, split, offset⟩ := good.starts
      (config.position - garbage.length) (by
        rw [← pending]
        exact peekBatchLength_ne_zero_iff.mpr wellFormed)
    have there : config.position =
        garbage.length + before.flatten.length := by omega
    obtain ⟨between, whole⟩ := kept
    have none := good.lateBatches_eq_nil split (Nat.le_refl _)
      (fun first batch' rest split' late => by
        have bound := early first batch' rest split' late
        omega)
    refine Or.inr ⟨before, batch :: after, split, position.trans there,
      ⟨between, ?_⟩, ?_⟩
    · rw [verdicts, none, List.append_nil]
      exact whole.symm
    · intro expected same
      refine ⟨batch, after, rfl, ?_⟩
      cases Option.some.inj (collecting.symm.trans same)
      exact good.batchLength_eq split (aligned_pending standing split there)
        wellFormed

/-- A judged batch in front of the late ones leaves the run in front of
them. -/
theorem unaligned_judged {config : ScanConfig}
    (front : config.position ≤ garbage.length + kMaxBatchSize)
    (hunting : config.state.collecting = none) :
    Unaligned garbage batches config :=
  Or.inl ⟨hunting, fun _ _ _ _ late =>
    Nat.le_trans front (Nat.add_le_add_left late _)⟩

theorem Unaligned.advance (good : GoodStream total batches)
    {config next : ScanConfig}
    (standing : Standing (garbage ++ batches.flatten) config)
    (session : config.state.total = some total)
    (kept : accepted <+: acceptedBatches (config.trail.map Prod.snd))
    (unaligned : Unaligned garbage batches config)
    (advanced : scanner.advance config = some next) :
    Unaligned garbage batches next ∨
      Aligned garbage accepted batches next := by
  rcases unaligned with ⟨idle, early⟩ | ⟨expected, collects, ends⟩
  · cases advance_cases advanced with
    | header header hunting =>
        exact good.unaligned_header standing kept early header.wellFormed rfl rfl
          (by simp)
    | skip hunting complete other =>
        refine Or.inl (Or.inl ⟨idle, ?_⟩)
        intro first batch rest split late
        have bound := early first batch rest split late
        rcases Nat.eq_or_lt_of_le bound with there | below
        · have bytes := aligned_pending standing split there
          rw [session, bytes, List.flatten_cons] at other
          exact absurd (good.header split).1 other
        · exact below
    | accept expected collecting =>
        exact absurd (idle.symm.trans collecting) (by simp)
    | reject expected collecting =>
        exact absurd (idle.symm.trans collecting) (by simp)
  · cases advance_cases advanced with
    | header header hunting =>
        exact absurd (hunting.symm.trans collects) (by simp)
    | skip hunting complete other =>
        exact absurd (hunting.symm.trans collects) (by simp)
    | accept announced collecting arrived =>
        cases Option.some.inj (collects.symm.trans collecting)
        exact Or.inl (unaligned_judged (Nat.le_of_lt ends) rfl)
    | reject announced collecting arrived =>
        cases Option.some.inj (collects.symm.trans collecting)
        refine Or.inl (unaligned_judged ?_ rfl)
        have bound := rejectedAdvance_le config.state.total
          (config.pending.take expected.value)
        rw [List.length_take_of_le arrived] at bound
        dsimp only
        omega

theorem Aligned.advance (good : GoodStream total batches)
    {config next : ScanConfig}
    (standing : Standing (garbage ++ batches.flatten) config)
    (session : config.state.total = some total)
    (aligned : Aligned garbage accepted batches config)
    (advanced : scanner.advance config = some next) :
    Aligned garbage accepted batches next := by
  obtain ⟨before, after, split, position, ⟨between, verdicts⟩, collects⟩ :=
    aligned
  have bytes := aligned_pending standing split position
  cases advance_cases advanced with
  | header header hunting =>
      refine ⟨before, after, split, position, ⟨between, by simpa using verdicts⟩,
        ?_⟩
      intro expected same
      cases Option.some.inj same
      have complete := header.wellFormed.complete
      rw [bytes] at complete
      cases after with
      | nil => exact absurd complete (by decide)
      | cons batch rest =>
          exact ⟨batch, rest, rfl,
            good.batchLength_eq split bytes header.wellFormed⟩
  | skip hunting complete other =>
      cases after with
      | nil =>
          rw [bytes] at complete
          exact absurd complete (by decide)
      | cons batch rest =>
          rw [session, bytes, List.flatten_cons] at other
          exact absurd (good.header split).1 other
  | accept expected collecting arrived beyond valid =>
      obtain ⟨batch, rest, rfl, length⟩ := collects expected collecting
      have next : batches = (before ++ [batch]) ++ rest := by simp [split]
      have end_ : config.position + expected.value =
          garbage.length + (before ++ [batch]).flatten.length := by
        simp only [List.flatten_append, List.flatten_singleton,
          List.length_append, position, length, Nat.add_assoc]
      rw [collected_eq bytes length]
      refine ⟨before ++ [batch], rest, next, end_, ?_,
        fun _ absurdity => by contradiction⟩
      obtain ⟨between', accounted⟩ :=
        good.lateBatches_accept split accepted between
      refine ⟨between', ?_⟩
      rw [← accounted, ← verdicts]
      simp
  | reject expected collecting arrived beyond invalid =>
      obtain ⟨batch, rest, rfl, length⟩ := collects expected collecting
      have member : batch ∈ batches := by simp [split]
      rw [collected_eq bytes length] at invalid
      exact absurd (good.members batch member).valid invalid

theorem Resynchronising.advance (good : GoodStream total batches)
    {config next : ScanConfig}
    (standing : Standing (garbage ++ batches.flatten) config)
    (resynchronising : Resynchronising garbage accepted total batches config)
    (advanced : scanner.advance config = some next) :
    Resynchronising garbage accepted total batches next :=
  { session := total_advance resynchronising.session advanced
    kept := Resynchronising.kept_advance resynchronising.kept advanced
    phase := by
      rcases resynchronising.phase with unaligned | aligned
      · exact unaligned.advance good standing resynchronising.session
          resynchronising.kept advanced
      · exact Or.inr
          (aligned.advance good standing resynchronising.session advanced) }

/-- When the good stream begins, the run is not aligned. -/
theorem resynchronising_start (garbage : List Byte)
    (batches : List (List Byte)) :
    Unaligned garbage batches ((scan garbage).extend batches.flatten) := by
  have standing := scan_standing garbage
  have whole := standing.inside.length_pending
  cases collecting : (scan garbage).state.collecting with
  | none =>
      refine Or.inl ⟨collecting, fun first batch rest split late => ?_⟩
      rw [Config.extend_position]
      omega
  | some expected =>
      refine Or.inr ⟨expected, collecting, ?_⟩
      have complete :=
        (standing.announced expected collecting).1.complete
      have atMost := expected.atMost
      have same : kMaxPacketLength = kMaxBatchSize := rfl
      have positive := kPacketHeaderSize_pos
      rw [Config.extend_position]
      omega

/-- An unaligned run that waits at the end has come to no late batch. -/
theorem Unaligned.lateBatches_eq_nil (good : GoodStream total batches)
    {config : ScanConfig}
    (standing : Standing (garbage ++ batches.flatten) config)
    (unaligned : Unaligned garbage batches config)
    (waiting : scanner.advance config = none) :
    lateBatches 0 batches = [] := by
  have whole := standing.inside.length_pending
  rw [List.length_append] at whole
  apply good.lateBatches_eq_nil (List.append_nil batches).symm
    (Nat.le_refl _)
  intro first batch rest split late
  have size := (good.header split).2
  have length : batches.flatten.length =
      first.flatten.length + (batch.length + rest.flatten.length) := by
    simp [split]
  rcases waiting_cases standing.announced waiting with ⟨idle, short⟩ |
    ⟨expected, collecting, incomplete⟩
  · rcases unaligned with ⟨_, early⟩ | ⟨expected, collects, _⟩
    · have bound := early first batch rest split late
      omega
    · exact absurd (idle.symm.trans collects) (by simp)
  · rcases unaligned with ⟨idle, _⟩ | ⟨other, collects, ends⟩
    · exact absurd (idle.symm.trans collecting) (by simp)
    · cases Option.some.inj (collects.symm.trans collecting)
      omega

/-- An aligned run that waits has accepted everything. -/
theorem Aligned.at_end (good : GoodStream total batches)
    {config : ScanConfig}
    (standing : Standing (garbage ++ batches.flatten) config)
    (aligned : Aligned garbage accepted batches config)
    (waiting : scanner.advance config = none) :
    config.state.collecting = none ∧ config.pending = [] ∧
      ∃ between, acceptedBatches (config.trail.map Prod.snd) =
        accepted ++ between ++ lateBatches 0 batches := by
  obtain ⟨before, after, split, position, verdicts, collects⟩ := aligned
  have bytes := aligned_pending standing split position
  have longer : ∀ batch rest, after = batch :: rest →
      kPacketHeaderSize < batch.length ∧
        batch.length ≤ config.pending.length := by
    rintro batch rest rfl
    refine ⟨(good.header split).2, ?_⟩
    rw [bytes, List.flatten_cons, List.length_append]
    exact Nat.le_add_right _ _
  rcases waiting_cases standing.announced waiting with ⟨idle, short⟩ |
    ⟨expected, collecting, incomplete⟩
  · cases after with
    | nil =>
        rw [List.append_nil] at split
        rw [split]
        exact ⟨idle, bytes, verdicts⟩
    | cons batch rest =>
        have := longer batch rest rfl
        omega
  · obtain ⟨batch, rest, cut, length⟩ := collects expected collecting
    have := longer batch rest cut
    omega

end Runs

/-- From any state with a session total, a stream of good batches of the
session is received in full from one maximal batch length on, in order, and
leaves the reassembly reset if it gets that far. -/
theorem late_batches_accepted {receiver : Receiver}
    (reachable : Reachable receiver) {total : Word}
    (wire : receiver.stats.wireBatchTotal = some total)
    {batches : List (List Byte)} (good : GoodStream total batches)
    {datagrams : List (List Byte)}
    (cut : datagrams.flatten = batches.flatten) :
    ∃ after between, ingestAll receiver datagrams = some after ∧
      after.acceptedBatches =
        receiver.acceptedBatches ++ between ++ lateBatches 0 batches ∧
      (lateBatches 0 batches ≠ [] → after.reassembly = {}) := by
  obtain ⟨calls, garbage, tracks⟩ := reachable.tracks
  obtain ⟨after, ingested, tracked⟩ := ingestAll_tracks tracks datagrams
  have run : Standing (garbage ++ batches.flatten)
      (scanner.feed (scan garbage) batches.flatten) ∧
      Resynchronising garbage receiver.acceptedBatches total batches
        (scanner.feed (scan garbage) batches.flatten) := by
    apply scanner.drain_induction (fun config =>
      Standing (garbage ++ batches.flatten) config ∧
        Resynchronising garbage receiver.acceptedBatches total batches config)
    · rintro config next ⟨standing, resynchronising⟩ advanced
      exact ⟨standing.advance advanced,
        resynchronising.advance good standing advanced⟩
    · have standing := scan_standing garbage
      refine ⟨⟨standing.inside.extend _, standing.announced.extend _⟩,
        { session := tracks.total_eq.trans wire
          kept := ?_
          phase := Or.inl (resynchronising_start garbage batches) }⟩
      rw [Config.extend_trail, tracks.logged.trail,
        Receiver.acceptedBatches_eq]
  rw [cut] at tracked
  obtain ⟨standing, resynchronising⟩ := run
  have waiting := tracked.waiting
  have verdicts : acceptedBatches
      ((scanner.feed (scan garbage) batches.flatten).trail.map Prod.snd) =
      after.acceptedBatches := by
    rw [tracked.logged.trail, Receiver.acceptedBatches_eq]
  rcases resynchronising.phase with unaligned | aligned
  · have none := unaligned.lateBatches_eq_nil good standing waiting
    obtain ⟨between, whole⟩ := resynchronising.kept
    refine ⟨after, between, ingested, ?_, fun late => absurd none late⟩
    rw [none, List.append_nil, ← verdicts]
    exact whole.symm
  · obtain ⟨idle, empty, between, all⟩ := aligned.at_end good standing waiting
    refine ⟨after, between, ingested, verdicts.symm.trans all, fun _ => ?_⟩
    rcases tracked.phase with hunting | collecting
    · rw [hunting.reassembly, empty]
    · obtain ⟨expected, state, _⟩ := collecting.state
      rw [state] at idle
      contradiction

/-- Copies of one batch are a good stream if no header starts inside a
copy. -/
theorem goodStream_replicate {total : Word} {batch : List Byte}
    (batchOf : BatchOf total batch) (longer : kPacketHeaderSize < batch.length)
    (apart : ∀ offset, 0 < offset → offset < batch.length →
      peekBatchLength ((batch ++ batch).drop offset) = 0) (count : Nat) :
    GoodStream total (List.replicate count batch) where
  members := by
    intro member copies
    rw [List.eq_of_mem_replicate copies]
    exact batchOf
  longer := by
    intro member copies
    rw [List.eq_of_mem_replicate copies]
    exact longer
  starts := by
    induction count with
    | zero =>
        intro offset header
        rw [List.replicate_zero, List.flatten_nil, List.drop_nil] at header
        exact absurd header (by decide)
    | succ count induction =>
        intro offset header
        rw [List.replicate_succ, List.flatten_cons] at header
        by_cases front : offset = 0
        · exact ⟨[], batch, List.replicate count batch, rfl, front⟩
        by_cases inside : offset < batch.length
        · -- A header inside the copy would be one in front of another copy.
          have none := apart offset (Nat.pos_of_ne_zero front) inside
          refine absurd ?_ (peekBatchLength_eq_zero_iff.mp none)
          have wellFormed := peekBatchLength_ne_zero_iff.mp header
          have complete : kPacketHeaderSize ≤
              ((batch ++ batch).drop offset).length := by
            rw [List.length_drop, List.length_append]
            omega
          cases count with
          | zero =>
              rw [List.replicate_zero, List.flatten_nil, List.append_nil]
                at wellFormed
              rw [List.drop_append_of_le_length (Nat.le_of_lt inside)]
              exact (plausibleHeader_append_iff wellFormed.complete _).mpr
                wellFormed
          | succ count =>
              have two : (batch ++ batch).length = 2 * batch.length := by
                rw [List.length_append, Nat.two_mul]
              rw [List.replicate_succ, List.flatten_cons, ← List.append_assoc,
                List.drop_append_of_le_length (by omega)] at wellFormed
              exact (plausibleHeader_append_iff complete _).mp wellFormed
        · have behind : batch.length ≤ offset := Nat.not_lt.mp inside
          rw [List.drop_append, List.drop_of_length_le behind,
            List.nil_append] at header
          obtain ⟨before, found, after, split, position⟩ :=
            induction _ header
          refine ⟨batch :: before, found, after, ?_, ?_⟩
          · rw [List.replicate_succ, split, List.cons_append]
          · rw [List.flatten_cons, List.length_append]
            omega

theorem length_flatten_replicate (count : Nat) (batch : List Byte) :
    (List.replicate count batch).flatten.length = count * batch.length := by
  rw [List.length_flatten, List.map_replicate, List.sum_replicate,
    smul_eq_mul]

/-- A receiver that waits for the payload of batch 0, and 3122 copies of
batch 1 instead: the last one starts at 65541. -/
theorem late_batches_accepted_lost_payload :
    ∃ receiver after between,
      ingestAll {} [(encodeBatch 0 2 [0x50#8]).take kPacketHeaderSize] =
          some receiver ∧
        ingestAll receiver
            ((encodeBatch 1 2 [0x50#8]).take 3 ::
              (encodeBatch 1 2 [0x50#8]).drop 3 ::
                List.replicate 3121 (encodeBatch 1 2 [0x50#8])) =
          some after ∧
        after.acceptedBatches =
          receiver.acceptedBatches ++ between ++
            lateBatches 0 (List.replicate 3122 (encodeBatch 1 2 [0x50#8])) ∧
        lateBatches 0 (List.replicate 3122 (encodeBatch 1 2 [0x50#8])) ≠ [] ∧
        after.reassembly = {} := by
  have found : (ingestAll {}
      [(encodeBatch 0 2 [0x50#8]).take kPacketHeaderSize]).any
        (fun receiver => receiver.stats.wireBatchTotal = some 2) = true := by
    decide
  have size : (encodeBatch 1 2 [0x50#8]).length = 21 := by decide
  have apart : ∀ offset < 21, 0 < offset →
      peekBatchLength ((encodeBatch 1 2 [0x50#8] ++
        encodeBatch 1 2 [0x50#8]).drop offset) = 0 := by
    decide +kernel
  have good : GoodStream 2 (List.replicate 3122 (encodeBatch 1 2 [0x50#8])) :=
    goodStream_replicate
      ⟨encodeBatch_valid (by decide) (by decide),
        decode_encodeBatch_batchTotal _ _ _⟩
      (by decide)
      (fun offset positive inside => apart offset (size ▸ inside) positive) _
  have late : lateBatches 0
      (List.replicate 3122 (encodeBatch 1 2 [0x50#8])) ≠ [] := by
    rw [List.replicate_succ', lateBatches_append, lateBatches_singleton,
      length_flatten_replicate, size, if_pos (by decide)]
    exact List.append_ne_nil_of_right_ne_nil _ (List.cons_ne_nil _ _)
  obtain ⟨receiver, ingested, wire⟩ := (Option.any_eq_true _ _).mp found
  obtain ⟨after, between, ingestedAfter, accepted, reset⟩ :=
    late_batches_accepted ⟨_, ingested⟩ (of_decide_eq_true wire) good
      (show ((encodeBatch 1 2 [0x50#8]).take 3 ::
          (encodeBatch 1 2 [0x50#8]).drop 3 ::
            List.replicate 3121 (encodeBatch 1 2 [0x50#8])).flatten =
        (List.replicate 3122 (encodeBatch 1 2 [0x50#8])).flatten from by
          rw [List.flatten_cons, List.flatten_cons, ← List.append_assoc,
            List.take_append_drop]
          rfl)
  exact ⟨receiver, after, between, ingested, ingestedAfter, accepted, late,
    reset late⟩

end BoostUdp
