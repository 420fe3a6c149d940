import BoostUdp.Delivery

/-!
# Delivery under datagram loss

The batches of one sender arrive in order, with any datagrams missing.  What
is left of a damaged batch can mislead the receiver into the batch after it,
and no further: a batch that arrives whole behind a whole one is accepted.
-/

namespace BoostUdp

open LittleEndian StreamMachine

/-- A sent datagram, and whether it arrives. -/
structure Segment where
  bytes : List Byte
  arrived : Bool
  deriving DecidableEq, Repr

def arriving (segments : List Segment) : List (List Byte) :=
  (segments.filter Segment.arrived).map Segment.bytes

theorem arriving_append (first second : List Segment) :
    arriving (first ++ second) = arriving first ++ arriving second := by
  simp [arriving]

def Complete (segments : List Segment) : Prop :=
  ∀ segment ∈ segments, segment.arrived = true

instance (segments : List Segment) : Decidable (Complete segments) :=
  inferInstanceAs (Decidable (∀ _ ∈ _, _))

theorem Complete.arriving_eq {segments : List Segment}
    (complete : Complete segments) :
    arriving segments = segments.map Segment.bytes := by
  rw [arriving, List.filter_eq_self.mpr complete]

/-- The leading datagrams of a batch, up to the first lost one, carry its
header. -/
def HeaderArrived (segments : List Segment) : Prop :=
  kPacketHeaderSize ≤
    (arriving (segments.takeWhile Segment.arrived)).flatten.length

instance (segments : List Segment) : Decidable (HeaderArrived segments) :=
  inferInstanceAs (Decidable (_ ≤ _))

/-- What arrives of a batch whose header arrives starts with the header. -/
theorem HeaderArrived.decode_eq {segments : List Segment}
    (headed : HeaderArrived segments) (more : List Byte) :
    PacketHeader.decode ((arriving segments).flatten ++ more) =
        PacketHeader.decode (segments.map Segment.bytes).flatten ∧
      kPacketHeaderSize ≤ (arriving segments).flatten.length := by
  have leading : Complete (segments.takeWhile Segment.arrived) :=
    List.all_eq_true.mp List.all_takeWhile
  have same := leading.arriving_eq
  have split := List.takeWhile_append_dropWhile
    (p := Segment.arrived) (l := segments)
  have front : (arriving segments).flatten =
      (arriving (segments.takeWhile Segment.arrived)).flatten ++
        (arriving (segments.dropWhile Segment.arrived)).flatten := by
    rw [← List.flatten_append, ← arriving_append, split]
  have whole : (segments.map Segment.bytes).flatten =
      (arriving (segments.takeWhile Segment.arrived)).flatten ++
        ((segments.dropWhile Segment.arrived).map
          Segment.bytes).flatten := by
    rw [same, ← List.flatten_append, ← List.map_append, split]
  constructor
  · rw [front, List.append_assoc, PacketHeader.decode_append headed, whole,
      PacketHeader.decode_append headed]
  · rw [front, List.length_append]
    exact Nat.le_add_right_of_le headed

section Transmission

variable (cut : Nat → List Segment)

/-- The datagrams of the first `count` batches. -/
def transmission (count : Nat) : List Segment :=
  (List.range count).flatMap cut

/-- Where in the received stream batch `index` starts. -/
def start (index : Nat) : Nat :=
  (arriving (transmission cut index)).flatten.length

theorem transmission_succ (count : Nat) :
    transmission cut (count + 1) = transmission cut count ++ cut count := by
  simp [transmission, List.range_succ]

theorem start_succ (index : Nat) :
    start cut (index + 1) =
      start cut index + (arriving (cut index)).flatten.length := by
  simp [start, transmission_succ, arriving_append]

theorem start_mono {first second : Nat} (ordered : first ≤ second) :
    start cut first ≤ start cut second := by
  induction ordered with
  | refl => exact Nat.le_refl _
  | step _ induction =>
      rw [start_succ]
      exact Nat.le_add_right_of_le induction

/-- The received stream from the start of a batch on. -/
theorem drop_start {index count : Nat} (below : index < count) :
    ∃ more, (arriving (transmission cut count)).flatten.drop
        (start cut index) = (arriving (cut index)).flatten ++ more := by
  induction count with
  | zero => contradiction
  | succ count induction =>
      rw [transmission_succ, arriving_append, List.flatten_append]
      rcases Nat.lt_succ_iff_lt_or_eq.mp below with earlier | rfl
      · obtain ⟨more, rest⟩ := induction earlier
        refine ⟨more ++ (arriving (cut count)).flatten, ?_⟩
        have inside : start cut index ≤
            (arriving (transmission cut count)).flatten.length :=
          start_mono cut (Nat.le_of_lt earlier)
        rw [List.drop_append_of_le_length inside, rest, List.append_assoc]
      · refine ⟨[], ?_⟩
        rw [start, List.drop_left, List.append_nil]

/-- A batch that is whole, behind a whole one. -/
def Intact (index : Nat) : Prop :=
  Complete (cut index) ∧ ∀ previous, index = previous + 1 →
    Complete (cut previous)

end Transmission

section Runs

variable {ρ : Type} {byteDist : ρ → Byte × ρ} {count size : Nat}
  {batch : Nat → List Byte} {cut : Nat → List Segment}

/-- The batches of one sender, cut into datagrams of which some arrive, so
that nothing in the received stream looks like a header but the headers that
have arrived. -/
structure LossyRun (byteDist : ρ → Byte × ρ) (count size : Nat)
    (batch : Nat → List Byte) (cut : Nat → List Segment) : Prop where
  built : Built byteDist count size batch
  bounded : count < 2 ^ 32
  longer : kPacketHeaderSize < size
  atMost : size ≤ kMaxBatchSize
  cuts : ∀ index < count,
    ((cut index).map Segment.bytes).flatten = batch index
  headers : ∀ offset,
    peekBatchLength
      ((arriving (transmission cut count)).flatten.drop offset) ≠ 0 →
    ∃ index < count, HeaderArrived (cut index) ∧ offset = start cut index

theorem LossyRun.batchOf (run : LossyRun byteDist count size batch cut)
    {index : Nat} (below : index < count) :
    BatchOf (BitVec.ofNat 32 count) (batch index) ∧
      (batch index).length = size ∧
      batchSeq (batch index) = BitVec.ofNat 32 index :=
  run.built.batchOf run.bounded (Nat.le_of_lt run.longer) run.atMost below

/-- The received stream at the start of an intact batch. -/
theorem LossyRun.drop_complete (run : LossyRun byteDist count size batch cut)
    {index : Nat} (below : index < count) (complete : Complete (cut index)) :
    (∃ more, (arriving (transmission cut count)).flatten.drop
        (start cut index) = batch index ++ more) ∧
      start cut (index + 1) = start cut index + size := by
  have whole : (arriving (cut index)).flatten = batch index := by
    rw [complete.arriving_eq, run.cuts index below]
  constructor
  · rw [← whole]
    exact drop_start cut below
  · rw [start_succ, whole, (run.batchOf below).2.1]

/-- No batch that starts before an intact one reaches into it, and no other
one starts there. -/
theorem LossyRun.start_le (run : LossyRun byteDist count size batch cut)
    {index other : Nat} (below : index < count)
    (intact : Intact cut index) (front : start cut other ≤ start cut index) :
    other = index ∨ start cut other + size ≤ start cut index := by
  rcases Nat.lt_trichotomy other index with before | same | behind
  · obtain ⟨previous, rfl⟩ := Nat.exists_eq_add_one_of_ne_zero
      (Nat.ne_zero_of_lt before)
    have step := (run.drop_complete (Nat.lt_of_succ_lt below)
      (intact.2 previous rfl)).2
    have ordered := start_mono cut (Nat.lt_succ_iff.mp before)
    exact Or.inr (by omega)
  · exact Or.inl same
  · have step := (run.drop_complete below intact.1).2
    have ordered : start cut (index + 1) ≤ start cut other :=
      start_mono cut behind
    have longer := run.longer
    omega

/-- What every move of a run through the received stream preserves. -/
structure Surviving (count size : Nat) (cut : Nat → List Segment)
    (config : ScanConfig) : Prop where
  session : config.state.total = none ∨
    config.state.total = some (BitVec.ofNat 32 count)
  collects : ∀ expected, config.state.collecting = some expected →
    expected.value = size ∧
      ∃ index < count, config.position = start cut index
  intact : ∀ index < count, Intact cut index →
    BitVec.ofNat 32 index ∈
        (acceptedBatches (config.trail.map Prod.snd)).map batchSeq ∨
      config.position ≤ start cut index

theorem LossyRun.sessionHeader (run : LossyRun byteDist count size batch cut)
    {config : ScanConfig}
    (standing : Standing (arriving (transmission cut count)).flatten config)
    (surviving : Surviving count size cut config) {index : Nat}
    (below : index < count) (complete : Complete (cut index))
    (there : config.position = start cut index) :
    SessionHeader config.state.total config.pending := by
  obtain ⟨⟨more, bytes⟩, _⟩ := run.drop_complete below complete
  rw [standing.inside.2, there, bytes]
  exact (run.batchOf below).1.sameSession surviving.session more

/-- A judged batch ends in front of the next intact batch, or is it. -/
theorem LossyRun.judged (run : LossyRun byteDist count size batch cut)
    {config : ScanConfig}
    (standing : Standing (arriving (transmission cut count)).flatten config)
    (surviving : Surviving count size cut config) {expected : BatchLength}
    (collecting : config.state.collecting = some expected) {index : Nat}
    (below : index < count) (intact : Intact cut index)
    (front : config.position ≤ start cut index) :
    config.pending.take expected.value = batch index ∨
      config.position + expected.value ≤ start cut index := by
  obtain ⟨same, other, _, there⟩ := surviving.collects expected collecting
  rw [there] at front
  rcases run.start_le below intact front with rfl | before
  · obtain ⟨⟨more, bytes⟩, _⟩ := run.drop_complete below intact.1
    refine Or.inl ?_
    rw [standing.inside.2, there, bytes, same, ← (run.batchOf below).2.1,
      List.take_left]
  · exact Or.inr (by omega)

/-- An accepted sequence number stays accepted. -/
theorem mem_acceptedSeqs_append {seq : Word} {trail : List (Nat × Verdict)}
    (seen : seq ∈ (acceptedBatches (trail.map Prod.snd)).map batchSeq)
    (more : List (Nat × Verdict)) :
    seq ∈ (acceptedBatches ((trail ++ more).map Prod.snd)).map batchSeq := by
  rw [List.map_append, acceptedBatches_append, List.map_append]
  apply List.mem_append_left
  exact seen

theorem Surviving.advance (run : LossyRun byteDist count size batch cut)
    {config next : ScanConfig}
    (standing : Standing (arriving (transmission cut count)).flatten config)
    (surviving : Surviving count size cut config)
    (advanced : scanner.advance config = some next) :
    Surviving count size cut next := by
  cases advance_cases advanced with
  | header header hunting =>
      obtain ⟨index, below, headed, there⟩ := run.headers config.position (by
        rw [← standing.inside.2]
        exact peekBatchLength_ne_zero_iff.mpr header.wellFormed)
      obtain ⟨more, bytes⟩ := drop_start cut below
      have batchOf := run.batchOf below
      have sameHeader : PacketHeader.decode config.pending =
          PacketHeader.decode (batch index) := by
        rw [standing.inside.2, there, bytes, (headed.decode_eq more).1,
          run.cuts index below]
      refine
        { session := Or.inr ?_
          collects := ?_
          intact := ?_ }
      · rw [sameHeader, batchOf.1.batchTotal]
      · intro expected same
        cases Option.some.inj same
        refine ⟨?_, index, below, there⟩
        simp only [PlausibleHeader.batchLength, sameHeader]
        exact batchOf.1.valid.header_length.trans batchOf.2.1
      · intro other bound whole
        simpa using surviving.intact other bound whole
  | skip hunting complete other =>
      refine
        { session := surviving.session
          collects := fun expected same =>
            absurd (hunting.symm.trans same) (by simp)
          intact := ?_ }
      intro index below whole
      refine (surviving.intact index below whole).imp_right fun front => ?_
      rcases Nat.eq_or_lt_of_le front with there | before
      · exact absurd
          (run.sessionHeader standing surviving below whole.1 there) other
      · exact before
  | accept expected collecting arrived beyond valid =>
      refine
        { session := surviving.session
          collects := fun _ absurdity => by contradiction
          intact := ?_ }
      intro index below whole
      rcases surviving.intact index below whole with seen | front
      · exact Or.inl (mem_acceptedSeqs_append seen _)
      · rcases run.judged standing surviving collecting below whole front with
          this | before
        · refine Or.inl ?_
          rw [this]
          simp [(run.batchOf below).2.2]
        · exact Or.inr before
  | reject expected collecting arrived beyond invalid =>
      refine
        { session := surviving.session
          collects := fun _ absurdity => by contradiction
          intact := ?_ }
      intro index below whole
      rcases surviving.intact index below whole with seen | front
      · exact Or.inl (mem_acceptedSeqs_append seen _)
      · rcases run.judged standing surviving collecting below whole front with
          this | before
        · rw [this] at invalid
          exact absurd (run.batchOf below).1.valid invalid
        · refine Or.inr (Nat.le_trans ?_ before)
          have bound := rejectedAdvance_le config.state.total
            (config.pending.take expected.value)
          rw [List.length_take_of_le arrived] at bound
          exact Nat.add_le_add_left bound _

theorem scan_surviving (run : LossyRun byteDist count size batch cut) :
    Surviving count size cut
      (scan (arriving (transmission cut count)).flatten) := by
  apply (scan_induction _ (Surviving count size cut) ?_
    (Surviving.advance run)).2
  exact
    { session := Or.inl rfl
      collects := fun _ absurdity => by contradiction
      intact := fun _ _ _ => Or.inr (Nat.zero_le _) }

/-- The run does not wait in front of a batch that has arrived in full. -/
theorem LossyRun.intact_accepted
    (run : LossyRun byteDist count size batch cut) {index : Nat}
    (below : index < count) (intact : Intact cut index) :
    BitVec.ofNat 32 index ∈
      (acceptedBatches ((scan (arriving (transmission cut
        count)).flatten).trail.map Prod.snd)).map batchSeq := by
  have standing := scan_standing (arriving (transmission cut count)).flatten
  have surviving := scan_surviving run
  rcases surviving.intact index below intact with seen | front
  · exact seen
  · have step := (run.drop_complete below intact.1).2
    have ordered : start cut (index + 1) ≤ start cut count :=
      start_mono cut below
    have whole := standing.inside.length_pending
    rw [← start] at whole
    have longer := run.longer
    rcases waiting_cases standing.announced (advance_scan _) with
      ⟨idle, short⟩ | ⟨expected, collecting, incomplete⟩
    · omega
    · have same := (surviving.collects expected collecting).1
      omega

theorem missing_succ (seen : Finset Word) (bound : Nat) :
    missing seen (bound + 1) =
      missing seen bound + if BitVec.ofNat 32 bound ∈ seen then 0 else 1 := by
  rw [missing, List.range_succ, List.countP_append, List.countP_singleton,
    missing]
  by_cases member : BitVec.ofNat 32 bound ∈ seen <;> simp [member]

/-- The batches below `bound` that have lost a datagram. -/
def damaged (cut : Nat → List Segment) (bound : Nat) : Nat :=
  (List.range bound).countP fun index => ¬Complete (cut index)

theorem damaged_succ (cut : Nat → List Segment) (bound : Nat) :
    damaged cut (bound + 1) =
      damaged cut bound + if Complete (cut bound) then 0 else 1 := by
  rw [damaged, List.range_succ, List.countP_append, List.countP_singleton,
    damaged]
  by_cases complete : Complete (cut bound) <;> simp [complete]

/-- What is not among the sequence numbers seen was damaged, or came right
behind a damaged batch. -/
theorem missing_le_damaged {seen : Finset Word}
    (intact : ∀ index < count, Intact cut index →
      BitVec.ofNat 32 index ∈ seen) {bound : Nat} (within : bound ≤ count) :
    missing seen bound ≤ 2 * damaged cut bound ∧
      ∀ last, bound = last + 1 → ¬Complete (cut last) →
        missing seen bound + 1 ≤ 2 * damaged cut bound := by
  induction bound with
  | zero => exact ⟨Nat.zero_le _, fun _ absurdity => by contradiction⟩
  | succ bound induction =>
      obtain ⟨fewer, behind⟩ := induction (Nat.le_of_succ_le within)
      rw [missing_succ, damaged_succ]
      by_cases complete : Complete (cut bound)
      · have one : missing seen bound +
            (if BitVec.ofNat 32 bound ∈ seen then 0 else 1) ≤
              2 * damaged cut bound := by
          by_cases member : BitVec.ofNat 32 bound ∈ seen
          · simpa [member] using fewer
          · have broken : ¬Intact cut bound :=
              fun whole => member (intact bound within whole)
            obtain ⟨last, same, lost⟩ : ∃ last, bound = last + 1 ∧
                ¬Complete (cut last) := by
              by_contra none
              push Not at none
              exact broken ⟨complete, none⟩
            simpa [member] using behind last same lost
        refine ⟨by simpa [complete] using one, fun last same lost => ?_⟩
        cases same
        exact absurd complete lost
      · have atMost : (if BitVec.ofNat 32 bound ∈ seen then 0 else 1) ≤ 1 := by
          split <;> decide
        simp only [if_neg complete]
        exact ⟨by omega, fun _ _ _ => by omega⟩

end Runs

/-- Every batch that arrives whole behind a whole one is accepted, and at most
two batches are lost for each one that has lost a datagram. -/
theorem loss_damage_bounded {ρ : Type} {byteDist : ρ → Byte × ρ}
    {count size : Nat} {batch : Nat → List Byte} {cut : Nat → List Segment}
    (run : LossyRun byteDist count size batch cut) :
    ∃ receiver summary,
      ingestAll {} (arriving (transmission cut count)) = some receiver ∧
        sessionSummary none receiver = some summary ∧
        (∀ index < count, Complete (cut index) →
          (0 < index → Complete (cut (index - 1))) →
          BitVec.ofNat 32 index ∈ summary.seenSeq) ∧
        summary.lost ≤ 2 * damaged cut count := by
  obtain ⟨receiver, ingested, tracks⟩ :=
    ingestAll_fresh (arriving (transmission cut count))
  have seen : ∀ index < count, Intact cut index →
      BitVec.ofNat 32 index ∈ receiver.stats.seenSeq := by
    intro index below intact
    rw [tracks.logged.seenSeq, List.mem_toFinset, ← tracks.logged.trail]
    exact run.intact_accepted below intact
  have whole : ∀ index < count, Complete (cut index) →
      (0 < index → Complete (cut (index - 1))) →
      BitVec.ofNat 32 index ∈ receiver.stats.seenSeq := by
    intro index below complete previous
    refine seen index below ⟨complete, ?_⟩
    rintro before rfl
    exact previous (Nat.succ_pos before)
  rcases (scan_surviving run).session with unset | known
  · obtain ⟨_, stats, summarised⟩ :=
      sessionSummary_silent tracks (tracks.total_eq.symm.trans unset)
    refine ⟨receiver, _, ingested, summarised, ?_, Nat.zero_le _⟩
    rw [stats] at whole
    exact whole
  · obtain ⟨summarised, fits⟩ :=
      sessionSummary_total tracks (tracks.total_eq.symm.trans known)
    refine ⟨receiver, _, ingested, summarised, whole, ?_⟩
    have account := missing_add_card (Nat.le_of_lt (BitVec.isLt _))
      (seenSeq_lt_total tracks (tracks.total_eq.symm.trans known))
    rw [toNat_ofNat_word run.bounded] at account
    have few := (missing_le_damaged seen (Nat.le_refl count)).1
    simp only [toNat_ofNat_word run.bounded]
    omega

/-- Three batches; the payload of the first one is lost. -/
def firstPayloadLost (index : Nat) : List Segment :=
  if index = 0 then
    [{ bytes := (encodeBatch 0 3 [0x50#8]).take kPacketHeaderSize
       arrived := true },
      { bytes := (encodeBatch 0 3 [0x50#8]).drop kPacketHeaderSize
        arrived := false }]
  else
    [{ bytes := encodeBatch (BitVec.ofNat 32 index) 3 [0x50#8]
       arrived := true }]

theorem loss_damage_bounded_first_payload :
    ∃ receiver summary,
      ingestAll {} (arriving (transmission firstPayloadLost 3)) =
          some receiver ∧
        sessionSummary none receiver = some summary ∧
        BitVec.ofNat 32 2 ∈ summary.seenSeq ∧ summary.lost ≤ 2 := by
  have starts : ∀ offset < 43,
      peekBatchLength ((arriving (transmission firstPayloadLost
        3)).flatten.drop offset) ≠ 0 →
      ∃ index < 3, HeaderArrived (firstPayloadLost index) ∧
        offset = start firstPayloadLost index := by
    decide +kernel
  have length : (arriving (transmission firstPayloadLost
      3)).flatten.length = 62 := by
    decide +kernel
  have run : LossyRun (fun rng : Nat => (0x50#8, rng)) 3 21
      (fun index => encodeBatch (BitVec.ofNat 32 index) 3 [0x50#8])
      firstPayloadLost :=
    { built := built_constant 0x50#8 3 1 (by decide)
      bounded := by decide
      longer := by decide
      atMost := by decide
      cuts := by
        intro index below
        by_cases first : index = 0
        · subst first
          simp [firstPayloadLost]
        · simp [firstPayloadLost, first]
      headers := by
        intro offset nonzero
        refine starts offset ?_ nonzero
        have complete := (peekBatchLength_ne_zero_iff.mp nonzero).complete
        rw [List.length_drop, length] at complete
        unfold kPacketHeaderSize at complete
        omega }
  obtain ⟨receiver, summary, ingested, summarised, seen, lost⟩ :=
    loss_damage_bounded run
  exact ⟨receiver, summary, ingested, summarised,
    seen 2 (by decide) (by decide) (fun _ => by decide),
    Nat.le_trans lost (by decide)⟩

end BoostUdp
