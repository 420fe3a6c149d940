import BoostUdp.DetectedMss
import BoostUdp.EndToEnd
import BoostUdp.SendBatches

/-!
# The run of the sender script

`send_batches.py` sends its batches in slices as Python cuts them, for every
size that its command line can ask for.  Where the script finishes it sends what the
client would send, and the server of the exit tests prints the numbers that
the script prints.
-/

namespace BoostUdp

open LittleEndian

namespace SendBatches

/-- Where an index of a slice falls in a sequence. -/
def sliceIndex (length : Nat) (index : Int) : Nat :=
  if index < 0 then (index + length).toNat else min index.toNat length

/-- `data[start : stop]`. -/
def slice (data : List Byte) (start stop : Int) : List Byte :=
  (data.take (sliceIndex data.length stop)).drop
    (sliceIndex data.length start)

inductive ScriptError where
  | python (error : PyError)
  | osError
  deriving DecidableEq, Repr

inductive ScriptStop where
  | returned (segs : Nat)
  | raised (error : ScriptError)
  | running
  deriving DecidableEq, Repr

/-- The datagrams of one call of `send_uso_like`, and how far it came. -/
structure Sending where
  datagrams : List (List Byte)
  stop : ScriptStop
  deriving DecidableEq, Repr

def Sending.prepend (chunk : List Byte) (sending : Sending) : Sending :=
  { sending with datagrams := chunk :: sending.datagrams }

section Script

variable (sendto : List Byte → Except ScriptError Unit)

/-- The loop of `send_uso_like`, for as many turns as there is fuel. -/
def sendUsoLoop (data : List Byte) (mss : Int) : Nat → Nat → Nat → Sending
  | 0, _, _ => { datagrams := [], stop := .running }
  | fuel + 1, segs, off =>
      if off < data.length then
        let chunk := slice data off (off + mss)
        match sendto chunk with
        | .error error => { datagrams := [], stop := .raised error }
        | .ok () =>
            (sendUsoLoop data mss fuel (segs + 1)
              (off + chunk.length)).prepend chunk
      else
        { datagrams := [], stop := .returned segs }

def sendUsoLike (data : List Byte) (mss : Int) (fuel : Nat) : Sending :=
  sendUsoLoop sendto data mss fuel 0 0

/-- What the script's command line sets, with the defaults of its parser. -/
structure Arguments where
  size : Int := 4000
  count : Int := 1
  mss : Int := 1408
  seed : Int := 42
  deriving DecidableEq, Repr

/-- The batches that were built, each with the datagrams sent of it. -/
structure ScriptRun where
  sent : List (List Byte × List (List Byte))
  stop : ScriptStop
  deriving DecidableEq, Repr

namespace ScriptRun

def prepend (entry : List Byte × List (List Byte)) (run : ScriptRun) :
    ScriptRun :=
  { run with sent := entry :: run.sent }

def batches (run : ScriptRun) : List (List Byte) := run.sent.map Prod.fst

def datagrams (run : ScriptRun) : List (List Byte) :=
  run.sent.flatMap Prod.snd

end ScriptRun

variable (args : Arguments) (fuel : Nat)

/-- The loop of `main` over the sequence numbers still to be sent. -/
def sendRange : List Nat → Nat → ScriptRun
  | [], totalSegs => { sent := [], stop := .returned totalSegs }
  | seq :: rest, totalSegs =>
      match buildBatch seq args.count args.size args.seed with
      | .error error => { sent := [], stop := .raised (.python error) }
      | .ok batch =>
          let sending := sendUsoLike sendto batch args.mss fuel
          match sending.stop with
          | .returned segs =>
              (sendRange rest (totalSegs + segs)).prepend
                (batch, sending.datagrams)
          | stop => { sent := [(batch, sending.datagrams)], stop := stop }

/-- `main`, whose last line prints the count and the segments. -/
def main : ScriptRun :=
  sendRange sendto args fuel (List.range args.count.toNat) 0

end Script

/-- From inside the data on, a slice of a positive length is what it says. -/
theorem slice_forward {data : List Byte} {off mss : Nat}
    (inside : off ≤ data.length) :
    slice data off (off + mss) = (data.drop off).take mss := by
  have start : sliceIndex data.length (off : Int) = off := by
    rw [sliceIndex, if_neg (by omega)]
    omega
  have stop : sliceIndex data.length ((off : Int) + mss) =
      min (off + mss) data.length := by
    rw [sliceIndex, if_neg (by omega)]
    omega
  have taken : data.take (min (off + mss) data.length) =
      data.take (off + mss) := by
    rw [← List.take_take, List.take_length]
  rw [slice, start, stop, taken, List.take_drop]

/-- A slice that ends before it starts never reaches the end of the data, even
where its negative end counts from there. -/
theorem slice_backward {data : List Byte} {off : Nat} {mss : Int}
    (more : off < data.length) (backward : mss ≤ 0) :
    off + (slice data off (off + mss)).length < data.length := by
  have start : sliceIndex data.length (off : Int) = off := by
    rw [sliceIndex, if_neg (by omega)]
    omega
  have stop : sliceIndex data.length ((off : Int) + mss) < data.length := by
    unfold sliceIndex
    grind
  rw [slice, start, List.length_drop, List.length_take]
  omega

section Batch

variable {sendto : List Byte → Except ScriptError Unit}

/-- With a positive segment size the script cuts as the client does. -/
theorem sendUsoLoop_forward (accepts : ∀ chunk, sendto chunk = .ok ())
    {data : List Byte} {mss fuel off : Nat} (inside : off ≤ data.length)
    {pieces : List (List Byte)}
    (sent : sendSegments List.length data mss fuel off = .ok pieces)
    (segs : Nat) :
    sendUsoLoop sendto data mss fuel segs off =
      { datagrams := pieces, stop := .returned (segs + pieces.length) } := by
  induction fuel generalizing off pieces segs with
  | zero => contradiction
  | succ fuel induction =>
      rw [sendSegments] at sent
      rw [sendUsoLoop]
      by_cases more : off < data.length
      · rw [if_pos more] at sent
        let chunk := min mss (data.length - off)
        have cut : slice data off (off + mss) =
            (data.drop off).take chunk := by
          rw [slice_forward inside, List.take_eq_take_min,
            List.length_drop]
        have size : ((data.drop off).take chunk).length = chunk := by
          rw [List.length_take, List.length_drop]
          omega
        have onward : off + chunk ≤ data.length := by omega
        dsimp only at sent
        rw [if_neg (not_not.mpr size)] at sent
        cases rest : sendSegments List.length data mss fuel (off + chunk) with
        | error error =>
            rw [rest] at sent
            contradiction
        | ok later =>
            rw [rest] at sent
            cases sent
            rw [if_pos more]
            simp only [accepts, cut, size]
            rw [induction onward rest, Sending.prepend, List.length_cons,
              Nat.add_assoc, Nat.add_comm 1]
      · rw [if_neg more] at sent
        cases sent
        rw [if_neg more]
        rfl

/-- Without one the loop never comes to the end of the batch. -/
theorem sendUsoLoop_backward (accepts : ∀ chunk, sendto chunk = .ok ())
    {data : List Byte} {mss : Int} (backward : mss ≤ 0) (fuel segs : Nat)
    {off : Nat} (more : off < data.length) :
    (sendUsoLoop sendto data mss fuel segs off).stop = .running := by
  induction fuel generalizing segs off with
  | zero => rfl
  | succ fuel induction =>
      rw [sendUsoLoop, if_pos more]
      simp only [accepts]
      exact induction _ (slice_backward more backward)

/-- More fuel does not change what is sent. -/
theorem sendSegments_more {sendTo : List Byte → Nat} {data : List Byte}
    {mss fuel more offset : Nat} (enough : fuel ≤ more)
    {pieces : List (List Byte)}
    (sent : sendSegments sendTo data mss fuel offset = .ok pieces) :
    sendSegments sendTo data mss more offset = .ok pieces := by
  induction fuel generalizing more offset pieces with
  | zero => contradiction
  | succ fuel induction =>
      obtain ⟨more, rfl⟩ : ∃ before, more = before + 1 :=
        ⟨more - 1, by omega⟩
      rw [sendSegments] at sent ⊢
      by_cases inside : offset < data.length
      · rw [if_pos inside] at sent ⊢
        dsimp only at sent ⊢
        by_cases short : sendTo ((data.drop offset).take
            (min mss (data.length - offset))) ≠
              min mss (data.length - offset)
        · rw [if_pos short] at sent
          contradiction
        · rw [if_neg short] at sent ⊢
          cases rest : sendSegments sendTo data mss fuel
              (offset + min mss (data.length - offset)) with
          | error error =>
              rw [rest] at sent
              contradiction
          | ok later =>
              rw [rest] at sent
              rw [induction (by omega) rest]
              exact sent
      · rw [if_neg inside] at sent ⊢
        exact sent

theorem sendUsoLike_forward (accepts : ∀ chunk, sendto chunk = .ok ())
    {data : List Byte} {mss : Nat} (positive : 0 < mss) {fuel : Nat}
    (enough : data.length < fuel) :
    ∃ pieces, sendBatchFallback List.length data mss = .ok pieces ∧
      sendUsoLike sendto data mss fuel =
        { datagrams := pieces, stop := .returned pieces.length } := by
  obtain ⟨pieces, sent, _⟩ := sendBatchFallback_complete data mss
  refine ⟨pieces, sent, ?_⟩
  rw [sendBatchFallback, if_neg (Nat.ne_of_gt positive)] at sent
  have same := sendUsoLoop_forward accepts (Nat.zero_le _)
    (sendSegments_more enough sent) 0
  rw [Nat.zero_add] at same
  exact same

/-- The loop ends exactly where there is nothing to send or each slice takes
something. -/
theorem sendUsoLike_returned_iff (accepts : ∀ chunk, sendto chunk = .ok ())
    {data : List Byte} {mss : Int} :
    (∃ fuel segs, (sendUsoLike sendto data mss fuel).stop =
      .returned segs) ↔ data = [] ∨ 1 ≤ mss := by
  constructor
  · rintro ⟨fuel, segs, returned⟩
    by_contra stuck
    obtain ⟨nonempty, backward⟩ := not_or.mp stuck
    have running := sendUsoLoop_backward accepts (Int.not_lt.mp backward)
      fuel 0 (List.length_pos_of_ne_nil nonempty)
    rw [sendUsoLike, running] at returned
    contradiction
  · rintro (rfl | forward)
    · exact ⟨1, 0, rfl⟩
    · obtain ⟨mss, rfl⟩ := Int.eq_ofNat_of_zero_le (a := mss) (by omega)
      obtain ⟨pieces, _, whole⟩ := sendUsoLike_forward accepts
        (by omega : 0 < mss) (Nat.lt_succ_self data.length)
      exact ⟨_, pieces.length, by rw [whole]⟩

end Batch

/-- The mask keeps the low 32 bits of a negative number too. -/
theorem mask_eq_emod (value : Int) :
    Int.land value 0xFFFFFFFF = value % 2 ^ 32 := by
  cases value with
  | ofNat value =>
      have low : value &&& (2 ^ 32 - 1) = value % 2 ^ 32 :=
        Nat.and_two_pow_sub_one_eq_mod value 32
      exact congrArg Nat.cast low
  | negSucc value =>
      have small : value % 2 ^ 32 < 2 ^ 32 := Nat.mod_lt _ (by decide)
      have low : Nat.ldiff (2 ^ 32 - 1) value =
          2 ^ 32 - (value % 2 ^ 32 + 1) := by
        apply Nat.eq_of_testBit_eq
        intro bit
        rw [Nat.testBit_ldiff, Nat.testBit_two_pow_sub_one,
          Nat.testBit_two_pow_sub_succ small, Nat.testBit_mod_two_pow]
        cases decide (bit < 32) with
        | false => rfl
        | true => rfl
      have cast : Int.land (Int.negSucc value) 0xFFFFFFFF =
          ((Nat.ldiff (2 ^ 32 - 1) value : Nat) : Int) := rfl
      rw [cast, low, Int.negSucc_emod _ (by decide)]
      omega

/-- The generator only sees the low 32 bits of its state. -/
theorem fillPayload_emod (indices : List Nat) (state : Int)
    (payload : List Byte) :
    fillPayload indices state payload =
      fillPayload indices (state % 2 ^ 32) payload := by
  cases indices with
  | nil => rfl
  | cons index rest =>
      have next : Int.land (state * 1103515245 + 12345) 0xFFFFFFFF =
          Int.land (state % 2 ^ 32 * 1103515245 + 12345) 0xFFFFFFFF := by
        rw [mask_eq_emod, mask_eq_emod]
        omega
      rw [fillPayload, fillPayload, next]

theorem buildBatch_seed (seq batchTotal size seed : Int) :
    buildBatch seq batchTotal size seed =
      buildBatch seq batchTotal size (seed % 2 ^ 32) := by
  have start : (seed + seq * 10007) % 2 ^ 32 =
      (seed % 2 ^ 32 + seq * 10007) % 2 ^ 32 := (Int.emod_add_emod _ _ _).symm
  simp only [buildBatch]
  rw [fillPayload_emod _ (seed + seq * 10007), start, ← fillPayload_emod]

theorem length_flatMap_words (values : List Int) :
    (values.flatMap fun value => wordBytes (BitVec.ofInt 32 value)).length =
      4 * values.length := by
  induction values with
  | nil => rfl
  | cons value values induction =>
      rw [List.flatMap_cons, List.length_append, induction, List.length_cons]
      have four : (wordBytes (BitVec.ofInt 32 value)).length = 4 := rfl
      omega

theorem packInto_ok_iff {buffer packed : List Byte} {offset : Nat}
    {values : List Int} :
    packInto buffer offset values = .ok packed ↔
      offset + 4 * values.length ≤ buffer.length ∧
        (∀ value ∈ values, 0 ≤ value ∧ value ≤ 0xFFFFFFFF) ∧
        buffer.take offset ++
          values.flatMap (fun value => wordBytes (BitVec.ofInt 32 value)) ++
          buffer.drop (offset + 4 * values.length) = packed := by
  have range : (values.all fun value => 0 ≤ value ∧ value ≤ 0xFFFFFFFF) =
      true ↔ ∀ value ∈ values, 0 ≤ value ∧ value ≤ 0xFFFFFFFF := by
    simp only [List.all_eq_true, decide_eq_true_eq]
  rw [packInto, ← Nat.not_lt, ← range]
  by_cases short : buffer.length < offset + 4 * values.length
  · rw [if_pos short]
    exact ⟨fun absurd => by contradiction, fun fits => absurd short fits.1⟩
  · rw [if_neg short]
    by_cases fits :
        (values.all fun value => 0 ≤ value ∧ value ≤ 0xFFFFFFFF) = true
    · rw [if_pos fits]
      exact ⟨fun packed => ⟨short, fits, Except.ok.inj packed⟩,
        fun packed => congrArg Except.ok packed.2.2⟩
    · rw [if_neg fits]
      exact ⟨fun absurd => by contradiction,
        fun packed => absurd packed.2.1 fits⟩

theorem length_packInto {buffer packed : List Byte} {offset : Nat}
    {values : List Int}
    (success : packInto buffer offset values = .ok packed) :
    packed.length = buffer.length := by
  obtain ⟨room, _, rfl⟩ := packInto_ok_iff.mp success
  rw [List.length_append, List.length_append, length_flatMap_words,
    List.length_take, List.length_drop]
  omega

theorem fillPayload_fills {indices : List Nat} {payload : List Byte}
    (inside : ∀ index ∈ indices, index < payload.length) (state : Int) :
    ∃ filled, fillPayload indices state payload = .ok filled ∧
      filled.length = payload.length := by
  obtain ⟨low, same⟩ := Int.eq_ofNat_of_zero_le
    (Int.emod_nonneg state (by omega : (2 ^ 32 : Int) ≠ 0))
  rw [fillPayload_emod, same]
  exact fillPayload_total inside low

/-- With room for the header only the numbers in it can be refused. -/
theorem buildBatch_filled {seq batchTotal size seed : Int}
    (room : HEADER_SIZE ≤ size) :
    ∃ filled : List Byte, filled.length = size.toNat ∧
      buildBatch seq batchTotal size seed = (do
        let payload ← packInto filled 0 [MAGIC, seq, batchTotal, size, 0]
        let crc ← batchCrc32 payload
        packInto payload 16 [crc]) := by
  have inside : ∀ index ∈ List.range' HEADER_SIZE.toNat
      (size - HEADER_SIZE).toNat,
      index < (List.replicate size.toNat (0 : Byte)).length := by
    intro index member
    rw [List.mem_range'_1] at member
    rw [List.length_replicate]
    unfold HEADER_SIZE at member room
    omega
  obtain ⟨filled, filling, sized⟩ := fillPayload_fills inside
    (seed + seq * 10007)
  refine ⟨filled, sized.trans List.length_replicate, ?_⟩
  simp only [buildBatch, if_neg (Int.not_lt.mpr room), filling]
  rfl

/-- The arguments that `build_batch` takes: the numbers of the header are
words, and the batch has room for it.  The seed may be anything. -/
structure Packable (seq batchTotal size : Int) : Prop where
  seq : 0 ≤ seq ∧ seq ≤ 0xFFFFFFFF
  batchTotal : 0 ≤ batchTotal ∧ batchTotal ≤ 0xFFFFFFFF
  room : HEADER_SIZE ≤ size
  size : size ≤ 0xFFFFFFFF

theorem buildBatch_packable {seq batchTotal size seed : Int}
    {batch : List Byte}
    (built : buildBatch seq batchTotal size seed = .ok batch) :
    Packable seq batchTotal size ∧ batch.length = size.toNat := by
  by_cases short : size < HEADER_SIZE
  · rw [buildBatch, if_pos short] at built
    contradiction
  · have room := Int.not_lt.mp short
    obtain ⟨filled, sized, steps⟩ := @buildBatch_filled seq batchTotal size
      seed room
    rw [steps] at built
    cases header : packInto filled 0 [MAGIC, seq, batchTotal, size, 0] with
    | error error =>
        rw [header] at built
        contradiction
    | ok payload =>
        have words := (packInto_ok_iff.mp header).2.1
        have packable : Packable seq batchTotal size :=
          { seq := words seq (by simp)
            batchTotal := words batchTotal (by simp)
            room := room
            size := (words size (by simp)).2 }
        rw [header] at built
        cases checksum : batchCrc32 payload with
        | error error =>
            simp only [bind, Except.bind, checksum] at built
            contradiction
        | ok crc =>
            simp only [bind, Except.bind, checksum] at built
            exact ⟨packable, (length_packInto built).trans
              ((length_packInto header).trans sized)⟩

theorem Packable.buildBatch {seq batchTotal size : Int}
    (packable : Packable seq batchTotal size) (seed : Int) :
    ∃ batch, SendBatches.buildBatch seq batchTotal size seed = .ok batch := by
  obtain ⟨filled, sized, steps⟩ := @buildBatch_filled seq batchTotal size
    seed packable.room
  have room := packable.room
  have first := packable.seq
  have total := packable.batchTotal
  have last := packable.size
  unfold HEADER_SIZE at room
  have fits : 0 + 4 * [MAGIC, seq, batchTotal, size, 0].length ≤
      filled.length := by
    simp only [List.length_cons, List.length_nil]
    omega
  have words : ∀ value ∈ [MAGIC, seq, batchTotal, size, 0],
      0 ≤ value ∧ value ≤ 0xFFFFFFFF := by
    simp only [List.forall_mem_cons, List.not_mem_nil, MAGIC,
      false_implies, implies_true, and_true]
    omega
  obtain ⟨payload, header⟩ : ∃ payload,
      packInto filled 0 [MAGIC, seq, batchTotal, size, 0] = .ok payload :=
    ⟨_, packInto_ok_iff.mpr ⟨fits, words, rfl⟩⟩
  have whole := (length_packInto header).trans sized
  have complete : kPacketHeaderSize ≤ payload.length := by
    unfold kPacketHeaderSize
    omega
  let crc := BoostUdp.batchCrc32 payload payload.length
  have stored : 16 + 4 * [(crc.toNat : Int)].length ≤ payload.length := by
    rw [List.length_singleton]
    omega
  have word : ∀ value ∈ [(crc.toNat : Int)],
      0 ≤ value ∧ value ≤ 0xFFFFFFFF := by
    have small := crc.isLt
    simp only [List.mem_singleton, forall_eq]
    omega
  obtain ⟨batch, packed⟩ : ∃ batch,
      packInto payload 16 [(crc.toNat : Int)] = .ok batch :=
    ⟨_, packInto_ok_iff.mpr ⟨stored, word, rfl⟩⟩
  refine ⟨batch, ?_⟩
  rw [steps, header]
  simp only [bind, Except.bind, batchCrc32_eq complete]
  exact packed

/-- The batches that the server takes are those of the packet header. -/
theorem buildBatch_batchOf {seq count size : Nat} {seed : Int}
    (below : seq < count) (small : count < 2 ^ 32)
    (complete : kPacketHeaderSize ≤ size) (fits : size ≤ kMaxPacketLength)
    {batch : List Byte}
    (built : SendBatches.buildBatch seq count size seed = .ok batch) :
    BatchOf (BitVec.ofNat 32 count) batch ∧
      (batchSeq batch).toNat = seq ∧ batch.length = size := by
  have seqWord : (BitVec.ofNat 32 seq).toNat = seq :=
    toNat_ofNat_word (Nat.lt_trans below small)
  have totalWord : (BitVec.ofNat 32 count).toNat = count :=
    toNat_ofNat_word small
  obtain ⟨low, same⟩ := Int.eq_ofNat_of_zero_le
    (Int.emod_nonneg seed (by omega : (2 ^ 32 : Int) ≠ 0))
  obtain ⟨payload, whole, built'⟩ := buildBatch_eq (BitVec.ofNat 32 seq)
    (BitVec.ofNat 32 count) complete fits low
  rw [buildBatch_seed, same] at built
  rw [seqWord, totalWord] at built'
  cases built.symm.trans built'
  have inRange : BitVec.ofNat 32 seq < BitVec.ofNat 32 count := by
    rw [BitVec.lt_def, seqWord, totalWord]
    exact below
  refine ⟨⟨encodeBatch_valid inRange (by rw [whole]; exact fits), ?_⟩, ?_, ?_⟩
  · exact decode_encodeBatch_batchTotal _ _ _
  · rw [batchSeq, decode_encodeBatch_seq, seqWord]
  · rw [length_encodeBatch, whole]

section Run

variable {sendto : List Byte → Except ScriptError Unit} {args : Arguments}

/-- A sequence number, with its batch and what was sent of it. -/
structure SentBatch (args : Arguments) (seq : Nat)
    (entry : List Byte × List (List Byte)) : Prop where
  built : buildBatch seq args.count args.size args.seed = .ok entry.1
  cut : sendBatchFallback List.length entry.1 args.mss.toNat = .ok entry.2

theorem sendRange_sends (accepts : ∀ chunk, sendto chunk = .ok ())
    (positive : 1 ≤ args.mss) {fuel : Nat} (enough : args.size.toNat < fuel)
    {seqs : List Nat}
    (packable : ∀ seq ∈ seqs, Packable seq args.count args.size)
    (totalSegs : Nat) :
    ∃ sent,
      sendRange sendto args fuel seqs totalSegs =
        { sent := sent
          stop := .returned (totalSegs + (sent.flatMap Prod.snd).length) } ∧
        List.Forall₂ (SentBatch args) seqs sent := by
  obtain ⟨mss, cut⟩ := Int.eq_ofNat_of_zero_le (a := args.mss) (by omega)
  induction seqs generalizing totalSegs with
  | nil => exact ⟨[], rfl, .nil⟩
  | cons seq seqs induction =>
      obtain ⟨batch, built⟩ :=
        (packable seq List.mem_cons_self).buildBatch args.seed
      have length := (buildBatch_packable built).2
      obtain ⟨pieces, fallback, sending⟩ := sendUsoLike_forward accepts
        (by omega : 0 < mss) (Nat.lt_of_le_of_lt (Nat.le_of_eq length) enough)
      rw [← cut] at sending
      obtain ⟨sent, later, entries⟩ := induction
        (fun other member => packable other (List.mem_cons_of_mem _ member))
        (totalSegs + pieces.length)
      refine ⟨(batch, pieces) :: sent, ?_, .cons ⟨built, ?_⟩ entries⟩
      · simp only [sendRange, built, sending, later, ScriptRun.prepend,
          List.flatMap_cons, List.length_append, Nat.add_assoc]
      · rw [cut]
        exact fallback

/-- The arguments with which the script comes to its end, unless it has nothing
to send. -/
structure Arguments.Sendable (args : Arguments) : Prop where
  count : args.count ≤ 0xFFFFFFFF
  room : HEADER_SIZE ≤ args.size
  size : args.size ≤ 0xFFFFFFFF
  mss : 1 ≤ args.mss

theorem main_sends (accepts : ∀ chunk, sendto chunk = .ok ())
    (sendable : args.Sendable) {fuel : Nat} (enough : args.size.toNat < fuel) :
    ∃ sent,
      main sendto args fuel =
        { sent := sent
          stop := .returned (sent.flatMap Prod.snd).length } ∧
        List.Forall₂ (SentBatch args) (List.range args.count.toNat) sent := by
  have small := sendable.count
  have packable : ∀ seq ∈ List.range args.count.toNat,
      Packable seq args.count args.size := by
    intro seq member
    have below := List.mem_range.mp member
    exact
      { seq := by omega
        batchTotal := by omega
        room := sendable.room
        size := sendable.size }
  obtain ⟨sent, returned, entries⟩ := sendRange_sends accepts sendable.mss
    enough packable 0
  rw [Nat.zero_add] at returned
  exact ⟨sent, returned, entries⟩

/-- A script that returns has come past its first batch. -/
theorem main_first {count : Nat} (some : args.count.toNat = count + 1)
    {fuel totalSegs : Nat}
    (returned : (main sendto args fuel).stop = .returned totalSegs) :
    ∃ batch segs, buildBatch 0 args.count args.size args.seed = .ok batch ∧
      (sendUsoLike sendto batch args.mss fuel).stop = .returned segs := by
  rw [main, some, List.range_succ_eq_map, sendRange] at returned
  cases built : buildBatch 0 args.count args.size args.seed with
  | error error =>
      simp only [Nat.cast_zero, built] at returned
      contradiction
  | ok batch =>
      simp only [Nat.cast_zero, built] at returned
      cases first : (sendUsoLike sendto batch args.mss fuel).stop with
      | returned segs => exact ⟨batch, segs, rfl, first⟩
      | raised error =>
          rw [first] at returned
          contradiction
      | running =>
          rw [first] at returned
          contradiction

theorem main_returned_iff (accepts : ∀ chunk, sendto chunk = .ok ()) :
    (∃ fuel totalSegs,
      (main sendto args fuel).stop = .returned totalSegs) ↔
        args.count ≤ 0 ∨ args.Sendable := by
  constructor
  · rintro ⟨fuel, totalSegs, returned⟩
    by_cases none : args.count ≤ 0
    · exact Or.inl none
    · right
      obtain ⟨batch, segs, built, sent⟩ := main_first
        (by omega : args.count.toNat = (args.count.toNat - 1) + 1) returned
      obtain ⟨packable, length⟩ := buildBatch_packable built
      have room := packable.room
      have ended := (sendUsoLike_returned_iff accepts).mp ⟨fuel, segs, sent⟩
      unfold HEADER_SIZE at room
      have nonempty : batch ≠ [] := by
        apply List.ne_nil_of_length_pos
        omega
      exact
        { count := packable.batchTotal.2
          room := packable.room
          size := packable.size
          mss := ended.resolve_left nonempty }
  · rintro (none | sendable)
    · refine ⟨0, 0, ?_⟩
      rw [main, Int.toNat_of_nonpos none]
      rfl
    · obtain ⟨sent, returned, _⟩ := main_sends accepts sendable
        (Nat.lt_succ_self _)
      exact ⟨_, _, congrArg ScriptRun.stop returned⟩

/-- The defaults are sent, and with a negative segment size they are not. -/
theorem main_returned_iff_default :
    (∃ fuel totalSegs, (main (fun _ => .ok ()) {} fuel).stop =
      .returned totalSegs) ∧
      ¬∃ fuel totalSegs, (main (fun _ => .ok ()) { mss := -1408 } fuel).stop =
        .returned totalSegs := by
  constructor
  · apply (main_returned_iff fun _ => rfl).mpr
    right
    constructor <;> decide
  · rw [main_returned_iff fun _ => rfl]
    rintro (none | sendable)
    · exact absurd none (by decide)
    · exact absurd sendable.mss (by decide)

/-- One datagram for each started segment of the size asked for. -/
def Arguments.segments (args : Arguments) : Nat :=
  (args.size.toNat + args.mss.toNat - 1) / args.mss.toNat

/-- One batch of a script that the server can take. -/
structure Entry (args : Arguments) (seq : Nat)
    (entry : List Byte × List (List Byte)) : Prop where
  batchOf : BatchOf (BitVec.ofNat 32 args.count.toNat) entry.1
  seq : (batchSeq entry.1).toNat = seq
  size : entry.1.length = args.size.toNat
  flatten : entry.2.flatten = entry.1
  nonempty : ∀ datagram ∈ entry.2, datagram ≠ []
  length : entry.2.length = args.segments

theorem SentBatch.entry (sendable : args.Sendable)
    (fits : args.size ≤ kMaxPacketLength) {seq : Nat}
    (below : seq < args.count.toNat)
    {entry : List Byte × List (List Byte)}
    (sent : SentBatch args seq entry) : Entry args seq entry := by
  have room := sendable.room
  have small := sendable.count
  have cut := sendable.mss
  unfold HEADER_SIZE at room
  have complete : kPacketHeaderSize ≤ args.size.toNat := by
    unfold kPacketHeaderSize
    omega
  have count : (args.count.toNat : Int) = args.count := by omega
  have size : (args.size.toNat : Int) = args.size := by omega
  have built := sent.built
  rw [← count, ← size] at built
  obtain ⟨batchOf, number, length⟩ := buildBatch_batchOf below (by omega)
    complete (by omega) built
  have nonempty : entry.1 ≠ [] := by
    apply List.ne_nil_of_length_pos
    unfold kPacketHeaderSize at complete
    omega
  have segmented := sendBatchFallback_segmented (by omega) nonempty sent.cut
  have flat := sendBatchFallback_carries.whole sent.cut
  exact
    { batchOf := batchOf
      seq := number
      size := length
      flatten := flat
      nonempty := segmented.nonempty
      length := by rw [segmented.length_eq, flat, length, Arguments.segments] }

/-- What the batches of a part of the run are together. -/
structure Transmitted (args : Arguments) (seqs : List Nat)
    (run : ScriptRun) : Prop where
  sequence : run.batches.map (fun batch => (batchSeq batch).toNat) = seqs
  member : ∀ batch ∈ run.batches,
    BatchOf (BitVec.ofNat 32 args.count.toNat) batch ∧
      batch.length = args.size.toNat
  wire : run.datagrams.flatten = run.batches.flatten
  nonempty : ∀ datagram ∈ run.datagrams, datagram ≠ []
  length : run.datagrams.length = seqs.length * args.segments

theorem transmitted {seqs : List Nat}
    {sent : List (List Byte × List (List Byte))}
    (entries : List.Forall₂ (Entry args) seqs sent) (stop : ScriptStop) :
    Transmitted args seqs { sent := sent, stop := stop } := by
  induction entries with
  | nil =>
      exact
        { sequence := rfl
          member := by simp [ScriptRun.batches]
          wire := rfl
          nonempty := by simp [ScriptRun.datagrams]
          length := (Nat.zero_mul _).symm }
  | @cons seq entry seqs sent first later induction =>
      refine
        { sequence := ?_
          member := ?_
          wire := ?_
          nonempty := ?_
          length := ?_ }
      · exact congrArg₂ List.cons first.seq induction.sequence
      · exact List.forall_mem_cons.mpr
          ⟨⟨first.batchOf, first.size⟩, induction.member⟩
      · have wire := induction.wire
        simp only [ScriptRun.datagrams, ScriptRun.batches, List.flatMap_cons,
          List.flatten_append, List.map_cons, List.flatten_cons,
          first.flatten] at wire ⊢
        rw [wire]
      · exact List.forall_mem_append.mpr ⟨first.nonempty, induction.nonempty⟩
      · have length := induction.length
        simp only [ScriptRun.datagrams, List.flatMap_cons,
          List.length_append, List.length_cons, first.length] at length ⊢
        rw [length, Nat.succ_mul, Nat.add_comm]

/-- What the script sends is the whole run of a sender, and its last line
counts the datagrams. -/
theorem main_transmitted (accepts : ∀ chunk, sendto chunk = .ok ())
    (sendable : args.Sendable) (fits : args.size ≤ kMaxPacketLength)
    {fuel : Nat} (enough : args.size.toNat < fuel) :
    Transmitted args (List.range args.count.toNat)
        (main sendto args fuel) ∧
      (main sendto args fuel).stop =
        .returned (args.count.toNat * args.segments) := by
  obtain ⟨sent, returned, sends⟩ := main_sends accepts sendable enough
  have below := (List.forall₂_and_left (p := (· < args.count.toNat)) _ _).mpr
    ⟨fun seq member => List.mem_range.mp member, sends⟩
  have entries := below.imp
    fun seq entry sent => sent.2.entry sendable fits sent.1
  rw [returned]
  have whole := transmitted entries
    (.returned (sent.flatMap Prod.snd).length)
  have length := whole.length
  rw [List.length_range] at length
  exact ⟨whole, congrArg ScriptStop.returned length⟩

theorem Transmitted.wholeRun {run : ScriptRun}
    (whole : Transmitted args (List.range args.count.toNat) run) :
    WholeRun args.count.toNat args.size.toNat run.batches :=
  { sequence := whole.sequence, member := whole.member }

end Run

end SendBatches

section ExitTest

open SendBatches

variable {ρ : Type} {path : ReceivePath ρ} {options : ServerOptions}
  {sendto : List Byte → Except ScriptError Unit} {args : Arguments}

/-- What the exit tests look at, whatever count, size, segment size and seed
they are run with: the server returns in either mode, and reports the batches
and the datagrams that the script reports. -/
theorem exitTest_agrees (accepts : ∀ chunk, sendto chunk = .ok ())
    (sendable : args.Sendable) (some : 0 < args.count)
    (longer : HEADER_SIZE < args.size) (fits : args.size ≤ kMaxPacketLength)
    {fuel : Nat} (enough : args.size.toNat < fuel) {burst : Burst}
    (separate : burst.Separate)
    (delivered : ∀ arrival ∈ burst.arrivals, path.Delivers arrival)
    (loopback : burst.payloads = (main sendto args fuel).datagrams)
    (once : options.loop = false)
    (mode : options.batchCount = none ∨
      options.batchCount = .some args.count.toNat) :
    ∃ stats rest,
      runServer path.wrapper.receive options (burst.ticks path) =
        { summaries := [stats], stop := .returned rest } ∧
        Flawless args.count.toNat (args.count.toNat * args.segments) stats ∧
        (main sendto args fuel).stop = .returned stats.fragments := by
  obtain ⟨whole, stop⟩ := main_transmitted accepts sendable fits enough
  have small := sendable.count
  have positive : 0 < args.count.toNat := by omega
  have bounded : args.count.toNat < 2 ^ 32 := by omega
  have long : kPacketHeaderSize < args.size.toNat := by
    unfold HEADER_SIZE at longer
    unfold kPacketHeaderSize
    omega
  have same : burst.payloads.flatten =
      (main sendto args fuel).batches.flatten := by
    rw [loopback, whole.wire]
  have length : burst.arrivals.length =
      args.count.toNat * args.segments := by
    have sized := whole.length
    rw [List.length_range, ← loopback, Burst.length_payloads] at sized
    exact sized
  have nonempty : ∀ arrival ∈ burst.arrivals, arrival.data ≠ [] := by
    intro arrival member
    apply whole.nonempty
    rw [← loopback]
    exact List.mem_map_of_mem member
  have finished : ∃ stats rest,
      runReceiveLoop path.wrapper.receive options.batchCount
          (burst.ticks path) = .ok (.summary stats rest) ∧
        Flawless args.count.toNat burst.arrivals.length stats := by
    rcases mode with idle | counting
    · obtain ⟨stats, summarised, left⟩ :=
        runReceiveLoop_burst path separate delivered []
      rw [List.append_nil] at left
      have flawless := whole.wholeRun.flawless positive bounded long same
        summarised
      rw [Burst.length_payloads] at flawless
      rw [idle]
      exact ⟨stats, [], left, flawless⟩
    · obtain ⟨stats, flawless, left⟩ := runReceiveLoop_wholeRun path
        whole.wholeRun positive bounded long separate nonempty delivered same
        [silence burst.quiet path.timeout]
      rw [counting]
      exact ⟨stats, _, left, flawless⟩
  obtain ⟨stats, rest, left, flawless⟩ := finished
  rw [length] at flawless
  refine ⟨stats, rest, sessionLoop_last path.wrapper left (Or.inl once),
    flawless, ?_⟩
  rw [stop, flawless.fragments]

def twoShortBatches : Arguments :=
  { size := 21, count := 2, mss := 7 }

end ExitTest

theorem exitTest_agrees_two :
    ∃ stats rest,
      runServer receiveDatagram { port := 19000, batchCount := some 2 }
          ((burstAtOnce (SendBatches.main (fun _ => .ok ())
            twoShortBatches 22).datagrams).ticks plainPath) =
        { summaries := [stats], stop := .returned rest } ∧
        stats.batches = 2 ∧ stats.fragments = 6 ∧ stats.lost = 0 := by
  have sendable : twoShortBatches.Sendable := by
    constructor <;> decide
  obtain ⟨whole, _⟩ := @SendBatches.main_transmitted (fun _ => .ok ()) _
    (fun _ => rfl) sendable (by decide) 22 (by decide)
  have length := whole.length
  generalize run : SendBatches.main (fun _ => .ok ()) twoShortBatches 22 =
    sender at length
  have traffic : sender.datagrams ≠ [] := by
    intro none
    rw [none] at length
    exact absurd length (by decide)
  have loopback : (burstAtOnce sender.datagrams).payloads =
      (SendBatches.main (fun _ => .ok ()) twoShortBatches 22).datagrams := by
    rw [run]
    exact payloads_atOnce sender.datagrams
  obtain ⟨stats, rest, served, flawless, _⟩ := @exitTest_agrees _ plainPath
    { port := 19000, batchCount := some 2 } (fun _ => .ok ())
    twoShortBatches (fun _ => rfl) sendable (by decide) (by decide)
    (by decide) 22 (by decide) _ (burstAtOnce_separate traffic)
    (fun arrival _ => plainPath_delivers arrival) loopback rfl (Or.inr rfl)
  exact ⟨stats, rest, served, flawless.batches, flawless.fragments,
    flawless.lost⟩

end BoostUdp
