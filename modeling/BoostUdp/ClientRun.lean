import BoostUdp.Cli
import BoostUdp.Client
import BoostUdp.Server.Tally

/-!
# A run of the client

`run_client` numbers its batches with a 64-bit counter and narrows the number
and the count to the 32-bit fields of the header.  Every accepted command line
with a count below `2 ^ 32` is sent in full; with any other the run throws when
the number reaches the narrowed count.
-/

namespace BoostUdp

open LittleEndian

/-- The batches of a run, each with what its send returned, and what the run
threw. -/
structure ClientRun (τ : Type) where
  sent : List (List Byte × τ) := []
  error : Option String := none

namespace ClientRun

variable {τ : Type}

def prepend (entries : List (List Byte × τ)) (run : ClientRun τ) :
    ClientRun τ :=
  { run with sent := entries ++ run.sent }

def batches (run : ClientRun τ) : List (List Byte) := run.sent.map Prod.fst

@[simp] theorem prepend_nil (run : ClientRun τ) : run.prepend [] = run := rfl

theorem prepend_prepend (first second : List (List Byte × τ))
    (run : ClientRun τ) :
    (run.prepend second).prepend first = run.prepend (first ++ second) := by
  simp only [prepend, List.append_assoc]

end ClientRun

section Run

variable {ρ τ : Type} (byteDist : ρ → Byte × ρ)
  (sendBatch : List Byte → Nat → Except String τ) (options : ClientOptions)

/-- The loop over the batches, from batch `i` on.  The buffer is the one of the
batch before. -/
def sendLoop : Nat → Nat → List Byte → ρ → ClientRun τ
  | 0, _, _, _ => {}
  | remaining + 1, i, batch, rng =>
      match buildBatch byteDist batch (BitVec.ofNat 32 i)
          (BitVec.ofNat 32 options.batchCount) rng with
      | .error error => { error := some error }
      | .ok (batch, rng) =>
          match sendBatch batch options.mss with
          | .error error => { error := some error }
          | .ok sent =>
              (sendLoop remaining (i + 1) batch rng).prepend [(batch, sent)]

/-- `run_client` from its loop on; the socket is `sendBatch`. -/
def runClient (rng : ρ) : ClientRun τ :=
  sendLoop byteDist sendBatch options options.batchCount 0
    (List.replicate options.batchSize 0) rng

end Run

/-- Batches that the receiver accepts, numbered from `start` on. -/
structure Numbered (options : ClientOptions) (start : Nat)
    (batches : List (List Byte)) : Prop where
  sequence : batches.map (fun batch => (batchSeq batch).toNat) =
    List.range' start batches.length
  valid : ∀ batch ∈ batches,
    validateBatch batch options.batchSize = .ok ∧
      (PacketHeader.decode batch).batchTotal =
        BitVec.ofNat 32 options.batchCount

theorem numbered_nil (options : ClientOptions) (start : Nat) :
    Numbered options start [] :=
  { sequence := rfl
    valid := by
      intro batch member
      contradiction }

theorem Numbered.cons {options : ClientOptions} {start : Nat}
    {batch : List Byte} {batches : List (List Byte)}
    (number : (batchSeq batch).toNat = start)
    (valid : validateBatch batch options.batchSize = .ok)
    (total : (PacketHeader.decode batch).batchTotal =
      BitVec.ofNat 32 options.batchCount)
    (later : Numbered options (start + 1) batches) :
    Numbered options start (batch :: batches) :=
  { sequence := by
      rw [List.map_cons, number, later.sequence, List.length_cons,
        List.range'_succ]
    valid := by
      intro other member
      rcases List.mem_cons.mp member with rfl | member
      · exact ⟨valid, total⟩
      · exact later.valid other member }

section Run

variable {ρ τ : Type} (byteDist : ρ → Byte × ρ)
  {sendBatch : List Byte → Nat → Except String τ} {options : ClientOptions}

/-- A number below the narrowed count is built and accepted. -/
theorem buildBatch_numbered (sendable : options.Sendable)
    {buffer : List Byte} (room : buffer.length = options.batchSize)
    {index : Nat} (below : index < options.batchCount % 2 ^ 32) (rng : ρ) :
    ∃ batch rest,
      buildBatch byteDist buffer (BitVec.ofNat 32 index)
          (BitVec.ofNat 32 options.batchCount) rng = .ok (batch, rest) ∧
        batch.length = options.batchSize ∧
        (batchSeq batch).toNat = index ∧
        validateBatch batch options.batchSize = .ok ∧
        (PacketHeader.decode batch).batchTotal =
          BitVec.ofNat 32 options.batchCount := by
  have wrapped : options.batchCount % 2 ^ 32 < 2 ^ 32 :=
    Nat.mod_lt _ (by decide)
  have small : index % 2 ^ 32 = index :=
    Nat.mod_eq_of_lt (Nat.lt_trans below wrapped)
  have inRange : BitVec.ofNat 32 index <
      BitVec.ofNat 32 options.batchCount := by
    rw [BitVec.lt_def, BitVec.toNat_ofNat, BitVec.toNat_ofNat, small]
    exact below
  have atLeast := sendable.size_ge
  have atMost := sendable.size_le
  let payload :=
    (drawBytes byteDist (buffer.length - kPacketHeaderSize) rng).1
  have drawn : payload.length = buffer.length - kPacketHeaderSize :=
    length_drawBytes byteDist _ rng
  have size : kPacketHeaderSize + payload.length = options.batchSize := by
    omega
  have length : (encodeBatch (BitVec.ofNat 32 index)
      (BitVec.ofNat 32 options.batchCount) payload).length =
        options.batchSize := by
    rw [length_encodeBatch, size]
  have valid : ValidBatch (encodeBatch (BitVec.ofNat 32 index)
      (BitVec.ofNat 32 options.batchCount) payload) := by
    apply encodeBatch_valid inRange
    rw [size]
    exact atMost
  refine ⟨_, _, buildBatch_eq byteDist rng (by omega) inRange, length, ?_,
    ?_, decode_encodeBatch_batchTotal _ _ _⟩
  · rw [batchSeq, decode_encodeBatch_seq, BitVec.toNat_ofNat, small]
  · rw [← length]
    exact valid

/-- At the narrowed count the encoder refuses. -/
theorem buildBatch_refused (sendable : options.Sendable)
    {buffer : List Byte} (room : buffer.length = options.batchSize)
    (rng : ρ) :
    buildBatch byteDist buffer
        (BitVec.ofNat 32 (options.batchCount % 2 ^ 32))
        (BitVec.ofNat 32 options.batchCount) rng =
      .error "invalid seq/batch_total" := by
  have atLeast := sendable.size_ge
  have same : BitVec.ofNat 32 (options.batchCount % 2 ^ 32) =
      BitVec.ofNat 32 options.batchCount := by
    apply BitVec.eq_of_toNat_eq
    rw [BitVec.toNat_ofNat, BitVec.toNat_ofNat, Nat.mod_mod]
  have refused : BitVec.ofNat 32 options.batchCount = 0 ∨
      BitVec.ofNat 32 options.batchCount ≤
        BitVec.ofNat 32 (options.batchCount % 2 ^ 32) := by
    rw [same]
    exact Or.inr (BitVec.le_refl _)
  unfold buildBatch
  rw [if_neg (by omega), if_pos refused]

/-- As long as the numbers stay below the narrowed count the loop sends. -/
theorem sendLoop_sends (sendable : options.Sendable)
    (succeeds : ∀ batch, ∃ sent, sendBatch batch options.mss = .ok sent)
    (count rest : Nat) {i : Nat} {buffer : List Byte}
    (room : buffer.length = options.batchSize) (rng : ρ)
    (below : i + count ≤ options.batchCount % 2 ^ 32) :
    ∃ entries last onward,
      entries.length = count ∧
        Numbered options i (entries.map Prod.fst) ∧
        last.length = options.batchSize ∧
        sendLoop byteDist sendBatch options (count + rest) i buffer rng =
          (sendLoop byteDist sendBatch options rest (i + count) last
            onward).prepend entries := by
  induction count generalizing i buffer rng with
  | zero =>
      refine ⟨[], buffer, rng, rfl, numbered_nil options i, room, ?_⟩
      rw [Nat.zero_add, Nat.add_zero, ClientRun.prepend_nil]
  | succ count induction =>
      have first : i < options.batchCount % 2 ^ 32 := by omega
      obtain ⟨batch, next, built, length, number, valid, total⟩ :=
        buildBatch_numbered byteDist sendable room first rng
      obtain ⟨sent, succeeded⟩ := succeeds batch
      obtain ⟨entries, last, onward, counted, numbered, lastLength, ran⟩ :=
        induction length next (show i + 1 + count ≤ _ by omega)
      refine ⟨(batch, sent) :: entries, last, onward, ?_, ?_, lastLength, ?_⟩
      · rw [List.length_cons, counted]
      · exact numbered.cons number valid total
      · have reached : i + 1 + count = i + (count + 1) := by omega
        rw [reached] at ran
        rw [Nat.add_right_comm count 1 rest, sendLoop, built]
        simp only [succeeded, ran, ClientRun.prepend_prepend,
          List.singleton_append]

/-- A run that throws nothing, and whose batches are as many as were asked
for, numbered in order, and accepted. -/
structure SendsAll (options : ClientOptions) (run : ClientRun τ) : Prop where
  error : run.error = none
  sequence : run.batches.map (fun batch => (batchSeq batch).toNat) =
    List.range options.batchCount
  distinct : (run.batches.map batchSeq).Nodup
  valid : ∀ batch ∈ run.batches,
    validateBatch batch options.batchSize = .ok ∧
      (PacketHeader.decode batch).batchTotal.toNat = options.batchCount

/-- A count that fits into the header is sent. -/
theorem runClient_sends (sendable : options.Sendable)
    (succeeds : ∀ batch, ∃ sent, sendBatch batch options.mss = .ok sent)
    (small : options.batchCount < 2 ^ 32) (rng : ρ) :
    SendsAll options (runClient byteDist sendBatch options rng) := by
  have whole : options.batchCount % 2 ^ 32 = options.batchCount :=
    Nat.mod_eq_of_lt small
  obtain ⟨entries, last, onward, counted, numbered, _, ran⟩ :=
    sendLoop_sends byteDist sendable succeeds options.batchCount 0
      (List.length_replicate) rng
      (show 0 + options.batchCount ≤ _ by omega)
  have run : runClient byteDist sendBatch options rng = { sent := entries } :=
    ran.trans (by
      simp only [sendLoop, ClientRun.prepend, List.append_nil])
  have sequence := numbered.sequence
  rw [List.length_map, counted, ← List.range_eq_range'] at sequence
  rw [run]
  exact
    { error := rfl
      sequence := sequence
      distinct := by
        apply List.Nodup.of_map BitVec.toNat
        rw [List.map_map]
        exact sequence ▸ List.nodup_range
      valid := by
        intro batch member
        obtain ⟨valid, total⟩ := numbered.valid batch member
        refine ⟨valid, ?_⟩
        rw [total, BitVec.toNat_ofNat, whole] }

/-- A count that does not fit is narrowed: the run throws behind as many
batches as the narrowed count says. -/
theorem runClient_throws (sendable : options.Sendable)
    (succeeds : ∀ batch, ∃ sent, sendBatch batch options.mss = .ok sent)
    (large : 2 ^ 32 ≤ options.batchCount) (rng : ρ) :
    (runClient byteDist sendBatch options rng).error =
        some "invalid seq/batch_total" ∧
      (runClient byteDist sendBatch options rng).sent.length =
        options.batchCount % 2 ^ 32 := by
  have wrapped : options.batchCount % 2 ^ 32 < 2 ^ 32 :=
    Nat.mod_lt _ (by decide)
  obtain ⟨left, split⟩ : ∃ left, options.batchCount =
      options.batchCount % 2 ^ 32 + (left + 1) :=
    ⟨options.batchCount - options.batchCount % 2 ^ 32 - 1, by omega⟩
  obtain ⟨entries, last, onward, counted, _, length, ran⟩ :=
    sendLoop_sends byteDist sendable succeeds
      (options.batchCount % 2 ^ 32) (left + 1)
      (List.length_replicate) rng
      (show 0 + options.batchCount % 2 ^ 32 ≤ _ by omega)
  have refused := buildBatch_refused byteDist sendable length onward
  rw [← split, Nat.zero_add, sendLoop, refused] at ran
  rw [runClient, ran]
  constructor
  · rfl
  · simp only [ClientRun.prepend, List.append_nil, counted]

/-- Every accepted command line is sent in full if and only if its count fits
into 32 bits. -/
theorem runClient_sends_all_iff {platform : Platform} {argv : List String}
    (accepted : parseClientOptions platform argv {} = .ok (true, options))
    (succeeds : ∀ batch, ∃ sent, sendBatch batch options.mss = .ok sent)
    (rng : ρ) :
    SendsAll options (runClient byteDist sendBatch options rng) ↔
      options.batchCount < 2 ^ 32 := by
  have sendable := parseClientOptions_sendable accepted
  constructor
  · intro all
    by_contra large
    obtain ⟨threw, _⟩ := runClient_throws byteDist sendable succeeds
      (Nat.not_lt.mp large) rng
    rw [all.error] at threw
    contradiction
  · intro small
    exact runClient_sends byteDist sendable succeeds small rng

end Run

/-- A random generator that repeats its byte. -/
def sameByte (byte : Byte) : Byte × Byte := (byte, byte)

theorem runClient_sends_all_iff_two :
    SendsAll
      { destAddress := "10.0.0.15", destPort := 5000, batchSize := 33792,
        mss := 1408, batchCount := 2 }
      (runClient sameByte (sendBatchFallback List.length)
        { destAddress := "10.0.0.15", destPort := 5000, batchSize := 33792,
          mss := 1408, batchCount := 2 } 0) := by
  have accepted : parseClientOptions .posix
      ["boostudp_client", "--dest", "10.0.0.15", "--port", "5000", "--size",
        "33792", "--mss=1408", "--count", "2"] {} =
      .ok (true,
        { destAddress := "10.0.0.15", destPort := 5000, batchSize := 33792,
          mss := 1408, batchCount := 2 }) := by decide
  apply (runClient_sends_all_iff sameByte accepted _ 0).mpr
  · decide
  · intro batch
    obtain ⟨sent, succeeded, _⟩ := sendBatchFallback_complete batch 1408
    exact ⟨sent, succeeded⟩

/-- With a count of `2 ^ 32`, which is accepted, the first batch throws. -/
theorem runClient_count_wraps :
    ∃ options,
      parseClientOptions .posix
          ["boostudp_client", "--dest", "10.0.0.15", "--port", "5000",
            "--size", "33792", "--count", "4294967296"] {} =
        .ok (true, options) ∧
      (runClient sameByte (sendBatchFallback List.length) options 0).error =
        some "invalid seq/batch_total" ∧
      (runClient sameByte (sendBatchFallback List.length) options 0).batches =
        [] ∧
      ¬SendsAll options
        (runClient sameByte (sendBatchFallback List.length) options 0) := by
  let options : ClientOptions :=
    { destAddress := "10.0.0.15", destPort := 5000, batchSize := 33792,
      batchCount := 2 ^ 32 }
  have accepted : parseClientOptions .posix
      ["boostudp_client", "--dest", "10.0.0.15", "--port", "5000", "--size",
        "33792", "--count", "4294967296"] {} = .ok (true, options) := by
    decide
  obtain ⟨threw, counted⟩ := runClient_throws sameByte
    (parseClientOptions_sendable accepted)
    (fun batch => by
      obtain ⟨sent, succeeded, _⟩ := sendBatchFallback_complete batch
        kDefaultMss
      exact ⟨sent, succeeded⟩)
    (Nat.le_refl _) 0
  have noneSent : options.batchCount % 2 ^ 32 = 0 := Nat.mod_self (2 ^ 32)
  refine ⟨options, accepted, threw, ?_, ?_⟩
  · exact List.map_eq_nil_iff.mpr
      (List.length_eq_zero_iff.mp (counted.trans noneSent))
  · intro all
    rw [all.error] at threw
    contradiction

end BoostUdp
