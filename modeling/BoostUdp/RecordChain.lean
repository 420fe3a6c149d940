import Mathlib.Tactic

/-!
# Chains of aligned records

A buffer of records, each of a header with its length and kind, its data and
padding up to the alignment of the next header.  A reader walks from header to
header; a writer fills a blank buffer from the front.
-/

namespace RecordChain

universe u v w

/-- What a record is about, and its data without the padding. -/
structure Record (κ : Type u) (β : Type v) where
  kind : κ
  data : List β
  deriving DecidableEq, Repr

/-- The layout of the headers.  They can hold any length below the limit. -/
structure Layout (κ : Type u) (β : Type v) where
  headerSize : Nat
  alignment : Nat
  limit : Nat
  encodeHeader : Nat → κ → List β
  decodeHeader : List β → Nat × κ
  headerSize_pos : 0 < headerSize
  alignment_pos : 0 < alignment
  aligned : alignment ∣ headerSize
  length_encodeHeader : ∀ length kind,
    (encodeHeader length kind).length = headerSize
  decode_encode : ∀ {length : Nat} (kind : κ) (rest : List β),
    length < limit →
      decodeHeader (encodeHeader length kind ++ rest) = (length, kind)

namespace Layout

variable {κ : Type u} {β : Type v} (layout : Layout κ β)

def alignUp (size : Nat) : Nat :=
  (size + layout.alignment - 1) / layout.alignment * layout.alignment

/-- The length that the header of a record with so much data holds. -/
def recordLength (size : Nat) : Nat := layout.headerSize + size

/-- What such a record takes up, its padding included. -/
def space (size : Nat) : Nat := layout.headerSize + layout.alignUp size

theorem le_alignUp (size : Nat) : size ≤ layout.alignUp size := by
  have positive := layout.alignment_pos
  have split := Nat.div_add_mod (size + layout.alignment - 1)
    layout.alignment
  have small := Nat.mod_lt (size + layout.alignment - 1) positive
  rw [Nat.mul_comm] at split
  unfold alignUp
  omega

/-- The header does not disturb the alignment. -/
theorem alignUp_recordLength (size : Nat) :
    layout.alignUp (layout.recordLength size) = layout.space size := by
  have positive := layout.alignment_pos
  obtain ⟨words, whole⟩ := layout.aligned
  have shifted : layout.alignment * words + size + layout.alignment - 1 =
      size + layout.alignment - 1 + layout.alignment * words := by omega
  unfold recordLength space alignUp
  rw [whole, shifted, Nat.add_mul_div_left _ _ positive, Nat.add_mul,
    Nat.mul_comm words, Nat.add_comm]

variable [Zero β]

def encodeRecord (record : Record κ β) : List β :=
  layout.encodeHeader (layout.recordLength record.data.length) record.kind ++
    record.data ++
    List.replicate
      (layout.alignUp record.data.length - record.data.length) 0

/-- The records, one behind the other. -/
def encode (records : List (Record κ β)) : List β :=
  records.flatMap layout.encodeRecord

/-- The record fits the length field of its header. -/
def Fits (record : Record κ β) : Prop :=
  layout.recordLength record.data.length < layout.limit

theorem length_encodeRecord (record : Record κ β) :
    (layout.encodeRecord record).length =
      layout.space record.data.length := by
  have padded := layout.le_alignUp record.data.length
  rw [encodeRecord, List.length_append, List.length_append,
    layout.length_encodeHeader, List.length_replicate, space]
  omega

omit [Zero β] in
/-- The first header, if there is room for one. -/
def first (capacity : Nat) : Option Nat :=
  if layout.headerSize ≤ capacity then some 0 else none

/-- The header behind the one at this position, if there is room for it. -/
def next (buffer : List β) (capacity position : Nat) : Option Nat :=
  let length := (layout.decodeHeader (buffer.drop position)).1
  let after := position + layout.alignUp length
  if capacity < after + layout.headerSize then none else some after

def recordAt (buffer : List β) (position : Nat) : Record κ β :=
  let (length, kind) := layout.decodeHeader (buffer.drop position)
  { kind := kind
    data := (buffer.drop (position + layout.headerSize)).take
      (length - layout.headerSize) }

/-- What a writer makes of a record at this position. -/
def put (buffer : List β) (position : Nat) (record : Record κ β) : List β :=
  buffer.take position ++
    (layout.encodeHeader (layout.recordLength record.data.length)
        record.kind ++ record.data) ++
      buffer.drop (position + layout.recordLength record.data.length)

theorem decodeHeader_encodeRecord {record : Record κ β}
    (fits : layout.Fits record) (front back : List β) :
    layout.decodeHeader
        ((front ++ (layout.encodeRecord record ++ back)).drop
          front.length) =
      (layout.recordLength record.data.length, record.kind) := by
  rw [List.drop_left, encodeRecord, List.append_assoc, List.append_assoc]
  exact layout.decode_encode _ _ fits

theorem recordAt_encodeRecord {record : Record κ β}
    (fits : layout.Fits record) (front back : List β) :
    layout.recordAt (front ++ (layout.encodeRecord record ++ back))
      front.length = record := by
  have header := layout.length_encodeHeader
    (layout.recordLength record.data.length) record.kind
  have size : layout.recordLength record.data.length - layout.headerSize =
      record.data.length := by
    unfold recordLength
    omega
  rw [recordAt, layout.decodeHeader_encodeRecord fits]
  simp only [size]
  rw [← List.drop_drop, List.drop_left, encodeRecord, List.append_assoc,
    List.append_assoc, ← header, List.drop_left, List.take_left]

theorem next_encodeRecord {record : Record κ β} (fits : layout.Fits record)
    (front back : List β) (capacity : Nat) :
    layout.next (front ++ (layout.encodeRecord record ++ back)) capacity
        front.length =
      if capacity < front.length + layout.space record.data.length +
          layout.headerSize then
        none
      else
        some (front.length + layout.space record.data.length) := by
  simp only [next, layout.decodeHeader_encodeRecord fits,
    layout.alignUp_recordLength]

/-- Writing behind the records that are there already. -/
theorem put_encodeRecord (record : Record κ β) (front : List β)
    {blank : Nat} (room : layout.space record.data.length ≤ blank) :
    layout.put (front ++ List.replicate blank 0) front.length record =
      front ++ (layout.encodeRecord record ++
        List.replicate (blank - layout.space record.data.length) 0) := by
  have padded := layout.le_alignUp record.data.length
  have rest : blank - layout.recordLength record.data.length =
      layout.alignUp record.data.length - record.data.length +
        (blank - layout.space record.data.length) := by
    unfold space recordLength at *
    omega
  rw [put, List.take_left, ← List.drop_drop, List.drop_left,
    List.drop_replicate, rest, List.replicate_add, encodeRecord]
  simp only [List.append_assoc]

/-- The headers from a position on. -/
def headersFrom (buffer : List β) (capacity : Nat) :
    Nat → Option Nat → List Nat
  | 0, _ => []
  | _ + 1, none => []
  | fuel + 1, some position =>
      position ::
        headersFrom buffer capacity fuel (layout.next buffer capacity position)

/-- The headers of a buffer, each of which takes up room. -/
def headers (buffer : List β) : List Nat :=
  layout.headersFrom buffer buffer.length (buffer.length + 1)
    (layout.first buffer.length)

def walk (buffer : List β) : List (Record κ β) :=
  (layout.headers buffer).map (layout.recordAt buffer)

theorem encode_cons (record : Record κ β) (records : List (Record κ β)) :
    layout.encode (record :: records) =
      layout.encodeRecord record ++ layout.encode records :=
  List.flatMap_cons

theorem encode_concat (records : List (Record κ β)) (record : Record κ β) :
    layout.encode (records ++ [record]) =
      layout.encode records ++ layout.encodeRecord record := by
  rw [encode, List.flatMap_append, List.flatMap_singleton]
  rfl

theorem length_encode_concat (records : List (Record κ β))
    (record : Record κ β) :
    (layout.encode (records ++ [record])).length =
      (layout.encode records).length + layout.space record.data.length := by
  rw [encode_concat, List.length_append, length_encodeRecord]

theorem headerSize_le_length_encode {records : List (Record κ β)}
    (nonempty : records ≠ []) :
    layout.headerSize ≤ (layout.encode records).length := by
  cases records with
  | nil => contradiction
  | cons record records =>
      rw [encode_cons, List.length_append, length_encodeRecord, space]
      omega

theorem length_le_length_encode (records : List (Record κ β)) :
    records.length ≤ (layout.encode records).length := by
  induction records with
  | nil => exact Nat.zero_le _
  | cons record records induction =>
      have positive := layout.headerSize_pos
      rw [encode_cons, List.length_append, length_encodeRecord, space,
        List.length_cons]
      omega

/-- What is read off the header of an encoded record, wherever it lies. -/
def Reads {γ : Type w} (read : List β → Nat → γ) (value : Record κ β → γ) :
    Prop :=
  ∀ record, layout.Fits record → ∀ front back : List β,
    read (front ++ (layout.encodeRecord record ++ back)) front.length =
      value record

theorem recordAt_reads : layout.Reads layout.recordAt id :=
  fun _ fits front back => layout.recordAt_encodeRecord fits front back

section Headers

variable {γ : Type w} {read : List β → Nat → γ} {value : Record κ β → γ}
  {records : List (Record κ β)}

/-- The headers behind the records that have been passed. -/
theorem headersFrom_encode (reads : layout.Reads read value)
    (fits : ∀ record ∈ records, layout.Fits record) (front : List β)
    {fuel : Nat} (enough : records.length < fuel) :
    (layout.headersFrom (front ++ layout.encode records)
        (front.length + (layout.encode records).length) fuel
        (if records = [] then none else some front.length)).map
          (read (front ++ layout.encode records)) = records.map value := by
  induction records generalizing front fuel with
  | nil =>
      obtain ⟨fuel, rfl⟩ := Nat.exists_eq_add_of_lt enough
      rfl
  | cons record records induction =>
      obtain ⟨fuel, rfl⟩ : ∃ less, fuel = less + 1 :=
        ⟨fuel - 1, by omega⟩
      have smaller : records.length < fuel := by
        rw [List.length_cons] at enough
        omega
      have first := fits record List.mem_cons_self
      have later := induction
        (fun other member => fits other (List.mem_cons_of_mem _ member))
        (front ++ layout.encodeRecord record) smaller
      have length : (layout.encode (record :: records)).length =
          layout.space record.data.length +
            (layout.encode records).length := by
        rw [encode_cons, List.length_append, length_encodeRecord]
      rw [if_neg (List.cons_ne_nil _ _), headersFrom, length, encode_cons,
        List.map_cons, reads record first, layout.next_encodeRecord first,
        List.map_cons]
      rw [List.length_append, length_encodeRecord, List.append_assoc,
        Nat.add_assoc] at later
      by_cases last : records = []
      · subst last
        have room : front.length +
            (layout.space record.data.length +
              (layout.encode ([] : List (Record κ β))).length) <
            front.length + layout.space record.data.length +
              layout.headerSize := by
          have positive := layout.headerSize_pos
          have empty : (layout.encode ([] : List (Record κ β))).length = 0 :=
            rfl
          omega
        rw [if_pos room]
        rw [if_pos rfl] at later
        rw [later]
      · have more := layout.headerSize_le_length_encode last
        rw [if_neg (by omega)]
        rw [if_neg last] at later
        rw [later]

/-- A reader finds the header of every encoded record, in order. -/
theorem headers_encode (reads : layout.Reads read value)
    (fits : ∀ record ∈ records, layout.Fits record) :
    (layout.headers (layout.encode records)).map
        (read (layout.encode records)) = records.map value := by
  have start : layout.first (layout.encode records).length =
      if records = [] then none else some ([] : List β).length := by
    by_cases empty : records = []
    · subst empty
      have positive := layout.headerSize_pos
      rw [if_pos rfl]
      exact if_neg (Nat.not_le.mpr positive)
    · rw [if_neg empty]
      exact if_pos (layout.headerSize_le_length_encode empty)
  have counted := layout.length_le_length_encode records
  have walked := layout.headersFrom_encode reads fits []
    (Nat.lt_succ_of_le counted)
  rw [List.length_nil, Nat.zero_add, List.nil_append] at walked
  rw [headers, start]
  exact walked

/-- Walking over encoded records finds them again. -/
theorem walk_encode (fits : ∀ record ∈ records, layout.Fits record) :
    layout.walk (layout.encode records) = records := by
  rw [walk, layout.headers_encode layout.recordAt_reads fits, List.map_id]

end Headers

end Layout

end RecordChain
