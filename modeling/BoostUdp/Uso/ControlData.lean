import Mathlib.Data.BitVec
import BoostUdp.RecordChain
import BoostUdp.Uso.Address

/-!
# Control data

`try_wsasendmsg_uso` fills a fixed buffer with at most two control messages,
the source address and the size of the segments, and hands over the part in
use.  `uro_recv_msg` walks over the control data that it is given.
-/

namespace BoostUdp

open LittleEndian RecordChain

/-- The level and the type of a control message. -/
structure CmsgKind where
  level : Word
  type : Word
  deriving DecidableEq, Repr

def IPPROTO_IP : Word := 0
def IPPROTO_UDP : Word := 17
def IPPROTO_IPV6 : Word := 41
def IP_PKTINFO : Word := 19
def IPV6_PKTINFO : Word := 19
def UDP_SEND_MSG_SIZE : Word := 2
def UDP_COALESCED_INFO : Word := 3

abbrev Cmsg := Record CmsgKind Byte

/-- The layout of `WSACMSGHDR`, as the `WSA_CMSG` macros have it.  The largest
message of the client is an `IN6_PKTINFO`. -/
structure CmsgLayout extends Layout CmsgKind Byte where
  roomy : headerSize + 20 < limit

/-- The layout of a 64-bit system: a length of eight bytes, level and type. -/
def cmsgLayout64 : CmsgLayout where
  headerSize := 16
  alignment := 8
  limit := 2 ^ 64
  encodeHeader length kind :=
    wordBytes (BitVec.ofNat 32 length) ++
      wordBytes (BitVec.ofNat 32 (length / 2 ^ 32)) ++
      wordBytes kind.level ++ wordBytes kind.type
  decodeHeader data :=
    ((wordAt data 0).toNat + 2 ^ 32 * (wordAt data 4).toNat,
      ⟨wordAt data 8, wordAt data 12⟩)
  headerSize_pos := by decide
  alignment_pos := by decide
  aligned := by decide
  length_encodeHeader := by
    intro length kind
    rfl
  decode_encode := by
    intro length kind rest small
    have word : ∀ (front : List Byte) (value : Word) (back : List Byte),
        wordAt (front ++ (wordBytes value ++ back)) front.length = value := by
      intro front value back
      rw [wordAt_append_right _ (Nat.le_refl _), Nat.sub_self]
      exact wordAt_wordBytes_append value back
    simp only [List.append_assoc]
    have low := word [] (BitVec.ofNat 32 length)
      (wordBytes (BitVec.ofNat 32 (length / 2 ^ 32)) ++
        (wordBytes kind.level ++ (wordBytes kind.type ++ rest)))
    have high := word (wordBytes (BitVec.ofNat 32 length))
      (BitVec.ofNat 32 (length / 2 ^ 32))
      (wordBytes kind.level ++ (wordBytes kind.type ++ rest))
    have level := word (wordBytes (BitVec.ofNat 32 length) ++
      wordBytes (BitVec.ofNat 32 (length / 2 ^ 32))) kind.level
      (wordBytes kind.type ++ rest)
    have type := word (wordBytes (BitVec.ofNat 32 length) ++
      (wordBytes (BitVec.ofNat 32 (length / 2 ^ 32)) ++
        wordBytes kind.level)) kind.type rest
    simp only [List.append_assoc] at level type
    change wordAt _ 0 = _ at low
    change wordAt _ 4 = _ at high
    change wordAt _ 8 = _ at level
    change wordAt _ 12 = _ at type
    rw [List.nil_append] at low
    rw [low, high, level, type, BitVec.toNat_ofNat, BitVec.toNat_ofNat]
    have upper : length / 2 ^ 32 < 2 ^ 32 := by omega
    rw [Nat.mod_eq_of_lt upper, Nat.mod_add_div]
  roomy := by decide

/-- `IP_PKTINFO` or `IPV6_PKTINFO`; the latter does without the index. -/
def pktinfoMessage (source : Address) (interfaceIndex : Word) : Cmsg :=
  match source with
  | .v4 address =>
      { kind := ⟨IPPROTO_IP, IP_PKTINFO⟩
        data := address.toBytes ++ wordBytes interfaceIndex }
  | .v6 address =>
      { kind := ⟨IPPROTO_IPV6, IPV6_PKTINFO⟩
        data := address.toBytes ++ wordBytes 0 }

def sendMsgSizeMessage (mss : Word) : Cmsg :=
  { kind := ⟨IPPROTO_UDP, UDP_SEND_MSG_SIZE⟩, data := wordBytes mss }

theorem length_pktinfoMessage (source : Address) (interfaceIndex : Word) :
    (pktinfoMessage source interfaceIndex).data.length =
      match source with
      | .v4 _ => 8
      | .v6 _ => 20 := by
  cases source with
  | v4 address => rfl
  | v6 address => rfl

namespace CmsgLayout

variable (layout : CmsgLayout)

theorem pktinfoMessage_fits (source : Address) (interfaceIndex : Word) :
    layout.Fits (pktinfoMessage source interfaceIndex) := by
  have roomy := layout.roomy
  rw [Layout.Fits, Layout.recordLength, length_pktinfoMessage]
  cases source with
  | v4 address =>
      dsimp only
      omega
  | v6 address => exact roomy

theorem sendMsgSizeMessage_fits (mss : Word) :
    layout.Fits (sendMsgSizeMessage mss) := by
  have roomy := layout.roomy
  have size : (sendMsgSizeMessage mss).data.length = 4 := rfl
  rw [Layout.Fits, Layout.recordLength, size]
  omega

/-- `sizeof(cmbuf)`. -/
def controlSize : Nat :=
  layout.space 4 + max (layout.space 20) (layout.space 8)

end CmsgLayout

/-- `cmbuf`, the length of what is in use, and the header to be filled in. -/
structure ControlBuffer where
  cmbuf : List Byte
  cmbuflen : Nat := 0
  cm : Nat
  deriving DecidableEq, Repr

namespace ControlBuffer

variable (layout : CmsgLayout)

/-- The blank buffer, with the header that `WSA_CMSG_FIRSTHDR` finds. -/
def start : Option ControlBuffer :=
  let cmbuf := List.replicate layout.controlSize 0
  match layout.first cmbuf.length with
  | none => none
  | some cm => some { cmbuf := cmbuf, cm := cm }

/-- Fill in the header and the data of a message. -/
def put (control : ControlBuffer) (message : Cmsg) : ControlBuffer :=
  { control with
    cmbuf := layout.put control.cmbuf control.cm message
    cmbuflen := control.cmbuflen + layout.space message.data.length }

/-- `WSA_CMSG_NXTHDR`. -/
def next (control : ControlBuffer) : Option ControlBuffer :=
  match layout.next control.cmbuf control.cmbuf.length control.cm with
  | none => none
  | some cm => some { control with cm := cm }

/-- What is handed over. -/
def used (control : ControlBuffer) : List Byte :=
  control.cmbuf.take control.cmbuflen

/-- The messages so far, and the header behind them. -/
structure Holds (control : ControlBuffer) (messages : List Cmsg) : Prop where
  filled : ∃ blank, control.cmbuf =
    layout.encode messages ++ List.replicate blank 0
  size : control.cmbuf.length = layout.controlSize
  cmbuflen : control.cmbuflen = (layout.encode messages).length
  cm : control.cm = (layout.encode messages).length

variable {layout}

theorem start_holds :
    ∃ control, start layout = some control ∧ Holds layout control [] := by
  have room : layout.headerSize ≤
      (List.replicate layout.controlSize (0 : Byte)).length := by
    rw [List.length_replicate, CmsgLayout.controlSize, Layout.space]
    omega
  refine
    ⟨{ cmbuf := List.replicate layout.controlSize 0, cm := 0 }, ?_, ?_⟩
  · simp only [start, Layout.first, if_pos room]
  · exact
      { filled := ⟨layout.controlSize, rfl⟩
        size := List.length_replicate
        cmbuflen := rfl
        cm := rfl }

/-- A message goes behind the ones before it, and there is room for it. -/
theorem Holds.put {control : ControlBuffer} {messages : List Cmsg}
    (holds : Holds layout control messages) (message : Cmsg)
    (room : (layout.encode (messages ++ [message])).length ≤
      layout.controlSize) :
    (∃ blank, (control.put layout message).cmbuf =
        layout.encode (messages ++ [message]) ++ List.replicate blank 0) ∧
      (control.put layout message).cmbuf.length = layout.controlSize ∧
      (control.put layout message).cmbuflen =
        (layout.encode (messages ++ [message])).length := by
  obtain ⟨blank, filled⟩ := holds.filled
  have grown := layout.length_encode_concat messages message
  have whole := holds.size
  rw [filled, List.length_append, List.length_replicate] at whole
  have written : (control.put layout message).cmbuf =
      layout.encode (messages ++ [message]) ++
        List.replicate (blank - layout.space message.data.length) 0 := by
    rw [ControlBuffer.put, filled, holds.cm,
      layout.put_encodeRecord message _ (by omega), layout.encode_concat,
      List.append_assoc]
  refine ⟨⟨_, written⟩, ?_, ?_⟩
  · rw [written, List.length_append, List.length_replicate]
    omega
  · rw [ControlBuffer.put, holds.cmbuflen, grown]

theorem Holds.put_used {control : ControlBuffer} {messages : List Cmsg}
    (holds : Holds layout control messages) (message : Cmsg)
    (room : (layout.encode (messages ++ [message])).length ≤
      layout.controlSize) :
    (control.put layout message).used =
      layout.encode (messages ++ [message]) := by
  obtain ⟨⟨blank, filled⟩, _, cmbuflen⟩ := holds.put message room
  rw [ControlBuffer.used, filled, cmbuflen, List.take_left]

/-- A pointer to the next header is found while there is room for one more
message behind. -/
theorem Holds.next {control : ControlBuffer} {messages : List Cmsg}
    (holds : Holds layout control messages) {message : Cmsg}
    (fits : layout.Fits message)
    (room : (layout.encode (messages ++ [message])).length +
      layout.headerSize ≤ layout.controlSize) :
    ∃ control', (control.put layout message).next layout = some control' ∧
      Holds layout control' (messages ++ [message]) := by
  obtain ⟨filled, size, cmbuflen⟩ := holds.put message (by omega)
  obtain ⟨blank, written⟩ := filled
  have grown := layout.length_encode_concat messages message
  have found : layout.next (control.put layout message).cmbuf
      (control.put layout message).cmbuf.length
      (control.put layout message).cm =
        some (layout.encode (messages ++ [message])).length := by
    have position : (control.put layout message).cm =
        (layout.encode messages).length := holds.cm
    rw [size, position, written, layout.encode_concat, List.append_assoc,
      layout.next_encodeRecord fits, if_neg, ← layout.encode_concat, grown]
    omega
  refine
    ⟨{ control.put layout message with
        cm := (layout.encode (messages ++ [message])).length }, ?_, ?_⟩
  · rw [ControlBuffer.next, found]
  · exact
      { filled := ⟨blank, written⟩
        size := size
        cmbuflen := cmbuflen
        cm := rfl }

end ControlBuffer

namespace CmsgLayout

variable (layout : CmsgLayout)

/-- What the loop of `uro_recv_msg` makes of one header: the size of the
segments, or nothing. -/
def coalescedSize (control : List Byte) (cm : Nat) : Option Word :=
  let (cmsgLen, kind) := layout.decodeHeader (control.drop cm)
  if kind.level = IPPROTO_UDP ∧ kind.type = UDP_COALESCED_INFO ∧
      layout.recordLength 4 ≤ cmsgLen then
    some (wordAt control (cm + layout.headerSize))
  else
    none

/-- The loop over the headers, up to the first that says something. -/
def coalescedInfo (control : List Byte) : Option Word :=
  (layout.headers control).findSome? (layout.coalescedSize control)

end CmsgLayout

end BoostUdp
