import BoostUdp.Packet

/-!
# The sender

`send_batch_fallback` cuts a batch into datagrams.  The socket is the function
that says how many bytes of a datagram were sent.
-/

namespace BoostUdp

open LittleEndian

/-- The loop over the segments, from `offset` on. -/
def sendSegments (sendTo : List Byte → Nat) (data : List Byte) (mss : Nat) :
    Nat → Nat → Except String (List (List Byte))
  | 0, _ => .error "out of fuel"
  | fuel + 1, offset =>
      if offset < data.length then
        let chunk := min mss (data.length - offset)
        let segment := (data.drop offset).take chunk
        if sendTo segment ≠ chunk then
          .error "short send"
        else
          match sendSegments sendTo data mss fuel (offset + chunk) with
          | .error error => .error error
          | .ok segments => .ok (segment :: segments)
      else
        .ok []

def sendBatchFallback (sendTo : List Byte → Nat) (data : List Byte)
    (mss : Nat) : Except String (List (List Byte)) :=
  if mss = 0 then
    if sendTo data ≠ data.length then .error "short send"
    else .ok [data]
  else
    sendSegments sendTo data mss (data.length + 1) 0

theorem sendSegments_complete {data : List Byte} {mss fuel offset : Nat}
    (progress : 0 < mss) (enough : data.length - offset < fuel) :
    ∃ segments, sendSegments List.length data mss fuel offset =
        .ok segments ∧
      segments.flatten = data.drop offset := by
  induction fuel generalizing offset with
  | zero => omega
  | succ fuel induction =>
      rw [sendSegments]
      by_cases more : offset < data.length
      · rw [if_pos more]
        let chunk := min mss (data.length - offset)
        have advance : data.length - (offset + chunk) < fuel := by omega
        have size : ((data.drop offset).take chunk).length = chunk := by
          rw [List.length_take, List.length_drop]
          omega
        obtain ⟨segments, sent, flat⟩ := induction advance
        refine ⟨(data.drop offset).take chunk :: segments, ?_, ?_⟩
        · simp only [chunk] at sent size
          simp only [size, ne_eq, not_true_eq_false, if_false, sent]
          rfl
        · rw [List.flatten_cons, flat, ← List.drop_drop,
            List.take_append_drop]
      · exact ⟨[], if_neg more,
          (List.drop_of_length_le (Nat.not_lt.mp more)).symm⟩

/-- When nothing is cut short the datagrams carry the batch, in order. -/
theorem sendBatchFallback_complete (data : List Byte) (mss : Nat) :
    ∃ segments, sendBatchFallback List.length data mss = .ok segments ∧
      segments.flatten = data := by
  unfold sendBatchFallback
  by_cases whole : mss = 0
  · rw [if_pos whole]
    exact ⟨[data], by simp, by simp⟩
  · rw [if_neg whole]
    have enough : data.length - 0 < data.length + 1 := Nat.lt_succ_self _
    exact sendSegments_complete (Nat.pos_of_ne_zero whole) enough

end BoostUdp
