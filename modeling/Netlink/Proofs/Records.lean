import Mathlib.Data.List.Pairwise
import Netlink.Proofs.Decodings

/-!
# The Records of a Datagram

A walk hands out messages and keeps to itself where in the datagram it found them. Here every
message comes with that offset: where the window stands before the call that splits the message
off. These are the offsets at which decoding again and again succeeds, so the octets of a record
stand there.

Where a record starts is decided by the sizes of the messages before it: the first starts at zero,
and each of the others on the boundary after the one before. This is also how a packer lays
messages out (`placed`).

## Main results

* `Datagram.records_eq_found`: the walk finds its messages at the offsets of decoding.
* `Datagram.standsAt_of_mem_records`: the octets of a record stand at its offset.
* `Datagram.records_eq_placed`: **the sizes of the messages decide where each record starts.**
* `Datagram.pairwise_records`: a record ends before the next one starts.
-/

namespace Netlink

/-- What stands at an offset of a record is an octet of its message. -/
theorem Message.StandsAt.getElem? {m : Message} {bs : Bytes} {offset i : Nat}
    (h : m.StandsAt bs offset) (hle : offset ≤ i) (hlt : i < offset + m.size) :
    bs[i]? = m.octets[i - offset]? := by
  rw [h.size_eq] at hlt
  rw [h.octets_eq, List.getElem?_take_of_lt (by omega), List.getElem?_drop,
    Nat.add_sub_cancel' hle]

namespace Datagram

/-- The messages of a datagram, each with the offset at which it is split off. -/
def records (datagram : Bytes) : List (Nat × Message) :=
  (messages datagram).mapIdx fun n m => ((after n (.whole datagram)).position, m)

/-- Without their offsets, the records are the messages. -/
@[simp] theorem map_snd_records (datagram : Bytes) :
    (records datagram).map (·.2) = messages datagram := by
  refine List.ext_getElem? fun n => ?_
  rw [List.getElem?_map, records, List.getElem?_mapIdx, Option.map_map]
  exact Option.map_id_apply

variable {bs : Bytes} {offset : Nat}

/-! ### Offsets -/

/-- Where decoding fails it stops, and finds nothing. -/
theorem decodings_of_error {fault : Fault} (h : Message.decode (bs.drop offset) = .error fault) :
    decodings bs offset = ⟨[], offset⟩ := by
  rw [decodings]
  split
  · rfl
  · simp_all

/-- Where it succeeds, a message is found, and decoding goes on at the boundary after it. -/
theorem found_of_ok {m : Message} (h : Message.decode (bs.drop offset) = .ok m) :
    (decodings bs offset).found
      = (offset, m) :: (decodings bs (offset + aligned m.size)).found := by
  rw [decodings]
  split
  · simp_all
  · next m₁ hok =>
      obtain rfl : m = m₁ := Except.ok.inj (h.symm.trans hok)
      rfl

/-- Before the call that gives a message, the window stands where the message is decoded. -/
theorem position_after {n : Nat} {r : Nat × Message}
    (h : (decodings bs offset).found[n]? = some r) :
    (framing.after n (.between bs offset bs.length)).position = r.1 := by
  induction n generalizing offset with
  | zero =>
      cases hdecode : Message.decode (bs.drop offset) with
      | error fault => simp [decodings_of_error hdecode] at h
      | ok m =>
          rw [found_of_ok hdecode] at h
          obtain rfl := Option.some.inj h
          have hinside := (Message.standsAt_of_decode hdecode).inside
          exact Nat.min_eq_left (by omega)
  | succ n ih =>
      cases hdecode : Message.decode (bs.drop offset) with
      | error fault => simp [decodings_of_error hdecode] at h
      | ok m =>
          rw [found_of_ok hdecode] at h
          rw [Framing.after_succ, next?_of_decode_ok hdecode]
          exact ih h

/-- A walk finds its messages where they are decoded. -/
theorem records_eq_found (datagram : Bytes) : records datagram = (decodings datagram 0).found := by
  refine List.ext_getElem? fun n => ?_
  rw [records, List.getElem?_mapIdx, messages_eq_decodings, List.getElem?_map, after_eq,
    Window.whole_eq_between]
  cases h : (decodings datagram 0).found[n]? with
  | none => rfl
  | some r => exact congrArg some (Prod.ext (position_after h) rfl)

/-- Each message stands in the datagram at its offset. -/
theorem standsAt_of_mem_records {datagram : Bytes} {r : Nat × Message}
    (h : r ∈ records datagram) : r.2.StandsAt datagram r.1 := by
  rw [records_eq_found] at h
  exact standsAt_of_mem_found h

/-! ### Sizes decide offsets -/

/-- Messages laid out from an offset on, each with where it starts: on the boundary after the one
before it. -/
def placed : Nat → List Message → List (Nat × Message)
  | _, [] => []
  | offset, m :: ms => (offset, m) :: placed (offset + aligned m.size) ms

/-- Messages that are found by decoding stand where laying them out places them. -/
theorem found_eq_placed (bs : Bytes) (offset : Nat) :
    (decodings bs offset).found = placed offset ((decodings bs offset).found.map (·.2)) := by
  fun_induction decodings bs offset with
  | case1 offset fault herror => rfl
  | case2 offset m hok later ih =>
      rw [List.map_cons, placed, ← ih]

/-- **The sizes of the messages decide where each record starts.** -/
theorem records_eq_placed (datagram : Bytes) : records datagram = placed 0 (messages datagram) := by
  rw [records_eq_found, messages_eq_decodings]
  exact found_eq_placed datagram 0

/-- No message is laid out before the offset to begin at. -/
theorem le_of_mem_placed {ms : List Message} {r : Nat × Message} (h : r ∈ placed offset ms) :
    offset ≤ r.1 := by
  induction ms generalizing offset with
  | nil => cases h
  | cons m ms ih =>
      rcases List.mem_cons.1 h with rfl | h
      · exact Nat.le_refl _
      · exact Nat.le_trans (Nat.le_add_right _ _) (ih h)

/-- One message more is placed on the boundary after the others. -/
theorem placed_concat (offset : Nat) (ms : List Message) (m : Message) :
    placed offset (ms ++ [m])
      = placed offset ms ++ [(offset + (ms.flatMap fun m => padded m.octets).length, m)] := by
  induction ms generalizing offset with
  | nil => rfl
  | cons m₁ ms ih =>
      rw [List.cons_append, placed, ih, placed, List.flatMap_cons, List.length_append,
        length_padded, ← Message.size, Nat.add_assoc]
      rfl

/-- Messages that are laid out do not overlap, and come in order. -/
theorem pairwise_placed (offset : Nat) (ms : List Message) :
    (placed offset ms).Pairwise fun r r' => r.1 + r.2.size ≤ r'.1 := by
  induction ms generalizing offset with
  | nil => exact .nil
  | cons m ms ih =>
      refine List.pairwise_cons.2 ⟨fun r hr => ?_, ih _⟩
      exact Nat.le_trans (Nat.add_le_add_left (le_aligned m.size) offset) (le_of_mem_placed hr)

/-- A record ends, at the latest, where the next one starts. -/
theorem pairwise_records (datagram : Bytes) :
    (records datagram).Pairwise fun r r' => r.1 + r.2.size ≤ r'.1 := by
  rw [records_eq_placed]
  exact pairwise_placed 0 _

end Datagram

end Netlink
