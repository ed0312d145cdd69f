import Netlink.Proofs.Records

/-!
# Unpacking and Packing Again

To unpack a datagram and pack its messages again is to bring it to a normal form. The packer writes
each record where the walk found it: both go on to the next boundary after a record, whatever its
length. What lay between the records is written as zeros, and what the walk did not reach is
dropped. So the normal form is never longer, it is unpacked to the same messages, and it is its own
normal form.

## Main results

* `Packer.placed_zero_concat`: a packer appends a message behind the padded octets that it has.
* `Packer.getElem?_pack_of_gap`: what a packer writes between records is zero.
* `Datagram.records_pack`: packed messages are found where the packer placed them.
* `Datagram.pack_messages_normalises`: **unpacking and packing again normalises a datagram**, and
  changes nothing else.
-/

namespace Netlink

/-- An offset belongs to one of some records. -/
def Datagram.Occupied (records : List (Nat × Message)) (i : Nat) : Prop :=
  ∃ r ∈ records, r.1 ≤ i ∧ i < r.1 + r.2.size

/-! ### Where a packer places messages -/

namespace Packer

open Datagram (placed placed_concat Occupied)

/-- A packer places a message behind the padded octets of those before it. -/
theorem placed_zero_concat (ms : List Message) (m : Message) :
    placed 0 (ms ++ [m]) = placed 0 ms ++ [((padded (pack ms)).length, m)] := by
  rw [placed_concat, ← padded_pack, Nat.zero_add]

/-- What a packer writes between records is zero. -/
theorem getElem?_pack_of_gap {ms : List Message} {i : Nat} (hi : i < (pack ms).length)
    (hgap : ¬Occupied (placed 0 ms) i) : (pack ms)[i]? = some 0 := by
  induction ms using List.reverseRecOn with
  | nil => cases hi
  | append_singleton ms m ih =>
      rw [placed_zero_concat] at hgap
      rw [pack_append_singleton] at hi ⊢
      by_cases hlast : (padded (pack ms)).length ≤ i
      · -- behind the padding stands the last message
        refine absurd ⟨_, List.mem_append_right _ (List.mem_singleton_self _), hlast, ?_⟩ hgap
        rwa [List.length_append] at hi
      · rw [List.getElem?_append_left (by omega), padded]
        by_cases hpad : (pack ms).length ≤ i
        · rw [length_padded] at hlast
          rw [List.getElem?_append_right hpad, List.getElem?_replicate, if_pos (by omega)]
        · have hbefore : ¬Occupied (placed 0 ms) i := by
            rintro ⟨r, hr, hi⟩
            exact hgap ⟨r, List.mem_append_left _ hr, hi⟩
          rw [List.getElem?_append_left (by omega), ih (by omega) hbefore]

end Packer

namespace Datagram

/-! ### The normal form -/

/-- Packed messages are found where the packer placed them. -/
theorem records_pack {ms : List Message} (h : ∀ m ∈ ms, m.WellFormed) :
    records (Packer.pack ms) = placed 0 ms := by
  rw [records_eq_placed, messages_pack h]

/-- Messages that are unpacked are well-formed. -/
theorem wellFormed_of_mem_messages {datagram : Bytes} {m : Message} (h : m ∈ messages datagram) :
    m.WellFormed := by
  rw [← map_snd_records, List.mem_map] at h
  obtain ⟨r, hr, rfl⟩ := h
  exact (standsAt_of_mem_records hr).decode_eq

/-- The normal form ends with the last record, which ends within the datagram. -/
theorem length_pack_messages_le (datagram : Bytes) :
    (Packer.pack (messages datagram)).length ≤ datagram.length := by
  rcases (messages datagram).eq_nil_or_concat' with hnil | ⟨ms, m, hconcat⟩
  · rw [hnil]
    exact Nat.zero_le _
  · have hlast : ((padded (Packer.pack ms)).length, m) ∈ records datagram := by
      rw [records_eq_placed, hconcat, Packer.placed_zero_concat]
      exact List.mem_append_right _ (List.mem_singleton_self _)
    have hm := standsAt_of_mem_records hlast
    have hinside := hm.inside
    rw [← hm.size_eq] at hinside
    rw [hconcat, Packer.pack_append_singleton, List.length_append]
    exact hinside

/-- **Unpacking and packing again normalises a datagram.** The packer gets no more octets than
the datagram had. At every offset that belongs to a record it has the octet that stands there, and
zero at all others. Each record is found at its offset again, with the same message, so packing
once more changes nothing. -/
theorem pack_messages_normalises (datagram : Bytes) :
    let normal := Packer.pack (messages datagram)
    normal.length ≤ datagram.length ∧
      (∀ i, Occupied (records datagram) i → i < normal.length ∧ normal[i]? = datagram[i]?) ∧
      (∀ i < normal.length, ¬Occupied (records datagram) i → normal[i]? = some 0) ∧
      records normal = records datagram ∧
      messages normal = messages datagram ∧
      Packer.pack (messages normal) = normal := by
  intro normal
  have hwellFormed : ∀ m ∈ messages datagram, m.WellFormed :=
    fun m hm => wellFormed_of_mem_messages hm
  have hmessages : messages normal = messages datagram := messages_pack hwellFormed
  have hrecords : records normal = records datagram :=
    (records_pack hwellFormed).trans (records_eq_placed datagram).symm
  refine ⟨length_pack_messages_le datagram, ?_, ?_, hrecords, hmessages, ?_⟩
  · rintro i ⟨r, hr, hle, hlt⟩
    -- the same record stands at the same offset of both
    have hthere := standsAt_of_mem_records hr
    have hhere := standsAt_of_mem_records (hrecords ▸ hr)
    have hinside := hhere.inside
    rw [← hhere.size_eq] at hinside
    refine ⟨by omega, ?_⟩
    rw [hhere.getElem? hle hlt, hthere.getElem? hle hlt]
  · intro i hi hgap
    rw [records_eq_placed] at hgap
    exact Packer.getElem?_pack_of_gap hi hgap
  · rw [hmessages]

/-- Of a record of seventeen octets with stray padding, a record of sixteen, and two stray octets,
the padding is written as zeros and the stray octets are dropped. -/
example :
    let first := Header.encode ⟨17, .noop, ∅, 1, 0⟩ ++ [7]
    let second := Header.encode ⟨16, .done, ∅, 1, 0⟩
    let datagram := first ++ [9, 9, 9] ++ second ++ [9, 9]
    Packer.pack (messages datagram) = first ++ [0, 0, 0] ++ second := by
  decide +kernel

end Datagram

end Netlink
