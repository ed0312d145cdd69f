import Netlink.Proofs.Records

/-!
# Cutting a Datagram

A datagram may be cut anywhere: between two records, in the padding after one, in a header or in a
payload. Each of these ends the walk in its own way, with octets left or without, but they come to
the same for the messages. Decoding looks at the octets of one message and at no others, so it
succeeds on the front of some octets exactly if it succeeds on all of them and the message ends
within the front. What starts behind a record that does not fit does not fit either.

## Main results

* `Message.decode_eq_ok_iff`: what is decoded is a well-formed message in front.
* `Datagram.found_take`: what is decoded of a cut datagram, again and again.
* `Datagram.records_take`: **cutting a datagram loses only the records that do not fit.**
-/

namespace Netlink

namespace Message

variable {bs : Bytes} {m : Message}

/-- A message is decoded exactly if it is well-formed and its octets stand in front, whatever
follows them. -/
theorem decode_eq_ok_iff : decode bs = .ok m ↔ m.WellFormed ∧ m.octets <+: bs := by
  constructor
  · intro h
    have hm : m.StandsAt bs 0 := standsAt_of_decode h
    refine ⟨hm.decode_eq, ?_⟩
    rw [hm.octets_eq]
    exact List.take_prefix _ _
  · rintro ⟨hm, tail, rfl⟩
    obtain ⟨⟨payload, hoctets⟩, hlength⟩ := wellFormed_iff.1 hm
    have hsize : Header.size ≤ m.octets.length := by simp [hoctets]
    have hread : Header.read? (m.octets ++ tail) = some (m.header, payload ++ tail) := by
      rw [Header.read?_eq_some_iff, hoctets, List.append_assoc]
    have hgood : ¬(m.header.length.toNat < Header.size ∨
        (m.octets ++ tail).length < m.header.length.toNat) := by
      rw [List.length_append]
      omega
    rw [decode, Header.decode, hread]
    refine (if_neg hgood).trans ?_
    rw [← hlength, List.take_left]

/-- A message is decoded from the first octets exactly if it is from all and ends among them. -/
theorem decode_take_eq_ok_iff {n : Nat} :
    decode (bs.take n) = .ok m ↔ decode bs = .ok m ∧ m.size ≤ n := by
  rw [decode_eq_ok_iff, decode_eq_ok_iff, List.prefix_take_iff, and_assoc, size]

end Message

namespace Datagram

variable {bs : Bytes} {offset : Nat}

/-- Nothing is found before the offset from which it is looked for. -/
theorem le_of_mem_found {r : Nat × Message} (h : r ∈ (decodings bs offset).found) :
    offset ≤ r.1 := by
  rw [found_eq_placed] at h
  exact le_of_mem_placed h

/-- What is found in the first octets is what is found in all and ends among them. -/
theorem found_take (n : Nat) (bs : Bytes) (offset : Nat) :
    (decodings (bs.take n) offset).found
      = (decodings bs offset).found.filter fun r => r.1 + r.2.size ≤ n := by
  -- The induction follows what is decoded of all octets, which goes on at least as long.
  fun_induction decodings bs offset with
  | case1 offset fault herror =>
      cases hcut : Message.decode ((bs.take n).drop offset) with
      | error fault' =>
          rw [decodings_of_error hcut]
          rfl
      | ok m =>
          rw [List.drop_take, Message.decode_take_eq_ok_iff, herror] at hcut
          cases hcut.1
  | case2 offset m hok later ih =>
      by_cases hfits : offset + m.size ≤ n
      · have hcut : Message.decode ((bs.take n).drop offset) = .ok m := by
          rw [List.drop_take, Message.decode_take_eq_ok_iff]
          exact ⟨hok, by omega⟩
        rw [found_of_ok hcut, ih, List.filter_cons_of_pos (by simpa using hfits)]
      · have hlater : ∀ r ∈ later.found, ¬r.1 + r.2.size ≤ n := by
          intro r hr
          have hle := le_of_mem_found hr
          have hal := le_aligned m.size
          omega
        rw [List.filter_cons_of_neg (by simpa using hfits),
          List.filter_eq_nil_iff.2 (by simpa using hlater)]
        cases hcut : Message.decode ((bs.take n).drop offset) with
        | error fault =>
            rw [decodings_of_error hcut]
        | ok m' =>
            rw [List.drop_take, Message.decode_take_eq_ok_iff, hok] at hcut
            obtain ⟨hm', hsize⟩ := hcut
            obtain rfl := Except.ok.inj hm'
            have hpos : Header.size ≤ m.size := by
              have hm := Message.standsAt_of_decode hok
              rw [hm.size_eq]
              exact hm.size_le
            rw [Header.size] at hpos
            omega

/-- If the last record ends among the first octets, then all records do. -/
theorem stop_le_of_getLast? {datagram : Bytes} {n : Nat}
    (h : ∀ r, (records datagram).getLast? = some r → r.1 + r.2.size ≤ n) :
    ∀ r ∈ records datagram, r.1 + r.2.size ≤ n := by
  intro r hr
  have hpairwise := pairwise_records datagram
  rcases (records datagram).eq_nil_or_concat' with hnil | ⟨front, last, hconcat⟩
  · rw [hnil] at hr
    cases hr
  · have hlast := h last (by rw [hconcat, List.getLast?_concat])
    rw [hconcat] at hr hpairwise
    rcases List.mem_append.1 hr with hr | hr
    · have hbefore := (List.pairwise_append.1 hpairwise).2.2 r hr last (List.mem_singleton_self _)
      omega
    · obtain rfl := List.mem_singleton.1 hr
      exact hlast

/-- **Cutting a datagram loses only the records that do not fit.** The records of the first `n`
octets are those of the datagram, in order, that end among these octets, each at its offset and with
the octets that stand there. So their messages come first in the datagram, and none is lost if the
last record ends among the first `n` octets. -/
theorem records_take (datagram : Bytes) (n : Nat) :
    records (datagram.take n) = (records datagram).filter (fun r => r.1 + r.2.size ≤ n) ∧
      messages (datagram.take n)
        = ((records datagram).filter fun r => r.1 + r.2.size ≤ n).map (·.2) ∧
      messages (datagram.take n) <+: messages datagram ∧
      (∀ r ∈ records datagram, r.2.StandsAt datagram r.1) ∧
      ((∀ r, (records datagram).getLast? = some r → r.1 + r.2.size ≤ n) →
        messages (datagram.take n) = messages datagram) := by
  have hrecords : records (datagram.take n)
      = (records datagram).filter (fun r => r.1 + r.2.size ≤ n) := by
    rw [records_eq_found, records_eq_found, found_take]
  have hmessages := congrArg (List.map Prod.snd) hrecords
  rw [map_snd_records] at hmessages
  refine ⟨hrecords, hmessages, ?_, fun r hr => standsAt_of_mem_records hr, fun hlast => ?_⟩
  · exact (Framing.entries_isPrefix (List.take_prefix n datagram)).map _
  · have hall : ∀ r ∈ records datagram, decide (r.1 + r.2.size ≤ n) = true :=
      fun r hr => decide_eq_true (stop_le_of_getLast? hlast r hr)
    rw [hmessages, List.filter_eq_self.2 hall, map_snd_records]

end Datagram

end Netlink
