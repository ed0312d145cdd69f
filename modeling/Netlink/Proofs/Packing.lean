import Mathlib.Data.List.Basic
import Mathlib.Data.List.Induction
import Netlink.Datagram.Basic
import Netlink.Datagram.Packer
import Netlink.Message.Draft
import Netlink.Proofs.Chain

/-!
# Packing and Unpacking

A packer pads before a message and not after it; so the datagram that it fills is a chain
with the last message unpadded, whatever lengths the messages have. Unpacking reads that
chain. What is needed of a message is only that its header is the one in its octets and
tells how many there are: `Message.WellFormed`.

## Main results

* `Message.decode_cases`: what comes of decoding any octets.
* `Message.wellFormed_iff`: what it is to be well-formed, in octets.
* `Draft.wellFormed_finish`: a draft whose length did not overflow makes a well-formed
  message.
* `Packer.pack_concat`: the datagram of a packer is a chain.
* `Datagram.messages_pack`: **unpacking what was packed gives the messages back.**
-/

namespace Netlink

/-! ### Decoding -/

/-- Octets are too short to be decoded, or start with a header whose length is or is not that
of a message within them. -/
theorem Message.decode_cases (bs : Bytes) :
    (bs.length < Header.size ∧ decode bs = .error (.tooShort Header.size bs.length)) ∨
      ∃ (h : Header) (rest : Bytes), bs = h.encode ++ rest ∧
        ((h.length.toNat < Header.size ∨ bs.length < h.length.toNat) ∧
            decode bs = .error (.lengthMismatch h.length bs.length) ∨
          Header.size ≤ h.length.toNat ∧ h.length.toNat ≤ bs.length ∧
            decode bs = .ok ⟨h, bs.take h.length.toNat⟩) := by
  by_cases hsize : bs.length < Header.size
  · refine .inl ⟨hsize, ?_⟩
    rw [decode, Header.decode, Header.read?_eq_none_iff.2 hsize]
    rfl
  · obtain ⟨h, rest, hbs⟩ := Header.exists_encode_append (Nat.le_of_not_lt hsize)
    refine .inr ⟨h, rest, hbs, ?_⟩
    have hread : Header.read? bs = some (h, rest) := Header.read?_eq_some_iff.2 hbs
    rw [decode, Header.decode, hread]
    by_cases hbad : h.length.toNat < Header.size ∨ bs.length < h.length.toNat
    · exact .inl ⟨hbad, if_pos hbad⟩
    · obtain ⟨hlow, hhigh⟩ := not_or.1 hbad
      exact .inr ⟨Nat.le_of_not_lt hlow, Nat.le_of_not_lt hhigh, if_neg hbad⟩

/-! ### Well-formed messages -/

/-- A message is well-formed if it is what its octets are decoded to. -/
def Message.WellFormed (m : Message) : Prop := Message.decode m.octets = .ok m

instance (m : Message) : Decidable m.WellFormed :=
  inferInstanceAs (Decidable (Message.decode m.octets = .ok m))

/-- A message is well-formed exactly if its octets start with its header and are as many as
the header says. -/
theorem Message.wellFormed_iff {m : Message} :
    m.WellFormed ↔
      (∃ payload, m.octets = m.header.encode ++ payload) ∧
        m.octets.length = m.header.length.toNat := by
  constructor
  · intro hm
    rw [WellFormed] at hm
    rcases decode_cases m.octets with
      ⟨-, herror⟩ | ⟨h, rest, hoctets, ⟨-, herror⟩ | ⟨-, hle, hok⟩⟩
    · rw [herror] at hm
      cases hm
    · rw [herror] at hm
      cases hm
    · have hm : Message.mk h (m.octets.take h.length.toNat) = m :=
        Except.ok.inj (hok.symm.trans hm)
      have hheader : h = m.header := congrArg header hm
      have htake : m.octets.take h.length.toNat = m.octets := congrArg octets hm
      have hlength := congrArg List.length htake
      rw [List.length_take] at hlength
      rw [← hheader]
      exact ⟨⟨rest, hoctets⟩, by omega⟩
  · rintro ⟨⟨payload, hoctets⟩, hlength⟩
    have hsize : Header.size ≤ m.octets.length := by simp [hoctets]
    have hgood : ¬(m.header.length.toNat < Header.size ∨
        m.octets.length < m.header.length.toNat) := by
      omega
    rw [WellFormed, decode, Header.decode, Header.read?_eq_some_iff.2 hoctets]
    refine (if_neg hgood).trans ?_
    rw [← hlength, List.take_length]

/-- The record of a draft has the length that its header says, whatever was cut for it. -/
theorem Draft.length_octets_finish (d : Draft) :
    d.finish.octets.length = d.header.length.toNat := by
  rw [finish, List.length_take, List.length_rightpad]
  omega

/-- The message of a draft is well-formed if its length covers a header. -/
theorem Draft.wellFormed_finish {d : Draft} (h : Header.size ≤ d.header.length.toNat) :
    d.finish.WellFormed := by
  refine Message.wellFormed_iff.2
    ⟨⟨d.finish.octets.drop Header.size, ?_⟩, d.length_octets_finish⟩
  have hhead : d.finish.octets.take Header.size = d.header.encode := by
    rw [finish, List.take_take, Nat.min_eq_left h, List.rightpad, List.append_assoc]
    exact List.take_left' d.header.length_encode
  have hsplit := List.take_append_drop Header.size d.finish.octets
  rw [hhead] at hsplit
  exact hsplit.symm

/-- The entry of a chain that holds a message. -/
def Message.entry (m : Message) : Framing.Entry Header := ⟨m.header, m.octets⟩

/-- The octets of a header are read as that header. -/
theorem Datagram.head?_take_encode (h : Header) (rest : Bytes) :
    framing.head? ((h.encode ++ rest).take framing.headSize) = some h := by
  have htake : (h.encode ++ rest).take framing.headSize = h.encode :=
    List.take_left' h.length_encode
  have hread : Header.read? h.encode = some (h, []) :=
    Header.read?_eq_some_iff.2 (List.append_nil _).symm
  rw [htake]
  exact congrArg (Option.map Prod.fst) hread

/-- A well-formed message is a proper entry of a datagram. -/
theorem Message.WellFormed.proper_entry {m : Message} (h : m.WellFormed) :
    m.entry.Proper Datagram.framing := by
  obtain ⟨⟨payload, hoctets⟩, hlength⟩ := Message.wellFormed_iff.1 h
  refine ⟨?_, ?_, hlength.symm⟩
  · rw [entry, hoctets, List.length_append, Header.length_encode]
    exact Nat.le_add_right _ _
  · rw [entry, hoctets]
    exact Datagram.head?_take_encode m.header payload

/-! ### Packing -/

namespace Packer

/-- A message is pushed after the padding of those before it. -/
theorem pack_append_singleton (ms : List Message) (m : Message) :
    pack (ms ++ [m]) = padded (pack ms) ++ m.octets := by
  rw [pack, List.foldl_append]
  rfl

/-- With the padding of the last, a datagram is its messages, each padded. -/
theorem padded_pack (ms : List Message) :
    padded (pack ms) = ms.flatMap fun m => padded m.octets := by
  induction ms using List.reverseRecOn with
  | nil => rfl
  | append_singleton ms m ih =>
      rw [pack_append_singleton, padded_padded_append, ih, List.flatMap_append,
        List.flatMap_singleton]

/-- The datagram of a packer is a chain of which the last entry is not padded. -/
theorem pack_concat (ms : List Message) (m : Message) :
    pack (ms ++ [m]) = (ms.flatMap fun m => padded m.octets) ++ m.octets := by
  rw [pack_append_singleton, padded_pack]

end Packer

/-! ### Unpacking -/

/-- **Unpacking what was packed gives the messages back.** -/
theorem Datagram.messages_pack {ms : List Message} (h : ∀ m ∈ ms, m.WellFormed) :
    messages (Packer.pack ms) = ms := by
  have hproper : ∀ e ∈ ms.map Message.entry, e.Proper framing := by
    simpa using fun m hm => (h m hm).proper_entry
  have hentries : framing.entries (.whole (Packer.pack ms)) = ms.map Message.entry := by
    rcases ms.eq_nil_or_concat' with rfl | ⟨ms, m, rfl⟩
    · exact framing.entries_nil 0
    · rw [List.map_append, List.map_singleton] at hproper ⊢
      rw [Packer.pack_concat, ← Framing.entries_chain_concat hproper 0, List.flatMap_map]
      rfl
  rw [messages, hentries, List.map_map]
  exact List.map_id ms

end Netlink
