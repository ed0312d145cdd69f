import Netlink.Proofs.Packing
import Netlink.Proofs.Stepwise

/-!
# Unpacking and Decoding

There are two ways to the messages of a datagram. One is to walk it, and the other to decode
what stands at its front, to go on to the next boundary, and to decode again, until there is
nothing to decode. Each has its own checks: a walk peeks at a window and compares lengths with
what is left of it, decoding looks at all octets from an offset on. They accept the same
messages at every offset, so they agree on every run of octets, however malformed.

What they leave differs by the reason. Octets that are too few for a header are left as they
are, and a message that is refused for its length takes all that follows with it.

## Main results

* `Message.standsAt_of_decode`: what is decoded at an offset stands there.
* `Datagram.next?_of_decode_ok`, `Datagram.next?_of_decode_error`: **a call for the next message
  and decoding agree at every offset.**
* `Datagram.calls_eq_decodings`: so they do on a whole datagram, call by call.
-/

namespace Netlink

/-! ### Decoding once -/

namespace Message

/-- A message stands at an offset: its record is so many octets from there as its header says,
they are no fewer than a header's, and they are decoded to it. -/
structure StandsAt (m : Message) (bs : Bytes) (offset : Nat) : Prop where
  octets_eq : m.octets = (bs.drop offset).take m.header.length.toNat
  size_le : Header.size ≤ m.header.length.toNat
  inside : offset + m.header.length.toNat ≤ bs.length
  header_eq : Header.decode m.octets = .ok m.header
  decode_eq : decode m.octets = .ok m

variable {m : Message} {bs : Bytes} {offset : Nat}

/-- A message that stands in some octets is as long as its header says. -/
theorem StandsAt.size_eq (h : m.StandsAt bs offset) : m.size = m.header.length.toNat := by
  have hinside := h.inside
  rw [size, h.octets_eq, List.length_take, List.length_drop]
  omega

/-- What is decoded from an offset on stands there. -/
theorem standsAt_of_decode (h : decode (bs.drop offset) = .ok m) : m.StandsAt bs offset := by
  rcases decode_cases (bs.drop offset) with
    ⟨-, herror⟩ | ⟨header, rest, hrest, ⟨-, herror⟩ | ⟨hlow, hhigh, hok⟩⟩
  · rw [herror] at h
    cases h
  · rw [herror] at h
    cases h
  · obtain rfl := Except.ok.inj (hok.symm.trans h)
    have htake : (bs.drop offset).take header.length.toNat
        = header.encode ++ rest.take (header.length.toNat - Header.size) := by
      rw [hrest, List.take_append, Header.length_encode,
        List.take_of_length_le (by rwa [Header.length_encode])]
    have hlength : ((bs.drop offset).take header.length.toNat).length = header.length.toNat := by
      rw [List.length_take, Nat.min_eq_left hhigh]
    rw [List.length_drop] at hhigh
    refine ⟨rfl, hlow, ?_, ?_, ?_⟩
    · have hpos : 0 < Header.size := by decide
      change offset + header.length.toNat ≤ bs.length
      omega
    · change Header.decode ((bs.drop offset).take header.length.toNat) = .ok header
      rw [Header.decode, Header.read?_eq_some_iff.2 htake]
    · exact wellFormed_iff.2 ⟨⟨_, htake⟩, hlength⟩

end Message

namespace Datagram

/-! ### Decoding again and again -/

/-- What comes of decoding again and again. -/
structure Decodings where
  /-- The messages, each with the offset at which it was decoded. -/
  found : List (Nat × Message)
  /-- The offset at which decoding fails. -/
  stop : Nat
  deriving Repr

/-- Decodes what stands at an offset, goes on to the boundary after it, and decodes again, until
decoding fails. -/
def decodings (bs : Bytes) (offset : Nat) : Decodings :=
  match _h : Message.decode (bs.drop offset) with
  | .error _ => ⟨[], offset⟩
  | .ok m =>
    let later := decodings bs (offset + aligned m.size)
    ⟨(offset, m) :: later.found, later.stop⟩
termination_by bs.length - offset
decreasing_by
  have hm := Message.standsAt_of_decode _h
  have hsize := hm.size_eq
  have hle := hm.size_le
  have hinside := hm.inside
  have hal := le_aligned m.size
  rw [Header.size] at hle
  omega

variable {bs : Bytes} {offset : Nat}

/-- What is found by decoding stands where it was decoded. -/
theorem standsAt_of_mem_found {o : Nat} {m : Message} (h : (o, m) ∈ (decodings bs offset).found) :
    m.StandsAt bs o := by
  fun_induction decodings bs offset with
  | case1 offset fault herror => cases h
  | case2 offset m₁ hok later ih =>
      rcases List.mem_cons.1 h with hfirst | hlater
      · obtain ⟨rfl, rfl⟩ := Prod.mk.inj hfirst
        exact Message.standsAt_of_decode hok
      · exact ih hlater

/-! ### Both ways agree at every offset -/

/-- What is decoded at an offset is split off there. -/
theorem next?_of_decode_ok {m : Message} (h : Message.decode (bs.drop offset) = .ok m) :
    framing.next? (.between bs offset bs.length)
      = (some m.entry, .between bs (offset + aligned m.size) bs.length) := by
  have hm := Message.standsAt_of_decode h
  have hsize := hm.size_eq
  have hinside := hm.inside
  have hle := hm.size_le
  rw [← Window.advance_between (Nat.le_refl _), hsize]
  refine Framing.next?_eq_some_iff.2 ⟨hle, ?_, ?_, ?_, rfl⟩
  · rw [Window.remaining_between (Nat.le_refl _)]
    change m.header.length.toNat ≤ bs.length - offset
    omega
  · -- the first octets of the record are the octets from the offset on
    obtain ⟨⟨payload, hoctets⟩, -⟩ := Message.wellFormed_iff.1 hm.decode_eq
    have hfront : (bs.drop offset).take Header.size = m.octets.take Header.size := by
      rw [hm.octets_eq, List.take_take, Nat.min_eq_left hle]
    change framing.head? ((Window.between bs offset bs.length).rest.take Header.size)
      = some m.header
    rw [Window.take_rest_between (Nat.le_trans (Nat.add_le_add_left hle offset) hinside), hfront,
      hoctets]
    exact head?_take_encode m.header payload
  · exact hm.octets_eq.trans (Window.take_rest_between hinside).symm

/-- Why decoding fails where some octets stand, and how many of them a walk leaves there: all
of them if they are too few for a header, and none if the length in the header is refused. -/
def EndsWith (standing : Nat) (fault : Fault) (left : Nat) : Prop :=
  (standing < Header.size ∧ fault = .tooShort Header.size standing ∧ left = standing) ∨
    ∃ length, fault = .lengthMismatch length standing ∧ left = 0

/-- Where nothing can be decoded, nothing is split off. -/
theorem next?_of_decode_error {fault : Fault}
    (h : Message.decode (bs.drop offset) = .error fault) :
    ∃ last, framing.next? (.between bs offset bs.length) = (none, last) ∧
      EndsWith (bs.length - offset) fault last.remaining := by
  have hremaining : (Window.between bs offset bs.length).remaining = bs.length - offset :=
    Window.remaining_between (Nat.le_refl _)
  have hlength : (bs.drop offset).length = bs.length - offset := List.length_drop
  rcases Message.decode_cases (bs.drop offset) with
    ⟨hshort, herror⟩ | ⟨header, rest, hrest, ⟨hbad, herror⟩ | ⟨-, -, hok⟩⟩
  · obtain rfl := Except.error.inj (herror.symm.trans h)
    rw [hlength] at hshort
    refine ⟨_, Framing.next?_of_short (by rwa [hremaining]), .inl ⟨hshort, ?_, hremaining⟩⟩
    rw [hlength]
  · obtain rfl := Except.error.inj (herror.symm.trans h)
    rw [hlength] at hbad
    have hsize : Header.size ≤ bs.length - offset := by
      rw [← hlength, hrest, List.length_append, Header.length_encode]
      exact Nat.le_add_right _ _
    have hhead : framing.head? ((Window.between bs offset bs.length).rest.take framing.headSize)
        = some header := by
      have hwhole : (Window.between bs offset bs.length).rest = bs.drop offset := by
        rw [Window.between, List.take_length]
      rw [hwhole, hrest]
      exact head?_take_encode header rest
    rw [← hremaining] at hsize hbad
    exact ⟨_, Framing.next?_of_refused hsize hhead hbad, .inr ⟨_, by rw [hlength], rfl⟩⟩
  · rw [hok] at h
    cases h

/-! ### Both ways agree on a datagram -/

/-- The entries of a walk are the records of the messages that decoding again and again gives. -/
theorem entries_eq_decodings (bs : Bytes) (offset : Nat) :
    framing.entries (.between bs offset bs.length)
      = (decodings bs offset).found.map (·.2.entry) := by
  fun_induction decodings bs offset with
  | case1 offset fault herror =>
      obtain ⟨last, hnone, -⟩ := next?_of_decode_error herror
      rw [Framing.entries_of_none hnone]
      rfl
  | case2 offset m hok later ih =>
      rw [Framing.entries_of_some (next?_of_decode_ok hok), ih]
      rfl

/-- What is left after a walk is decided by why decoding failed. -/
theorem left_eq_decodings (bs : Bytes) (offset : Nat) :
    ∃ fault, Message.decode (bs.drop (decodings bs offset).stop) = .error fault ∧
      EndsWith (bs.length - (decodings bs offset).stop) fault
        (framing.left (.between bs offset bs.length)).remaining := by
  fun_induction decodings bs offset with
  | case1 offset fault herror =>
      obtain ⟨last, hnone, hends⟩ := next?_of_decode_error herror
      rw [Framing.left_of_none hnone]
      exact ⟨fault, herror, hends⟩
  | case2 offset m hok later ih =>
      rw [Framing.left_of_some (next?_of_decode_ok hok)]
      exact ih

/-- The messages of a datagram are those that decoding again and again gives. -/
theorem messages_eq_decodings (datagram : Bytes) :
    messages datagram = (decodings datagram 0).found.map (·.2) := by
  rw [messages, Window.whole_eq_between, entries_eq_decodings, List.map_map]
  rfl

/-- **Calls for the next message give what decoding again and again gives**, on every run of
octets. The messages come in order, each from the octets at its offset; the next offset is the
boundary after them. From the first failure on, calls give nothing and change nothing. Octets
that were too few for a header are still left then, and none are if the length of a message was
refused. -/
theorem calls_eq_decodings (datagram : Bytes) :
    let found := (decodings datagram 0).found
    let stop := (decodings datagram 0).stop
    let ended := after (found.length + 1) (.whole datagram)
    (∀ n, (next? (after n (.whole datagram))).1 = (found[n]?).map (·.2)) ∧
      (∀ n, after (found.length + 1 + n) (.whole datagram) = ended) ∧
      (∃ fault, Message.decode (datagram.drop stop) = .error fault ∧
        EndsWith (datagram.length - stop) fault ended.remaining) ∧
      (∀ offset m, (offset, m) ∈ found → m.StandsAt datagram offset) ∧
      Header.size * found.length ≤ datagram.length := by
  intro found stop ended
  have hentries : framing.entries (.whole datagram) = found.map (·.2.entry) := by
    rw [Window.whole_eq_between]
    exact entries_eq_decodings datagram 0
  have hlength : found.length = (framing.entries (.whole datagram)).length := by
    rw [hentries, List.length_map]
  have hended (n : Nat) :
      after (found.length + 1 + n) (.whole datagram) = framing.left (.whole datagram) := by
    rw [after_eq, hlength]
    exact framing.after_of_end n _
  refine ⟨fun n => ?_, fun n => (hended n).trans (hended 0).symm, ?_, ?_, ?_⟩
  · rw [next?_after, messages_eq_decodings, List.getElem?_map]
  · obtain ⟨fault, hfault, hends⟩ := left_eq_decodings datagram 0
    rw [← Window.whole_eq_between, ← hended 0] at hends
    exact ⟨fault, hfault, hends⟩
  · exact fun offset m hm => standsAt_of_mem_found hm
  · rw [hlength]
    exact framing.headSize_mul_length_entries_le (.whole datagram)

end Datagram

end Netlink
