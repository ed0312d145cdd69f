import Netlink.Proofs.Attributes
import Netlink.Proofs.Batches
import Netlink.Proofs.Stepwise

/-!
# Damage to a Length

The length that an entry declares is all that tells where the next one starts. If it is written
over with a number that cannot be the length of that entry, below the size of a head or above
what is left of the chain, then the entry is refused, and the chain is emptied: nothing of what
follows is taken for an entry. What stands before the entry is read as ever, because an entry is
split off by its own octets.

This holds of any octets after the damaged head, so in particular of a chain of attributes and of
a packed datagram, wherever in them the damage is.

## Main results

* `Framing.entries_refused`, `Framing.left_refused`: **a chain ends at an entry that is refused.**
* `Chain.holds_of_damaged`: what is read of a chain with a damaged length.
* `Datagram.holds_of_damaged`: what is read of a packed datagram with a damaged length.
* `damage_contained`: both, wherever in a buffer the chain stands, with what is found in it.
-/

namespace Netlink

/-! ### Refused entries -/

namespace Framing

variable {η : Type} {f : Framing η} {es : List (Entry η)} {rest : Bytes} {head : η}

/-- A chain ends at an entry that is refused: what was read before it is all that is read. -/
theorem entries_refused (hes : ∀ e ∈ es, e.Proper f) (hsize : f.headSize ≤ rest.length)
    (hhead : f.head? (rest.take f.headSize) = some head)
    (hrefused : f.declared head < f.headSize ∨ rest.length < f.declared head) (position : Nat) :
    f.entries ⟨position, es.flatMap (fun e => padded e.octets) ++ rest⟩ = es := by
  rw [entries_chain hes, entries_of_none (next?_of_refused hsize hhead hrefused), List.append_nil]

/-- Nothing is left of a chain that ended at an entry that is refused. -/
theorem left_refused (hes : ∀ e ∈ es, e.Proper f) (hsize : f.headSize ≤ rest.length)
    (hhead : f.head? (rest.take f.headSize) = some head)
    (hrefused : f.declared head < f.headSize ∨ rest.length < f.declared head) (position : Nat) :
    ∃ last, f.left ⟨position, es.flatMap (fun e => padded e.octets) ++ rest⟩ = ⟨last, []⟩ := by
  rw [left_chain hes, left_of_none (next?_of_refused hsize hhead hrefused)]
  exact ⟨_, rfl⟩

end Framing

/-- Octets with as many of them as a field has, from an offset on, replaced by it. -/
def replaceAt (bs : Bytes) (offset : Nat) (field : Bytes) : Bytes :=
  bs.take offset ++ (field ++ bs.drop (offset + field.length))

/-- A field in the middle of some octets is replaced, and nothing else. -/
theorem replaceAt_append {field old : Bytes} (h : old.length = field.length) (front tail : Bytes) :
    replaceAt (front ++ (old ++ tail)) front.length field = front ++ (field ++ tail) := by
  rw [replaceAt, List.take_left, ← List.drop_drop, List.drop_left, List.drop_left' h]

/-! ### Attributes -/

namespace Chain

variable {as : List Attribute} {k : Nat}

/-- The octets of a chain that holds these attributes, each padded. -/
def encode (as : List Attribute) : Bytes := as.flatMap fun a => padded a.octets

/-- Where in a chain of these attributes the one at an index starts. -/
def offsetOf (as : List Attribute) (k : Nat) : Nat := (encode (as.take k)).length

/-- To write over the length of an attribute is to give it another head. -/
theorem exists_replaceAt_eq (hk : k < as.length) :
    ∃ later, (encode as).length - offsetOf as k = Attribute.headSize + later.length ∧
      ∀ v : UInt16, replaceAt (encode as) (offsetOf as k) (Word.le16 v)
        = encode (as.take k) ++ (Attribute.Head.encode ⟨v, as[k].head.type⟩ ++ later) := by
  have hsplit : encode as = encode (as.take k) ++ encode (as.drop k) := by
    rw [encode, encode, encode, ← List.flatMap_append, List.take_append_drop]
  obtain ⟨later, hlater⟩ : ∃ later, encode (as.drop k) = as[k].head.encode ++ later := by
    rw [List.drop_eq_getElem_cons hk, encode, List.flatMap_cons, padded, Attribute.octets]
    simp only [List.append_assoc]
    exact ⟨_, rfl⟩
  refine ⟨later, ?_, fun v => ?_⟩
  · rw [hsplit, hlater, List.length_append, offsetOf, Nat.add_sub_cancel_left, List.length_append,
      Attribute.Head.length_encode]
  · have hlength : (Word.le16 as[k].head.length).length = (Word.le16 v).length :=
      (Word.length_le16 _).trans (Word.length_le16 v).symm
    rw [hsplit, hlater, offsetOf, Attribute.Head.encode, Attribute.Head.encode, List.append_assoc,
      List.append_assoc, replaceAt_append hlength]

/-- A chain holds the attributes before a head that is refused. -/
theorem holds_of_refused {c : Chain} {head : Attribute.Head} {later : Bytes}
    (hc : c.headSize ≤ Attribute.headSize) (has : ∀ a ∈ as, a.Exact)
    (hrest : c.window.rest = encode as ++ (head.encode ++ later))
    (hrefused : head.length.toNat < Attribute.headSize ∨
      Attribute.headSize + later.length < head.length.toNat) : c.Holds as := by
  have hsize : (framing c.headSize).headSize = Attribute.headSize := Nat.max_eq_right hc
  have hlength : (head.encode ++ later).length = Attribute.headSize + later.length := by
    rw [List.length_append, Attribute.Head.length_encode]
  have hproper : ∀ e ∈ as.map Attribute.entry, e.Proper (framing c.headSize) :=
    List.forall_mem_map.2 fun a ha => (has a ha).proper_entry hc
  have hwindow : c.window = ⟨c.window.position,
      ((as.map Attribute.entry).flatMap fun e => padded e.octets) ++ (head.encode ++ later)⟩ := by
    rw [List.flatMap_map]
    exact congrArg (Window.mk c.window.position) hrest
  have hroom : (framing c.headSize).headSize ≤ (head.encode ++ later).length := by
    rw [hsize, hlength]
    exact Nat.le_add_right _ _
  have hhead : (framing c.headSize).head?
      ((head.encode ++ later).take (framing c.headSize).headSize) = some head := by
    rw [hsize]
    exact head.decode?_take_encode later
  rw [← hlength, ← hsize] at hrefused
  obtain ⟨last, hleft⟩ := Framing.left_refused hproper hroom hhead hrefused c.window.position
  have hentries := Framing.entries_refused hproper hroom hhead hrefused c.window.position
  rw [← hwindow] at hleft hentries
  have hholds := holds_of_left hleft
  rwa [attributes, hentries, map_ofEntry_entry hc] at hholds

/-- **Damage to the length of an attribute is contained.** The attributes before it are read as
they are, nothing after them is, and no octet is left. -/
theorem holds_of_damaged {c : Chain} {v : UInt16} (has : ∀ a ∈ as, a.Exact) (hk : k < as.length)
    (hv : v.toNat < Attribute.headSize ∨ (encode as).length - offsetOf as k < v.toNat)
    (hc : c.headSize ≤ Attribute.headSize)
    (hrest : c.window.rest = replaceAt (encode as) (offsetOf as k) (Word.le16 v)) :
    c.Holds (as.take k) := by
  obtain ⟨later, hlength, hreplace⟩ := exists_replaceAt_eq hk
  rw [hreplace] at hrest
  rw [hlength] at hv
  exact holds_of_refused hc (fun a ha => has a (List.mem_of_mem_take ha)) hrest hv

end Chain

/-! ### Messages -/

/-- The octets of a header are those of its length, and then some that are the same whatever
the length is. -/
theorem Header.exists_encode_eq (h : Header) :
    ∃ fields, ∀ length, { h with length }.encode = Word.le32 length ++ fields :=
  ⟨Word.le16 h.kind.code ++ (Word.le16 h.flags.bits ++ (Word.le32 h.sequence ++ Word.le32 h.portId)),
    fun length => by simp only [encode, List.append_assoc]⟩

namespace Packer

variable {ms : List Message} {k : Nat}

/-- Where in a datagram of these messages the one at an index starts. -/
def offsetOf (ms : List Message) (k : Nat) : Nat := (padded (pack (ms.take k))).length

/-- A message is packed on the boundary after those before it, and later ones after it. -/
theorem exists_pack_eq (front : List Message) (m : Message) (later : List Message) :
    ∃ rest, pack (front ++ m :: later) = padded (pack front) ++ (m.octets ++ rest) := by
  induction later using List.reverseRecOn with
  | nil => exact ⟨[], by rw [pack_append_singleton, List.append_nil]⟩
  | append_singleton later last ih =>
      obtain ⟨rest, hrest⟩ := ih
      rw [← List.cons_append, ← List.append_assoc, pack_append_singleton, hrest, padded]
      simp only [List.append_assoc]
      exact ⟨_, rfl⟩

/-- To write over the length of a message is to give it another header. -/
theorem exists_replaceAt_eq (hms : ∀ m ∈ ms, m.WellFormed) (hk : k < ms.length) :
    ∃ later, (pack ms).length - offsetOf ms k = Header.size + later.length ∧
      ∀ v : UInt32, replaceAt (pack ms) (offsetOf ms k) (Word.le32 v)
        = padded (pack (ms.take k)) ++ ({ ms[k].header with length := v }.encode ++ later) := by
  have hsplit : ms.take k ++ ms[k] :: ms.drop (k + 1) = ms := by
    rw [← List.drop_eq_getElem_cons hk, List.take_append_drop]
  obtain ⟨rest, hpack⟩ := exists_pack_eq (ms.take k) ms[k] (ms.drop (k + 1))
  obtain ⟨⟨payload, hpayload⟩, -⟩ := Message.wellFormed_iff.1 (hms _ (List.getElem_mem hk))
  obtain ⟨fields, hfields⟩ := ms[k].header.exists_encode_eq
  rw [hsplit, hpayload, List.append_assoc] at hpack
  refine ⟨payload ++ rest, ?_, fun v => ?_⟩
  · rw [hpack, List.length_append, offsetOf, Nat.add_sub_cancel_left, List.length_append,
      Header.length_encode]
  · have hlength : (Word.le32 ms[k].header.length).length = (Word.le32 v).length :=
      (Word.length_le32 _).trans (Word.length_le32 v).symm
    have hheader : ms[k].header.encode = Word.le32 ms[k].header.length ++ fields := hfields _
    rw [hpack, offsetOf, hheader, hfields v, List.append_assoc, List.append_assoc,
      replaceAt_append hlength]

end Packer

namespace Datagram

variable {ms : List Message} {k : Nat}

/-- A datagram holds the messages before a header that is refused. -/
theorem holds_of_refused {head : Header} {later : Bytes} (hms : ∀ m ∈ ms, m.WellFormed)
    (hrefused : head.length.toNat < Header.size ∨
      Header.size + later.length < head.length.toNat) :
    Holds (padded (Packer.pack ms) ++ (head.encode ++ later)) ms := by
  have hlength : (head.encode ++ later).length = Header.size + later.length := by
    rw [List.length_append, Header.length_encode]
  have hproper : ∀ e ∈ ms.map Message.entry, e.Proper framing :=
    List.forall_mem_map.2 fun m hm => (hms m hm).proper_entry
  have hchain : padded (Packer.pack ms)
      = (ms.map Message.entry).flatMap fun e => padded e.octets := by
    rw [Packer.padded_pack, List.flatMap_map]
    rfl
  have hroom : framing.headSize ≤ (head.encode ++ later).length := by
    rw [hlength]
    exact Nat.le_add_right _ _
  rw [← hlength] at hrefused
  have hhead := head?_take_encode head later
  obtain ⟨last, hleft⟩ := Framing.left_refused hproper hroom hhead hrefused 0
  have hentries := Framing.entries_refused hproper hroom hhead hrefused 0
  rw [← hchain] at hleft hentries
  have hmessages : messages (padded (Packer.pack ms) ++ (head.encode ++ later)) = ms := by
    rw [messages, Window.whole, hentries, List.map_map]
    exact List.map_id ms
  have hholds := holds_of_left hleft
  rwa [hmessages] at hholds

/-- **Damage to the length of a message is contained.** The messages before it are read as they
are, nothing after them is, and no octet is left. -/
theorem holds_of_damaged {v : UInt32} (hms : ∀ m ∈ ms, m.WellFormed) (hk : k < ms.length)
    (hv : v.toNat < Header.size ∨ (Packer.pack ms).length - Packer.offsetOf ms k < v.toNat) :
    Holds (replaceAt (Packer.pack ms) (Packer.offsetOf ms k) (Word.le32 v)) (ms.take k) := by
  obtain ⟨later, hlength, hreplace⟩ := Packer.exists_replaceAt_eq hms hk
  rw [hreplace]
  rw [hlength] at hv
  exact holds_of_refused (fun m hm => hms m (List.mem_of_mem_take hm)) hv

end Datagram

/-! ### Both kinds of chains -/

/-- **Damage to one length is contained.** Attributes whose heads tell the lengths of their values
stand in a range of a buffer as a chain, and over the length of one of them a word is written that
is below the size of a head or above what the chain has left from there on. Then the attributes
before it are read, and no octet is left; so an attribute is found if it is among them. Likewise a
packed datagram holds the messages before one over whose length such a word is written. -/
theorem damage_contained :
    (∀ (as : List Attribute) (k : Nat) (v : UInt16) (buffer : Bytes) (start length headSize : Nat),
        (∀ a ∈ as, a.Exact) → k < as.length → headSize ≤ Attribute.headSize →
        (v.toNat < Attribute.headSize ∨
          (Chain.encode as).length - Chain.offsetOf as k < v.toNat) →
        (buffer.drop start).take length
          = replaceAt (Chain.encode as) (Chain.offsetOf as k) (Word.le16 v) →
        (Chain.ofRange buffer start length headSize).Holds (as.take k) ∧
          ∀ type, (Chain.ofRange buffer start length headSize).find? type
            = (as.take k).find? (·.head.type = type)) ∧
      ∀ (ms : List Message) (k : Nat) (v : UInt32),
        (∀ m ∈ ms, m.WellFormed) → k < ms.length →
        (v.toNat < Header.size ∨ (Packer.pack ms).length - Packer.offsetOf ms k < v.toNat) →
        Datagram.Holds (replaceAt (Packer.pack ms) (Packer.offsetOf ms k) (Word.le32 v))
          (ms.take k) := by
  constructor
  · intro as k v buffer start length headSize has hk hsize hv hrange
    have hholds : (Chain.ofRange buffer start length headSize).Holds (as.take k) :=
      Chain.holds_of_damaged has hk hv hsize hrange
    exact ⟨hholds, hholds.find?_eq⟩
  · intro ms k v hms hk hv
    exact Datagram.holds_of_damaged hms hk hv

/-- Of three attributes within a buffer the second is given a length beyond the chain, and of two
messages the second a length below that of a header. The first attribute is found, and one that
stands behind the damage is not. -/
theorem damage_contained_second :
    ∃ (as : List Attribute) (ms : List Message) (buffer : Bytes),
      as = [⟨⟨8, 1⟩, [65, 65, 65, 65]⟩, ⟨⟨5, 2⟩, [66]⟩, ⟨⟨6, 3⟩, [67, 67]⟩] ∧
      ms = [⟨⟨17, .newLink, .multi, 1, 0⟩, [17, 0, 0, 0, 16, 0, 2, 0, 1, 0, 0, 0, 0, 0, 0, 0, 7]⟩,
        .done 1 0 0] ∧
      buffer = [9, 9, 8, 0, 1, 0, 65, 65, 65, 65, 200, 0, 2, 0, 66, 0, 0, 0, 6, 0, 3, 0, 67, 67, 0, 0,
        9] ∧
      (∀ a ∈ as, a.Exact) ∧ (∀ m ∈ ms, m.WellFormed) ∧
      (buffer.drop 2).take 24 = replaceAt (Chain.encode as) (Chain.offsetOf as 1) (Word.le16 200) ∧
      (Chain.ofRange buffer 2 24 4).Holds [⟨⟨8, 1⟩, [65, 65, 65, 65]⟩] ∧
      (Chain.ofRange buffer 2 24 4).find? 1 = some ⟨⟨8, 1⟩, [65, 65, 65, 65]⟩ ∧
      (Chain.ofRange buffer 2 24 4).find? 3 = none ∧
      Datagram.Holds (replaceAt (Packer.pack ms) (Packer.offsetOf ms 1) (Word.le32 15))
        (ms.take 1) := by
  have has : ∀ a ∈ [(⟨⟨8, 1⟩, [65, 65, 65, 65]⟩ : Attribute), ⟨⟨5, 2⟩, [66]⟩, ⟨⟨6, 3⟩, [67, 67]⟩],
      a.Exact := by
    decide
  have hms : ∀ m ∈ [(⟨⟨17, .newLink, .multi, 1, 0⟩,
      [17, 0, 0, 0, 16, 0, 2, 0, 1, 0, 0, 0, 0, 0, 0, 0, 7]⟩ : Message), .done 1 0 0],
      m.WellFormed := by
    decide
  have hrange : ([9, 9, 8, 0, 1, 0, 65, 65, 65, 65, 200, 0, 2, 0, 66, 0, 0, 0, 6, 0, 3, 0, 67, 67, 0,
      0, 9].drop 2).take 24
      = replaceAt (Chain.encode [⟨⟨8, 1⟩, [65, 65, 65, 65]⟩, ⟨⟨5, 2⟩, [66]⟩, ⟨⟨6, 3⟩, [67, 67]⟩])
        (Chain.offsetOf [⟨⟨8, 1⟩, [65, 65, 65, 65]⟩, ⟨⟨5, 2⟩, [66]⟩, ⟨⟨6, 3⟩, [67, 67]⟩] 1)
        (Word.le16 200) := by
    decide
  obtain ⟨hholds, hfind⟩ := damage_contained.1 _ 1 200 _ 2 24 4 has (by decide) (by decide)
    (by decide) hrange
  have hdatagram := damage_contained.2 _ 1 15 hms (by decide) (by decide)
  exact ⟨_, _, _, rfl, rfl, rfl, has, hms, hrange, hholds, hfind 1, hfind 3, hdatagram⟩

end Netlink
