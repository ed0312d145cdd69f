import Netlink.Family.Link
import Netlink.Family.Netfilter
import Netlink.Proofs.Cursor

/-!
# Unpacking Within a Buffer

Datagrams and attribute chains are unpacked by cursors. What a record says of its own length
is checked against the buffer when it is split off, so the record of a message is never shorter
than a header. The attributes are then looked for as far as the length in the header says, which
may be changed after the message was split off; it only chooses a range, and a range is cut to
the record.

## Main results

* `Datagram.checkedMessages_eq`: the messages of a datagram are unpacked within it.
* `Datagram.messagesLeft_of_none`, `Datagram.messagesLeft_of_some`: and so one by one.
* `Datagram.whole_of_mem_messages`: their records are at least as long as a header.
* `Chain.checkedAttributes_of_shows`, `Chain.checkedFind?_of_shows`: so are the attributes of a
  chain, and an attribute is found within it.
* `Message.contained_of_whole`: **all that is read of a message is read within its record**,
  whatever its header says.
-/

namespace Netlink

/-! ### Entries -/

/-- An entry that is split off is at least as long as a head, and was left before. -/
theorem Framing.length_of_next? {η : Type} {f : Framing η} {w w' : Window} {e : Framing.Entry η}
    (h : f.next? w = (some e, w')) :
    f.headSize ≤ e.octets.length ∧ e.octets.length ≤ w.remaining := by
  obtain ⟨hlow, hhigh, -, hoctets, -⟩ := next?_eq_some_iff.1 h
  have hlength : e.octets.length = f.declared e.head := by
    rw [hoctets, List.length_take]
    exact Nat.min_eq_left hhigh
  rw [hlength]
  exact ⟨hlow, hhigh⟩

/-- An entry has a head, and is no longer than the window. -/
theorem Framing.length_of_mem_entries {η : Type} {f : Framing η} {w : Window}
    {e : Framing.Entry η} (he : e ∈ f.entries w) :
    f.headSize ≤ e.octets.length ∧ e.octets.length ≤ w.remaining := by
  fun_induction Framing.walk f w with
  | case1 w last hnone => simp [entries_of_none hnone] at he
  | case2 w e₁ w' hsome entries last hwalk ih =>
      rw [entries_of_some hsome, List.mem_cons] at he
      rcases he with rfl | he
      · exact length_of_next? hsome
      · have hlt := remaining_lt_of_next? hsome
        have := ih he
        omega

/-! ### Datagrams -/

namespace Datagram

/-- The header at the front of a run of octets, if it is long enough for one. -/
def checkedHead? (bs : Bytes) : Checked (Option Header) := do
  return (← Header.checkedDecode bs).toOption

/-- The head of a record is read by its indices as it is from the front. -/
theorem checkedHead?_eq (bs : Bytes) : checkedHead? bs = .ok (framing.head? bs) := by
  have hhead : framing.head? bs = (Header.read? bs).map (·.1) := rfl
  rw [checkedHead?, Header.checkedDecode_eq, Header.decode, hhead]
  cases Header.read? bs <;> rfl

/-- How the messages of a datagram are told apart in a buffer. Each is cut out whole. -/
def checkedFraming : CheckedFraming Header where
  toFraming := framing
  checkedHead? := checkedHead?
  skip := 0
  checkedHead?_eq := checkedHead?_eq
  skip_le := Nat.zero_le _
  declared_lt head := by
    have : head.length.toNat < UInt32.size := head.length.toNat_lt
    have : UInt32.size + alignment < UInt64.size := by decide
    change head.length.toNat + alignment < UInt64.size
    omega

/-- Splits the next message off a datagram. -/
def checkedNext? (c : Cursor) : Checked (Option Message × Cursor) := do
  let (entry, c) ← checkedFraming.next? c
  return (entry.map ofEntry, c)

/-- All messages of a datagram. -/
def checkedMessages (datagram : Bytes) : Checked (List Message) := do
  let (entries, _) ← checkedFraming.walk (.whole datagram)
  return entries.map ofEntry

/-- The next message is cut out within the buffer, and is the one that the window has. -/
theorem checkedNext?_of_shows {c : Cursor} {w : Window} (h : c.Shows w) :
    ∃ c', checkedNext? c = .ok ((next? w).1, c') ∧ c'.Shows (next? w).2 := by
  obtain ⟨c', hnext, hshows⟩ := checkedFraming.next?_of_shows h
  refine ⟨c', ?_, hshows⟩
  rw [checkedNext?, hnext, Checked.ok_bind]
  dsimp only
  rw [Option.map_map]
  rfl

/-- The messages that are left of a datagram. -/
def messagesLeft (c : Cursor) : List Message := (framing.entries c.window).map ofEntry

/-- What can be split off a whole datagram are its messages. -/
theorem messagesLeft_whole {datagram : Bytes} (h : datagram.length < UInt64.size) :
    messagesLeft (.whole datagram) = messages datagram := by
  rw [messagesLeft, (Cursor.shows_whole h).window_eq, messages]

/-- No access fails when a message is split off what lies within the buffer. -/
theorem checkedNext?_ne_error {c : Cursor} (hc : c.Shows c.window) (overrun : Overrun) :
    checkedNext? c ≠ .error overrun := by
  obtain ⟨c', hnext, -⟩ := checkedNext?_of_shows hc
  simp [hnext]

/-- What was split off a datagram is what is split off its window. -/
theorem next?_of_checkedNext? {c c' : Cursor} {item : Option Message} (hc : c.Shows c.window)
    (h : checkedNext? c = .ok (item, c')) :
    (framing.next? c.window).1.map ofEntry = item ∧ c'.Shows (framing.next? c.window).2 := by
  obtain ⟨c₁, hnext, hshows⟩ := checkedNext?_of_shows hc
  rw [hnext] at h
  obtain ⟨hitem, rfl⟩ := Prod.mk.inj (Except.ok.inj h)
  exact ⟨hitem, hshows⟩

/-- If no message is split off, none is left. -/
theorem messagesLeft_of_none {c c' : Cursor} (hc : c.Shows c.window)
    (h : checkedNext? c = .ok (none, c')) : messagesLeft c = [] := by
  obtain ⟨hitem, -⟩ := next?_of_checkedNext? hc h
  have hnone := Framing.entries_of_none (Prod.ext (Option.map_eq_none_iff.1 hitem) rfl)
  rw [messagesLeft, hnone]
  rfl

/-- A message that was split off was the first of those left, and the others are left. -/
theorem messagesLeft_of_some {c c' : Cursor} {m : Message} (hc : c.Shows c.window)
    (h : checkedNext? c = .ok (some m, c')) :
    messagesLeft c = m :: messagesLeft c' ∧ c'.Shows c'.window := by
  obtain ⟨hitem, hshows⟩ := next?_of_checkedNext? hc h
  obtain ⟨e, he, rfl⟩ := Option.map_eq_some_iff.1 hitem
  have hsome := Framing.entries_of_some (Prod.ext he rfl)
  have hwindow := hshows.window_eq
  rw [messagesLeft, hsome, messagesLeft, hwindow]
  exact ⟨rfl, hshows⟩

/-- A message that is split off leaves less of the datagram. -/
theorem remaining_lt_of_checkedNext? {c c' : Cursor} {m : Message}
    (h : checkedNext? c = .ok (some m, c')) : c'.remaining < c.remaining := by
  rw [checkedNext?, Checked.bind_eq_ok_iff] at h
  obtain ⟨⟨entry, c₁⟩, hnext, h⟩ := h
  obtain ⟨hentry, rfl⟩ := Prod.mk.inj (Except.ok.inj h)
  obtain ⟨e, rfl, -⟩ := Option.map_eq_some_iff.1 hentry
  exact CheckedFraming.remaining_lt_of_next? hnext

/-- **A datagram is unpacked within its octets**, if its size fits into sixty-four bits. -/
theorem checkedMessages_eq {datagram : Bytes} (h : datagram.length < UInt64.size) :
    checkedMessages datagram = .ok (messages datagram) := by
  obtain ⟨last, hwalk, -⟩ := checkedFraming.walk_of_shows (Cursor.shows_whole h)
  rw [checkedMessages, hwalk, Checked.ok_bind]
  dsimp only
  rw [List.map_map]
  rfl

/-- The messages of a window have whole records. -/
theorem whole_of_mem_entries {w : Window} (hw : w.remaining < UInt64.size) {m : Message}
    (hm : m ∈ (framing.entries w).map ofEntry) : m.Whole := by
  obtain ⟨e, he, rfl⟩ := List.mem_map.1 hm
  obtain ⟨hsize, hle⟩ := Framing.length_of_mem_entries he
  exact ⟨hsize, Nat.lt_of_le_of_lt hle hw⟩

/-- The messages of a datagram are whole, if its size fits into sixty-four bits. -/
theorem whole_of_mem_messages {datagram : Bytes} (h : datagram.length < UInt64.size) {m : Message}
    (hm : m ∈ messages datagram) : m.Whole :=
  whole_of_mem_entries (w := .whole datagram) h hm

/-- The messages that can still be split off a datagram are whole. -/
theorem whole_of_mem_messagesLeft {c : Cursor} (hc : c.Shows c.window) {m : Message}
    (hm : m ∈ messagesLeft c) : m.Whole :=
  whole_of_mem_entries hc.remaining_lt hm

end Datagram

/-! ### Chains -/

namespace Chain

/-- How attributes with heads of the given size are told apart in a buffer. Of each the value is
cut out. -/
def checkedFraming (headSize : Nat) : CheckedFraming Attribute.Head where
  toFraming := framing headSize
  checkedHead? := Attribute.Head.checkedDecode?
  skip := max headSize Attribute.headSize
  checkedHead?_eq := Attribute.Head.checkedDecode?_eq
  skip_le := Nat.le_refl _
  declared_lt head := by
    have : head.length.toNat < UInt16.size := head.length.toNat_lt
    have : UInt16.size + alignment < UInt64.size := by decide
    change head.length.toNat + alignment < UInt64.size
    omega

/-- The attribute of which the value was cut out. -/
def ofCut (e : Framing.Entry Attribute.Head) : Attribute := ⟨e.head, e.octets⟩

/-- All attributes that are left, with heads of the given size. -/
def checkedAttributes (headSize : Nat) (c : Cursor) : Checked (List Attribute) := do
  let (entries, _) ← (checkedFraming headSize).walk c
  return entries.map ofCut

/-- The first attribute of the given type that is left. -/
def checkedFind? (headSize : Nat) (c : Cursor) (type : UInt16) : Checked (Option Attribute) := do
  return (← (checkedFraming headSize).find? (·.head.type = type) c).map ofCut

variable {c : Cursor} {w : Window}

/-- The attributes of a chain are read through a cursor that shows its window. -/
theorem checkedAttributes_of_shows (h : c.Shows w) (headSize : Nat) :
    checkedAttributes headSize c = .ok (⟨w, headSize⟩ : Chain).attributes := by
  obtain ⟨last, hwalk, -⟩ := (checkedFraming headSize).walk_of_shows h
  rw [checkedAttributes, hwalk, Checked.ok_bind]
  dsimp only
  rw [List.map_map]
  rfl

/-- The first attribute with a type is found through a cursor that shows the window of the chain. -/
theorem checkedFind?_of_shows (h : c.Shows w) (headSize : Nat) (type : UInt16) :
    checkedFind? headSize c type = .ok ((⟨w, headSize⟩ : Chain).find? type) := by
  rw [checkedFind?, (checkedFraming headSize).find?_of_shows h, Checked.ok_bind, find?, attributes,
    List.find?_map, List.find?_map, Option.map_map]
  rfl

end Chain

namespace Layout

/-- The attributes start at an offset that can be added up in sixty-four bits. -/
def InReach (l : Layout) : Prop := Header.size + l.familySize + alignment < UInt64.size

instance (l : Layout) : Decidable l.InReach :=
  inferInstanceAs (Decidable (Header.size + l.familySize + alignment < UInt64.size))

/-- The cursor on the attributes of a message, up to the length that its header says. -/
def checkedChain (l : Layout) (m : Message) : Checked Cursor := do
  let size ← Checked.sum Header.size l.familySize
  let offset ← Cursor.align size
  return .ofRange m.octets offset (m.header.length.toNat - offset)

/-- All attributes of a message. -/
def checkedAttributes (l : Layout) (m : Message) : Checked (List Attribute) := do
  Chain.checkedAttributes l.headSize (← l.checkedChain m)

/-- The first attribute of a message that is of the given type. -/
def checkedFind? (l : Layout) (m : Message) (type : UInt16) : Checked (Option Attribute) := do
  Chain.checkedFind? l.headSize (← l.checkedChain m) type

/-- Attributes of route messages are in reach. -/
theorem inReach_route : route.InReach := by decide

/-- Attributes of netfilter messages are in reach. -/
theorem inReach_netfilter : netfilter.InReach := by decide

/-- The cursor on the attributes of a whole message is opened without an access that fails, and
shows the window on them. -/
theorem checkedChain_of_inReach {l : Layout} (hl : l.InReach) {m : Message} (hm : m.Whole) :
    ∃ c, l.checkedChain m = .ok c ∧ c.Shows (Chain.ofMessage l m).window := by
  have hsum : Header.size + l.familySize < UInt64.size := by
    rw [InReach] at hl
    omega
  refine ⟨_, ?_, Cursor.shows_ofRange hm.2 _ _⟩
  rw [checkedChain, Checked.sum_eq hsum, Checked.ok_bind, Cursor.align_eq hl]
  rfl

end Layout

/-! ### Messages -/

namespace Message

/-- Payload, acknowledgement and attributes of a message are read within its record. -/
structure Contained (m : Message) : Prop where
  payload : m.checkedPayload.map some = .ok m.payload?
  acknowledgement : Acknowledgement.checkedOfMessage m = .ok (Acknowledgement.ofMessage m)
  attributes : ∀ l : Layout, l.InReach →
    l.checkedAttributes m = .ok (Chain.ofMessage l m).attributes
  find : ∀ l : Layout, l.InReach → ∀ type,
    l.checkedFind? m type = .ok ((Chain.ofMessage l m).find? type)

/-- **A message that is whole is read within its record**, whatever length its header says. -/
theorem contained_of_whole {m : Message} (hm : m.Whole) : m.Contained where
  payload := by
    rw [checkedPayload_eq hm, payload?_of_whole hm]
    rfl
  acknowledgement := Acknowledgement.checkedOfMessage_eq hm
  attributes l hl := by
    obtain ⟨c, hchain, hshows⟩ := l.checkedChain_of_inReach hl hm
    rw [Layout.checkedAttributes, hchain, Checked.ok_bind,
      Chain.checkedAttributes_of_shows hshows]
    rfl
  find l hl type := by
    obtain ⟨c, hchain, hshows⟩ := l.checkedChain_of_inReach hl hm
    rw [Layout.checkedFind?, hchain, Checked.ok_bind, Chain.checkedFind?_of_shows hshows]
    rfl

/-- The header of a message has no part in whether its record is whole. -/
theorem Whole.withHeader {m : Message} (hm : m.Whole) (h : Header) :
    { m with header := h }.Whole := hm

end Message

end Netlink
