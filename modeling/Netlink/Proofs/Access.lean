import Netlink.Message.Acknowledgement
import Netlink.Attribute.Basic

/-!
# Checked Accesses

The operations of this library take octets off the front of a run, so none of them can reach
outside it. With a buffer and offsets into it this is not so: offsets are added in sixty-four
bits, an octet is looked up by its index, and a range is cut out between two offsets. Here
each of these is an access that fails if it is not within its buffer. The parts of a message
that have a fixed size are read by such accesses, and none of them fails.

## Main results

* `Checked.sum_eq`, `Checked.range_eq`: what is within the bounds succeeds.
* `Header.checkedDecode_eq`, `Attribute.Head.checkedDecode?_eq`,
  `Acknowledgement.checkedDecode_eq`: reading a fixed part by its indices never fails, and
  gives what reading it from the front gives.
* `Attribute.checkedWord?_eq`, `Attribute.checkedText?_eq`: so does reading a value.
-/

namespace Netlink

/-- Why an access fails. -/
inductive Overrun where
  /-- The sum of two offsets does not fit into sixty-four bits. -/
  | sum (a b : Nat)
  /-- There is no octet at the index. -/
  | index (i size : Nat)
  /-- The range does not lie within the buffer. -/
  | range (start stop size : Nat)
  deriving DecidableEq, Repr

/-- What is done by accesses, each of which may fail. -/
abbrev Checked := Except Overrun

namespace Checked

variable {bs : Bytes}

/-! ### Accesses -/

/-- The sum of two offsets. -/
def sum (a b : Nat) : Checked Nat :=
  if a + b < UInt64.size then .ok (a + b) else .error (.sum a b)

/-- The octet at an index. -/
def octet (bs : Bytes) (i : Nat) : Checked UInt8 :=
  match bs[i]? with
  | some b => .ok b
  | none => .error (.index i bs.length)

/-- The octets from one offset up to another. -/
def range (bs : Bytes) (start stop : Nat) : Checked Bytes :=
  if start ≤ stop ∧ stop ≤ bs.length then .ok ((bs.drop start).take (stop - start))
  else .error (.range start stop bs.length)

/-- A sum that fits into sixty-four bits is computed. -/
theorem sum_eq {a b : Nat} (h : a + b < UInt64.size) : sum a b = .ok (a + b) := if_pos h

/-- A range that lies within the buffer is cut out of it. -/
theorem range_eq {start stop : Nat} (h : start ≤ stop) (hstop : stop ≤ bs.length) :
    range bs start stop = .ok ((bs.drop start).take (stop - start)) := if_pos ⟨h, hstop⟩

@[simp] theorem ok_bind {α β : Type} (a : α) (f : α → Checked β) :
    (Except.ok a >>= f : Checked β) = f a := rfl

@[simp] theorem pure_eq_ok {α : Type} (a : α) : (pure a : Checked α) = .ok a := rfl

/-- What was done first succeeded if all did. -/
theorem bind_eq_ok_iff {α β : Type} {x : Checked α} {f : α → Checked β} {b : β} :
    x >>= f = .ok b ↔ ∃ a, x = .ok a ∧ f a = .ok b := by
  cases x <;> simp [bind, Except.bind]

/-- A sum that is computed is the sum. -/
theorem sum_eq_ok {a b n : Nat} (h : sum a b = .ok n) : n = a + b := by
  rw [sum] at h
  split at h
  · exact (Except.ok.inj h).symm
  · cases h

/-! ### Words -/

/-- The `n` octets from an index on, one by one. -/
def octets (bs : Bytes) (i : Nat) : Nat → Checked Bytes
  | 0 => .ok []
  | n + 1 => do
    let b ← octet bs i
    let later ← octets bs (i + 1) n
    return b :: later

/-- The little-endian word of sixteen bits at an index. -/
def le16 (bs : Bytes) (i : Nat) : Checked UInt16 := do
  return .ofNat (Word.value (← octets bs i 2))

/-- The little-endian word of thirty-two bits at an index. -/
def le32 (bs : Bytes) (i : Nat) : Checked UInt32 := do
  return .ofNat (Word.value (← octets bs i 4))

/-- A word of sixteen bits is read at an index where its octets stand. -/
theorem le16_eq {i : Nat} {x : UInt16} (h : octets bs i 2 = .ok (Word.le16 x)) :
    le16 bs i = .ok x := by
  rw [le16, h]
  exact congrArg Except.ok (by rw [Word.value_le16, UInt16.ofNat_toNat])

/-- A word of thirty-two bits is read at an index where its octets stand. -/
theorem le32_eq {i : Nat} {x : UInt32} (h : octets bs i 4 = .ok (Word.le32 x)) :
    le32 bs i = .ok x := by
  rw [le32, h]
  exact congrArg Except.ok (by rw [Word.value_le32, UInt32.ofNat_toNat])

/-- A reader that accepts only what was written refuses what is too short to be that. -/
theorem read?_of_short {α : Type} {read? : Bytes → Option (α × Bytes)} {encode : α → Bytes}
    {size : Nat} (hread : ∀ {bs a rest}, read? bs = some (a, rest) → bs = encode a ++ rest)
    (hencode : ∀ a, (encode a).length = size) (h : bs.length < size) : read? bs = none := by
  cases hr : read? bs with
  | none => rfl
  | some found =>
      obtain ⟨a, rest⟩ := found
      rw [hread hr, List.length_append, hencode] at h
      omega

end Checked

/-! ### Headers -/

namespace Header

/-- The header at the front of a run of octets, read by its indices. -/
def checkedDecode (bs : Bytes) : Checked (Except Fault Header) :=
  if bs.length < size then
    .ok (.error (.tooShort size bs.length))
  else do
    let length ← Checked.le32 bs 0
    let kind ← Checked.le16 bs 4
    let flags ← Checked.le16 bs 6
    let sequence ← Checked.le32 bs 8
    let portId ← Checked.le32 bs 12
    return .ok ⟨length, ⟨kind⟩, ⟨flags⟩, sequence, portId⟩

/-- A header is decoded from its octets, whatever follows them. -/
theorem decode_encode_append (h : Header) (rest : Bytes) : decode (h.encode ++ rest) = .ok h := by
  rw [decode, read?_eq_some_iff.2 rfl]

/-- A header is decoded by its indices from its octets, and no access fails on the way. -/
theorem checkedDecode_encode_append (h : Header) (rest : Bytes) :
    checkedDecode (h.encode ++ rest) = .ok (.ok h) := by
  -- The octets of a header are a list of sixteen, so each lookup in it computes.
  have hlength : Checked.le32 (h.encode ++ rest) 0 = .ok h.length := Checked.le32_eq rfl
  have hkind : Checked.le16 (h.encode ++ rest) 4 = .ok h.kind.code := Checked.le16_eq rfl
  have hflags : Checked.le16 (h.encode ++ rest) 6 = .ok h.flags.bits := Checked.le16_eq rfl
  have hsequence : Checked.le32 (h.encode ++ rest) 8 = .ok h.sequence := Checked.le32_eq rfl
  have hportId : Checked.le32 (h.encode ++ rest) 12 = .ok h.portId := Checked.le32_eq rfl
  have hsize : ¬(h.encode ++ rest).length < size := by
    rw [List.length_append, length_encode]
    omega
  rw [checkedDecode, if_neg hsize, hlength, hkind, hflags, hsequence, hportId]
  rfl

/-- No index of a header is missed. -/
theorem checkedDecode_eq (bs : Bytes) : checkedDecode bs = .ok (decode bs) := by
  by_cases hsize : bs.length < size
  · rw [checkedDecode, if_pos hsize, decode, read?_eq_none_iff.2 hsize]
  · obtain ⟨h, rest, rfl⟩ := exists_encode_append (Nat.le_of_not_lt hsize)
    rw [checkedDecode_encode_append, decode_encode_append]

end Header

/-! ### Attributes -/

namespace Attribute

/-- The head at the front of a run of octets, read by its indices. -/
def Head.checkedDecode? (bs : Bytes) : Checked (Option Head) :=
  if bs.length < headSize then
    .ok none
  else do
    let front := bs.take headSize
    let length ← Checked.le16 front 0
    let type ← Checked.le16 front 2
    return some ⟨length, type⟩

/-- No index of a head is missed. -/
theorem Head.checkedDecode?_eq (bs : Bytes) : checkedDecode? bs = .ok (decode? bs) := by
  by_cases hsize : bs.length < headSize
  · have hnone : read? bs = none :=
      Checked.read?_of_short read?_eq_some_iff.1 length_encode hsize
    rw [checkedDecode?, if_pos hsize, decode?, hnone]
    rfl
  · obtain ⟨head, rest, rfl⟩ := exists_encode_append (Nat.le_of_not_lt hsize)
    have hlength : Checked.le16 ((head.encode ++ rest).take headSize) 0 = .ok head.length :=
      Checked.le16_eq rfl
    have htype : Checked.le16 ((head.encode ++ rest).take headSize) 2 = .ok head.type :=
      Checked.le16_eq rfl
    rw [checkedDecode?, if_neg hsize, decode?, read?_eq_some_iff.2 rfl]
    dsimp only
    rw [hlength, Checked.ok_bind, htype]
    rfl

/-- The little-endian word at the front of the value, read by its indices. -/
def checkedWord? (a : Attribute) : Checked (Option UInt32) :=
  if a.value.length < 4 then .ok none else do return some (← Checked.le32 (a.value.take 4) 0)

/-- The text of the value, cut out up to its first zero octet. -/
def checkedText? (a : Attribute) : Checked (Option String) := do
  return Utf8.decode? (← Checked.range a.value 0 (a.value.findIdx (· == 0)))

/-- The word in an attribute is read without an access that fails. -/
theorem checkedWord?_eq (a : Attribute) : a.checkedWord? = .ok a.word? := by
  by_cases hsize : a.value.length < 4
  · rw [checkedWord?, if_pos hsize, word?, Word.le32?_eq_none_iff.2 hsize]
    rfl
  · obtain ⟨x, rest, hvalue, -⟩ := Word.exists_le32_append a.value (Nat.le_of_not_lt hsize)
    have hx : Checked.le32 (a.value.take 4) 0 = .ok x := by
      rw [hvalue]
      exact Checked.le32_eq rfl
    rw [checkedWord?, if_neg hsize, hx, word?, Word.le32?_eq_some_iff.2 hvalue]
    rfl

/-- The text in an attribute is read without an access that fails. -/
theorem checkedText?_eq (a : Attribute) : a.checkedText? = .ok a.text? := by
  have hend : a.value.findIdx (· == 0) ≤ a.value.length := List.findIdx_le_length
  have htext : a.value.takeWhile (· != 0) = a.value.take (a.value.findIdx (· == 0)) := by
    rw [List.takeWhile_eq_take_findIdx_not]
    simp only [bne, Bool.not_not]
  rw [checkedText?, Checked.range_eq (Nat.zero_le _) hend, text?, htext]
  rfl

end Attribute

/-! ### Messages -/

namespace Message

/-- A message is whole if its record is at least as long as a header, and no longer than a buffer
can be. Nothing is said of the length in its header. -/
def Whole (m : Message) : Prop := Header.size ≤ m.octets.length ∧ m.octets.length < UInt64.size

/-- The octets after the header, cut out of the record. -/
def checkedPayload (m : Message) : Checked Bytes :=
  Checked.range m.octets Header.size m.octets.length

/-- A message that is whole has a payload, which starts after its header. -/
theorem payload?_of_whole {m : Message} (hm : m.Whole) :
    m.payload? = some (m.octets.drop Header.size) := if_pos hm.1

/-- The payload of a message that is whole is cut out of the record within its bounds. -/
theorem checkedPayload_eq {m : Message} (hm : m.Whole) :
    m.checkedPayload = .ok (m.octets.drop Header.size) := by
  have hrest : (m.octets.drop Header.size).length ≤ m.octets.length - Header.size :=
    Nat.le_of_eq List.length_drop
  rw [checkedPayload, Checked.range_eq hm.1 (Nat.le_refl _), List.take_of_length_le hrest]

end Message

namespace Acknowledgement

/-- The acknowledgement at the front of a run of octets, read by its indices; the header in it
is cut out first. -/
def checkedDecode (bs : Bytes) : Checked (Except Fault Acknowledgement) :=
  if bs.length < size then
    .ok (.error (.tooShort size bs.length))
  else do
    let status ← Checked.le32 bs 0
    let echo ← Checked.range bs 4 size
    let request ← Header.checkedDecode echo
    return request.map fun request => ⟨status.toInt32, request⟩

/-- The acknowledgement that a message carries. -/
def checkedOfMessage (m : Message) : Checked (Except Fault Acknowledgement) :=
  if !m.isError then
    .ok (.error (.breach (.kind .error m.header.kind)))
  else do
    let payload ← m.checkedPayload
    if payload.length < size then
      return .error (.breach (.shortError m.header.length))
    else
      checkedDecode payload

/-- An acknowledgement is decoded by its indices as it is from the front. -/
theorem checkedDecode_eq (bs : Bytes) : checkedDecode bs = .ok (decode bs) := by
  by_cases hsize : bs.length < size
  · have hnone : read? bs = none :=
      Checked.read?_of_short read?_eq_some_iff.1 length_encode hsize
    rw [checkedDecode, if_pos hsize, decode, hnone]
  · obtain ⟨a, rest, rfl⟩ := exists_encode_append (Nat.le_of_not_lt hsize)
    have hstatus : Checked.le32 (a.encode ++ rest) 0 = .ok a.status.toUInt32 := Checked.le32_eq rfl
    have hecho : Checked.range (a.encode ++ rest) 4 size = .ok a.request.encode :=
      Checked.range_eq (by decide) (Nat.le_of_not_lt hsize)
    have hrequest : Header.checkedDecode a.request.encode = .ok (.ok a.request) := by
      have := Header.checkedDecode_encode_append a.request []
      rwa [List.append_nil] at this
    rw [checkedDecode, if_neg hsize, hstatus, Checked.ok_bind, hecho, Checked.ok_bind, hrequest,
      decode, read?_eq_some_iff.2 rfl]
    rfl

/-- The acknowledgement of a message that is whole is read without an access that fails. -/
theorem checkedOfMessage_eq {m : Message} (hm : m.Whole) :
    checkedOfMessage m = .ok (ofMessage m) := by
  rw [checkedOfMessage, ofMessage, Message.checkedPayload_eq hm, Message.payload?_of_whole hm,
    Checked.ok_bind, Option.getD_some]
  split
  · rfl
  · split
    · rfl
    · exact checkedDecode_eq _

end Acknowledgement

end Netlink
