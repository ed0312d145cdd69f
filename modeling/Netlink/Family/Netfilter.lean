import Netlink.Family.Layout

/-!
# Netfilter Messages

The header of messages to and from the packet filter: address family, version and resource,
the last most significant octet first.

Main statement: a header is read exactly where one was written
(`NetfilterInfo.read?_eq_some_iff`).
-/

namespace Netlink

/-- The family header of a netfilter message. -/
structure NetfilterInfo where
  /-- Address family. -/
  family : UInt8
  /-- Version of the protocol. -/
  version : UInt8
  /-- Number of the resource. -/
  resource : UInt16
  deriving DecidableEq, Inhabited, Repr

namespace NetfilterInfo

/-- Size of the header in octets. -/
def size : Nat := 4

/-- The only version there is. -/
def version₀ : UInt8 := 0

/-- The octets of the header. -/
def encode (i : NetfilterInfo) : Bytes := [i.family, i.version] ++ Word.be16 i.resource

/-- Splits the header off the front. -/
def read? (bs : Bytes) : Option (NetfilterInfo × Bytes) := do
  let (family, bs) ← Word.octet? bs
  let (version, bs) ← Word.octet? bs
  let (resource, bs) ← Word.be16? bs
  return (⟨family, version, resource⟩, bs)

/-- The header at the front of a run of octets. -/
def decode (bs : Bytes) : Except Fault NetfilterInfo :=
  match read? bs with
  | some (i, _) => .ok i
  | none => .error (.tooShort size bs.length)

/-- The header of a netfilter message has a fixed size. -/
@[simp] theorem length_encode (i : NetfilterInfo) : i.encode.length = size := by
  simp [encode, size]

/-- The header of a netfilter message is read just where its octets stand. -/
theorem read?_eq_some_iff {bs : Bytes} {i : NetfilterInfo} {rest : Bytes} :
    read? bs = some (i, rest) ↔ bs = i.encode ++ rest := by
  simp only [read?, encode, Option.bind_eq_bind, Option.bind_eq_some_iff, Prod.exists,
    Word.octet?_eq_some_iff, Word.be16?_eq_some_iff, Option.pure_def, Option.some.injEq,
    Prod.mk.injEq]
  constructor
  · rintro ⟨_, _, rfl, _, _, rfl, _, _, rfl, rfl, rfl⟩
    rfl
  · rintro rfl
    exact ⟨_, _, rfl, _, _, rfl, _, _, rfl, rfl, rfl⟩

/-- Four octets or more start with a header. -/
theorem exists_encode_append {bs : Bytes} (hsize : size ≤ bs.length) :
    ∃ (i : NetfilterInfo) (rest : Bytes), bs = i.encode ++ rest := by
  rw [size] at hsize
  match bs, hsize with
  | family :: version :: bs, hsize =>
    have hrest : 2 ≤ bs.length := Nat.le_of_add_le_add_right (b := 2) hsize
    obtain ⟨resource, rest, rfl, -⟩ := Word.exists_be16_append bs hrest
    exact ⟨⟨family, version, resource⟩, rest, rfl⟩

end NetfilterInfo

/-- Netfilter attributes, which follow the header of a netfilter message. -/
def Layout.netfilter : Layout := { familySize := NetfilterInfo.size }

end Netlink
