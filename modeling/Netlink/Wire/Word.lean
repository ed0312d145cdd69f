/-!
# Words on the Wire

A message is a run of octets, and its fields are words of two or four octets. This module
writes words and reads them back.

* `Word.digits` and `Word.value` relate a number to its octets, least significant first,
  for every width.
* A `Word.Coding` says how the words of a type stand on the wire: how many octets, and which of
  them comes first. `Word.Coding.encode` writes a word, and `Word.Coding.read?` splits one off the
  front of a run and returns what follows it.
* `Word.le16`, `Word.le32` and `Word.be16`, and the readers `Word.le16?`, `Word.le32?` and
  `Word.be16?`, are the three codings that messages use.

Main statements: of every coding, a reader accepts exactly what the writer of its word produces
(`Word.Coding.read?_eq_some_iff`), and refuses exactly the runs that are too short
(`Word.Coding.read?_eq_none_iff`).
-/

namespace Netlink

/-- A run of octets, first octet first. -/
abbrev Bytes := List UInt8

namespace Word

/-! ### Numbers and their octets -/

/-- The `width` low octets of `n`, least significant first. -/
def digits : Nat → Nat → Bytes
  | 0, _ => []
  | width + 1, n => UInt8.ofNat n :: digits width (n / 256)

/-- The number whose octets, least significant first, are `bs`. -/
def value : Bytes → Nat
  | [] => 0
  | b :: bs => b.toNat + 256 * value bs

/-- A number is written with as many digits as it is given. -/
@[simp] theorem length_digits (width n : Nat) : (digits width n).length = width := by
  induction width generalizing n with
  | zero => rfl
  | succ width ih => simp [digits, ih]

/-- The value of some octets is below 256 to the power of their number. -/
theorem value_lt (bs : Bytes) : value bs < Nat.pow 256 bs.length := by
  induction bs with
  | nil => exact Nat.one_pos
  | cons b bs ih =>
    have hb : b.toNat < 256 := b.toNat_lt
    rw [value, List.length_cons, Nat.pow_eq, Nat.pow_succ]
    rw [Nat.pow_eq] at ih
    omega

/-- A number that these digits suffice for is their value. -/
theorem value_digits (width n : Nat) (h : n < Nat.pow 256 width) :
    value (digits width n) = n := by
  induction width generalizing n with
  | zero =>
    obtain rfl : n = 0 := Nat.lt_one_iff.1 h
    rfl
  | succ width ih =>
    have hd : n / 256 < Nat.pow 256 width := by
      rw [Nat.pow_eq, Nat.pow_succ] at h
      rw [Nat.pow_eq]
      omega
    simp only [digits, value, ih _ hd, UInt8.toNat_ofNat']
    omega

/-- Octets are the digits of their value. -/
theorem digits_value (bs : Bytes) : digits bs.length (value bs) = bs := by
  induction bs with
  | nil => rfl
  | cons b bs ih =>
    have hb : b.toNat < 256 := b.toNat_lt
    have hq : (b.toNat + 256 * value bs) / 256 = value bs := by omega
    have hr : UInt8.ofNat (b.toNat + 256 * value bs) = b := by
      apply UInt8.toNat_inj.1
      rw [UInt8.toNat_ofNat']
      omega
    simp only [List.length_cons, digits, value, hq, hr, ih]

/-! ### Words of any width -/

/-- Which octet of a word comes first. -/
inductive Order where
  | leastFirst
  | mostFirst
  deriving DecidableEq, Repr

/-- Brings octets from least significant first into an order, or back. -/
def Order.arrange : Order → Bytes → Bytes
  | leastFirst, bs => bs
  | mostFirst, bs => bs.reverse

/-- An order leaves as many octets as there were. -/
@[simp] theorem Order.length_arrange (order : Order) (bs : Bytes) :
    (order.arrange bs).length = bs.length := by
  cases order with
  | leastFirst => rfl
  | mostFirst => exact List.length_reverse

/-- Octets that are brought into an order and back are as they were. -/
@[simp] theorem Order.arrange_arrange (order : Order) (bs : Bytes) :
    order.arrange (order.arrange bs) = bs := by
  cases order with
  | leastFirst => rfl
  | mostFirst => exact List.reverse_reverse bs

/-- How the words of a type stand on the wire: their width in octets, and which octet comes first.
Every number of that width is a word. -/
structure Coding (α : Type) where
  width : Nat
  order : Order
  toNat : α → Nat
  ofNat : Nat → α
  toNat_lt : ∀ x, toNat x < Nat.pow 256 width
  ofNat_toNat : ∀ x, ofNat (toNat x) = x
  toNat_ofNat : ∀ {n}, n < Nat.pow 256 width → toNat (ofNat n) = n

namespace Coding

variable {α : Type}

/-- The octets of a word. -/
def encode (c : Coding α) (x : α) : Bytes := c.order.arrange (digits c.width (c.toNat x))

/-- Splits a word off the front. -/
def read? (c : Coding α) (bs : Bytes) : Option (α × Bytes) :=
  let front := bs.take c.width
  if front.length = c.width then
    some (c.ofNat (value (c.order.arrange front)), bs.drop c.width)
  else
    none

variable {c : Coding α} {bs rest : Bytes} {x : α}

/-- A word takes up as many octets as its coding says. -/
@[simp] theorem length_encode (c : Coding α) (x : α) : (c.encode x).length = c.width := by
  rw [encode, Order.length_arrange, length_digits]

/-- The octets of a word, least significant first, have its number. -/
theorem value_arrange_encode (c : Coding α) (x : α) :
    value (c.order.arrange (c.encode x)) = c.toNat x := by
  rw [encode, Order.arrange_arrange, value_digits c.width _ (c.toNat_lt x)]

/-- As many octets as the coding says are those of the word that has their number. -/
theorem encode_ofNat_value (h : bs.length = c.width) :
    c.encode (c.ofNat (value (c.order.arrange bs))) = bs := by
  have hlength : (c.order.arrange bs).length = c.width := (c.order.length_arrange bs).trans h
  have hlt := value_lt (c.order.arrange bs)
  rw [hlength] at hlt
  rw [encode, c.toNat_ofNat hlt, ← hlength, digits_value, Order.arrange_arrange]

/-- A word that was written is read, whatever follows it. -/
theorem read?_encode_append (c : Coding α) (x : α) (rest : Bytes) :
    c.read? (c.encode x ++ rest) = some (x, rest) := by
  have hfront : (c.encode x ++ rest).take c.width = c.encode x :=
    List.take_left' (c.length_encode x)
  have hdrop : (c.encode x ++ rest).drop c.width = rest := List.drop_left' (c.length_encode x)
  rw [read?, hfront, hdrop, value_arrange_encode, c.ofNat_toNat]
  exact if_pos (c.length_encode x)

/-- **A word is read exactly where one was written.** -/
theorem read?_eq_some_iff : c.read? bs = some (x, rest) ↔ bs = c.encode x ++ rest := by
  constructor
  · intro h
    rw [read?] at h
    split at h
    · next hlength =>
        obtain ⟨rfl, rfl⟩ := Prod.mk.inj (Option.some.inj h)
        rw [encode_ofNat_value hlength, List.take_append_drop]
    · cases h
  · rintro rfl
    exact c.read?_encode_append x rest

/-- **A word is refused exactly where too few octets are left.** -/
theorem read?_eq_none_iff : c.read? bs = none ↔ bs.length < c.width := by
  rw [read?, List.length_take]
  split
  · simp only [reduceCtorEq, false_iff]
    omega
  · simp only [true_iff]
    omega

/-- Octets enough for a word start with one. -/
theorem exists_encode_append (c : Coding α) (bs : Bytes) (h : c.width ≤ bs.length) :
    ∃ x rest, bs = c.encode x ++ rest ∧ rest.length = bs.length - c.width := by
  cases hread : c.read? bs with
  | none => exact absurd (read?_eq_none_iff.1 hread) (Nat.not_lt_of_le h)
  | some found =>
      obtain ⟨x, rest⟩ := found
      have hbs := read?_eq_some_iff.1 hread
      refine ⟨x, rest, hbs, ?_⟩
      rw [hbs, List.length_append, length_encode, Nat.add_sub_cancel_left]

/-- Words of sixteen bits, least significant octet first. -/
def le16 : Coding UInt16 where
  width := 2
  order := .leastFirst
  toNat := UInt16.toNat
  ofNat := UInt16.ofNat
  toNat_lt := UInt16.toNat_lt
  ofNat_toNat _ := UInt16.ofNat_toNat
  toNat_ofNat := UInt16.toNat_ofNat_of_lt'

/-- Words of thirty-two bits, least significant octet first. -/
def le32 : Coding UInt32 where
  width := 4
  order := .leastFirst
  toNat := UInt32.toNat
  ofNat := UInt32.ofNat
  toNat_lt := UInt32.toNat_lt
  ofNat_toNat _ := UInt32.ofNat_toNat
  toNat_ofNat := UInt32.toNat_ofNat_of_lt'

/-- Words of sixteen bits, most significant octet first. -/
def be16 : Coding UInt16 := { le16 with order := .mostFirst }

end Coding

/-! ### Words of sixteen and thirty-two bits -/

/-- A sixteen-bit word, least significant octet first. -/
def le16 (x : UInt16) : Bytes := Coding.le16.encode x

/-- A thirty-two-bit word, least significant octet first. -/
def le32 (x : UInt32) : Bytes := Coding.le32.encode x

/-- A sixteen-bit word, most significant octet first. -/
def be16 (x : UInt16) : Bytes := Coding.be16.encode x

/-- Splits one octet off the front. -/
def octet? : Bytes → Option (UInt8 × Bytes)
  | b :: rest => some (b, rest)
  | [] => none

/-- Splits a sixteen-bit word, least significant octet first, off the front. -/
def le16? (bs : Bytes) : Option (UInt16 × Bytes) := Coding.le16.read? bs

/-- Splits a thirty-two-bit word, least significant octet first, off the front. -/
def le32? (bs : Bytes) : Option (UInt32 × Bytes) := Coding.le32.read? bs

/-- Splits a sixteen-bit word, most significant octet first, off the front. -/
def be16? (bs : Bytes) : Option (UInt16 × Bytes) := Coding.be16.read? bs

@[simp] theorem length_le16 (x : UInt16) : (le16 x).length = 2 := Coding.le16.length_encode x

@[simp] theorem length_le32 (x : UInt32) : (le32 x).length = 4 := Coding.le32.length_encode x

@[simp] theorem length_be16 (x : UInt16) : (be16 x).length = 2 := Coding.be16.length_encode x

/-- The least significant octet of a little-endian word stands first. -/
@[simp] theorem value_le16 (x : UInt16) : value (le16 x) = x.toNat :=
  Coding.le16.value_arrange_encode x

@[simp] theorem value_le32 (x : UInt32) : value (le32 x) = x.toNat :=
  Coding.le32.value_arrange_encode x

/-- The least significant octet of a big-endian word stands last. -/
@[simp] theorem value_reverse_be16 (x : UInt16) : value (be16 x).reverse = x.toNat :=
  Coding.be16.value_arrange_encode x

/-- An octet is read exactly where there is one. -/
theorem octet?_eq_some_iff {bs : Bytes} {x : UInt8} {rest : Bytes} :
    octet? bs = some (x, rest) ↔ bs = x :: rest := by
  cases bs <;> simp [octet?]

/-- A little-endian sixteen-bit word is read exactly where one was written. -/
theorem le16?_eq_some_iff {bs : Bytes} {x : UInt16} {rest : Bytes} :
    le16? bs = some (x, rest) ↔ bs = le16 x ++ rest := Coding.read?_eq_some_iff

/-- A little-endian thirty-two-bit word is read exactly where one was written. -/
theorem le32?_eq_some_iff {bs : Bytes} {x : UInt32} {rest : Bytes} :
    le32? bs = some (x, rest) ↔ bs = le32 x ++ rest := Coding.read?_eq_some_iff

/-- A big-endian sixteen-bit word is read exactly where one was written. -/
theorem be16?_eq_some_iff {bs : Bytes} {x : UInt16} {rest : Bytes} :
    be16? bs = some (x, rest) ↔ bs = be16 x ++ rest := Coding.read?_eq_some_iff

/-- A thirty-two-bit word is refused exactly below four octets. -/
theorem le32?_eq_none_iff {bs : Bytes} : le32? bs = none ↔ bs.length < 4 :=
  Coding.read?_eq_none_iff

/-- Two octets or more start with a word. -/
theorem exists_le16_append (bs : Bytes) (h : 2 ≤ bs.length) :
    ∃ x rest, bs = le16 x ++ rest ∧ rest.length = bs.length - 2 :=
  Coding.le16.exists_encode_append bs h

/-- Two octets or more start with a word, whichever octet of it comes first. -/
theorem exists_be16_append (bs : Bytes) (h : 2 ≤ bs.length) :
    ∃ x rest, bs = be16 x ++ rest ∧ rest.length = bs.length - 2 :=
  Coding.be16.exists_encode_append bs h

/-- Four octets or more start with a word. -/
theorem exists_le32_append (bs : Bytes) (h : 4 ≤ bs.length) :
    ∃ x rest, bs = le32 x ++ rest ∧ rest.length = bs.length - 4 :=
  Coding.le32.exists_encode_append bs h

end Word

end Netlink
