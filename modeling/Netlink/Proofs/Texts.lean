import Mathlib.Data.List.TakeWhile
import Netlink.Proofs.Finishing

/-!
# Texts Are Read Back

A text is drafted as its octets and a zero octet, and read from a value up to its first zero
octet. A text may hold the character NUL, and its octet is zero. No other character has a zero
octet, so the first zero octet of a text is its first NUL, and what stands before it ends at
the end of a character: the octets cut there are a text again (`Utf8.takeWhile_encode`). So the
text read back is the drafted one up to its first NUL, and reading never fails for want of the
rest of a character.

## Main results

* `Utf8.takeWhile_encode`: cutting the octets at the first zero cuts the text at the first NUL.
* `Attribute.exists_split_text?`: what is read from any value.
* `Draft.text_returns`: **a text that was drafted is found and read up to its first NUL.**
-/

namespace Netlink

/-! ### Octets of characters -/

namespace Utf8

/-- The text before the first NUL, or all of it if it has none. -/
def beforeNul (s : String) : String := String.ofList (s.toList.takeWhile (· ≠ '\x00'))

/-- The octets of a text made of characters are those of the characters, one after the other. -/
theorem encode_ofList (cs : List Char) :
    encode (String.ofList cs) = cs.flatMap String.utf8EncodeChar := by
  rw [encode, String.toUTF8_eq_toByteArray, String.toByteArray_ofList, List.utf8Encode,
    List.toList_data_toByteArray]

/-- The octets of any text are those of its characters, one after the other. -/
theorem encode_eq_flatMap (s : String) : encode s = s.toList.flatMap String.utf8EncodeChar := by
  rw [← encode_ofList, String.ofList_toList]

/-- A number that fits into an octet and is not zero is not the octet zero. -/
theorem ofNat_ne_zero {n : Nat} (hpos : 0 < n) (hlt : n < UInt8.size) : UInt8.ofNat n ≠ 0 := by
  intro hzero
  have htoNat := congrArg UInt8.toNat hzero
  rw [UInt8.toNat_ofNat_of_lt' hlt] at htoNat
  exact Nat.ne_of_gt hpos htoNat

/-- **Only NUL has a zero octet.** The octets of a longer character all have their high bit
set. -/
theorem ne_zero_of_mem_utf8EncodeChar {c : Char} (hc : c ≠ '\x00') {b : UInt8}
    (hb : b ∈ String.utf8EncodeChar c) : b ≠ 0 := by
  have hcode : 0 < c.val.toNat :=
    Nat.pos_of_ne_zero fun hzero => hc (Char.ext (UInt32.toNat_inj.1 hzero))
  have hsize : UInt8.size = 256 := rfl
  simp only [String.utf8EncodeChar] at hb
  split_ifs at hb <;> simp only [List.mem_cons, List.not_mem_nil, or_false] at hb
  · rw [hb]
    exact ofNat_ne_zero hcode (by omega)
  -- The octets of longer characters carry their mark in the high bits.
  · rcases hb with rfl | rfl <;> exact ofNat_ne_zero (by omega) (by omega)
  · rcases hb with rfl | rfl | rfl <;> exact ofNat_ne_zero (by omega) (by omega)
  · rcases hb with rfl | rfl | rfl | rfl <;> exact ofNat_ne_zero (by omega) (by omega)

/-- NUL is the octet zero alone. -/
theorem utf8EncodeChar_nul : String.utf8EncodeChar '\x00' = [0] := by decide

/-- Cutting at the first zero octet, character by character. -/
theorem takeWhile_flatMap (cs : List Char) :
    (cs.flatMap String.utf8EncodeChar).takeWhile (· != 0)
      = (cs.takeWhile (· ≠ '\x00')).flatMap String.utf8EncodeChar := by
  induction cs with
  | nil => rfl
  | cons c cs ih =>
      by_cases hc : c = '\x00'
      · subst hc
        rw [List.flatMap_cons, utf8EncodeChar_nul, List.takeWhile_cons_of_neg (by simp)]
        rfl
      · have hmarked : ∀ b ∈ String.utf8EncodeChar c, b != 0 := fun b hb =>
          bne_iff_ne.2 (ne_zero_of_mem_utf8EncodeChar hc hb)
        rw [List.flatMap_cons, List.takeWhile_append_of_pos hmarked, ih,
          List.takeWhile_cons_of_pos (by simpa using hc), List.flatMap_cons]

/-- **Cutting the octets of a text at the first zero cuts the text at its first NUL.** -/
theorem takeWhile_encode (s : String) :
    (encode s).takeWhile (· != 0) = encode (beforeNul s) := by
  rw [encode_eq_flatMap, takeWhile_flatMap, beforeNul, encode_ofList]

/-- Octets are a text exactly if they are valid UTF-8. -/
theorem isSome_decode?_iff {bs : Bytes} :
    (decode? bs).isSome ↔ ByteArray.IsValidUTF8 ⟨bs.toArray⟩ := by
  rw [decode?, String.fromUTF8?]
  split <;> simp_all

end Utf8

/-! ### Reading a value -/

namespace Attribute

/-- One more zero at the end does not change what stands before the first. -/
theorem takeWhile_append_zero (bs : Bytes) :
    (bs ++ [0]).takeWhile (· != 0) = bs.takeWhile (· != 0) := by
  induction bs with
  | nil => rfl
  | cons b bs ih => rw [List.cons_append, List.takeWhile_cons, List.takeWhile_cons, ih]

/-- A value that a text was drafted with is read as that text up to its first NUL. -/
theorem text?_of_value {a : Attribute} {s : String} (ha : a.value = textValue s) :
    a.text? = some (Utf8.beforeNul s) := by
  rw [text?, ha, textValue, takeWhile_append_zero, Utf8.takeWhile_encode, Utf8.decode?_encode]

/-- **What is read from any value.** Its octets fall into those before the first zero octet and
the rest, which is empty if there is none. The octets in front are read as a text exactly if they
are valid UTF-8, and then as the text that they are the octets of. -/
theorem exists_split_text? (a : Attribute) :
    ∃ front rest, a.value = front ++ rest ∧ 0 ∉ front ∧ (rest = [] ∨ ∃ tail, rest = 0 :: tail) ∧
      (a.text?.isSome ↔ ByteArray.IsValidUTF8 ⟨front.toArray⟩) ∧
      ∀ u, a.text? = some u ↔ Utf8.encode u = front := by
  refine ⟨a.value.takeWhile (· != 0), a.value.dropWhile (· != 0),
    List.takeWhile_append_dropWhile.symm, ?_, ?_, Utf8.isSome_decode?_iff,
    fun u => Utf8.decode?_eq_some_iff.trans eq_comm⟩
  · intro hzero
    exact absurd (List.mem_takeWhile_imp hzero) (by decide)
  · cases hrest : a.value.dropWhile (· != 0) with
    | nil => exact .inl rfl
    | cons b tail =>
        have hstop := List.head?_dropWhile_not (· != 0) a.value
        rw [hrest] at hstop
        obtain rfl : b = 0 := by simpa using hstop
        exact .inr ⟨tail, rfl⟩

end Attribute

/-! ### Drafting a text -/

namespace Draft

/-- The first attribute of a type is the one found, if none of that type stands before it. -/
theorem find?_text {t : UInt16} {s : String} {before : List Step}
    (hbefore : ∀ a ∈ before.filterMap Step.attribute?, a.head.type ≠ t) (after : List Step) :
    ((before ++ .text t s :: after).filterMap Step.attribute?).find? (·.head.type = t)
      = some (.ofValue t (Attribute.textValue s)) := by
  have hnone : (before.filterMap Step.attribute?).find? (·.head.type = t) = none :=
    List.find?_eq_none.2 fun a ha => by simpa using hbefore a ha
  rw [List.filterMap_append, List.find?_append, hnone, Option.none_or]
  exact List.find?_cons_of_pos (decide_eq_true rfl)

/-- **A text that was drafted is found and read up to its first NUL.**

* Let a text have at most 65530 octets. After a whole family header and attributes of other types
  it is drafted, then more attributes, and the message is below thirty-two bits of length. Then no
  step fails, the text's attribute is the one found, its value is the octets of the text and a zero
  octet, and it is read as the text up to its first NUL.
* A text of more octets is refused, whatever the draft.
* Of any value, the octets before the first zero octet are read: as a text if they are valid
  UTF-8, and as the text that they are the octets of. -/
theorem text_returns (t : UInt16) (s : String) :
    ((Utf8.encode s).length ≤ 65530 →
      ∀ {l : Layout} {d : Draft} {body : Bytes} {before after : List Step},
        l.headSize ≤ 4 → d.payload = [] → body.length = l.familySize →
        (∀ b, .body b ∉ before ++ after) → (∀ r ∈ before ++ after, r.Fits) →
        (∀ a ∈ before.filterMap Step.attribute?, a.head.type ≠ t) →
        16 + (appended (.body body :: (before ++ .text t s :: after))).length < 2 ^ 32 →
        ∃ d' a, d.steps (.body body :: (before ++ .text t s :: after)) = .ok d' ∧
          (Chain.ofMessage l d'.finish).find? t = some a ∧
          a.value = Utf8.encode s ++ [0] ∧
          a.text? = some (String.ofList (s.toList.takeWhile (· ≠ '\x00')))) ∧
    (65530 < (Utf8.encode s).length →
      ∀ d : Draft, d.addText t s = .error (.tooLarge ((Utf8.encode s).length + 1) 65531)) ∧
    ∀ a : Attribute, ∃ front rest, a.value = front ++ rest ∧ 0 ∉ front ∧
      (rest = [] ∨ ∃ tail, rest = 0 :: tail) ∧
      (a.text?.isSome ↔ ByteArray.IsValidUTF8 ⟨front.toArray⟩) ∧
      ∀ u, a.text? = some u ↔ Utf8.encode u = front := by
  have hlength : (Attribute.textValue s).length = (Utf8.encode s).length + 1 :=
    List.length_append
  refine ⟨?_, ?_, Attribute.exists_split_text?⟩
  · intro hshort l d body before after hl hd hbody hss hfits hbefore hsize
    have htext : (Step.text t s).Fits := by
      rintro a ⟨⟩
      change (Attribute.textValue s).length ≤ 65531
      omega
    have hss' : ∀ b, .body b ∉ before ++ .text t s :: after := by
      intro b hb
      refine hss b ?_
      simpa using hb
    have hfits' : ∀ r ∈ before ++ .text t s :: after, r.Fits := by
      intro r hr
      rcases List.mem_append.1 hr with hr | hr
      · exact hfits r (List.mem_append_left _ hr)
      · rcases List.mem_cons.1 hr with rfl | hr
        · exact htext
        · exact hfits r (List.mem_append_right _ hr)
    obtain ⟨d', hsteps, -, hholds⟩ := holds_of_steps hl hd hbody hss' hfits' hsize
    refine ⟨d', .ofValue t (Attribute.textValue s), hsteps, ?_, rfl,
      Attribute.text?_of_value rfl⟩
    rw [hholds.find?_eq, find?_text hbefore]
  · intro hlong d
    rw [← hlength]
    refine addValue_error_iff.2 ⟨?_, rfl⟩
    change 65531 < _
    omega

/-- The name of a link with a NUL in it, after a word and before another name. -/
theorem text_returns_link :
    ∃ d' a, (dumpRequest .newLink).steps (.body (default : LinkInfo).encode ::
          ([.word 4 1500] ++ .text 3 "lo\x00x" :: [.text 3 "eth0"])) = .ok d' ∧
        (Chain.ofMessage .route d'.finish).find? 3 = some a ∧
        a.value = [108, 111, 0, 120, 0] ∧ a.text? = some "lo" := by
  have hfits : ∀ r ∈ ([.word 4 1500] ++ [.text 3 "eth0"] : List Step), r.Fits := by decide
  exact (text_returns 3 "lo\x00x").1 (by decide) (by decide) rfl rfl (by simp) hfits (by decide)
    (by decide)

end Draft

end Netlink
