import Mathlib.Algebra.Ring.Nat
import Netlink.Attribute.Chain
import Netlink.Family.Link
import Netlink.Proofs.Drafting

/-!
# Attributes Are Read Back

Three places must agree on where an attribute stands: the draft, which pads the payload as it
grows; the layout of the family, which says where the attributes start; and the chain, which
goes from each attribute to the next. They do, for every size of the family's header and every
length of the values.

## Main results

* `Chain.holds_of_window`: a window of padded attributes is read attribute by attribute, to
  the last octet.
* `Chain.window_ofMessage`: where the attributes of a message stand.
* `Draft.holds_ofMessage_finish`: **what was drafted is read back**, from the message and from
  its octets.
-/

namespace Netlink

/-! ### Reading a chain to its last octet -/

namespace Attribute

/-- The head of an attribute tells the length of its value. -/
def Exact (a : Attribute) : Prop := a.head.length.toNat = headSize + a.value.length

instance (a : Attribute) : Decidable a.Exact :=
  inferInstanceAs (Decidable (a.head.length.toNat = headSize + a.value.length))

/-- The entry of a chain that holds an attribute. -/
def entry (a : Attribute) : Framing.Entry Head := ⟨a.head, a.octets⟩

/-- An attribute takes up its head and its value. -/
theorem length_octets (a : Attribute) : a.octets.length = headSize + a.value.length := by
  rw [octets, List.length_append, Head.length_encode]

/-- The octets of a head are read as that head. -/
theorem Head.decode?_take_encode (h : Head) (rest : Bytes) :
    decode? ((h.encode ++ rest).take headSize) = some h := by
  have htake : (h.encode ++ rest).take headSize = h.encode := List.take_left' h.length_encode
  have hread : read? h.encode = some (h, []) := read?_eq_some_iff.2 (List.append_nil _).symm
  rw [htake, decode?, hread]
  rfl

/-- An attribute whose head tells its length is a proper entry of a chain with heads of at most four
octets. -/
theorem Exact.proper_entry {a : Attribute} (ha : a.Exact) {n : Nat} (hn : n ≤ headSize) :
    a.entry.Proper (Chain.framing n) := by
  have hsize : (Chain.framing n).headSize = headSize := Nat.max_eq_right hn
  refine ⟨?_, ?_, ?_⟩
  · rw [hsize]
    exact (length_octets a).symm ▸ Nat.le_add_right _ _
  · rw [hsize]
    exact a.head.decode?_take_encode a.value
  · exact ha.trans (length_octets a).symm

end Attribute

namespace Chain

/-- A chain holds these attributes and no more: they are read off it in order, then nothing
is, for ever, and no octet is left. -/
structure Holds (c : Chain) (as : List Attribute) : Prop where
  attributes_eq : c.walk.1.map (·.1) = as
  next?_eq : c.walk.2.next? = (none, c.walk.2)
  remaining_eq : c.walk.2.remaining = 0

/-- What a walk along a chain finds are its attributes. -/
theorem walk_fst_map_fst (c : Chain) : c.walk.1.map (·.1) = c.attributes := by
  simp [walk, attributes, Framing.entries, List.map_map, Function.comp_def]

/-- What it leaves is what the framing leaves of the window. -/
theorem walk_snd (c : Chain) :
    c.walk.2 = { c with window := (framing c.headSize).left c.window } := rfl

/-- The attribute of an entry is the one that the entry holds. -/
theorem ofEntry_entry {c : Chain} (hc : c.headSize ≤ Attribute.headSize) (a : Attribute) :
    c.ofEntry a.entry = a := by
  have hsize : (framing c.headSize).headSize = Attribute.headSize := Nat.max_eq_right hc
  have hdrop : a.octets.drop Attribute.headSize = a.value := List.drop_left' a.head.length_encode
  rw [ofEntry, hsize]
  exact congrArg (Attribute.mk a.head) hdrop

/-- The attributes of several entries are those that the entries hold. -/
theorem map_ofEntry_entry {c : Chain} (hc : c.headSize ≤ Attribute.headSize)
    (as : List Attribute) : (as.map Attribute.entry).map c.ofEntry = as := by
  rw [List.map_map]
  exact (List.map_congr_left fun a _ => ofEntry_entry hc a).trans (List.map_id as)

/-- A chain of which nothing is left holds the attributes that are read off it. -/
theorem holds_of_left {c : Chain} {position : Nat}
    (h : (framing c.headSize).left c.window = ⟨position, []⟩) : c.Holds c.attributes where
  attributes_eq := walk_fst_map_fst c
  next?_eq := by
    rw [walk_snd, h, next?, Framing.next?_nil]
    rfl
  remaining_eq := by
    rw [walk_snd, h]
    rfl

/-- **A window of padded attributes is read attribute by attribute**, to the last octet. -/
theorem holds_of_window {c : Chain} {as : List Attribute} {position : Nat}
    (hc : c.headSize ≤ Attribute.headSize) (has : ∀ a ∈ as, a.Exact)
    (hwindow : c.window = ⟨position, as.flatMap fun a => padded a.octets⟩) : c.Holds as := by
  have hproper : ∀ e ∈ as.map Attribute.entry, e.Proper (framing c.headSize) := by
    simpa using fun a ha => (has a ha).proper_entry hc
  have hchain : as.flatMap (fun a => padded a.octets)
      = (as.map Attribute.entry).flatMap (fun e => padded e.octets) ++ [] := by
    rw [List.append_nil, List.flatMap_map]
    rfl
  have hleft : ∃ last, (framing c.headSize).left c.window = ⟨last, []⟩ := by
    rw [hwindow, hchain, Framing.left_chain hproper, Framing.left_nil]
    exact ⟨_, rfl⟩
  have hattributes : c.attributes = as := by
    rw [attributes, hwindow, hchain, Framing.entries_chain hproper, Framing.entries_nil,
      List.append_nil, map_ofEntry_entry hc]
  obtain ⟨last, hleft⟩ := hleft
  have hholds := holds_of_left hleft
  rwa [hattributes] at hholds

/-- In a chain that holds some attributes, the first of them with a type is the one found. -/
theorem Holds.find?_eq {c : Chain} {as : List Attribute} (h : c.Holds as) (type : UInt16) :
    c.find? type = as.find? (·.head.type = type) := by
  rw [find?, ← walk_fst_map_fst, h.attributes_eq]

/-- The attributes of a message stand at the offset that its layout says, up to its end. -/
theorem window_ofMessage {l : Layout} {m : Message} {front chain : Bytes}
    (hoctets : m.octets = front ++ chain) (hfront : front.length = l.offset)
    (hlength : m.header.length.toNat = m.octets.length) :
    (ofMessage l m).window = ⟨l.offset, chain⟩ := by
  have hchain : m.octets.length - l.offset = chain.length := by
    rw [hoctets, List.length_append, hfront, Nat.add_sub_cancel_left]
  have hposition : min l.offset m.octets.length = l.offset := by
    rw [hoctets, List.length_append, hfront]
    exact Nat.min_eq_left (Nat.le_add_right _ _)
  have hrest : (m.octets.drop l.offset).take chain.length = chain := by
    rw [hoctets, List.drop_left' hfront, List.take_length]
  rw [ofMessage, ofRange, Window.ofRange, hlength, hchain, hposition, hrest]

end Chain

/-! ### What was drafted is read back -/

namespace Draft

/-- Without a body, what steps append is their attributes, each padded. -/
theorem appended_eq {ss : List Step} (hss : ∀ b, .body b ∉ ss) :
    appended ss = (ss.filterMap Step.attribute?).flatMap fun a => padded a.octets := by
  induction ss with
  | nil => rfl
  | cons s ss ih =>
      have hrest : ∀ b, .body b ∉ ss := fun b hb => hss b (List.mem_cons_of_mem _ hb)
      rw [appended_cons, ih hrest]
      cases s with
      | body b => exact absurd (List.mem_cons_self ..) (hss b)
      | flags _ | sequence _ | portId _ => exact congrArg (· ++ _) padded_nil
      | value _ _ | text _ _ | word _ _ => rfl

/-- The length of what is appended is the sum of its parts, each padded: the body and then the
attributes. -/
theorem length_appended_body (body : Bytes) {ss : List Step} (hss : ∀ b, .body b ∉ ss) :
    (appended (.body body :: ss)).length = aligned body.length
      + ((ss.filterMap Step.attribute?).map fun a => aligned (4 + a.value.length)).sum := by
  rw [appended_cons, appended_eq hss, List.length_append, length_padded, List.length_flatMap]
  simp only [length_padded, Attribute.length_octets]
  rfl

/-- A step that fits appends an attribute whose head tells the length of its value. -/
theorem exact_of_fits {s : Step} (hs : s.Fits) : ∀ a ∈ s.attribute?, a.Exact := by
  intro a ha
  have hlimit := hs a ha
  cases s with
  | value t v =>
      obtain rfl := Option.some.inj ha
      exact Attribute.length_head_ofValue hlimit
  | text t text =>
      obtain rfl := Option.some.inj ha
      exact Attribute.length_head_ofValue hlimit
  | word t w =>
      obtain rfl := Option.some.inj ha
      exact Attribute.length_head_ofValue hlimit
  | _ => cases ha

/-- Steps that fit append attributes whose heads tell the lengths of their values. -/
theorem exact_of_forall_fits {ss : List Step} (hss : ∀ s ∈ ss, s.Fits) :
    ∀ a ∈ ss.filterMap Step.attribute?, a.Exact := by
  intro a ha
  obtain ⟨s, hs, ha⟩ := List.mem_filterMap.1 ha
  exact exact_of_fits (hss s hs) a ha

/-- After a body of the size that the layout says, attributes start where it says. -/
theorem offset_eq (l : Layout) {body : Bytes} (hbody : body.length = l.familySize) :
    Header.size + (padded body).length = l.offset := by
  rw [length_padded, hbody, Layout.offset, Header.size, aligned, aligned, alignment]
  omega

/-- After a body of the size that the layout says, the attributes of the message are those
appended. -/
theorem holds_of_steps {l : Layout} {d : Draft} {body : Bytes} {ss : List Step}
    (hl : l.headSize ≤ Attribute.headSize) (hd : d.payload = [])
    (hbody : body.length = l.familySize) (hss : ∀ b, .body b ∉ ss) (hfits : ∀ s ∈ ss, s.Fits)
    (hsize : Header.messageLength (appended (.body body :: ss)).length < UInt32.size) :
    ∃ d', d.steps (.body body :: ss) = .ok d' ∧ d'.finish.WellFormed ∧
      (Chain.ofMessage l d'.finish).Holds (ss.filterMap Step.attribute?) := by
  have hall : ∀ s ∈ Step.body body :: ss, s.Fits := by
    refine List.forall_mem_cons.2 ⟨?_, hfits⟩
    rintro a ⟨⟩
  obtain ⟨d', hsteps, hpadded, hpayload⟩ := steps_of_fits hall (by rw [hd, padded_nil])
  rw [hd, List.nil_append] at hpayload
  rw [← hpayload] at hsize
  have hoctets := octets_finish hpadded hsize
  have hheader : d'.finish.header.length.toNat = d'.finish.octets.length :=
    d'.length_octets_finish.symm
  have hfinish : d'.finish.WellFormed := by
    refine wellFormed_finish ?_
    rw [length_header hpadded hsize]
    exact Nat.le_add_right _ _
  have hsplit : d'.finish.octets = (d'.header.encode ++ padded body)
      ++ (ss.filterMap Step.attribute?).flatMap fun a => padded a.octets := by
    rw [hoctets, hpayload, appended_cons, appended_eq hss, List.append_assoc]
    rfl
  have hfront : (d'.header.encode ++ padded body).length = l.offset := by
    rw [List.length_append, Header.length_encode, offset_eq l hbody]
  have hwindow := Chain.window_ofMessage hsplit hfront hheader
  exact ⟨d', hsteps, hfinish,
    Chain.holds_of_window (c := Chain.ofMessage l d'.finish) hl (exact_of_forall_fits hfits)
      hwindow⟩

/-- **What was drafted is read back.** After a body of the size that the layout says, attributes
are appended in any of the three ways, each within the limit, and the whole message is below
thirty-two bits of length. Then no step fails, the octets of the message are decoded to the
message, and its attributes are those appended: all of them in order, each with the length
of its value, and no octet more. The first of a type is the one found. -/
theorem holds_ofMessage_finish {l : Layout} {d : Draft} {body : Bytes} {ss : List Step}
    (hl : l.headSize ≤ Attribute.headSize) (hd : d.payload = [])
    (hbody : body.length = l.familySize) (hss : ∀ b, .body b ∉ ss) (hfits : ∀ s ∈ ss, s.Fits)
    (hsize : Header.size + aligned body.length
      + ((ss.filterMap Step.attribute?).map fun a => aligned (4 + a.value.length)).sum < 2 ^ 32) :
    ∃ d', d.steps (.body body :: ss) = .ok d' ∧
      Message.decode d'.finish.octets = .ok d'.finish ∧
      (∀ a ∈ ss.filterMap Step.attribute?, a.head.length.toNat = 4 + a.value.length) ∧
      (Chain.ofMessage l d'.finish).Holds (ss.filterMap Step.attribute?) ∧
      ∀ type, (Chain.ofMessage l d'.finish).find? type
        = (ss.filterMap Step.attribute?).find? (·.head.type = type) := by
  have hlength : Header.messageLength (appended (.body body :: ss)).length < UInt32.size := by
    rw [length_appended_body body hss, Header.messageLength, ← Nat.add_assoc]
    exact hsize
  obtain ⟨d', hsteps, hfinish, hholds⟩ := holds_of_steps hl hd hbody hss hfits hlength
  exact ⟨d', hsteps, hfinish, exact_of_forall_fits hfits, hholds, hholds.find?_eq⟩

/-- A message about a link with a text, an empty value, a word and a value of five octets, whose
type is that of the text. The text is the one found. -/
theorem holds_ofMessage_finish_link :
    ∃ ss d', ss = [.text 3 "lo", .value 7 [], .sequence 9, .word 4 1500, .value 3 [1, 2, 3, 4, 5]] ∧
      (∀ s ∈ ss, s.Fits) ∧
      (dumpRequest .newLink).steps (.body (default : LinkInfo).encode :: ss) = .ok d' ∧
      Message.decode d'.finish.octets = .ok d'.finish ∧
      (Chain.ofMessage .route d'.finish).Holds
        [⟨⟨7, 3⟩, [108, 111, 0]⟩, ⟨⟨4, 7⟩, []⟩, ⟨⟨8, 4⟩, [220, 5, 0, 0]⟩,
          ⟨⟨9, 3⟩, [1, 2, 3, 4, 5]⟩] ∧
      (Chain.ofMessage .route d'.finish).find? 3 = some ⟨⟨7, 3⟩, [108, 111, 0]⟩ ∧
      (Chain.ofMessage .route d'.finish).find? 9 = none := by
  have hfits : ∀ s ∈ ([.text 3 "lo", .value 7 [], .sequence 9, .word 4 1500,
      .value 3 [1, 2, 3, 4, 5]] : List Step), s.Fits := by
    decide
  have hattributes : ([.text 3 "lo", .value 7 [], .sequence 9, .word 4 1500,
      .value 3 [1, 2, 3, 4, 5]] : List Step).filterMap Step.attribute?
      = [⟨⟨7, 3⟩, [108, 111, 0]⟩, ⟨⟨4, 7⟩, []⟩, ⟨⟨8, 4⟩, [220, 5, 0, 0]⟩,
          ⟨⟨9, 3⟩, [1, 2, 3, 4, 5]⟩] := by
    decide
  have hbody : (default : LinkInfo).encode.length = Layout.route.familySize := rfl
  obtain ⟨d', hsteps, hdecode, -, hholds, hfind⟩ :=
    holds_ofMessage_finish (d := dumpRequest .newLink) (by decide) rfl hbody (by simp) hfits
      (by rw [hattributes]; decide)
  rw [hattributes] at hholds hfind
  exact ⟨_, d', rfl, hfits, hsteps, hdecode, hholds, hfind 3, hfind 9⟩

end Draft

end Netlink
