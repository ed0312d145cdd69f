import Mathlib.Algebra.Ring.Nat
import Netlink.Proofs.Drafting
import Netlink.Proofs.Leftover

/-!
# Acknowledgements Survive the Way

A peer answers a request with an error message that carries a status and the header of the
request, and it may send more octets of the request after them. Whatever the status, the flags of
the message and these octets are, the message is decoded to the same status and header; and if it
is what arrives first, and alone, the request is granted exactly if the status is zero, and is
otherwise refused with a number from which the status can be told.

The status of least value is its own negation in thirty-two bits, and no exception: it too is
told by its number.

## Main results

* `Acknowledgement.ofMessage_eq_ok_iff`: which messages carry which acknowledgement.
* `Acknowledgement.finish_eq_record`: the message of a draft that holds an acknowledgement.
* `Request.ruling_record`: what one acknowledgement says of a request.
* `Acknowledgement.survives_exchange`: **an acknowledgement comes back as it was sent.**
-/

namespace Netlink

namespace Acknowledgement

/-! ### What a message carries -/

/-- The message carries an acknowledgement exactly if it is an error whose payload starts with
one. -/
theorem ofMessage_eq_ok_iff {m : Message} {a : Acknowledgement} :
    ofMessage m = .ok a ↔
      m.header.kind = .error ∧ ∃ rest, m.octets.drop 16 = a.encode ++ rest := by
  by_cases hkind : m.header.kind = .error
  · rw [Request.ofMessage_of_kind hkind]
    by_cases hshort : (m.octets.drop 16).length < 20
    · rw [if_pos hshort]
      refine iff_of_false (by rintro ⟨⟩) ?_
      rintro ⟨-, rest, hpayload⟩
      have hlength := congrArg List.length hpayload
      rw [List.length_append, length_encode, size, Header.size] at hlength
      omega
    · obtain ⟨b, rest, hpayload⟩ := exists_encode_append (Nat.le_of_not_lt hshort)
      have hread : read? (m.octets.drop 16) = some (b, rest) := read?_eq_some_iff.2 hpayload
      rw [if_neg hshort, decode, hread]
      constructor
      · intro h
        obtain rfl : b = a := Except.ok.inj h
        exact ⟨hkind, rest, hpayload⟩
      · rintro ⟨-, rest', hpayload'⟩
        rw [read?_eq_some_iff.2 hpayload'] at hread
        obtain ⟨rfl, -⟩ := Prod.mk.inj (Option.some.inj hread)
        rfl
  · refine iff_of_false (fun h => ?_) fun h => hkind h.1
    have herror : (!m.isError) = true := by simp [Message.isError, hkind]
    rw [ofMessage, if_pos herror] at h
    cases h

/-- What is said of a message that is no error. -/
theorem ofMessage_of_kind_ne {m : Message} (hkind : m.header.kind ≠ .error) :
    ofMessage m = .error (.breach (.kind .error m.header.kind)) := by
  have herror : (!m.isError) = true := by simp [Message.isError, hkind]
  rw [ofMessage, if_pos herror]

/-- **A message with a payload carries an acknowledgement or is told why not.** It is not an error,
or it is too short; that its payload is too short to be decoded is never said. -/
theorem ofMessage_of_payload? {m : Message} {payload : Bytes} (h : m.payload? = some payload) :
    ((∃ a, ofMessage m = .ok a) ↔ m.header.kind = .error ∧ 20 ≤ payload.length) ∧
      (m.header.kind ≠ .error → ofMessage m = .error (.breach (.kind .error m.header.kind))) ∧
      (m.header.kind = .error → payload.length < 20 →
        ofMessage m = .error (.breach (.shortError m.header.length))) ∧
      ∀ expected actual, ofMessage m ≠ .error (.tooShort expected actual) := by
  obtain rfl : payload = m.octets.drop 16 := by
    rw [← Request.payload?_getD, h, Option.getD_some]
  have hshort : m.header.kind = .error → (m.octets.drop 16).length < 20 →
      ofMessage m = .error (.breach (.shortError m.header.length)) := by
    intro hkind hlength
    rw [Request.ofMessage_of_kind hkind, if_pos hlength]
  have hlong : m.header.kind = .error → 20 ≤ (m.octets.drop 16).length →
      ∃ a, ofMessage m = .ok a := by
    intro hkind hlength
    obtain ⟨a, rest, hpayload⟩ := exists_encode_append hlength
    exact ⟨a, ofMessage_eq_ok_iff.2 ⟨hkind, rest, hpayload⟩⟩
  refine ⟨⟨?_, fun h => hlong h.1 h.2⟩, ofMessage_of_kind_ne, hshort, fun expected actual => ?_⟩
  · rintro ⟨a, ha⟩
    obtain ⟨hkind, rest, hpayload⟩ := ofMessage_eq_ok_iff.1 ha
    refine ⟨hkind, ?_⟩
    rw [hpayload, List.length_append, length_encode]
    exact Nat.le_add_right _ _
  · by_cases hkind : m.header.kind = .error
    · rcases Nat.lt_or_ge (m.octets.drop 16).length 20 with hlength | hlength
      · rw [hshort hkind hlength]
        rintro ⟨⟩
      · obtain ⟨a, ha⟩ := hlong hkind hlength
        rw [ha]
        rintro ⟨⟩
    · rw [ofMessage_of_kind_ne hkind]
      rintro ⟨⟩

/-! ### The message that carries an acknowledgement -/

variable {a : Acknowledgement} {flags : Flags} {portId : UInt32} {tail : Bytes}

/-- The message that carries an acknowledgement, with these flags and with these octets after
it. -/
def record (a : Acknowledgement) (flags : Flags) (portId : UInt32) (tail : Bytes) : Message :=
  let header : Header := ⟨.ofNat (36 + tail.length), .error, flags, a.request.sequence, portId⟩
  { header, octets := header.encode ++ (a.encode ++ tail) }

/-- The payload of the record is the acknowledgement and what was put after it. -/
theorem drop_octets_record (a : Acknowledgement) (flags : Flags) (portId : UInt32)
    (tail : Bytes) : (a.record flags portId tail).octets.drop 16 = a.encode ++ tail :=
  List.drop_left' (Header.length_encode _)

/-- Whatever flags and address it has, the record has this payload. -/
theorem payload?_record (a : Acknowledgement) (flags : Flags) (portId : UInt32) (tail : Bytes) :
    (a.record flags portId tail).payload? = some (a.encode ++ tail) := by
  have hsize : Header.size ≤ (a.record flags portId tail).octets.length := by
    rw [record, List.length_append, Header.length_encode]
    exact Nat.le_add_right _ _
  rw [Message.payload?, if_pos hsize]
  exact congrArg some (drop_octets_record a flags portId tail)

/-- The record is well-formed if thirty-two bits hold its length. -/
theorem wellFormed_record (htail : 36 + tail.length < 2 ^ 32) :
    (a.record flags portId tail).WellFormed := by
  refine Message.wellFormed_iff.2 ⟨⟨_, rfl⟩, ?_⟩
  have hlength : (a.record flags portId tail).header.length.toNat = 36 + tail.length :=
    UInt32.toNat_ofNat_of_lt' htail
  rw [hlength, record, List.length_append, List.length_append, Header.length_encode, length_encode,
    size, Header.size]
  omega

/-- The record carries its acknowledgement, whatever follows it. -/
theorem ofMessage_record (a : Acknowledgement) (flags : Flags) (portId : UInt32)
    (tail : Bytes) : ofMessage (a.record flags portId tail) = .ok a :=
  ofMessage_eq_ok_iff.2 ⟨rfl, tail, drop_octets_record a flags portId tail⟩

/-- A draft whose body starts with an acknowledgement makes its record, with the rest of the body
padded. -/
theorem finish_eq_record (htail : 36 + (padded tail).length < 2 ^ 32) :
    ({ kind := .error, flags, sequence := a.request.sequence, portId : Draft }.addBody
      (a.encode ++ tail)).finish = a.record flags portId (padded tail) := by
  generalize hd : ({ kind := .error, flags, sequence := a.request.sequence, portId : Draft }.addBody
    (a.encode ++ tail)) = d
  have hpayload : d.payload = a.encode ++ padded tail := by
    have hencode : padded a.encode = a.encode := by
      rw [padded, length_encode]
      exact List.append_nil _
    rw [← hd, ← hencode]
    exact padded_padded_append a.encode tail
  have hpadded : padded d.payload = d.payload := by
    rw [← hd]
    exact padded_padded _
  have hlength : Header.messageLength d.payload.length = 36 + (padded tail).length := by
    rw [hpayload, List.length_append, length_encode, Header.messageLength, size, Header.size]
    omega
  have hheader : d.header = (a.record flags portId (padded tail)).header := by
    have hword := Draft.header_length_eq hpadded
    rw [hlength] at hword
    rw [record, ← hword, ← hd]
    rfl
  have hoctets := Draft.octets_finish hpadded (by rw [hlength]; exact htail)
  rw [hpayload, hheader] at hoctets
  rw [Draft.finish] at hoctets ⊢
  rw [Message.mk.injEq]
  exact ⟨hheader, hoctets⟩

/-- The error message of an acknowledgement is its record, with nothing after it. -/
theorem toMessage_eq_record (a : Acknowledgement) (portId : UInt32) :
    a.toMessage portId = a.record ∅ portId [] := by
  have hfinish : (_ : Message) = a.record ∅ portId (padded []) := finish_eq_record (by decide)
  rw [List.append_nil] at hfinish
  exact hfinish

end Acknowledgement

/-! ### The request that is acknowledged -/

namespace Request

variable {a : Acknowledgement} {flags : Flags} {portId : UInt32} {tail : Bytes}

/-- No policy takes offence at the record. -/
theorem offence?_record (policy : Policy) :
    offence? policy a.request.sequence (a.record flags portId tail) = none := by
  refine offence?_eq_none_iff.2 ⟨?_, rfl, rfl, ?_⟩
  · exact Policy.rejects_eq_false_iff.2 fun _ hdone => absurd hdone Bool.false_ne_true
  · rw [Acknowledgement.drop_octets_record, List.length_append, Acknowledgement.length_encode]
    exact Nat.le_add_right _ _

/-- The first word of its payload is the status of the acknowledgement. -/
theorem status_record : status (a.record flags portId tail) = a.status := by
  rw [status, Acknowledgement.drop_octets_record]
  exact a.toInt32_value_take_encode_append tail

/-- **The status alone decides.** -/
theorem ruling_record (policy : Policy) :
    ruling policy a.request.sequence [a.record flags portId tail]
      = if a.status = 0 then .ok () else .error (.refused ⟨-a.status⟩) := by
  have hfind : [a.record flags portId tail].findSome? (offence? policy a.request.sequence)
      = none := by
    rw [List.findSome?_singleton, offence?_record]
  rw [ruling, hfind, List.getLast?_singleton]
  dsimp only
  rw [status_record]

end Request

/-! ### There and back -/

namespace Acknowledgement

/-- A datagram of the record alone is unpacked to the record. -/
theorem messages_record {a : Acknowledgement} {flags : Flags} {portId : UInt32} {tail : Bytes}
    (htail : 36 + tail.length < 2 ^ 32) :
    Datagram.messages (a.record flags portId tail).octets = [a.record flags portId tail] := by
  have hpack : Packer.pack [a.record flags portId tail] = (a.record flags portId tail).octets :=
    Packer.pack_concat [] _
  rw [← hpack]
  exact Datagram.messages_pack (List.forall_mem_singleton.2 (wellFormed_record htail))

/-- **An acknowledgement comes back as it was sent.** Let a request be answered with a status, in an
error message with the sequence number of the request, any flags, any address, and any octets after
the acknowledgement, fewer than `2 ^ 31`.

* Its octets are decoded to the message, and the message to the acknowledgement.
* For every endpoint and policy: if the request was sent and the message is the first datagram
  that arrives, whole, and so within the receive buffer, then the request is granted if the
  status is zero, and otherwise refused with the status negated in thirty-two bits. Negated once
  more, this is the status.
* A draft with such a body makes such a message, and so does `toMessage`, without flags and with
  nothing after the acknowledgement.

And of any message with a payload: it carries an acknowledgement exactly if it is an error with a
payload of twenty octets or more. Otherwise the fault tells its kind, or else its length, and never
that something is too short to be decoded. -/
theorem survives_exchange (request : Message) (status : Int32) (flags : Flags)
    (portId : UInt32) {tail : Bytes} (htail : tail.length < 2 ^ 31) :
    let a : Acknowledgement := ⟨status, request.header⟩
    let m := a.record flags portId tail
    (Message.decode m.octets = .ok m ∧ m.payload? = some (a.encode ++ tail) ∧
      ofMessage m = .ok a) ∧
    (∀ {σ : Type} [Endpoint σ] (policy : Policy) (s s₁ : σ) (n : Nat),
      Endpoint.transmit policy s request.octets = (.ok n, s₁) →
      (Endpoint.supply policy (List.replicate policy.bufferSize 0, s₁)).arrivals.head?
        = some (.whole m.octets) →
      (Request.confirm policy request.header.sequence request s).1
        = if status = 0 then .ok () else .error (.refused ⟨-status⟩)) ∧
    ((-status).toInt = (-status.toInt).bmod (2 ^ 32) ∧ -(-status) = status) ∧
    (({ kind := .error, flags, sequence := request.header.sequence, portId : Draft }.addBody
        (a.encode ++ tail)).finish = a.record flags portId (padded tail) ∧
      a.toMessage portId = a.record ∅ portId []) ∧
    ∀ (m : Message) (payload : Bytes), m.payload? = some payload →
      ((∃ b, ofMessage m = .ok b) ↔ m.header.kind = .error ∧ 20 ≤ payload.length) ∧
      (m.header.kind ≠ .error → ofMessage m = .error (.breach (.kind .error m.header.kind))) ∧
      (m.header.kind = .error → payload.length < 20 →
        ofMessage m = .error (.breach (.shortError m.header.length))) ∧
      ∀ expected actual, ofMessage m ≠ .error (.tooShort expected actual) := by
  intro a m
  have hlength : 36 + tail.length < 2 ^ 32 := by omega
  have hpadded : 36 + (padded tail).length < 2 ^ 32 := by
    have hlt := aligned_lt tail.length
    rw [length_padded]
    rw [alignment] at hlt
    omega
  refine ⟨⟨wellFormed_record hlength, payload?_record a flags portId tail,
      ofMessage_record a flags portId tail⟩, ?_, ⟨Int32.toInt_neg status, Int32.neg_neg⟩,
    ⟨finish_eq_record hpadded, toMessage_eq_record a portId⟩,
    fun m payload => ofMessage_of_payload?⟩
  intro σ _ policy s s₁ n hsend harrives
  obtain ⟨later, harrivals⟩ := List.head?_eq_some_iff.1 harrives
  rw [Request.confirm_of_send_ok hsend, Request.awaitOutcome_start,
    Request.decision_of_supply_whole request.header.sequence harrivals, messages_record hlength]
  exact Request.ruling_record (a := a) policy

/-- The least status comes after an interrupted receive, in one of several messages and with three
more octets, and fills the receive buffer. -/
theorem survives_exchange_least :
    ∃ (request : Message) (peer : ScriptedPeer),
      request = Draft.finish { kind := .setLink, flags := .request ∪ .ack, sequence := 7 } ∧
      peer = { portId := 0
               deliveries :=
                [.error (.system .interrupted),
                  .ok { datagram := (record ⟨Int32.minValue, request.header⟩ .multi 99
                    [1, 2, 3]).octets }] } ∧
      ofMessage (record ⟨Int32.minValue, request.header⟩ .multi 99 [1, 2, 3])
        = .ok ⟨Int32.minValue, request.header⟩ ∧
      (Request.confirm { bufferSize := 39 } 7 request peer).1
        = .error (.refused ⟨Int32.minValue⟩) := by
  refine ⟨_, _, rfl, rfl, ?_⟩
  generalize hrequest : Draft.finish
    { kind := .setLink, flags := .request ∪ .ack, sequence := 7 } = request
  generalize hpeer : ScriptedPeer.mk _ _ _ _ = peer
  have htail : ([1, 2, 3] : Bytes).length < 2 ^ 31 := by decide
  obtain ⟨⟨-, -, hdecoded⟩, hconfirm, -⟩ :=
    survives_exchange request Int32.minValue .multi 99 htail
  have hsend : (Endpoint.transmit { bufferSize := 39 } peer request.octets).1 = .ok 16 := by
    rw [← hpeer, ← hrequest]
    decide +kernel
  have harrives : (Endpoint.supply { bufferSize := 39 } (List.replicate 39 0,
      (Endpoint.transmit { bufferSize := 39 } peer request.octets).2)).arrivals.head?
        = some (.whole (record ⟨Int32.minValue, request.header⟩ .multi 99 [1, 2, 3]).octets) := by
    rw [← hpeer, ← hrequest]
    decide +kernel
  have hsequence : request.header.sequence = 7 := by
    rw [← hrequest]
    rfl
  have hresult := hconfirm { bufferSize := 39 } peer _ 16 (Prod.ext hsend rfl) harrives
  rw [hsequence] at hresult
  exact ⟨hdecoded, hresult⟩

end Acknowledgement

end Netlink
