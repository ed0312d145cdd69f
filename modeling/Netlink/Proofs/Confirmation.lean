import Mathlib.Tactic.SplitIfs
import Netlink.Proofs.Transcript
import Netlink.Request

/-!
# One Datagram Confirms a Request

To wait for an acknowledgement is to read a reply to its end, which may take any number of
datagrams. In fact it takes one. A message that is no acknowledgement ends the wait, and an
acknowledgement never asks for another datagram, whatever its flags; so what the datagram
holds decides, and `ruling` says how.

## Main results

* `acknowledgement_of_offence?_eq_none`: a message without offence is an acknowledgement
  with the status that its payload starts with.
* `ruling_breach`: no ruling says that an acknowledgement is missing, or that the reply ended
  with a message of the wrong kind.
* `confirm_eq_decision`: **one datagram confirms a request**, or tells why it does not.
-/

namespace Netlink.Request

/-! ### The ruling on a datagram -/

/-- Why a message is no acknowledgement of the request with this sequence number. Of several
reasons the first one counts: it is the end of a dump and too short for its status, it is of
another kind than an error message, it answers another request, or it is too short for
status and header. -/
def offence? (p : Policy) (sequence : UInt32) (m : Message) : Option Breach :=
  if p.rejects m then some (.shortDone m.header.length)
  else if m.header.kind ≠ .error then some (.kind .error m.header.kind)
  else if m.header.sequence ≠ sequence then some (.sequence sequence m.header.sequence)
  else if (m.octets.drop 16).length < 20 then some (.shortError m.header.length)
  else none

/-- The status of an acknowledgement: the first word of its payload, as a signed number. -/
def status (m : Message) : Int32 :=
  (UInt32.ofNat (Word.value ((m.octets.drop 16).take 4))).toInt32

/-- What the messages of a datagram say about the request with this sequence number: the
first that is no acknowledgement, or else the status of the last. -/
def ruling (p : Policy) (sequence : UInt32) (messages : List Message) : Except Fault Unit :=
  match messages.findSome? (offence? p sequence), messages.getLast? with
  | some breach, _ => .error (.breach breach)
  | none, none => .error (.breach (.ending .error none))
  | none, some m => if status m = 0 then .ok () else .error (.refused ⟨-status m⟩)

/-- What the receive of a datagram decides: it fails, the datagram is cut, or its messages
are ruled on. -/
def decision {σ : Type} (p : Policy) (sequence : UInt32) :
    Except CallFailure Receipt × Bytes × σ → Except Fault Unit × σ
  | (.error failure, _, s) => (.error (.call failure), s)
  | (.ok receipt, buffer, s) =>
    match Arrival.ofReceipt receipt buffer with
    | .cut => (.error (.truncated p.bufferSize), s)
    | .miscounted reported => (.error (.miscounted reported p.bufferSize), s)
    | .whole datagram => (ruling p sequence (Datagram.messages datagram), s)

/-! ### Messages without offence -/

/-- The payload of a message starts after sixteen octets, and is empty if there are no more. -/
theorem payload?_getD (m : Message) : m.payload?.getD [] = m.octets.drop 16 := by
  rw [Message.payload?]
  by_cases hsize : Header.size ≤ m.octets.length
  · rw [if_pos hsize]
    rfl
  · have hshort : m.octets.length ≤ 16 := Nat.le_of_not_le hsize
    rw [if_neg hsize, List.drop_of_length_le hshort]
    rfl

/-- Twenty octets or more start with an acknowledgement, whose status is their first
word. -/
theorem read?_of_length_le {bs : Bytes} (h : 20 ≤ bs.length) :
    ∃ a rest, Acknowledgement.read? bs = some (a, rest) ∧
      a.status = (UInt32.ofNat (Word.value (bs.take 4))).toInt32 := by
  obtain ⟨a, rest, rfl⟩ := Acknowledgement.exists_encode_append h
  exact ⟨a, rest, Acknowledgement.read?_eq_some_iff.2 rfl,
    (a.toInt32_value_take_encode_append rest).symm⟩

/-- An error message carries an acknowledgement if its payload has the twenty octets for one. -/
theorem ofMessage_of_kind {m : Message} (hkind : m.header.kind = .error) :
    Acknowledgement.ofMessage m =
      if (m.octets.drop 16).length < 20 then .error (.breach (.shortError m.header.length))
      else Acknowledgement.decode (m.octets.drop 16) := by
  have herror : (!m.isError) = false := by simp [Message.isError, hkind]
  rw [Acknowledgement.ofMessage, payload?_getD, herror, if_neg Bool.false_ne_true]
  rfl

/-- What a message that the reply lets pass is taken for: its offence, if it has one, and
what its payload says otherwise. -/
theorem acknowledgement_eq {p : Policy} {m : Message} (sequence : UInt32)
    (haccept : p.rejects m = false) :
    acknowledgement sequence m =
      match offence? p sequence m with
      | some breach => .error (.breach breach)
      | none => Acknowledgement.decode (m.octets.drop 16) := by
  rw [acknowledgement, offence?, haccept, if_neg Bool.false_ne_true]
  by_cases hkind : m.header.kind = .error
  · rw [if_neg (not_not.2 hkind), if_neg (not_not.2 hkind)]
    by_cases hsequence : m.header.sequence = sequence
    · rw [if_neg (not_not.2 hsequence), if_neg (not_not.2 hsequence), ofMessage_of_kind hkind]
      by_cases hshort : (m.octets.drop 16).length < 20
      · rw [if_pos hshort, if_pos hshort]
      · rw [if_neg hshort, if_neg hshort]
    · rw [if_pos hsequence, if_pos hsequence]
  · rw [if_pos hkind, if_pos hkind]

/-- What a message without offence is like. -/
theorem offence?_eq_none_iff {p : Policy} {sequence : UInt32} {m : Message} :
    offence? p sequence m = none ↔
      p.rejects m = false ∧ m.header.kind = .error ∧ m.header.sequence = sequence ∧
        20 ≤ (m.octets.drop 16).length := by
  rw [offence?]
  split_ifs <;> simp_all

/-- A message without offence is an acknowledgement, with the status in its payload. -/
theorem acknowledgement_of_offence?_eq_none {p : Policy} {sequence : UInt32} {m : Message}
    (h : offence? p sequence m = none) :
    ∃ a, acknowledgement sequence m = .ok a ∧ a.status = status m := by
  obtain ⟨haccept, -, -, hlong⟩ := offence?_eq_none_iff.1 h
  obtain ⟨a, rest, hread, hstatus⟩ := read?_of_length_le hlong
  refine ⟨a, ?_, hstatus⟩
  rw [acknowledgement_eq sequence haccept, h, Acknowledgement.decode, hread]

/-! ### What no ruling says -/

/-- A ruling never says that no acknowledgement came, and only of a datagram without
messages that the reply ended wrongly. -/
theorem ruling_breach (p : Policy) (sequence : UInt32) (messages : List Message) :
    ruling p sequence messages ≠ .error (.breach .unacknowledged) ∧
      ∀ kind actual, ruling p sequence messages = .error (.breach (.ending kind actual)) →
        kind = .error ∧ actual = none ∧ messages = [] := by
  rw [ruling]
  cases hfind : messages.findSome? (offence? p sequence) with
  | some breach =>
      obtain ⟨m, -, ho⟩ := List.exists_of_findSome?_eq_some hfind
      rw [offence?] at ho
      split_ifs at ho <;> obtain rfl := Option.some.inj ho <;> simp
  | none =>
      cases hlast : messages.getLast? with
      | none =>
          have hnil : messages = [] := List.getLast?_eq_none_iff.1 hlast
          simp +contextual [hnil, eq_comm]
      | some m =>
          by_cases hzero : status m = 0
          · simp [hzero]
          · simp [hzero]

/-- What no ruling says, no decision says. -/
theorem decision_breach {σ : Type} (p : Policy) (sequence : UInt32)
    (received : Except CallFailure Receipt × Bytes × σ) :
    (decision p sequence received).1 ≠ .error (.breach .unacknowledged) ∧
      ∀ kind actual, (decision p sequence received).1 = .error (.breach (.ending kind actual)) →
        kind = .error ∧ actual = none := by
  match received with
  | (.error failure, buffer, s) => simp [decision]
  | (.ok receipt, buffer, s) =>
      rw [decision]
      cases Arrival.ofReceipt receipt buffer with
      | cut => simp
      | miscounted reported => simp
      | whole datagram =>
          obtain ⟨hne, hending⟩ := ruling_breach p sequence (Datagram.messages datagram)
          refine ⟨hne, fun kind actual h => ?_⟩
          obtain ⟨hkind, hactual, -⟩ := hending kind actual h
          exact ⟨hkind, hactual⟩

/-! ### Waiting, message by message -/

section Waiting

variable {σ : Type} [Endpoint σ] {r r' : Reply} {s s' : σ} {sequence : UInt32}
  {last : Option Acknowledgement}

/-- At the end of the reply, the last acknowledgement decides. -/
theorem awaitOutcome_of_none (h : r.next s = (none, r', s')) :
    awaitOutcome sequence last r s = (outcome last, s') := by
  rw [awaitOutcome]
  split <;> simp_all

/-- A fault of the reply ends the wait with that fault. -/
theorem awaitOutcome_of_error {fault : Fault} (h : r.next s = (some (.error fault), r', s')) :
    awaitOutcome sequence last r s = (.error fault, s') := by
  rw [awaitOutcome]
  split <;> simp_all

/-- A message ends the wait if it is no acknowledgement, and is the last one so far if it is. -/
theorem awaitOutcome_of_ok {m : Message} (h : r.next s = (some (.ok m), r', s')) :
    awaitOutcome sequence last r s =
      match acknowledgement sequence m with
      | .error fault => (.error fault, s')
      | .ok a => awaitOutcome sequence (some a) r' s' := by
  rw [awaitOutcome]
  split
  · simp_all
  · simp_all
  · next m' r₁ s₁ hn =>
      rw [h] at hn
      obtain ⟨rfl, rfl, rfl⟩ : m = m' ∧ r' = r₁ ∧ s' = s₁ := by simpa using hn
      cases acknowledgement sequence m <;> rfl

/-- How a wait ends depends on the next pull alone. -/
theorem awaitOutcome_congr (h : r.next s = r'.next s') :
    awaitOutcome sequence last r s = awaitOutcome sequence last r' s' := by
  match hn : r'.next s' with
  | (none, r₁, s₁) => rw [awaitOutcome_of_none (h.trans hn), awaitOutcome_of_none hn]
  | (some (.error fault), r₁, s₁) =>
      rw [awaitOutcome_of_error (h.trans hn), awaitOutcome_of_error hn]
  | (some (.ok m), r₁, s₁) => rw [awaitOutcome_of_ok (h.trans hn), awaitOutcome_of_ok hn]

/-- The first message with an offence ends the wait. -/
theorem awaitOutcome_of_offence {queue : List Message} {breach : Breach}
    (hp : r.phase = .delivering queue)
    (h : queue.findSome? (offence? r.policy sequence) = some breach) :
    awaitOutcome sequence last r s = (.error (.breach breach), s) := by
  induction queue generalizing r last with
  | nil => simp at h
  | cons m queue ih =>
      cases hreject : r.policy.rejects m with
      | true =>
          have ho : offence? r.policy sequence m = some (.shortDone m.header.length) := by
            rw [offence?, if_pos hreject]
          rw [List.findSome?_cons, ho] at h
          rw [awaitOutcome_of_error (Reply.next_of_rejects hp hreject), Option.some.inj h]
      | false =>
          rw [awaitOutcome_of_ok (Reply.next_of_accepts hp hreject)]
          cases ho : offence? r.policy sequence m with
          | some breach₁ =>
              rw [List.findSome?_cons, ho] at h
              rw [acknowledgement_eq sequence hreject, ho, Option.some.inj h]
          | none =>
              rw [List.findSome?_cons, ho] at h
              obtain ⟨a, ha, -⟩ := acknowledgement_of_offence?_eq_none ho
              rw [ha]
              exact ih (r := { r with history := r.history.note m, phase := .delivering queue })
                rfl h

/-- Messages without offence leave the wait at the end of the datagram, with the last of
them as the last acknowledgement. -/
theorem awaitOutcome_of_accepted {queue : List Message} (hp : r.phase = .delivering queue)
    (h : ∀ m ∈ queue, offence? r.policy sequence m = none) :
    awaitOutcome sequence last r s =
      awaitOutcome sequence
        (queue.foldl (fun _ m => (acknowledgement sequence m).toOption) last)
        (r.pass queue) s := by
  induction queue generalizing r last with
  | nil =>
      have hr : r.pass [] = r := by rw [Reply.pass, ← hp]; rfl
      rw [hr]
      rfl
  | cons m queue ih =>
      obtain ⟨hm, hqueue⟩ := List.forall_mem_cons.1 h
      obtain ⟨a, ha, -⟩ := acknowledgement_of_offence?_eq_none hm
      have haccept := (offence?_eq_none_iff.1 hm).1
      rw [awaitOutcome_of_ok (Reply.next_of_accepts hp haccept), ha]
      dsimp only
      rw [ih (r := { r with history := r.history.note m, phase := .delivering queue }) rfl hqueue,
        List.foldl_cons, ha]
      rfl

/-- An acknowledgement says that all is well with the status zero alone. -/
theorem outcome_some (a : Acknowledgement) :
    outcome (some a) = if a.status = 0 then .ok () else .error (.refused ⟨-a.status⟩) := by
  rw [outcome, Acknowledgement.errno?]
  by_cases hzero : a.status = 0
  · rw [if_pos hzero, if_pos hzero]
  · rw [if_neg hzero, if_neg hzero]

/-- **The wait ends with the datagram at hand**, and as the ruling on it says: an
acknowledgement is an error message, and no datagram follows one. -/
theorem awaitOutcome_of_queue {queue : List Message} (hp : r.phase = .delivering queue)
    (hh : r.history = .of []) (he : r.expectation = .acknowledgement) :
    awaitOutcome sequence none r s = (ruling r.policy sequence queue, s) := by
  cases hfind : queue.findSome? (offence? r.policy sequence) with
  | some breach => rw [awaitOutcome_of_offence hp hfind, ruling, hfind]
  | none =>
      have haccept := List.findSome?_eq_none_iff.1 hfind
      have hpass : (r.pass queue).history = .of queue := by
        rw [Reply.pass, hh, History.foldl_note_of, List.nil_append]
      rw [awaitOutcome_of_accepted hp haccept, ruling, hfind]
      rcases queue.eq_nil_or_concat' with rfl | ⟨queue, m, rfl⟩
      · have hn := Reply.next_of_course_end (s := s) (r := r.pass []) rfl hpass rfl
        exact awaitOutcome_of_error (by rw [hn, Reply.pass, he]; rfl)
      · have hm : offence? r.policy sequence m = none := haccept m (by simp)
        obtain ⟨a, ha, hstatus⟩ := acknowledgement_of_offence?_eq_none hm
        have herror : m.isError := by simp [Message.isError, (offence?_eq_none_iff.1 hm).2.1]
        have hn := Reply.next_of_course_end (s := s) (r := r.pass (queue ++ [m])) rfl hpass
          (by simp [Course.goesOn, herror])
        have hnone : Course.breach? (queue ++ [m]) .acknowledgement = none := by
          simp [Course.breach?, herror]
        rw [awaitOutcome_of_none (by rw [hn, Reply.pass, he, hnone]; rfl)]
        rw [List.foldl_concat, ha, Except.toOption, outcome_some, hstatus,
          List.getLast?_concat]

/-- One datagram decides the wait. -/
theorem awaitOutcome_start (policy : Policy) (sequence : UInt32) (s : σ) :
    awaitOutcome sequence none (Reply.start policy .acknowledgement) s =
      decision policy sequence (Endpoint.fetch policy s (List.replicate policy.bufferSize 0)) := by
  have hp : (Reply.start policy .acknowledgement).phase = .awaiting := rfl
  match hf : Endpoint.fetch policy s (List.replicate policy.bufferSize 0) with
  | (.error failure, buffer, s₁) =>
      rw [awaitOutcome_of_error (Reply.next_of_fault hp (Reply.receive_of_error hf)), decision]
  | (.ok receipt, buffer, s₁) =>
      have hlength : buffer.length = policy.bufferSize := by
        have hfetch := Endpoint.length_fetch policy s (List.replicate policy.bufferSize 0)
        rw [hf] at hfetch
        simpa using hfetch
      have hreceive := Reply.receive_of_ok (r := Reply.start policy .acknowledgement) hf
      rw [decision]
      cases harrival : Arrival.ofReceipt receipt buffer with
      | cut =>
          rw [harrival] at hreceive
          rw [awaitOutcome_of_error (Reply.next_of_fault hp hreceive), hlength]
      | miscounted reported =>
          rw [harrival] at hreceive
          rw [awaitOutcome_of_error (Reply.next_of_fault hp hreceive), hlength]
      | whole datagram =>
          rw [harrival] at hreceive
          rw [awaitOutcome_congr (Reply.next_of_queue hp hreceive)]
          exact awaitOutcome_of_queue rfl rfl rfl

end Waiting

/-! ### The whole exchange -/

section Exchange

variable {σ : Type} [Endpoint σ]

/-- A confirmation whose request could not be sent fails as the send did. -/
theorem confirm_of_send_error {policy : Policy} {sequence : UInt32}
    {request : Message} {s s' : σ} {failure : CallFailure}
    (h : Endpoint.transmit policy s request.octets = (.error failure, s')) :
    confirm policy sequence request s = (.error (.call failure), s') := by
  rw [confirm, start, send, h]
  rfl

/-- A confirmation whose request was sent is a wait for the outcome. -/
theorem confirm_of_send_ok {policy : Policy} {sequence : UInt32}
    {request : Message} {s s' : σ} {n : Nat}
    (h : Endpoint.transmit policy s request.octets = (.ok n, s')) :
    confirm policy sequence request s
      = awaitOutcome sequence none (Reply.start policy .acknowledgement) s' := by
  rw [confirm, start, send, h]
  rfl

/-- **One datagram confirms a request.** If the request cannot be sent, that is the outcome.
Once it was sent, receives are repeated while they are interrupted, and the one receive that
is not repeated decides: it may fail, or bring a datagram that is cut, or a datagram whose
messages are ruled on. No other receive is made, whatever flags the messages have. That no
acknowledgement came is never the outcome, and the reply never ends with a message of the
wrong kind, but only with none. -/
theorem confirm_eq_decision (policy : Policy) (sequence : UInt32) (request : Message) (s : σ) :
    (match Endpoint.transmit policy s request.octets with
      | (.error failure, s₁) =>
        confirm policy sequence request s = (.error (.call failure), s₁)
      | (.ok _, s₁) =>
        ∃ k,
          let received (i : Nat) :=
            let t := Endpoint.afterReceive^[i] (List.replicate policy.bufferSize 0, s₁)
            Endpoint.receive t.2 t.1
          (∀ i < k, interruptedCall (received i).1) ∧
            confirm policy sequence request s = decision policy sequence (received k)) ∧
      (confirm policy sequence request s).1 ≠ .error (.breach .unacknowledged) ∧
      ∀ kind actual,
        (confirm policy sequence request s).1 = .error (.breach (.ending kind actual)) →
          kind = .error ∧ actual = none := by
  match hsend : Endpoint.transmit policy s request.octets with
  | (.error failure, s₁) =>
      rw [confirm_of_send_error hsend]
      simp
  | (.ok n, s₁) =>
      have hconfirm : confirm policy sequence request s = decision policy sequence
          (Endpoint.fetch policy s₁ (List.replicate policy.bufferSize 0)) := by
        rw [confirm_of_send_ok hsend, awaitOutcome_start]
      obtain ⟨k, hk, hfetch⟩ :=
        Endpoint.fetch_eq_receive policy (List.replicate policy.bufferSize 0, s₁)
      refine ⟨⟨k, hk, ?_⟩, ?_⟩
      · exact hconfirm.trans (congrArg (decision policy sequence) hfetch)
      · rw [hconfirm]
        exact decision_breach policy sequence _

end Exchange

end Netlink.Request
