import Netlink.Endpoint.Scripted
import Netlink.Message.Draft
import Netlink.Datagram.Packer
import Netlink.Proofs.Confirmation

/-!
# One Datagram Alone

A datagram may be taken alone, or as the first of a reply that is read message by message. Both
ways make the same calls for it, since each starts with an empty buffer of the same size, and
both see the same messages in it. They part only at its end: a reader may refuse the end of a
dump, may ask for another datagram, or may find fault with how the reply ended.

An endpoint that reports more octets than the buffer holds is left out. Who takes one datagram
gets the whole buffer then, and a reader a fault.

## Main results

* `Reply.pulls_of_accepted`: messages of which none is refused are pulled one by one.
* `Request.once_agrees`: **the datagram taken alone is the first of the reply**, in its calls,
  its faults and its messages.
-/

namespace Netlink

namespace Reply

variable {σ : Type} [Endpoint σ] {r r' : Reply} {s s' : σ}

/-- What pulls give depends on the first of them alone. -/
theorem pulls_congr {n : Nat} (hn : 0 < n) (h : r.next s = r'.next s') :
    pulls n r s = pulls n r' s' := by
  obtain ⟨n, rfl⟩ := Nat.exists_eq_succ_of_ne_zero (Nat.pos_iff_ne_zero.1 hn)
  rw [pulls, pulls, h]

/-- Messages of which none is refused are pulled one by one, without a call. -/
theorem pulls_of_accepted {queue : List Message} (hp : r.phase = .delivering queue)
    (h : ∀ m ∈ queue, r.policy.rejects m = false) :
    pulls queue.length r s = (queue.map fun m => some (.ok m), r.pass queue, s) := by
  induction queue generalizing r with
  | nil =>
      have hr : r.pass [] = r := by rw [pass, ← hp]; rfl
      rw [hr]
      rfl
  | cons m queue ih =>
      obtain ⟨hm, hqueue⟩ := List.forall_mem_cons.1 h
      rw [List.length_cons, pulls_succ (next_of_accepts hp hm),
        ih (r := { r with history := r.history.note m, phase := .delivering queue }) rfl hqueue]
      rfl

/-! ### The first datagram of a reply -/

/-- A reader whose reply starts with this datagram gives its messages: up to the first that it
refuses; or all, before it receives again; or all, and then what is wrong with the reply. -/
def StartsWith (r : Reply) (messages : List Message) (s s' : σ) : Prop :=
  match messages.find? r.policy.rejects with
  | some m =>
    ∃ r', r.items s =
      ((messages.takeWhile fun m => !r.policy.rejects m).map .ok
        ++ [.error (.breach (.shortDone m.header.length))], r', s')
  | none =>
    if Course.goesOn messages then
      ∃ r', pulls messages.length r s = (messages.map fun m => some (.ok m), r', s') ∧
        r'.next s' = { r' with phase := .awaiting }.next s'
    else
      ∃ r', r.items s =
        (messages.map .ok
          ++ ((Course.breach? messages r.expectation).map fun b => .error (.breach b)).toList,
          r', s')

/-- A reader gives the messages of the datagram that it received first. -/
theorem startsWith_of_next {messages : List Message} (h : r.next s = r'.next s')
    (hh : r'.history = .of []) (hp : r'.phase = .delivering messages)
    (hpolicy : r'.policy = r.policy) (hexpectation : r'.expectation = r.expectation) :
    r.StartsWith messages s s' := by
  rw [StartsWith, items_congr h, ← hpolicy, ← hexpectation]
  cases hfind : messages.find? r'.policy.rejects with
  | some m =>
      obtain ⟨r₁, hitems, -⟩ := items_of_rejected (s := s') hp hfind
      exact ⟨r₁, hitems⟩
  | none =>
      have haccept := Policy.find?_rejects_eq_none_iff.1 hfind
      by_cases hmore : Course.goesOn messages
      · have hne : 0 < messages.length := by
          refine List.length_pos_iff.2 fun hnil => ?_
          rw [hnil] at hmore
          exact absurd hmore (by decide)
        have hwants : (r'.pass messages).history.wantsMore := by
          rw [pass, hh, History.foldl_note_of, History.wantsMore_of]
          exact hmore
        dsimp only
        rw [if_pos hmore, pulls_congr hne h, pulls_of_accepted hp haccept]
        exact ⟨r'.pass messages, rfl, next_of_more rfl hwants⟩
      · have hover : Course.goesOn ([] ++ messages) = false := by simpa using hmore
        dsimp only
        rw [if_neg hmore, items_of_queue_end hp hh haccept hover]
        exact ⟨_, rfl⟩

end Reply

/-! ### Taking a datagram -/

namespace Request

variable {σ : Type} [Endpoint σ] {policy : Policy} {request : Message} {s s₁ s₂ : σ}

/-- If the request cannot be sent, nothing is received. -/
theorem once_of_send_error {failure : CallFailure}
    (h : Endpoint.transmit policy s request.octets = (.error failure, s₁)) :
    once policy request s = (.error (.call failure), s₁) := by
  rw [once, send, h]

/-- If it was sent and the receive fails, that is the outcome. -/
theorem once_of_fetch_error {n : Nat} {failure : CallFailure} {buffer : Bytes}
    (hsend : Endpoint.transmit policy s request.octets = (.ok n, s₁))
    (h : Endpoint.fetch policy s₁ (List.replicate policy.bufferSize 0)
      = (.error failure, buffer, s₂)) :
    once policy request s = (.error (.call failure), s₂) := by
  rw [once, send, hsend]
  dsimp only
  rw [h]

/-- A datagram that is received is given as far as the buffer holds it, unless it was cut. -/
theorem once_of_fetch_ok {n : Nat} {receipt : Receipt} {buffer : Bytes}
    (hsend : Endpoint.transmit policy s request.octets = (.ok n, s₁))
    (h : Endpoint.fetch policy s₁ (List.replicate policy.bufferSize 0)
      = (.ok receipt, buffer, s₂)) :
    once policy request s =
      (if receipt.truncated then .error (.truncated policy.bufferSize)
        else .ok (buffer.take receipt.count), s₂) := by
  have hlength := Endpoint.length_fetch policy s₁ (List.replicate policy.bufferSize 0)
  rw [h, List.length_replicate] at hlength
  rw [once, send, hsend]
  dsimp only
  rw [h]
  dsimp only
  rw [hlength]
  split <;> rfl

/-- **The datagram taken alone is the first of the reply.** A send that fails is the one outcome
of both. So is a receive that fails or is cut: it is the fault of the one and the only item of
the other. A datagram that comes whole is what the reader starts with. In each case both leave
the endpoint in the same state, so they made the same calls. -/
theorem once_agrees (policy : Policy) (e : Expectation) (request : Message) (s : σ)
    (hcount : ∀ n s₁ receipt, Endpoint.transmit policy s request.octets = (.ok n, s₁) →
      (Endpoint.fetch policy s₁ (List.replicate policy.bufferSize 0)).1 = .ok receipt →
      receipt.count ≤ policy.bufferSize) :
    match Endpoint.transmit policy s request.octets with
    | (.error failure, s₁) =>
      once policy request s = (.error (.call failure), s₁) ∧
        start policy e request s = (.error (.call failure), s₁)
    | (.ok _, s₁) =>
      start policy e request s = (.ok (Reply.start policy e), s₁) ∧
        match Endpoint.fetch policy s₁ (List.replicate policy.bufferSize 0) with
        | (.error failure, _, s₂) =>
          once policy request s = (.error (.call failure), s₂) ∧
            ∃ r, (Reply.start policy e).items s₁ = ([.error (.call failure)], r, s₂)
        | (.ok receipt, buffer, s₂) =>
          if receipt.truncated then
            once policy request s = (.error (.truncated policy.bufferSize), s₂) ∧
              ∃ r, (Reply.start policy e).items s₁
                = ([.error (.truncated policy.bufferSize)], r, s₂)
          else
            once policy request s = (.ok (buffer.take receipt.count), s₂) ∧
              (Reply.start policy e).StartsWith (Datagram.messages (buffer.take receipt.count))
                s₁ s₂ := by
  have hp : (Reply.start policy e).phase = .awaiting := rfl
  rcases hsend : Endpoint.transmit policy s request.octets with ⟨failure | n, s₁⟩
  · refine ⟨once_of_send_error hsend, ?_⟩
    rw [start, send, hsend]
    rfl
  · refine ⟨by rw [start, send, hsend]; rfl, ?_⟩
    rcases hf : Endpoint.fetch policy s₁ (List.replicate policy.bufferSize 0)
      with ⟨failure | receipt, buffer, s₂⟩
    · exact ⟨once_of_fetch_error hsend hf, _,
        Reply.items_of_error (Reply.next_of_fault hp (Reply.receive_of_error hf))⟩
    · have honce := once_of_fetch_ok hsend hf
      have hreceive := Reply.receive_of_ok (r := Reply.start policy e) hf
      have hlength : buffer.length = policy.bufferSize := by
        have := Endpoint.length_fetch policy s₁ (List.replicate policy.bufferSize 0)
        rwa [hf, List.length_replicate] at this
      dsimp only
      by_cases hcut : receipt.truncated
      · rw [Arrival.ofReceipt, if_pos hcut, hlength] at hreceive
        rw [if_pos hcut] at honce ⊢
        exact ⟨honce, _, Reply.items_of_error (Reply.next_of_fault hp hreceive)⟩
      · have hfits : ¬buffer.length < receipt.count := by
          have := hcount n s₁ receipt hsend (by rw [hf])
          omega
        rw [Arrival.ofReceipt, if_neg hcut, if_neg hfits] at hreceive
        rw [if_neg hcut] at honce ⊢
        have hnext : (Reply.start policy e).next s₁
            = ((Reply.start policy e).opened buffer (buffer.take receipt.count)).next s₂ :=
          Reply.next_of_queue hp hreceive
        exact ⟨honce, Reply.startsWith_of_next hnext rfl rfl rfl rfl⟩

/-- A link and an end of a dump without a status, after an interrupted send and an interrupted
receive: taken alone they are two messages, and a strict reader refuses the second. -/
theorem once_agrees_short_end :
    ∃ (peer : ScriptedPeer) (link bare : Message),
      link = Draft.finish { kind := .newLink, flags := .multi } ∧
      bare = Draft.finish { kind := .done, flags := .multi } ∧
      peer = { portId := 0
               sends := [.error (.plain .interrupted)]
               deliveries :=
                [.error (.plain .interrupted), .ok { datagram := Packer.pack [link, bare] }] } ∧
      (∀ n s₁ receipt, Endpoint.transmit { bufferSize := 64 } peer link.octets = (.ok n, s₁) →
        (Endpoint.fetch { bufferSize := 64 } s₁ (List.replicate 64 0)).1 = .ok receipt →
        receipt.count ≤ 64) ∧
      (once { bufferSize := 64 } link peer).1 = .ok (Packer.pack [link, bare]) ∧
      ∃ r, (Reply.start { bufferSize := 64 } .data).items
          (Endpoint.transmit { bufferSize := 64 } peer link.octets).2
        = ([.ok link, .error (.breach (.shortDone 16))], r,
            (once { bufferSize := 64 } link peer).2) := by
  refine ⟨_, _, _, rfl, rfl, rfl, ?_⟩
  generalize hlink : Draft.finish { kind := .newLink, flags := .multi } = link
  generalize hbare : Draft.finish { kind := .done, flags := .multi } = bare
  generalize hpeer : ScriptedPeer.mk _ _ _ _ = peer
  obtain ⟨s₁, hsend⟩ : ∃ s₁, Endpoint.transmit { bufferSize := 64 } peer link.octets
      = (.ok 16, s₁) := by
    refine ⟨_, Prod.ext ?_ rfl⟩
    rw [← hpeer, ← hlink, ← hbare]
    decide +kernel
  have hs₁ : s₁ = (Endpoint.transmit { bufferSize := 64 } peer link.octets).2 := by rw [hsend]
  obtain ⟨buffer, s₂, hf⟩ : ∃ buffer s₂,
      Endpoint.fetch { bufferSize := 64 } s₁ (List.replicate 64 0)
        = (.ok ⟨32, false⟩, buffer, s₂) := by
    refine ⟨_, _, Prod.ext ?_ rfl⟩
    rw [hs₁, ← hpeer, ← hlink, ← hbare]
    decide +kernel
  have hdatagram : buffer.take 32 = Packer.pack [link, bare] := by
    have hbuffer : buffer
        = (Endpoint.fetch { bufferSize := 64 } s₁ (List.replicate 64 0)).2.1 := by
      rw [hf]
    rw [hbuffer, hs₁, ← hpeer, ← hlink, ← hbare]
    decide +kernel
  have hcount : ∀ n s₁ receipt,
      Endpoint.transmit { bufferSize := 64 } peer link.octets = (.ok n, s₁) →
      (Endpoint.fetch { bufferSize := 64 } s₁ (List.replicate 64 0)).1 = .ok receipt →
      receipt.count ≤ 64 := by
    rw [hsend]
    rintro n s₁ receipt ⟨⟩
    rw [hf]
    rintro ⟨⟩
    decide
  have hagrees := once_agrees { bufferSize := 64 } .data link peer hcount
  rw [hsend] at hagrees
  dsimp only at hagrees
  rw [hf] at hagrees
  obtain ⟨-, honce, hstarts⟩ := hagrees
  have hmessages : Datagram.messages (Packer.pack [link, bare]) = [link, bare] := by
    rw [← hlink, ← hbare]
    decide +kernel
  rw [hdatagram] at honce hstarts
  rw [hmessages] at hstarts
  have hlinkAccepted : (Reply.start { bufferSize := 64 } .data).policy.rejects link = false := by
    rw [← hlink]
    decide +kernel
  have hbareRejected : (Reply.start { bufferSize := 64 } .data).policy.rejects bare = true := by
    rw [← hbare]
    decide +kernel
  have hlength : bare.header.length = 16 := by
    rw [← hbare]
    decide +kernel
  simp only [Reply.StartsWith, List.find?_cons, hlinkAccepted, hbareRejected] at hstarts
  obtain ⟨r, hitems⟩ := hstarts
  refine ⟨hcount, by rw [honce], r, ?_⟩
  rw [hsend, honce]
  simpa [hlength, List.takeWhile_cons, hlinkAccepted, hbareRejected] using hitems

end Request

end Netlink
