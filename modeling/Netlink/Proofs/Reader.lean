import Netlink.Proofs.Confirmation
import Netlink.Proofs.Truthful
import Netlink.Proofs.Unpacking

/-!
# Reading a Reply Within Its Buffer

A `Reply` unpacks a datagram when it is received. A `Reader` keeps the datagram and a cursor on
it, and splits one message off when one is pulled. The datagram is cut out of the receive
buffer as far as the endpoint reports, which fails if the endpoint reports more than there is;
so a reader reads all replies of truthful endpoints, and as a `Reply` does.

`Reader.reply` is the reply for which a reader stands: its messages at hand are those that are
left of the datagram.

## Main results

* `Reader.next_agrees`: **a pull on a reader succeeds and is a pull on its reply.**
* `Reader.pulls_eq`: so are any number of pulls.
* `Reader.awaitOutcome_eq`, `Request.checkedConfirm_eq`: an acknowledgement is awaited within the
  buffers.
* `Reader.receive_of_overcount`: with an endpoint that is not truthful, a reader fails.
-/

namespace Netlink

namespace Request

/-- The acknowledgement that a message of the reply brings to the request with the given
sequence number. -/
def checkedAcknowledgement (sequence : UInt32) (m : Message) :
    Checked (Except Fault Acknowledgement) :=
  if m.header.kind ≠ .error then
    .ok (.error (.breach (.kind .error m.header.kind)))
  else if m.header.sequence ≠ sequence then
    .ok (.error (.breach (.sequence sequence m.header.sequence)))
  else
    Acknowledgement.checkedOfMessage m

/-- The acknowledgement that a whole message brings is read without an access that fails. -/
theorem checkedAcknowledgement_eq (sequence : UInt32) {m : Message} (hm : m.Whole) :
    checkedAcknowledgement sequence m = .ok (acknowledgement sequence m) := by
  rw [checkedAcknowledgement, acknowledgement, Acknowledgement.checkedOfMessage_eq hm]
  split
  · rfl
  · split <;> rfl

end Request

/-- Where the reading of a reply stands. -/
inductive Reader.Phase where
  /-- A datagram is to be received. -/
  | awaiting
  /-- This is left of the last datagram. -/
  | draining (c : Cursor)
  /-- Nothing more comes. -/
  | over
  deriving DecidableEq, Repr

/-- The reading of a reply, message by message. -/
structure Reader where
  policy : Policy
  expectation : Expectation
  /-- The receive buffer, with what earlier datagrams left in it. -/
  buffer : Bytes
  phase : Reader.Phase := .awaiting
  history : History := {}
  /-- How many datagrams were received whole. -/
  datagrams : Nat := 0
  deriving DecidableEq, Repr

namespace Reader

/-- A reader of a reply that is still to be read. -/
def start (policy : Policy) (expectation : Expectation) : Reader where
  policy := policy
  expectation := expectation
  buffer := List.replicate policy.bufferSize 0

/-- How many octets of the last datagram are left. -/
def left (r : Reader) : Nat :=
  match r.phase with
  | .draining c => c.remaining
  | _ => 0

/-- Steps that a phase may take without receiving a datagram or delivering a message. -/
def Phase.idleSteps : Phase → Nat
  | .draining _ => 1
  | _ => 0

/-! ### Reading -/

section Reading

variable {σ : Type} [Endpoint σ]

/-- Receives the next datagram and cuts it out of the buffer. -/
def receive (r : Reader) (s : σ) : Checked (Except Fault Cursor × Reader × σ) :=
  let (outcome, buffer, s) := Endpoint.fetch r.policy s r.buffer
  let r := { r with buffer }
  match outcome with
  | .error failure => .ok (.error (.call failure), r, s)
  | .ok receipt =>
    if receipt.truncated then
      .ok (.error (.truncated buffer.length), r, s)
    else do
      let r := { r with datagrams := r.datagrams + 1 }
      let datagram ← Checked.range buffer 0 receipt.count
      return (.ok (.whole datagram), r, s)

/-- Ends a reply with a fault. -/
def fail (r : Reader) (fault : Fault) : Option (Except Fault Message) × Reader :=
  (some (.error fault), { r with phase := .over })

/-- Delivers a message of the datagram at hand. The end of a dump that is too short for its
status is a fault under a strict policy. -/
def deliver (r : Reader) (m : Message) (c : Cursor) : Option (Except Fault Message) × Reader :=
  let r := { r with history := r.history.note m, phase := .draining c }
  if r.policy.strictDone ∧ m.isDone ∧ m.header.length.toNat < Reply.doneLength then
    r.fail (.breach (.shortDone m.header.length))
  else
    (some (.ok m), r)

/-- Ends a reply after its last message. -/
def conclude (r : Reader) : Option (Except Fault Message) × Reader :=
  match r.history.verdict r.expectation with
  | some breach => r.fail (.breach breach)
  | none => (none, { r with phase := .over })

/-- A datagram that was received used up the octets that can be split off it, and more. -/
theorem pending_receive_lt {r r' : Reader} {s s' : σ} {c : Cursor}
    (h : r.receive s = .ok (.ok c, r', s')) :
    Endpoint.pending s' + c.remaining < Endpoint.pending s := by
  rw [receive] at h
  match hf : Endpoint.fetch r.policy s r.buffer with
  | (.error failure, buffer, t) => simp [hf] at h
  | (.ok receipt, buffer, t) =>
    have hlt := Endpoint.pending_fetch_lt (by rw [hf])
    rw [hf] at h hlt
    dsimp only at h hlt
    split at h
    · simp at h
    · rw [Checked.bind_eq_ok_iff] at h
      obtain ⟨datagram, hrange, h⟩ := h
      obtain ⟨rfl, -, rfl⟩ : _ ∧ _ ∧ _ := by simpa using h
      rw [Checked.range] at hrange
      split at hrange
      · obtain rfl := Except.ok.inj hrange
        have := List.length_take_le (receipt.count - 0) (buffer.drop 0)
        rw [Cursor.remaining_whole]
        omega
      · cases hrange

/-- Pulls the next item of a reply: a message, a fault, or nothing when the reply is over. -/
def next (r : Reader) (s : σ) : Checked (Option (Except Fault Message) × Reader × σ) :=
  match _hp : r.phase with
  | .over => .ok (none, r, s)
  | .draining c =>
    match Datagram.checkedNext? c with
    | .error overrun => .error overrun
    | .ok (some m, c) =>
      let (item, r) := r.deliver m c
      .ok (item, r, s)
    | .ok (none, _) =>
      if r.history.wantsMore then
        next { r with phase := .awaiting } s
      else
        let (item, r) := r.conclude
        .ok (item, r, s)
  | .awaiting =>
    match _h : r.receive s with
    | .error overrun => .error overrun
    | .ok (.error fault, r, s) =>
      let (item, r) := r.fail fault
      .ok (item, r, s)
    | .ok (.ok c, r, s) => next { r with phase := .draining c } s
termination_by 2 * Endpoint.pending s + r.phase.idleSteps
decreasing_by
  · simp only [_hp, Phase.idleSteps]
    omega
  · have := pending_receive_lt _h
    simp only [_hp, Phase.idleSteps]
    omega

/-- What `n` pulls give, one after the other. -/
def pulls : Nat → Reader → σ → Checked (List (Option (Except Fault Message)) × Reader × σ)
  | 0, r, s => .ok ([], r, s)
  | n + 1, r, s => do
    let (item, r, s) ← r.next s
    let (later, r, s) ← pulls n r s
    return (item :: later, r, s)

/-! ### What a reader stands for -/

/-- The phase of the reply: the messages that are left of the datagram are at hand. -/
def Phase.reply : Phase → Reply.Phase
  | .awaiting => .awaiting
  | .draining c => .delivering (Datagram.messagesLeft c)
  | .over => .over

/-- The reply for which a reader stands. -/
def reply (r : Reader) : Reply where
  policy := r.policy
  expectation := r.expectation
  buffer := r.buffer
  phase := r.phase.reply
  history := r.history
  datagrams := r.datagrams

/-- What is left of the datagram lies within it. -/
structure Inside (r : Reader) : Prop where
  buffer_lt : r.buffer.length < UInt64.size
  shows_of_draining : ∀ c, r.phase = .draining c → c.Shows c.window

/-- What a reader has still to split off is what the reply has at hand. -/
theorem reply_phase_of_draining {r : Reader} {c : Cursor} (h : r.phase = .draining c) :
    r.reply.phase = .delivering (Datagram.messagesLeft c) := by
  rw [reply, h, Phase.reply]

/-- Before anything was received, nothing can lie outside. -/
theorem inside_start {policy : Policy} (h : policy.bufferSize < UInt64.size)
    (expectation : Expectation) : (start policy expectation).Inside where
  buffer_lt := by rwa [start, List.length_replicate]
  shows_of_draining := by simp [start]

variable {r r' : Reader} {s s' : σ}

/-- To deliver a message is the same for the reader and for the reply it stands for. -/
theorem deliver_eq (r : Reader) (m : Message) (c : Cursor) :
    r.reply.deliver m (Datagram.messagesLeft c)
      = ((r.deliver m c).1, (r.deliver m c).2.reply) := by
  rw [Reply.deliver, deliver]
  by_cases hshort : r.policy.strictDone ∧ m.isDone ∧ m.header.length.toNat < Reply.doneLength
  · rw [if_pos hshort]
    exact if_pos hshort
  · rw [if_neg hshort]
    exact if_neg hshort

/-- To deliver a message leaves no more of the datagram. -/
theorem left_of_deliver_le (r : Reader) (m : Message) (c : Cursor) :
    (r.deliver m c).2.left ≤ c.remaining := by
  rw [deliver]
  split <;> simp [fail, left]

/-- No other message is delivered. -/
theorem eq_of_deliver {m m' : Message} {c : Cursor} (h : (r.deliver m c).1 = some (.ok m')) :
    m' = m := by
  rw [deliver, fail] at h
  dsimp only at h
  split at h <;> simp_all

/-- To end is the same for the reader and for the reply it stands for. -/
theorem conclude_eq (r : Reader) : r.reply.conclude = (r.conclude.1, r.conclude.2.reply) := by
  rw [Reply.conclude, conclude]
  dsimp only [reply]
  cases r.history.verdict r.expectation <;> rfl

/-- A reader stays inside when it delivers a message, if what is left after the message is shown. -/
theorem inside_of_deliver {m : Message} {c : Cursor} (hr : r.Inside) (hc : c.Shows c.window) :
    (r.deliver m c).2.Inside := by
  rw [deliver, fail]
  dsimp only
  split
  · exact ⟨hr.buffer_lt, by simp⟩
  · exact ⟨hr.buffer_lt, by simp [hc]⟩

/-- No message comes at the end. -/
theorem conclude_fst_ne (r : Reader) (m : Message) : r.conclude.1 ≠ some (.ok m) := by
  rw [conclude]
  split <;> simp [fail]

/-- A reader stays inside when it ends. -/
theorem inside_of_conclude (hr : r.Inside) : r.conclude.2.Inside := by
  rw [conclude]
  split <;> exact ⟨hr.buffer_lt, by simp [fail]⟩

/-! ### Pulls -/

/-- What is received from a truthful endpoint is cut out of the buffer. -/
theorem exists_receive (hr : r.buffer.length < UInt64.size) (hs : Endpoint.Truthful s) :
    ∃ outcome r', r.receive s = .ok (outcome, r', (r.reply.receive s).2.2) ∧
      outcome.map Datagram.messagesLeft = (r.reply.receive s).1 ∧
      r'.reply = (r.reply.receive s).2.1 ∧ r'.buffer.length < UInt64.size ∧
      Endpoint.Truthful (r.reply.receive s).2.2 ∧ ∀ c, outcome = .ok c → c.Shows c.window := by
  have hlength := Endpoint.length_fetch r.policy s r.buffer
  have htruthful := hs.fetch r.policy r.buffer
  match hf : Endpoint.fetch r.policy s r.buffer with
  | (.error failure, buffer, s') =>
      have hreply := Reply.receive_of_error (r := r.reply) hf
      rw [hf] at hlength htruthful
      rw [hreply]
      refine ⟨.error (.call failure), { r with buffer }, ?_, rfl, rfl, ?_, htruthful, by simp⟩
      · rw [receive, hf]
      · exact Nat.lt_of_le_of_lt (Nat.le_of_eq hlength) hr
  | (.ok receipt, buffer, s') =>
      have hok : (Endpoint.fetch r.policy s r.buffer).1 = .ok receipt := by rw [hf]
      have hle := hs.count_fetch_le hok
      have hreply := Reply.receive_of_ok (r := r.reply) hf
      rw [hf] at hlength htruthful
      have hcount : receipt.count ≤ buffer.length := Nat.le_trans hle (Nat.le_of_eq hlength.symm)
      have hbuffer : buffer.length < UInt64.size := Nat.lt_of_le_of_lt (Nat.le_of_eq hlength) hr
      by_cases hcut : receipt.truncated
      · rw [Arrival.ofReceipt, if_pos hcut] at hreply
        rw [hreply]
        refine ⟨.error (.truncated buffer.length), { r with buffer }, ?_, rfl, rfl, hbuffer,
          htruthful, by simp⟩
        rw [receive, hf]
        exact if_pos hcut
      · -- Here the count is used, and the endpoint must be truthful for the range to succeed.
        have hrange := Checked.range_eq (Nat.zero_le receipt.count) hcount
        rw [List.drop_zero, Nat.sub_zero] at hrange
        have hdatagram : (buffer.take receipt.count).length < UInt64.size :=
          Nat.lt_of_le_of_lt (List.length_take_le' _ _) hbuffer
        have hshows := Cursor.shows_whole hdatagram
        rw [Arrival.ofReceipt, if_neg hcut, if_neg (Nat.not_lt.2 hcount)] at hreply
        rw [hreply]
        refine ⟨.ok (.whole (buffer.take receipt.count)),
          { r with buffer, datagrams := r.datagrams + 1 }, ?_, ?_, rfl, hbuffer, htruthful, ?_⟩
        · rw [receive, hf]
          dsimp only
          rw [if_neg hcut, hrange]
          rfl
        · exact congrArg Except.ok (Datagram.messagesLeft_whole hdatagram)
        · rintro c ⟨⟩
          rwa [hshows.window_eq]

/-- Of a truthful endpoint no receive fails by an access. -/
theorem receive_ne_error (hr : r.buffer.length < UInt64.size) (hs : Endpoint.Truthful s)
    (overrun : Overrun) : r.receive s ≠ .error overrun := by
  obtain ⟨outcome, r', h, -⟩ := exists_receive hr hs
  simp [h]

/-- What was received is what the reply receives. -/
theorem receive_of_ok {outcome : Except Fault Cursor} (hr : r.buffer.length < UInt64.size)
    (hs : Endpoint.Truthful s) (h : r.receive s = .ok (outcome, r', s')) :
    r.reply.receive s = (outcome.map Datagram.messagesLeft, r'.reply, s') ∧
      r'.buffer.length < UInt64.size ∧ Endpoint.Truthful s' ∧
      ∀ c, outcome = .ok c → c.Shows c.window := by
  obtain ⟨outcome₁, r₁, hreceive, houtcome, hreply, hbuffer, htruthful, hshows⟩ :=
    exists_receive hr hs
  obtain ⟨rfl, rfl, rfl⟩ : outcome₁ = outcome ∧ r₁ = r' ∧ (r.reply.receive s).2.2 = s' := by
    simpa [hreceive] using h
  exact ⟨by rw [houtcome, hreply], hbuffer, htruthful, hshows⟩

/-- The endpoint must be truthful: a count beyond the buffer makes the reader overrun it. -/
theorem receive_of_overcount {receipt : Receipt} {buffer : Bytes}
    (h : Endpoint.fetch r.policy s r.buffer = (.ok receipt, buffer, s'))
    (hwhole : receipt.truncated = false) (hcount : buffer.length < receipt.count) :
    r.receive s = .error (.range 0 receipt.count buffer.length) := by
  have hbounds : ¬(0 ≤ receipt.count ∧ receipt.count ≤ buffer.length) := by omega
  rw [receive, h]
  dsimp only
  rw [if_neg (Bool.eq_false_iff.1 hwhole), Checked.range, if_neg hbounds]
  rfl

/-- A pull succeeded and did what the pull on a reply does. A message that was pulled has a
whole record. -/
structure Agrees (x : Checked (Option (Except Fault Message) × Reader × σ))
    (y : Option (Except Fault Message) × Reply × σ) : Prop where
  exists_reader : ∃ r' : Reader, x = .ok (y.1, r', y.2.2) ∧ r'.reply = y.2.1 ∧ r'.Inside
  truthful : Endpoint.Truthful y.2.2
  whole : ∀ m, y.1 = some (.ok m) → m.Whole

/-- **A pull on a reader succeeds and is a pull on its reply.** -/
theorem next_agrees (hr : r.Inside) (hs : Endpoint.Truthful s) :
    Agrees (r.next s) (r.reply.next s) := by
  -- One case for each way through the loop; a pass that does not end it keeps the invariant.
  fun_induction Reader.next r s with
  | case1 r s hp =>
      have hover : r.reply.phase = .over := by rw [reply, hp, Phase.reply]
      rw [Reply.next_of_over hover]
      exact ⟨⟨r, rfl, rfl, hr⟩, hs, by simp⟩
  | case2 r s c hp overrun hnext =>
      exact absurd hnext (Datagram.checkedNext?_ne_error (hr.shows_of_draining c hp) overrun)
  | case3 r s c hp m c' hnext item r' hdeliver =>
      have hc := hr.shows_of_draining c hp
      have hqueue := reply_phase_of_draining hp
      obtain ⟨hleft, hshows⟩ := Datagram.messagesLeft_of_some hc hnext
      have hwhole : m.Whole := Datagram.whole_of_mem_messagesLeft hc (by simp [hleft])
      have hinside : (r.deliver m c').2.Inside := inside_of_deliver hr hshows
      have heq : ∀ m₁, (r.deliver m c').1 = some (.ok m₁) → m₁ = m := fun m₁ => eq_of_deliver
      rw [hleft] at hqueue
      rw [Reply.next_of_message hqueue, deliver_eq]
      rw [hdeliver] at hinside heq ⊢
      exact ⟨⟨r', rfl, rfl, hinside⟩, hs, fun m₁ hm₁ => heq m₁ hm₁ ▸ hwhole⟩
  | case4 r s c hp c' hnext hmore ih =>
      have hqueue := reply_phase_of_draining hp
      rw [Datagram.messagesLeft_of_none (hr.shows_of_draining c hp) hnext] at hqueue
      rw [Reply.next_of_more hqueue hmore]
      exact ih ⟨hr.buffer_lt, by simp⟩ hs
  | case5 r s c hp c' hnext hmore item r' hconclude =>
      have hqueue := reply_phase_of_draining hp
      have hinside : r.conclude.2.Inside := inside_of_conclude hr
      have hne := conclude_fst_ne r
      rw [Datagram.messagesLeft_of_none (hr.shows_of_draining c hp) hnext] at hqueue
      rw [Reply.next_of_end hqueue (Bool.eq_false_iff.2 hmore), conclude_eq]
      rw [hconclude] at hinside hne ⊢
      exact ⟨⟨r', rfl, rfl, hinside⟩, hs, fun m hm => absurd hm (hne m)⟩
  | case6 r s hp overrun hreceive =>
      exact absurd hreceive (receive_ne_error hr.buffer_lt hs overrun)
  | case7 r s hp fault r' s' hreceive item r'' hfail =>
      have hawaiting : r.reply.phase = .awaiting := by rw [reply, hp, Phase.reply]
      obtain ⟨hreply, hbuffer, htruthful, -⟩ := receive_of_ok hr.buffer_lt hs hreceive
      obtain ⟨rfl, rfl⟩ := Prod.mk.inj hfail
      rw [Reply.next_of_fault hawaiting hreply]
      exact ⟨⟨_, rfl, rfl, hbuffer, by simp⟩, htruthful, by simp⟩
  | case8 r s hp c r' s' hreceive ih =>
      have hawaiting : r.reply.phase = .awaiting := by rw [reply, hp, Phase.reply]
      obtain ⟨hreply, hbuffer, htruthful, hshows⟩ := receive_of_ok hr.buffer_lt hs hreceive
      rw [Reply.next_of_queue hawaiting hreply]
      exact ih ⟨hbuffer, by simpa using hshows⟩ htruthful

/-- What a pull gave is what the pull on the reply gives. -/
theorem next_of_ok {item : Option (Except Fault Message)} (hr : r.Inside)
    (hs : Endpoint.Truthful s) (h : r.next s = .ok (item, r', s')) :
    r.reply.next s = (item, r'.reply, s') ∧ r'.Inside ∧ Endpoint.Truthful s' ∧
      ∀ m, item = some (.ok m) → m.Whole := by
  obtain ⟨⟨r₁, hnext, hreply, hinside⟩, htruthful, hwhole⟩ := next_agrees hr hs
  obtain ⟨rfl, rfl, rfl⟩ : item = (r.reply.next s).1 ∧ r' = r₁ ∧ s' = (r.reply.next s).2.2 := by
    simpa [hnext] using h.symm
  exact ⟨by rw [hreply], hinside, htruthful, hwhole⟩

/-- Any number of pulls succeed, and are the pulls on the reply. All messages that are pulled
have whole records. -/
theorem pulls_eq (n : Nat) (hr : r.Inside) (hs : Endpoint.Truthful s) :
    (pulls n r s).map (fun (items, r, s) => (items, r.reply, s)) = .ok (Reply.pulls n r.reply s) ∧
      ∀ m, some (.ok m) ∈ (Reply.pulls n r.reply s).1 → m.Whole := by
  induction n generalizing r s with
  | zero => exact ⟨rfl, by simp [Reply.pulls]⟩
  | succ n ih =>
      obtain ⟨⟨r', hnext, hreply, hinside⟩, htruthful, hwhole⟩ := next_agrees hr hs
      obtain ⟨hlater, hmembers⟩ := ih hinside htruthful
      rw [pulls, hnext, Checked.ok_bind]
      rw [hreply] at hlater hmembers
      rw [Reply.pulls_succ rfl]
      dsimp only
      constructor
      · cases hp : pulls n r' (r.reply.next s).2.2 with
        | error overrun => simp [hp, Except.map] at hlater
        | ok later =>
            rw [hp] at hlater
            rw [← Except.ok.inj hlater]
            rfl
      · intro m hm
        rcases List.mem_cons.1 hm with hm | hm
        · exact hwhole m hm.symm
        · exact hmembers m hm

/-! ### Waiting for an acknowledgement -/

/-- A message that was pulled used something up: of what the endpoint had pending, or of the
datagram at hand. -/
theorem next_decreases {m : Message} (h : r.next s = .ok (some (.ok m), r', s')) :
    Endpoint.pending s' + r'.left < Endpoint.pending s + r.left := by
  fun_induction Reader.next r s with
  | case1 r s hp => simp at h
  | case2 r s c hp overrun hnext => simp at h
  | case3 r s c hp m₁ c' hnext item r₁ hdeliver =>
      obtain ⟨rfl, rfl, rfl⟩ : item = _ ∧ r₁ = _ ∧ s = _ := by simpa using h
      have hlt := Datagram.remaining_lt_of_checkedNext? hnext
      have hle := left_of_deliver_le r m₁ c'
      have hleft : r.left = c.remaining := by rw [left, hp]
      rw [hdeliver] at hle
      dsimp only at hle
      omega
  | case4 r s c hp c' hnext hmore ih =>
      exact Nat.lt_of_lt_of_le (ih h) (Nat.le_add_right _ _)
  | case5 r s c hp c' hnext hmore item r₁ hconclude =>
      obtain ⟨rfl, -⟩ : item = _ ∧ _ := by simpa using h
      exact absurd (by rw [hconclude]) (conclude_fst_ne r m)
  | case6 r s hp overrun hreceive => simp at h
  | case7 r s hp fault r₁ s₁ hreceive item r₂ hfail =>
      obtain ⟨rfl, -⟩ : item = _ ∧ _ := by simpa using h
      simp [fail] at hfail
  | case8 r s hp c r₁ s₁ hreceive ih =>
      have hlt := pending_receive_lt hreceive
      have hlt' := ih h
      change Endpoint.pending s' + r'.left < Endpoint.pending s₁ + c.remaining at hlt'
      omega

/-- Reads acknowledgements to the end of the reply, or to the first message that is none;
`last` is the last one so far. -/
def awaitOutcome (sequence : UInt32) (last : Option Acknowledgement) (r : Reader) (s : σ) :
    Checked (Except Fault Unit × σ) :=
  match _h : r.next s with
  | .error overrun => .error overrun
  | .ok (none, _, s) => .ok (Request.outcome last, s)
  | .ok (some (.error fault), _, s) => .ok (.error fault, s)
  | .ok (some (.ok m), r, s) =>
    match Request.checkedAcknowledgement sequence m with
    | .error overrun => .error overrun
    | .ok (.error fault) => .ok (.error fault, s)
    | .ok (.ok a) => awaitOutcome sequence (some a) r s
termination_by Endpoint.pending s + r.left
decreasing_by exact next_decreases _h

/-- **A reader waits for an acknowledgement as the reply does**, without an access that fails. -/
theorem awaitOutcome_eq (sequence : UInt32) (last : Option Acknowledgement) (hr : r.Inside)
    (hs : Endpoint.Truthful s) :
    r.awaitOutcome sequence last s = .ok (Request.awaitOutcome sequence last r.reply s) := by
  fun_induction Reader.awaitOutcome sequence last r s with
  | case1 last r s overrun h =>
      obtain ⟨⟨r', hnext, -⟩, -⟩ := next_agrees hr hs
      simp [h] at hnext
  | case2 last r s r' s' h =>
      obtain ⟨hreply, -⟩ := next_of_ok hr hs h
      rw [Request.awaitOutcome_of_none hreply]
  | case3 last r s fault r' s' h =>
      obtain ⟨hreply, -⟩ := next_of_ok hr hs h
      rw [Request.awaitOutcome_of_error hreply]
  | case4 last r s m r' s' h overrun hack =>
      obtain ⟨hreply, -, -, hwhole⟩ := next_of_ok hr hs h
      simp [Request.checkedAcknowledgement_eq sequence (hwhole m rfl)] at hack
  | case5 last r s m r' s' h fault hack =>
      obtain ⟨hreply, -, -, hwhole⟩ := next_of_ok hr hs h
      rw [Request.checkedAcknowledgement_eq sequence (hwhole m rfl)] at hack
      rw [Request.awaitOutcome_of_ok hreply, Except.ok.inj hack]
  | case6 last r s m r' s' h a hack ih =>
      obtain ⟨hreply, hinside, htruthful, hwhole⟩ := next_of_ok hr hs h
      rw [Request.checkedAcknowledgement_eq sequence (hwhole m rfl)] at hack
      rw [Request.awaitOutcome_of_ok hreply, Except.ok.inj hack]
      exact ih hinside htruthful

end Reading

end Reader

namespace Request

/-- Sends a request and waits for its acknowledgement. -/
def checkedConfirm {σ : Type} [Endpoint σ] (policy : Policy) (sequence : UInt32)
    (request : Message) (s : σ) : Checked (Except Fault Unit × σ) :=
  let (outcome, s) := send policy request s
  match outcome with
  | .error fault => .ok (.error fault, s)
  | .ok () => (Reader.start policy .acknowledgement).awaitOutcome sequence none s

/-- **A request that waits for its acknowledgement reads within its buffers**, if the size of a
buffer fits into sixty-four bits. -/
theorem checkedConfirm_eq {σ : Type} [Endpoint σ] {policy : Policy}
    (hsize : policy.bufferSize < UInt64.size) {s : σ} (hs : Endpoint.Truthful s)
    (sequence : UInt32) (request : Message) :
    checkedConfirm policy sequence request s = .ok (confirm policy sequence request s) := by
  have htruthful := hs.transmit policy request.octets
  match hsend : Endpoint.transmit policy s request.octets with
  | (.error failure, s') =>
      rw [confirm_of_send_error hsend, checkedConfirm, send, hsend]
  | (.ok n, s') =>
      rw [hsend] at htruthful
      rw [confirm_of_send_ok hsend, checkedConfirm, send, hsend]
      exact Reader.awaitOutcome_eq sequence none (Reader.inside_start hsize _) htruthful

end Request

end Netlink
