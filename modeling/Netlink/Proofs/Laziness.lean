import Netlink.Proofs.Ledger
import Netlink.Proofs.Silence
import Netlink.Proofs.Transcript

/-!
# A Reply Receives What It Needs

A datagram too many is not harmless: the receive may wait for ever, or take the answer to the next
request. So a reply receives a datagram only when a message is pulled that is in none of those it
has, and only while the messages so far ask for another.

Both are read off a ledger of the receives. `Reply.Reading` relates a reply in the middle of its
reading to the ledger and to the messages it gave: the datagrams entered hold these messages and
the ones at hand, and each but the last held too few. A pull keeps this or ends the reply, and then
what was entered last is why it ended.

## Main results

* `Reply.next_reading`: a pull gives the next message, or ends the reply.
* `Reply.pulls_reading`: so do any number of pulls.
* `Reply.receives_as_needed`: **a reply receives as many datagrams as the messages pulled need, and
  none after its last.**
-/

namespace Netlink

open Ledgered (settled uncut Adds)

/-! ### Frugal ledgers -/

/-- After these receives another may be made: nothing has come yet, or whole datagrams whose
messages ask for another. -/
def AsksForMore (ledger : List (Except CallFailure Arrival)) : Prop :=
  settled ledger = [] ∨
    ∃ datagrams : List Bytes, settled ledger = datagrams.map (fun d => .ok (.whole d)) ∧
      Course.goesOn (datagrams.flatMap Datagram.messages)

/-- Whenever a receive was made, those before it left room for another. -/
def Frugal (ledger : List (Except CallFailure Arrival)) : Prop :=
  ∀ i < ledger.length, AsksForMore (ledger.take i)

/-- A ledger stays frugal if it is added to where there was reason to ask for more. -/
theorem Frugal.adds {outcome : Except CallFailure Arrival}
    {before after : List (Except CallFailure Arrival)} (h : Frugal before)
    (hmore : AsksForMore before) (hadds : Adds outcome before after) : Frugal after := by
  obtain ⟨tries, htries, rfl⟩ := hadds
  intro i hi
  rw [List.append_assoc]
  rcases Nat.lt_or_ge i before.length with hlt | hge
  · rw [List.take_append_of_le_length (Nat.le_of_lt hlt)]
    exact h i hlt
  · -- only interrupted attempts stand between, and they settle nothing
    obtain ⟨k, rfl⟩ := Nat.exists_eq_add_of_le hge
    have hk : k ≤ tries.length := by
      simp only [List.length_append, List.length_singleton] at hi
      omega
    have hsettled : settled (before ++ tries.take k) = settled before := by
      rw [settled, List.filter_append, ← settled, ← settled,
        Ledgered.settled_of_interrupted fun t ht => htries t (List.mem_of_mem_take ht),
        List.append_nil]
    rw [List.take_append, List.take_of_length_le (Nat.le_add_right _ _), Nat.add_sub_cancel_left,
      List.take_append_of_le_length hk]
    rwa [AsksForMore, hsettled]

/-- For this many messages no fewer than these datagrams are enough. -/
def Needed (count : Nat) (datagrams : List Bytes) : Prop :=
  ∀ c < datagrams.length, ((datagrams.take c).flatMap Datagram.messages).length < count

namespace Reply

variable {σ : Type} [Endpoint σ]

/-- A reply in the middle of its reading, with the messages that it gave, the datagrams that it
received for them, and the ledger of its receives. -/
structure Reading (ms : List Message) (datagrams : List Bytes) (r : Reply)
    (ledger : List (Except CallFailure Arrival)) : Prop where
  settled_eq : settled ledger = datagrams.map fun d => .ok (.whole d)
  frugal : Frugal ledger
  count_eq : r.datagrams = ledger.countP uncut
  history_eq : r.history = .of ms
  /-- What the datagrams hold was given or is at hand. -/
  messages_eq : datagrams.flatMap Datagram.messages = ms ++ r.queue
  /-- Fewer datagrams hold no message that was not given. -/
  needed : Needed (ms.length + 1) datagrams
  /-- A datagram is awaited only where there is reason to. -/
  asks : r.phase = .awaiting → AsksForMore ledger
  going : r.phase ≠ .over

/-- A reply that ended with an item, and the ledger of its receives. A call that failed is the last
one made. -/
structure Ended (items : List (Option (Except Fault Message))) (r : Reply)
    (ledger : List (Except CallFailure Arrival)) : Prop where
  frugal : Frugal ledger
  count_eq : r.datagrams = ledger.countP uncut
  failure_last : ∀ failure, some (.error (.call failure)) ∈ items →
    ledger.getLast? = some (.error failure)
  silent : ∃ item ∈ items, ∀ m, item ≠ some (.ok m)

variable {ms : List Message} {datagrams : List Bytes} {r r' : Reply} {l l' : Ledgered σ}

/-! ### Receives -/

/-- What a reply is told by what came of a receive: the messages, or what is wrong. -/
def told (bufferSize : Nat) : Except CallFailure Arrival → Except Fault (List Message)
  | .error failure => .error (.call failure)
  | .ok .cut => .error (.truncated bufferSize)
  | .ok (.miscounted reported) => .error (.miscounted reported bufferSize)
  | .ok (.whole datagram) => .ok (Datagram.messages datagram)

/-- What comes of a receive is entered in the ledger, told, and counted unless it was cut. -/
theorem adds_receive (r : Reply) (l : Ledgered σ) :
    ∃ outcome buffer, Adds outcome l.ledger (r.receive l).2.2.ledger ∧
      (r.receive l).1 = told buffer.length outcome ∧
      (r.receive l).2.1
        = { r with buffer, datagrams := r.datagrams + if uncut outcome then 1 else 0 } := by
  have hadds := Ledgered.adds_fetch r.policy l r.buffer
  match hfetch : Endpoint.fetch r.policy l r.buffer with
  | (.error failure, buffer, l') =>
      rw [hfetch] at hadds
      rw [receive_of_error hfetch]
      exact ⟨_, buffer, hadds, rfl, rfl⟩
  | (.ok receipt, buffer, l') =>
      rw [hfetch] at hadds
      rw [receive_of_ok hfetch]
      dsimp only [Except.map] at hadds
      cases harrival : Arrival.ofReceipt receipt buffer <;> rw [harrival] at hadds <;>
        exact ⟨_, buffer, hadds, rfl, rfl⟩

/-- A receive that ends in a fault is entered in the ledger as what it was. -/
theorem adds_of_fault {fault : Fault} (h : r.receive l = (.error fault, r', l')) :
    ∃ outcome, Adds outcome l.ledger l'.ledger ∧
      r'.datagrams = r.datagrams + (if uncut outcome then 1 else 0) ∧
      ∀ failure, fault = .call failure → outcome = .error failure := by
  obtain ⟨outcome, buffer, hadds, htold, hr⟩ := adds_receive r l
  rw [h] at hadds htold hr
  refine ⟨outcome, hadds, congrArg Reply.datagrams hr, ?_⟩
  rintro failure rfl
  match outcome with
  | .error failure' => simpa [told, eq_comm] using htold

/-- A datagram that is unpacked is entered in the ledger as a whole one. -/
theorem adds_of_queue {queue : List Message} (h : r.receive l = (.ok queue, r', l')) :
    ∃ datagram buffer, Adds (.ok (.whole datagram)) l.ledger l'.ledger ∧
      queue = Datagram.messages datagram ∧
      r' = { r with buffer, datagrams := r.datagrams + 1 } := by
  obtain ⟨outcome, buffer, hadds, htold, hr⟩ := adds_receive r l
  rw [h] at hadds htold hr
  match outcome with
  | .ok (.whole datagram) => exact ⟨datagram, buffer, hadds, Except.ok.inj htold, hr⟩

/-! ### Pulls -/

/-- While a datagram is awaited, no message is at hand. -/
theorem queue_of_awaiting (h : r.phase = .awaiting) : r.queue = [] := by rw [queue, h]

theorem queue_of_delivering {queue : List Message} (h : r.phase = .delivering queue) :
    r.queue = queue := by rw [Reply.queue, h]

/-- Before anything was received, a reply is in the middle of its reading. -/
theorem reading_start (policy : Policy) (e : Expectation) : Reading [] [] (start policy e) [] where
  settled_eq := rfl
  frugal _ hi := absurd hi (Nat.not_lt_zero _)
  count_eq := rfl
  history_eq := rfl
  messages_eq := rfl
  needed _ hc := absurd hc (Nat.not_lt_zero _)
  asks _ := .inl rfl
  going := by simp [start]

/-- A datagram with no message left, after which another follows: the reply awaits it. -/
theorem Reading.await {ledger : List (Except CallFailure Arrival)}
    (h : Reading ms datagrams r ledger) (hp : r.phase = .delivering [])
    (hmore : r.history.wantsMore) :
    Reading ms datagrams { r with phase := .awaiting } ledger := by
  have hmessages := h.messages_eq
  rw [queue_of_delivering hp, List.append_nil] at hmessages
  refine { h with messages_eq := ?_, asks := fun _ => .inr ⟨datagrams, h.settled_eq, ?_⟩,
                  going := by simp }
  · rw [hmessages]
    exact (List.append_nil ms).symm
  · rwa [hmessages, ← History.wantsMore_of, ← h.history_eq]

/-- A datagram that was awaited: the reply delivers its messages. -/
theorem Reading.open {datagram buffer : Bytes} {before after : List (Except CallFailure Arrival)}
    (h : Reading ms datagrams r before) (hp : r.phase = .awaiting)
    (hadds : Adds (.ok (.whole datagram)) before after) :
    Reading ms (datagrams ++ [datagram])
      { r with
        buffer, datagrams := r.datagrams + 1, phase := .delivering (Datagram.messages datagram) }
      after where
  settled_eq := by
    rw [Ledgered.settled_of_adds hadds, h.settled_eq, List.map_append]
    rfl
  frugal := h.frugal.adds (h.asks hp) hadds
  count_eq := by
    rw [Ledgered.countP_uncut_of_adds hadds, ← h.count_eq]
    rfl
  history_eq := h.history_eq
  messages_eq := by
    have hmessages := h.messages_eq
    rw [queue_of_awaiting hp, List.append_nil] at hmessages
    rw [List.flatMap_append, List.flatMap_singleton, hmessages]
    rfl
  needed c hc := by
    have hmessages := h.messages_eq
    rw [queue_of_awaiting hp, List.append_nil] at hmessages
    rw [List.length_append, List.length_singleton] at hc
    rw [List.take_append_of_le_length (Nat.le_of_lt_succ hc), ← hmessages,
      ← List.take_append_drop c datagrams, List.flatMap_append, List.length_append,
      List.take_append_drop]
    exact Nat.lt_succ_of_le (Nat.le_add_right _ _)
  asks hawaiting := by simp at hawaiting
  going := by simp

/-- A message that is delivered was at hand. -/
theorem Reading.message {m : Message} {queue : List Message}
    {ledger : List (Except CallFailure Arrival)} (h : Reading ms datagrams r ledger)
    (hp : r.phase = .delivering (m :: queue)) :
    Reading (ms ++ [m]) datagrams
      { r with history := r.history.note m, phase := .delivering queue } ledger where
  settled_eq := h.settled_eq
  frugal := h.frugal
  count_eq := h.count_eq
  history_eq := by rw [h.history_eq, History.of_concat]
  messages_eq := by
    rw [h.messages_eq, queue_of_delivering hp, List.append_cons]
    rfl
  needed c hc := by
    rw [List.length_append]
    exact Nat.lt_succ_of_lt (h.needed c hc)
  asks hawaiting := by simp at hawaiting
  going := by simp

/-- A receive that fails is one that was asked for, and ends the reply. -/
theorem Reading.fault {fault : Fault} (h : Reading ms datagrams r l.ledger)
    (hp : r.phase = .awaiting) (hreceive : r.receive l = (.error fault, r', l')) :
    Ended [some (.error fault)] { r' with phase := .over } l'.ledger := by
  obtain ⟨outcome, hadds, hcount, hcall⟩ := adds_of_fault hreceive
  refine ⟨h.frugal.adds (h.asks hp) hadds, ?_, fun failure hmem => ?_, _, List.mem_singleton_self _,
    by simp⟩
  · rw [Ledgered.countP_uncut_of_adds hadds, ← h.count_eq]
    exact hcount
  · rw [Ledgered.getLast?_of_adds hadds, hcall failure (by simpa [eq_comm] using hmem)]

/-- An end that is not due to a call leaves the ledger as it is. -/
theorem Reading.over {item : Option (Except Fault Message)} {history : History}
    {ledger : List (Except CallFailure Arrival)} (h : Reading ms datagrams r ledger)
    (hitem : item = none ∨ ∃ breach, item = some (.error (.breach breach))) :
    Ended [item] { r with history, phase := .over } ledger where
  frugal := h.frugal
  count_eq := h.count_eq
  failure_last failure hmem := by
    obtain rfl := List.mem_singleton.1 hmem
    simp at hitem
  silent := ⟨item, List.mem_singleton_self _, by
    rintro m rfl
    simp at hitem⟩

/-- A message that was at hand is delivered, or it is refused. -/
theorem Reading.deliver {m : Message} {queue : List Message}
    {ledger : List (Except CallFailure Arrival)} (h : Reading ms datagrams r ledger)
    (hp : r.phase = .delivering (m :: queue)) :
    ((r.deliver m queue).1 = some (.ok m) ∧
        Reading (ms ++ [m]) datagrams (r.deliver m queue).2 ledger) ∨
      Ended [(r.deliver m queue).1] (r.deliver m queue).2 ledger := by
  rw [Reply.deliver]
  split
  · exact .inr (h.over (.inr ⟨_, rfl⟩))
  · exact .inl ⟨rfl, h.message hp⟩

/-- A reply that is not to go on comes to its end. -/
theorem Reading.conclude {ledger : List (Except CallFailure Arrival)}
    (h : Reading ms datagrams r ledger) : Ended [r.conclude.1] r.conclude.2 ledger := by
  rw [Reply.conclude]
  split
  · exact h.over (.inr ⟨_, rfl⟩)
  · exact h.over (.inl rfl)

/-- **A pull gives the next message, or ends the reply.** A message that is given needed all
datagrams received so far. -/
theorem next_reading (h : Reading ms datagrams r l.ledger) :
    (∃ m datagrams', (r.next l).1 = some (.ok m) ∧ Needed (ms.length + 1) datagrams' ∧
        Reading (ms ++ [m]) datagrams' (r.next l).2.1 (r.next l).2.2.ledger) ∨
      Ended [(r.next l).1] (r.next l).2.1 (r.next l).2.2.ledger := by
  -- One case for each way through the loop; a pass that does not end it keeps the invariant.
  fun_induction Reply.next r l generalizing datagrams with
  | case1 r l hp => exact absurd hp h.going
  | case2 r l m queue hp item r' hdeliver =>
      have hpull := h.deliver hp
      rw [hdeliver] at hpull
      obtain ⟨hitem, hreading⟩ | hended := hpull
      · exact .inl ⟨m, datagrams, hitem, h.needed, hreading⟩
      · exact .inr hended
  | case3 r l hp hmore ih => exact ih (h.await hp hmore)
  | case4 r l hp hmore item r' hconclude =>
      have hended := h.conclude
      rw [hconclude] at hended
      exact .inr hended
  | case5 r l hp fault r' l' hreceive item r'' hfail =>
      obtain ⟨rfl, rfl⟩ := Prod.mk.inj hfail
      exact .inr (h.fault hp hreceive)
  | case6 r l hp queue r' l' hreceive ih =>
      obtain ⟨datagram, buffer, hadds, rfl, rfl⟩ := adds_of_queue hreceive
      exact ih (h.open hp hadds)

/-! ### Runs -/

/-- How a reply ended is not changed by pulls that give messages before, or nothing after. -/
theorem Ended.mono {items items' : List (Option (Except Fault Message))}
    {ledger : List (Except CallFailure Arrival)} (h : Ended items r ledger) (hsub : items ⊆ items')
    (hfault : ∀ fault, some (.error fault) ∈ items' → some (.error fault) ∈ items) :
    Ended items' r ledger where
  frugal := h.frugal
  count_eq := h.count_eq
  failure_last failure hmem := h.failure_last failure (hfault _ hmem)
  silent := by
    obtain ⟨item, hitem, hno⟩ := h.silent
    exact ⟨item, hsub hitem, hno⟩

/-- **Any number of pulls give messages, or end the reply.** The messages given needed all
datagrams received. -/
theorem pulls_reading (n : Nat) (h : Reading ms datagrams r l.ledger)
    (hneeded : Needed ms.length datagrams) :
    (∃ ms' datagrams', (pulls n r l).1 = ms'.map (fun m => some (.ok m)) ∧
        Needed (ms ++ ms').length datagrams' ∧
        Reading (ms ++ ms') datagrams' (pulls n r l).2.1 (pulls n r l).2.2.ledger) ∨
      Ended (pulls n r l).1 (pulls n r l).2.1 (pulls n r l).2.2.ledger := by
  induction n generalizing ms datagrams r l with
  | zero =>
      refine .inl ⟨[], datagrams, rfl, ?_⟩
      rw [List.append_nil]
      exact ⟨hneeded, h⟩
  | succ n ih =>
      rw [pulls_succ (n := n) (r := r) (s := l) rfl]
      obtain ⟨m, datagrams', hm, hneeded', h'⟩ | hended := next_reading h
      · have hlength : (ms ++ [m]).length = ms.length + 1 := by simp
        rw [← hlength] at hneeded'
        obtain ⟨ms', datagrams'', hms', hreading⟩ | hended := ih h' hneeded'
        · refine .inl ⟨m :: ms', datagrams'', ?_, ?_⟩
          · rw [hm, hms', List.map_cons]
          · rwa [List.append_cons]
        · refine .inr (hended.mono (List.subset_cons_self ..) fun fault hmem => ?_)
          simpa [hm] using hmem
      · -- the reply is over, and the other pulls give nothing
        obtain ⟨item, hitem, hno⟩ := hended.silent
        obtain rfl := List.mem_singleton.1 hitem
        rw [pulls_of_over n (phase_of_next hno)]
        refine .inr (hended.mono ?_ fun fault hmem => ?_)
        · exact List.cons_subset_cons _ (List.nil_subset _)
        · simpa using hmem

/-- What was given comes first among what the datagrams hold. -/
theorem Reading.eq_take {ledger : List (Except CallFailure Arrival)}
    (h : Reading ms datagrams r ledger) :
    ms = (datagrams.flatMap Datagram.messages).take ms.length ∧
      ms.length ≤ (datagrams.flatMap Datagram.messages).length := by
  rw [h.messages_eq, List.take_left, List.length_append]
  exact ⟨rfl, Nat.le_add_right _ _⟩

/-- A reply that ended gave more than messages. -/
theorem Ended.ne_map {items : List (Option (Except Fault Message))}
    {ledger : List (Except CallFailure Arrival)} (h : Ended items r ledger) (ms : List Message) :
    items ≠ ms.map fun m => some (.ok m) := by
  rintro rfl
  obtain ⟨item, hitem, hno⟩ := h.silent
  obtain ⟨m, -, rfl⟩ := List.mem_map.1 hitem
  exact hno m rfl

/-- **A reply receives as many datagrams as the messages pulled need, and none after its last.**
With a ledger of its receives, a reply gives what it gives without. Where the pulls so far gave only
messages, what is settled are whole datagrams, and for that many messages no fewer of them are
enough. Whatever the pulls gave, each receive was made when nothing had come yet or when the
messages of all datagrams so far asked for another. A call that failed was the last. After an item
that is no message no more is received. And the datagrams counted are those that succeeded and were
not cut. -/
theorem receives_as_needed (policy : Policy) (e : Expectation) (s : σ) (n : Nat) :
    let run := pulls n (start policy e) (⟨s, []⟩ : Ledgered σ)
    let ledger := run.2.2.ledger
    pulls n (start policy e) s = Ledgered.forget run ∧
      (∀ ms, run.1 = ms.map (fun m => some (.ok m)) →
        ∃ datagrams : List Bytes, settled ledger = datagrams.map (fun d => .ok (.whole d)) ∧
          ms = (datagrams.flatMap Datagram.messages).take n ∧
          n ≤ (datagrams.flatMap Datagram.messages).length ∧ Needed n datagrams) ∧
      Frugal ledger ∧
      (∀ failure, some (.error (.call failure)) ∈ run.1 →
        ledger.getLast? = some (.error failure)) ∧
      ((∃ item ∈ run.1, ∀ m, item ≠ some (.ok m)) →
        ∀ k, (pulls k run.2.1 run.2.2).2.2 = run.2.2) ∧
      run.2.1.datagrams = ledger.countP uncut := by
  intro run ledger
  have hforget : pulls n (start policy e) s = Ledgered.forget run :=
    Ledgered.pulls_forget n (start policy e) ⟨s, []⟩
  have hlength : run.1.length = n := by
    rw [pulls_eq_items]
    simp
  have hsilent : (∃ item ∈ run.1, ∀ m, item ≠ some (.ok m)) →
      ∀ k, (pulls k run.2.1 run.2.2).2.2 = run.2.2 := by
    intro h k
    rw [pulls_of_over k (phase_of_pulls h)]
  have hstart : Needed 0 [] := fun _ hc => absurd hc (Nat.not_lt_zero _)
  have hrun : (∃ ms datagrams, run.1 = ms.map (fun m => some (.ok m)) ∧
      Needed ms.length datagrams ∧ Reading ms datagrams run.2.1 ledger) ∨
        Ended run.1 run.2.1 ledger :=
    pulls_reading (l := (⟨s, []⟩ : Ledgered σ)) n (reading_start policy e) hstart
  obtain ⟨ms, datagrams, hms, hneeded, h⟩ | h := hrun
  · -- only messages were given, and the reply is in the middle of its reading
    obtain rfl : ms.length = n := by rw [← hlength, hms, List.length_map]
    refine ⟨hforget, fun given hgiven => ?_, h.frugal, fun failure hmem => ?_, hsilent, h.count_eq⟩
    · obtain rfl : given = ms :=
        List.map_injective_iff.2 (fun _ _ heq => by simpa using heq) (hgiven.symm.trans hms)
      exact ⟨datagrams, h.settled_eq, h.eq_take.1, h.eq_take.2, hneeded⟩
    · rw [hms] at hmem
      simp at hmem
  · -- an item that is no message was given
    exact ⟨hforget, fun given hgiven => absurd hgiven (h.ne_map given), h.frugal, h.failure_last,
      hsilent, h.count_eq⟩

end Reply

end Netlink
