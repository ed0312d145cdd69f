import Mathlib.Data.List.Basic
import Mathlib.Data.List.Induction
import Netlink.Proofs.Pulling
import Netlink.Proofs.Supply

/-!
# The Transcript of a Reply

What a reader of a reply should give, said without a reader. The course of a reply is told
by the list of all messages seen so far: whether another datagram follows
(`Course.goesOn`), and what is wrong if none does (`Course.breach?`). A `Transcript` then
goes through what an endpoint supplies, datagram by datagram, and writes down the items
and the number of receives.

The reader keeps no such list. It keeps the kind and the flags of the last message and one
bit on all of them, and `History.of` says that this is enough.

## Main results

* `wantsMore_of`, `verdict_of`: what the reader keeps decides as the whole list does.
* `items_eq_read`: a reply read to its end gives the items of its transcript, and leaves
  the endpoint after as many receives.
* `items_pulls_start_eq_read`: **the reader is its transcript**, for every endpoint, in
  what it gives as a whole and in what any number of pulls gives.
-/

namespace Netlink

/-! ### The course of a reply -/

namespace Course

/-- Another datagram follows: the last message seen is one of several, and neither the end
of a dump nor an error. -/
def goesOn (seen : List Message) : Bool :=
  seen.getLast?.any fun m => m.isMultipart && !m.isDone && !m.isError

/-- What is wrong with a reply that ends after these messages: an acknowledgement ends with
an error message, and data of which any message was one of several with the end of a
dump. -/
def breach? (seen : List Message) : Expectation → Option Breach
  | .acknowledgement =>
    if seen.getLast?.any Message.isError then none
    else some (.ending .error (seen.getLast?.map (·.header.kind)))
  | .data =>
    if seen.any Message.isMultipart && !seen.getLast?.any Message.isDone then
      some (.ending .done (seen.getLast?.map (·.header.kind)))
    else none

end Course

namespace History

/-- The history after these messages. -/
def of (seen : List Message) : History := seen.foldl note {}

/-- The history of some messages is noted message by message. -/
theorem of_concat (seen : List Message) (m : Message) : of (seen ++ [m]) = (of seen).note m := by
  simp [of]

/-- To note more messages gives the history of all. -/
theorem foldl_note_of (seen queue : List Message) :
    queue.foldl note (of seen) = of (seen ++ queue) := by
  simp [of]

/-- The last kind is that of the last message. -/
theorem lastKind_of (seen : List Message) :
    (of seen).lastKind = seen.getLast?.map (·.header.kind) := by
  rcases seen.eq_nil_or_concat' with rfl | ⟨seen, m, rfl⟩
  · rfl
  · simp [of_concat, note]

/-- The last flags are those of the last message. -/
theorem lastFlags_of (seen : List Message) :
    (of seen).lastFlags = (seen.getLast?.map (·.header.flags)).getD ∅ := by
  rcases seen.eq_nil_or_concat' with rfl | ⟨seen, m, rfl⟩
  · rfl
  · simp [of_concat, note]

/-- A reply has more than one part as soon as one of its messages says so. -/
theorem multipart_of (seen : List Message) :
    (of seen).multipart = seen.any Message.isMultipart := by
  induction seen using List.reverseRecOn with
  | nil => rfl
  | append_singleton seen m ih => simp [of_concat, note, ih]

/-- The history asks for another datagram exactly when one follows. -/
theorem wantsMore_of (seen : List Message) : (of seen).wantsMore = Course.goesOn seen := by
  rw [wantsMore, Course.goesOn, lastKind_of, lastFlags_of]
  cases seen.getLast? with
  | none => rfl
  | some m =>
      simp [Message.isMultipart, Message.isDone, Message.isError, Kind.isTerminal,
        Bool.and_assoc]

/-- The history judges the end of a reply as the messages do. -/
theorem verdict_of (seen : List Message) (e : Expectation) :
    (of seen).verdict e = Course.breach? seen e := by
  cases e with
  | acknowledgement =>
      rw [verdict, required, Course.breach?, lastKind_of]
      cases seen.getLast? with
      | none => rfl
      | some m => simp [Message.isError]
  | data =>
      rw [verdict, required, Course.breach?, lastKind_of, multipart_of]
      cases seen.any Message.isMultipart with
      | false => rfl
      | true =>
          cases seen.getLast? with
          | none => rfl
          | some m => by_cases hm : m.header.kind = .done <;> simp [Message.isDone, hm]

end History

/-! ### Transcripts -/

/-- The end of a dump that is refused because it is too short for its status. -/
def Policy.rejects (p : Policy) (m : Message) : Bool :=
  p.strictDone && m.isDone && m.header.length.toNat < 20

/-- A message is accepted if it is no end of a dump that is too short, or the policy is not
strict. -/
theorem Policy.rejects_eq_false_iff {p : Policy} {m : Message} :
    p.rejects m = false ↔ (p.strictDone → m.isDone → 20 ≤ m.header.length.toNat) := by
  rw [rejects]
  cases p.strictDone <;> cases m.isDone <;> simp

/-- No message is rejected if each is accepted. -/
theorem Policy.find?_rejects_eq_none_iff {p : Policy} {ms : List Message} :
    ms.find? p.rejects = none ↔ ∀ m ∈ ms, p.rejects m = false := by
  simp

/-- What is read of a reply: its items, and how many receives were made for them. -/
structure Transcript where
  items : List (Except Fault Message)
  receives : Nat

namespace Transcript

/-- A transcript with the messages of one more datagram in front. -/
def cons (messages : List Message) (later : Transcript) : Transcript where
  items := messages.map .ok ++ later.items
  receives := later.receives + 1

/-- What is to be read of a reply, by the messages seen before and the datagrams that are
still to arrive until a receive fails. -/
def read (p : Policy) (e : Expectation) (failure : CallFailure) :
    List Message → List Arrival → Transcript
  | _, [] => ⟨[.error (.call failure)], 1⟩
  | _, .cut :: _ => ⟨[.error (.truncated p.bufferSize)], 1⟩
  | _, .miscounted reported :: _ => ⟨[.error (.miscounted reported p.bufferSize)], 1⟩
  | seen, .whole datagram :: later =>
    let messages := Datagram.messages datagram
    match messages.find? p.rejects with
    | some m =>
      ⟨(messages.takeWhile fun m => !p.rejects m).map .ok
        ++ [.error (.breach (.shortDone m.header.length))], 1⟩
    | none =>
      if Course.goesOn (seen ++ messages) then
        (read p e failure (seen ++ messages) later).cons messages
      else
        ⟨messages.map .ok
          ++ ((Course.breach? (seen ++ messages) e).map fun b => .error (.breach b)).toList, 1⟩

end Transcript

/-! ### The reader follows the transcript -/

namespace Reply

variable {σ : Type} [Endpoint σ] {r : Reply} {s s' : σ}

/-- A message that is refused ends the reply. -/
theorem next_of_rejects {m : Message} {queue : List Message}
    (hp : r.phase = .delivering (m :: queue)) (h : r.policy.rejects m) :
    r.next s =
      (some (.error (.breach (.shortDone m.header.length))),
        { r with history := r.history.note m, phase := .over }, s) := by
  simp only [Policy.rejects, Bool.and_eq_true, decide_eq_true_eq] at h
  rw [next_of_message hp]
  simp [deliver, fail, doneLength, Header.messageLength, Header.size, h]

/-- A message that is not refused is delivered. -/
theorem next_of_accepts {m : Message} {queue : List Message}
    (hp : r.phase = .delivering (m :: queue)) (h : r.policy.rejects m = false) :
    r.next s =
      (some (.ok m), { r with history := r.history.note m, phase := .delivering queue }, s) := by
  have hshort : ¬(r.policy.strictDone ∧ m.isDone ∧ m.header.length.toNat < doneLength) := by
    rintro ⟨hstrict, hdone, hlength⟩
    exact Nat.not_lt.2 (Policy.rejects_eq_false_iff.1 h hstrict hdone) hlength
  rw [next_of_message hp, deliver, if_neg hshort]

/-- The reply after messages of the datagram at hand were delivered, the last of them
included. -/
def pass (r : Reply) (queue : List Message) : Reply :=
  { r with history := queue.foldl History.note r.history, phase := .delivering [] }

/-- Messages of which none is refused are delivered as they are. -/
theorem items_of_accepted {queue : List Message} (hp : r.phase = .delivering queue)
    (h : ∀ m ∈ queue, r.policy.rejects m = false) :
    r.items s = (queue.map .ok ++ ((r.pass queue).items s).1, ((r.pass queue).items s).2) := by
  induction queue generalizing r with
  | nil =>
      have hr : r.pass [] = r := by rw [pass, ← hp]; rfl
      rw [hr]
      rfl
  | cons m queue ih =>
      obtain ⟨hm, hqueue⟩ := List.forall_mem_cons.1 h
      rw [items_of_ok (next_of_accepts hp hm),
        ih (r := { r with history := r.history.note m, phase := .delivering queue }) rfl hqueue]
      rfl

/-- The first message that is refused ends the reply. -/
theorem items_of_rejected {queue : List Message} {m : Message}
    (hp : r.phase = .delivering queue) (h : queue.find? r.policy.rejects = some m) :
    ∃ r', r.items s =
        ((queue.takeWhile fun m => !r.policy.rejects m).map .ok
          ++ [.error (.breach (.shortDone m.header.length))], r', s) ∧
      r'.buffer = r.buffer := by
  induction queue generalizing r with
  | nil => simp at h
  | cons m₁ queue ih =>
      cases hm : r.policy.rejects m₁ with
      | true =>
          obtain rfl : m₁ = m := by simpa [List.find?_cons, hm] using h
          refine ⟨{ r with history := r.history.note m₁, phase := .over }, ?_, rfl⟩
          rw [items_of_error (next_of_rejects hp hm), List.takeWhile_cons, hm]
          rfl
      | false =>
          have hqueue : queue.find? r.policy.rejects = some m := by
            simpa [List.find?_cons, hm] using h
          obtain ⟨r', hr', hbuffer⟩ :=
            ih (r := { r with history := r.history.note m₁, phase := .delivering queue })
              rfl hqueue
          refine ⟨r', ?_, hbuffer⟩
          rw [items_of_ok (next_of_accepts hp hm), hr', List.takeWhile_cons, hm]
          rfl

/-- The pull after the last message of a reply tells what is wrong with the reply. -/
theorem next_of_course_end {seen : List Message} (hp : r.phase = .delivering [])
    (hh : r.history = .of seen) (h : Course.goesOn seen = false) :
    r.next s =
      ((Course.breach? seen r.expectation).map fun b => .error (.breach b),
        { r with phase := .over }, s) := by
  have hv : r.history.verdict r.expectation = Course.breach? seen r.expectation := by
    rw [hh, History.verdict_of]
  rw [next_of_end hp (by rw [hh, History.wantsMore_of, h]), conclude, hv]
  cases Course.breach? seen r.expectation <;> rfl

/-- A reply that ends after the messages seen ends with what is wrong with it. -/
theorem items_of_end {seen : List Message} (hp : r.phase = .delivering [])
    (hh : r.history = .of seen) (h : Course.goesOn seen = false) :
    r.items s =
      (((Course.breach? seen r.expectation).map fun b => .error (.breach b)).toList,
        { r with phase := .over }, s) := by
  have hn := next_of_course_end (s := s) hp hh h
  cases hb : Course.breach? seen r.expectation with
  | none =>
      rw [hb] at hn
      exact items_of_none hn
  | some b =>
      rw [hb] at hn
      exact items_of_error hn

/-- After a datagram of which no message is refused, the next datagram is awaited if one
follows. -/
theorem items_of_queue_more {seen queue : List Message} (hp : r.phase = .delivering queue)
    (hh : r.history = .of seen) (h : ∀ m ∈ queue, r.policy.rejects m = false)
    (hmore : Course.goesOn (seen ++ queue)) :
    r.items s =
      (queue.map .ok
          ++ ({ r with history := .of (seen ++ queue), phase := .awaiting }.items s).1,
        ({ r with history := .of (seen ++ queue), phase := .awaiting }.items s).2) := by
  have hpass : (r.pass queue).history = .of (seen ++ queue) := by
    rw [pass, hh, History.foldl_note_of]
  have hnext : (r.pass queue).next s
      = { r with history := .of (seen ++ queue), phase := .awaiting }.next s := by
    rw [next_of_more rfl (by rw [hpass, History.wantsMore_of, hmore]), hpass]
    rfl
  rw [items_of_accepted hp h, items_congr hnext]

/-- After a datagram of which no message is refused, the reply is over if no other follows. -/
theorem items_of_queue_end {seen queue : List Message} (hp : r.phase = .delivering queue)
    (hh : r.history = .of seen) (h : ∀ m ∈ queue, r.policy.rejects m = false)
    (hmore : Course.goesOn (seen ++ queue) = false) :
    r.items s =
      (queue.map .ok
          ++ ((Course.breach? (seen ++ queue) r.expectation).map fun b =>
            .error (.breach b)).toList,
        { r.pass queue with phase := .over }, s) := by
  have hpass : (r.pass queue).history = .of (seen ++ queue) := by
    rw [pass, hh, History.foldl_note_of]
  rw [items_of_accepted hp h, items_of_end rfl hpass hmore]
  rfl

/-- The reply after a datagram came whole. -/
def opened (r : Reply) (buffer datagram : Bytes) : Reply :=
  { r with
    buffer, datagrams := r.datagrams + 1, phase := .delivering (Datagram.messages datagram) }

/-- **A reply gives the items of its transcript** and leaves the endpoint, and the buffer,
after as many receives. -/
theorem items_eq_read {seen : List Message} {arrivals : List Arrival} {failure : CallFailure}
    (hsupply : Endpoint.supply r.policy (r.buffer, s) = ⟨arrivals, failure⟩)
    (hp : r.phase = .awaiting) (hh : r.history = .of seen)
    (hbuffer : r.buffer.length = r.policy.bufferSize) :
    (r.items s).1 = (Transcript.read r.policy r.expectation failure seen arrivals).items ∧
      ((r.items s).2.1.buffer, (r.items s).2.2)
        = (Endpoint.afterFetch r.policy)^[(Transcript.read r.policy r.expectation failure seen
            arrivals).receives] (r.buffer, s) := by
  -- the supply says how the next receive ends, and the induction follows the datagrams
  induction arrivals generalizing r s seen with
  | nil =>
      obtain ⟨⟨buffer, s₁⟩, hfetch⟩ := Endpoint.fetch_of_supply_nil hsupply
      rw [items_of_error (next_of_fault hp (receive_of_error hfetch))]
      simp [Transcript.read, Endpoint.afterFetch, hfetch]
  | cons arrival later ih =>
      obtain ⟨receipt, ⟨buffer, s₁⟩, hfetch, harrival, hlater⟩ :=
        Endpoint.fetch_of_supply_cons hsupply
      have hafter : Endpoint.afterFetch r.policy (r.buffer, s) = (buffer, s₁) := by
        rw [Endpoint.afterFetch, hfetch]
      have hlength : buffer.length = r.policy.bufferSize := by
        rw [← hbuffer, ← Endpoint.length_afterFetch r.policy (r.buffer, s), hafter]
      have hreceive := receive_of_ok hfetch
      rw [harrival] at hreceive
      cases arrival with
      | cut =>
          rw [items_of_error (next_of_fault hp hreceive)]
          simp [Transcript.read, hafter, hlength]
      | miscounted reported =>
          rw [items_of_error (next_of_fault hp hreceive)]
          simp [Transcript.read, hafter, hlength]
      | whole datagram =>
          have hopened : r.items s = (r.opened buffer datagram).items s₁ :=
            items_congr (next_of_queue hp hreceive)
          rw [hopened]
          cases hfind : (Datagram.messages datagram).find? r.policy.rejects with
          | some m =>
              obtain ⟨r₁, hr₁, hr₁buffer⟩ :=
                items_of_rejected (r := r.opened buffer datagram) (s := s₁) rfl hfind
              rw [hr₁]
              simp [Transcript.read, hfind, hafter, hr₁buffer, opened]
          | none =>
              have haccept := Policy.find?_rejects_eq_none_iff.1 hfind
              cases hmore : Course.goesOn (seen ++ Datagram.messages datagram) with
              | true =>
                  rw [items_of_queue_more (r := r.opened buffer datagram) rfl hh haccept hmore]
                  obtain ⟨hitems, hreceives⟩ := ih
                    (r := { r.opened buffer datagram with
                      history := .of (seen ++ Datagram.messages datagram), phase := .awaiting })
                    (s := s₁) hlater rfl rfl hlength
                  rw [hitems, hreceives]
                  simp [Transcript.read, Transcript.cons, hfind, hmore, hafter, opened]
              | false =>
                  rw [items_of_queue_end (r := r.opened buffer datagram) rfl hh haccept hmore]
                  simp [Transcript.read, hfind, hmore, hafter, pass, opened]

/-- **A reply that is read to its end has the items of its transcript**, and makes as many
receives. -/
theorem items_start_eq_read {arrivals : List Arrival} {failure : CallFailure}
    (policy : Policy) (e : Expectation) (s : σ)
    (hsupply : Endpoint.supply policy (List.replicate policy.bufferSize 0, s)
      = ⟨arrivals, failure⟩) :
    ((start policy e).items s).1 = (Transcript.read policy e failure [] arrivals).items ∧
      ((start policy e).items s).2.2
        = ((Endpoint.afterFetch policy)^[(Transcript.read policy e failure [] arrivals).receives]
            (List.replicate policy.bufferSize 0, s)).2 := by
  have hhistory : (start policy e).history = .of [] := rfl
  obtain ⟨hitems, hreceives⟩ := items_eq_read (r := start policy e) hsupply rfl hhistory
    (List.length_replicate ..)
  exact ⟨hitems, congrArg Prod.snd hreceives⟩

/-- **The reader is its transcript.** Whatever an endpoint supplies, a reply read to its
end gives the items of the transcript; any number of pulls gives these items in order, and
then nothing; and the endpoint is left after as many receives as the transcript has. -/
theorem items_pulls_start_eq_read (policy : Policy) (e : Expectation) (s : σ) :
    let t : Bytes × σ := (List.replicate policy.bufferSize 0, s)
    let supply := Endpoint.supply policy t
    let transcript := Transcript.read policy e supply.failure [] supply.arrivals
    ((start policy e).items s).1 = transcript.items ∧
      (∀ n, (pulls n (start policy e) s).1
        = (transcript.items.map some ++ List.replicate n none).take n) ∧
      ((start policy e).items s).2.2
        = ((Endpoint.afterFetch policy)^[transcript.receives] t).2 := by
  intro t supply transcript
  obtain ⟨hitems, hreceives⟩ := items_start_eq_read policy e s (rfl : _ = supply)
  refine ⟨hitems, fun n => ?_, hreceives⟩
  rw [pulls_eq_items, hitems]

end Reply

end Netlink
