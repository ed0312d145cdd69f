import Netlink.Message.Draft
import Netlink.Proofs.Excerpt
import Netlink.Proofs.Source

/-!
# The Size of the Receive Buffer

One buffer serves all receives of a reply, and what earlier datagrams left in it is never
cleared. On an honest endpoint nothing of this shows. A message is a part of the datagram that
it arrived with, and the size of the buffer decides which datagrams are cut, and nothing else:
two readers with buffers of different sizes give the same items until a datagram comes that
fits the larger buffer only, and there the smaller one gives the fault that it was cut.

An honest endpoint supplies the same datagrams to both (`Endpoint.Honest.supply_eq`), so the
two transcripts go over one list of datagrams, and the proof follows it.

## Main results

* `Transcript.readSized_of_fits`, `Transcript.readSized_of_large`: the transcript for the
  smaller buffer, by the one for the larger.
* `Transcript.messages_of_received`: the messages read are those of the datagrams received.
* `Reply.items_capacity`: **the size of the buffer only decides which datagrams are cut**, and
  no message holds an octet that an earlier datagram left in it.
-/

namespace Netlink

/-- The policy with a receive buffer of this size. -/
def Policy.sized (p : Policy) (capacity : Nat) : Policy := { p with bufferSize := capacity }

namespace Transcript

variable {p : Policy} {e : Expectation} {failure : CallFailure} {seen : List Message}
  {datagrams : List Bytes} {n m : Nat}

/-- What is read of these datagrams into a buffer of this size. -/
def readSized (p : Policy) (e : Expectation) (failure : CallFailure) (capacity : Nat)
    (seen : List Message) (datagrams : List Bytes) : Transcript :=
  read (p.sized capacity) e failure seen (datagrams.map (.ofDatagram capacity))

/-- A datagram that does not fit is the last thing that is read, as a fault. -/
theorem readSized_of_cut {d : Bytes} (h : n < d.length) :
    readSized p e failure n seen (d :: datagrams) = ⟨[.error (.truncated n)], 1⟩ := by
  rw [readSized, List.map_cons, Arrival.ofDatagram_of_lt h]
  rfl

/-- What is read of a datagram that fits does not depend on the size of the buffer. -/
theorem readSized_of_whole {d : Bytes} (h : d.length ≤ n) :
    readSized p e failure n seen (d :: datagrams) =
      match (Datagram.messages d).find? p.rejects with
      | some m =>
        ⟨((Datagram.messages d).takeWhile fun m => !p.rejects m).map .ok
          ++ [.error (.breach (.shortDone m.header.length))], 1⟩
      | none =>
        if Course.goesOn (seen ++ Datagram.messages d) then
          (readSized p e failure n (seen ++ Datagram.messages d) datagrams).cons
            (Datagram.messages d)
        else
          ⟨(Datagram.messages d).map .ok
            ++ ((Course.breach? (seen ++ Datagram.messages d) e).map fun b =>
              .error (.breach b)).toList, 1⟩ := by
  rw [readSized, List.map_cons, Arrival.ofDatagram_of_le h]
  rfl

/-- Something is received if anything is to come. -/
theorem exists_take_receives (p : Policy) (e : Expectation) (failure : CallFailure) (n : Nat)
    (seen : List Message) (d : Bytes) (datagrams : List Bytes) :
    ∃ k, (d :: datagrams).take (readSized p e failure n seen (d :: datagrams)).receives
      = d :: datagrams.take k := by
  obtain ⟨k, hk⟩ := Nat.exists_eq_succ_of_ne_zero (Nat.ne_of_gt
    (receives_pos (p.sized n) e failure seen ((d :: datagrams).map (.ofDatagram n))))
  exact ⟨k, by rw [readSized, hk, List.take_succ_cons]⟩

/-- A smaller buffer does as well if all that is received into the larger one fits it. -/
theorem readSized_of_fits (hle : n ≤ m)
    (h : ∀ d ∈ datagrams.take (readSized p e failure m seen datagrams).receives, d.length ≤ n) :
    readSized p e failure n seen datagrams = readSized p e failure m seen datagrams := by
  induction datagrams generalizing seen with
  | nil => rfl
  | cons d datagrams ih =>
      obtain ⟨k, hk⟩ := exists_take_receives p e failure m seen d datagrams
      have hd : d.length ≤ n := h d (by rw [hk]; exact List.mem_cons_self ..)
      rw [readSized_of_whole (Nat.le_trans hd hle)] at h ⊢
      rw [readSized_of_whole hd]
      cases hfind : (Datagram.messages d).find? p.rejects with
      | some m => rfl
      | none =>
          by_cases hmore : Course.goesOn (seen ++ Datagram.messages d)
          · simp only [hfind, hmore, if_true, cons, List.take_succ_cons,
              List.forall_mem_cons] at h ⊢
            rw [ih h.2]
          · simp only [hmore, Bool.false_eq_true, if_false]

/-- The first datagram received into the larger buffer that does not fit the smaller one ends
what is read with the smaller. Before it the items are the same: the messages of the
datagrams before it. -/
theorem readSized_of_large (hle : n ≤ m) {before after : List Bytes} {d : Bytes}
    (h : datagrams.take (readSized p e failure m seen datagrams).receives = before ++ d :: after)
    (hbefore : ∀ b ∈ before, b.length ≤ n) (hd : n < d.length) :
    (before.flatMap Datagram.messages).map .ok
        <+: (readSized p e failure m seen datagrams).items ∧
      (readSized p e failure n seen datagrams).items
        = (before.flatMap Datagram.messages).map .ok ++ [.error (.truncated n)] := by
  induction datagrams generalizing before seen with
  | nil => simp at h
  | cons d₁ datagrams ih =>
      obtain ⟨k, hk⟩ := exists_take_receives p e failure m seen d₁ datagrams
      cases before with
      | nil =>
          obtain ⟨rfl, -⟩ := List.cons.inj (hk.symm.trans h)
          rw [readSized_of_cut hd]
          exact ⟨List.nil_prefix, rfl⟩
      | cons b before =>
          obtain ⟨rfl, -⟩ := List.cons.inj (hk.symm.trans h)
          obtain ⟨hb, hbefore⟩ := List.forall_mem_cons.1 hbefore
          rw [readSized_of_whole (Nat.le_trans hb hle)] at h ⊢
          rw [readSized_of_whole hb]
          -- a datagram is received after this one, so this one does not end the reply
          cases hfind : (Datagram.messages d₁).find? p.rejects with
          | some m => simp [hfind] at h
          | none =>
              by_cases hmore : Course.goesOn (seen ++ Datagram.messages d₁)
              · simp only [hfind, hmore, if_true, cons, List.take_succ_cons, List.cons_append,
                  List.cons.injEq, true_and] at h
                obtain ⟨hfront, hitems⟩ := ih h hbefore
                simp only [hmore, if_true, cons, List.flatMap_cons, List.map_append,
                  List.append_assoc, hitems, and_true]
                exact (List.prefix_append_right_inj _).2 hfront
              · simp [hfind, hmore] at h

/-- Of messages and what follows them, the messages come first. -/
theorem filterMap_toOption_append (messages : List Message) (rest : List (Except Fault Message)) :
    (messages.map Except.ok ++ rest).filterMap Except.toOption
      = messages ++ rest.filterMap Except.toOption := by
  simp [List.filterMap_append, List.filterMap_map, Function.comp_def, Except.toOption]

/-- The messages read are those of the datagrams received that fit the buffer, each as it was
sent, and none is passed over. -/
theorem messages_of_received (p : Policy) (e : Expectation) (failure : CallFailure) (n : Nat)
    (seen : List Message) (datagrams : List Bytes) :
    (readSized p e failure n seen datagrams).items.filterMap Except.toOption
      <+: ((datagrams.take (readSized p e failure n seen datagrams).receives).filter
        (·.length ≤ n)).flatMap Datagram.messages := by
  induction datagrams generalizing seen with
  | nil => exact List.nil_prefix
  | cons d datagrams ih =>
      by_cases hd : d.length ≤ n
      · have hreceived (later : List Bytes) :
            ((d :: later).filter (·.length ≤ n)).flatMap Datagram.messages
              = Datagram.messages d ++ (later.filter (·.length ≤ n)).flatMap Datagram.messages := by
          rw [List.filter_cons_of_pos (by simpa using hd), List.flatMap_cons]
        rw [readSized_of_whole hd]
        cases hfind : (Datagram.messages d).find? p.rejects with
        | some m =>
            dsimp only
            rw [List.take_succ_cons, hreceived, filterMap_toOption_append]
            exact (List.append_nil _).symm ▸ (List.takeWhile_prefix _).trans (List.prefix_append ..)
        | none =>
            by_cases hmore : Course.goesOn (seen ++ Datagram.messages d)
            · simp only [hmore, if_true, cons]
              rw [List.take_succ_cons, hreceived, filterMap_toOption_append]
              exact (List.prefix_append_right_inj _).2 (ih _)
            · simp only [hmore, Bool.false_eq_true, if_false]
              rw [List.take_succ_cons, hreceived, filterMap_toOption_append]
              refine (List.prefix_append_right_inj _).2 ?_
              cases Course.breach? (seen ++ Datagram.messages d) e <;> exact List.nil_prefix
      · rw [readSized_of_cut (Nat.lt_of_not_le hd)]
        exact List.nil_prefix

end Transcript

namespace Reply

variable {σ : Type} [Endpoint σ]

/-- How many receives are made to read a reply to its end, with those that are interrupted. -/
def receives (policy : Policy) (e : Expectation) (s : σ) : Nat :=
  let t : Bytes × σ := (List.replicate policy.bufferSize 0, s)
  let supply := Endpoint.supply policy t
  let transcript := Transcript.read policy e supply.failure [] supply.arrivals
  Endpoint.attemptsFor policy transcript.receives t

/-- A reply read to its end leaves the endpoint after so many receives. -/
theorem items_start_snd (policy : Policy) (e : Expectation) (s : σ) :
    ((start policy e).items s).2.2
      = (Endpoint.afterReceive^[receives policy e s]
          (List.replicate policy.bufferSize 0, s)).2 := by
  rw [(items_start_eq_read policy e s rfl).2, Endpoint.iterate_afterFetch_eq]
  rfl

/-- **The size of the buffer only decides which datagrams are cut.** Two readers with buffers of
`n` and of `m` octets, with `n` no larger than `m`, read from an honest endpoint. If all that the
larger one receives fits the smaller one, they give the same items and make the same receives.
Otherwise the smaller one gives the messages of the datagrams before the first that does not
fit, as the larger one does, and then the fault that this one was cut. In each run the
messages are those of the datagrams received, as they were sent, and what the buffer holds at
first makes no difference. -/
theorem items_capacity {source : Nat → Except CallFailure Bytes} {s : σ}
    (h : Endpoint.Honest source s) (policy : Policy) (e : Expectation) {n m : Nat} (hle : n ≤ m) :
    let run (c : Nat) := (start (policy.sized c) e).items s
    let calls (c : Nat) := receives (policy.sized c) e s
    let datagrams (c : Nat) := Endpoint.received source (calls c)
    ((∀ d ∈ datagrams m, d.length ≤ n) → (run n).1 = (run m).1 ∧ calls n = calls m) ∧
      (∀ before d after, datagrams m = before ++ d :: after →
        (∀ b ∈ before, b.length ≤ n) → n < d.length →
          let items := (before.flatMap Datagram.messages).map .ok
          items <+: (run m).1 ∧ (run n).1 = items ++ [.error (.truncated n)]) ∧
      ∀ c,
        (run c).2.2 = (Endpoint.afterReceive^[calls c] (List.replicate c 0, s)).2 ∧
          (run c).1.filterMap Except.toOption
            <+: ((datagrams c).filter (·.length ≤ c)).flatMap Datagram.messages ∧
          ∀ buffer : Bytes, buffer.length = c →
            ({ start (policy.sized c) e with buffer }.items s).1 = (run c).1 := by
  intro run calls datagrams
  obtain ⟨ds, failure, hds⟩ := h.supply_eq policy (List.replicate n 0, s)
  let transcript (c : Nat) := Transcript.readSized policy e failure c [] ds
  have hretries (c : Nat) : (policy.sized c).retries = policy.retries := rfl
  have hsupply (c : Nat) (buffer : Bytes) (hlength : buffer.length = c) :
      Endpoint.supply (policy.sized c) (buffer, s) = ⟨ds.map (.ofDatagram c), failure⟩ := by
    rw [Endpoint.supply_congr (hretries c), (hds (buffer, s) h).1, hlength]
  have hread (c : Nat) (buffer : Bytes) (hlength : buffer.length = c) :
      ({ start (policy.sized c) e with buffer }.items s).1 = (transcript c).items :=
    (items_eq_read (r := { start (policy.sized c) e with buffer }) (hsupply c buffer hlength)
      rfl rfl hlength).1
  have hrun (c : Nat) : (run c).1 = (transcript c).items :=
    hread c _ (List.length_replicate ..)
  have hcalls (c : Nat) : calls c
      = Endpoint.attemptsFor policy (transcript c).receives (List.replicate c 0, s) := by
    have hzeros := hsupply c (List.replicate c 0) (List.length_replicate ..)
    change Endpoint.attemptsFor (policy.sized c) (Transcript.read _ e
      (Endpoint.supply (policy.sized c) (List.replicate c 0, s)).failure []
      (Endpoint.supply (policy.sized c) (List.replicate c 0, s)).arrivals).receives _ = _
    rw [hzeros, Endpoint.attemptsFor_congr (hretries c)]
    rfl
  have hcount (c : Nat) :
      calls c = Endpoint.attemptsFor policy (transcript c).receives (List.replicate n 0, s) ∧
        datagrams c = ds.take (transcript c).receives := by
    have hle : (transcript c).receives ≤ ds.length + 1 := by
      have := Transcript.receives_le (policy.sized c) e failure [] (ds.map (.ofDatagram c))
      rwa [List.length_map] at this
    obtain ⟨hattempts, hreceived⟩ := (hds (List.replicate c 0, s) h).2 _ hle
    exact ⟨(hcalls c).trans hattempts, by rw [← hreceived, ← hcalls]⟩
  refine ⟨fun hfits => ?_, fun before d after hsplit hbefore hd => ?_, fun c => ⟨?_, ?_, ?_⟩⟩
  · rw [(hcount m).2] at hfits
    have hsame : transcript n = transcript m := Transcript.readSized_of_fits hle hfits
    exact ⟨by rw [hrun, hrun, hsame], by rw [(hcount n).1, (hcount m).1, hsame]⟩
  · rw [(hcount m).2] at hsplit
    rw [hrun, hrun]
    exact Transcript.readSized_of_large hle hsplit hbefore hd
  · exact items_start_snd (policy.sized c) e s
  · rw [hrun, (hcount c).2]
    exact Transcript.messages_of_received policy e failure c [] ds
  · intro buffer hlength
    rw [hrun, hread c buffer hlength]

/-- A link, and then the end of the dump, after an interruption: the link fits sixteen octets and
the end of the dump does not. -/
theorem items_capacity_sixteen :
    ∃ (peer : ScriptedPeer) (link : Message),
      link = Draft.finish { kind := .newLink, flags := .multi } ∧
      peer = { portId := 0
               deliveries :=
                [.error (.plain .interrupted), .ok { datagram := link.octets },
                  .ok { datagram := (Message.done 1 0 0).octets }] } ∧
      (∃ source, Endpoint.Honest source peer) ∧ 16 ≤ 64 ∧
      [.ok link] <+: ((start (Policy.sized {} 64) .data).items peer).1 ∧
      ((start (Policy.sized {} 16) .data).items peer).1
        = [.ok link, .error (.truncated 16)] := by
  refine ⟨_, _, rfl, rfl, ?_⟩
  generalize hlink : Draft.finish { kind := .newLink, flags := .multi } = link
  generalize houtcomes : ([.error (.plain .interrupted), .ok link.octets,
    .ok (Message.done 1 0 0).octets] : List (Except CallFailure Bytes)) = outcomes
  generalize hpeer : ScriptedPeer.mk _ _ _ _ = peer
  have hhonest : Endpoint.Honest (fun i => outcomes.getD i (.error ScriptedPeer.nothing)) peer := by
    rw [← hpeer]
    exact ScriptedPeer.honest_of_deliveries (by rw [← houtcomes, ← hlink]; rfl)
  have hmessages : [link.octets].flatMap Datagram.messages = [link] := by
    rw [← hlink]
    decide +kernel
  obtain ⟨-, hlarge, -⟩ := items_capacity hhonest {} .data (show 16 ≤ 64 by decide)
  obtain ⟨hfront, hitems⟩ := hlarge [link.octets] (Message.done 1 0 0).octets []
    (by rw [← hpeer, ← houtcomes, ← hlink]; decide +kernel) (by rw [← hlink]; decide +kernel)
    (by decide +kernel)
  rw [hmessages] at hfront hitems
  exact ⟨⟨_, hhonest⟩, by decide, hfront, hitems⟩

end Reply

end Netlink
