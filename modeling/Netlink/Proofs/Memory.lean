import Netlink.Endpoint.Scripted
import Netlink.Message.Draft
import Netlink.Proofs.Laziness

/-!
# What a Reply Remembers

Of the messages that a reply has looked at, it remembers three things: the kind and the flags of the
last one, and whether any was one of several. The messages looked at are those that it gave, and the
end of a dump that it refused because it is too short for its status, if it refused one: that message
is not given, but it is remembered.

Nothing else is remembered. A receive that fails, a datagram that is cut or that holds no message, and
the verdict on the end of a reply all leave what is remembered as it was.

## Main results

* `Reply.exists_of_receive`: what a receive changes of a reply.
* `Reply.history_next`: a pull remembers the message that it gives, or nothing.
* `Reply.refuses_next`, `Reply.refuses_pulls`: the pull that ends a reply may have refused the next
  message that arrived.
* `Reply.remembers_seen`: **a reply remembers the messages that it gave and the one that it refused.**
-/

namespace Netlink

open Ledgered (settled Adds)

/-- The messages of the datagrams that were received whole, in order. -/
def Ledgered.arrived (ledger : List (Except CallFailure Arrival)) : List Message :=
  (settled ledger).flatMap fun
    | .ok (.whole datagram) => Datagram.messages datagram
    | _ => []

namespace Reply

open Ledgered (arrived)

/-- The messages among what pulls gave. -/
def given (items : List (Option (Except Fault Message))) : List Message :=
  items.filterMap fun
    | some (.ok m) => some m
    | _ => none

/-- The message that was refused, if one was: it is the end of a dump and too short, and among what
the pulls gave is the fault that tells so. -/
structure Refuses (policy : Policy) (items : List (Option (Except Fault Message)))
    (refused : Option Message) : Prop where
  rejects : ∀ m ∈ refused, policy.rejects m
  told : ∀ length, some (.error (.breach (.shortDone length))) ∈ items ↔
    ∃ m ∈ refused, m.header.length = length

variable {σ : Type} [Endpoint σ]

/-! ### What is left as it was -/

section Steps

variable {r r' : Reply} {s s' : σ} {item : Option (Except Fault Message)}

/-- A receive changes the buffer and the number of datagrams, whatever comes of it. -/
theorem exists_of_receive {outcome : Except Fault (List Message)}
    (h : r.receive s = (outcome, r', s')) : ∃ buffer datagrams, r' = { r with buffer, datagrams } := by
  match hfetch : Endpoint.fetch r.policy s r.buffer with
  | (.error failure, buffer, s'') =>
      rw [receive_of_error hfetch] at h
      cases h
      exact ⟨buffer, r.datagrams, rfl⟩
  | (.ok receipt, buffer, s'') =>
      rw [receive_of_ok hfetch] at h
      split at h <;> cases h
      · exact ⟨buffer, r.datagrams, rfl⟩
      · exact ⟨buffer, r.datagrams + 1, rfl⟩
      · exact ⟨buffer, r.datagrams + 1, rfl⟩

/-- A verdict changes nothing but that the reply is over, and refuses no message. -/
theorem conclude_cases (h : r.conclude = (item, r')) :
    r' = { r with phase := .over } ∧ (∀ m, item ≠ some (.ok m)) ∧
      ∀ length, item ≠ some (.error (.breach (.shortDone length))) := by
  have hverdict : ∀ length, r.history.verdict r.expectation ≠ some (.shortDone length) := by
    intro length
    rw [History.verdict]
    split
    · simp
    · split <;> simp
  rw [conclude] at h
  split at h
  · next breach hbreach =>
    obtain ⟨rfl, rfl⟩ := Prod.mk.inj h
    refine ⟨rfl, by simp, ?_⟩
    rintro length ⟨⟩
    exact hverdict length hbreach
  · obtain ⟨rfl, rfl⟩ := Prod.mk.inj h
    exact ⟨rfl, by simp, by simp⟩

/-- A message that is looked at is remembered, and it is given or refused. -/
theorem deliver_cases {m : Message} {queue : List Message} (h : r.deliver m queue = (item, r')) :
    r'.policy = r.policy ∧ r'.history = r.history.note m ∧
      (item = some (.ok m) ∨
        (r.policy.rejects m ∧ item = some (.error (.breach (.shortDone m.header.length))))) := by
  rw [deliver] at h
  split at h
  · next hshort =>
    obtain ⟨rfl, rfl⟩ := Prod.mk.inj h
    refine ⟨rfl, rfl, .inr ⟨?_, rfl⟩⟩
    simpa [Policy.rejects, doneLength, Header.messageLength, Header.size, and_assoc] using hshort
  · obtain ⟨rfl, rfl⟩ := Prod.mk.inj h
    exact ⟨rfl, rfl, .inl rfl⟩

end Steps

/-- A pull does not change the policy. -/
theorem policy_next (r : Reply) (s : σ) : (r.next s).2.1.policy = r.policy := by
  fun_induction Reply.next r s with
  | case1 r s hp => rfl
  | case2 r s m queue hp item r' hdeliver => exact (deliver_cases hdeliver).1
  | case3 r s hp hmore ih => exact ih
  | case4 r s hp hmore item r' hconclude =>
      obtain ⟨rfl, -, -⟩ := conclude_cases hconclude
      rfl
  | case5 r s hp fault r' s' hreceive item r'' hfail =>
      obtain ⟨buffer, datagrams, rfl⟩ := exists_of_receive hreceive
      obtain ⟨-, rfl⟩ := Prod.mk.inj hfail
      rfl
  | case6 r s hp queue r' s' hreceive ih =>
      obtain ⟨buffer, datagrams, rfl⟩ := exists_of_receive hreceive
      exact ih

/-- **A pull remembers the message that it gives.** If it gives none, and does not tell of one that was
refused, it remembers nothing, however many datagrams it received. -/
theorem history_next (r : Reply) (s : σ) :
    (∀ m, (r.next s).1 = some (.ok m) → (r.next s).2.1.history = r.history.note m) ∧
      ((∀ m, (r.next s).1 ≠ some (.ok m)) →
        (∀ length, (r.next s).1 ≠ some (.error (.breach (.shortDone length)))) →
        (r.next s).2.1.history = r.history) := by
  fun_induction Reply.next r s with
  | case1 r s hp => exact ⟨fun m h => by simp at h, fun _ _ => rfl⟩
  | case2 r s m queue hp item r' hdeliver =>
      obtain ⟨-, hhistory, rfl | ⟨-, rfl⟩⟩ := deliver_cases hdeliver
      · refine ⟨fun m' h => ?_, fun hno => absurd rfl (hno m)⟩
        obtain rfl : m = m' := by simpa using h
        exact hhistory
      · exact ⟨fun m' h => by simp at h, fun _ hno => absurd rfl (hno m.header.length)⟩
  | case3 r s hp hmore ih => exact ih
  | case4 r s hp hmore item r' hconclude =>
      obtain ⟨rfl, hno, -⟩ := conclude_cases hconclude
      exact ⟨fun m h => absurd h (hno m), fun _ _ => rfl⟩
  | case5 r s hp fault r' s' hreceive item r'' hfail =>
      obtain ⟨buffer, datagrams, rfl⟩ := exists_of_receive hreceive
      obtain ⟨rfl, rfl⟩ := Prod.mk.inj hfail
      exact ⟨fun m h => by simp at h, fun _ _ => rfl⟩
  | case6 r s hp queue r' s' hreceive ih =>
      obtain ⟨buffer, datagrams, rfl⟩ := exists_of_receive hreceive
      exact ih

/-! ### What a run remembers -/

variable {ms : List Message} {datagrams : List Bytes} {r : Reply} {l : Ledgered σ}

/-- What comes of a datagram is entered after the messages that had arrived. -/
theorem arrived_of_adds {outcome : Except CallFailure Arrival}
    {before after : List (Except CallFailure Arrival)} (h : Adds outcome before after) :
    arrived before <+: arrived after := by
  rw [arrived, arrived, Ledgered.settled_of_adds h, List.flatMap_append]
  exact List.prefix_append _ _

/-- What arrived is what was given and what is at hand. -/
theorem Reading.arrived_eq {ledger : List (Except CallFailure Arrival)}
    (h : Reading ms datagrams r ledger) : arrived ledger = ms ++ r.queue := by
  rw [← h.messages_eq, arrived, h.settled_eq, List.flatMap_map]

/-- Nothing was refused. -/
theorem refuses_none {policy : Policy} {items : List (Option (Except Fault Message))}
    (h : ∀ length, some (.error (.breach (.shortDone length))) ∉ items) :
    Refuses policy items none where
  rejects m hm := by cases hm
  told length := iff_of_false (h length) (by simp)

/-- **The pull that ends a reply may have refused the next message that arrived.** -/
theorem refuses_next (h : Reading ms datagrams r l.ledger)
    (hno : ∀ m, (r.next l).1 ≠ some (.ok m)) :
    ∃ refused, Refuses r.policy [(r.next l).1] refused ∧
      (r.next l).2.1.history = .of (ms ++ refused.toList) ∧
      ms ++ refused.toList <+: arrived (r.next l).2.2.ledger := by
  fun_induction Reply.next r l generalizing datagrams with
  | case1 r l hp => exact absurd hp h.going
  | case2 r l m queue hp item r' hdeliver =>
      obtain ⟨-, hhistory, rfl | ⟨hrejects, rfl⟩⟩ := deliver_cases hdeliver
      · exact absurd rfl (hno m)
      · refine ⟨some m, ⟨?_, fun length => by simp [eq_comm]⟩, ?_, ?_⟩
        · rintro m' ⟨⟩
          exact hrejects
        · rw [hhistory, h.history_eq]
          exact (History.of_concat ms m).symm
        · rw [h.arrived_eq, queue_of_delivering hp]
          exact ⟨queue, by simp⟩
  | case3 r l hp hmore ih => exact ih (h.await hp hmore) hno
  | case4 r l hp hmore item r' hconclude =>
      obtain ⟨rfl, -, hshort⟩ := conclude_cases hconclude
      refine ⟨none, refuses_none fun length hmem => ?_, ?_, ?_⟩
      · exact hshort length (List.mem_singleton.1 hmem).symm
      · rw [Option.toList_none, List.append_nil]
        exact h.history_eq
      · rw [Option.toList_none, List.append_nil, h.arrived_eq]
        exact List.prefix_append _ _
  | case5 r l hp fault r' l' hreceive item r'' hfail =>
      obtain ⟨outcome, buffer, hadds, htold, hr⟩ := adds_receive r l
      rw [hreceive] at hadds htold hr
      obtain rfl : r' = _ := hr
      obtain ⟨rfl, rfl⟩ := Prod.mk.inj hfail
      refine ⟨none, refuses_none fun length hmem => ?_, ?_, ?_⟩
      · obtain rfl : .breach (.shortDone length) = fault := by simpa using hmem
        rcases outcome with _ | _ | _ | _ <;> simp [told] at htold
      · rw [Option.toList_none, List.append_nil]
        exact h.history_eq
      · rw [Option.toList_none, List.append_nil]
        refine List.IsPrefix.trans ?_ (arrived_of_adds hadds)
        rw [h.arrived_eq]
        exact List.prefix_append _ _
  | case6 r l hp queue r' l' hreceive ih =>
      obtain ⟨datagram, buffer, hadds, rfl, rfl⟩ := adds_of_queue hreceive
      exact ih (h.open hp hadds) hno

/-- **Any number of pulls remember the messages that they gave and the one that they refused**, which is
the next that arrived. -/
theorem refuses_pulls (n : Nat) (h : Reading ms datagrams r l.ledger) :
    ∃ refused, Refuses r.policy (pulls n r l).1 refused ∧
      (pulls n r l).2.1.history = .of (ms ++ given (pulls n r l).1 ++ refused.toList) ∧
      ms ++ given (pulls n r l).1 ++ refused.toList <+: arrived (pulls n r l).2.2.ledger := by
  induction n generalizing ms datagrams r l with
  | zero =>
      refine ⟨none, refuses_none fun length hmem => by simp [pulls] at hmem, ?_, ?_⟩
      · simpa [given, pulls] using h.history_eq
      · rw [pulls, h.arrived_eq]
        exact ⟨r.queue, by simp [given]⟩
  | succ n ih =>
      rw [pulls_succ (n := n) (r := r) (s := l) rfl]
      obtain ⟨m, datagrams', hm, -, h'⟩ | hended := next_reading h
      · obtain ⟨refused, ⟨hrejects, htold⟩, hhistory, hprefix⟩ := ih h'
        have hgiven : ms ++ given ((r.next l).1 :: (pulls n (r.next l).2.1 (r.next l).2.2).1)
            = ms ++ [m] ++ given (pulls n (r.next l).2.1 (r.next l).2.2).1 := by
          simp [given, hm]
        rw [policy_next] at hrejects
        rw [hgiven]
        refine ⟨refused, ⟨hrejects, fun length => ?_⟩, hhistory, hprefix⟩
        rw [← htold, hm]
        simp
      · -- the reply is over, and the other pulls give nothing
        obtain ⟨item, hitem, hno⟩ := hended.silent
        obtain rfl := List.mem_singleton.1 hitem
        obtain ⟨refused, ⟨hrejects, htold⟩, hhistory, hprefix⟩ := refuses_next h hno
        rw [pulls_of_over n (phase_of_next hno)]
        have hgiven : given ((r.next l).1 :: List.replicate n none) = [] := by
          rw [given, List.filterMap_eq_nil_iff]
          intro item hitem
          rcases item with _ | _ | m
          · rfl
          · rfl
          · exact absurd (by simpa [eq_comm] using hitem) (hno m)
        rw [hgiven, List.append_nil]
        refine ⟨refused, ⟨hrejects, fun length => ?_⟩, hhistory, hprefix⟩
        rw [← htold]
        simp

/-- **A reply remembers the messages that it gave and the one that it refused.** With a ledger of its
receives, a reply gives what it gives without. After any number of pulls, the messages given and the
one refused, if one was, are the first that arrived; kind and flags that are remembered are those of
the last of them, and the reply is of several if any of them is. A verdict changes nothing of this, nor
does a receive, whatever comes of it; and a pull remembers the message that it gives and no more, and
nothing if it neither gives nor refuses one. -/
theorem remembers_seen (policy : Policy) (e : Expectation) (s : σ) (n : Nat) :
    let run := pulls n (start policy e) (⟨s, []⟩ : Ledgered σ)
    pulls n (start policy e) s = Ledgered.forget run ∧
      (∃ refused,
        let seen := given run.1 ++ refused.toList
        Refuses policy run.1 refused ∧ seen <+: arrived run.2.2.ledger ∧
          run.2.1.history.lastKind = seen.getLast?.map (·.header.kind) ∧
          run.2.1.history.lastFlags = (seen.getLast?.map (·.header.flags)).getD ∅ ∧
          (run.2.1.history.multipart ↔ ∃ m ∈ seen, m.isMultipart)) ∧
      (∀ r : Reply, r.conclude.2.history = r.history ∧
        ∀ t : σ, (r.receive t).2.1.history = r.history ∧
          (∀ m, (r.next t).1 = some (.ok m) → (r.next t).2.1.history = r.history.note m) ∧
          ((∀ m, (r.next t).1 ≠ some (.ok m)) →
            (∀ length, (r.next t).1 ≠ some (.error (.breach (.shortDone length)))) →
            (r.next t).2.1.history = r.history)) := by
  intro run
  obtain ⟨refused, hrefuses, hhistory, hprefix⟩ :=
    refuses_pulls (l := (⟨s, []⟩ : Ledgered σ)) n (reading_start policy e)
  refine ⟨Ledgered.pulls_forget n (start policy e) ⟨s, []⟩,
    ⟨refused, hrefuses, hprefix, ?_, ?_, ?_⟩, fun r => ⟨?_, fun t => ⟨?_, history_next r t⟩⟩⟩
  · rw [hhistory, List.nil_append, History.lastKind_of]
  · rw [hhistory, List.nil_append, History.lastFlags_of]
  · rw [hhistory, List.nil_append, History.multipart_of, List.any_eq_true]
  · rcases hconclude : r.conclude with ⟨item, r'⟩
    obtain ⟨rfl, -, -⟩ := conclude_cases hconclude
    rfl
  · rcases hreceive : r.receive t with ⟨outcome, r', t'⟩
    obtain ⟨buffer, datagrams, rfl⟩ := exists_of_receive hreceive
    rfl

/-- The end of a dump that is too short for its status is not given, but it is remembered. -/
example :
    let peer : ScriptedPeer :=
      { portId := 0
        deliveries := [.ok { datagram := (Draft.finish { kind := .done, flags := .multi }).octets }] }
    let run := pulls 1 (start {} .data) peer
    run.1 = [some (.error (.breach (.shortDone 16)))] ∧
      run.2.1.history.lastKind = some .done ∧ run.2.1.history.multipart := by
  decide +kernel

end Reply

end Netlink
