import Netlink.Endpoint.Scripted
import Netlink.Message.Draft
import Netlink.Proofs.Transcript

/-!
# No Cut-Short Reply Passes for a Whole One

A reply may be cut short in many ways: a datagram is missing, a later message is not marked
as one of several, a datagram holds no record at all. When the pulls come to an end without
a fault, none of this has happened: a dump ended with the end of a dump, and what was to be
acknowledged ended with an acknowledgement.

The reason is in the transcript: it ends without a fault only after a verdict on all
messages seen, and none of the messages before was refused.

## Main results

* `Transcript.read_eq_map_ok`: a transcript without a fault ends with messages that are as
  they should be.
* `Reply.complete_of_pulls_end`: **a reply whose pulls come to an end is complete.**
-/

namespace Netlink

/-- A transcript that is without a fault has seen messages with which the reply may end,
and none that is refused. -/
theorem Transcript.read_eq_map_ok {p : Policy} {e : Expectation} {failure : CallFailure}
    {seen ms : List Message} {arrivals : List Arrival}
    (h : (read p e failure seen arrivals).items = ms.map .ok) :
    Course.breach? (seen ++ ms) e = none ∧ ∀ m ∈ ms, p.rejects m = false := by
  -- a fault among the items is no message
  have hfault (xs : List (Except Fault Message)) (ms : List Message) (fault : Fault) :
      xs ++ [.error fault] ≠ ms.map .ok := by
    intro heq
    have hmem : Except.error fault ∈ ms.map Except.ok := by rw [← heq]; simp
    simp at hmem
  induction arrivals generalizing seen ms with
  | nil => exact absurd h (hfault [] ms _)
  | cons arrival later ih =>
      cases arrival with
      | cut => exact absurd h (hfault [] ms _)
      | miscounted reported => exact absurd h (hfault [] ms _)
      | whole datagram =>
          rw [read] at h
          cases hfind : (Datagram.messages datagram).find? p.rejects with
          | some m =>
              rw [hfind] at h
              exact absurd h (hfault _ ms _)
          | none =>
              have haccept := Policy.find?_rejects_eq_none_iff.1 hfind
              rw [hfind] at h
              dsimp only at h
              by_cases hmore : Course.goesOn (seen ++ Datagram.messages datagram)
              · rw [if_pos hmore, cons, List.append_eq_map_iff] at h
                obtain ⟨ms₁, ms₂, rfl, hms₁, hms₂⟩ := h
                obtain rfl : ms₁ = Datagram.messages datagram :=
                  List.map_injective_iff.2 (fun _ _ => Except.ok.inj) hms₁
                obtain ⟨hend, hrest⟩ := ih hms₂.symm
                refine ⟨by rw [← List.append_assoc]; exact hend, ?_⟩
                intro m hm
                rcases List.mem_append.1 hm with hm | hm
                · exact haccept m hm
                · exact hrest m hm
              · rw [if_neg hmore] at h
                cases hb : Course.breach? (seen ++ Datagram.messages datagram) e with
                | some b =>
                    rw [hb] at h
                    exact absurd h (hfault _ ms _)
                | none =>
                    rw [hb] at h
                    obtain rfl : Datagram.messages datagram = ms :=
                      List.map_injective_iff.2 (fun _ _ => Except.ok.inj) (by simpa using h)
                    exact ⟨hb, haccept⟩

namespace Reply

variable {σ : Type} [Endpoint σ]

/-- **A reply whose pulls come to an end is complete.** If the pulls give messages and then
nothing, and no fault before, then data is in one piece or ends with the end of a dump,
which under a strict policy is long enough for its status; and what was to be acknowledged
ends with an error message. -/
theorem complete_of_pulls_end {policy : Policy} {e : Expectation} {s : σ} {n : Nat}
    {ms : List Message}
    (h : (pulls n (start policy e) s).1 = ms.map (fun m => some (.ok m)) ++ [none]) :
    (e = .data →
      (∀ m ∈ ms, m.isMultipart = false) ∨
        ∃ m, ms.getLast? = some m ∧ m.isDone ∧
          (policy.strictDone → 20 ≤ m.header.length.toNat)) ∧
      (e = .acknowledgement → ∃ m, ms.getLast? = some m ∧ m.isError) := by
  have hitems : ((start policy e).items s).1 = ms.map .ok := by
    refine items_of_pulls_end (n := n) ?_
    rw [h, List.map_map]
    rfl
  obtain ⟨hread, -⟩ := items_start_eq_read policy e s rfl
  rw [hitems] at hread
  obtain ⟨hend, haccept⟩ := Transcript.read_eq_map_ok hread.symm
  rw [List.nil_append] at hend
  constructor
  · rintro rfl
    by_cases hmulti : ms.any Message.isMultipart
    · right
      rw [Course.breach?, hmulti] at hend
      cases hlast : ms.getLast? with
      | none => simp [hlast] at hend
      | some m =>
          have hdone : m.isDone := by simpa [hlast] using hend
          have hm := haccept m (List.mem_of_getLast? hlast)
          exact ⟨m, rfl, hdone, fun hstrict => Policy.rejects_eq_false_iff.1 hm hstrict hdone⟩
    · left
      simpa using hmulti
  · rintro rfl
    rw [Course.breach?] at hend
    cases hlast : ms.getLast? with
    | none => simp [hlast] at hend
    | some m => exact ⟨m, rfl, by simpa [hlast] using hend⟩

/-- A dump of three datagrams, the second of which holds no record: its pulls come to an end,
and so it is complete. -/
theorem complete_of_pulls_end_dump :
    (pulls 3 (start {} .data)
        ({ portId := 0
           deliveries :=
            [.ok { datagram := (Draft.finish { kind := .newLink, flags := .multi }).octets },
              .ok { datagram := [0, 0, 0, 0] },
              .ok { datagram := (Message.done 0 0 0).octets }] } : ScriptedPeer)).1
      = [Draft.finish { kind := .newLink, flags := .multi }, Message.done 0 0 0].map
          (fun m => some (.ok m)) ++ [none] ∧
      ∃ m, [Draft.finish { kind := .newLink, flags := .multi }, Message.done 0 0 0].getLast?
          = some m ∧ m.isDone ∧ 20 ≤ m.header.length.toNat := by
  have hpulls : (pulls 3 (start {} .data)
        ({ portId := 0
           deliveries :=
            [.ok { datagram := (Draft.finish { kind := .newLink, flags := .multi }).octets },
              .ok { datagram := [0, 0, 0, 0] },
              .ok { datagram := (Message.done 0 0 0).octets }] } : ScriptedPeer)).1
      = [Draft.finish { kind := .newLink, flags := .multi }, Message.done 0 0 0].map
          (fun m => some (.ok m)) ++ [none] := by
    decide +kernel
  refine ⟨hpulls, ?_⟩
  rcases (complete_of_pulls_end hpulls).1 rfl with hsingle | ⟨m, hlast, hdone, hlength⟩
  · exact absurd (hsingle _ (List.mem_cons_self ..)) (by decide)
  · exact ⟨m, hlast, hdone, hlength rfl⟩

end Reply

end Netlink
