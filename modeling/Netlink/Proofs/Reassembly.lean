import Netlink.Proofs.Honest
import Netlink.Proofs.Packing
import Netlink.Proofs.Transcript

/-!
# Dumps Are Reassembled

A sender is free to split a dump over datagrams as it likes. The reader gives the messages
of the dump, its end included, and stops with the datagram that holds the end, for every
split whose first datagram is not empty. That a later datagram is empty does no harm: what
the reader knows of the last message it keeps from one datagram to the next.

## Main results

* `Transcript.read_dump`: the transcript of a dump over any datagrams that hold its
  messages.
* `Reply.items_start_of_delivers_dump`: **however a dump is split, packed and delivered, it
  is read as it was**, with one receive for each datagram up to the one that holds its end.
-/

namespace Netlink

/-! ### The end of a dump -/

namespace Message

variable (sequence portId : UInt32) (status : Int32)

/-- The message made for the end of a dump is taken for one. -/
theorem isDone_done : (done sequence portId status).isDone := rfl

/-- The header of the end of a dump tells its twenty octets. -/
theorem length_header_done : (done sequence portId status).header.length = 20 := by
  simp [done, Draft.finish, Draft.header, Draft.addBody, Header.ofPayload, Header.messageSpace,
    Header.messageLength, Header.size, aligned, alignment]

/-- The end of a dump is well-formed, whatever its status. -/
theorem wellFormed_done : (done sequence portId status).WellFormed := by
  refine Draft.wellFormed_finish ?_
  change Header.size ≤ (done sequence portId status).header.length.toNat
  rw [length_header_done]
  decide

end Message

/-! ### The course of a dump -/

/-- A dump goes on after messages that are parts of it, and where there are none, if it went
on before. -/
theorem Course.goesOn_append {seen ms : List Message}
    (hms : ∀ m ∈ ms, m.isMultipart ∧ ¬m.isDone ∧ ¬m.isError) (hseen : ms = [] → goesOn seen) :
    goesOn (seen ++ ms) := by
  rcases ms.eq_nil_or_concat' with rfl | ⟨ms, m, rfl⟩
  · rw [List.append_nil]
    exact hseen rfl
  · obtain ⟨hmulti, hdone, herror⟩ := hms m (by simp)
    simp [goesOn, hmulti, hdone, herror]

namespace Transcript

variable {p : Policy} {failure : CallFailure} {seen : List Message} {datagram : Bytes}
  {later : List Arrival}

/-- A datagram of parts of a dump is read, and then those that follow it. -/
theorem read_parts
    (hms : ∀ m ∈ Datagram.messages datagram, m.isMultipart ∧ ¬m.isDone ∧ ¬m.isError)
    (hseen : Datagram.messages datagram = [] → Course.goesOn seen) :
    read p .data failure seen (.whole datagram :: later)
      = (read p .data failure (seen ++ Datagram.messages datagram) later).cons
          (Datagram.messages datagram) := by
  have hfind : (Datagram.messages datagram).find? p.rejects = none := by
    refine Policy.find?_rejects_eq_none_iff.2 fun m hm => ?_
    exact Policy.rejects_eq_false_iff.2 fun _ hdone => absurd hdone (hms m hm).2.1
  rw [read, hfind]
  dsimp only
  rw [if_pos (Course.goesOn_append hms hseen)]

/-- A datagram that holds the end of a dump is the last that is read. -/
theorem read_end {ms : List Message} {last : Message}
    (hmessages : Datagram.messages datagram = ms ++ [last])
    (hms : ∀ m ∈ ms, ¬m.isDone) (hlast : last.isDone)
    (hlength : 20 ≤ last.header.length.toNat) :
    read p .data failure seen (.whole datagram :: later) = ⟨(ms ++ [last]).map .ok, 1⟩ := by
  have hfind : (ms ++ [last]).find? p.rejects = none := by
    refine Policy.find?_rejects_eq_none_iff.2 fun m hm => Policy.rejects_eq_false_iff.2 ?_
    intro _ hdone
    rcases List.mem_append.1 hm with hm | hm
    · exact absurd hdone (hms m hm)
    · rwa [List.mem_singleton.1 hm]
  have hover : Course.goesOn (seen ++ (ms ++ [last])) = false := by
    simp [Course.goesOn, ← List.append_assoc, hlast]
  have hbreach : Course.breach? (seen ++ (ms ++ [last])) .data = none := by
    simp [Course.breach?, ← List.append_assoc, hlast]
  rw [read, hmessages, hfind]
  dsimp only
  rw [hover, hbreach]
  simp

/-- **A dump is read off its datagrams**, however they hold its messages, as long as a first
datagram without messages comes only where the dump already went on. -/
theorem read_dump {ms : List Message} {last : Message} {ds : List Bytes} {more : List Arrival}
    (hms : ∀ m ∈ ms, m.isMultipart ∧ ¬m.isDone ∧ ¬m.isError) (hlast : last.isDone)
    (hlength : 20 ≤ last.header.length.toNat)
    (hsplit : (ds.map Datagram.messages).flatten = ms ++ [last])
    (hfirst : (ds.map Datagram.messages).head? = some [] → Course.goesOn seen) :
    read p .data failure seen (ds.map .whole ++ more)
      = ⟨(ms ++ [last]).map .ok,
          (ds.map Datagram.messages).findIdx (·.any Message.isDone) + 1⟩ := by
  induction ds generalizing seen ms with
  | nil => simp at hsplit
  | cons d ds ih =>
      rw [List.map_cons, List.flatten_cons] at hsplit
      -- the end of the dump is in this datagram, or in those that follow it
      rcases (ds.map Datagram.messages).flatten.eq_nil_or_concat' with hnil | ⟨rest, m, hrest⟩
      · rw [hnil, List.append_nil] at hsplit
        rw [List.map_cons, List.cons_append, read_end hsplit (fun m hm => (hms m hm).2.1) hlast
          hlength]
        simp [hsplit, hlast, List.findIdx_cons]
      · rw [hrest, ← List.append_assoc] at hsplit
        obtain ⟨rfl, rfl⟩ := List.append_singleton_inj.1 hsplit
        obtain ⟨hd, hds⟩ := List.forall_mem_append.1 hms
        have hseen : Datagram.messages d = [] → Course.goesOn seen := by
          intro hempty
          exact hfirst (by simp [hempty])
        have hgoesOn : Course.goesOn (seen ++ Datagram.messages d) :=
          Course.goesOn_append hd hseen
        have hnone : (Datagram.messages d).any Message.isDone = false := by
          simpa using fun m hm => (hd m hm).2.1
        rw [List.map_cons, List.cons_append, read_parts hd hseen,
          ih hds hrest (fun _ => hgoesOn)]
        simp [cons, hnone, List.findIdx_cons]

end Transcript

namespace Reply

variable {σ : Type} [Endpoint σ]

/-- **However a dump is split, packed and delivered, it is read as it was.** The messages are
well-formed, of any length, and parts of a dump of which only the first datagram must not be
empty; each datagram fits the buffer. What is read are these messages in order and the end
of the dump, none lost, doubled or out of place, whatever the split and the policy; and the
endpoint is left after one receive for each datagram up to the one that holds the end. -/
theorem items_start_of_delivers_dump (policy : Policy) {s : σ} {ms : List Message}
    {groups : List (List Message)} {sequence portId : UInt32} {status : Int32}
    (hms : ∀ m ∈ ms, m.WellFormed ∧ m.isMultipart ∧ ¬m.isDone ∧ ¬m.isError)
    (hsplit : groups.flatten = ms ++ [.done sequence portId status])
    (hfirst : groups.head? ≠ some [])
    (hsize : ∀ group ∈ groups, (Packer.pack group).length ≤ policy.bufferSize)
    (hdelivers : Endpoint.Delivers (groups.map Packer.pack) s) :
    let items := (ms ++ [Message.done sequence portId status]).map .ok
    let receives := groups.findIdx (·.any Message.isDone) + 1
    ((start policy .data).items s).1 = items ∧
      (∀ n, (pulls n (start policy .data) s).1
        = (items.map some ++ List.replicate n none).take n) ∧
      ((start policy .data).items s).2.2
        = (Endpoint.afterReceive^[receives] (List.replicate policy.bufferSize 0, s)).2 := by
  intro items receives
  have hwellFormed : ∀ m ∈ groups.flatten, m.WellFormed := by
    rw [hsplit, List.forall_mem_append, List.forall_mem_singleton]
    exact ⟨fun m hm => (hms m hm).1, Message.wellFormed_done ..⟩
  have hgroups : (groups.map Packer.pack).map Datagram.messages = groups := by
    rw [List.map_map]
    refine (List.map_congr_left fun group hgroup => ?_).trans (List.map_id groups)
    exact Datagram.messages_pack fun m hm => hwellFormed m (List.mem_flatten_of_mem hgroup hm)
  obtain ⟨more, failure, hsupply⟩ :=
    Endpoint.supply_of_delivers policy (t := (List.replicate policy.bufferSize 0, s))
      hdelivers (by simpa using hsize)
  have hlength : 20 ≤ (Message.done sequence portId status).header.length.toNat := by
    rw [Message.length_header_done]
    decide
  have hread : Transcript.read policy .data failure []
      ((groups.map Packer.pack).map .whole ++ more) = ⟨items, receives⟩ := by
    rw [Transcript.read_dump (fun m hm => (hms m hm).2) (Message.isDone_done ..) hlength
      (by rw [hgroups, hsplit]) (by rw [hgroups]; exact fun h => absurd h hfirst), hgroups]
  have hreceives : receives ≤ (groups.map Packer.pack).length := by
    rw [List.length_map]
    refine List.findIdx_lt_length_of_exists ?_
    have hmem : Message.done sequence portId status ∈ groups.flatten := by
      rw [hsplit]
      exact List.mem_concat_self
    obtain ⟨group, hgroup, hmem⟩ := List.mem_flatten.1 hmem
    exact ⟨group, hgroup, List.any_eq_true.2 ⟨_, hmem, Message.isDone_done ..⟩⟩
  obtain ⟨hitems, hendpoint⟩ := items_start_eq_read policy .data s hsupply
  rw [hread] at hitems hendpoint
  refine ⟨hitems, fun n => ?_, ?_⟩
  · rw [pulls_eq_items, hitems]
  · rw [hendpoint, Endpoint.iterate_afterFetch_of_delivers policy hdelivers hreceives]

/-- A dump over four datagrams: a message of seventeen octets and one of sixteen, nothing, the
end of the dump, and nothing again. It takes three receives. -/
theorem items_start_of_delivers_dump_empty_between :
    ∃ items reply peer,
      (start {} .data).items
          ({ portId := 0
             deliveries :=
              [[⟨⟨17, .newLink, .multi, 1, 0⟩,
                    [17, 0, 0, 0, 16, 0, 2, 0, 1, 0, 0, 0, 0, 0, 0, 0, 7]⟩,
                  Draft.finish { kind := .newLink, flags := .multi }],
                [], [Message.done 1 0 0], []].map
                fun group => .ok { datagram := Packer.pack group } } : ScriptedPeer)
        = (items, reply, peer) ∧
      items
        = [.ok ⟨⟨17, .newLink, .multi, 1, 0⟩,
              [17, 0, 0, 0, 16, 0, 2, 0, 1, 0, 0, 0, 0, 0, 0, 0, 7]⟩,
            .ok (Draft.finish { kind := .newLink, flags := .multi }),
            .ok (Message.done 1 0 0)] ∧
      peer.receiveCalls = 3 := by
  have hms : ∀ m ∈ [(⟨⟨17, .newLink, .multi, 1, 0⟩,
          [17, 0, 0, 0, 16, 0, 2, 0, 1, 0, 0, 0, 0, 0, 0, 0, 7]⟩ : Message),
        Draft.finish { kind := .newLink, flags := .multi }],
      m.WellFormed ∧ m.isMultipart ∧ ¬m.isDone ∧ ¬m.isError := by
    decide
  have hsplit (m₁ m₂ : Message) :
      [[m₁, m₂], [], [.done 1 0 0], []].flatten = [m₁, m₂] ++ [.done 1 0 0] := rfl
  have hdelivers (groups : List (List Message)) :
      Endpoint.Delivers (groups.map Packer.pack)
        ({ portId := 0
           deliveries := groups.map fun group => .ok { datagram := Packer.pack group } } :
          ScriptedPeer) := by
    refine ScriptedPeer.delivers_of_prefix ?_
    rw [List.map_map]
    exact List.prefix_rfl
  obtain ⟨hitems, -, hpeer⟩ :=
    items_start_of_delivers_dump {} hms (hsplit ..) (by decide) (by decide) (hdelivers _)
  refine ⟨_, _, _, rfl, hitems, ?_⟩
  rw [hpeer]
  decide +kernel

end Reply

end Netlink
