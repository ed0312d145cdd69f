import Netlink.Proofs.Reader

/-!
# Nothing Is Read Outside Its Buffer

What is received is read by offsets: a datagram is cut out of the receive buffer as the endpoint
reports, its messages as their headers say, their attributes as far as a header that the caller
may have changed says, and values as the heads of the attributes say. None of these numbers
can be trusted. Here the parts are put together: with a truthful endpoint, every access made
on the way succeeds, and what is read is what `Reply`, `Request`, `Chain` and `Attribute`
read without any offset.

## Main results

* `Endpoint.readsWithin_of_truthful`: replies, single datagrams and acknowledgements of a truthful
  endpoint are read within their buffers, and so is all of a message that they bring.
* `Endpoint.reads_stay_inside`: **nothing is read outside its buffer**, over any connection in
  particular, and by a chain on whatever range of a buffer.
-/

namespace Netlink

namespace Endpoint

variable {σ : Type} [Endpoint σ]

/-- What is read of an endpoint is read within the buffers, and what is read of the messages that
come of it is read within their records, also under another header. -/
structure ReadsWithin (policy : Policy) (s : σ) : Prop where
  /-- Any number of pulls on a reply. -/
  pulls : ∀ expectation n,
    (Reader.pulls n (.start policy expectation) s).map (fun (items, r, s) => (items, r.reply, s))
      = .ok (Reply.pulls n (.start policy expectation) s)
  /-- The messages that they give. -/
  pulled : ∀ expectation n m, some (.ok m) ∈ (Reply.pulls n (.start policy expectation) s).1 →
    ∀ h, { m with header := h }.Contained
  /-- The messages of a datagram that is taken alone. -/
  single : ∀ request datagram, (Request.once policy request s).1 = .ok datagram →
    Datagram.checkedMessages datagram = .ok (Datagram.messages datagram) ∧
      ∀ m ∈ Datagram.messages datagram, ∀ h, { m with header := h }.Contained
  /-- An exchange that awaits an acknowledgement. -/
  confirm : ∀ sequence request,
    Request.checkedConfirm policy sequence request s
      = .ok (Request.confirm policy sequence request s)

/-- A datagram that is taken alone lies in a buffer of the size that the policy says. -/
theorem length_once_le {policy : Policy} {request : Message} {s : σ} {datagram : Bytes}
    (h : (Request.once policy request s).1 = .ok datagram) :
    datagram.length ≤ policy.bufferSize := by
  rw [Request.once] at h
  match hsend : Request.send policy request s with
  | (.error fault, s') => simp [hsend] at h
  | (.ok (), s') =>
      have hlength := length_fetch policy s' (List.replicate policy.bufferSize 0)
      match hf : fetch policy s' (List.replicate policy.bufferSize 0) with
      | (.error failure, buffer, s'') => simp [hsend, hf] at h
      | (.ok receipt, buffer, s'') =>
          rw [hf, List.length_replicate] at hlength
          rw [hsend] at h
          dsimp only at h
          rw [hf] at h
          dsimp only at h
          split at h
          · cases h
          · obtain rfl := Except.ok.inj h
            exact Nat.le_trans (List.length_take_le' _ _) (Nat.le_of_eq hlength)

/-- **What a truthful endpoint gives is read within the buffers**, if the size of a buffer fits into
sixty-four bits: by any number of pulls, as a single datagram, and for an acknowledgement. -/
theorem readsWithin_of_truthful {policy : Policy} (hsize : policy.bufferSize < UInt64.size) {s : σ}
    (hs : Truthful s) : ReadsWithin policy s where
  pulls expectation n := (Reader.pulls_eq n (Reader.inside_start hsize expectation) hs).1
  pulled expectation n m hm h :=
    Message.contained_of_whole
      (((Reader.pulls_eq n (Reader.inside_start hsize expectation) hs).2 m hm).withHeader h)
  single request datagram hdatagram := by
    have hlength : datagram.length < UInt64.size :=
      Nat.lt_of_le_of_lt (length_once_le hdatagram) hsize
    refine ⟨Datagram.checkedMessages_eq hlength, fun m hm h => ?_⟩
    exact Message.contained_of_whole ((Datagram.whole_of_mem_messages hlength hm).withHeader h)
  confirm sequence request := Request.checkedConfirm_eq hsize hs sequence request

/-- **Nothing is read outside its buffer**: of a truthful endpoint, of any connection, of the
values of attributes, and of the chain on any range of any buffer. -/
theorem reads_stay_inside :
    (∀ {σ : Type} [Endpoint σ] (policy : Policy) (s : σ),
        policy.bufferSize < UInt64.size → Truthful s → ReadsWithin policy s) ∧
      (∀ (policy : Policy) (c : Connection), policy.bufferSize < UInt64.size →
        ReadsWithin policy c) ∧
      (Layout.route.InReach ∧ Layout.netfilter.InReach) ∧
      (∀ a : Attribute, a.checkedWord? = .ok a.word? ∧ a.checkedText? = .ok a.text?) ∧
      ∀ {buffer : Bytes}, buffer.length < UInt64.size → ∀ start length headSize,
        Chain.checkedAttributes headSize (.ofRange buffer start length)
            = .ok (Chain.ofRange buffer start length headSize).attributes ∧
          ∀ type, Chain.checkedFind? headSize (.ofRange buffer start length) type
            = .ok ((Chain.ofRange buffer start length headSize).find? type) := by
  refine ⟨fun _ _ hsize hs => readsWithin_of_truthful hsize hs,
    fun _ c hsize => readsWithin_of_truthful hsize c.truthful,
    ⟨Layout.inReach_route, Layout.inReach_netfilter⟩,
    fun a => ⟨a.checkedWord?_eq, a.checkedText?_eq⟩, fun hbuffer start length headSize => ?_⟩
  have hshows := Cursor.shows_ofRange hbuffer start length
  exact ⟨Chain.checkedAttributes_of_shows hshows headSize,
    Chain.checkedFind?_of_shows hshows headSize⟩

/-- The kernel returns 5000 for a buffer of 64 octets, and the message in it ends in the middle of
an attribute. The attribute before that is found, also when the header is made to say that the
message goes on. -/
theorem reads_stay_inside_link :
    ∃ (c : Connection) (m : Message),
      m.header = { length := 43, kind := .newLink, flags := ∅, sequence := 1, portId := 0 } ∧
      m.octets = m.header.encode ++ (default : LinkInfo).encode
        ++ [7, 0, 3, 0, 108, 111, 0, 0, 9, 0, 4] ∧
      c.kernel.deliveries = [.ok { datagram := m.octets, returned := some 5000, flags := some 0 }] ∧
      (Reader.pulls 2 (.start { bufferSize := 64 } .data) c).map (·.1)
        = .ok [some (.ok m), none] ∧
      Layout.route.checkedFind? { m with header := { m.header with length := 0xFFFFFFFF } } 3
        = .ok (some ⟨⟨7, 3⟩, [108, 111, 0]⟩) ∧
      Chain.checkedAttributes 0 (.ofRange m.octets 40 (UInt64.size - 1)) = .ok [] := by
  generalize hheader : ({ length := 43, kind := .newLink, flags := ∅, sequence := 1, portId := 0 }
    : Header) = header
  generalize hm : (⟨header, header.encode ++ (default : LinkInfo).encode
    ++ [7, 0, 3, 0, 108, 111, 0, 0, 9, 0, 4]⟩ : Message) = m
  generalize hc : ({ socket := ⟨3, .route⟩, kernel := { deliveries :=
    [.ok { datagram := m.octets, returned := some 5000, flags := some 0 }] } } : Connection) = c
  obtain ⟨-, hconnection, ⟨hroute, -⟩, -, hrange⟩ := reads_stay_inside
  have hreads := hconnection { bufferSize := 64 } c (by decide)
  have hitems : (Reply.pulls 2 (.start { bufferSize := 64 } .data) c).1 = [some (.ok m), none] := by
    rw [← hc, ← hm, ← hheader]
    decide +kernel
  refine ⟨c, m, by rw [← hm], by rw [← hm], by rw [← hc], ?_, ?_, ?_⟩
  · have hpulls := hreads.pulls .data 2
    cases hp : Reader.pulls 2 (.start { bufferSize := 64 } .data) c with
    | error overrun => simp [hp, Except.map] at hpulls
    | ok later =>
        rw [hp] at hpulls
        rw [← hitems, ← Except.ok.inj hpulls]
        rfl
  · have hpulled := hreads.pulled .data 2 m (by rw [hitems]; exact List.mem_cons_self)
    rw [(hpulled _).find .route hroute 3, ← hm, ← hheader]
    decide +kernel
  · have hlength : m.octets.length < UInt64.size := by
      rw [← hm, ← hheader]
      decide
    rw [(hrange hlength 40 _ 0).1, ← hm, ← hheader]
    decide +kernel

end Endpoint

end Netlink
