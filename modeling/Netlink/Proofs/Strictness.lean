import Netlink.Proofs.Transcript

/-!
# Strict and Lenient Readers

A strict policy refuses the end of a dump that is too short for its status, and a lenient one
takes it as it comes. After such an end the lenient reader may find more: other messages in
the same datagram, further datagrams, a fault of another kind. Whatever it finds, the strict
reader gives the same items up to that end, one fault in its place, and nothing after it
(`Reply.strictly`), and it makes no receive that the lenient reader does not make.

The two transcripts go over the same supply, and the proof follows its datagrams: those
without such an end change nothing, and the first with one stops the strict reader there.

## Main results

* `Transcript.read_strict`: the strict transcript, by the lenient one.
* `Reply.items_strict`: **strict and lenient readers differ only at short ends of dumps.**
-/

namespace Netlink

/-- The message ends a dump and is too short for the status of the dump. -/
def Message.isShortDone (m : Message) : Bool := m.isDone && m.header.length.toNat < 20

namespace Policy

/-- A strict policy rejects the ends of dumps that are too short, and nothing else. -/
theorem rejects_of_strict {p : Policy} (h : p.strictDone = true) (m : Message) :
    p.rejects m = m.isShortDone := by
  rw [rejects, h, Message.isShortDone, Bool.true_and]

/-- A lenient policy rejects nothing. -/
theorem rejects_of_lenient {p : Policy} (h : p.strictDone = false) (m : Message) :
    p.rejects m = false := by
  simp [rejects, h]

end Policy

namespace Reply

/-- Items of a lenient reader as a strict one gives them: up to the first end of a dump that is
too short, and then the fault that it is. -/
def strictly : List (Except Fault Message) → List (Except Fault Message)
  | [] => []
  | .error fault :: rest => .error fault :: strictly rest
  | .ok m :: rest =>
    if m.isShortDone then [.error (.breach (.shortDone m.header.length))]
    else .ok m :: strictly rest

/-- Messages before the first end of a dump that is too short are kept. -/
theorem strictly_append {ms : List Message} (rest : List (Except Fault Message))
    (h : ∀ m ∈ ms, m.isShortDone = false) :
    strictly (ms.map .ok ++ rest) = ms.map .ok ++ strictly rest := by
  induction ms with
  | nil => rfl
  | cons m ms ih =>
      obtain ⟨hm, hms⟩ := List.forall_mem_cons.1 h
      simp [strictly, hm, ih hms]

/-- The first end of a dump that is too short is replaced by a fault, which is the last item. -/
theorem strictly_append_of_find? {ms : List Message} {m : Message}
    (rest : List (Except Fault Message)) (h : ms.find? Message.isShortDone = some m) :
    strictly (ms.map .ok ++ rest)
      = (ms.takeWhile fun m => !m.isShortDone).map .ok
        ++ [.error (.breach (.shortDone m.header.length))] := by
  induction ms with
  | nil => simp at h
  | cons m₁ ms ih =>
      cases hm : m₁.isShortDone with
      | true =>
          obtain rfl : m₁ = m := by simpa [List.find?_cons, hm] using h
          simp [strictly, hm]
      | false =>
          have hms : ms.find? Message.isShortDone = some m := by
            simpa [List.find?_cons, hm] using h
          simp [strictly, hm, ih hms]

/-- Items without a short end are not changed. -/
theorem strictly_eq_self {items : List (Except Fault Message)}
    (h : ∀ m, .ok m ∈ items → m.isShortDone = false) : strictly items = items := by
  induction items with
  | nil => rfl
  | cons item items ih =>
      have hitems := ih fun m hm => h m (List.mem_cons_of_mem _ hm)
      cases item with
      | error fault => rw [strictly, hitems]
      | ok m => simp [strictly, h m (List.mem_cons_self ..), hitems]

/-- Items are cut at the first short end. -/
theorem strictly_of_split {before after : List (Except Fault Message)} {m : Message}
    (hbefore : ∀ m', .ok m' ∈ before → m'.isShortDone = false) (hm : m.isShortDone) :
    strictly (before ++ .ok m :: after)
      = before ++ [.error (.breach (.shortDone m.header.length))] := by
  induction before with
  | nil => simp [strictly, hm]
  | cons item before ih =>
      have hrest := ih fun m' hm' => hbefore m' (List.mem_cons_of_mem _ hm')
      cases item with
      | error fault => simp [strictly, hrest]
      | ok m' => simp [strictly, hbefore m' (List.mem_cons_self ..), hrest]

end Reply

namespace Transcript

/-- **The strict transcript is the lenient one, cut at the first short end of a dump.** It has
no more receives, and just as many where nothing is cut. -/
theorem read_strict {strict lenient : Policy} (hstrict : strict.strictDone = true)
    (hlenient : lenient.strictDone = false) (hsize : strict.bufferSize = lenient.bufferSize)
    (e : Expectation) (failure : CallFailure) (seen : List Message) (arrivals : List Arrival) :
    (read strict e failure seen arrivals).items
        = Reply.strictly (read lenient e failure seen arrivals).items ∧
      (read strict e failure seen arrivals).receives
        ≤ (read lenient e failure seen arrivals).receives ∧
      ((∀ m, .ok m ∈ (read lenient e failure seen arrivals).items → m.isShortDone = false) →
        (read strict e failure seen arrivals).receives
          = (read lenient e failure seen arrivals).receives) := by
  induction arrivals generalizing seen with
  | nil => simp [read, Reply.strictly]
  | cons arrival later ih =>
      cases arrival with
      | cut => simp [read, Reply.strictly, hsize]
      | miscounted reported => simp [read, Reply.strictly, hsize]
      | whole datagram =>
          have hrejects : strict.rejects = Message.isShortDone :=
            funext (Policy.rejects_of_strict hstrict)
          have haccepts : (Datagram.messages datagram).find? lenient.rejects = none := by
            simp [Policy.rejects_of_lenient hlenient]
          rw [read, read, haccepts, hrejects]
          cases hfind : (Datagram.messages datagram).find? Message.isShortDone with
          | some m =>
              -- the strict reader stops here, wherever the lenient one stops
              have hmem := List.mem_of_find?_eq_some hfind
              have hshort := List.find?_some hfind
              by_cases hmore : Course.goesOn (seen ++ Datagram.messages datagram)
              · simp only [hmore, if_true, cons, Reply.strictly_append_of_find? _ hfind]
                refine ⟨trivial, by omega, fun h => ?_⟩
                have := h m (by simp [hmem])
                simp [hshort] at this
              · simp only [hmore, Bool.false_eq_true, if_false,
                  Reply.strictly_append_of_find? _ hfind]
                exact ⟨trivial, Nat.le_refl _, fun _ => trivial⟩
          | none =>
              have hnone : ∀ m ∈ Datagram.messages datagram, m.isShortDone = false := by
                simpa using hfind
              by_cases hmore : Course.goesOn (seen ++ Datagram.messages datagram)
              · obtain ⟨hitems, hle, heq⟩ := ih (seen ++ Datagram.messages datagram)
                simp only [hmore, if_true, cons, Reply.strictly_append _ hnone, hitems]
                refine ⟨trivial, Nat.succ_le_succ hle, fun h => ?_⟩
                rw [heq fun m hm => h m (List.mem_append_right _ hm)]
              · simp only [hmore, Bool.false_eq_true, if_false, Reply.strictly_append _ hnone]
                cases Course.breach? (seen ++ Datagram.messages datagram) e <;>
                  simp [Reply.strictly]

end Transcript

namespace Reply

variable {σ : Type} [Endpoint σ]

/-- **Strict and lenient readers differ only at short ends of dumps.** Where the lenient reader
gives no end of a dump that is too short for its status, the strict one gives the same items
and leaves the endpoint in the same state. Otherwise it gives the items before the first such
end, the fault that it is, and then nothing. It never makes more receives. -/
theorem items_strict (policy : Policy) (e : Expectation) (s : σ) :
    let strict := { policy with strictDone := true }
    let lenient := { policy with strictDone := false }
    let t : Bytes × σ := (List.replicate policy.bufferSize 0, s)
    let supply := Endpoint.supply policy t
    let receives (p : Policy) :=
      (Transcript.read p e supply.failure [] supply.arrivals).receives
    ((∀ m, .ok m ∈ ((start lenient e).items s).1 → m.isShortDone = false) →
      ((start strict e).items s).1 = ((start lenient e).items s).1 ∧
        ((start strict e).items s).2.2 = ((start lenient e).items s).2.2) ∧
      (∀ before m after, ((start lenient e).items s).1 = before ++ .ok m :: after →
        (∀ m', .ok m' ∈ before → m'.isShortDone = false) → m.isShortDone →
          let items := before ++ [.error (.breach (.shortDone m.header.length))]
          ((start strict e).items s).1 = items ∧
            ∀ n, (pulls n (start strict e) s).1
              = (items.map some ++ List.replicate n none).take n) ∧
      receives strict ≤ receives lenient ∧
      ((start strict e).items s).2.2 = ((Endpoint.afterFetch policy)^[receives strict] t).2 ∧
      ((start lenient e).items s).2.2
        = ((Endpoint.afterFetch policy)^[receives lenient] t).2 := by
  intro strict lenient t supply receives
  have hread (p : Policy) (hretries : p.retries = policy.retries)
      (hsize : p.bufferSize = policy.bufferSize) :
      ((start p e).items s).1 = (Transcript.read p e supply.failure [] supply.arrivals).items ∧
        ((start p e).items s).2.2 = ((Endpoint.afterFetch policy)^[receives p] t).2 := by
    have hsupply : Endpoint.supply p (List.replicate p.bufferSize 0, s) = supply := by
      rw [hsize, Endpoint.supply_congr hretries]
    rw [← Endpoint.afterFetch_congr hretries]
    simpa only [hsize] using items_start_eq_read p e s hsupply
  obtain ⟨hstrict, hstrictEnd⟩ := hread strict rfl rfl
  obtain ⟨hlenient, hlenientEnd⟩ := hread lenient rfl rfl
  obtain ⟨hitems, hle, heq⟩ := Transcript.read_strict (rfl : strict.strictDone = true)
    (rfl : lenient.strictDone = false) rfl e supply.failure [] supply.arrivals
  rw [← hstrict, ← hlenient] at hitems
  rw [← hlenient] at heq
  refine ⟨fun h => ?_, fun before m after hsplit hbefore hm => ?_, hle, hstrictEnd, hlenientEnd⟩
  · refine ⟨by rw [hitems, strictly_eq_self h], ?_⟩
    rw [hstrictEnd, hlenientEnd]
    exact congrArg (fun n => ((Endpoint.afterFetch policy)^[n] t).2) (heq h)
  · have hcut : ((start strict e).items s).1
        = before ++ [.error (.breach (.shortDone m.header.length))] := by
      rw [hitems, hsplit, strictly_of_split hbefore hm]
    exact ⟨hcut, fun n => by rw [pulls_eq_items, hcut]⟩

end Reply

end Netlink
