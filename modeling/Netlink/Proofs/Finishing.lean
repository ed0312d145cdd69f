import Netlink.Proofs.Attributes

/-!
# What a Draft Comes To

A step of drafting either sets a field of the header or appends a piece to the payload. The
two kinds do not touch each other, so steps may be interleaved in any way that keeps the order
among the settings and among the pieces (`Draft.steps_interleave`), and what a draft comes to
can be told from the steps alone: each field is the one set last, and the payload is the pieces,
each padded.

The length in the header has thirty-two bits. The payload grows in memory and may pass them.
Then the length is what is left of it modulo `2 ^ 32`, the record is cut to that length, and the
message no longer carries what was drafted. Nothing fails. The length of an attribute has
sixteen bits, and there a step that would pass them does fail.

## Main results

* `Draft.step_error_iff`: when a step fails, and with which fault.
* `Draft.steps_interleave`: settings and pieces may be interleaved.
* `Draft.faithful_iff`: a message carries what was drafted exactly if thirty-two bits hold its
  length.
* `Draft.finish_of_steps`: **the message of a draft, told from the steps.**
-/

namespace Netlink

namespace Draft

/-! ### What steps ask for -/

/-- The flags that a step sets, if it sets them. -/
def Step.flags? : Step → Option Flags
  | .flags f => some f
  | _ => none

/-- The sequence number that a step sets, if it sets it. -/
def Step.sequence? : Step → Option UInt32
  | .sequence n => some n
  | _ => none

/-- The address that a step sets, if it sets it. -/
def Step.portId? : Step → Option UInt32
  | .portId n => some n
  | _ => none

/-- The step sets a field of the header. -/
def Step.isSetting : Step → Bool
  | .flags _ | .sequence _ | .portId _ => true
  | .body _ | .value _ _ | .text _ _ | .word _ _ => false

variable {d d' : Draft} {s : Step} {ss : List Step} {fault : Fault}

/-! ### Failing -/

/-- A value is refused just if it is beyond the limit, and the fault tells both lengths. -/
theorem addValue_error_iff {type : UInt16} {value : Bytes} :
    d.addValue type value = .error fault ↔
      Attribute.valueLimit < value.length ∧
        fault = .tooLarge value.length Attribute.valueLimit := by
  by_cases h : value.length ≤ Attribute.valueLimit
  · have hhead : Attribute.Head.ofSize value.length type = .ok _ := if_pos h
    rw [addValue, hhead]
    constructor
    · rintro ⟨⟩
    · rintro ⟨hlarge, -⟩
      exact absurd h (Nat.not_le_of_lt hlarge)
  · have hhead : Attribute.Head.ofSize value.length type = .error _ := if_neg h
    rw [addValue, hhead]
    constructor
    · rintro ⟨⟩
      exact ⟨Nat.lt_of_not_le h, rfl⟩
    · rintro ⟨-, rfl⟩
      rfl

/-- **A step fails exactly if the value it appends is above the limit**, and the fault tells its
size. -/
theorem step_error_iff :
    d.step s = .error fault ↔
      ∃ a ∈ s.attribute?, Attribute.valueLimit < a.value.length ∧
        fault = .tooLarge a.value.length Attribute.valueLimit := by
  cases s with
  | flags _ | sequence _ | portId _ | body _ =>
      constructor
      · rintro ⟨⟩
      · rintro ⟨a, ⟨⟩, -⟩
  | value _ _ | text _ _ =>
      refine addValue_error_iff.trans ⟨fun h => ⟨_, rfl, h⟩, ?_⟩
      rintro ⟨a, ⟨⟩, h⟩
      exact h
  | word type word =>
      constructor
      · rintro ⟨⟩
      · rintro ⟨a, ⟨⟩, hlarge, -⟩
        change Attribute.valueLimit < 4 at hlarge
        exact absurd hlarge (by decide)

/-- A step that does not fail fits. -/
theorem fits_of_step (h : d.step s = .ok d') : s.Fits := by
  intro a ha
  refine Nat.le_of_not_lt fun hlarge => ?_
  rw [step_error_iff.2 ⟨a, ha, hlarge, rfl⟩] at h
  cases h

/-- If no step fails, the first does not, and the others do not after it. -/
theorem steps_cons_ok (h : d.steps (s :: ss) = .ok d') :
    ∃ d₁, d.step s = .ok d₁ ∧ d₁.steps ss = .ok d' := by
  rw [steps_cons] at h
  cases hs : d.step s with
  | error fault =>
      rw [hs] at h
      cases h
  | ok d₁ =>
      rw [hs] at h
      exact ⟨d₁, rfl, h⟩

/-- Steps of which none fails fit. -/
theorem fits_of_steps (h : d.steps ss = .ok d') : ∀ s ∈ ss, s.Fits := by
  induction ss generalizing d with
  | nil => exact fun _ hs => absurd hs List.not_mem_nil
  | cons s ss ih =>
      obtain ⟨d₁, hs, hss⟩ := steps_cons_ok h
      exact List.forall_mem_cons.2 ⟨fits_of_step hs, ih hss⟩

/-! ### Settings and pieces -/

/-- To append a value changes the payload alone. -/
theorem addValue_ok {type : UInt16} {value : Bytes} (h : d.addValue type value = .ok d') :
    ∃ payload, d' = { d with payload } := by
  rw [addValue] at h
  cases hhead : Attribute.Head.ofSize value.length type with
  | error fault =>
      rw [hhead] at h
      cases h
  | ok head =>
      rw [hhead] at h
      exact ⟨_, (Except.ok.inj h).symm⟩

/-- What a step makes of the fields of the header. -/
theorem step_settings (h : d.step s = .ok d') :
    d'.kind = d.kind ∧ d'.flags = s.flags?.getD d.flags ∧
      d'.sequence = s.sequence?.getD d.sequence ∧ d'.portId = s.portId?.getD d.portId := by
  cases s with
  | flags _ | sequence _ | portId _ | body _ | word _ _ =>
      obtain rfl := Except.ok.inj h
      exact ⟨rfl, rfl, rfl, rfl⟩
  | value _ _ | text _ _ =>
      obtain ⟨payload, rfl⟩ := addValue_ok h
      exact ⟨rfl, rfl, rfl, rfl⟩

/-- The last of what is found in a list, seen from its head. -/
theorem getLastD_filterMap_cons {α β : Type} (f : α → Option β) (a : α) (as : List α) (b : β) :
    ((a :: as).filterMap f).getLastD b = (as.filterMap f).getLastD ((f a).getD b) := by
  cases h : f a with
  | none => rw [List.filterMap_cons_none h, Option.getD_none]
  | some c => rw [List.filterMap_cons_some h, List.getLastD_cons, Option.getD_some]

/-- After steps the kind is the one before, and each other field of the header is the one set
last. -/
theorem steps_settings (h : d.steps ss = .ok d') :
    d'.kind = d.kind ∧ d'.flags = (ss.filterMap Step.flags?).getLastD d.flags ∧
      d'.sequence = (ss.filterMap Step.sequence?).getLastD d.sequence ∧
      d'.portId = (ss.filterMap Step.portId?).getLastD d.portId := by
  induction ss generalizing d with
  | nil =>
      obtain rfl := Except.ok.inj h
      exact ⟨rfl, rfl, rfl, rfl⟩
  | cons s ss ih =>
      obtain ⟨d₁, hs, hss⟩ := steps_cons_ok h
      obtain ⟨hkind, hflags, hsequence, hportId⟩ := step_settings hs
      simp only [getLastD_filterMap_cons]
      rw [← hkind, ← hflags, ← hsequence, ← hportId]
      exact ih hss

/-- A setting may be made before or after a value is appended. -/
theorem addValue_comm {type : UInt16} {value : Bytes} (hs : s.isSetting) (d : Draft) :
    (d.step s >>= fun d₁ => d₁.addValue type value)
      = d.addValue type value >>= fun d₁ => d₁.step s := by
  cases s with
  | flags _ | sequence _ | portId _ =>
      simp only [addValue]
      cases Attribute.Head.ofSize value.length type <;> rfl
  | _ => cases hs

/-- A setting and a piece may change places. -/
theorem step_comm {t : Step} (hs : s.isSetting) (ht : ¬t.isSetting) (d : Draft) :
    (d.step s >>= fun d₁ => d₁.step t) = d.step t >>= fun d₁ => d₁.step s := by
  cases t with
  | flags _ | sequence _ | portId _ => exact absurd rfl ht
  | body _ | word _ _ =>
      cases s with
      | flags _ | sequence _ | portId _ => rfl
      | _ => cases hs
  | value _ _ | text _ _ => exact addValue_comm hs d

/-- A piece may be appended before settings that stand before it. -/
theorem steps_comm {settings : List Step} {t : Step} (hsettings : ∀ s ∈ settings, s.isSetting)
    (ht : ¬t.isSetting) (d : Draft) :
    d.steps (settings ++ t :: ss) = d.steps (t :: (settings ++ ss)) := by
  induction settings generalizing d with
  | nil => rfl
  | cons s settings ih =>
      obtain ⟨hs, hsettings⟩ := List.forall_mem_cons.1 hsettings
      calc d.steps (s :: (settings ++ t :: ss))
          = d.step s >>= fun d₁ => d₁.steps (t :: (settings ++ ss)) := by
            rw [steps_cons]
            exact bind_congr fun d₁ => ih hsettings d₁
        _ = (d.step s >>= fun d₁ => d₁.step t) >>= fun d₂ => d₂.steps (settings ++ ss) := by
            simp only [steps_cons, bind_assoc]
        _ = (d.step t >>= fun d₁ => d₁.step s) >>= fun d₂ => d₂.steps (settings ++ ss) := by
            rw [step_comm hs ht]
        _ = d.steps (t :: s :: (settings ++ ss)) := by
            simp only [steps_cons, bind_assoc]

/-- All settings may be made first. -/
theorem steps_settings_first (d : Draft) (ss : List Step) :
    d.steps (ss.filter (·.isSetting) ++ ss.filter (!·.isSetting)) = d.steps ss := by
  induction ss generalizing d with
  | nil => rfl
  | cons s ss ih =>
      by_cases hs : s.isSetting
      · rw [List.filter_cons_of_pos hs, List.filter_cons_of_neg (by simp [hs]),
          List.cons_append, steps_cons, steps_cons]
        exact bind_congr fun d₁ => ih d₁
      · rw [List.filter_cons_of_neg hs, List.filter_cons_of_pos (by simp [hs]),
          steps_comm (fun t ht => (List.mem_filter.1 ht).2) hs, steps_cons, steps_cons]
        exact bind_congr fun d₁ => ih d₁

/-- **Settings and pieces may be interleaved.** Steps with the same settings in the same order,
and the same pieces in the same order, come to the same draft, or fail with the same fault. -/
theorem steps_interleave {ss' : List Step}
    (hsettings : ss'.filter (·.isSetting) = ss.filter (·.isSetting))
    (hpieces : ss'.filter (!·.isSetting) = ss.filter (!·.isSetting)) (d : Draft) :
    d.steps ss' = d.steps ss := by
  rw [← steps_settings_first, hsettings, hpieces, steps_settings_first]

/-! ### The record -/

/-- The payload after steps that succeed is their pieces, each padded. -/
theorem payload_steps (hd : d.payload = []) (h : d.steps ss = .ok d') :
    padded d'.payload = d'.payload ∧ d'.payload = appended ss := by
  obtain ⟨d₁, hsteps, hpadded, hpayload⟩ :=
    steps_of_fits (fits_of_steps h) (by rw [hd, padded_nil])
  obtain rfl : d₁ = d' := Except.ok.inj (hsteps.symm.trans h)
  rw [hd, List.nil_append] at hpayload
  exact ⟨hpadded, hpayload⟩

/-- **A message carries what was drafted exactly if thirty-two bits hold its length.** Otherwise
its record was cut, and is too short for the payload. -/
theorem faithful_iff (hd : padded d.payload = d.payload) :
    d.finish.payload? = some d.payload ∧ Message.decode d.finish.octets = .ok d.finish ↔
      Header.messageLength d.payload.length < UInt32.size := by
  constructor
  · rintro ⟨hpayload, -⟩
    rw [Header.messageLength]
    have hlength := d.length_octets_finish
    have hbound : d.header.length.toNat < UInt32.size := d.header.length.toNat_lt_size
    rw [Message.payload?] at hpayload
    split at hpayload
    · have hdrop := congrArg List.length (Option.some.inj hpayload)
      rw [List.length_drop] at hdrop
      omega
    · cases hpayload
  · intro hsize
    have hoctets := octets_finish hd hsize
    refine ⟨?_, wellFormed_finish ?_⟩
    · rw [Message.payload?, hoctets, List.length_append, Header.length_encode,
        if_pos (Nat.le_add_right _ _), List.drop_left' d.header.length_encode]
    · rw [length_header hd hsize]
      exact Nat.le_add_right _ _

/-- **The message of a draft, told from the steps.** Before the first step a draft has no
payload: a plain draft, a request and a request for a dump all start so. Let steps be taken in
some order.

* If all succeed, then the header has the kind that the draft started with, and the flags,
  sequence number and address that were set last. Its length, and the size of the record, are
  those of header and pieces modulo `2 ^ 32`. The message carries the pieces, and is what its
  octets are decoded to, exactly if their length needs no reduction. Every attribute appended
  has its true length in its head.
* Settings and pieces may be interleaved, with the same draft or the same fault.
* A step fails exactly if the value it appends, the zero octet of a text included, is above
  65531 octets, whatever the draft. -/
theorem finish_of_steps (hd : d.payload = []) (ss : List Step) :
    (∀ d', d.steps ss = .ok d' →
      d'.finish.header =
        { length := .ofNat (16 + (appended ss).length)
          kind := d.kind
          flags := (ss.filterMap Step.flags?).getLastD d.flags
          sequence := (ss.filterMap Step.sequence?).getLastD d.sequence
          portId := (ss.filterMap Step.portId?).getLastD d.portId } ∧
      d'.finish.header.length.toNat = (16 + (appended ss).length) % 2 ^ 32 ∧
      d'.finish.size = (16 + (appended ss).length) % 2 ^ 32 ∧
      (d'.finish.payload? = some (appended ss) ∧
          Message.decode d'.finish.octets = .ok d'.finish ↔
        16 + (appended ss).length < 2 ^ 32) ∧
      ∀ a ∈ ss.filterMap Step.attribute?, a.head.length.toNat = 4 + a.value.length) ∧
    (∀ ss', ss'.filter (·.isSetting) = ss.filter (·.isSetting) →
      ss'.filter (!·.isSetting) = ss.filter (!·.isSetting) → d.steps ss' = d.steps ss) ∧
    ∀ (e : Draft) (s : Step) (fault : Fault),
      e.step s = .error fault ↔
        ∃ a ∈ s.attribute?, 65531 < a.value.length ∧ fault = .tooLarge a.value.length 65531 := by
  refine ⟨fun d' h => ?_, fun ss' hsettings hpieces => steps_interleave hsettings hpieces d,
    fun e s fault => step_error_iff⟩
  obtain ⟨hpadded, hpayload⟩ := payload_steps hd h
  obtain ⟨hkind, hflags, hsequence, hportId⟩ := steps_settings h
  have hlength : d'.header.length = .ofNat (16 + (appended ss).length) := by
    rw [header_length_eq hpadded, hpayload, Header.messageLength, Header.size]
  have hmod : d'.header.length.toNat = (16 + (appended ss).length) % 2 ^ 32 := by
    rw [hlength, UInt32.toNat_ofNat']
  refine ⟨?_, hmod, d'.length_octets_finish.trans hmod, ?_,
    exact_of_forall_fits (fits_of_steps h)⟩
  · rw [← hlength, ← hkind, ← hflags, ← hsequence, ← hportId]
    rfl
  · rw [← hpayload]
    exact faithful_iff hpadded

/-- A request for links with a text, whose sequence number is set twice; and one with a body so
long that no payload is left of it. -/
theorem finish_of_steps_links :
    (∃ d', (dumpRequest .getLink).steps
          [.sequence 7, .body [17], .flags .request, .text 3 "lo", .sequence 9] = .ok d' ∧
        d'.finish.header = ⟨28, .getLink, .request, 9, 0⟩ ∧
        d'.finish.payload? = some [17, 0, 0, 0, 7, 0, 3, 0, 108, 111, 0, 0] ∧
        Message.decode d'.finish.octets = .ok d'.finish) ∧
      ∃ (body : Bytes) (d' : Draft), body.length = 2 ^ 32 ∧
        (dumpRequest .getLink).steps [.body body] = .ok d' ∧ d'.finish.size = 16 ∧
        d'.finish.payload? = some [] := by
  constructor
  · have happended : appended
        [.sequence 7, .body [17], .flags .request, .text 3 "lo", .sequence 9]
        = [17, 0, 0, 0, 7, 0, 3, 0, 108, 111, 0, 0] := by
      decide
    have hfits : ∀ s ∈ ([.sequence 7, .body [17], .flags .request, .text 3 "lo", .sequence 9]
        : List Step), s.Fits := by
      decide
    obtain ⟨d', hsteps, -⟩ := steps_of_fits (d := dumpRequest .getLink) hfits rfl
    obtain ⟨hheader, -, -, hfaithful, -⟩ := (finish_of_steps rfl _).1 d' hsteps
    rw [happended] at hheader hfaithful
    exact ⟨d', hsteps, hheader, hfaithful.2 (by decide)⟩
  · obtain ⟨body, hbody⟩ : ∃ body : Bytes, body.length = 2 ^ 32 :=
      ⟨List.replicate (2 ^ 32) 0, List.length_replicate⟩
    have happended : (appended [.body body]).length = 2 ^ 32 := by
      rw [appended, List.flatMap_singleton, length_padded, Step.piece, hbody]
      decide
    have hfits : ∀ s ∈ ([.body body] : List Step), s.Fits := by
      simp [Step.Fits, Step.attribute?]
    obtain ⟨d', hsteps, -⟩ := steps_of_fits (d := dumpRequest .getLink) hfits rfl
    obtain ⟨-, -, hsize, -⟩ := (finish_of_steps rfl _).1 d' hsteps
    rw [happended] at hsize
    change d'.finish.octets.length = Header.size at hsize
    refine ⟨body, d', hbody, hsteps, hsize, ?_⟩
    rw [Message.payload?, if_pos (Nat.le_of_eq hsize.symm),
      List.drop_eq_nil_of_le (Nat.le_of_eq hsize)]

end Draft

end Netlink
