import Mathlib.Data.List.Induction
import Mathlib.Data.List.Nodup
import Netlink.Socket.Kernel

/-!
# What Becomes of a Descriptor

A descriptor is open from the call that gives it out to the call that closes it. Its life is what
follows the opening, up to the next call that gives the same number out again, which is then a new
descriptor. A log of calls tends its descriptors if no call is made on a descriptor that is not
open, and every opening is followed, within its life, by one closing, unless the descriptor is
still open at the end.

Logs grow at the end, and so do the proofs: a log that tends its descriptors goes on doing so with
any call on a descriptor that is open, and with any opening that gives out one that is not.

## Main results

* `Call.Tended.concat`: what one more call has to keep to
-/

namespace Netlink

namespace Call

/-- The descriptor that a call gives out. -/
def opened? : Call → Option Nat
  | socket _ _ _ opened => opened
  | _ => none

/-- The descriptor that a call is made on. -/
def descriptor? : Call → Option Nat
  | socket .. => none
  | bind d _ | getsockname d _ | setsockopt d _ _ _ | sendmsg d _ _ _ | recvmsg d _ _
  | close d => some d

/-- The descriptor that a call closes. -/
def closed? : Call → Option Nat
  | close d => some d
  | _ => none

/-- The descriptors open after a call, by those open before it. -/
def update (before : List Nat) : Call → List Nat
  | socket _ _ _ (some d) => before ++ [d]
  | close d => before.erase d
  | _ => before

/-- The descriptors open after some calls, in the order in which they were opened. -/
def openAfter (calls : List Call) : List Nat := calls.foldl update []

/-- No call gives out a descriptor that is still open. -/
def OpensFresh (calls : List Call) : Prop :=
  ∀ i (_ : i < calls.length), ∀ d ∈ calls[i].opened?, d ∉ openAfter (calls.take i)

instance : DecidablePred OpensFresh := fun calls =>
  inferInstanceAs (Decidable (∀ i (_ : i < calls.length), _))

/-- The part of the calls after an opening that is about the descriptor opened: the calls up to
the next one that gives out the same number. -/
def life (d : Nat) (later : List Call) : List Call := later.takeWhile (·.opened? ≠ some d)

/-- How often a descriptor has to be closed in the calls after its opening, if the descriptors
held at the end are these: once, unless it is held still. -/
def closingsDue (d : Nat) (later : List Call) (held : List Nat) : Nat :=
  if life d later = later ∧ d ∈ held then 0 else 1

/-- A log tends its descriptors, and these are held at its end. -/
structure Tended (calls : List Call) (held : List Nat) : Prop where
  /-- Those held are the ones that are open. -/
  held_eq : openAfter calls = held
  /-- Every call is made on a descriptor that is open. -/
  used : ∀ i (_ : i < calls.length), ∀ d ∈ calls[i].descriptor?, d ∈ openAfter (calls.take i)
  /-- Every descriptor given out is closed once, or held. -/
  settled : ∀ i (_ : i < calls.length), ∀ d ∈ calls[i].opened?,
    (life d (calls.drop (i + 1))).count (.close d) = closingsDue d (calls.drop (i + 1)) held

/-! ### One call more -/

variable {calls later : List Call} {held : List Nat} {c : Call} {d : Nat}

/-- One more call updates what is open. -/
@[simp] theorem openAfter_concat : openAfter (calls ++ [c]) = update (openAfter calls) c := by
  simp [openAfter]

/-- What a call gives out is open after it. -/
theorem mem_update_of_opened? (h : c.opened? = some d) : d ∈ update held c := by
  cases c <;> cases h
  simp [update]

/-- A call that neither opens nor closes a descriptor leaves it as it is. -/
theorem mem_update_iff (ho : c.opened? ≠ some d) (hc : c ≠ .close d) :
    d ∈ update held c ↔ d ∈ held := by
  cases c with
  | socket _ _ _ opened =>
    cases opened with
    | none => rfl
    | some e =>
      have : d ≠ e := fun h => ho (by rw [h]; rfl)
      simp [update, this]
  | close e => exact List.mem_erase_of_ne fun h => hc (by rw [h])
  | _ => rfl

/-- A call on a descriptor that does not close it leaves all as they are. -/
theorem update_of_descriptor? (hd : c.descriptor? = some d) (hc : c.closed? = none) :
    update held c = held := by
  cases c with
  | socket _ _ _ _ => cases hd
  | close _ => cases hc
  | _ => rfl

/-- If no call gives out what is open, nothing is open twice. -/
theorem nodup_update (hheld : held.Nodup) (fresh : ∀ d ∈ c.opened?, d ∉ held) :
    (update held c).Nodup := by
  cases c with
  | socket _ _ _ opened =>
    cases opened with
    | none => exact hheld
    | some d =>
      rw [update, ← List.concat_eq_append]
      exact hheld.concat (fresh d rfl)
  | close d => exact hheld.erase d
  | _ => exact hheld

/-- A life goes on with one call more if it has not ended before. -/
theorem life_concat :
    life d (later ++ [c]) = if life d later = later then later ++ life d [c] else life d later := by
  have hall : (life d later).length = later.length ↔ life d later = later :=
    ⟨(List.takeWhile_prefix _).eq_of_length, congrArg List.length⟩
  rw [life, List.takeWhile_append]
  exact if_congr hall rfl rfl

/-- A life that has ended is not changed by more calls. -/
theorem life_concat_of_reopened (h : life d later ≠ later) :
    life d (later ++ [c]) = life d later := by
  rw [life_concat, if_neg h]

/-- A call that gives the number out again adds nothing to a life. -/
theorem life_concat_of_opened? (h : c.opened? = some d) : life d (later ++ [c]) = life d later := by
  have hnil : life d [c] = [] := List.takeWhile_cons_of_neg (by simpa using h)
  rw [life_concat, hnil, List.append_nil]
  split
  · exact Eq.symm ‹_›
  · rfl

/-- Any other call makes a life longer that has not ended. -/
theorem life_concat_of_ne (hl : life d later = later) (h : c.opened? ≠ some d) :
    life d (later ++ [c]) = later ++ [c] := by
  have hcons : life d [c] = [c] := List.takeWhile_cons_of_pos (by simpa using h)
  rw [life_concat, if_pos hl, hcons]

/-- A life ends for good where the descriptor is given out again. -/
theorem life_ne_concat (h : life d (later ++ [c]) = life d later) :
    life d (later ++ [c]) ≠ later ++ [c] := by
  intro hall
  have hle := (List.takeWhile_prefix (l := later) (·.opened? ≠ some d)).length_le
  have hlen := congrArg List.length (h.symm.trans hall)
  simp only [life, List.length_append, List.length_cons, List.length_nil] at hle hlen
  omega

/-- After a life that has ended one closing is due. -/
theorem closingsDue_of_reopened (h : life d later ≠ later) : closingsDue d later held = 1 :=
  if_neg fun hdue => h hdue.1

/-- In one that has not, none is due as long as the descriptor is held. -/
theorem closingsDue_of_life_eq (h : life d later = later) :
    closingsDue d later held = if d ∈ held then 0 else 1 :=
  if_congr (and_iff_right h) rfl rfl

/-- One call more keeps to what is due. A descriptor that is given out again was closed before; one
that is closed was open, hence not closed before. -/
theorem count_life_concat (hheld : held.Nodup) (fresh : ∀ d ∈ c.opened?, d ∉ held)
    (used : ∀ d ∈ c.descriptor?, d ∈ held)
    (h : (life d later).count (.close d) = closingsDue d later held) :
    (life d (later ++ [c])).count (.close d) = closingsDue d (later ++ [c]) (update held c) := by
  by_cases hl : life d later = later
  · rw [closingsDue_of_life_eq hl] at h
    by_cases hopen : c.opened? = some d
    · have heq : life d (later ++ [c]) = life d later := life_concat_of_opened? hopen
      rw [closingsDue_of_reopened (life_ne_concat heq), heq, h, if_neg (fresh d hopen)]
    · have heq := life_concat_of_ne hl hopen
      rw [closingsDue_of_life_eq heq, heq, List.count_append]
      rw [hl] at h
      by_cases hclose : c = .close d
      · subst hclose
        have hbefore : d ∈ held := used d rfl
        have hafter : d ∉ update held (.close d) := hheld.not_mem_erase
        rw [h, if_pos hbefore, if_neg hafter, List.count_singleton_self]
      · have hcount : [c].count (.close d) = 0 :=
          List.count_eq_zero.2 fun hmem => hclose (List.mem_singleton.1 hmem).symm
        rw [h, hcount, Nat.add_zero]
        exact if_congr (mem_update_iff hopen hclose).symm rfl rfl
  · have heq : life d (later ++ [c]) = life d later := life_concat_of_reopened hl
    rw [closingsDue_of_reopened (life_ne_concat heq), heq, h, closingsDue_of_reopened hl]

/-- What is so of a log was so when it was shorter. -/
theorem OpensFresh.of_append {more : List Call} (h : OpensFresh (calls ++ more)) :
    OpensFresh calls := by
  intro i hi d hd
  have := h i (by simp; omega) d (by rwa [List.getElem_append_left hi])
  rwa [List.take_append_of_le_length (Nat.le_of_lt hi)] at this

/-- The last call of such a log gives out nothing that was open before it. -/
theorem OpensFresh.last (h : OpensFresh (calls ++ [c])) : ∀ d ∈ c.opened?, d ∉ openAfter calls := by
  intro d hd
  have := h calls.length (by simp) d (by simpa using hd)
  rwa [List.take_left] at this

/-- In such a log nothing is open twice. -/
theorem OpensFresh.nodup (h : OpensFresh calls) : (openAfter calls).Nodup := by
  induction calls using List.reverseRecOn with
  | nil => exact List.nodup_nil
  | append_singleton calls c ih =>
    rw [openAfter_concat]
    exact nodup_update (ih h.of_append) h.last

/-- **A log goes on tending its descriptors** with a call on one that is open, or an opening that
gives out a new one. -/
theorem Tended.concat (h : Tended calls held) (fresh : OpensFresh (calls ++ [c]))
    (used : ∀ d ∈ c.descriptor?, d ∈ held) : Tended (calls ++ [c]) (update held c) := by
  obtain ⟨rfl, hused, hsettled⟩ := h
  have hlast : ∀ {i}, i < (calls ++ [c]).length → i < calls.length ∨ i = calls.length := by
    intro i hi
    simp only [List.length_append, List.length_cons, List.length_nil] at hi
    omega
  refine ⟨openAfter_concat, ?_, ?_⟩
  · intro i hi d hd
    obtain hlt | rfl := hlast hi
    · rw [List.getElem_append_left hlt] at hd
      rw [List.take_append_of_le_length (Nat.le_of_lt hlt)]
      exact hused i hlt d hd
    · rw [List.take_left]
      exact used d (by simpa using hd)
  · intro i hi d hd
    obtain hlt | rfl := hlast hi
    · rw [List.getElem_append_left hlt] at hd
      rw [List.drop_append_of_le_length hlt]
      exact count_life_concat fresh.of_append.nodup fresh.last used (hsettled i hlt d hd)
    · have hopen : c.opened? = some d := by simpa using hd
      have hnil : (calls ++ [c]).drop (calls.length + 1) = [] := List.drop_eq_nil_of_le (by simp)
      rw [hnil, closingsDue_of_life_eq rfl, if_pos (mem_update_of_opened? hopen)]
      rfl

end Call

end Netlink
