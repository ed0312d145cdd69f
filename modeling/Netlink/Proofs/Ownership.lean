import Mathlib.Data.List.InsertIdx
import Netlink.Proofs.Descriptors
import Netlink.Proofs.LastError

/-!
# Sockets Own Their Descriptors

A program binds sockets, uses those it holds, in any order, and drops them. The kernel answers by a
script, in which every call may fail; all that is asked of it is that it does not give out a
descriptor that is still open. Then each descriptor that it gives out is closed once, where the
binding fails or the socket is dropped, and no call is made on it after that. A socket is held
exactly as long as its descriptor is open.

What an action does to the calls and to the sockets is said once, by `Holder.Does`, and the
invariant is shown for each of its cases.

## Main results

* `Holder.does_step`: every action does what is said.
* `Holder.tended_step`, `Holder.tended_run`: and keeps the descriptors tended, and so do runs.
* `Holder.run_tends`: **no run leaks a descriptor or uses a closed one, and a failed binding
  reports its own number.**
-/

namespace Netlink

/-- What a program does with sockets. A socket is named by its place among those held. -/
inductive Action where
  | bind (protocol : Protocol)
  | portId (place : Nat)
  | setReadTimeout (place : Nat) (limit : Option Duration)
  | send (place : Nat) (datagram : Bytes)
  | receive (place : Nat) (buffer : Bytes)
  | drop (place : Nat)

/-- The place of the socket that an action is on. -/
def Action.place? : Action → Option Nat
  | bind _ => none
  | portId i | setReadTimeout i _ | send i _ | receive i _ | drop i => some i

/-- A program that holds sockets of a kernel. -/
structure Holder where
  kernel : Kernel
  sockets : List Socket := []

namespace Holder

/-- The calls made so far. -/
def calls (h : Holder) : List Call := h.kernel.log

/-- The descriptors of the sockets held. -/
def held (h : Holder) : List Nat := h.sockets.map Socket.descriptor

/-- Uses the socket at a place, if there is one. -/
def use (h : Holder) (i : Nat) (operate : Socket → Kernel → Kernel) : Holder :=
  match h.sockets[i]? with
  | none => h
  | some s => { h with kernel := operate s h.kernel }

/-- Does one thing. A socket that is dropped is closed, and no longer held. -/
def step (h : Holder) : Action → Holder
  | .bind protocol =>
    match Socket.bind protocol h.kernel with
    | (.error _, kernel) => { h with kernel }
    | (.ok s, kernel) => ⟨kernel, h.sockets ++ [s]⟩
  | .portId i => h.use i fun s k => (s.portId k).2
  | .setReadTimeout i limit => h.use i fun s k => (s.setReadTimeout limit k).2
  | .send i datagram => h.use i fun s k => (s.send k datagram).2
  | .receive i buffer => h.use i fun s k => (s.receive k buffer).2.2
  | .drop i => { h.use i Socket.close with sockets := h.sockets.eraseIdx i }

/-- Does one thing after another, beginning with no socket and no call made. -/
def run (k : Kernel) (actions : List Action) : Holder :=
  actions.foldl step ⟨{ k with log := [] }, []⟩

@[simp] theorem run_concat (k : Kernel) (actions : List Action) (a : Action) :
    run k (actions ++ [a]) = (run k actions).step a := by
  simp [run]

/-! ### What an action does -/

/-- The kernel's answer when a socket is opened for a protocol. -/
def opening (h : Holder) (protocol : Protocol) : Except Errno Nat × Kernel :=
  h.kernel.socket Address.family.toNat Socket.type protocol.number

/-- The call that opens a socket for a protocol. -/
def opens (protocol : Protocol) (opened : Option Nat) : Call :=
  .socket Address.family.toNat Socket.type protocol.number opened

/-- The call that binds a descriptor, to an address of the kernel's choice. -/
def binds (d : Nat) : Call := .bind d (Address.encode {})

/-- The kernel's answer when a descriptor just opened is bound. -/
def binding (h : Holder) (protocol : Protocol) (d : Nat) : Except Errno Unit :=
  ((h.opening protocol).2.bind d (Address.encode {})).1

/-- What an action does: the calls that it makes, and the sockets held after it. -/
inductive Does (h : Holder) : Action → List Call → List Socket → Prop
  /-- Nothing was opened, and no other call is made. -/
  | refused {protocol : Protocol} {errno : Errno} :
    (h.opening protocol).1 = .error errno →
      Does h (.bind protocol) [opens protocol none] h.sockets
  /-- What could not be bound is closed. -/
  | failed {protocol : Protocol} {d : Nat} {errno : Errno} :
    (h.opening protocol).1 = .ok d → h.binding protocol d = .error errno →
      Does h (.bind protocol) [opens protocol (some d), binds d, .close d] h.sockets
  /-- What was bound is held. -/
  | bound {protocol : Protocol} {d : Nat} :
    (h.opening protocol).1 = .ok d → h.binding protocol d = .ok () →
      Does h (.bind protocol) [opens protocol (some d), binds d] (h.sockets ++ [⟨d, protocol⟩])
  /-- A socket held is used, by one call that does not close it. -/
  | used {a : Action} {i : Nat} {s : Socket} {c : Call} :
    a.place? = some i → h.sockets[i]? = some s → (∀ j, a ≠ .drop j) →
      c.descriptor? = some s.descriptor → c.closed? = none → Does h a [c] h.sockets
  /-- A socket that is dropped is closed. -/
  | dropped {i : Nat} {s : Socket} :
    h.sockets[i]? = some s → Does h (.drop i) [.close s.descriptor] (h.sockets.eraseIdx i)
  /-- There is no such socket. -/
  | absent {a : Action} {i : Nat} :
    a.place? = some i → h.sockets[i]? = none → Does h a [] h.sockets

variable {h : Holder} {a : Action}

/-- An operation by one call that does not close the socket. -/
theorem does_use {i : Nat} {operate : Socket → Kernel → Kernel} {call : Socket → Call}
    (hplace : a.place? = some i) (hdrop : ∀ j, a ≠ .drop j)
    (hlog : ∀ s k, (operate s k).log = k.log ++ [call s])
    (hcall : ∀ s, (call s).descriptor? = some s.descriptor ∧ (call s).closed? = none) :
    ∃ made, (h.use i operate).calls = h.calls ++ made ∧
      Does h a made (h.use i operate).sockets := by
  rw [use]
  cases hs : h.sockets[i]? with
  | none => exact ⟨[], (List.append_nil _).symm, .absent hplace hs⟩
  | some s => exact ⟨[call s], hlog s _, .used hplace hs hdrop (hcall s).1 (hcall s).2⟩

/-- Every action makes the calls and leaves the sockets that it is said to. -/
theorem does_step (h : Holder) (a : Action) :
    ∃ made, (h.step a).calls = h.calls ++ made ∧ Does h a made (h.step a).sockets := by
  cases a with
  | bind protocol =>
    rw [step]
    obtain ⟨errno, ho, hout, hlog⟩ | ⟨d, errno, ho, hb, hout, hlog⟩ | ⟨d, ho, hb, hout, hlog⟩ :=
      Socket.bind_cases protocol h.kernel
    all_goals
      rcases hbind : Socket.bind protocol h.kernel with ⟨outcome, k⟩
      rw [hbind] at hout hlog
      obtain rfl := hout
      refine ⟨_, hlog, ?_⟩
    · exact .refused ho
    · exact .failed ho hb
    · exact .bound ho hb
  | portId i => exact does_use rfl nofun Socket.log_portId fun _ => ⟨rfl, rfl⟩
  | setReadTimeout i limit =>
    exact does_use rfl nofun (fun s k => s.log_setReadTimeout limit k) fun _ => ⟨rfl, rfl⟩
  | send i datagram =>
    exact does_use rfl nofun (fun s k => s.log_send k datagram) fun _ => ⟨rfl, rfl⟩
  | receive i buffer =>
    exact does_use rfl nofun (fun s k => s.log_receive k buffer) fun _ => ⟨rfl, rfl⟩
  | drop i =>
    rw [step, use]
    cases hs : h.sockets[i]? with
    | none =>
      rw [List.eraseIdx_of_length_le (List.getElem?_eq_none_iff.mp hs)]
      exact ⟨[], (List.append_nil _).symm, .absent rfl hs⟩
    | some s => exact ⟨_, s.log_close h.kernel, .dropped hs⟩

/-! ### What a run keeps to -/

/-- The descriptor of a socket that is held is held. -/
theorem mem_held {i : Nat} {s : Socket} (hs : h.sockets[i]? = some s) : s.descriptor ∈ h.held :=
  List.mem_map_of_mem (List.mem_of_getElem? hs)

/-- A descriptor that was opened and bound is open. -/
theorem tended_bound {calls : List Call} {held : List Nat} {protocol : Protocol} {d : Nat}
    (htended : Call.Tended calls held)
    (fresh : Call.OpensFresh (calls ++ [opens protocol (some d), binds d])) :
    Call.Tended (calls ++ [opens protocol (some d), binds d]) (held ++ [d]) := by
  rw [List.append_cons] at fresh ⊢
  have hopen : Call.Tended (calls ++ [opens protocol (some d)]) (held ++ [d]) :=
    htended.concat fresh.of_append nofun
  refine hopen.concat fresh fun e he => ?_
  obtain rfl : d = e := Option.some.inj he
  simp

/-- What an action does keeps the descriptors tended. -/
theorem Does.tended {made : List Call} {sockets : List Socket} (hdoes : Does h a made sockets)
    (htended : Call.Tended h.calls h.held) (fresh : Call.OpensFresh (h.calls ++ made)) :
    Call.Tended (h.calls ++ made) (sockets.map Socket.descriptor) := by
  cases hdoes with
  | refused => exact htended.concat fresh nofun
  | @failed protocol d =>
    have hsplit : h.calls ++ [opens protocol (some d), binds d, .close d]
        = h.calls ++ [opens protocol (some d), binds d] ++ [.close d] := by simp
    rw [hsplit] at fresh ⊢
    have hbound := tended_bound htended fresh.of_append
    have hnew : d ∉ h.held := by
      have hnodup : (h.held ++ [d]).Nodup := hbound.held_eq ▸ fresh.of_append.nodup
      simpa using (List.nodup_append_comm.mp hnodup).notMem
    have hclosed := hbound.concat fresh fun e he => by
      obtain rfl : d = e := Option.some.inj he
      simp
    rwa [Call.update, List.erase_append_right _ hnew, List.erase_cons_head, List.append_nil]
      at hclosed
  | bound =>
    rw [List.map_append]
    exact tended_bound htended fresh
  | used _ hs _ hd hc =>
    have hused := htended.concat fresh fun e he => by
      obtain rfl := Option.some.inj (hd.symm.trans he)
      exact mem_held hs
    rwa [Call.update_of_descriptor? hd hc] at hused
  | @dropped i s hs =>
    have hclosed := htended.concat fresh fun e he => Option.some.inj he ▸ mem_held hs
    have hnodup : h.held.Nodup := htended.held_eq ▸ fresh.of_append.nodup
    obtain ⟨hi, rfl⟩ := List.getElem?_eq_some_iff.mp hs
    have hleft : h.held.erase h.sockets[i].descriptor
        = (h.sockets.eraseIdx i).map Socket.descriptor := by
      have hlt : i < h.held.length := by rwa [held, List.length_map]
      have hat : h.sockets[i].descriptor = h.held[i] := by simp [held]
      rw [hat, hnodup.erase_getElem]
      exact List.eraseIdx_map _ _ _
    rwa [Call.update, hleft] at hclosed
  | absent =>
    rw [List.append_nil]
    exact htended

/-- One action keeps the descriptors tended, whatever it is. -/
theorem tended_step (htended : Call.Tended h.calls h.held)
    (fresh : Call.OpensFresh (h.step a).calls) :
    Call.Tended (h.step a).calls (h.step a).held := by
  obtain ⟨made, hcalls, hdoes⟩ := does_step h a
  rw [hcalls] at fresh ⊢
  exact hdoes.tended htended fresh

/-- A binding that fails reports the number with which it failed. -/
theorem bind_of_binding_error {protocol : Protocol} {d : Nat} {errno : Errno}
    (ho : (h.opening protocol).1 = .ok d) (hb : h.binding protocol d = .error errno) :
    (Socket.bind protocol h.kernel).1 = .error (.system errno) := by
  obtain ⟨_, ho', -⟩ | ⟨d', errno', ho', hb', hout, -⟩ | ⟨d', ho', hb', -⟩ :=
    Socket.bind_cases protocol h.kernel
  · cases ho.symm.trans ho'
  · cases ho.symm.trans ho'
    cases hb.symm.trans hb'
    exact hout
  · cases ho.symm.trans ho'
    cases hb.symm.trans hb'

/-- A run keeps the descriptors tended. -/
theorem tended_run (k : Kernel) (actions : List Action)
    (fresh : Call.OpensFresh (run k actions).calls) :
    Call.Tended (run k actions).calls (run k actions).held := by
  induction actions using List.reverseRecOn with
  | nil => exact ⟨rfl, nofun, nofun⟩
  | append_singleton actions a ih =>
    rw [run_concat] at fresh ⊢
    obtain ⟨made, hcalls, -⟩ := does_step (run k actions) a
    exact tended_step (ih (hcalls ▸ fresh).of_append) fresh

/-- **No run leaks a descriptor or uses a closed one.** If the kernel gives out no descriptor that
is still open, every call is made on one that is, every descriptor given out is closed once or
still held by a socket, and it is closed where an action is said to close it: where it could not be
bound, and where its socket is dropped. A binding that fails reports its own number, whatever the
closing that follows leaves as the last error. -/
theorem run_tends (k : Kernel) (actions : List Action)
    (fresh : Call.OpensFresh (run k actions).calls) :
    let h := run k actions
    Call.Tended h.calls h.held ∧
    (∀ a, ∃ made, (h.step a).calls = h.calls ++ made ∧ Does h a made (h.step a).sockets) ∧
    ∀ protocol d errno, (h.opening protocol).1 = .ok d → h.binding protocol d = .error errno →
      (Socket.bind protocol h.kernel).1 = .error (.system errno) ∧
      ∀ leaves number,
        (Caller.bind leaves protocol ⟨h.kernel, number⟩).1 = .error (.system errno) := by
  refine ⟨tended_run k actions fresh, fun a => does_step _ a, fun protocol d errno ho hb => ?_⟩
  have hout := bind_of_binding_error ho hb
  refine ⟨hout, fun leaves number => ?_⟩
  exact (congrArg Prod.fst (Caller.bind_eq leaves protocol ⟨_, number⟩)).trans hout

/-- A kernel that gives out 3 for as long as it may. The first binding fails; the third socket is
refused. -/
def reusing : Kernel :=
  { sockets := [.ok 3, .ok 3, .ok 4, .error ⟨24⟩, .ok 3], binds := [.error ⟨1⟩], spare := 5 }

/-- A failed binding, two sockets that are used, a socket refused, and a descriptor that is given
out again once its socket was dropped. -/
def reuse : List Action :=
  [.bind .route, .bind .route, .bind .generic, .send 0 [1], .bind .audit, .receive 1 [0, 0],
    .drop 0, .bind .netfilter, .portId 1, .drop 0]

/-- The number 3 is given out three times and closed twice. At the end it is held. -/
theorem run_tends_reuse :
    Call.OpensFresh (run reusing reuse).calls ∧ (run reusing reuse).held = [3] ∧
    (run reusing reuse).calls.count (.close 3) = 2 ∧
    Call.Tended (run reusing reuse).calls [3] :=
  ⟨by decide +kernel, by decide +kernel, by decide +kernel,
    (run_tends reusing reuse (by decide +kernel)).1⟩

end Holder

end Netlink
