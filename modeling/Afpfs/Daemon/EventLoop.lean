import Mathlib.Algebra.Order.Group.Nat
import Mathlib.Data.Finset.Insert
import Mathlib.Data.Finset.Erase
import Mathlib.Logic.Function.Basic
import Afpfs.Daemon.Requests
import Afpfs.Lib.Transition

/-!
# The descriptors of the main loop

`lib/loop.c` keeps the descriptors that `pselect()` watches in `rds`, and their bound in `max_fd`.
Servers and the threads of the clients use `add_fd()` and `rm_fd()`;
`daemon_scan_extra_fds()` changes both variables itself, through pointers.

`Step` is the system of the main loop and of whatever calls `add_fd()`, `rm_fd()`,
`continue_client_connection()` and `close_client_connection()`, at any time and with any
descriptor.  The copies of `rds` that `pselect()` has filled are a part of its state, as they may
be older than `rds` when they are used.  `Watched` is what is expected: `pselect()` is given a
bound above every descriptor that is set, and a descriptor that was removed is not set.

* `watched_of_sound`: this holds in every run in which `accept()` does not fail, a client is only
  closed when the other descriptors are below the highest one that can be read, and no client is
  removed for an error while its descriptor is set.
* `round_keeps_iff`: a round of the main loop keeps it exactly then.
* `closed_client_deafens`: otherwise it may fail.  After the client on descriptor 5 is closed,
  `max_fd` is 5, and the client on descriptor 7 is not watched.
-/

set_option autoImplicit false

namespace Afpfs
namespace Daemon
namespace EventLoop

open Transition

/-! ## The code -/

abbrev Slot := Fin Requests.daemonNumClients

/-- The fields of `struct daemon_client` that the main loop uses. -/
structure DaemonClient where
  used : Bool
  fd : ℕ
  toremove : Bool
  /-- What `process_command()` uses. -/
  request : Requests.DaemonClient

/-- A slot of `client_pool` at the start, or after `memset()`. -/
def DaemonClient.zero : DaemonClient where
  used := false
  fd := 0
  toremove := false
  request := Requests.Connection.init.client

/-- The variables of the main loop and of the pool. -/
structure Loop where
  rds : Finset ℕ
  maxFd : ℕ
  clientPool : Slot → DaemonClient
  /-- History: the descriptors that were registered, and not removed since. -/
  registered : Finset ℕ

/-- Another state of one slot. -/
def Loop.setClient (l : Loop) (i : Slot) (c : DaemonClient) : Loop :=
  { l with clientPool := Function.update l.clientPool i c }

/-- `for (i=max_fd;i>=0;i--) if (FD_ISSET(i,set))`. -/
def highestIn (set : Finset ℕ) : ℕ → Option ℕ
  | 0 => if 0 ∈ set then some 0 else none
  | i + 1 => if i + 1 ∈ set then some (i + 1) else highestIn set i

/-- `add_fd()`. -/
def Loop.addFd (l : Loop) (fd : ℕ) : Loop :=
  { l with
    rds := insert fd l.rds
    maxFd := if l.maxFd < fd + 1 then fd + 1 else l.maxFd
    registered := insert fd l.registered }

/-- `rm_fd()`. -/
def Loop.rmFd (l : Loop) (fd : ℕ) : Loop :=
  let rds := l.rds.erase fd
  { l with
    rds := rds
    maxFd := (highestIn rds l.maxFd).getD l.maxFd + 1
    registered := l.registered.erase fd }

/-- The searches of `client_pool`. -/
def findSlot (p : Slot → Bool) : Option Slot := (List.finRange Requests.daemonNumClients).find? p

/-- `remove_client()`.  What `pthread_join()` returns is ignored. -/
def Loop.removeClient (l : Loop) (i : Slot) : Loop :=
  { l.setClient i { l.clientPool i with used := false } with
    registered :=
      if (l.clientPool i).used then l.registered.erase (l.clientPool i).fd else l.registered }

/-- `add_client()`, `none` for -1. -/
def Loop.addClient (l : Loop) (fd : ℕ) : Option Loop :=
  (findSlot fun i => !(l.clientPool i).used).map fun i =>
    l.setClient i { DaemonClient.zero with fd := fd, used := true }

/-- `continue_client_connection()`. -/
def Loop.continueClientConnection (l : Loop) (i : Slot) : Loop :=
  let l := if (l.clientPool i).toremove then l.removeClient i else l
  let l := l.addFd (l.clientPool i).fd
  let c := l.clientPool i
  l.setClient i { c with request := { c.request with incomingSize := 0 } }

/-- `close_client_connection()`. -/
def Loop.closeClientConnection (l : Loop) (i : Slot) : Loop :=
  let c := l.clientPool i
  let l := l.setClient i { c with request := { c.request with a := 0, incomingSize := 0 } }
  let l := l.addFd c.fd
  if c.fd = 0 then l else (l.rmFd c.fd).removeClient i

/-- What `process_client_fds()` comes to. -/
inductive ClientFds where
  | returned (ret : ℤ) (found : Option Slot) (l : Loop)
  /-- `process_command()` calls `exit(0)`. -/
  | exited

/-- The client that `process_client_fds()` finds. -/
def Loop.readable (l : Loop) (set : Finset ℕ) : Option Slot :=
  findSlot fun i => (l.clientPool i).used && decide ((l.clientPool i).fd ∈ set)

/-- `process_client_fds()`, with `process_command()`. -/
def Loop.processClientFds (l : Loop) (set : Finset ℕ) (read : ReadResult) : ClientFds :=
  match l.readable set with
  | none => .returned 0 none l
  | some i =>
    let c := l.clientPool i
    match Requests.processCommand c.request read with
    | .exited => .exited
    | .returned ret request =>
      .returned (Requests.processClientFds ret) (some i) (l.setClient i { c with request := request })
    | .started request =>
      .returned 0 (some i) ((l.setClient i { c with request := request }).rmFd c.fd)

/-- What `daemon_scan_extra_fds()` comes to. -/
inductive Scanned where
  | returned (ret : ℤ) (l : Loop)
  | exited
  /-- `FD_SET(-1,toset)`. -/
  | undefined

/-- `FD_SET(fd,toset)`. -/
def Loop.setFd (l : Loop) (fd : ℕ) : Loop :=
  { l with rds := insert fd l.rds }

/-- `FD_CLR(fd,toset)`, for a client. -/
def Loop.clearFd (l : Loop) (fd : ℕ) : Loop :=
  { l with rds := l.rds.erase fd, registered := l.registered.erase fd }

/-- The end of `daemon_scan_extra_fds()`, for a result of `process_client_fds()`. -/
def Loop.finishScan (commandFd : ℕ) (l : Loop) (set : Finset ℕ) (ret : ℤ) (found : Option Slot) :
    Scanned :=
  if ret = 2 then
    .returned (-1) (match found with
      | some i => l.setFd (l.clientPool i).fd
      | none => l)
  else if ret = 0 then
    .returned (-1) (match found with
      | some i => l.clearFd (l.clientPool i).fd
      | none => l)
  else if ret = -1 then
    let l := match found with
      | some i => (l.clearFd (l.clientPool i).fd).removeClient i
      | none => l
    .returned (-1) { l with maxFd := (highestIn set l.maxFd).getD l.maxFd }
  else if ret = 1 then .returned 1 (l.setFd commandFd)
  else .returned (-1) l

/-- A new connection, `none` if `accept()` fails. -/
def Loop.acceptClient (l : Loop) : Option ℕ → Scanned
  | some newFd =>
    let l := (l.addClient newFd).getD l
    .returned 0
      { l with
        rds := insert newFd l.rds
        maxFd := if l.maxFd < newFd + 1 then newFd + 1 else l.maxFd
        registered := insert newFd l.registered }
  | none => .undefined

/-- What `pselect()` has left in the copies of `rds`, and whether it has failed. -/
structure Polled where
  set : Finset ℕ
  exceptfds : Finset ℕ
  err : Bool

/-- `found_fd`, the highest descriptor with an error. -/
def Loop.foundFd (l : Loop) (exceptfds : Finset ℕ) : ℕ :=
  (List.range l.maxFd).foldl (fun found i => if i ∈ exceptfds then i else found) 0

/-- The client that is removed for an error. -/
def Loop.failing (l : Loop) (p : Polled) : Option Slot :=
  if p.err && decide (l.foundFd p.exceptfds ≠ 0) then
    findSlot fun i => decide ((l.clientPool i).fd ∈ p.exceptfds)
  else none

/-- The descriptors that can be read are looked at. -/
def Loop.Scans (l : Loop) (p : Polled) : Prop :=
  ¬(p.err = true ∧ l.foundFd p.exceptfds = 0) ∧ l.failing p = none

instance (l : Loop) (p : Polled) : Decidable (l.Scans p) :=
  inferInstanceAs (Decidable (_ ∧ _))

/-- `daemon_scan_extra_fds()`. -/
def Loop.daemonScanExtraFds (commandFd : ℕ) (l : Loop) (p : Polled) (accepted : Option ℕ)
    (read : ReadResult) : Scanned :=
  if p.err = true ∧ l.foundFd p.exceptfds = 0 then .returned (-1) l
  else match l.failing p with
    | some i => .returned 1 (l.removeClient i)
    | none =>
      if commandFd ∈ p.set then l.acceptClient accepted
      else if commandFd ∈ p.exceptfds then .returned 0 l
      else match l.processClientFds p.set read with
        | .exited => .exited
        | .returned ret found l => l.finishScan commandFd p.set ret found

/-! ## The system -/

structure State where
  loop : Loop
  /-- What the main loop has from `pselect()`. -/
  polled : Option Polled

/-- The start of `afp_main_loop()`. -/
def State.init (commandFd : ℕ) : State where
  loop :=
    { rds := ∅, maxFd := 0, clientPool := fun _ => DaemonClient.zero, registered := ∅ : Loop }.addFd
      commandFd
  polled := none

inductive Action where
  | addFd (fd : ℕ)
  | rmFd (fd : ℕ)
  | continueClient (i : Slot)
  | closeClient (i : Slot)
  /-- `pselect()` reports these descriptors. -/
  | select (set exceptfds : Finset ℕ)
  /-- `pselect()` fails, and leaves the copies as they are. -/
  | selectFails
  /-- `process_server_fds()` serves a server, and disconnects it or not. -/
  | serve (disconnected : Option ℕ)
  /-- `daemon_scan_extra_fds()`, with what `accept()` and `read()` return. -/
  | scan (accepted : Option ℕ) (read : ReadResult)

/-- The main loop, the servers and the threads of the clients.  When the behaviour of a round is
undefined any state may follow. -/
inductive Step (commandFd : ℕ) : State → Action → State → Prop
  | addFd {s : State} (fd : ℕ) :
      Step commandFd s (.addFd fd) { s with loop := s.loop.addFd fd }
  | rmFd {s : State} (fd : ℕ) :
      Step commandFd s (.rmFd fd) { s with loop := s.loop.rmFd fd }
  | continueClient {s : State} (i : Slot) :
      Step commandFd s (.continueClient i) { s with loop := s.loop.continueClientConnection i }
  | closeClient {s : State} (i : Slot) :
      Step commandFd s (.closeClient i) { s with loop := s.loop.closeClientConnection i }
  | select {s : State} {set exceptfds : Finset ℕ} :
      s.polled = none → set ⊆ s.loop.rds → exceptfds ⊆ s.loop.rds →
        Step commandFd s (.select set exceptfds) { s with polled := some ⟨set, exceptfds, false⟩ }
  | selectFails {s : State} :
      s.polled = none →
        Step commandFd s .selectFails { s with polled := some ⟨s.loop.rds, s.loop.rds, true⟩ }
  | serve {s : State} {p : Polled} (disconnected : Option ℕ) :
      s.polled = some p →
        Step commandFd s (.serve disconnected)
          { loop := (disconnected.map s.loop.rmFd).getD s.loop, polled := none }
  | scan {s : State} {p : Polled} {accepted : Option ℕ} {read : ReadResult} {ret : ℤ} {l : Loop} :
      s.polled = some p →
        s.loop.daemonScanExtraFds commandFd p accepted read = .returned ret l →
          Step commandFd s (.scan accepted read) { loop := l, polled := none }
  | undefined {s t : State} {p : Polled} {accepted : Option ℕ} {read : ReadResult} :
      s.polled = some p →
        s.loop.daemonScanExtraFds commandFd p accepted read = .undefined →
          Step commandFd s (.scan accepted read) t

/-! ## What is expected -/

/-- The descriptors that are set are those that were registered and not removed since, and
`pselect()` watches all of them. -/
structure Watched (l : Loop) : Prop where
  below : ∀ fd ∈ l.rds, fd < l.maxFd
  registered : l.rds = l.registered

/-- The condition on a round of the main loop. -/
structure RoundSound (commandFd : ℕ) (l : Loop) (p : Polled) (accepted : Option ℕ)
    (read : ReadResult) : Prop where
  /-- A client that is removed for an error is not watched. -/
  failing : ∀ i, l.failing p = some i → (l.clientPool i).used = true → (l.clientPool i).fd ∉ l.rds
  /-- `accept()` does not fail. -/
  accepted : l.Scans p → commandFd ∈ p.set → accepted ≠ none
  /-- When a client is closed, the other descriptors are below the highest one that was reported.
  When a client is read again, `command_fd` is still watched. -/
  processed : l.Scans p → commandFd ∉ p.set → commandFd ∉ p.exceptfds →
    ∀ i ret request, l.readable p.set = some i →
      Requests.processCommand (l.clientPool i).request read = .returned ret request →
        (ret < 0 → ∀ fd ∈ l.rds, fd ≠ (l.clientPool i).fd →
          fd < (highestIn p.set l.maxFd).getD l.maxFd) ∧
        (0 < ret → commandFd ∈ l.rds)

/-- The condition on a step. -/
def Sound (commandFd : ℕ) (s : State) : Action → Prop
  | .scan accepted read => ∀ p, s.polled = some p → RoundSound commandFd s.loop p accepted read
  | _ => True

/-! ## One operation -/

theorem highestIn_eq_some {set : Finset ℕ} {n m : ℕ} (h : highestIn set n = some m) :
    ∀ fd ∈ set, fd ≤ n → fd ≤ m := by
  intro fd hfd hle
  induction n with
  | zero => omega
  | succ n ih =>
    rw [highestIn] at h
    by_cases hn : n + 1 ∈ set
    · rw [if_pos hn] at h
      obtain rfl := Option.some.inj h
      exact hle
    · rw [if_neg hn] at h
      have hne : fd ≠ n + 1 := fun heq => hn (heq ▸ hfd)
      exact ih h (by omega)

/-- With a segment, `processCommand()` returns 0 or 2. -/
theorem processCommand_bytes {c request : Requests.DaemonClient} {segment : List UInt8} {ret : ℤ}
    (h : Requests.processCommand c (.bytes segment) = .returned ret request) :
    ret = 0 ∨ ret = 2 := by
  rw [Requests.processCommand.eq_def] at h
  by_cases h0 : c.incomingSize = 0
  · simp only [if_pos h0] at h
    split at h
    · cases h
    · split at h <;> cases h
      simp
  · simp only [if_neg h0] at h
    split at h <;> cases h
    simp

/-- `processCommand()` returns -1, 0 or 2. -/
theorem processCommand_returned {c request : Requests.DaemonClient} {read : ReadResult} {ret : ℤ}
    (h : Requests.processCommand c read = .returned ret request) :
    ret = -1 ∨ ret = 0 ∨ ret = 2 := by
  cases read with
  | bytes segment => exact .inr (processCommand_bytes h)
  | closed | failed =>
    rw [Requests.processCommand.eq_def] at h
    split at h <;> cases h <;> simp

section

variable {l : Loop} {i : Slot} {fd : ℕ}

@[simp] theorem setClient_rds (l : Loop) (i : Slot) (c : DaemonClient) :
    (l.setClient i c).rds = l.rds := rfl

@[simp] theorem setClient_maxFd (l : Loop) (i : Slot) (c : DaemonClient) :
    (l.setClient i c).maxFd = l.maxFd := rfl

@[simp] theorem setClient_registered (l : Loop) (i : Slot) (c : DaemonClient) :
    (l.setClient i c).registered = l.registered := rfl

theorem setClient_self (l : Loop) (i : Slot) (c : DaemonClient) :
    (l.setClient i c).clientPool i = c :=
  show Function.update l.clientPool i c i = c from Function.update_self i c l.clientPool

theorem setClient_of_ne (l : Loop) {i j : Slot} (c : DaemonClient) (h : j ≠ i) :
    (l.setClient i c).clientPool j = l.clientPool j :=
  show Function.update l.clientPool i c j = l.clientPool j from Function.update_of_ne h c l.clientPool

/-- The slots of the pool do not matter to `pselect()`. -/
theorem watched_setClient {c : DaemonClient} : Watched (l.setClient i c) ↔ Watched l :=
  ⟨fun h => ⟨h.below, h.registered⟩, fun h => ⟨h.below, h.registered⟩⟩

theorem Watched.addFd (h : Watched l) (fd : ℕ) : Watched (l.addFd fd) := by
  refine ⟨fun j hj => ?_, ?_⟩
  · show j < if l.maxFd < fd + 1 then fd + 1 else l.maxFd
    rcases Finset.mem_insert.mp (show j ∈ insert fd l.rds from hj) with rfl | hj
    · split <;> omega
    · have := h.below j hj
      split <;> omega
  · show insert fd l.rds = insert fd l.registered
    rw [h.registered]

/-- `rm_fd()` finds the highest descriptor that is left. -/
theorem Watched.rmFd (h : Watched l) (fd : ℕ) : Watched (l.rmFd fd) := by
  refine ⟨fun j hj => ?_, ?_⟩
  · have hj' : j ∈ l.rds.erase fd := hj
    have hlt : j < l.maxFd := h.below j (Finset.mem_of_mem_erase hj')
    show j < (highestIn (l.rds.erase fd) l.maxFd).getD l.maxFd + 1
    cases hhighest : highestIn (l.rds.erase fd) l.maxFd with
    | none =>
      rw [Option.getD_none]
      omega
    | some m =>
      have hle : j ≤ m := highestIn_eq_some hhighest j hj' (Nat.le_of_lt hlt)
      rw [Option.getD_some]
      omega
  · show l.rds.erase fd = l.registered.erase fd
    rw [h.registered]

theorem Watched.clearFd (h : Watched l) (fd : ℕ) : Watched (l.clearFd fd) := by
  refine ⟨fun j hj => h.below j (Finset.mem_of_mem_erase hj), ?_⟩
  show l.rds.erase fd = l.registered.erase fd
  rw [h.registered]

/-- A client that is removed without more stays set, unless it was not set before. -/
theorem watched_removeClient (h : Watched l) :
    Watched (l.removeClient i) ↔
      ((l.clientPool i).used = true → (l.clientPool i).fd ∉ l.rds) := by
  cases hused : (l.clientPool i).used with
  | false =>
    refine ⟨fun _ hfalse => by simp at hfalse, fun _ => ⟨h.below, ?_⟩⟩
    show l.rds = if (l.clientPool i).used = true then _ else l.registered
    rw [if_neg (by simp [hused]), h.registered]
  | true =>
    have hregistered : (l.removeClient i).registered = l.rds.erase (l.clientPool i).fd := by
      show (if (l.clientPool i).used = true then _ else l.registered) = _
      rw [if_pos hused, h.registered]
    constructor
    · intro hwatched _ hmem
      have heq : l.rds = l.rds.erase (l.clientPool i).fd := hwatched.registered.trans hregistered
      rw [heq] at hmem
      exact Finset.notMem_erase _ _ hmem
    · intro hnot
      refine ⟨h.below, ?_⟩
      show l.rds = (l.removeClient i).registered
      rw [hregistered, Finset.erase_eq_of_notMem (hnot rfl)]

/-- `add_client()` leaves `rds` and `max_fd` to its caller. -/
theorem watched_addClient (h : Watched l) (fd : ℕ) : Watched ((l.addClient fd).getD l) := by
  rw [Loop.addClient]
  cases findSlot fun i => !(l.clientPool i).used with
  | none => exact h
  | some i => exact watched_setClient.mpr h

theorem Watched.continueClientConnection (h : Watched l)
    (htoremove : (l.clientPool i).toremove = false) : Watched (l.continueClientConnection i) := by
  rw [Loop.continueClientConnection]
  simp only [htoremove, Bool.false_eq_true, if_false]
  exact watched_setClient.mpr (h.addFd _)

/-- `close_client_connection()` removes the client after its descriptor. -/
theorem Watched.closeClientConnection (h : Watched l) (i : Slot) :
    Watched (l.closeClientConnection i) := by
  have hadded := (watched_setClient (i := i) (c := { l.clientPool i with
    request := { (l.clientPool i).request with a := 0, incomingSize := 0 } })).mpr h
    |>.addFd (l.clientPool i).fd
  rw [Loop.closeClientConnection]
  by_cases h0 : (l.clientPool i).fd = 0
  · simp only [if_pos h0]
    exact hadded
  · simp only [if_neg h0]
    refine (watched_removeClient (hadded.rmFd _)).mpr fun _ => ?_
    have hfd : (((l.setClient i { l.clientPool i with
        request := { (l.clientPool i).request with a := 0, incomingSize := 0 } }).addFd
          (l.clientPool i).fd).rmFd (l.clientPool i).fd).clientPool i =
        { l.clientPool i with
          request := { (l.clientPool i).request with a := 0, incomingSize := 0 } } :=
      setClient_self l i _
    rw [hfd]
    exact Finset.notMem_erase _ _

/-- A new client, when `accept()` does not fail. -/
theorem Watched.acceptClient (h : Watched l) {newFd : ℕ} {ret : ℤ} {l' : Loop}
    (hscan : l.acceptClient (some newFd) = .returned ret l') : Watched l' := by
  cases hscan
  -- `FD_SET()` and the new bound are those of `add_fd()`
  exact (watched_addClient h newFd).addFd newFd

end

/-! ## One round -/

section

variable {commandFd : ℕ} {l : Loop} {p : Polled} {accepted : Option ℕ} {read : ReadResult}

/-- What a round comes to is as expected. -/
def Scanned.Keeps : Scanned → Prop
  | .returned _ l => Watched l
  | .exited => True
  | .undefined => False

/-! ### The parts of `daemon_scan_extra_fds()` -/

theorem failing_eq_none_of_foundFd (h : p.err = true ∧ l.foundFd p.exceptfds = 0) :
    l.failing p = none := by
  rw [Loop.failing, h.2]
  simp

theorem scan_of_failing {i : Slot} (h : l.failing p = some i) :
    l.daemonScanExtraFds commandFd p accepted read = .returned 1 (l.removeClient i) := by
  have herr : ¬(p.err = true ∧ l.foundFd p.exceptfds = 0) := fun herr => by
    simp [failing_eq_none_of_foundFd herr] at h
  rw [Loop.daemonScanExtraFds, if_neg herr, h]

theorem scan_of_scans (h : l.Scans p) :
    l.daemonScanExtraFds commandFd p accepted read =
      if commandFd ∈ p.set then l.acceptClient accepted
      else if commandFd ∈ p.exceptfds then .returned 0 l
      else match l.processClientFds p.set read with
        | .exited => .exited
        | .returned ret found l => l.finishScan commandFd p.set ret found := by
  rw [Loop.daemonScanExtraFds, if_neg h.1, h.2]

/-- An error for which nothing is done. -/
theorem scan_of_not_scans (hfailing : l.failing p = none) (h : ¬l.Scans p) :
    l.daemonScanExtraFds commandFd p accepted read = .returned (-1) l := by
  have herr : p.err = true ∧ l.foundFd p.exceptfds = 0 := by
    by_contra herr
    exact h ⟨herr, hfailing⟩
  rw [Loop.daemonScanExtraFds, if_pos herr]

/-- A round for the client of a slot, with the loop after `process_command()`. -/
theorem scan_of_readable {i : Slot} (h : l.Scans p) (hcommand : commandFd ∉ p.set)
    (hexcept : commandFd ∉ p.exceptfds) (hreadable : l.readable p.set = some i) :
    l.daemonScanExtraFds commandFd p accepted read =
      match Requests.processCommand (l.clientPool i).request read with
      | .exited => .exited
      | .returned ret request =>
        (l.setClient i { l.clientPool i with request := request }).finishScan commandFd p.set
          (Requests.processClientFds ret) (some i)
      | .started request =>
        ((l.setClient i { l.clientPool i with request := request }).rmFd
          (l.clientPool i).fd).finishScan commandFd p.set 0 (some i) := by
  rw [scan_of_scans h, if_neg hcommand, if_neg hexcept, Loop.processClientFds, hreadable]
  cases hprocess : Requests.processCommand (l.clientPool i).request read <;> simp only [hprocess]

theorem scan_of_not_readable (h : l.Scans p) (hcommand : commandFd ∉ p.set)
    (hexcept : commandFd ∉ p.exceptfds) (hreadable : l.readable p.set = none) :
    l.daemonScanExtraFds commandFd p accepted read = .returned (-1) l := by
  rw [scan_of_scans h, if_neg hcommand, if_neg hexcept, Loop.processClientFds, hreadable]
  rfl

theorem finishScan_returned (commandFd : ℕ) (l : Loop) (set : Finset ℕ) (ret : ℤ)
    (found : Option Slot) : ∃ r l', l.finishScan commandFd set ret found = .returned r l' := by
  rw [Loop.finishScan.eq_def]
  split
  · exact ⟨_, _, rfl⟩
  split
  · exact ⟨_, _, rfl⟩
  split
  · exact ⟨_, _, rfl⟩
  split <;> exact ⟨_, _, rfl⟩

/-! ### What they keep -/

/-- **The end of a round for a client.** -/
theorem keeps_finishScan {i : Slot} {set : Finset ℕ} {ret : ℤ} (h : Watched l)
    (hret : ret = -1 ∨ ret = 0 ∨ ret = 2) :
    (l.finishScan commandFd set (Requests.processClientFds ret) (some i)).Keeps ↔
      (ret < 0 → ∀ fd ∈ l.rds, fd ≠ (l.clientPool i).fd →
        fd < (highestIn set l.maxFd).getD l.maxFd) ∧
      (0 < ret → commandFd ∈ l.rds) := by
  rcases hret with rfl | rfl | rfl
  · -- the client is removed after its descriptor
    have hremoved : Watched ((l.clearFd (l.clientPool i).fd).removeClient i) :=
      (watched_removeClient (h.clearFd _)).mpr fun _ => Finset.notMem_erase _ _
    constructor
    · intro hwatched
      refine ⟨fun _ fd hfd hne => ?_, fun hfalse => by omega⟩
      exact Watched.below hwatched fd (Finset.mem_erase.mpr ⟨hne, hfd⟩)
    · intro hcond
      refine ⟨fun fd hfd => ?_, hremoved.registered⟩
      obtain ⟨hne, hmem⟩ := Finset.mem_erase.mp hfd
      exact hcond.1 (by decide) fd hmem hne
  · exact ⟨fun _ => ⟨fun hfalse => by omega, fun hfalse => by omega⟩, fun _ => h.clearFd _⟩
  · constructor
    · intro hwatched
      refine ⟨fun hfalse => by omega, fun _ => ?_⟩
      have hset : insert commandFd l.rds = l.registered := Watched.registered hwatched
      rw [h.registered, ← hset]
      exact Finset.mem_insert_self _ _
    · intro hcond
      have hmem : commandFd ∈ l.rds := hcond.2 (by decide)
      have hinsert : insert commandFd l.rds = l.rds := Finset.insert_eq_of_mem hmem
      refine ⟨fun fd hfd => h.below fd ?_, ?_⟩
      · rw [← hinsert]
        exact hfd
      · show insert commandFd l.rds = l.registered
        rw [hinsert, h.registered]

/-- **A new connection.**  `FD_SET()` and the bound are those of `add_fd()`. -/
theorem keeps_acceptClient (h : Watched l) : (l.acceptClient accepted).Keeps ↔ accepted ≠ none := by
  cases accepted with
  | none => exact ⟨fun hfalse => hfalse.elim, fun hne => absurd rfl hne⟩
  | some newFd => exact ⟨fun _ => by simp, fun _ => (watched_addClient h newFd).addFd newFd⟩

/-- **The rounds that keep it** are those that meet the condition. -/
theorem round_keeps_iff (h : Watched l) :
    (l.daemonScanExtraFds commandFd p accepted read).Keeps ↔
      RoundSound commandFd l p accepted read := by
  cases hfailing : l.failing p with
  | some i =>
    have hnot : ¬l.Scans p := fun hscans => by simp [hscans.2] at hfailing
    rw [scan_of_failing hfailing]
    refine (watched_removeClient h).trans ⟨fun hcond => ?_, fun hsound => hsound.failing i hfailing⟩
    refine ⟨fun j hj => ?_, fun hscans => absurd hscans hnot, fun hscans => absurd hscans hnot⟩
    obtain rfl : i = j := Option.some.inj (hfailing.symm.trans hj)
    exact hcond
  | none =>
    have hnone : ∀ i, l.failing p = some i → (l.clientPool i).used = true →
        (l.clientPool i).fd ∉ l.rds := fun i hi => by simp [hfailing] at hi
    by_cases hscans : l.Scans p
    swap
    · rw [scan_of_not_scans hfailing hscans]
      exact ⟨fun _ => ⟨hnone, fun h => absurd h hscans, fun h => absurd h hscans⟩, fun _ => h⟩
    by_cases hcommand : commandFd ∈ p.set
    · rw [scan_of_scans hscans, if_pos hcommand, keeps_acceptClient h]
      exact ⟨fun hne => ⟨hnone, fun _ _ => hne, fun _ hnot => absurd hcommand hnot⟩,
        fun hsound => hsound.accepted hscans hcommand⟩
    by_cases hexcept : commandFd ∈ p.exceptfds
    · rw [scan_of_scans hscans, if_neg hcommand, if_pos hexcept]
      exact ⟨fun _ => ⟨hnone, fun _ hmem => absurd hmem hcommand,
        fun _ _ hnot => absurd hexcept hnot⟩, fun _ => h⟩
    cases hreadable : l.readable p.set with
    | none =>
      rw [scan_of_not_readable hscans hcommand hexcept hreadable]
      refine ⟨fun _ => ⟨hnone, fun _ hmem => absurd hmem hcommand, fun _ _ _ i _ _ hi => ?_⟩,
        fun _ => h⟩
      simp [hreadable] at hi
    | some i =>
      have hset : ∀ request, Watched (l.setClient i { l.clientPool i with request := request }) :=
        fun _ => watched_setClient.mpr h
      rw [scan_of_readable hscans hcommand hexcept hreadable]
      cases hprocess : Requests.processCommand (l.clientPool i).request read with
      | exited =>
        refine ⟨fun _ => ⟨hnone, fun _ hmem => absurd hmem hcommand, fun _ _ _ j _ _ hj hj' => ?_⟩,
          fun _ => trivial⟩
        obtain rfl : i = j := Option.some.inj (hreadable.symm.trans hj)
        simp [hprocess] at hj'
      | started request =>
        refine ⟨fun _ => ⟨hnone, fun _ hmem => absurd hmem hcommand, fun _ _ _ j _ _ hj hj' => ?_⟩,
          fun _ => ((hset request).rmFd _).clearFd _⟩
        obtain rfl : i = j := Option.some.inj (hreadable.symm.trans hj)
        simp [hprocess] at hj'
      | returned ret request =>
        refine (keeps_finishScan (hset request) (processCommand_returned hprocess)).trans ?_
        rw [setClient_self]
        refine ⟨fun hcond => ⟨hnone, fun _ hmem => absurd hmem hcommand,
          fun _ _ _ j _ _ hj hj' => ?_⟩,
          fun hsound => hsound.processed hscans hcommand hexcept i ret request hreadable hprocess⟩
        obtain rfl : i = j := Option.some.inj (hreadable.symm.trans hj)
        obtain ⟨rfl, rfl⟩ := Requests.Processed.returned.inj (hprocess.symm.trans hj')
        exact hcond

/-! ### No client is to be removed later -/

/-- Nothing sets `toremove`. -/
def Unmarked (l : Loop) : Prop := ∀ i, (l.clientPool i).toremove = false

theorem Unmarked.setClient (h : Unmarked l) (i : Slot) {c : DaemonClient}
    (hc : c.toremove = false) : Unmarked (l.setClient i c) := by
  intro j
  by_cases hj : j = i
  · rw [hj, setClient_self]
    exact hc
  · rw [setClient_of_ne l c hj]
    exact h j

theorem Unmarked.removeClient (h : Unmarked l) (i : Slot) : Unmarked (l.removeClient i) :=
  h.setClient i (h i)

theorem Unmarked.addClient (h : Unmarked l) (fd : ℕ) : Unmarked ((l.addClient fd).getD l) := by
  rw [Loop.addClient]
  cases findSlot fun i => !(l.clientPool i).used with
  | none => exact h
  | some i => exact h.setClient i rfl

theorem Unmarked.continueClientConnection (h : Unmarked l) (i : Slot) :
    Unmarked (l.continueClientConnection i) := by
  rw [Loop.continueClientConnection]
  simp only [h i, Bool.false_eq_true, if_false]
  exact Unmarked.setClient (l := l.addFd _) h i (h i)

theorem Unmarked.closeClientConnection (h : Unmarked l) (i : Slot) :
    Unmarked (l.closeClientConnection i) := by
  have hset := h.setClient i (c := { l.clientPool i with
    request := { (l.clientPool i).request with a := 0, incomingSize := 0 } }) (h i)
  rw [Loop.closeClientConnection]
  by_cases h0 : (l.clientPool i).fd = 0
  · simp only [if_pos h0]
    exact hset
  · simp only [if_neg h0]
    exact Unmarked.removeClient hset i

theorem Unmarked.finishScan (h : Unmarked l) {set : Finset ℕ} {ret r : ℤ} {i : Slot} {l' : Loop}
    (hfinish : l.finishScan commandFd set ret (some i) = .returned r l') : Unmarked l' := by
  rw [Loop.finishScan] at hfinish
  split at hfinish
  · cases hfinish
    exact h
  split at hfinish
  · cases hfinish
    exact h
  split at hfinish
  · cases hfinish
    exact Unmarked.removeClient (l := l.clearFd _) h i
  split at hfinish <;> cases hfinish <;> exact h

/-- A round marks no client. -/
theorem Unmarked.daemonScanExtraFds (h : Unmarked l) {ret : ℤ} {l' : Loop}
    (hscan : l.daemonScanExtraFds commandFd p accepted read = .returned ret l') : Unmarked l' := by
  cases hfailing : l.failing p with
  | some i =>
    rw [scan_of_failing hfailing] at hscan
    cases hscan
    exact h.removeClient i
  | none =>
    by_cases hscans : l.Scans p
    swap
    · rw [scan_of_not_scans hfailing hscans] at hscan
      cases hscan
      exact h
    by_cases hcommand : commandFd ∈ p.set
    · rw [scan_of_scans hscans, if_pos hcommand] at hscan
      cases accepted with
      | none => cases hscan
      | some newFd =>
        cases hscan
        exact h.addClient newFd
    by_cases hexcept : commandFd ∈ p.exceptfds
    · rw [scan_of_scans hscans, if_neg hcommand, if_pos hexcept] at hscan
      cases hscan
      exact h
    cases hreadable : l.readable p.set with
    | none =>
      rw [scan_of_not_readable hscans hcommand hexcept hreadable] at hscan
      cases hscan
      exact h
    | some i =>
      have hset : ∀ request, Unmarked (l.setClient i { l.clientPool i with request := request }) :=
        fun _ => h.setClient i (h i)
      rw [scan_of_readable hscans hcommand hexcept hreadable] at hscan
      cases hprocess : Requests.processCommand (l.clientPool i).request read with
      | exited => simp only [hprocess, reduceCtorEq] at hscan
      | started request =>
        simp only [hprocess] at hscan
        exact Unmarked.finishScan (l := (l.setClient i _).rmFd _) (hset request) hscan
      | returned ret request =>
        simp only [hprocess] at hscan
        exact (hset request).finishScan hscan

end

/-! ## Runs -/

/-- What holds of the main loop after every step that meets the condition. -/
structure Good (s : State) : Prop where
  watched : Watched s.loop
  unmarked : Unmarked s.loop

theorem good_init (commandFd : ℕ) : Good (State.init commandFd) := by
  refine ⟨Watched.addFd ⟨fun fd hfd => ?_, rfl⟩ commandFd, fun _ => rfl⟩
  simp at hfd

/-- Every step that meets the condition keeps the invariant. -/
theorem good_step {commandFd : ℕ} {s t : State} {a : Action}
    (hstep : Guarded (Sound commandFd) (Step commandFd) s a t) (h : Good s) : Good t := by
  obtain ⟨hsound, hstep⟩ := hstep
  cases hstep with
  | addFd fd => exact ⟨h.watched.addFd fd, h.unmarked⟩
  | rmFd fd => exact ⟨h.watched.rmFd fd, h.unmarked⟩
  | continueClient i =>
    exact ⟨h.watched.continueClientConnection (h.unmarked i), h.unmarked.continueClientConnection i⟩
  | closeClient i => exact ⟨h.watched.closeClientConnection i, h.unmarked.closeClientConnection i⟩
  | select => exact ⟨h.watched, h.unmarked⟩
  | selectFails => exact ⟨h.watched, h.unmarked⟩
  | serve disconnected =>
    cases disconnected with
    | none => exact ⟨h.watched, h.unmarked⟩
    | some fd => exact ⟨h.watched.rmFd fd, h.unmarked⟩
  | scan hpolled hscan =>
    have hkeeps := (round_keeps_iff h.watched).mpr (hsound _ hpolled)
    rw [hscan] at hkeeps
    exact ⟨hkeeps, h.unmarked.daemonScanExtraFds hscan⟩
  | undefined hpolled hscan =>
    have hkeeps := (round_keeps_iff h.watched).mpr (hsound _ hpolled)
    rw [hscan] at hkeeps
    exact hkeeps.elim

/-- **The main loop watches every descriptor**, and none that was removed, in every state of a run
whose steps meet the condition. -/
theorem watched_of_sound {commandFd : ℕ} {as : List Action} {s : State}
    (hrun : Run (Guarded (Sound commandFd) (Step commandFd)) (State.init commandFd) as s) :
    Watched s.loop :=
  (hrun.invariant Good (fun _ _ _ => good_step) (good_init commandFd)).watched

/-- A connection is accepted. -/
theorem accept_run {commandFd : ℕ} {l : Loop} (h : commandFd ∈ l.rds) (fd : ℕ) (read : ReadResult) :
    Run (Guarded (Sound commandFd) (Step commandFd)) { loop := l, polled := none }
      [.select {commandFd} ∅, .scan (some fd) read]
      { loop := ((l.addClient fd).getD l).addFd fd, polled := none } := by
  have hset : commandFd ∈ ({commandFd} : Finset ℕ) := Finset.mem_singleton_self commandFd
  have hscans : l.Scans ⟨{commandFd}, ∅, false⟩ := ⟨by simp, by simp [Loop.failing]⟩
  have hscan : l.daemonScanExtraFds commandFd ⟨{commandFd}, ∅, false⟩ (some fd) read =
      .returned 0 (((l.addClient fd).getD l).addFd fd) := by
    rw [scan_of_scans hscans, if_pos hset]
    rfl
  refine .consGuarded (.select rfl (Finset.singleton_subset_iff.mpr h) (Finset.empty_subset _))
    trivial (.consGuarded (.scan rfl hscan) ?_ (.nil _))
  rintro p hp
  obtain rfl := Option.some.inj hp
  exact ⟨fun i hi => by simp [Loop.failing] at hi, fun _ _ => by simp,
    fun _ hnot => absurd hset hnot⟩

/-- A client has closed its connection. -/
theorem closed_step {commandFd : ℕ} (fd : ℕ) (l : Loop) (i : Slot)
    (hreadable : l.readable {fd} = some i) (hfd : (l.clientPool i).fd = fd) (hne : commandFd ≠ fd) :
    ∃ l', Step commandFd { loop := l, polled := some ⟨{fd}, ∅, false⟩ } (.scan none .closed)
        { loop := l', polled := none } ∧
      l'.rds = l.rds.erase fd ∧ l'.maxFd = (highestIn {fd} l.maxFd).getD l.maxFd := by
  have hset : commandFd ∉ ({fd} : Finset ℕ) := fun hmem => hne (Finset.mem_singleton.mp hmem)
  have hscans : l.Scans ⟨{fd}, ∅, false⟩ := ⟨by simp, by simp [Loop.failing]⟩
  obtain ⟨request, hprocess⟩ : ∃ request,
      Requests.processCommand (l.clientPool i).request .closed = .returned (-1) request := by
    rw [Requests.processCommand.eq_def]
    split <;> exact ⟨_, rfl⟩
  have hscan : l.daemonScanExtraFds commandFd ⟨{fd}, ∅, false⟩ none .closed = _ :=
    scan_of_readable hscans hset (Finset.notMem_empty _) hreadable
  simp only [hprocess] at hscan
  refine ⟨_, .scan rfl hscan, ?_, rfl⟩
  show l.rds.erase ((l.setClient i { l.clientPool i with request := request }).clientPool i).fd = _
  rw [setClient_self, hfd]

/-- A daemon with clients on the descriptors 5 and 7. -/
def twoClients : Loop :=
  let l := (State.init 3).loop
  let l := ((l.addClient 5).getD l).addFd 5
  ((l.addClient 7).getD l).addFd 7

theorem twoClients_run :
    Run (Guarded (Sound 3) (Step 3)) (State.init 3)
      ([.select {3} ∅, .scan (some 5) .failed] ++ [.select {3} ∅, .scan (some 7) .failed])
      { loop := twoClients, polled := none } :=
  (accept_run (by decide) 5 .failed).append (accept_run (by decide) 7 .failed)

theorem watched_of_closing_last : ∃ s,
    Run (Guarded (Sound 3) (Step 3)) (State.init 3)
      ([.select {3} ∅, .scan (some 5) .failed] ++ [.select {3} ∅, .scan (some 7) .failed] ++
        [.select {7} ∅, .scan none .closed]) s ∧ Watched s.loop := by
  obtain ⟨l', hstep, -, -⟩ := closed_step 7 twoClients ⟨1, by decide⟩ (by decide) (by decide)
    (show 3 ≠ 7 by decide)
  have hclose : Run (Guarded (Sound 3) (Step 3)) { loop := twoClients, polled := none }
      [.select {7} ∅, .scan none .closed] { loop := l', polled := none } := by
    refine .consGuarded (.select rfl (by decide) (by decide)) trivial
      (.consGuarded hstep ?_ (.nil _))
    rintro p hp
    obtain rfl := Option.some.inj hp
    refine ⟨fun i hi => by simp [Loop.failing] at hi, fun _ hmem => absurd hmem (by decide), ?_⟩
    intro _ _ _ i ret request hreadable hprocess
    obtain rfl := Option.some.inj (hreadable.symm.trans (show _ = some ⟨1, by decide⟩ by decide))
    have hret : Requests.Processed.returned ret request = .returned (-1) _ := hprocess.symm
    obtain ⟨rfl, -⟩ := Requests.Processed.returned.inj hret
    exact ⟨fun _ => by decide, fun hpos => absurd hpos (by decide)⟩
  exact ⟨_, twoClients_run.append hclose, watched_of_sound (twoClients_run.append hclose)⟩

/-- **The lowest client is closed**, and the other one is not watched any more. -/
theorem closed_client_deafens :
    ¬∀ (as : List Action) (s : State), Run (Step 3) (State.init 3) as s → Watched s.loop := by
  intro h
  obtain ⟨l', hstep, hrds, hmax⟩ := closed_step 5 twoClients ⟨0, by decide⟩ (by decide)
    (by decide) (show 3 ≠ 5 by decide)
  have hclose : Run (Step 3) { loop := twoClients, polled := none }
      [.select {5} ∅, .scan none .closed] { loop := l', polled := none } :=
    .cons (.select rfl (by decide) (by decide)) (.cons hstep (.nil _))
  have hlt : 7 < l'.maxFd := by
    refine (h _ _ (twoClients_run.ofGuarded.append hclose)).below 7 ?_
    rw [hrds]
    decide
  rw [hmax] at hlt
  exact absurd hlt (by decide)

end EventLoop
end Daemon
end Afpfs
