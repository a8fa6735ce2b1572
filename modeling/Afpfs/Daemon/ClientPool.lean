import Mathlib.Algebra.Order.Group.Nat
import Mathlib.Data.Finset.Insert
import Mathlib.Data.Finset.Erase
import Mathlib.Data.List.Nodup
import Mathlib.Logic.Function.Basic
import Afpfs.Daemon.EventLoop

/-!
# The pool of clients

The slots of `client_pool` are given to connections by `add_client()` and released by
`remove_client()`.  The main loop and the threads of the requests both do this, and a thread goes
on after it has released its slot.

`Step` is the system of the main loop, the threads and the servers.  The parts of
`continue_client_connection()` and `close_client_connection()` between two accesses to `rds`, to
the descriptor and to the pool are steps of their own, and so is what the main loop does after
`process_command()` has returned 0.  The state remembers which connection a slot was given to,
what a descriptor is open for, and every access of a connection to its slot and its descriptor.
`Kept` is what is expected.

* `scan_loop`, `continueClient_loop`, `closeClient_loop`: the parts make up the functions of the
  source.
* `Shows.process`, `Shows.clear`, `Shows.continueClient`, `Shows.closeClient`, `Shows.next`: what the
  main loop and a thread do to a slot is what they do to a connection in `Requests`.
* `kept_of_sound`: the pool is kept in every run in which `accept()` does not fail and finds a free
  slot, no thread ends with `close_client_connection()`, and the main loop releases a slot only
  when no thread is left for it and its descriptor is not watched any more.
* `eleventh_client_is_watched`: otherwise it may not be.  The result of `add_client()` is ignored.
-/

set_option autoImplicit false

namespace Afpfs
namespace Daemon
namespace ClientPool

open Transition
open EventLoop (Slot Loop Polled findSlot Unmarked)

/-! ## The system -/

/-- What a descriptor is open for. -/
inductive Owner where
  | free
  | command
  | server
  | client (connection : ℕ)
  deriving DecidableEq

/-- Where a thread of a request is. -/
inductive Stage where
  /-- In the handler of the command. -/
  | working
  /-- In `continue_client_connection()`, after `add_fd_and_signal()`. -/
  | rearmed
  /-- In `close_client_connection()`, after `add_fd_and_signal()`. -/
  | added
  /-- In `close_client_connection()`, after `rm_fd_and_signal()`. -/
  | removed
  /-- In `close_client_connection()`, after `close()`. -/
  | closed
  /-- Before `remove_command()`. -/
  | ending
  deriving DecidableEq

structure Thread where
  slot : Slot
  connection : ℕ
  stage : Stage
  deriving DecidableEq

/-- An access of a connection to its slot, and perhaps to its descriptor. -/
structure Access where
  connection : ℕ
  /-- The connection that has the slot. -/
  holder : Option ℕ
  /-- What the descriptor of the slot is open for, if it is used. -/
  owner : Option Owner
  deriving DecidableEq

structure State where
  loop : Loop
  /-- What the main loop has from `pselect()`. -/
  polled : Option Polled
  /-- The main loop is about to clear the descriptor of this slot, for this connection. -/
  clearing : Option (Slot × ℕ)
  threads : ℕ → Option Thread
  /-- The connection that a slot is given to. -/
  holder : Slot → Option ℕ
  owner : ℕ → Owner
  /-- The number of connections so far. -/
  connections : ℕ
  /-- The connections for which no slot was free. -/
  refused : List ℕ
  accesses : List Access

/-- The start of the daemon. -/
def State.init (commandFd : ℕ) : State where
  loop := (EventLoop.State.init commandFd).loop
  polled := none
  clearing := none
  threads := fun _ => none
  holder := fun _ => none
  owner := fun fd => if fd = commandFd then .command else .free
  connections := 0
  refused := []
  accesses := []

/-- An access of a connection to a slot. -/
def State.access (s : State) (i : Slot) (k : ℕ) (descriptor : Bool) : State :=
  { s with
    accesses :=
      { connection := k
        holder := s.holder i
        owner := if descriptor then some (s.owner (s.loop.clientPool i).fd) else none } ::
      s.accesses }

/-- `remove_client()`. -/
def State.release (s : State) (i : Slot) : State :=
  { s with loop := s.loop.removeClient i, holder := Function.update s.holder i none }

/-- `close()`. -/
def State.close (s : State) (fd : ℕ) : State :=
  { s with owner := Function.update s.owner fd .free }

/-- A thread has got to another place. -/
def State.advance (s : State) (n : ℕ) (t : Thread) (stage : Stage) : State :=
  { s with threads := Function.update s.threads n (some { t with stage := stage }) }

/-- The slot that `add_client()` takes. -/
def freeSlot (l : Loop) : Option Slot := findSlot fun i => !(l.clientPool i).used

/-- A connection is accepted, and gets a slot if there is a free one. -/
def State.accept (s : State) (newFd : ℕ) : State :=
  { s with
    loop := ((s.loop.addClient newFd).getD s.loop).addFd newFd
    polled := none
    holder := match freeSlot s.loop with
      | some i => Function.update s.holder i (some s.connections)
      | none => s.holder
    owner := Function.update s.owner newFd (.client s.connections)
    connections := s.connections + 1
    refused := match freeSlot s.loop with
      | some _ => s.refused
      | none => s.connections :: s.refused }

/-- The fields that `process_command()` uses. -/
def State.setRequest (s : State) (i : Slot) (request : Requests.DaemonClient) : State :=
  { s with loop := s.loop.setClient i { s.loop.clientPool i with request := request } }

/-- What a round of the main loop comes to. -/
inductive Round where
  | state (s : State)
  | exited
  | undefined

/-- A request is complete, and a thread is created for it. -/
def State.started (s : State) (i : Slot) (k n : ℕ) (request : Requests.DaemonClient) : State :=
  let s := s.setRequest i request
  { s with
    loop := s.loop.rmFd (s.loop.clientPool i).fd
    threads := Function.update s.threads n (some ⟨i, k, .working⟩)
    clearing := some (i, k) }

/-- The main loop has closed a connection and released its slot; `l` is its state then. -/
def State.done (s : State) (i : Slot) (l : Loop) : State :=
  { s with
    loop := l
    holder := Function.update s.holder i none
    owner := Function.update s.owner (s.loop.clientPool i).fd .free }

/-- `daemon_scan_extra_fds()` for the client of a slot.  `n` is the thread that is created if its
request is complete.  The descriptor is cleared later. -/
def State.process (commandFd : ℕ) (s : State) (p : Polled) (i : Slot) (read : ReadResult) (n : ℕ) :
    Round :=
  let k := (s.holder i).getD 0
  let read := Requests.processCommand (s.loop.clientPool i).request read
  let s := { s with polled := none }.access i k true
  match read with
  | .exited => .exited
  | .started request => .state (s.started i k n request)
  | .returned ret request =>
    let s := s.setRequest i request
    if ret = 0 then .state { s with clearing := some (i, k) }
    else match s.loop.finishScan commandFd p.set (Requests.processClientFds ret) (some i) with
      | .returned _ l => .state (if ret < 0 then s.done i l else { s with loop := l })
      | .exited => .exited
      | .undefined => .undefined

/-- `daemon_scan_extra_fds()`. -/
def State.scan (commandFd : ℕ) (s : State) (p : Polled) (accepted : Option ℕ) (read : ReadResult)
    (n : ℕ) : Round :=
  if p.err = true ∧ s.loop.foundFd p.exceptfds = 0 then .state { s with polled := none }
  else match s.loop.failing p with
    | some i => .state ({ s with polled := none }.release i)
    | none =>
      if commandFd ∈ p.set then
        match accepted with
        | some newFd => .state (s.accept newFd)
        | none => .undefined
      else if commandFd ∈ p.exceptfds then .state { s with polled := none }
      else match s.loop.readable p.set with
        | none => .state { s with polled := none }
        | some i => s.process commandFd p i read n

/-- The main loop clears the descriptor of a client after `process_command()` has returned 0. -/
def State.clear (s : State) (i : Slot) (k : ℕ) : State :=
  { s.access i k true with
    loop := s.loop.clearFd (s.loop.clientPool i).fd
    clearing := none }

inductive Action where
  | connectServer (fd : ℕ)
  | disconnectServer (fd : ℕ)
  | select (set exceptfds : Finset ℕ)
  | selectFails
  /-- `process_server_fds()` has served a server. -/
  | serve
  /-- `daemon_scan_extra_fds()`, with what `accept()` and `read()` return, and the thread that is
  created if a request is complete. -/
  | scan (accepted : Option ℕ) (read : ReadResult) (thread : ℕ)
  /-- `process_command()` has returned 0. -/
  | clear
  /-- A handler reads the slot and writes to the descriptor. -/
  | respond (thread : ℕ)
  | continueClient (thread : ℕ)
  | closeClient (thread : ℕ)
  /-- A handler returns without either. -/
  | leave (thread : ℕ)
  /-- The next part of `continue_client_connection()` or of `close_client_connection()`, or
  `remove_command()`. -/
  | next (thread : ℕ)

/-- `continue_client_connection()` up to `add_fd_and_signal()`. -/
def State.continueClient (s : State) (n : ℕ) (t : Thread) : State :=
  let s := s.access t.slot t.connection true
  let s := if (s.loop.clientPool t.slot).toremove then s.release t.slot else s
  { s with loop := s.loop.addFd (s.loop.clientPool t.slot).fd }.advance n t .rearmed

/-- `close_client_connection()` up to `add_fd_and_signal()`. -/
def State.closeClient (s : State) (n : ℕ) (t : Thread) : State :=
  let s := s.access t.slot t.connection true
  let c := s.loop.clientPool t.slot
  let s := s.setRequest t.slot { c.request with a := 0, incomingSize := 0 }
  { s with loop := s.loop.addFd c.fd }.advance n t (if c.fd = 0 then .ending else .added)

/-- The next part of a thread. -/
def State.next (s : State) (n : ℕ) (t : Thread) : State :=
  let c := s.loop.clientPool t.slot
  match t.stage with
  | .working => s
  | .rearmed =>
    ((s.access t.slot t.connection false).setRequest t.slot
      { c.request with incomingSize := 0 }).advance n t .ending
  | .added =>
    { s.access t.slot t.connection true with loop := s.loop.rmFd c.fd }.advance n t .removed
  | .removed => ((s.access t.slot t.connection true).close c.fd).advance n t .closed
  | .closed => ((s.access t.slot t.connection false).release t.slot).advance n t .ending
  | .ending =>
    { s.access t.slot t.connection false with threads := Function.update s.threads n none }

/-- The main loop, the threads and the servers.  The kernel gives descriptors that are not open.
When the behaviour of a round is undefined any state may follow. -/
inductive Step (commandFd : ℕ) : State → Action → State → Prop
  | connectServer {s : State} {fd : ℕ} :
      s.owner fd = .free →
        Step commandFd s (.connectServer fd)
          { s with loop := s.loop.addFd fd, owner := Function.update s.owner fd .server }
  | disconnectServer {s : State} {fd : ℕ} :
      s.owner fd = .server →
        Step commandFd s (.disconnectServer fd) ({ s with loop := s.loop.rmFd fd }.close fd)
  | select {s : State} {set exceptfds : Finset ℕ} :
      s.polled = none → s.clearing = none → set ⊆ s.loop.rds → exceptfds ⊆ s.loop.rds →
        Step commandFd s (.select set exceptfds) { s with polled := some ⟨set, exceptfds, false⟩ }
  | selectFails {s : State} :
      s.polled = none → s.clearing = none →
        Step commandFd s .selectFails { s with polled := some ⟨s.loop.rds, s.loop.rds, true⟩ }
  | serve {s : State} {p : Polled} :
      s.polled = some p → Step commandFd s .serve { s with polled := none }
  | scan {s t : State} {p : Polled} {accepted : Option ℕ} {read : ReadResult} {n : ℕ} :
      s.polled = some p → (∀ fd, accepted = some fd → s.owner fd = .free) → s.threads n = none →
        s.scan commandFd p accepted read n = .state t →
          Step commandFd s (.scan accepted read n) t
  | undefined {s t : State} {p : Polled} {accepted : Option ℕ} {read : ReadResult} {n : ℕ} :
      s.polled = some p → s.scan commandFd p accepted read n = .undefined →
        Step commandFd s (.scan accepted read n) t
  | clear {s : State} {i : Slot} {k : ℕ} :
      s.clearing = some (i, k) → Step commandFd s .clear (s.clear i k)
  | respond {s : State} {n : ℕ} {t : Thread} :
      s.threads n = some t → t.stage = .working →
        Step commandFd s (.respond n) (s.access t.slot t.connection true)
  | continueClient {s : State} {n : ℕ} {t : Thread} :
      s.threads n = some t → t.stage = .working →
        Step commandFd s (.continueClient n) (s.continueClient n t)
  | closeClient {s : State} {n : ℕ} {t : Thread} :
      s.threads n = some t → t.stage = .working →
        Step commandFd s (.closeClient n) (s.closeClient n t)
  | leave {s : State} {n : ℕ} {t : Thread} :
      s.threads n = some t → t.stage = .working →
        Step commandFd s (.leave n) (s.advance n t .ending)
  | next {s : State} {n : ℕ} {t : Thread} :
      s.threads n = some t → t.stage ≠ .working → Step commandFd s (.next n) (s.next n t)

/-! ## The parts are those of the source -/

/-- The four parts of `close_client_connection()`, one after the other. -/
theorem closeClient_loop (s : State) (n : ℕ) (t : Thread)
    (hfd : (s.loop.clientPool t.slot).fd ≠ 0) :
    ((((s.closeClient n t).next n { t with stage := .added }).next n
      { t with stage := .removed }).next n { t with stage := .closed }).loop =
      s.loop.closeClientConnection t.slot := by
  have hself : (s.closeClient n t).loop.clientPool t.slot =
      { s.loop.clientPool t.slot with
        request := { (s.loop.clientPool t.slot).request with a := 0, incomingSize := 0 } } :=
    EventLoop.setClient_self s.loop t.slot _
  have hnext : ((((s.closeClient n t).next n { t with stage := .added }).next n
      { t with stage := .removed }).next n { t with stage := .closed }).loop =
      ((s.closeClient n t).loop.rmFd ((s.closeClient n t).loop.clientPool t.slot).fd).removeClient
        t.slot := rfl
  rw [hnext, hself, Loop.closeClientConnection]
  simp only [if_neg hfd]
  rfl

/-- The two parts of `continue_client_connection()`. -/
theorem continueClient_loop (s : State) (n : ℕ) (t : Thread) :
    ((s.continueClient n t).next n { t with stage := .rearmed }).loop =
      s.loop.continueClientConnection t.slot := by
  rw [State.continueClient, Loop.continueClientConnection]
  cases hremove : (s.loop.clientPool t.slot).toremove with
  | false => simp only [State.access, hremove]; rfl
  | true => simp only [State.access, hremove]; rfl

/-! ## The requests of a slot -/

/-- The stages of a thread in `Requests`, where nothing follows its last access to the request. -/
def requestStage : Stage → Option Requests.Stage
  | .working => some .working
  | .rearmed => some .rearmed
  | .added => some .added
  | .removed => some .removed
  | .closed | .ending => none

/-- A connection of `Requests` has what the pool has of a slot and of a thread. -/
structure Shows (s : State) (i : Slot) (n : ℕ) (c : Requests.Connection) : Prop where
  client : c.client = (s.loop.clientPool i).request
  watched : c.watched = true ↔ (s.loop.clientPool i).fd ∈ s.loop.rds
  thread : c.thread = (s.threads n).bind fun t => requestStage t.stage

section Shows

variable {s s' : State} {i : Slot} {c : Requests.Connection} {commandFd n k : ℕ} {p : Polled}
  {segment : List UInt8} {t : Thread}

/-- The request of a slot is another one. -/
theorem Shows.setRequest (h : Shows s i n c) (request : Requests.DaemonClient) :
    Shows (s.setRequest i request) i n { c with client := request } := by
  have hself : (s.setRequest i request).loop.clientPool i =
      { s.loop.clientPool i with request := request } := EventLoop.setClient_self s.loop i _
  refine ⟨by rw [hself], ?_, h.thread⟩
  rw [hself]
  exact h.watched

/-- The descriptor of a slot is watched. -/
theorem Shows.addFd (h : Shows s i n c) :
    Shows { s with loop := s.loop.addFd (s.loop.clientPool i).fd } i n { c with watched := true } :=
  ⟨h.client, iff_of_true rfl (Finset.mem_insert_self _ _), h.thread⟩

/-- The descriptor of a slot is watched no longer. -/
theorem Shows.unwatch (h : Shows s i n c) {l : Loop} (hpool : l.clientPool = s.loop.clientPool)
    (hrds : l.rds = s.loop.rds.erase (s.loop.clientPool i).fd) :
    Shows { s with loop := l } i n { c with watched := false } := by
  refine ⟨h.client.trans (by rw [hpool]), iff_of_false Bool.false_ne_true fun hmem => ?_, h.thread⟩
  rw [hpool, hrds] at hmem
  exact absurd rfl (Finset.mem_erase.mp hmem).1

/-- The thread is at another place. -/
theorem Shows.advance (h : Shows s i n c) (hloop : s'.loop = s.loop) (t : Thread) (stage : Stage) :
    Shows (s'.advance n t stage) i n { c with thread := requestStage stage } := by
  have hthread : (s'.advance n t stage).threads n = some { t with stage := stage } :=
    Function.update_self ..
  refine ⟨?_, ?_, by rw [hthread]; rfl⟩
  · show c.client = (s'.loop.clientPool i).request
    rw [hloop]
    exact h.client
  · show c.watched = true ↔ (s'.loop.clientPool i).fd ∈ s'.loop.rds
    rw [hloop]
    exact h.watched

/-- What `Requests` makes of a request that is not complete. -/
theorem receive_returned {d : Requests.State} {request : Requests.DaemonClient} {ret : ℤ}
    (hread : Requests.processCommand (d.connections i).client (.bytes segment) =
      .returned ret request) :
    (d.receive i segment).connections i =
        { d.connections i with
          client := request
          arrived := (d.connections i).arrived ++ segment } ∧
      (d.receive i segment).clearing = if ret = 0 then some i else d.clearing := by
  rw [Requests.State.receive]
  simp only [hread]
  rcases EventLoop.processCommand_bytes hread with rfl | rfl
  · exact ⟨Requests.set_self .., rfl⟩
  · exact ⟨Requests.set_self .., rfl⟩

/-- **A round of the main loop** that reads from a client changes its slot as in `Requests`, and has
its descriptor to clear in the same cases. -/
theorem Shows.process {d : Requests.State} (h : Shows s i n (d.connections i))
    (hclearing : s.clearing = none) (hd : d.clearing = none)
    (hfd : (s.loop.clientPool i).fd ≠ commandFd)
    (hprocess : s.process commandFd p i (.bytes segment) n = .state s') :
    Shows s' i n ((d.receive i segment).connections i) ∧
      (d.receive i segment).clearing = s'.clearing.map Prod.fst := by
  rw [State.process] at hprocess
  cases hread : Requests.processCommand (s.loop.clientPool i).request (.bytes segment) with
  | exited =>
    rw [hread] at hprocess
    cases hprocess
  | started request =>
    rw [hread] at hprocess
    obtain rfl := Round.state.inj hprocess
    have hset := h.setRequest request
    have hrm := hset.unwatch (l := (s.setRequest i request).loop.rmFd
      ((s.setRequest i request).loop.clientPool i).fd) rfl rfl
    rw [Requests.State.receive, h.client]
    simp only [hread]
    refine ⟨?_, rfl⟩
    rw [show (_ : Requests.State).connections i = _ from Requests.set_self ..]
    refine ⟨hrm.client, hrm.watched, ?_⟩
    have hthread : (s.started i ((s.holder i).getD 0) n request).threads n =
        some ⟨i, (s.holder i).getD 0, .working⟩ := Function.update_self ..
    exact (congrArg (Option.bind · fun t => requestStage t.stage) hthread).symm
  | returned ret request =>
    rw [hread] at hprocess
    have hset := h.setRequest request
    obtain ⟨hconnection, hclears⟩ := receive_returned (d := d) (by rw [h.client, hread])
    rw [hconnection, hclears]
    rcases EventLoop.processCommand_bytes hread with rfl | rfl
    · obtain rfl := Round.state.inj hprocess
      exact ⟨⟨hset.client, hset.watched, hset.thread⟩, rfl⟩
    · obtain rfl := Round.state.inj hprocess
      refine ⟨⟨hset.client, hset.watched.trans ?_, hset.thread⟩, ?_⟩
      · -- the descriptor that is set for 1 is that of the commands
        have hself : (s.setRequest i request).loop.clientPool i =
            { s.loop.clientPool i with request := request } := EventLoop.setClient_self s.loop i _
        have hne : ((s.setRequest i request).loop.clientPool i).fd ≠ commandFd := by
          rw [hself]
          exact hfd
        show _ ↔ ((s.setRequest i request).loop.clientPool i).fd ∈
          insert commandFd (s.setRequest i request).loop.rds
        rw [Finset.mem_insert, or_iff_right hne]
      · rw [if_neg (by decide), hd]
        show none = s.clearing.map Prod.fst
        rw [hclearing]
        rfl

theorem Shows.clear (h : Shows s i n c) : Shows (s.clear i k) i n { c with watched := false } := by
  have hclear := h.unwatch (l := s.loop.clearFd (s.loop.clientPool i).fd) rfl rfl
  exact ⟨hclear.client, hclear.watched, hclear.thread⟩

/-- `continue_client_connection()` up to `add_fd_and_signal()`. -/
theorem Shows.continueClient (h : Shows s t.slot n c)
    (htoremove : (s.loop.clientPool t.slot).toremove = false) :
    Shows (s.continueClient n t) t.slot n c.continueClient := by
  have hparts : s.continueClient n t =
      State.advance { s.access t.slot t.connection true with
        loop := s.loop.addFd (s.loop.clientPool t.slot).fd } n t .rearmed := by
    rw [State.continueClient, State.access]
    simp only [htoremove]
    rfl
  rw [hparts]
  refine h.addFd.advance ?_ t .rearmed
  rfl

/-- `close_client_connection()` up to `add_fd_and_signal()`. -/
theorem Shows.closeClient (h : Shows s t.slot n c) (hfd : (s.loop.clientPool t.slot).fd ≠ 0) :
    Shows (s.closeClient n t) t.slot n c.closeClient := by
  have hset := h.setRequest { (s.loop.clientPool t.slot).request with a := 0, incomingSize := 0 }
  have hself := EventLoop.setClient_self s.loop t.slot
    { s.loop.clientPool t.slot with
      request := { (s.loop.clientPool t.slot).request with a := 0, incomingSize := 0 } }
  have hstage : (if (s.loop.clientPool t.slot).fd = 0 then Stage.ending else Stage.added) = .added :=
    if_neg hfd
  rw [Requests.Connection.closeClient, h.client, State.closeClient]
  dsimp only
  rw [show (s.access t.slot t.connection true).loop = s.loop from rfl, hstage]
  refine hset.addFd.advance ?_ t .added
  rw [show (s.setRequest t.slot _).loop.clientPool t.slot = _ from hself]
  rfl

/-- The next part of the one or the other, and nothing that is shown behind them. -/
theorem Shows.next (h : Shows s t.slot n c) (ht : s.threads n = some t) :
    Shows (s.next n t) t.slot n
      (match c.thread with
        | some stage => c.next stage
        | none => c) := by
  have hthread : c.thread = requestStage t.stage := by
    rw [h.thread, ht]
    rfl
  obtain ⟨slot, connection, stage⟩ := t
  cases stage with
  | working =>
    rw [hthread]
    exact h
  | rearmed =>
    have hset := h.setRequest { (s.loop.clientPool slot).request with incomingSize := 0 }
    rw [hthread]
    show Shows _ _ _ { c with client := { c.client with incomingSize := 0 }, thread := none }
    rw [h.client]
    refine hset.advance ?_ ⟨slot, connection, .rearmed⟩ .ending
    rfl
  | added =>
    have hrm := h.unwatch (l := s.loop.rmFd (s.loop.clientPool slot).fd) rfl rfl
    rw [hthread]
    refine hrm.advance ?_ ⟨slot, connection, .added⟩ .removed
    rfl
  | removed =>
    have hclosed : Shows (State.advance ((s.access slot connection true).close
        (s.loop.clientPool slot).fd) n ⟨slot, connection, .removed⟩ .closed) slot n
        { c with thread := none } := by
      refine h.advance ?_ ⟨slot, connection, .removed⟩ .closed
      rfl
    rw [hthread]
    exact ⟨hclosed.client, hclosed.watched, hclosed.thread⟩
  | closed =>
    have hself := EventLoop.setClient_self s.loop slot
      { s.loop.clientPool slot with used := false }
    have hpool : (State.next s n ⟨slot, connection, .closed⟩).loop.clientPool slot =
        { s.loop.clientPool slot with used := false } := hself
    have hnext : (State.next s n ⟨slot, connection, .closed⟩).threads n =
        some ⟨slot, connection, .ending⟩ := Function.update_self ..
    rw [hthread]
    refine ⟨by rw [hpool]; exact h.client, by rw [hpool]; exact h.watched, ?_⟩
    rw [hnext]
    exact hthread
  | ending =>
    have hnext : (State.next s n ⟨slot, connection, .ending⟩).threads n = none :=
      Function.update_self ..
    rw [hthread]
    refine ⟨h.client, h.watched, ?_⟩
    rw [hnext]
    exact hthread

end Shows

/-- What a round can do. -/
theorem scan_cases {commandFd : ℕ} {s t : State} {p : Polled} {accepted : Option ℕ}
    {read : ReadResult} {n : ℕ} (hscan : s.scan commandFd p accepted read n = .state t) :
    ((p.err = true ∧ s.loop.foundFd p.exceptfds = 0) ∧ t = { s with polled := none }) ∨
    (∃ i, s.loop.failing p = some i ∧ t = State.release { s with polled := none } i) ∨
    s.loop.Scans p ∧
      ((commandFd ∈ p.set ∧ ∃ newFd, accepted = some newFd ∧ t = s.accept newFd) ∨
      (commandFd ∉ p.set ∧ commandFd ∈ p.exceptfds ∧ t = { s with polled := none }) ∨
      (commandFd ∉ p.set ∧ commandFd ∉ p.exceptfds ∧ s.loop.readable p.set = none ∧
        t = { s with polled := none }) ∨
      ∃ i, commandFd ∉ p.set ∧ commandFd ∉ p.exceptfds ∧ s.loop.readable p.set = some i ∧
        s.process commandFd p i read n = .state t) := by
  rw [State.scan.eq_def] at hscan
  by_cases herr : p.err = true ∧ s.loop.foundFd p.exceptfds = 0
  · rw [if_pos herr] at hscan
    exact .inl ⟨herr, (Round.state.inj hscan).symm⟩
  rw [if_neg herr] at hscan
  cases hfailing : s.loop.failing p with
  | some i =>
    rw [hfailing] at hscan
    exact .inr (.inl ⟨i, rfl, (Round.state.inj hscan).symm⟩)
  | none =>
    refine .inr (.inr ⟨⟨herr, hfailing⟩, ?_⟩)
    rw [hfailing] at hscan
    by_cases hcommand : commandFd ∈ p.set
    · simp only [if_pos hcommand] at hscan
      cases accepted with
      | none => cases hscan
      | some newFd => exact .inl ⟨hcommand, newFd, rfl, (Round.state.inj hscan).symm⟩
    by_cases hexcept : commandFd ∈ p.exceptfds
    · simp only [if_neg hcommand, if_pos hexcept] at hscan
      exact .inr (.inl ⟨hcommand, hexcept, (Round.state.inj hscan).symm⟩)
    simp only [if_neg hcommand, if_neg hexcept] at hscan
    cases hreadable : s.loop.readable p.set with
    | none =>
      rw [hreadable] at hscan
      exact .inr (.inr (.inl ⟨hcommand, hexcept, rfl, (Round.state.inj hscan).symm⟩))
    | some i =>
      rw [hreadable] at hscan
      exact .inr (.inr (.inr ⟨i, hcommand, hexcept, rfl, hscan⟩))

/-- A round changes the variables of the main loop as `daemon_scan_extra_fds()` does, but for the
descriptor that it has yet to clear. -/
theorem scan_loop {commandFd : ℕ} {s t : State} {p : Polled} {accepted : Option ℕ}
    {read : ReadResult} {n : ℕ} (hclearing : s.clearing = none)
    (hscan : s.scan commandFd p accepted read n = .state t) :
    ∃ ret, s.loop.daemonScanExtraFds commandFd p accepted read =
      .returned ret (match t.clearing with
        | some (i, _) => t.loop.clearFd (t.loop.clientPool i).fd
        | none => t.loop) := by
  rcases scan_cases hscan with ⟨herr, rfl⟩ | ⟨i, hfailing, rfl⟩ | ⟨hscans, hcase⟩
  · refine ⟨-1, ?_⟩
    rw [Loop.daemonScanExtraFds, if_pos herr]
    simp only [hclearing]
  · refine ⟨1, ?_⟩
    rw [EventLoop.scan_of_failing hfailing]
    simp only [State.release, hclearing]
  rcases hcase with ⟨hcommand, newFd, rfl, rfl⟩ | ⟨hcommand, hexcept, rfl⟩ |
    ⟨hcommand, hexcept, hreadable, rfl⟩ | ⟨i, hcommand, hexcept, hreadable, hprocessed⟩
  · refine ⟨0, ?_⟩
    rw [EventLoop.scan_of_scans hscans, if_pos hcommand]
    simp only [State.accept, hclearing]
    rfl
  · refine ⟨0, ?_⟩
    rw [EventLoop.scan_of_scans hscans, if_neg hcommand, if_pos hexcept]
    simp only [hclearing]
  · refine ⟨-1, ?_⟩
    rw [EventLoop.scan_of_not_readable hscans hcommand hexcept hreadable]
    simp only [hclearing]
  · rw [State.process] at hprocessed
    rw [EventLoop.scan_of_readable hscans hcommand hexcept hreadable]
    cases hprocess : Requests.processCommand (s.loop.clientPool i).request read with
    | exited =>
      rw [hprocess] at hprocessed
      cases hprocessed
    | started request =>
      rw [hprocess] at hprocessed
      obtain rfl := Round.state.inj hprocessed
      refine ⟨-1, ?_⟩
      simp only [State.started, State.setRequest, State.access, EventLoop.setClient_self]
      rfl
    | returned ret request =>
      rw [hprocess] at hprocessed
      rcases EventLoop.processCommand_returned hprocess with rfl | rfl | rfl
      · cases hprocessed
        refine ⟨-1, ?_⟩
        simp only [State.done, State.setRequest, State.access, hclearing]
        rfl
      · cases hprocessed
        exact ⟨-1, rfl⟩
      · cases hprocessed
        refine ⟨1, ?_⟩
        simp only [State.setRequest, State.access, hclearing]
        rfl

/-! ## What is expected -/

/-- What is expected of the pool. -/
structure Kept (s : State) : Prop where
  /-- A descriptor that is watched is the command socket, that of a server, or that of exactly one
  used slot. -/
  watched : ∀ fd ∈ s.loop.rds, s.owner fd = .command ∨ s.owner fd = .server ∨
    ∃! i, (s.loop.clientPool i).used = true ∧ (s.loop.clientPool i).fd = fd
  /-- No two used slots have the same descriptor. -/
  distinct : ∀ i j, (s.loop.clientPool i).used = true → (s.loop.clientPool j).used = true →
    (s.loop.clientPool i).fd = (s.loop.clientPool j).fd → i = j
  /-- A connection for which no slot was free has no descriptor that is open. -/
  refused : ∀ k ∈ s.refused, ∀ fd, s.owner fd ≠ .client k
  /-- A connection uses a slot only while it has it, and only its own descriptor. -/
  accesses : ∀ a ∈ s.accesses, a.holder = some a.connection ∧
    ∀ o, a.owner = some o → o = .client a.connection

/-- No thread is left for a slot. -/
def State.Quiet (s : State) (i : Slot) : Prop := ∀ n t, s.threads n = some t → t.slot ≠ i

/-- The condition on a round of the main loop. -/
structure RoundSound (commandFd : ℕ) (s : State) (p : Polled) (accepted : Option ℕ)
    (read : ReadResult) : Prop where
  /-- A client that is removed for an error is not watched, and has no thread. -/
  failing : ∀ i, s.loop.failing p = some i → (s.loop.clientPool i).used = true →
    (s.loop.clientPool i).fd ∉ s.loop.rds ∧ s.Quiet i
  /-- `accept()` does not fail, and there is a free slot. -/
  accepted : s.loop.Scans p → commandFd ∈ p.set → accepted ≠ none ∧ freeSlot s.loop ≠ none
  /-- A client that is closed by the main loop has no thread. -/
  done : s.loop.Scans p → commandFd ∉ p.set → commandFd ∉ p.exceptfds →
    ∀ i ret request, s.loop.readable p.set = some i →
      Requests.processCommand (s.loop.clientPool i).request read = .returned ret request →
        ret < 0 → s.Quiet i

/-- The condition on a step. -/
def Sound (commandFd : ℕ) (s : State) : Action → Prop
  | .scan accepted read _ => ∀ p, s.polled = some p → RoundSound commandFd s p accepted read
  | .closeClient n => ∀ t, s.threads n = some t → (s.loop.clientPool t.slot).fd = 0
  | _ => True

/-! ## The invariant -/

/-- A descriptor that may be watched. -/
def Legit (s : State) (fd : ℕ) : Prop :=
  s.owner fd = .command ∨ s.owner fd = .server ∨
    ∃ i k, s.holder i = some k ∧ (s.loop.clientPool i).fd = fd

/-- What holds of the daemon after every step that meets the condition. -/
structure Inv (commandFd : ℕ) (s : State) : Prop where
  command : s.owner commandFd = .command
  used : ∀ i, (s.loop.clientPool i).used = true ↔ ∃ k, s.holder i = some k
  owned : ∀ i k, s.holder i = some k → s.owner (s.loop.clientPool i).fd = .client k
  holders : ∀ i j k, s.holder i = some k → s.holder j = some k → i = j
  numbered : ∀ i k, s.holder i = some k → k < s.connections
  watched : ∀ fd ∈ s.loop.rds, Legit s fd
  threads : ∀ n t, s.threads n = some t → s.holder t.slot = some t.connection ∧
    (t.stage = .working ∨ t.stage = .rearmed ∨ t.stage = .ending)
  clearing : ∀ i k, s.clearing = some (i, k) → s.holder i = some k
  idle : ∀ p, s.polled = some p → s.clearing = none
  refused : s.refused = []
  accesses : ∀ a ∈ s.accesses, a.holder = some a.connection ∧
    ∀ o, a.owner = some o → o = .client a.connection
  unmarked : Unmarked s.loop

section

variable {commandFd : ℕ} {s : State}

theorem inv_init (commandFd : ℕ) : Inv commandFd (State.init commandFd) where
  command := if_pos rfl
  used i := by simp [State.init, EventLoop.State.init, Loop.addFd, EventLoop.DaemonClient.zero]
  owned i k h := by simp [State.init] at h
  holders i j k h := by simp [State.init] at h
  numbered i k h := by simp [State.init] at h
  watched fd hfd := by
    have hfd' : fd ∈ insert commandFd (∅ : Finset ℕ) := hfd
    left
    rw [Finset.mem_insert, or_iff_left (Finset.notMem_empty fd)] at hfd'
    exact if_pos hfd'
  threads n t h := by simp [State.init] at h
  clearing i k h := by simp [State.init] at h
  idle p h := rfl
  refused := rfl
  accesses a h := by simp [State.init] at h
  unmarked i := rfl

/-- The slots in use have different descriptors. -/
theorem Inv.distinct (h : Inv commandFd s) {i j : Slot} {k k' : ℕ} (hi : s.holder i = some k)
    (hj : s.holder j = some k') (hfd : (s.loop.clientPool i).fd = (s.loop.clientPool j).fd) :
    i = j := by
  have hk : Owner.client k = .client k' := by rw [← h.owned i k hi, ← h.owned j k' hj, hfd]
  obtain rfl := Owner.client.inj hk
  exact h.holders i j k hi hj

/-- The invariant gives what is expected. -/
theorem Inv.kept (h : Inv commandFd s) : Kept s where
  watched fd hfd := by
    rcases h.watched fd hfd with hcommand | hserver | ⟨i, k, hi, hfd⟩
    · exact .inl hcommand
    · exact .inr (.inl hserver)
    · refine .inr (.inr ⟨i, ⟨(h.used i).mpr ⟨k, hi⟩, hfd⟩, fun j hj => ?_⟩)
      obtain ⟨k', hk'⟩ := (h.used j).mp hj.1
      exact h.distinct hk' hi (hj.2.trans hfd.symm)
  distinct i j hi hj hfd := by
    obtain ⟨k, hk⟩ := (h.used i).mp hi
    obtain ⟨k', hk'⟩ := (h.used j).mp hj
    exact h.distinct hk hk' hfd
  refused k hk := by simp [h.refused] at hk
  accesses := h.accesses

/-! ### What keeps it -/

/-- A connection uses its slot. -/
theorem Inv.access (h : Inv commandFd s) {i : Slot} {k : ℕ} (hi : s.holder i = some k)
    (descriptor : Bool) : Inv commandFd (s.access i k descriptor) :=
  { h with
    accesses := by
      intro a ha
      rcases List.mem_cons.mp ha with rfl | ha
      · refine ⟨hi, fun o ho => ?_⟩
        cases descriptor with
        | false => simp at ho
        | true =>
          obtain rfl := Option.some.inj ho
          exact h.owned i k hi
      · exact h.accesses a ha }

/-- The set is changed, and what the slots hold besides their descriptors. -/
theorem Inv.withLoop (h : Inv commandFd s) {l : Loop}
    (hpool : ∀ i, (l.clientPool i).used = (s.loop.clientPool i).used ∧
      (l.clientPool i).fd = (s.loop.clientPool i).fd ∧ (l.clientPool i).toremove = false)
    (hrds : ∀ fd ∈ l.rds, Legit s fd) : Inv commandFd { s with loop := l } :=
  { h with
    used := fun i => by
      show (l.clientPool i).used = true ↔ _
      rw [(hpool i).1]
      exact h.used i
    owned := fun i k hi => by
      show s.owner (l.clientPool i).fd = .client k
      rw [(hpool i).2.1]
      exact h.owned i k hi
    watched := fun fd hfd => by
      rcases hrds fd hfd with hcommand | hserver | ⟨i, k, hi, hfd⟩
      · exact .inl hcommand
      · exact .inr (.inl hserver)
      · exact .inr (.inr ⟨i, k, hi, (hpool i).2.1.trans hfd⟩)
    unmarked := fun i => (hpool i).2.2 }

/-- A thread is where it may be. -/
theorem Inv.withThread (h : Inv commandFd s) (n : ℕ) {t : Thread}
    (ht : s.holder t.slot = some t.connection)
    (hstage : t.stage = .working ∨ t.stage = .rearmed ∨ t.stage = .ending) :
    Inv commandFd { s with threads := Function.update s.threads n (some t) } :=
  { h with
    threads := fun m t' ht' => by
      by_cases hm : m = n
      · have hsome : Function.update s.threads n (some t) m = some t' := ht'
        rw [hm, Function.update_self] at hsome
        obtain rfl := Option.some.inj hsome
        exact ⟨ht, hstage⟩
      · have hsome : Function.update s.threads n (some t) m = some t' := ht'
        rw [Function.update_of_ne hm] at hsome
        exact h.threads m t' hsome }

theorem Inv.advance (h : Inv commandFd s) (n : ℕ) {t : Thread} {stage : Stage}
    (ht : s.holder t.slot = some t.connection)
    (hstage : stage = .working ∨ stage = .rearmed ∨ stage = .ending) :
    Inv commandFd (s.advance n t stage) :=
  h.withThread n (t := { t with stage := stage }) ht hstage

/-- A thread has ended. -/
theorem Inv.withoutThread (h : Inv commandFd s) (n : ℕ) :
    Inv commandFd { s with threads := Function.update s.threads n none } :=
  { h with
    threads := fun m t ht => by
      have hsome : Function.update s.threads n none m = some t := ht
      by_cases hm : m = n
      · rw [hm, Function.update_self] at hsome
        simp at hsome
      · rw [Function.update_of_ne hm] at hsome
        exact h.threads m t hsome }

theorem Inv.quiet_of_free (h : Inv commandFd s) {i : Slot}
    (hi : (s.loop.clientPool i).used = false) : s.Quiet i := by
  rintro n t ht rfl
  have hused := (h.used t.slot).mpr ⟨_, (h.threads n t ht).1⟩
  simp [hi] at hused

/-- **A slot is released.** -/
theorem Inv.released (h : Inv commandFd s) {i : Slot} (hclearing : s.clearing = none)
    (hi : (s.loop.clientPool i).used = true →
      (s.loop.clientPool i).fd ∉ s.loop.rds ∧ s.Quiet i) {l : Loop}
    (hpool : l.clientPool = (s.loop.removeClient i).clientPool) (hrds : l.rds ⊆ s.loop.rds) :
    Inv commandFd { s with loop := l, holder := Function.update s.holder i none } := by
  have hquiet : s.Quiet i := by
    cases hused : (s.loop.clientPool i).used with
    | false => exact h.quiet_of_free hused
    | true => exact (hi hused).2
  have hself : l.clientPool i = { s.loop.clientPool i with used := false } := by
    rw [hpool]
    exact EventLoop.setClient_self s.loop i _
  have hother : ∀ j, j ≠ i → l.clientPool j = s.loop.clientPool j := fun j hj => by
    rw [hpool]
    exact EventLoop.setClient_of_ne s.loop _ hj
  have hheld : ∀ {j : Slot} {k : ℕ}, Function.update s.holder i none j = some k →
      j ≠ i ∧ s.holder j = some k := by
    intro j k hj
    by_cases hji : j = i
    · rw [hji, Function.update_self] at hj
      simp at hj
    · rw [Function.update_of_ne hji] at hj
      exact ⟨hji, hj⟩
  have hkeeps : ∀ {j : Slot}, j ≠ i → Function.update s.holder i none j = s.holder j :=
    fun hj => Function.update_of_ne hj none s.holder
  refine
    { h with
      used := fun j => ?_
      owned := fun j k hj => ?_
      holders := fun j j' k hj hj' => h.holders j j' k (hheld hj).2 (hheld hj').2
      numbered := fun j k hj => h.numbered j k (hheld hj).2
      watched := fun fd hfd => ?_
      threads := fun n t ht => ?_
      clearing := fun j k hj => ?_
      unmarked := fun j => ?_ }
  · show (l.clientPool j).used = true ↔ ∃ k, Function.update s.holder i none j = some k
    by_cases hj : j = i
    · rw [hj, hself, Function.update_self]
      simp
    · rw [hother j hj, hkeeps hj]
      exact h.used j
  · obtain ⟨hne, hj⟩ := hheld hj
    show s.owner (l.clientPool j).fd = .client k
    rw [hother j hne]
    exact h.owned j k hj
  · rcases h.watched fd (hrds hfd) with hcommand | hserver | ⟨j, k, hj, rfl⟩
    · exact .inl hcommand
    · exact .inr (.inl hserver)
    · have hne : j ≠ i := fun heq =>
        (hi ((h.used i).mpr ⟨k, heq ▸ hj⟩)).1 (heq ▸ hrds hfd)
      exact .inr (.inr ⟨j, k, (hkeeps hne).trans hj, by rw [hother j hne]⟩)
  · obtain ⟨ht', hstage⟩ := h.threads n t ht
    exact ⟨(hkeeps (hquiet n t ht)).trans ht', hstage⟩
  · have hsome : s.clearing = some (j, k) := hj
    simp [hclearing] at hsome
  · show (l.clientPool j).toremove = false
    by_cases hj : j = i
    · rw [hj, hself]
      exact h.unmarked i
    · rw [hother j hj]
      exact h.unmarked j

/-- A descriptor that no slot has is opened or closed. -/
theorem Inv.withOwner (h : Inv commandFd s) {fd : ℕ} {o : Owner} (hcommand : fd ≠ commandFd)
    (hslot : ∀ i k, s.holder i = some k → (s.loop.clientPool i).fd ≠ fd)
    (hwatched : fd ∈ s.loop.rds → o = .server) :
    Inv commandFd { s with owner := Function.update s.owner fd o } := by
  refine
    { h with
      command := (Function.update_of_ne hcommand.symm o s.owner).trans h.command
      owned := fun i k hi =>
        (Function.update_of_ne (hslot i k hi) o s.owner).trans (h.owned i k hi)
      watched := fun j hj => ?_ }
  by_cases hjfd : j = fd
  · subst hjfd
    refine .inr (.inl ?_)
    rw [← hwatched hj]
    exact Function.update_self j o s.owner
  · have howner : Function.update s.owner fd o j = s.owner j := Function.update_of_ne hjfd o s.owner
    rcases h.watched j hj with hcommand | hserver | hslot
    · exact .inl (howner.trans hcommand)
    · exact .inr (.inl (howner.trans hserver))
    · exact .inr (.inr hslot)

/-- A descriptor that is not open belongs to nothing. -/
theorem Inv.free (h : Inv commandFd s) {fd : ℕ} (hfree : s.owner fd = .free) :
    fd ≠ commandFd ∧ (∀ i k, s.holder i = some k → (s.loop.clientPool i).fd ≠ fd) ∧
      fd ∉ s.loop.rds := by
  have hslot : ∀ i k, s.holder i = some k → (s.loop.clientPool i).fd ≠ fd := by
    rintro i k hi rfl
    have howned := h.owned i k hi
    simp [hfree] at howned
  refine ⟨?_, hslot, fun hmem => ?_⟩
  · rintro rfl
    have hcommand := h.command
    simp [hfree] at hcommand
  · rcases h.watched fd hmem with hcommand | hserver | ⟨i, k, hi, hfd⟩
    · simp [hfree] at hcommand
    · simp [hfree] at hserver
    · exact hslot i k hi hfd

theorem findSlot_eq_some {p : Slot → Bool} {i : Slot} (h : findSlot p = some i) : p i = true :=
  List.find?_some h

/-- **A connection gets a free slot.** -/
theorem Inv.accept (h : Inv commandFd s) {newFd : ℕ} (hfree : s.owner newFd = .free)
    (hclearing : s.clearing = none) (hslot : freeSlot s.loop ≠ none) :
    Inv commandFd (s.accept newFd) := by
  obtain ⟨i, hi⟩ := Option.ne_none_iff_exists'.mp hslot
  have hunused : (s.loop.clientPool i).used = false := by simpa using findSlot_eq_some hi
  have hnone : ∀ k, s.holder i ≠ some k := fun k hk => by
    have hused := (h.used i).mpr ⟨k, hk⟩
    simp [hunused] at hused
  obtain ⟨hcommand, hfds, hnot⟩ := h.free hfree
  have hloop : ((s.loop.addClient newFd).getD s.loop) =
      s.loop.setClient i { EventLoop.DaemonClient.zero with fd := newFd, used := true } := by
    have hadd : s.loop.addClient newFd = (freeSlot s.loop).map _ := rfl
    rw [hadd, hi]
    rfl
  have hpool : ∀ j, (s.accept newFd).loop.clientPool j = if j = i then
      { EventLoop.DaemonClient.zero with fd := newFd, used := true }
      else s.loop.clientPool j := by
    intro j
    show (((s.loop.addClient newFd).getD s.loop).clientPool j) = _
    rw [hloop]
    by_cases hj : j = i
    · rw [hj, EventLoop.setClient_self, if_pos rfl]
    · rw [EventLoop.setClient_of_ne _ _ hj, if_neg hj]
  have hholder : (s.accept newFd).holder = Function.update s.holder i (some s.connections) := by
    show (match freeSlot s.loop with
      | some i => Function.update s.holder i (some s.connections)
      | none => s.holder) = _
    rw [hi]
  have hrefused : (s.accept newFd).refused = s.refused := by
    show (match freeSlot s.loop with
      | some _ => s.refused
      | none => s.connections :: s.refused) = _
    rw [hi]
  have hheld : ∀ {j : Slot} {k : ℕ}, (s.accept newFd).holder j = some k →
      (j = i ∧ k = s.connections) ∨ (j ≠ i ∧ s.holder j = some k) := by
    intro j k hj
    rw [hholder] at hj
    by_cases hji : j = i
    · rw [hji, Function.update_self] at hj
      exact .inl ⟨hji, (Option.some.inj hj).symm⟩
    · rw [Function.update_of_ne hji] at hj
      exact .inr ⟨hji, hj⟩
  have hkeeps : ∀ {j : Slot} {k : ℕ}, s.holder j = some k → (s.accept newFd).holder j = some k := by
    intro j k hj
    have hji : j ≠ i := fun heq => hnone k (heq ▸ hj)
    rw [hholder, Function.update_of_ne hji]
    exact hj
  have howner : ∀ {fd : ℕ}, fd ≠ newFd → (s.accept newFd).owner fd = s.owner fd :=
    fun hne => Function.update_of_ne hne _ s.owner
  have hnew : (s.accept newFd).owner newFd = .client s.connections :=
    Function.update_self newFd _ s.owner
  refine
    { command := (howner hcommand.symm).trans h.command
      used := fun j => ?_
      owned := fun j k hj => ?_
      holders := fun j j' k hj hj' => ?_
      numbered := fun j k hj => ?_
      watched := fun fd hfd => ?_
      threads := fun n t ht => ?_
      clearing := fun j k hj => ?_
      idle := fun p hp => hclearing
      refused := hrefused.trans h.refused
      accesses := h.accesses
      unmarked := fun j => ?_ }
  · rw [hpool, hholder]
    by_cases hj : j = i
    · rw [if_pos hj, hj, Function.update_self]
      simp
    · rw [if_neg hj, Function.update_of_ne hj]
      exact h.used j
  · rw [hpool]
    rcases hheld hj with ⟨rfl, rfl⟩ | ⟨hne, hj⟩
    · rw [if_pos rfl]
      exact hnew
    · rw [if_neg hne, howner (hfds j k hj)]
      exact h.owned j k hj
  · rcases hheld hj with ⟨rfl, rfl⟩ | ⟨-, hj⟩ <;> rcases hheld hj' with ⟨rfl, hk⟩ | ⟨-, hj'⟩
    · rfl
    · exact absurd (h.numbered j' _ hj') (Nat.lt_irrefl _)
    · exact absurd (h.numbered j _ hj) (by omega)
    · exact h.holders j j' k hj hj'
  · show k < s.connections + 1
    rcases hheld hj with ⟨-, rfl⟩ | ⟨-, hj⟩
    · exact Nat.lt_succ_self _
    · exact Nat.lt_succ_of_lt (h.numbered j k hj)
  · have hmem : fd ∈ insert newFd ((s.loop.addClient newFd).getD s.loop).rds := hfd
    rw [hloop] at hmem
    rcases Finset.mem_insert.mp hmem with rfl | hmem
    · refine .inr (.inr ⟨i, s.connections, ?_, ?_⟩)
      · rw [hholder, Function.update_self]
      · rw [hpool, if_pos rfl]
    · have hne : fd ≠ newFd := fun heq => hnot (heq ▸ hmem)
      rcases h.watched fd hmem with hcommand | hserver | ⟨j, k, hj, hfd⟩
      · exact .inl ((howner hne).trans hcommand)
      · exact .inr (.inl ((howner hne).trans hserver))
      · have hji : j ≠ i := fun heq => hnone k (heq ▸ hj)
        refine .inr (.inr ⟨j, k, hkeeps hj, ?_⟩)
        rw [hpool, if_neg hji]
        exact hfd
  · obtain ⟨ht', hstage⟩ := h.threads n t ht
    exact ⟨hkeeps ht', hstage⟩
  · have hsome : s.clearing = some (j, k) := hj
    simp [hclearing] at hsome
  · rw [hpool]
    split
    · rfl
    · exact h.unmarked j

/-! ### The main loop -/

theorem Inv.withPolled (h : Inv commandFd s) {p : Option Polled}
    (hp : p = none ∨ s.clearing = none) : Inv commandFd { s with polled := p } :=
  { h with
    idle := fun q hq => by
      rcases hp with rfl | hp
      · have hsome : none = some q := hq
        simp at hsome
      · exact hp }

/-- The descriptor of a slot may be watched. -/
theorem Inv.legit (h : Inv commandFd s) {i : Slot} {k fd : ℕ} (hi : s.holder i = some k)
    (hfd : fd ∈ insert (s.loop.clientPool i).fd s.loop.rds) : Legit s fd := by
  rcases Finset.mem_insert.mp hfd with rfl | hfd
  · exact .inr (.inr ⟨i, k, hi, rfl⟩)
  · exact h.watched fd hfd

theorem setRequest_pool (s : State) (i : Slot) (request : Requests.DaemonClient)
    (hunmarked : Unmarked s.loop) (j : Slot) :
    ((s.setRequest i request).loop.clientPool j).used = (s.loop.clientPool j).used ∧
      ((s.setRequest i request).loop.clientPool j).fd = (s.loop.clientPool j).fd ∧
      ((s.setRequest i request).loop.clientPool j).toremove = false := by
  by_cases hj : j = i
  · rw [hj]
    rw [show (s.setRequest i request).loop.clientPool i =
      { s.loop.clientPool i with request := request } from EventLoop.setClient_self s.loop i _]
    exact ⟨rfl, rfl, hunmarked i⟩
  · rw [show (s.setRequest i request).loop.clientPool j = s.loop.clientPool j from
      EventLoop.setClient_of_ne s.loop _ hj]
    exact ⟨rfl, rfl, hunmarked j⟩

/-- What is read is put into the slot. -/
theorem Inv.setRequest (h : Inv commandFd s) (i : Slot) (request : Requests.DaemonClient) :
    Inv commandFd (s.setRequest i request) :=
  h.withLoop (setRequest_pool s i request h.unmarked) h.watched

theorem Inv.rmFd (h : Inv commandFd s) (fd : ℕ) :
    Inv commandFd { s with loop := s.loop.rmFd fd } :=
  h.withLoop (fun i => ⟨rfl, rfl, h.unmarked i⟩) fun j hj =>
    h.watched j (Finset.mem_of_mem_erase hj)

theorem Inv.withClearing (h : Inv commandFd s) {i : Slot} {k : ℕ} (hpolled : s.polled = none)
    (hi : s.holder i = some k) : Inv commandFd { s with clearing := some (i, k) } :=
  { h with
    clearing := fun j k' hj => by
      obtain ⟨rfl, rfl⟩ := Prod.mk.inj (Option.some.inj hj)
      exact hi
    idle := fun p hp => by
      have hsome : s.polled = some p := hp
      simp [hpolled] at hsome }

theorem Inv.started (h : Inv commandFd s) {i : Slot} {k : ℕ} (hpolled : s.polled = none)
    (hi : s.holder i = some k) (n : ℕ) (request : Requests.DaemonClient) :
    Inv commandFd (s.started i k n request) :=
  (((h.setRequest i request).rmFd _).withThread n (t := ⟨i, k, .working⟩) hi
    (.inl rfl)).withClearing hpolled hi

/-- **The main loop closes a connection.** -/
theorem Inv.done (h : Inv commandFd s) {i : Slot} {k : ℕ} (hclearing : s.clearing = none)
    (hi : s.holder i = some k) (hquiet : s.Quiet i) {l : Loop}
    (hpool : l.clientPool = (s.loop.removeClient i).clientPool)
    (hrds : l.rds = s.loop.rds.erase (s.loop.clientPool i).fd) : Inv commandFd (s.done i l) := by
  have hcleared : Inv commandFd
      { s with loop := s.loop.clearFd (s.loop.clientPool i).fd } :=
    h.withLoop (fun j => ⟨rfl, rfl, h.unmarked j⟩) fun j hj =>
      h.watched j (Finset.mem_of_mem_erase hj)
  have hreleased := hcleared.released (l := l) hclearing
    (fun _ => ⟨Finset.notMem_erase _ _, hquiet⟩) hpool (by rw [hrds]; exact Finset.Subset.refl _)
  have hheld : ∀ {j : Slot} {k' : ℕ}, Function.update s.holder i none j = some k' →
      j ≠ i ∧ s.holder j = some k' := by
    intro j k' hj
    by_cases hji : j = i
    · rw [hji, Function.update_self] at hj
      simp at hj
    · rw [Function.update_of_ne hji] at hj
      exact ⟨hji, hj⟩
  refine hreleased.withOwner ?_ (fun j k' hj heq => ?_) fun hmem => ?_
  · intro hcommand
    have howned := h.owned i k hi
    rw [hcommand, h.command] at howned
    simp at howned
  · obtain ⟨hne, hj⟩ := hheld hj
    have hfd : (l.clientPool j).fd = (s.loop.clientPool j).fd := by
      rw [hpool]
      exact congrArg EventLoop.DaemonClient.fd (EventLoop.setClient_of_ne s.loop _ hne)
    exact hne (h.distinct hj hi (hfd.symm.trans heq))
  · have hmem' : (s.loop.clientPool i).fd ∈ l.rds := hmem
    rw [hrds] at hmem'
    exact absurd hmem' (Finset.notMem_erase _ _)

/-- **A client whose request is read.** -/
theorem Inv.process (h : Inv commandFd s) {p : Polled} {i : Slot} {read : ReadResult} {n : ℕ}
    {t : State} (hclearing : s.clearing = none) (hused : (s.loop.clientPool i).used = true)
    (hdone : ∀ ret request,
      Requests.processCommand (s.loop.clientPool i).request read = .returned ret request →
        ret < 0 → s.Quiet i)
    (hprocess : s.process commandFd p i read n = .state t) : Inv commandFd t := by
  obtain ⟨k, hk⟩ := (h.used i).mp hused
  have hstart : Inv commandFd ({ s with polled := none }.access i k true) :=
    (h.withPolled (.inl rfl)).access hk true
  rw [State.process] at hprocess
  simp only [hk, Option.getD_some] at hprocess
  cases hcommand : Requests.processCommand (s.loop.clientPool i).request read with
  | exited =>
    rw [hcommand] at hprocess
    cases hprocess
  | started request =>
    rw [hcommand] at hprocess
    cases hprocess
    exact hstart.started rfl hk n request
  | returned ret request =>
    rw [hcommand] at hprocess
    have hset := hstart.setRequest i request
    rcases EventLoop.processCommand_returned hcommand with rfl | rfl | rfl
    · cases hprocess
      exact hset.done hclearing hk (hdone _ _ hcommand (by decide)) rfl rfl
    · cases hprocess
      exact hset.withClearing rfl hk
    · cases hprocess
      refine hset.withLoop (fun j => ⟨rfl, rfl, hset.unmarked j⟩) fun fd hfd => ?_
      rcases Finset.mem_insert.mp hfd with rfl | hfd
      · exact .inl h.command
      · exact hset.watched fd hfd

theorem process_ne_undefined (commandFd : ℕ) (s : State) (p : Polled) (i : Slot)
    (read : ReadResult) (n : ℕ) : s.process commandFd p i read n ≠ .undefined := by
  rw [State.process]
  cases Requests.processCommand (s.loop.clientPool i).request read with
  | exited => simp
  | started request => simp
  | returned ret request =>
    simp only []
    split
    · simp
    · obtain ⟨r, l, hfinish⟩ := EventLoop.finishScan_returned commandFd
        (({ s with polled := none }.access i ((s.holder i).getD 0) true).setRequest i request).loop
        p.set (Requests.processClientFds ret) (some i)
      rw [hfinish]
      simp

/-- The behaviour of a round is only undefined when `accept()` fails. -/
theorem scan_ne_undefined {p : Polled} {accepted : Option ℕ} {read : ReadResult} {n : ℕ}
    (hsound : RoundSound commandFd s p accepted read) :
    s.scan commandFd p accepted read n ≠ .undefined := by
  rw [State.scan.eq_def]
  split
  · simp
  rename_i herr
  cases hfailing : s.loop.failing p with
  | some i => simp
  | none =>
    simp only []
    split
    · rename_i hcommand
      obtain ⟨newFd, rfl⟩ :=
        Option.ne_none_iff_exists'.mp (hsound.accepted ⟨herr, hfailing⟩ hcommand).1
      simp
    split
    · simp
    cases s.loop.readable p.set with
    | none => simp
    | some i => exact process_ne_undefined commandFd s p i read n

/-- **A round of the main loop** that meets the condition. -/
theorem Inv.scan (h : Inv commandFd s) {p : Polled} {accepted : Option ℕ} {read : ReadResult}
    {n : ℕ} {t : State} (hpolled : s.polled = some p)
    (hfree : ∀ fd, accepted = some fd → s.owner fd = .free)
    (hsound : RoundSound commandFd s p accepted read)
    (hscan : s.scan commandFd p accepted read n = .state t) : Inv commandFd t := by
  have hclearing : s.clearing = none := h.idle p hpolled
  have hidle : Inv commandFd { s with polled := none } := h.withPolled (.inl rfl)
  rcases scan_cases hscan with ⟨-, rfl⟩ | ⟨i, hfailing, rfl⟩ | ⟨hscans, hcase⟩
  · exact hidle
  · exact hidle.released hclearing (hsound.failing i hfailing) rfl (Finset.Subset.refl _)
  rcases hcase with ⟨hcommand, newFd, rfl, rfl⟩ | ⟨-, -, rfl⟩ | ⟨-, -, -, rfl⟩ |
    ⟨i, hcommand, hexcept, hreadable, hprocessed⟩
  · obtain ⟨-, hslot⟩ := hsound.accepted hscans hcommand
    exact h.accept (hfree newFd rfl) hclearing hslot
  · exact hidle
  · exact hidle
  · have hfound := findSlot_eq_some hreadable
    simp only [Bool.and_eq_true] at hfound
    exact h.process hclearing hfound.1
      (fun ret request hprocess =>
        hsound.done hscans hcommand hexcept i ret request hreadable hprocess) hprocessed

/-- The descriptor of a client is cleared. -/
theorem Inv.clear (h : Inv commandFd s) {i : Slot} {k : ℕ} (hclearing : s.clearing = some (i, k)) :
    Inv commandFd (s.clear i k) :=
  have haccess := h.access (h.clearing i k hclearing) true
  { haccess.withLoop (l := s.loop.clearFd (s.loop.clientPool i).fd)
      (fun j => ⟨rfl, rfl, h.unmarked j⟩)
      (fun fd hfd => haccess.watched fd (Finset.mem_of_mem_erase hfd)) with
    clearing := fun j k' hj => by
      have hnone : none = some (j, k') := hj
      simp at hnone
    idle := fun _ _ => rfl }

/-! ### The servers -/

theorem Inv.connectServer (h : Inv commandFd s) {fd : ℕ} (hfree : s.owner fd = .free) :
    Inv commandFd
      { s with loop := s.loop.addFd fd, owner := Function.update s.owner fd .server } := by
  obtain ⟨hcommand, hslot, hnot⟩ := h.free hfree
  have hopened := h.withOwner (o := .server) hcommand hslot fun _ => rfl
  refine hopened.withLoop (fun i => ⟨rfl, rfl, h.unmarked i⟩) fun j hj => ?_
  rcases Finset.mem_insert.mp hj with rfl | hj
  · exact .inr (.inl (Function.update_self j _ s.owner))
  · exact hopened.watched j hj

theorem Inv.disconnectServer (h : Inv commandFd s) {fd : ℕ} (hserver : s.owner fd = .server) :
    Inv commandFd ({ s with loop := s.loop.rmFd fd }.close fd) := by
  refine (h.rmFd fd).withOwner ?_ (fun i k hi heq => ?_) fun hmem => ?_
  · rintro rfl
    have hcommand := h.command
    simp [hserver] at hcommand
  · have howned := h.owned i k hi
    rw [show (s.loop.clientPool i).fd = fd from heq, hserver] at howned
    simp at howned
  · exact absurd hmem (Finset.notMem_erase fd s.loop.rds)

/-! ### The threads -/

/-- `continue_client_connection()` registers the descriptor of the connection. -/
theorem Inv.continueClient (h : Inv commandFd s) {n : ℕ} {t : Thread} (ht : s.threads n = some t) :
    Inv commandFd (s.continueClient n t) := by
  obtain ⟨hholder, -⟩ := h.threads n t ht
  have haccess := h.access hholder true
  rw [State.continueClient]
  have hunmarked : ((s.access t.slot t.connection true).loop.clientPool t.slot).toremove = false :=
    h.unmarked t.slot
  simp only [hunmarked, Bool.false_eq_true, if_false]
  have hadded := haccess.withLoop (l := s.loop.addFd (s.loop.clientPool t.slot).fd)
    (fun i => ⟨rfl, rfl, h.unmarked i⟩) fun fd hfd => haccess.legit hholder hfd
  exact hadded.advance n hholder (.inr (.inl rfl))

/-- On descriptor 0 `close_client_connection()` only does the same. -/
theorem Inv.closeClient (h : Inv commandFd s) {n : ℕ} {t : Thread} (ht : s.threads n = some t)
    (hfd : (s.loop.clientPool t.slot).fd = 0) : Inv commandFd (s.closeClient n t) := by
  obtain ⟨hholder, -⟩ := h.threads n t ht
  let s' := (s.access t.slot t.connection true).setRequest t.slot
    { (s.loop.clientPool t.slot).request with a := 0, incomingSize := 0 }
  have hset : Inv commandFd s' := (h.access hholder true).setRequest t.slot _
  have hslot : (s'.loop.clientPool t.slot).fd = (s.loop.clientPool t.slot).fd :=
    (setRequest_pool (s.access t.slot t.connection true) t.slot _ h.unmarked t.slot).2.1
  have hadded := hset.withLoop (l := s'.loop.addFd (s.loop.clientPool t.slot).fd)
    (fun i => ⟨rfl, rfl, hset.unmarked i⟩) fun fd hmem => hset.legit hholder (by
      rw [hslot]
      exact hmem)
  have hnext : s.closeClient n t =
      { s' with loop := s'.loop.addFd (s.loop.clientPool t.slot).fd }.advance n t
        (if (s.loop.clientPool t.slot).fd = 0 then .ending else .added) := rfl
  rw [hnext, if_pos hfd]
  exact hadded.advance n hholder (.inr (.inr rfl))

/-- The rest of a thread that has not begun to close its connection. -/
theorem Inv.next (h : Inv commandFd s) {n : ℕ} {t : Thread} (ht : s.threads n = some t)
    (hstage : t.stage ≠ .working) : Inv commandFd (s.next n t) := by
  obtain ⟨hholder, hwhere⟩ := h.threads n t ht
  have haccess := h.access hholder false
  rw [State.next]
  rcases hwhere with hworking | hrearmed | hending
  · exact absurd hworking hstage
  · simp only [hrearmed]
    exact (haccess.setRequest t.slot _).advance n hholder (.inr (.inr rfl))
  · simp only [hending]
    exact haccess.withoutThread n

end

/-! ## Runs -/

/-- Every step that meets the condition keeps the invariant. -/
theorem inv_step {commandFd : ℕ} {s t : State} {a : Action}
    (hstep : Guarded (Sound commandFd) (Step commandFd) s a t) (h : Inv commandFd s) :
    Inv commandFd t := by
  obtain ⟨hsound, hstep⟩ := hstep
  cases hstep with
  | connectServer hfree => exact h.connectServer hfree
  | disconnectServer hserver => exact h.disconnectServer hserver
  | select hpolled hclearing => exact h.withPolled (.inr hclearing)
  | selectFails hpolled hclearing => exact h.withPolled (.inr hclearing)
  | serve hpolled => exact h.withPolled (.inl rfl)
  | scan hpolled hfree _ hscan => exact h.scan hpolled hfree (hsound _ hpolled) hscan
  | undefined hpolled hscan => exact absurd hscan (scan_ne_undefined (hsound _ hpolled))
  | clear hclearing => exact h.clear hclearing
  | respond ht hstage => exact h.access (h.threads _ _ ht).1 true
  | continueClient ht hstage => exact h.continueClient ht
  | closeClient ht hstage => exact h.closeClient ht (hsound _ ht)
  | leave ht hstage => exact h.advance _ (h.threads _ _ ht).1 (.inr (.inr rfl))
  | next ht hstage => exact h.next ht hstage

/-- **The pool is kept** in every state of a run whose steps meet the condition. -/
theorem kept_of_sound {commandFd : ℕ} {as : List Action} {s : State}
    (hrun : Run (Guarded (Sound commandFd) (Step commandFd)) (State.init commandFd) as s) :
    Kept s :=
  (hrun.invariant (Inv commandFd) (fun _ _ _ => inv_step) (inv_init commandFd)).kept

/-! ### Connections -/

section

variable {commandFd fd : ℕ} {s : State}

/-- `pselect()` reports the command socket, and a connection is accepted. -/
theorem accept_scan (hfree : s.owner fd = .free) (hthread : s.threads 0 = none) :
    Step commandFd { s with polled := some ⟨{commandFd}, ∅, false⟩ } (.scan (some fd) .failed 0)
      (s.accept fd) := by
  refine .scan rfl (fun fd' hfd' => Option.some.inj hfd' ▸ hfree) hthread ?_
  have hset : commandFd ∈ ({commandFd} : Finset ℕ) := Finset.mem_singleton_self commandFd
  rw [State.scan.eq_def]
  simp only [Bool.false_eq_true, false_and, if_false, Loop.failing, Bool.false_and, if_pos hset]
  rfl

/-- Connections, one after the other. -/
theorem accepts_run (fds : List ℕ) (hpolled : s.polled = none) (hclearing : s.clearing = none)
    (hthread : s.threads 0 = none) (hcommand : commandFd ∈ s.loop.rds) (hnodup : fds.Nodup)
    (hfree : ∀ fd ∈ fds, s.owner fd = .free) :
    Run (Step commandFd) s
      (fds.flatMap fun fd => [.select {commandFd} ∅, .scan (some fd) .failed 0])
      (fds.foldl State.accept s) := by
  induction fds generalizing s with
  | nil => exact .nil s
  | cons fd fds ih =>
    obtain ⟨hnot, hnodup⟩ := List.nodup_cons.mp hnodup
    have hselect : Step commandFd s (.select {commandFd} ∅)
        { s with polled := some ⟨{commandFd}, ∅, false⟩ } :=
      .select hpolled hclearing (Finset.singleton_subset_iff.mpr hcommand) (Finset.empty_subset _)
    refine .cons hselect (.cons (accept_scan (hfree fd (List.mem_cons_self ..)) hthread) ?_)
    refine ih rfl hclearing hthread ?_ hnodup fun fd' hfd' => ?_
    · refine Finset.mem_insert_of_mem ?_
      rw [Loop.addClient]
      cases findSlot fun i => !(s.loop.clientPool i).used <;> exact hcommand
    · have hne : fd' ≠ fd := fun heq => hnot (heq ▸ hfd')
      exact (Function.update_of_ne hne _ s.owner).trans (hfree fd' (List.mem_cons_of_mem _ hfd'))

end

theorem kept_of_closing : ∃ s,
    Run (Guarded (Sound 3) (Step 3)) (State.init 3)
      [.select {3} ∅, .scan (some 5) .failed 0, .select {5} ∅, .scan none .closed 0] s ∧
        Kept s := by
  have hrun : ∃ s, Run (Guarded (Sound 3) (Step 3)) (State.init 3)
      [.select {3} ∅, .scan (some 5) .failed 0, .select {5} ∅, .scan none .closed 0] s := by
    refine ⟨_, .consGuarded (.select rfl rfl (by decide) (by decide)) trivial
      (.consGuarded (accept_scan (by decide) rfl) ?_
        (.consGuarded (.select rfl rfl (by decide) (by decide)) trivial
          (.consGuarded (.scan rfl (by simp) rfl rfl) ?_ (.nil _))))⟩
    · rintro p hp
      obtain rfl := Option.some.inj hp
      exact ⟨fun i hi => by simp [Loop.failing] at hi, fun _ _ => ⟨by simp, by decide⟩,
        fun _ hnot => absurd (by decide) hnot⟩
    · rintro p hp
      obtain rfl := Option.some.inj hp
      exact ⟨fun i hi => by simp [Loop.failing] at hi, fun _ hmem => absurd hmem (by decide),
        fun _ _ _ i ret request _ _ _ n t ht => by simp [State.accept, State.init] at ht⟩
  obtain ⟨s, hrun⟩ := hrun
  exact ⟨s, hrun, kept_of_sound hrun⟩

/-- **More connections than slots**: the last one is watched and never closed. -/
theorem eleventh_client_is_watched :
    ¬∀ (as : List Action) (s : State), Run (Step 3) (State.init 3) as s → Kept s := by
  intro h
  have hrun : Run (Step 3) (State.init 3) _ _ :=
    accepts_run (List.range' 4 11) rfl rfl rfl (by decide) (by decide) (by decide)
  have hrefused : 10 ∈ ((List.range' 4 11).foldl State.accept (State.init 3)).refused := by decide
  exact (h _ _ hrun).refused 10 hrefused 14 (by decide)

end ClientPool
end Daemon
end Afpfs
