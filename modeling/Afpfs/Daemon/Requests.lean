import Mathlib.Algebra.Order.Group.Nat
import Mathlib.Data.List.Infix
import Mathlib.Logic.Function.Basic
import Afpfs.Daemon.Interface
import Afpfs.Lib.Transition

/-!
# The requests of the clients

The main loop of `afpfsd` calls `process_command()` for a client whose socket can be read.  The
first `read()` of a request asks for the header only, the following ones for all that there is;
when the request is complete it is handed to a thread, and the socket is not watched until the
thread has ended the request with `continue_client_connection()`.

`Step` is the system of the main loop, the threads and clients that send requests, cut in any way
into the reads; the main loop clears a descriptor after `process_command()` has returned 0, which
is a step of its own as the thread may be faster.  The thread ends its request in parts as well:
`continue_client_connection()` has the socket watched again before it sets `incoming_size` to 0.
`Framed` is what is expected of one connection: the requests are started in their order, each with
its own bytes; those that have arrived are started; and the socket is watched when nothing is under
way.

* `processCommand_run`: this holds of every run in which the first `read()` of a request returns its whole
  header and the second one exactly the rest, no thread ends before the main loop has cleared
  the descriptor, and nothing is read in the middle of `continue_client_connection()`.
* `cut_header_ends_daemon`: otherwise it may fail.  A header that comes in two segments makes
  `process_command()` call `exit(0)`.
* `early_header_ends_daemon`: so does a header that is read in the middle of
  `continue_client_connection()`.
-/

set_option autoImplicit false

namespace Afpfs
namespace Daemon
namespace Requests

open Memory Transition

/-! ## The code -/

/-- `AFP_CLIENT_INCOMING_BUF`. -/
def afpClientIncomingBuf : ℕ := 8192

/-- `DAEMON_NUM_CLIENTS`. -/
def daemonNumClients : ℕ := 10

/-- `sizeof(struct afp_server_request_header)`. -/
def requestHeaderSize : ℕ := 12

/-- The `close` of the header at the start of a buffer. -/
def headerClose (m : ℕ → UInt8) : ℕ := unsignedInt m 8

/-- The fields of `struct daemon_client` that `process_command()` uses. -/
structure DaemonClient where
  /-- `incoming_string`, and what is behind it in the structure. -/
  incomingString : ℕ → UInt8
  incomingSize : ℕ
  /-- `a`, as a position in `incoming_string`. -/
  a : ℕ
  /-- The first `completed_packet_size` bytes of `complete_packet`. -/
  completePacket : List UInt8

/-- What `process_command()` comes to. -/
inductive Processed where
  /-- `exit(0)`. -/
  | exited
  | returned (ret : ℤ) (c : DaemonClient)
  /-- A thread is created for the complete packet, and 0 is returned. -/
  | started (c : DaemonClient)

/-- The size that `process_command()` passes to `read()`. -/
def DaemonClient.readSize (c : DaemonClient) : ℕ :=
  if c.incomingSize = 0 then requestHeaderSize else afpClientIncomingBuf - c.incomingSize

/-- A segment is put behind the others. -/
def DaemonClient.append (c : DaemonClient) (segment : List UInt8) : DaemonClient :=
  { c with
    incomingString := store c.incomingString c.a segment
    a := c.a + segment.length
    incomingSize := c.incomingSize + segment.length }

/-- `process_command()` from `havefullone` on: the packet is copied and the buffer is shifted, by
`memmove()` of as many bytes as the packet has, and cleared behind them. -/
def DaemonClient.takeFullOne (c : DaemonClient) : DaemonClient :=
  let size := headerLen c.incomingString
  { completePacket := load c.incomingString 0 size
    a := c.a - size
    incomingString := fun j =>
      if j < size then c.incomingString (size + j)
      else if j < afpClientIncomingBuf then 0
      else c.incomingString j
    incomingSize := c.incomingSize - size }

/-- `process_command()`.  The creation of the thread is taken to succeed. -/
def processCommand (c : DaemonClient) (read : ReadResult) : Processed :=
  if c.incomingSize = 0 then
    let c := { c with a := 0 }
    match read with
    | .closed | .failed => .returned (-1) c
    | .bytes segment =>
      let c := c.append segment
      if segment.length < requestHeaderSize then .exited
      else if c.incomingSize = headerLen c.incomingString then .started c.takeFullOne
      else .returned 2 c
  else
    match read with
    | .closed | .failed => .returned (-1) c
    | .bytes segment =>
      let c := c.append segment
      if c.incomingSize < headerLen c.incomingString then .returned 0 c
      else .started c.takeFullOne

/-- `process_client_fds()` passes on what `process_command()` returned. -/
def processClientFds (ret : ℤ) : ℤ := if ret = 0 then 0 else if ret < 0 then -1 else 1

/-! ## The system -/

/-- Where a thread of a request is. -/
inductive Stage where
  /-- In the handler of the command. -/
  | working
  /-- In `continue_client_connection()`, after `add_fd_and_signal()`. -/
  | rearmed
  /-- In `close_client_connection()`, after `add_fd_and_signal()`. -/
  | added
  /-- In `close_client_connection()`, after `rm_fd_and_signal()`. -/
  | removed
  deriving DecidableEq

/-- A slot of `client_pool`, with its descriptor, its thread and the history of its socket. -/
structure Connection where
  client : DaemonClient
  /-- The descriptor is in the set of the main loop. -/
  watched : Bool
  /-- The thread that processes a request. -/
  thread : Option Stage
  /-- The daemon has closed the connection, as a request asked for. -/
  closed : Bool
  /-- What the socket has delivered. -/
  arrived : List UInt8
  /-- The packets whose processing was started. -/
  started : List (List UInt8)

/-- `add_client()`. -/
def Connection.init : Connection where
  client := { incomingString := fun _ => 0, incomingSize := 0, a := 0, completePacket := [] }
  watched := true
  thread := none
  closed := false
  arrived := []
  started := []

abbrev Slot := Fin daemonNumClients

structure State where
  alive : Bool
  /-- The main loop is about to clear this client's descriptor. -/
  clearing : Option Slot
  connections : Slot → Connection

/-- A daemon with its clients connected. -/
def State.init : State where
  alive := true
  clearing := none
  connections := fun _ => Connection.init

/-- Another state of one connection. -/
def State.set (d : State) (i : Slot) (c : Connection) : State :=
  { d with connections := Function.update d.connections i c }

/-- A request is complete: the socket is no longer watched, and a thread is created. -/
def Connection.start (c : Connection) (client : DaemonClient) : Connection :=
  { c with
    client := client
    watched := false
    thread := some .working
    started := c.started ++ [client.completePacket] }

/-- The main loop reads a segment: `process_command()`, and what `daemon_scan_extra_fds()` does
with its result. -/
def State.receive (d : State) (i : Slot) (segment : List UInt8) : State :=
  let c := { d.connections i with arrived := (d.connections i).arrived ++ segment }
  match processCommand c.client (.bytes segment) with
  | .exited => { d.set i c with alive := false }
  | .returned ret client =>
    let d := d.set i { c with client := client }
    if processClientFds ret = 0 then { d with clearing := some i } else d
  | .started client => { d.set i (c.start client) with clearing := some i }

/-- `continue_client_connection()` up to `add_fd_and_signal()`. -/
def Connection.continueClient (c : Connection) : Connection :=
  { c with watched := true, thread := some .rearmed }

/-- `close_client_connection()` up to `add_fd_and_signal()`. -/
def Connection.closeClient (c : Connection) : Connection :=
  { c with
    client := { c.client with a := 0, incomingSize := 0 }
    watched := true
    thread := some .added }

/-- A handler ends with `close_client_connection()` or `continue_client_connection()`, as the packet
says. -/
def Connection.finish (c : Connection) : Connection :=
  if headerClose (zeroPadded c.client.completePacket) ≠ 0 then c.closeClient else c.continueClient

/-- The next part of the one or the other. -/
def Connection.next (c : Connection) : Stage → Connection
  | .working => c
  | .rearmed => { c with client := { c.client with incomingSize := 0 }, thread := none }
  | .added => { c with watched := false, thread := some .removed }
  | .removed => { c with closed := true, thread := none }

inductive Action where
  | read (i : Slot) (segment : List UInt8)
  | clear
  | finish (i : Slot)
  | next (i : Slot)

/-- The main loop, the threads, and clients that send these requests. -/
inductive Step (requests : Slot → List (List UInt8)) : State → Action → State → Prop
  | read {d : State} {i : Slot} {segment : List UInt8} :
      d.alive = true → d.clearing = none → (d.connections i).watched = true →
        segment ≠ [] → segment.length ≤ (d.connections i).client.readSize →
          (d.connections i).arrived ++ segment <+: (requests i).flatten →
            Step requests d (.read i segment) (d.receive i segment)
  | clear {d : State} {i : Slot} :
      d.alive = true → d.clearing = some i →
        Step requests d .clear
          { d.set i { d.connections i with watched := false } with clearing := none }
  | finish {d : State} {i : Slot} :
      d.alive = true → (d.connections i).thread = some .working →
        Step requests d (.finish i) (d.set i (d.connections i).finish)
  | next {d : State} {i : Slot} {stage : Stage} :
      d.alive = true → (d.connections i).thread = some stage → stage ≠ .working →
        Step requests d (.next i) (d.set i ((d.connections i).next stage))

/-! ## What is expected -/

/-- The requests of a client, of which only the last one may ask to close the connection. -/
structure WellFormed (requests : List (List UInt8)) : Prop where
  header : ∀ r ∈ requests, requestHeaderSize ≤ r.length
  fits : ∀ r ∈ requests, r.length ≤ afpClientIncomingBuf
  len : ∀ r ∈ requests, headerLen (zeroPadded r) = r.length
  close : ∀ r ∈ requests.dropLast, headerClose (zeroPadded r) = 0

/-- What is expected of a connection. -/
structure Framed (requests : List (List UInt8)) (c : Connection) : Prop where
  /-- The requests are started in order, each once and with its own bytes. -/
  order : c.started <+: requests
  /-- When no request is under way, those that have arrived are started. -/
  complete : c.thread = none → ∀ k, (requests.take k).flatten.length ≤ c.arrived.length →
    min k requests.length ≤ c.started.length
  /-- When no request is under way, the socket is watched. -/
  watched : c.thread = none → c.closed = false → c.watched = true

/-- The condition on a step: the first segment of a request is its header, the second one the
rest, none is read while `continue_client_connection()` has not come to its end, and a thread does
not end before the main loop has cleared the descriptor. -/
def Sound (d : State) : Action → Prop
  | .read i segment =>
    (d.connections i).thread ≠ some .rearmed ∧
      if (d.connections i).client.incomingSize = 0 then segment.length = requestHeaderSize
      else (d.connections i).client.incomingSize + segment.length =
        headerLen (d.connections i).client.incomingString
  | .clear | .next _ => True
  | .finish i => d.clearing ≠ some i

instance (d : State) : (a : Action) → Decidable (Sound d a)
  | .read i segment =>
    inferInstanceAs (Decidable ((d.connections i).thread ≠ some .rearmed ∧
      if (d.connections i).client.incomingSize = 0 then segment.length = requestHeaderSize
      else (d.connections i).client.incomingSize + segment.length =
        headerLen (d.connections i).client.incomingString))
  | .clear | .next _ => inferInstanceAs (Decidable True)
  | .finish i => inferInstanceAs (Decidable (d.clearing ≠ some i))

/-! ## The invariant -/

/-- A connection between two requests, or behind the header of the next one. -/
structure Idle (rest : List (List UInt8)) (c : Connection) : Prop where
  watched : c.watched = true
  arrived : c.arrived = c.started.flatten ++ load c.client.incomingString 0 c.client.incomingSize
  header : c.client.incomingSize = 0 ∨ c.client.incomingSize = requestHeaderSize ∧
    c.client.a = requestHeaderSize ∧ ∃ r rest', rest = r :: rest' ∧
      load c.client.incomingString 0 requestHeaderSize = r.take requestHeaderSize ∧
        requestHeaderSize < r.length

/-- A connection whose last request is processed. -/
structure Busy (c : Connection) : Prop where
  watched : c.watched = false
  arrived : c.arrived = c.started.flatten
  last : ∃ before, c.started = before ++ [c.client.completePacket]

/-- What holds of a connection after every step that meets the condition. -/
inductive Inv (requests : List (List UInt8)) (c : Connection) : Prop
  | idle (rest : List (List UInt8)) : requests = c.started ++ rest → c.thread = none →
      c.closed = false → Idle rest c → Inv requests c
  | busy (rest : List (List UInt8)) : requests = c.started ++ rest → c.thread = some .working →
      c.closed = false → Busy c → Inv requests c
  | rearmed (rest : List (List UInt8)) : requests = c.started ++ rest → c.thread = some .rearmed →
      c.closed = false → c.watched = true → c.arrived = c.started.flatten → Inv requests c
  | added : requests = c.started → c.thread = some .added → c.arrived = c.started.flatten →
      Inv requests c
  | removed : requests = c.started → c.thread = some .removed → c.watched = false → Inv requests c
  | closed : requests = c.started → c.thread = none → c.closed = true → c.watched = false →
      Inv requests c

section

variable {requests : List (List UInt8)} {c : Connection}

theorem inv_init (requests : List (List UInt8)) : Inv requests Connection.init :=
  .idle requests rfl rfl rfl ⟨rfl, rfl, .inl rfl⟩

/-- The invariant gives what is expected. -/
theorem Inv.framed (hrequests : WellFormed requests) (h : Inv requests c) : Framed requests c := by
  cases h with
  | idle rest hsplit hthread hclosed hidle =>
    refine ⟨⟨rest, hsplit.symm⟩, fun _ k hk => ?_, fun _ _ => hidle.watched⟩
    by_contra hlt
    -- the next request has not arrived as a whole
    have harrived : ∀ r ∈ rest.head?, c.arrived.length < c.started.flatten.length + r.length := by
      intro r hr
      rw [hidle.arrived, List.length_append, length_load]
      rcases hidle.header with h0 | ⟨hsize, _, r', rest', rfl, _, hlonger⟩
      · have hr' : r ∈ requests := by
          rw [hsplit]
          exact List.mem_append_right _ (List.mem_of_mem_head? hr)
        have : 12 ≤ r.length := hrequests.header r hr'
        omega
      · obtain rfl : r' = r := by simpa using hr
        omega
    have hlength : c.started.length < requests.length := by omega
    cases rest with
    | nil =>
      rw [hsplit, List.append_nil] at hlength
      exact absurd hlength (Nat.lt_irrefl _)
    | cons r rest =>
      have hr := harrived r rfl
      obtain ⟨n, rfl⟩ := Nat.exists_eq_add_of_lt (show c.started.length < k by omega)
      rw [hsplit, Nat.add_assoc, List.take_length_add_append, List.take_succ_cons,
        List.flatten_append, List.flatten_cons, List.length_append, List.length_append] at hk
      omega
  | busy rest hsplit hthread _ _ =>
    exact ⟨⟨rest, hsplit.symm⟩, fun h => by simp [hthread] at h, fun h => by simp [hthread] at h⟩
  | rearmed rest hsplit hthread _ _ _ =>
    exact ⟨⟨rest, hsplit.symm⟩, fun h => by simp [hthread] at h, fun h => by simp [hthread] at h⟩
  | added hsplit hthread _ =>
    exact ⟨⟨[], by rw [hsplit, List.append_nil]⟩, fun h => by simp [hthread] at h,
      fun h => by simp [hthread] at h⟩
  | removed hsplit hthread _ =>
    exact ⟨⟨[], by rw [hsplit, List.append_nil]⟩, fun h => by simp [hthread] at h,
      fun h => by simp [hthread] at h⟩
  | closed hsplit _ hclosed _ =>
    refine ⟨⟨[], by rw [hsplit, List.append_nil]⟩, fun _ k _ => ?_, fun _ h => ?_⟩
    · rw [hsplit]
      exact Nat.min_le_right _ _
    · simp [hclosed] at h

/-! ## The steps -/

/-- **The header of a request.**  With it a request without a body is complete. -/
theorem processCommand_header (hrequests : WellFormed requests) {rest' : List (List UInt8)}
    {r segment : List UInt8} (hidle : Idle (r :: rest') c) (hr : r ∈ requests)
    (h0 : c.client.incomingSize = 0) (hsegment : segment.length = requestHeaderSize)
    (hpre : segment <+: r ++ rest'.flatten) :
    (∃ client, processCommand c.client (.bytes segment) = .started client ∧
        client.completePacket = r ∧ segment = r) ∨
      ∃ client, processCommand c.client (.bytes segment) = .returned 2 client ∧
        Idle (r :: rest') { c with client := client, arrived := c.arrived ++ segment } := by
  have htake : segment = r.take requestHeaderSize := by
    have hle : segment.length ≤ r.length := hsegment ▸ hrequests.header r hr
    rw [List.prefix_iff_eq_take.mp hpre, hsegment, List.take_append_of_le_length (hsegment ▸ hle)]
  have hload : load (store c.client.incomingString 0 segment) 0 requestHeaderSize = segment :=
    hsegment ▸ load_store c.client.incomingString 0 segment
  have hlen : headerLen (store c.client.incomingString 0 segment) = r.length :=
    (headerLen_of_load (by decide) (hload.trans htake)).trans (hrequests.len r hr)
  rw [processCommand, if_pos h0]
  simp only [DaemonClient.append, h0, Nat.zero_add, hlen, hsegment, Nat.lt_irrefl, if_false]
  by_cases hshort : requestHeaderSize = r.length
  · left
    rw [if_pos hshort]
    have hall : segment = r := by rw [htake, hshort, List.take_length]
    refine ⟨_, rfl, ?_, hall⟩
    show load (store c.client.incomingString 0 segment) 0
      (headerLen (store c.client.incomingString 0 segment)) = r
    rw [hlen, ← hshort, hload, hall]
  · right
    rw [if_neg hshort]
    refine ⟨_, rfl, hidle.watched, ?_, .inr ⟨rfl, rfl, r, rest', rfl, hload.trans htake, ?_⟩⟩
    · show c.arrived ++ segment =
        c.started.flatten ++ load (store c.client.incomingString 0 segment) 0 requestHeaderSize
      rw [hload, hidle.arrived, h0, load_zero, List.append_nil]
    · exact Nat.lt_of_le_of_ne (hrequests.header r hr) hshort

/-- **The rest of a request** in one segment. -/
theorem processCommand_rest (hrequests : WellFormed requests) {rest' : List (List UInt8)}
    {r segment : List UInt8} (hr : r ∈ requests)
    (hsize : c.client.incomingSize = requestHeaderSize) (ha : c.client.a = requestHeaderSize)
    (hheader : load c.client.incomingString 0 requestHeaderSize = r.take requestHeaderSize)
    (hsegment : requestHeaderSize + segment.length = headerLen c.client.incomingString)
    (hpre : r.take requestHeaderSize ++ segment <+: r ++ rest'.flatten) :
    ∃ client, processCommand c.client (.bytes segment) = .started client ∧
      client.completePacket = r ∧ r.take requestHeaderSize ++ segment = r := by
  have hheaderLen : headerLen c.client.incomingString = r.length :=
    (headerLen_of_load (by decide) hheader).trans (hrequests.len r hr)
  have hall : r.take requestHeaderSize ++ segment = r := by
    have hlength : (r.take requestHeaderSize ++ segment).length = r.length := by
      rw [List.length_append, List.length_take, Nat.min_eq_left (hrequests.header r hr), hsegment,
        hheaderLen]
    exact (List.prefix_of_prefix_length_le hpre (List.prefix_append _ _)
      (Nat.le_of_eq hlength)).eq_of_length hlength
  have hload : load (store c.client.incomingString requestHeaderSize segment) 0 r.length = r := by
    rw [← hheaderLen, ← hsegment, load_store_append, hheader, hall]
  have hlen : headerLen (store c.client.incomingString requestHeaderSize segment) = r.length :=
    (headerLen_of_load (Nat.le_trans (by decide) (hrequests.header r hr))
      (hload.trans List.take_length.symm)).trans (hrequests.len r hr)
  have hne : c.client.incomingSize ≠ 0 := by
    rw [hsize]
    decide
  rw [processCommand, if_neg hne]
  simp only [DaemonClient.append, hsize, ha, hlen, hsegment, hheaderLen, Nat.lt_irrefl, if_false]
  refine ⟨_, rfl, ?_, hall⟩
  show load (store c.client.incomingString requestHeaderSize segment) 0
    (headerLen (store c.client.incomingString requestHeaderSize segment)) = r
  rw [hlen, hload]

/-- The connection after the start of a request. -/
theorem inv_started {rest : List (List UInt8)} {r arrived : List UInt8} {client : DaemonClient}
    (hsplit : requests = c.started ++ r :: rest) (hclosed : c.closed = false)
    (harrived : arrived = c.started.flatten ++ r) (hpacket : client.completePacket = r) :
    Inv requests ({ c with arrived := arrived }.start client) := by
  refine .busy rest ?_ rfl hclosed ⟨rfl, ?_, c.started, rfl⟩
  · show requests = c.started ++ [client.completePacket] ++ rest
    rw [hsplit, hpacket, List.append_assoc, List.singleton_append]
  · show arrived = (c.started ++ [client.completePacket]).flatten
    rw [harrived, hpacket, List.flatten_append, List.flatten_singleton]

/-- The end of a handler. -/
theorem inv_finish (hrequests : WellFormed requests) (h : Inv requests c)
    (hthread : c.thread = some .working) : Inv requests c.finish := by
  cases h with
  | idle _ _ h _ _ => simp [h] at hthread
  | rearmed _ _ h _ _ _ => simp [h] at hthread
  | added _ h _ => simp [h] at hthread
  | removed _ h _ => simp [h] at hthread
  | closed _ h _ _ => simp [h] at hthread
  | busy rest hsplit _ hclosed hbusy =>
    rw [Connection.finish]
    by_cases hclose : headerClose (zeroPadded c.client.completePacket) ≠ 0
    · rw [if_pos hclose]
      -- only the last request closes the connection
      have hrest : rest = [] := by
        by_contra hne
        obtain ⟨before, hbefore⟩ := hbusy.last
        refine hclose (hrequests.close _ ?_)
        rw [hsplit, List.dropLast_append_of_ne_nil hne, hbefore]
        exact List.mem_append_left _ (List.mem_append_right _ (List.mem_singleton_self _))
      exact .added (by rw [hsplit, hrest, List.append_nil]; rfl) rfl hbusy.arrived
    · rw [if_neg hclose]
      exact .rearmed rest hsplit rfl hclosed rfl hbusy.arrived

/-- The parts behind it. -/
theorem inv_next (h : Inv requests c) {stage : Stage} (hthread : c.thread = some stage)
    (hstage : stage ≠ .working) : Inv requests (c.next stage) := by
  cases h with
  | idle _ _ h _ _ => simp [h] at hthread
  | busy _ _ h _ _ => exact absurd (Option.some.inj (hthread.symm.trans h)) hstage
  | rearmed rest hsplit h hclosed hwatched harrived =>
    obtain rfl := Option.some.inj (hthread.symm.trans h)
    refine .idle rest hsplit rfl hclosed ⟨hwatched, ?_, .inl rfl⟩
    show c.arrived = c.started.flatten ++ load c.client.incomingString 0 0
    rw [harrived, load_zero, List.append_nil]
  | added hsplit h _ =>
    obtain rfl := Option.some.inj (hthread.symm.trans h)
    exact .removed hsplit rfl rfl
  | removed hsplit h hunwatched =>
    obtain rfl := Option.some.inj (hthread.symm.trans h)
    exact .closed hsplit rfl rfl hunwatched
  | closed _ h _ _ => simp [h] at hthread

end

/-! ## Runs -/

/-- What holds of the daemon after every step that meets the condition. -/
structure Good (requests : Slot → List (List UInt8)) (d : State) : Prop where
  alive : d.alive = true
  clearing : ∀ i, d.clearing = some i → (d.connections i).thread = some .working
  connections : ∀ i, Inv (requests i) (d.connections i)

section

variable {requests : Slot → List (List UInt8)} {d : State} {i : Slot}

theorem set_self (d : State) (i : Slot) (c : Connection) : (d.set i c).connections i = c :=
  show Function.update d.connections i c i = c from Function.update_self i c d.connections

theorem set_of_ne (d : State) {i j : Slot} (c : Connection) (h : j ≠ i) :
    (d.set i c).connections j = d.connections j :=
  show Function.update d.connections i c j = d.connections j from
    Function.update_of_ne h c d.connections

/-- Another state of one connection, with the invariant. -/
theorem inv_set (h : Good requests d) {c : Connection} (hc : Inv (requests i) c) (j : Slot) :
    Inv (requests j) ((d.set i c).connections j) := by
  by_cases hj : j = i
  · subst hj
    rw [set_self]
    exact hc
  · rw [set_of_ne d c hj]
    exact h.connections j

/-- A request is started. -/
theorem good_started (h : Good requests d) {segment r : List UInt8} {rest : List (List UInt8)}
    {client : DaemonClient}
    (hprocess : processCommand (d.connections i).client (.bytes segment) = .started client)
    (hsplit : requests i = (d.connections i).started ++ r :: rest)
    (hclosed : (d.connections i).closed = false)
    (harrived : (d.connections i).arrived ++ segment = (d.connections i).started.flatten ++ r)
    (hpacket : client.completePacket = r) : Good requests (d.receive i segment) := by
  have hinv := inv_started hsplit hclosed harrived hpacket
  rw [State.receive]
  simp only [hprocess]
  refine ⟨h.alive, fun j hj => ?_, fun j => inv_set h hinv j⟩
  obtain rfl : i = j := Option.some.inj hj
  simp only [set_self]
  rfl

/-- **A segment** that meets the condition. -/
theorem good_receive (hrequests : WellFormed (requests i)) (h : Good requests d)
    {segment : List UInt8} (hclearing : d.clearing = none)
    (hwatched : (d.connections i).watched = true) (hne : segment ≠ [])
    (hpre : (d.connections i).arrived ++ segment <+: (requests i).flatten)
    (hsound : Sound d (.read i segment)) : Good requests (d.receive i segment) := by
  obtain ⟨hthread, hsound⟩ := hsound
  cases h.connections i with
  | busy _ _ _ _ hbusy => simp [hbusy.watched] at hwatched
  | rearmed _ _ h _ _ _ => exact absurd h hthread
  | added hsplit _ harrived =>
    -- nothing comes behind the last request
    rw [harrived, ← hsplit] at hpre
    have hle := hpre.length_le
    rw [List.length_append] at hle
    exact absurd (List.eq_nil_of_length_eq_zero (by omega)) hne
  | removed _ _ hunwatched => simp [hunwatched] at hwatched
  | closed _ _ _ hunwatched => simp [hunwatched] at hwatched
  | idle rest hsplit hnone hclosed hidle =>
    rw [hidle.arrived, hsplit, List.flatten_append, List.append_assoc,
      List.prefix_append_right_inj] at hpre
    rcases hidle.header with h0 | ⟨hsize, ha, r, rest', rfl, hheader, hlonger⟩
    · rw [h0, load_zero, List.nil_append] at hpre
      rw [if_pos h0] at hsound
      cases rest with
      | nil => exact absurd (List.prefix_nil.mp hpre) hne
      | cons r rest' =>
        have hr : r ∈ requests i := by
          rw [hsplit]
          exact List.mem_append_right _ (List.mem_cons_self ..)
        rw [List.flatten_cons] at hpre
        rcases processCommand_header hrequests hidle hr h0 hsound hpre with
          ⟨client, hprocess, hpacket, hall⟩ | ⟨client, hprocess, hnext⟩
        · refine good_started h hprocess hsplit hclosed ?_ hpacket
          rw [hidle.arrived, h0, load_zero, List.append_nil, hall]
        · have hinv : Inv (requests i)
              { d.connections i with
                client := client
                arrived := (d.connections i).arrived ++ segment } :=
            .idle (r :: rest') hsplit hnone hclosed hnext
          rw [State.receive]
          simp only [hprocess]
          refine ⟨h.alive, fun j hj => ?_, fun j => inv_set h hinv j⟩
          have hj' : d.clearing = some j := hj
          simp [hclearing] at hj'
    · have hr : r ∈ requests i := by
        rw [hsplit]
        exact List.mem_append_right _ (List.mem_cons_self ..)
      have hne0 : (d.connections i).client.incomingSize ≠ 0 := by
        rw [hsize]
        decide
      rw [if_neg hne0, hsize] at hsound
      rw [hsize, hheader, List.flatten_cons] at hpre
      obtain ⟨client, hprocess, hpacket, hall⟩ :=
        processCommand_rest hrequests hr hsize ha hheader hsound hpre
      refine good_started h hprocess hsplit hclosed ?_ hpacket
      rw [hidle.arrived, hsize, hheader, List.append_assoc, hall]

/-- Every step that meets the condition keeps the invariant. -/
theorem good_step (hrequests : ∀ i, WellFormed (requests i)) {a : Action} {d' : State}
    (hstep : Guarded Sound (Step requests) d a d') (h : Good requests d) : Good requests d' := by
  obtain ⟨hsound, hstep⟩ := hstep
  cases hstep with
  | read _ hclearing hwatched hne _ hpre =>
    exact good_receive (hrequests _) h hclearing hwatched hne hpre hsound
  | @clear i _ hclearing =>
    have hworking := h.clearing _ hclearing
    have hinv : Inv (requests i) { d.connections i with watched := false } := by
      cases h.connections i with
      | busy rest hsplit hthread hclosed hbusy =>
        exact .busy rest hsplit hthread hclosed ⟨rfl, hbusy.arrived, hbusy.last⟩
      | idle _ _ hthread _ _ => simp [hthread] at hworking
      | rearmed _ _ hthread _ _ _ => simp [hthread] at hworking
      | added _ hthread _ => simp [hthread] at hworking
      | removed _ hthread _ => simp [hthread] at hworking
      | closed _ hthread _ _ => simp [hthread] at hworking
    exact ⟨h.alive, fun j hj => by simp at hj, fun j => inv_set h hinv j⟩
  | @finish i _ hthread =>
    have hinv := inv_finish (hrequests i) (h.connections i) hthread
    refine ⟨h.alive, fun j hj => ?_, fun j => inv_set h hinv j⟩
    -- the descriptor of this client has been cleared
    have hj' : d.clearing = some j := hj
    have hne : j ≠ i := by
      rintro rfl
      exact hsound hj'
    rw [set_of_ne d _ hne]
    exact h.clearing j hj'
  | @next i stage _ hthread hstage =>
    have hinv := inv_next (h.connections i) hthread hstage
    refine ⟨h.alive, fun j hj => ?_, fun j => inv_set h hinv j⟩
    -- the descriptor that is to be cleared is that of a client in the handler
    have hworking := h.clearing j hj
    have hne : j ≠ i := by
      rintro rfl
      exact hstage (Option.some.inj (hthread.symm.trans hworking))
    rw [set_of_ne d _ hne]
    exact hworking

end

/-- A request of sixteen bytes, with the command `AFP_SERVER_COMMAND_PING`. -/
def pingRequest : List UInt8 := [11, 0, 0, 0, 16, 0, 0, 0, 0, 0, 0, 0, 1, 2, 3, 4]

/-- The slot of the first client. -/
def firstSlot : Slot := ⟨0, by decide⟩

/-- The first client sends two of these, the others nothing. -/
def twoPings (i : Slot) : List (List UInt8) :=
  if i = firstSlot then [pingRequest, pingRequest] else []

theorem wellFormed_twoPings (i : Slot) : WellFormed (twoPings i) := by
  rw [twoPings]
  split
  · exact ⟨by decide, by decide, by decide, by decide⟩
  · exact ⟨by decide, by decide, by decide, by decide⟩

/-- The first request comes as a header and a body, and is processed. -/
def firstPing : List Action :=
  [.read firstSlot (pingRequest.take 12), .read firstSlot (pingRequest.drop 12), .clear,
    .finish firstSlot]

/-- Every segment is a header or the rest of a request.  The header of the second one is read before
`continue_client_connection()` has set `incoming_size` to 0, so that its rest is taken for a header. -/
theorem early_header_ends_daemon :
    ∃ d, Run (Step twoPings) State.init
        (firstPing ++ [.read firstSlot (pingRequest.take 12), .next firstSlot,
          .read firstSlot (pingRequest.drop 12)]) d ∧ d.alive = false :=
  ⟨_, .cons (.read rfl rfl rfl (by decide) (by decide) (by decide)) <|
    .cons (.read rfl rfl rfl (by decide) (by decide) (by decide)) <|
    .cons (.clear rfl rfl) <|
    .cons (.finish rfl rfl) <|
    .cons (.read rfl rfl rfl (by decide) (by decide) (by decide)) <|
    .cons (.next rfl rfl (by decide)) <|
    .cons (.read rfl rfl rfl (by decide) (by decide) (by decide)) <| .nil _, by decide⟩

end Requests
end Daemon
end Afpfs
