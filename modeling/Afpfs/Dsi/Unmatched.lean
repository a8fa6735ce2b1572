import Afpfs.Dsi.BufferBounds
import Afpfs.Dsi.Routing
import Afpfs.Server.GetStatus
import Afpfs.Server.Lifecycle

/-!
# Packets that no request waits for

`dsi_recv()` looks up the id of each packet in the queue of requests.  If no request has it and the
packet is a reply, the packet is a runt: it is read, and dropped.  A runt without a body goes to
`process_packet` at once, though, and there only a command is dropped; and a command or a write that
is not a reply is taken for the reply to a request, which is not there.

A `Client` is the server structure with what the functions use that a packet is handed to.  A run is
the calls of `dsi_recv()` until the packet has been consumed, with every way to split the stream.
`Inert` is what is expected of each state of it.

* `inert_of_harmless`: it holds in every run, for a packet that is `Harmless`.
* `inert_iff`: for any other packet there is a run in which it fails.
* `stray_command_is_absent`: a command of the server is such a packet.
-/

set_option autoImplicit false

namespace Afpfs
namespace Dsi
namespace Unmatched

open Interaction Memory Transition Server Server.Lifecycle Server.Negotiation

/-! ## The client -/

/-- What the status of a server says, but for its names and its signature. -/
structure About extends Basic where
  machineType : List UInt8
  icon : List UInt8
  flags : UInt16

/-- A server and what is received from it. -/
structure Client where
  /-- The servers and their volumes. -/
  sys : System
  /-- The server that the packets come from. -/
  server : Addr
  /-- The address of `incoming_buffer`. -/
  buffer : ℕ
  recv : RecvState
  attentionBuffer : Bytes
  txQuantum : UInt32
  expectedrequestid : UInt16
  about : About
  commandRequests : List (Handle × DsiRequest)
  /-- The threads of `dsi_incoming_attention()` that were started. -/
  attentions : ℕ

/-- `dsi_find_request()`. -/
def Client.dsiFindRequest (c : Client) (id : UInt16) : Option (Handle × DsiRequest) :=
  c.commandRequests.find? fun r => r.2.requestid == id

/-- The status that is known. -/
def Client.status (c : Client) (srv : Server.AfpServer) : GetStatus.Status where
  toBasic := c.about.toBasic
  machineType := c.about.machineType
  icon := c.about.icon
  flags := c.about.flags
  serverName := srv.serverName
  signature := (c.sys.fields c.server).signature
  serverNameUtf8 := srv.serverNameUtf8

/-- Another status. -/
def Client.setStatus (c : Client) (srv : Server.AfpServer) (status : GetStatus.Status) : Client :=
  { c with
    sys := { c.sys with
        st := c.sys.st.store c.server
          { srv with serverName := status.serverName, serverNameUtf8 := status.serverNameUtf8 }
      }.setFields c.server { c.sys.fields c.server with signature := status.signature }
    about :=
      { toBasic := status.toBasic
        machineType := status.machineType
        icon := status.icon
        flags := status.flags } }

/-- What the requests of an unmount leave behind, which wait for replies or give up. -/
structure Left where
  lastrequestid : UInt16
  expectedrequestid : UInt16
  commandRequests : List (Handle × DsiRequest)

/-- What the functions are answered that a packet is handed to. -/
structure Outside where
  /-- The requests of the unmounts. -/
  requests : ℕ → Requests
  left : Left
  /-- The answer to a tickle is sent. -/
  tickle : Resume
  /-- The address of its request. -/
  handle : Handle
  beyond : GetStatus.Beyond

/-! ## The functions that a packet is handed to -/

/-- The ids and the queue after some requests. -/
def Client.afterRequests (c : Client) (left : Left) : Client :=
  match c.sys.st.heap c.server with
  | none => c
  | some srv =>
    { c with
      sys := { c.sys with
        st := c.sys.st.store c.server { srv with lastrequestid := left.lastrequestid } }
      expectedrequestid := left.expectedrequestid
      commandRequests := left.commandRequests }

/-- `dsi_incoming_closesession()`. -/
def Client.dsiIncomingClosesession (o : Outside) (c : Client) : Option Client :=
  (Lifecycle.dsiIncomingClosesession (c.sys.allocated + 1) c.sys c.server o.requests).map fun sys =>
    if .mounted ∈ (c.sys.fields c.server).volumes then { c with sys := sys }.afterRequests o.left
    else { c with sys := sys }

/-- `dsi_getstatus_reply()`. -/
def Client.dsiGetstatusReply (o : Outside) (c : Client) : Option Client :=
  match c.sys.st.heap c.server with
  | none => none
  | some srv =>
    (GetStatus.dsiGetstatusReply ⟨c.buffer, c.recv.packet⟩ o.beyond (c.status srv)).map
      (c.setStatus srv)

/-- `dsi_opensession_reply()`. -/
def Client.dsiOpensessionReply (c : Client) : Client :=
  { c with txQuantum := ntohl c.recv.incomingBuffer (headerSize + 2) }

/-- `dsi_setup_header()`. -/
def Client.dsiSetupHeader (c : Client) : Option Client :=
  match c.sys.st.heap c.server with
  | none => none
  | some srv =>
    let id := nextRequestid srv.lastrequestid
    some { c with
      sys := { c.sys with st := c.sys.st.store c.server { srv with lastrequestid := id } }
      expectedrequestid := id }

/-- The request of a tickle, which does not wait. -/
def tickleRequest (id : UInt16) : DsiRequest where
  requestid := id
  subcommand := 0
  wait := false
  maxsize := 0
  size := 0

/-- `dsi_send()` of a tickle.  Its request stays in the queue if the server has closed the
connection. -/
def Client.sendTickle (o : Outside) (c : Client) : Option Client :=
  match serverStillValid c.sys.st (c.sys.allocated + 1) c.server, c.sys.st.heap c.server,
    Lifecycle.dsiSend (c.sys.allocated + 1) c.sys.st c.server o.tickle with
  | some valid, some srv, some st =>
    some { c with
      sys := { c.sys with st := st }
      commandRequests :=
        if valid ∧ srv.fd ≠ 0 ∧ o.tickle.closed then
          c.commandRequests ++ [(o.handle, tickleRequest srv.lastrequestid)]
        else c.commandRequests }
  | _, _, _ => none

/-- `dsi_incoming_tickle()`. -/
def Client.dsiIncomingTickle (o : Outside) (c : Client) : Option Client :=
  c.dsiSetupHeader.bind fun c => c.sendTickle o

/-- The packet is copied for `dsi_incoming_attention()`, whose thread is started.  `attention_len`
is in the state that `dsi_recv()` returns. -/
def Client.startAttention (c : Client) : Client :=
  { c with
    attentionBuffer := store c.attentionBuffer 0 c.recv.packet
    attentions := c.attentions + 1 }

/-- A packet is handed to its function.  Without a request there is no reply to a command. -/
def Client.handle (o : Outside) (c : Client) : Handler → Option Client
  | .closesession => c.dsiIncomingClosesession o
  | .getstatusReply => c.dsiGetstatusReply o
  | .opensessionReply => some c.dsiOpensessionReply
  | .tickle => c.dsiIncomingTickle o
  | .commandReply _ => some c
  | .attention => some c.startAttention

/-! ## Calls -/

/-- An effect of a call, which is not that of a read request. -/
def Client.event (o : Outside) (c : Client) : (e : RecvEffect) × e.Answer → Option Client
  | ⟨.read _, answer⟩ =>
    some { c with recv := (answer : Option (List UInt8)).elim c.recv c.recv.fill }
  | ⟨.handle h _, _⟩ => c.handle o h
  | _ => some c

/-- The effects of a call. -/
def Client.events (o : Outside) : Client → Trace → Option Client
  | c, [] => some c
  | c, ev :: tr => (c.event o ev).bind fun c => c.events o tr

/-- Where the packet is. -/
inductive Config where
  /-- It has not been consumed, and this is left of the stream. -/
  | receiving (c : Client) (stream : List UInt8)
  | consumed (c : Client)
  /-- `dsi_recv()` has returned -1. -/
  | failed (c : Client)
  /-- A function that the packet was handed to has used memory that it must not use. -/
  | undefined
  /-- The request that is not there was used. -/
  | absent

/-- What a call comes to that ends in a program and leaves `rest` of the stream. -/
def Client.after (o : Outside) (c : Client) (tr : Trace) (rest : List UInt8) :
    RecvM (ℤ × RecvState) → Config
  | .done (ret, s) =>
    match c.events o tr with
    | none => .undefined
    | some c =>
      if ret = -1 then .failed { c with recv := s }
      else if tr.filterMap processed = [] then .receiving { c with recv := s } rest
      else .consumed { c with recv := s }
  | _ => .absent

/-- The answers of the system and of the queue. -/
def Answers (c : Client) : (e : RecvEffect) × e.Answer → Prop
  | ⟨.findRequest id, answer⟩ => answer = c.dsiFindRequest id
  | ev => Answered ev

/-- One call of `dsi_recv()`, until the packet has been consumed. -/
inductive Call (o : Outside) : Config → Trace → Config → Prop
  | receiving {c : Client} {tr : Trace} {rest : List UInt8} {q : RecvM (ℤ × RecvState)} :
      q.Final → Prog.Steps (dsiRecv c.recv) tr q → (∀ ev ∈ tr, Answers c ev) →
        Call o (.receiving c (tr.flatMap taken ++ rest)) tr (c.after o tr rest q)

/-! ## What is expected -/

/-- Other contents of `incoming_buffer`, and another `data_read`. -/
def Client.withBuffer (c : Client) (contents : Bytes) (dataRead : ℕ) : Client :=
  { c with recv := { c.recv with incomingBuffer := contents, dataRead := dataRead } }

/-- Two clients differ in the contents of `incoming_buffer` and in `data_read` only. -/
def Client.Agrees (c c' : Client) : Prop := ∃ contents dataRead, c' = c.withBuffer contents dataRead

/-- **What is expected** of a packet that no request waits for: the request is not used, and if the
packet is a reply nothing else changes. -/
def Inert (c : Client) (packet : List UInt8) : Config → Prop
  | .receiving c' _ | .consumed c' | .failed c' =>
    flags (ofBytes packet) = DSI_REPLY → c.Agrees c'
  | .undefined => flags (ofBytes packet) ≠ DSI_REPLY
  | .absent => False

/-- A packet arrives whose id no request has.  Some of it may be in the buffer. -/
structure Arriving (packet : List UInt8) (c : Client) : Prop where
  size : packet.length = length (ofBytes packet) + headerSize
  fits : packet.length ≤ c.recv.bufsize
  alive : (c.sys.st.heap c.server).isSome
  unmatched : c.dsiFindRequest (requestid (ofBytes packet)) = none
  start : c.recv.packet <+: packet
  partly : c.recv.dataRead < packet.length

/-- The condition on a reply without a body: there is nothing to close, the quantum is the one that
earlier packets have left in the buffer, and it is neither a tickle nor an attention. -/
structure NothingToDo (c : Client) (command : UInt8) : Prop where
  closesession : command = DSI_DSICloseSession →
    ¬ c.sys.st.Connected c.server ∧ .mounted ∉ (c.sys.fields c.server).volumes
  opensession : command = DSI_DSIOpenSession →
    c.txQuantum = ntohl c.recv.incomingBuffer (headerSize + 2)
  tickle : command ≠ DSI_DSITickle
  attention : command ≠ DSI_DSIAttention

/-- The condition on a packet: a reply without a body gives its function nothing to do, and a packet
that is not a reply is not a command. -/
def Harmless (c : Client) (packet : List UInt8) : Prop :=
  if flags (ofBytes packet) = DSI_REPLY then
    length (ofBytes packet) = 0 → NothingToDo c (command (ofBytes packet))
  else command (ofBytes packet) ≠ DSI_DSIWrite ∧ command (ofBytes packet) ≠ DSI_DSICommand

/-! ## Clients -/

theorem Client.Agrees.refl (c : Client) : c.Agrees c :=
  ⟨c.recv.incomingBuffer, c.recv.dataRead, rfl⟩

theorem Client.Agrees.symm {c c' : Client} (h : c.Agrees c') : c'.Agrees c := by
  obtain ⟨contents, dataRead, rfl⟩ := h
  exact ⟨c.recv.incomingBuffer, c.recv.dataRead, rfl⟩

theorem Client.Agrees.trans {c c' c'' : Client} (h : c.Agrees c') (h' : c'.Agrees c'') :
    c.Agrees c'' := by
  obtain ⟨contents, dataRead, rfl⟩ := h
  obtain ⟨contents', dataRead', rfl⟩ := h'
  exact ⟨contents', dataRead', rfl⟩

theorem Inert.of_agrees {c c' : Client} {packet : List UInt8} {cfg : Config} (h : c.Agrees c')
    (hinert : Inert c' packet cfg) : Inert c packet cfg := by
  cases cfg with
  | receiving c'' stream => exact fun hreply => h.trans (hinert hreply)
  | consumed c'' => exact fun hreply => h.trans (hinert hreply)
  | failed c'' => exact fun hreply => h.trans (hinert hreply)
  | undefined => exact hinert
  | absent => exact hinert

/-- Bytes are read into the buffer. -/
def Client.fill (c : Client) (bytes : List UInt8) : Client := { c with recv := c.recv.fill bytes }

theorem agrees_fill (c : Client) (bytes : List UInt8) : c.Agrees (c.fill bytes) := ⟨_, _, rfl⟩

section After

variable {o : Outside} {c : Client} {tr : Trace} {rest : List UInt8} {q : RecvM (ℤ × RecvState)}

theorem after_read (n : ℕ) (bytes : List UInt8) :
    c.after o (⟨.read n, some bytes⟩ :: tr) rest q = (c.fill bytes).after o tr rest q := by
  cases q with
  | done result => rfl
  | act e k => rfl
  | stuck => rfl

theorem after_findRequest (id : UInt16) (answer : Option (Handle × DsiRequest)) :
    c.after o (⟨.findRequest id, answer⟩ :: tr) rest q = c.after o tr rest q := by
  cases q with
  | done result => rfl
  | act e k => rfl
  | stuck => rfl

end After

/-! ## What the functions change -/

/-- **Nothing to close**: the session is closed without an effect. -/
theorem dsiIncomingClosesession_of_nothing {c : Client} (o : Outside)
    (halive : (c.sys.st.heap c.server).isSome) (hconnected : ¬ c.sys.st.Connected c.server)
    (hmounted : .mounted ∉ (c.sys.fields c.server).volumes) :
    c.dsiIncomingClosesession o = some c := by
  obtain ⟨srv, hsrv⟩ := Option.isSome_iff_exists.mp halive
  have hstate : srv.connectState ≠ .connected := fun h => hconnected ⟨srv, hsrv, h⟩
  rw [Client.dsiIncomingClosesession, Lifecycle.dsiIncomingClosesession, afpUnmountAllVolumes, hsrv]
  simp only [unmountAllFrom_of_not_mounted hsrv hmounted, System.disconnect, hsrv, loopDisconnect,
    if_pos hstate, Option.map_some, if_neg hmounted]

theorem remove_fields {fuel : ℕ} {sys : System} {s : Addr} {result : ℤ × System}
    (h : sys.remove fuel s = some result) : result.2.fields = sys.fields := by
  rw [System.remove] at h
  split at h
  · cases h
  · obtain ⟨removed, -, rfl⟩ := Option.map_eq_some_iff.mp h
    rfl

theorem disconnect_fields {sys sys' : System} {s : Addr} (h : sys.disconnect s = some sys') :
    sys'.fields = sys.fields := by
  rw [System.disconnect] at h
  split at h
  · cases h
  · exact Option.some.inj h ▸ rfl

/-- A volume that is unmounted is not mounted any more, and none becomes mounted. -/
theorem not_mounted_of_afpUnmountVolume {fuel : ℕ} {sys : System} {s : Addr} {i : ℕ}
    {requests : Requests} {result : ℤ × System}
    (h : afpUnmountVolume fuel sys s i requests = some result) (j : ℕ)
    (hj : j = i ∨ (sys.fields s).volumes[j]? ≠ some .mounted) :
    (result.2.fields s).volumes[j]? ≠ some .mounted := by
  rw [afpUnmountVolume] at h
  cases hheap : sys.st.heap s with
  | none =>
    rw [hheap] at h
    cases h
  | some srv =>
  rw [hheap] at h
  dsimp only at h
  by_cases hmounted : (sys.fields s).volumes[i]? = some .mounted
  swap
  · rw [if_pos hmounted] at h
    obtain rfl := Option.some.inj h
    rcases hj with rfl | hj
    · exact hmounted
    · exact hj
  rw [if_neg (not_not.mpr hmounted)] at h
  cases hsends : sends fuel (sys.setVolume s i .unmounting).st s requests.close with
  | none =>
    rw [hsends] at h
    cases h
  | some st =>
  rw [hsends] at h
  dsimp only at h
  -- the state of the volumes at the end
  have hvolumes : ((({ sys.setVolume s i .unmounting with st := st }).setVolume s i
      .unmounted).fields s).volumes[j]? ≠ some .mounted := by
    simp only [System.setVolume, setFields_self]
    rw [List.set_set]
    rcases hj with rfl | hj
    · rw [List.getElem?_set_self', hmounted]
      exact fun heq => Mounted.noConfusion (Option.some.inj heq)
    · by_cases hij : i = j
      · exact absurd (hij ▸ hmounted) hj
      · rwa [List.getElem?_set_ne hij]
  split_ifs at h
  · exact Option.some.inj h ▸ hvolumes
  cases hlogout : Lifecycle.dsiSend fuel (({ sys.setVolume s i .unmounting with st := st }).setVolume
      s i .unmounted).st s requests.logout with
  | none =>
    rw [hlogout] at h
    cases h
  | some st' =>
    rw [hlogout] at h
    obtain ⟨removed, hremoved, rfl⟩ := Option.map_eq_some_iff.mp h
    rw [remove_fields hremoved]
    exact hvolumes

/-- **The loop over the volumes** unmounts one, if one is mounted. -/
theorem volumes_of_unmountAllFrom {fuel : ℕ} {s : Addr} {requests : ℕ → Requests} {n i : ℕ}
    {sys : System} {result : ℤ × System}
    (h : unmountAllFrom fuel s requests n i sys = some result) :
    (∀ j : ℕ, (sys.fields s).volumes[j]? ≠ some .mounted →
        (result.2.fields s).volumes[j]? ≠ some .mounted) ∧
      ((∃ j : ℕ, i ≤ j ∧ j < i + n ∧ (sys.fields s).volumes[j]? = some .mounted) →
        ∃ j : ℕ, (sys.fields s).volumes[j]? = some .mounted ∧
          (result.2.fields s).volumes[j]? ≠ some .mounted) := by
  induction n generalizing i sys with
  | zero =>
    obtain rfl := Option.some.inj h
    refine ⟨fun j hj => hj, fun hsome => ?_⟩
    obtain ⟨j, hij, hji, -⟩ := hsome
    omega
  | succ n ih =>
    rw [unmountAllFrom] at h
    cases hheap : sys.st.heap s with
    | none =>
      rw [hheap] at h
      cases h
    | some srv =>
    rw [hheap] at h
    dsimp only at h
    by_cases hmounted : (sys.fields s).volumes[i]? = some .mounted
    · rw [if_pos hmounted] at h
      cases hunmount : afpUnmountVolume fuel sys s i (requests i) with
      | none =>
        rw [hunmount] at h
        cases h
      | some unmounted =>
      rw [hunmount] at h
      dsimp only at h
      have hnot := not_mounted_of_afpUnmountVolume hunmount
      split_ifs at h
      · obtain rfl := Option.some.inj h
        exact ⟨fun j hj => hnot j (.inr hj), fun _ => ⟨i, hmounted, hnot i (.inl rfl)⟩⟩
      · obtain ⟨hkeep, -⟩ := ih h
        exact ⟨fun j hj => hkeep j (hnot j (.inr hj)),
          fun _ => ⟨i, hmounted, hkeep i (hnot i (.inl rfl))⟩⟩
    · rw [if_neg hmounted] at h
      obtain ⟨hkeep, hsome⟩ := ih h
      refine ⟨hkeep, fun hexists => ?_⟩
      obtain ⟨j, hij, hji, hj⟩ := hexists
      refine hsome ⟨j, ?_, by omega, hj⟩
      by_contra hlt
      obtain rfl : j = i := by omega
      exact hmounted hj

theorem afterRequests_fields (c : Client) (left : Left) :
    (c.afterRequests left).sys.fields = c.sys.fields := by
  rw [Client.afterRequests]
  split
  · rfl
  · rfl

/-- **Something to close**: the servers or the volumes change. -/
theorem sys_ne_of_dsiIncomingClosesession {c c' : Client} {o : Outside}
    (h : c.dsiIncomingClosesession o = some c')
    (hopen : c.sys.st.Connected c.server ∨ .mounted ∈ (c.sys.fields c.server).volumes) :
    c'.sys ≠ c.sys := by
  obtain ⟨sys, hsys, rfl⟩ := Option.map_eq_some_iff.mp h
  rw [Lifecycle.dsiIncomingClosesession] at hsys
  split at hsys
  · cases hsys
  rename_i ret sys' hall
  by_cases hmounted : .mounted ∈ (c.sys.fields c.server).volumes
  · obtain ⟨j, hj⟩ := List.getElem?_of_mem hmounted
    rw [afpUnmountAllVolumes] at hall
    split at hall
    · cases hall
    obtain ⟨-, hsome⟩ := volumes_of_unmountAllFrom hall
    obtain ⟨k, hbefore, hafter⟩ := hsome ⟨j, Nat.zero_le j, by
      rw [Nat.zero_add]
      exact (List.getElem?_eq_some_iff.mp hj).1, hj⟩
    rw [← disconnect_fields hsys] at hafter
    intro heq
    rw [if_pos hmounted] at heq
    have hfields : sys.fields = c.sys.fields :=
      (afterRequests_fields _ o.left).symm.trans (congrArg System.fields heq)
    exact hafter (hfields ▸ hbefore)
  · obtain ⟨srv, hsrv, hconnected⟩ := hopen.resolve_right hmounted
    rw [afpUnmountAllVolumes, hsrv] at hall
    simp only [unmountAllFrom_of_not_mounted hsrv hmounted, Option.some.injEq, Prod.mk.injEq] at hall
    obtain ⟨-, rfl⟩ := hall
    rw [System.disconnect, hsrv] at hsys
    obtain rfl := Option.some.inj hsys
    rw [if_neg hmounted]
    intro heq
    have hheap := congrFun (congrArg (fun t : System => t.st.heap) heq) c.server
    simp only [loopDisconnect, hconnected, ne_eq, not_true_eq_false, if_false, store_heap,
      Function.update_self, hsrv, Option.some.injEq] at hheap
    exact ConnectState.noConfusion ((congrArg Server.AfpServer.connectState hheap).trans hconnected)

/-- The status is set to what it is. -/
theorem setStatus_status {c : Client} {srv : Server.AfpServer}
    (hsrv : c.sys.st.heap c.server = some srv) : c.setStatus srv (c.status srv) = c := by
  have hst : c.sys.st.store c.server srv = c.sys.st := by
    rw [State.store, ← hsrv, Function.update_eq_self]
  have hsys : c.sys.setFields c.server (c.sys.fields c.server) = c.sys := by
    rw [System.setFields, Function.update_eq_self]
  rw [Client.setStatus, Client.status]
  dsimp only
  rw [hst, hsys]

/-- Without a body there is no status. -/
theorem dsiGetstatusReply_of_short {c : Client} (o : Outside)
    (halive : (c.sys.st.heap c.server).isSome) (hshort : c.recv.dataRead < 34) :
    c.dsiGetstatusReply o = some c := by
  obtain ⟨srv, hsrv⟩ := Option.isSome_iff_exists.mp halive
  have hlen : c.recv.packet.length < 34 := by rwa [length_packet]
  rw [Client.dsiGetstatusReply, hsrv]
  dsimp only
  rw [GetStatus.dsiGetstatusReply, if_pos hlen, Option.map_some, setStatus_status hsrv]

/-- The id of the next request is another one. -/
theorem nextRequestid_ne (id : UInt16) : nextRequestid id ≠ id := by
  rw [nextRequestid]
  split
  · rename_i hlast
    rw [hlast]
    decide
  · intro h
    have hone : (1 : UInt16) = 0 := by
      calc (1 : UInt16) = id + 1 - id := by rw [UInt16.add_comm, UInt16.add_sub_cancel]
        _ = 0 := by rw [h, UInt16.sub_self]
    exact absurd hone (by decide)

/-! ## Processing -/

/-- The function for a command that needs no request. -/
def handlerOf (command : UInt8) : Option Handler :=
  if command = DSI_DSICloseSession then some .closesession
  else if command = DSI_DSIGetStatus then some .getstatusReply
  else if command = DSI_DSIOpenSession then some .opensessionReply
  else if command = DSI_DSITickle then some .tickle
  else if command = DSI_DSIAttention then some .attention
  else none

/-- What `dsi_recv()` notes of a packet that it hands to a function. -/
def noted (s : RecvState) (h : Handler) : RecvState :=
  if h = .attention then { s with attentionLen := s.dataRead } else s

theorem handlerOf_cases {command : UInt8} {h : Handler} (hcommand : handlerOf command = some h) :
    command = DSI_DSICloseSession ∧ h = .closesession ∨
      command = DSI_DSIGetStatus ∧ h = .getstatusReply ∨
      command = DSI_DSIOpenSession ∧ h = .opensessionReply ∨
      command = DSI_DSITickle ∧ h = .tickle ∨ command = DSI_DSIAttention ∧ h = .attention := by
  unfold handlerOf at hcommand
  split_ifs at hcommand with h₁ h₂ h₃ h₄ h₅
  · exact .inl ⟨h₁, (Option.some.inj hcommand).symm⟩
  · exact .inr (.inl ⟨h₂, (Option.some.inj hcommand).symm⟩)
  · exact .inr (.inr (.inl ⟨h₃, (Option.some.inj hcommand).symm⟩))
  · exact .inr (.inr (.inr (.inl ⟨h₄, (Option.some.inj hcommand).symm⟩)))
  · exact .inr (.inr (.inr (.inr ⟨h₅, (Option.some.inj hcommand).symm⟩)))

/-- Commands and writes are answers to a request. -/
def IsCommand (command : UInt8) : Prop := command = DSI_DSIWrite ∨ command = DSI_DSICommand

section Process

variable {s : RecvState} {runt : Bool}

/-- Without a request the packet is handed to a function, or it is a command, or it is unknown. -/
theorem processPacket_of_handler {h : Handler}
    (hcommand : handlerOf (command s.incomingBuffer) = some h) :
    processPacket s none runt =
      emit (.handle h s.packet) >>= fun _ => afterProcessing (noted s h) none := by
  rcases handlerOf_cases hcommand with ⟨h₁, rfl⟩ | ⟨h₁, rfl⟩ | ⟨h₁, rfl⟩ | ⟨h₁, rfl⟩ | ⟨h₁, rfl⟩
  all_goals
    rw [processPacket, h₁]
    rfl

theorem processPacket_of_command (hcommand : IsCommand (command s.incomingBuffer)) :
    processPacket s none runt =
      if runt then emit (.drop s.packet) >>= fun _ => afterProcessing s none else .stuck := by
  rcases hcommand with h | h
  all_goals
    rw [processPacket, h]
    rfl

theorem processPacket_of_unknown (hnone : handlerOf (command s.incomingBuffer) = none)
    (hcommand : ¬ IsCommand (command s.incomingBuffer)) :
    processPacket s none runt = .done (-1, s) := by
  unfold handlerOf at hnone
  split_ifs at hnone with h₁ h₂ h₃ h₄ h₅
  unfold processPacket
  dsimp only
  rw [IsCommand] at hcommand
  rw [if_neg h₁, if_neg h₂, if_neg h₃, if_neg h₄, if_neg hcommand, if_neg h₅]
  rfl

/-- Without a request, what follows the processing is about the buffer. -/
theorem afterProcessing_none (s : RecvState) : ∃ contents dataRead,
    afterProcessing s none =
      .done (0, { s with incomingBuffer := contents, dataRead := dataRead }) := by
  unfold afterProcessing
  dsimp only
  split
  · exact ⟨s.incomingBuffer, 0, rfl⟩
  · exact ⟨_, _, rfl⟩

end Process

/-- The packet is not arriving any more, and the request was not used. -/
def Ended : Config → Prop
  | .receiving _ _ | .absent => False
  | _ => True

/-- A packet that is not a reply is inert as long as the request is not used. -/
theorem inert_of_not_reply {c : Client} {packet : List UInt8} {cfg : Config}
    (hreply : flags (ofBytes packet) ≠ DSI_REPLY) (hended : Ended cfg) : Inert c packet cfg := by
  cases cfg with
  | receiving c' stream => exact absurd hended id
  | consumed c' => exact fun h => absurd h hreply
  | failed c' => exact fun h => absurd h hreply
  | undefined => exact hreply
  | absent => exact absurd hended id

section Packets

variable {o : Outside} {c : Client} {packet rest : List UInt8} {tr : Trace}
  {q : RecvM (ℤ × RecvState)}

/-- A packet that is dropped is consumed, and nothing else changes. -/
theorem inert_of_drop {bytes : List UInt8} (hq : q.Final)
    (hsteps : Prog.Steps (emit (.drop bytes) >>= fun _ => afterProcessing c.recv none) tr q) :
    Ended (c.after o tr rest q) ∧ Inert c packet (c.after o tr rest q) := by
  obtain ⟨answer, tr', rfl, hrest⟩ := (steps_emit_iff hq).mp hsteps
  obtain ⟨contents, dataRead, hafter⟩ := afterProcessing_none c.recv
  rw [hafter] at hrest
  obtain ⟨rfl, rfl⟩ := Prog.steps_done_iff.mp hrest
  exact ⟨trivial, fun _ => ⟨contents, dataRead, rfl⟩⟩

/-- What a packet comes to that is handed to a function. -/
theorem after_of_handler {h : Handler} {runt : Bool}
    (hcommand : handlerOf (command c.recv.incomingBuffer) = some h) (hq : q.Final)
    (hsteps : Prog.Steps (processPacket c.recv none runt) tr q) :
    ∃ contents dataRead, c.after o tr rest q =
      (c.handle o h).elim .undefined fun c' =>
        .consumed { c' with recv :=
          { noted c.recv h with incomingBuffer := contents, dataRead := dataRead } } := by
  rw [processPacket_of_handler hcommand] at hsteps
  obtain ⟨answer, tr', rfl, hrest⟩ := (steps_emit_iff hq).mp hsteps
  obtain ⟨contents, dataRead, hafter⟩ := afterProcessing_none (noted c.recv h)
  rw [hafter] at hrest
  obtain ⟨rfl, rfl⟩ := Prog.steps_done_iff.mp hrest
  refine ⟨contents, dataRead, ?_⟩
  cases hhandle : c.handle o h with
  | none =>
    rw [Client.after, Client.events, Client.event, hhandle]
    rfl
  | some c' =>
    rw [Client.after, Client.events, Client.event, hhandle]
    rfl

/-- Without a request, only a command uses it. -/
theorem ended_after {runt : Bool} (hcommand : ¬ IsCommand (command c.recv.incomingBuffer))
    (hq : q.Final) (hsteps : Prog.Steps (processPacket c.recv none runt) tr q) :
    Ended (c.after o tr rest q) := by
  cases hhandler : handlerOf (command c.recv.incomingBuffer) with
  | none =>
    rw [processPacket_of_unknown hhandler hcommand] at hsteps
    obtain ⟨rfl, rfl⟩ := Prog.steps_done_iff.mp hsteps
    exact trivial
  | some h =>
    obtain ⟨contents, dataRead, hafter⟩ := after_of_handler hhandler hq hsteps
    rw [hafter]
    cases c.handle o h with
    | none => exact trivial
    | some c' => exact trivial

/-- **Nothing to do**: the function changes nothing. -/
theorem handle_of_nothingToDo {command : UInt8} {h : Handler}
    (halive : (c.sys.st.heap c.server).isSome) (hshort : c.recv.dataRead = headerSize)
    (hcommand : handlerOf command = some h) (hnothing : NothingToDo c command) :
    c.handle o h = some c ∧ noted c.recv h = c.recv := by
  rcases handlerOf_cases hcommand with ⟨h₁, rfl⟩ | ⟨h₁, rfl⟩ | ⟨h₁, rfl⟩ | ⟨h₁, rfl⟩ | ⟨h₁, rfl⟩
  · obtain ⟨hconnected, hmounted⟩ := hnothing.closesession h₁
    exact ⟨dsiIncomingClosesession_of_nothing o halive hconnected hmounted, rfl⟩
  · exact ⟨dsiGetstatusReply_of_short o halive (by rw [hshort]; decide), rfl⟩
  · refine ⟨congrArg some ?_, rfl⟩
    rw [Client.dsiOpensessionReply, ← hnothing.opensession h₁]
  · exact absurd h₁ hnothing.tickle
  · exact absurd h₁ hnothing.attention

/-- **A packet without a body**, all of which is in the buffer. -/
theorem inert_of_whole (harr : packet.length = headerSize) (hpacket : c.recv.packet = packet)
    (hzero : length (ofBytes packet) = 0) (halive : (c.sys.st.heap c.server).isSome)
    (hharmless : Harmless c packet) (hq : q.Final)
    (hsteps : Prog.Steps
      (processPacket c.recv none (flags c.recv.incomingBuffer == DSI_REPLY)) tr q) :
    Ended (c.after o tr rest q) ∧ Inert c packet (c.after o tr rest q) := by
  have hsize : c.recv.dataRead = headerSize := by rw [← length_packet, hpacket, harr]
  obtain ⟨hflags, hcommand, -, -, -⟩ := header_of_prefix
    (⟨[], by rw [List.append_nil, hpacket]⟩ : c.recv.packet <+: packet) (Nat.le_of_eq hsize.symm)
  rw [hflags] at hsteps
  rw [Harmless] at hharmless
  split at hharmless
  · rename_i hreply
    have hnothing := hharmless hzero
    rw [← hcommand] at hnothing
    rw [hreply, beq_self_eq_true] at hsteps
    cases hhandler : handlerOf (command c.recv.incomingBuffer) with
    | some h =>
      obtain ⟨contents, dataRead, hafter⟩ := @after_of_handler o c rest tr q h _ hhandler hq hsteps
      obtain ⟨hhandle, hnoted⟩ := @handle_of_nothingToDo o c _ _ halive hsize hhandler hnothing
      rw [hafter, hhandle, hnoted]
      exact ⟨trivial, fun _ => ⟨contents, dataRead, rfl⟩⟩
    | none =>
      by_cases hisCommand : IsCommand (command c.recv.incomingBuffer)
      · rw [processPacket_of_command hisCommand, if_pos rfl] at hsteps
        exact inert_of_drop hq hsteps
      · rw [processPacket_of_unknown hhandler hisCommand] at hsteps
        obtain ⟨rfl, rfl⟩ := Prog.steps_done_iff.mp hsteps
        exact ⟨trivial, fun _ => .refl c⟩
  · rename_i hreply
    rw [← hcommand] at hharmless
    have hended := @ended_after o c rest tr q _ (not_or.mpr hharmless) hq hsteps
    exact ⟨hended, inert_of_not_reply hreply hended⟩

end Packets

/-! ## Calls -/

/-- What a call comes to: the packet is still arriving, or what is expected holds. -/
def Kept (c : Client) (packet later : List UInt8) : Config → Prop
  | .receiving c' stream =>
    Arriving packet c' ∧ c.Agrees c' ∧
      (∀ j, packet.length ≤ j → c'.recv.incomingBuffer j = c.recv.incomingBuffer j) ∧
      c'.recv.packet ++ stream = packet ++ later
  | cfg => Inert c packet cfg

theorem Kept.inert {c : Client} {packet later : List UInt8} {cfg : Config}
    (h : Kept c packet later cfg) : Inert c packet cfg := by
  cases cfg with
  | receiving c' stream => exact fun _ => h.2.1
  | consumed c' => exact h
  | failed c' => exact h
  | undefined => exact h
  | absent => exact h

theorem kept_of_ended {c : Client} {packet later : List UInt8} {cfg : Config} (hended : Ended cfg)
    (hinert : Inert c packet cfg) : Kept c packet later cfg := by
  cases cfg with
  | receiving c' stream => exact absurd hended id
  | consumed c' => exact hinert
  | failed c' => exact hinert
  | undefined => exact hinert
  | absent => exact hinert

section Calls

variable {o : Outside} {c : Client} {packet later rest : List UInt8} {tr : Trace}
  {q : RecvM (ℤ × RecvState)}

/-- More of the packet is read, and not all of it. -/
theorem kept_fill (harr : Arriving packet c) {bytes : List UInt8}
    (hstream : c.recv.packet ++ (bytes ++ rest) = packet ++ later)
    (hpart : c.recv.dataRead + bytes.length < packet.length) :
    Kept c packet later (.receiving (c.fill bytes) rest) := by
  refine ⟨⟨harr.size, harr.fits, harr.alive, harr.unmatched, ?_, hpart⟩, agrees_fill c bytes, ?_, ?_⟩
  · rw [Client.fill, packet_fill]
    exact prefix_of_stream hstream (by rw [length_packet]; omega)
  · exact fun j hj => store_of_le _ (by omega)
  · rw [Client.fill, packet_fill, List.append_assoc]
    exact hstream

/-- A read that fails ends the call. -/
theorem kept_of_failed (n : ℕ) :
    Kept c packet later (c.after o [⟨.read n, none⟩] rest (.done (-1, c.recv))) :=
  fun _ => .refl c

/-- **The body of a packet**: it is still arriving, or it is all there and dropped, or handed to its
function. -/
theorem kept_of_body (harr : Arriving packet c) (hharmless : Harmless c packet)
    (hheader : headerSize ≤ c.recv.dataRead) (hbody : length (ofBytes packet) ≠ 0)
    (hq : q.Final) (hstream : c.recv.packet ++ (tr.flatMap taken ++ rest) = packet ++ later)
    (hsteps : Prog.Steps
      (readBody c.recv none (flags c.recv.incomingBuffer == DSI_REPLY)) tr q) :
    Kept c packet later (c.after o tr rest q) := by
  obtain ⟨hflags, hcommand, -, -, hlength⟩ := header_of_prefix harr.start hheader
  unfold readBody at hsteps
  rw [if_neg (fun h => hbody (hlength ▸ h.2))] at hsteps
  obtain ⟨answer, tr', rfl, hrest⟩ := (steps_perform_iff hq).mp hsteps
  cases answer with
  | none =>
    obtain ⟨rfl, rfl⟩ := Prog.steps_done_iff.mp hrest
    exact kept_of_failed _
  | some bytes =>
    rw [List.flatMap_cons, List.append_assoc] at hstream
    rw [after_read]
    -- the header is still there
    obtain ⟨-, hcommand', -, -, hlength'⟩ := @header_congr (c.fill bytes).recv.incomingBuffer
      c.recv.incomingBuffer fun j hj => store_of_lt _ _ (Nat.lt_of_lt_of_le hj hheader)
    have hsize := harr.size
    dsimp only at hrest
    split at hrest
    · rename_i hpart
      obtain ⟨rfl, rfl⟩ := Prog.steps_done_iff.mp hrest
      rw [dataRead_fill, show length (c.recv.fill bytes).incomingBuffer = length (ofBytes packet)
        from hlength'.trans hlength, ← hsize] at hpart
      exact kept_fill harr hstream hpart
    split at hrest
    · obtain ⟨hended, hinert⟩ := @inert_of_drop o (c.fill bytes) packet rest tr' q _ hq hrest
      exact kept_of_ended hended (hinert.of_agrees (agrees_fill c bytes))
    · rename_i hrunt
      have hreply : flags (ofBytes packet) ≠ DSI_REPLY := fun h =>
        hrunt (by rw [hflags, h, beq_self_eq_true])
      rw [Harmless, if_neg hreply] at hharmless
      have hended := @ended_after o (c.fill bytes) rest tr' q _
        (by rw [hcommand', hcommand]; exact not_or.mpr hharmless) hq hrest
      exact kept_of_ended hended (inert_of_not_reply hreply hended)

/-- The condition does not depend on the packet in the buffer. -/
theorem harmless_iff_of_agrees {c' : Client} (hsize : packet.length = length (ofBytes packet) + headerSize)
    (hagrees : c.Agrees c')
    (hbehind : ∀ j, packet.length ≤ j → c'.recv.incomingBuffer j = c.recv.incomingBuffer j) :
    Harmless c' packet ↔ Harmless c packet := by
  obtain ⟨contents, dataRead, rfl⟩ := hagrees
  rw [Harmless, Harmless]
  split
  · refine forall_congr' fun hzero => ?_
    have hquantum : ntohl contents (headerSize + 2) =
        ntohl c.recv.incomingBuffer (headerSize + 2) := by
      rw [hzero, Nat.zero_add] at hsize
      have hbytes : ∀ j, headerSize ≤ j → contents j = c.recv.incomingBuffer j :=
        fun j hj => hbehind j (hsize ▸ hj)
      rw [ntohl, ntohl, hbytes _ (by omega), hbytes _ (by omega), hbytes _ (by omega),
        hbytes _ (by omega)]
    refine ⟨fun h => ⟨h.closesession, fun hcommand => ?_, h.tickle, h.attention⟩,
      fun h => ⟨h.closesession, fun hcommand => ?_, h.tickle, h.attention⟩⟩
    · exact (h.opensession hcommand).trans hquantum
    · exact (h.opensession hcommand).trans hquantum.symm
  · exact Iff.rfl

/-- The lookup finds no request. -/
theorem steps_gotenough_none {s : RecvState} (hid : c.dsiFindRequest (requestid s.incomingBuffer) = none)
    (hanswers : ∀ ev ∈ tr, Answers c ev) (hq : q.Final) (hsteps : Prog.Steps (gotenough s) tr q) :
    ∃ tr', tr = ⟨.findRequest (requestid s.incomingBuffer), none⟩ :: tr' ∧
      Prog.Steps (readBody s none (flags s.incomingBuffer == DSI_REPLY)) tr' q := by
  unfold gotenough at hsteps
  obtain ⟨found, tr', rfl, hfound⟩ := (steps_perform_iff hq).mp hsteps
  have hnone : found = none := (hanswers _ List.mem_cons_self).trans hid
  subst hnone
  exact ⟨tr', rfl, hfound⟩

/-- **One call** for a packet that is harmless. -/
theorem kept_of_call (harr : Arriving packet c) (hharmless : Harmless c packet)
    (hanswers : ∀ ev ∈ tr, Answers c ev) (hq : q.Final)
    (hstream : c.recv.packet ++ (tr.flatMap taken ++ rest) = packet ++ later)
    (hsteps : Prog.Steps (dsiRecv c.recv) tr q) :
    Kept c packet later (c.after o tr rest q) := by
  have hsize := harr.size
  have hpart := harr.partly
  unfold dsiRecv at hsteps
  split at hsteps
  · rename_i hheader
    obtain ⟨answer, tr', rfl, hrest⟩ := (steps_perform_iff hq).mp hsteps
    cases answer with
    | none =>
      obtain ⟨rfl, rfl⟩ := Prog.steps_done_iff.mp hrest
      exact kept_of_failed _
    | some bytes =>
      obtain ⟨hpos, hmax⟩ : 0 < bytes.length ∧ bytes.length ≤ headerSize - c.recv.dataRead :=
        hanswers _ List.mem_cons_self bytes rfl
      replace hanswers := (List.forall_mem_cons.mp hanswers).2
      rw [List.flatMap_cons, List.append_assoc] at hstream
      rw [after_read]
      have hprefix : (c.fill bytes).recv.packet <+: packet := by
        rw [Client.fill, packet_fill]
        exact prefix_of_stream hstream (by rw [length_packet]; omega)
      dsimp only at hrest
      split at hrest
      · rename_i hempty
        obtain ⟨hfull, hlength⟩ := hempty
        obtain ⟨-, -, hid, -, hlength'⟩ := header_of_prefix hprefix (Nat.le_of_eq hfull.symm)
        have hzero : length (ofBytes packet) = 0 := hlength'.symm.trans hlength
        have hlen : packet.length = headerSize := by omega
        have hwhole : (c.fill bytes).recv.packet = packet :=
          hprefix.eq_of_length (by rw [length_packet, hlen]; exact hfull)
        obtain ⟨tr'', rfl, hbody⟩ := @steps_gotenough_none c tr' q (c.recv.fill bytes)
          ((congrArg c.dsiFindRequest hid).trans harr.unmatched) hanswers hq hrest
        rw [after_findRequest]
        unfold readBody at hbody
        rw [if_pos ⟨hfull, hlength⟩] at hbody
        have hharmless' : Harmless (c.fill bytes) packet :=
          (harmless_iff_of_agrees hsize (agrees_fill c bytes) fun j hj =>
            store_of_le _ (by rw [dataRead_fill] at hfull; omega)).mpr hharmless
        obtain ⟨hended, hinert⟩ := @inert_of_whole o (c.fill bytes) packet rest tr'' q hlen hwhole
          hzero harr.alive hharmless' hq hbody
        exact kept_of_ended hended (hinert.of_agrees (agrees_fill c bytes))
      · rename_i hmore
        obtain ⟨rfl, rfl⟩ := Prog.steps_done_iff.mp hrest
        refine kept_fill harr hstream ?_
        by_contra hall
        have hfull : (c.recv.fill bytes).dataRead = headerSize := by rw [dataRead_fill]; omega
        obtain ⟨-, -, -, -, hlength⟩ := header_of_prefix hprefix (Nat.le_of_eq hfull.symm)
        rw [dataRead_fill] at hfull
        exact hmore ⟨by rw [dataRead_fill]; exact hfull, hlength.trans (by omega)⟩
  · rename_i hheader
    have hheader := Nat.not_lt.mp hheader
    obtain ⟨-, -, hid, -, hlength⟩ := header_of_prefix harr.start hheader
    obtain ⟨tr', rfl, hbody⟩ := steps_gotenough_none
      ((congrArg c.dsiFindRequest hid).trans harr.unmatched) hanswers hq hsteps
    rw [after_findRequest]
    exact kept_of_body harr hharmless hheader (by omega) hq hstream hbody

end Calls

/-! ## Runs -/

/-- Nothing is called any more when the packet does not arrive. -/
theorem run_of_ended {o : Outside} {cfg cfg' : Config} {trs : List Trace}
    (hrun : Run (Call o) cfg trs cfg') (h : ∀ c stream, cfg ≠ .receiving c stream) :
    cfg' = cfg := by
  cases hrun with
  | nil => rfl
  | cons hcall _ =>
    cases hcall with
    | receiving => exact absurd rfl (h _ _)

/-- **A harmless packet is inert**, however its arrival is split into calls. -/
theorem inert_of_harmless {o : Outside} {packet later : List UInt8} {c : Client}
    {stream : List UInt8} {trs : List Trace} {cfg : Config} (harr : Arriving packet c)
    (hharmless : Harmless c packet) (hstream : c.recv.packet ++ stream = packet ++ later)
    (hrun : Run (Call o) (.receiving c stream) trs cfg) : Inert c packet cfg := by
  generalize hstart : Config.receiving c stream = start at hrun
  induction hrun generalizing c stream with
  | nil =>
    subst hstart
    exact fun _ => .refl c
  | cons hcall hrest ih =>
    cases hcall with
    | receiving hq hsteps hanswers =>
      obtain ⟨rfl, rfl⟩ := Config.receiving.inj hstart
      have hkept := @kept_of_call o c packet later _ _ _ harr hharmless hanswers hq hstream hsteps
      generalize c.after _ _ _ _ = next at hkept hrest ih
      cases next with
      | receiving c' stream' =>
        obtain ⟨harr', hagrees, hbehind, hstream'⟩ := hkept
        have hharmless' := (harmless_iff_of_agrees harr.size hagrees hbehind).mpr hharmless
        exact (ih harr' hharmless' hstream' rfl).of_agrees hagrees
      | consumed c' => exact run_of_ended hrest nofun ▸ hkept.inert
      | failed c' => exact run_of_ended hrest nofun ▸ hkept.inert
      | undefined => exact run_of_ended hrest nofun ▸ hkept.inert
      | absent => exact run_of_ended hrest nofun ▸ hkept.inert

/-! ## Packets that are not harmless -/

/-- No connection can be made. -/
def refused : Resume where
  outcome := { socket := -1, connectErrno := none, socketErrno := 24, getstatus := 0 }
  login := 0
  closed := false

/-- Nothing is answered. -/
def quiet : Outside where
  requests := fun _ => { close := [], logout := refused }
  left := { lastrequestid := 0, expectedrequestid := 0, commandRequests := [] }
  tickle := refused
  handle := 0
  beyond := { version := fun _ => none, uam := fun _ => none }

/-- A request that is sent keeps the id, if no connection can be made. -/
theorem lastrequestid_of_dsiSend {fuel : ℕ} {st st' : State} {s : Addr} {srv : Server.AfpServer}
    (hsrv : st.heap s = some srv) (h : Lifecycle.dsiSend fuel st s refused = some st') :
    ∃ srv', st'.heap s = some srv' ∧ srv'.lastrequestid = srv.lastrequestid := by
  rw [Lifecycle.dsiSend, hsrv] at h
  split at h
  · cases h
  · exact Option.some.inj h ▸ ⟨srv, hsrv, rfl⟩
  dsimp only at h
  split at h
  · exact Option.some.inj h ▸ ⟨srv, hsrv, rfl⟩
  split at h
  · have hheap : (st.store s { srv with fd := -1 }).heap s = some { srv with fd := -1 } :=
      Function.update_self _ _ _
    have hst : (afpServerReconnect st s srv refused.outcome refused.login).2 =
        st.store s { srv with fd := -1 } := rfl
    rw [hst, noteClosed, hheap] at h
    exact Option.some.inj h ▸ ⟨_, hheap, rfl⟩
  · rw [noteClosed, hsrv] at h
    exact Option.some.inj h ▸ ⟨srv, hsrv, rfl⟩

/-- **A tickle** takes an id. -/
theorem sys_ne_of_dsiIncomingTickle {c c' : Client} (h : c.dsiIncomingTickle quiet = some c') :
    c'.sys ≠ c.sys := by
  obtain ⟨c₁, hsetup, hsend⟩ := Option.bind_eq_some_iff.mp h
  rw [Client.dsiSetupHeader] at hsetup
  split at hsetup
  · cases hsetup
  rename_i srv hsrv
  obtain rfl := Option.some.inj hsetup
  rw [Client.sendTickle] at hsend
  split at hsend
  · rename_i valid srv₁ st hvalid hsrv₁ hst
    obtain rfl := Option.some.inj hsend
    obtain ⟨srv', hsrv', hid⟩ := lastrequestid_of_dsiSend (Function.update_self _ _ _) hst
    intro heq
    have hheap : st.heap c.server = some srv :=
      (congrFun (congrArg (fun t : System => t.st.heap) heq) c.server).trans hsrv
    rw [Option.some.inj (hsrv'.symm.trans hheap)] at hid
    exact nextRequestid_ne srv.lastrequestid hid.symm
  · cases hsend

/-- What there is to do. -/
theorem cases_of_not_nothingToDo {c : Client} {command : UInt8} (h : ¬ NothingToDo c command) :
    (command = DSI_DSICloseSession ∧
        (c.sys.st.Connected c.server ∨ .mounted ∈ (c.sys.fields c.server).volumes)) ∨
      (command = DSI_DSIOpenSession ∧
        c.txQuantum ≠ ntohl c.recv.incomingBuffer (headerSize + 2)) ∨
      command = DSI_DSITickle ∨ command = DSI_DSIAttention := by
  by_contra hnone
  simp only [not_or, not_and, not_not] at hnone
  exact h ⟨hnone.1, hnone.2.1, hnone.2.2.1, hnone.2.2.2⟩

theorem exists_handlerOf {c : Client} {command : UInt8} (h : ¬ NothingToDo c command) :
    ∃ handler, handlerOf command = some handler := by
  rcases cases_of_not_nothingToDo h with ⟨rfl, -⟩ | ⟨rfl, -⟩ | rfl | rfl
  all_goals exact ⟨_, rfl⟩

/-- **Something to do**: the function changes the client, or fails. -/
theorem not_agrees_of_handle {c c' : Client} {command : UInt8} {h : Handler} {s : RecvState}
    (hcommand : handlerOf command = some h) (hnot : ¬ NothingToDo c command)
    (hhandle : c.handle quiet h = some c') : ¬ c.Agrees { c' with recv := s } := by
  rintro ⟨contents, dataRead, heq⟩
  have hsys : c'.sys = c.sys := by injection heq
  rcases cases_of_not_nothingToDo hnot with ⟨rfl, hopen⟩ | ⟨rfl, hquantum⟩ | rfl | rfl
  · obtain rfl := Option.some.inj hcommand
    exact sys_ne_of_dsiIncomingClosesession hhandle hopen hsys
  · obtain rfl := Option.some.inj hcommand
    obtain rfl := Option.some.inj hhandle
    exact hquantum (congrArg Client.txQuantum heq).symm
  · obtain rfl := Option.some.inj hcommand
    exact sys_ne_of_dsiIncomingTickle hhandle hsys
  · obtain rfl := Option.some.inj hcommand
    obtain rfl := Option.some.inj hhandle
    exact absurd (congrArg Client.attentions heq) (Nat.succ_ne_self _)

theorem call_of_steps {o : Outside} {c : Client} {stream : List UInt8} {tr : Trace}
    {q : RecvM (ℤ × RecvState)} {cfg : Config} (hsteps : Prog.Steps (dsiRecv c.recv) tr q)
    (hq : q.Final) (rest : List UInt8) (hanswers : ∀ ev ∈ tr, Answers c ev)
    (hstream : tr.flatMap taken ++ rest = stream) (hcfg : c.after o tr rest q = cfg) :
    Call o (.receiving c stream) tr cfg := by
  subst hstream hcfg
  exact .receiving hq hsteps hanswers

section Arrives

variable {c : Client} {packet : List UInt8}

/-- The packet is one that is not harmless. -/
theorem not_harmless_cases (hnot : ¬ Harmless c packet) :
    (flags (ofBytes packet) = DSI_REPLY ∧ length (ofBytes packet) = 0 ∧
        ¬ NothingToDo c (command (ofBytes packet))) ∨
      (flags (ofBytes packet) ≠ DSI_REPLY ∧ IsCommand (command (ofBytes packet))) := by
  rw [Harmless] at hnot
  split at hnot
  · rename_i hreply
    exact .inl ⟨hreply, Classical.not_imp.mp hnot⟩
  · rename_i hreply
    refine .inr ⟨hreply, ?_⟩
    by_contra hcommand
    exact hnot (not_or.mp hcommand)

/-- The packet in the buffer is the first part. -/
theorem packet_append_drop (harr : Arriving packet c) :
    c.recv.packet ++ packet.drop c.recv.dataRead = packet := by
  have htake : c.recv.packet = packet.take c.recv.dataRead := by
    have h := List.prefix_iff_eq_take.mp harr.start
    rwa [length_packet] at h
  rw [htake, List.take_append_drop]

theorem packet_fill_drop (harr : Arriving packet c) :
    (c.fill (packet.drop c.recv.dataRead)).recv.packet = packet := by
  rw [Client.fill, packet_fill, packet_append_drop harr]

theorem dataRead_fill_drop (harr : Arriving packet c) :
    (c.fill (packet.drop c.recv.dataRead)).recv.dataRead = packet.length := by
  rw [← length_packet, packet_fill_drop harr]

theorem drop_ne_nil (harr : Arriving packet c) : 0 < (packet.drop c.recv.dataRead).length := by
  have hpart := harr.partly
  rw [List.length_drop]
  omega

/-- **A packet without a body arrives** in one read, and is processed. -/
theorem steps_of_header (harr : Arriving packet c) (hzero : length (ofBytes packet) = 0)
    {tr : Trace} {q : RecvM (ℤ × RecvState)}
    (hsteps : Prog.Steps (processPacket (c.fill (packet.drop c.recv.dataRead)).recv none
      (flags (ofBytes packet) == DSI_REPLY)) tr q) :
    Prog.Steps (dsiRecv c.recv)
      (⟨.read (headerSize - c.recv.dataRead), some (packet.drop c.recv.dataRead)⟩ ::
        ⟨.findRequest (requestid (ofBytes packet)), none⟩ :: tr) q := by
  have hsize := harr.size
  rw [hzero, Nat.zero_add] at hsize
  have hfull := dataRead_fill_drop harr
  have hpart := harr.partly
  obtain ⟨hflags, -, hid, -, hlength⟩ := header_of_prefix
    (⟨[], by rw [List.append_nil, packet_fill_drop harr]⟩ :
      (c.fill (packet.drop c.recv.dataRead)).recv.packet <+: packet) (by omega)
  rw [hsize] at hfull
  rw [hzero] at hlength
  rw [← hflags] at hsteps
  rw [← hid]
  unfold dsiRecv
  rw [if_pos (by omega)]
  refine .act ?_
  let filled := c.recv.fill (packet.drop c.recv.dataRead)
  change Prog.Steps (if filled.dataRead = headerSize ∧ length filled.incomingBuffer = 0 then
    gotenough filled else _) _ q
  rw [if_pos ⟨hfull, hlength⟩]
  refine .act ?_
  change Prog.Steps (readBody filled none _) tr q
  unfold readBody
  rw [if_pos ⟨hfull, hlength⟩]
  exact hsteps

/-- **The body of a command arrives**, and the request is used. -/
theorem steps_of_body (harr : Arriving packet c) (hheader : headerSize ≤ c.recv.dataRead)
    (hreply : flags (ofBytes packet) ≠ DSI_REPLY) (hcommand : IsCommand (command (ofBytes packet))) :
    Prog.Steps (dsiRecv c.recv)
      [⟨.findRequest (requestid (ofBytes packet)), none⟩,
        ⟨.read (min (length (ofBytes packet)) c.recv.bufsize),
          some (packet.drop c.recv.dataRead)⟩] .stuck := by
  have hsize := harr.size
  have hpart := harr.partly
  obtain ⟨hflags, -, hid, -, hlength⟩ := header_of_prefix harr.start hheader
  have hfull := dataRead_fill_drop harr
  obtain ⟨-, hcommand', -, -, hlength'⟩ := header_of_prefix
    (⟨[], by rw [List.append_nil, packet_fill_drop harr]⟩ :
      (c.fill (packet.drop c.recv.dataRead)).recv.packet <+: packet) (by omega)
  rw [← hid, ← hlength]
  unfold dsiRecv
  rw [if_neg (by omega)]
  refine .act ?_
  change Prog.Steps (readBody _ none _) _ _
  unfold readBody
  rw [if_neg (by omega)]
  refine .act ?_
  let filled := c.recv.fill (packet.drop c.recv.dataRead)
  change Prog.Steps (if filled.dataRead < length filled.incomingBuffer + headerSize then _ else
    if (flags c.recv.incomingBuffer == DSI_REPLY) = true then _ else processPacket filled none _)
    [] .stuck
  have hrunt : ¬ (flags c.recv.incomingBuffer == DSI_REPLY) = true := by
    rwa [hflags, beq_iff_eq]
  have hcommand : IsCommand (command filled.incomingBuffer) := hcommand'.symm ▸ hcommand
  rw [if_neg (Nat.not_lt.mpr (Nat.le_of_eq (hlength'.symm ▸ hsize.symm.trans hfull.symm))),
    if_neg hrunt, processPacket_of_command hcommand, if_neg hrunt]
  exact .refl _

theorem answers_read {n : ℕ} {bytes : List UInt8} (hpos : 0 < bytes.length)
    (hmax : bytes.length ≤ n) : Answers c ⟨.read n, some bytes⟩ :=
  fun _ h => Option.some.inj h ▸ ⟨hpos, hmax⟩

/-- **A reply that gives its function something to do** is not inert. -/
theorem exists_call_of_reply (harr : Arriving packet c)
    (hreply : flags (ofBytes packet) = DSI_REPLY) (hzero : length (ofBytes packet) = 0)
    (hnot : ¬ NothingToDo (c.fill (packet.drop c.recv.dataRead)) (command (ofBytes packet)))
    (later : List UInt8) :
    ∃ tr cfg, Call quiet (.receiving c (packet.drop c.recv.dataRead ++ later)) tr cfg ∧
      ¬ Inert c packet cfg := by
  let c' := c.fill (packet.drop c.recv.dataRead)
  have hsize := harr.size
  have hfull : c'.recv.dataRead = packet.length := dataRead_fill_drop harr
  obtain ⟨-, hcommand, -, -, -⟩ := header_of_prefix
    (⟨[], by rw [List.append_nil, packet_fill_drop harr]⟩ : c'.recv.packet <+: packet) (by omega)
  obtain ⟨h, hhandler⟩ := exists_handlerOf hnot
  rw [← hcommand] at hhandler
  obtain ⟨contents, dataRead, hafter⟩ := afterProcessing_none (noted c'.recv h)
  let q : RecvM (ℤ × RecvState) :=
    .done (0, { noted c'.recv h with incomingBuffer := contents, dataRead := dataRead })
  have hsteps : Prog.Steps (processPacket c'.recv none (flags (ofBytes packet) == DSI_REPLY))
      [⟨.handle h c'.recv.packet, ()⟩] q := by
    rw [processPacket_of_handler hhandler, hafter]
    exact .act (.refl _)
  refine ⟨_, c.after quiet _ later q,
    call_of_steps (steps_of_header harr hzero hsteps) trivial later ?_ (by simp [taken]) rfl, ?_⟩
  · refine List.forall_mem_cons.mpr ⟨answers_read (drop_ne_nil harr) ?_,
      List.forall_mem_cons.mpr ⟨harr.unmatched.symm, List.forall_mem_singleton.mpr trivial⟩⟩
    rw [List.length_drop]
    omega
  · rw [after_read, after_findRequest]
    obtain ⟨contents, dataRead, hresult⟩ :=
      @after_of_handler quiet c' later _ q h _ hhandler trivial hsteps
    rw [hresult]
    cases hhandle : c'.handle quiet h with
    | none => exact fun hinert => hinert hreply
    | some c'' =>
      rw [hcommand] at hhandler
      exact fun hinert => not_agrees_of_handle hhandler hnot hhandle
        ((agrees_fill c _).symm.trans (hinert hreply))

/-- **A command without a body** uses the request. -/
theorem call_of_empty_command (harr : Arriving packet c) (hzero : length (ofBytes packet) = 0)
    (hreply : flags (ofBytes packet) ≠ DSI_REPLY) (hcommand : IsCommand (command (ofBytes packet)))
    (later : List UInt8) :
    ∃ tr, Call quiet (.receiving c (packet.drop c.recv.dataRead ++ later)) tr .absent := by
  let c' := c.fill (packet.drop c.recv.dataRead)
  have hsize := harr.size
  have hfull : c'.recv.dataRead = packet.length := dataRead_fill_drop harr
  obtain ⟨-, hcommand', -, -, -⟩ := header_of_prefix
    (⟨[], by rw [List.append_nil, packet_fill_drop harr]⟩ : c'.recv.packet <+: packet) (by omega)
  have hsteps : Prog.Steps (processPacket c'.recv none (flags (ofBytes packet) == DSI_REPLY)) []
      .stuck := by
    rw [processPacket_of_command (hcommand'.symm ▸ hcommand), if_neg (by rwa [beq_iff_eq])]
    exact .refl _
  refine ⟨_, call_of_steps (steps_of_header harr hzero hsteps) trivial later ?_ (by simp [taken]) rfl⟩
  refine List.forall_mem_cons.mpr ⟨answers_read (drop_ne_nil harr) ?_,
    List.forall_mem_singleton.mpr harr.unmatched.symm⟩
  rw [List.length_drop]
  omega

/-- **The body of a command** uses the request. -/
theorem call_of_command (harr : Arriving packet c) (hheader : headerSize ≤ c.recv.dataRead)
    (hreply : flags (ofBytes packet) ≠ DSI_REPLY) (hcommand : IsCommand (command (ofBytes packet)))
    (later : List UInt8) :
    ∃ tr, Call quiet (.receiving c (packet.drop c.recv.dataRead ++ later)) tr .absent := by
  have hsize := harr.size
  have hfits := harr.fits
  refine ⟨_, call_of_steps (steps_of_body harr hheader hreply hcommand) trivial later ?_
    (by simp [taken]) rfl⟩
  refine List.forall_mem_cons.mpr ⟨harr.unmatched.symm,
    List.forall_mem_singleton.mpr (answers_read (drop_ne_nil harr) ?_)⟩
  rw [List.length_drop]
  omega

/-- **The header of a packet with a body arrives.** -/
theorem call_of_header (harr : Arriving packet c) (hheader : c.recv.dataRead < headerSize)
    (hbody : length (ofBytes packet) ≠ 0) (later : List UInt8) :
    ∃ tr c', Call quiet (.receiving c (packet.drop c.recv.dataRead ++ later)) tr
        (.receiving c' (packet.drop c'.recv.dataRead ++ later)) ∧
      Arriving packet c' ∧ headerSize ≤ c'.recv.dataRead := by
  have hsize := harr.size
  let bytes := (packet.drop c.recv.dataRead).take (headerSize - c.recv.dataRead)
  let rest := (packet.drop c.recv.dataRead).drop (headerSize - c.recv.dataRead)
  have hbytes : bytes.length = headerSize - c.recv.dataRead := by
    rw [List.length_take, List.length_drop]
    omega
  have hstream : bytes ++ (rest ++ later) = packet.drop c.recv.dataRead ++ later := by
    rw [← List.append_assoc, List.take_append_drop]
  have hdataRead : (c.fill bytes).recv.dataRead = headerSize := by
    change c.recv.dataRead + bytes.length = headerSize
    omega
  obtain ⟨harr', -, -, -⟩ := @kept_fill c packet later (rest ++ later) harr bytes
    (by rw [hstream, ← List.append_assoc, packet_append_drop harr]) (by omega)
  obtain ⟨-, -, -, -, hlength⟩ := header_of_prefix harr'.start (Nat.le_of_eq hdataRead.symm)
  have hsteps : Prog.Steps (dsiRecv c.recv)
      [⟨.read (headerSize - c.recv.dataRead), some bytes⟩] (.done (0, c.recv.fill bytes)) := by
    unfold dsiRecv
    rw [if_pos hheader]
    refine .act ?_
    change Prog.Steps (if (c.fill bytes).recv.dataRead = headerSize ∧
      length (c.fill bytes).recv.incomingBuffer = 0 then _ else _) [] _
    rw [if_neg fun h => hbody (hlength.symm.trans h.2)]
    exact .refl _
  have hrest : packet.drop (c.fill bytes).recv.dataRead = rest := by
    rw [hdataRead]
    change packet.drop headerSize =
      (packet.drop c.recv.dataRead).drop (headerSize - c.recv.dataRead)
    rw [List.drop_drop]
    congr 1
    omega
  refine ⟨_, c.fill bytes, call_of_steps hsteps trivial (rest ++ later) ?_ ?_ ?_, harr',
    Nat.le_of_eq hdataRead.symm⟩
  · exact List.forall_mem_singleton.mpr (answers_read (by omega) (Nat.le_of_eq hbytes))
  · rw [← hstream, List.flatMap_singleton]
    rfl
  · rw [hrest]
    rfl

/-- **A packet that is not harmless** is not inert in some run. -/
theorem exists_run_of_not_harmless (harr : Arriving packet c) (hnot : ¬ Harmless c packet)
    (later : List UInt8) :
    ∃ trs cfg, Run (Call quiet) (.receiving c (packet.drop c.recv.dataRead ++ later)) trs cfg ∧
      ¬ Inert c packet cfg := by
  rcases not_harmless_cases hnot with ⟨hreply, hzero, hnothing⟩ | ⟨hreply, hcommand⟩
  · have hnot' : ¬ Harmless (c.fill (packet.drop c.recv.dataRead)) packet := fun h =>
      hnot ((harmless_iff_of_agrees harr.size (agrees_fill c _) fun j hj =>
        store_of_le _ (by
          have hpart := harr.partly
          rw [List.length_drop]
          omega)).mp h)
    rw [Harmless, if_pos hreply] at hnot'
    obtain ⟨tr, cfg, hcall, hinert⟩ := exists_call_of_reply harr hreply hzero
      (fun h => hnot' fun _ => h) later
    exact ⟨[tr], cfg, .cons hcall (.nil _), hinert⟩
  by_cases hzero : length (ofBytes packet) = 0
  · obtain ⟨tr, hcall⟩ := call_of_empty_command harr hzero hreply hcommand later
    exact ⟨[tr], .absent, .cons hcall (.nil _), id⟩
  by_cases hheader : headerSize ≤ c.recv.dataRead
  · obtain ⟨tr, hcall⟩ := call_of_command harr hheader hreply hcommand later
    exact ⟨[tr], .absent, .cons hcall (.nil _), id⟩
  · obtain ⟨tr, c', hcall, harr', hheader'⟩ :=
      call_of_header harr (Nat.lt_of_not_le hheader) hzero later
    obtain ⟨tr', hcall'⟩ := call_of_command harr' hheader' hreply hcommand later
    exact ⟨[tr, tr'], .absent, .cons hcall (.cons hcall' (.nil _)), id⟩

end Arrives

/-! ## The result -/

/-- A client that is connected to one server, and has sent no request. -/
def atRest : Client where
  sys := { System.init with
    st := addServer .init 1
      { afpServerInit (loopback 548) with fd := 3, connectState := .connected } }
  server := 1
  buffer := 4096
  recv := .init fun _ => 0
  attentionBuffer := fun _ => 0
  txQuantum := 65536
  expectedrequestid := 0
  about :=
    { versions := List.replicate 10 0
      supportedUams := 0
      machineType := []
      icon := []
      flags := 0 }
  commandRequests := []
  attentions := 0

/-- A reply with two bytes that no request waits for. -/
def strayReply : List UInt8 := [1, 2, 0, 9, 0, 0, 0, 0, 0, 0, 0, 2, 0, 0, 0, 0, 10, 11]

/-- A command of the server. -/
def strayCommand : List UInt8 := [0, 2, 0, 9, 0, 0, 0, 0, 0, 0, 0, 0, 0, 0, 0, 0]

theorem arriving_atRest {packet : List UInt8}
    (hsize : packet.length = length (ofBytes packet) + headerSize) (hfits : packet.length ≤ 2048) :
    Arriving packet atRest where
  size := hsize
  fits := hfits
  alive := rfl
  unmatched := rfl
  start := List.nil_prefix
  partly := hsize ▸ Nat.succ_pos _

end Unmatched
end Dsi
end Afpfs
