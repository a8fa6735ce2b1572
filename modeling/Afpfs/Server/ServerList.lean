import Afpfs.Lib.PointerList
import Afpfs.Lib.Transition
import Mathlib.Data.Int.Notation
import Mathlib.Order.Basic

/-!
# The list of servers

`server_base` heads a list of `struct afp_server` linked through `next` (`lib/afp.c`).  A
successful `afp_server_connect` pushes the server with `add_server`; `afp_server_remove` takes it
out and frees it; `loop_disconnect` (`lib/loop.c`) only closes the socket, so a suspended server
or one whose connection was lost stays in the list.  `afp_server_reconnect` resumes such a server
through the same `afp_server_connect`.

`step` has one action for each of these.  `ListShape` is what every loop over the list relies on:
the links from `server_base` are finite and reach every connected server.

* `step_listShape`: a step keeps the shape unless it pushes a server that is still in the list
  (`Pushes`), and `not_listShape_of_pushes`: such a step always destroys it.
* `walks_of_lists`: on a list of that shape the four loops end and answer by the list.
* `serverList_run`: the two facts along a run.
-/

set_option autoImplicit false

namespace Afpfs
namespace Server

open PointerList Transition

/-- The address of a `struct afp_server`. -/
abbrev Addr := ℕ

/-- `struct sockaddr_in`, as `bcmp` compares it. -/
structure SockaddrIn where
  sinAddr : UInt32
  sinPort : UInt16
  deriving DecidableEq

/-- `SERVER_STATE_CONNECTED` and `SERVER_STATE_DISCONNECTED`. -/
inductive ConnectState where
  | connected
  | disconnected
  deriving DecidableEq

/-- The fields of `struct afp_server` that the list operations read or write. -/
structure AfpServer where
  serverName : List UInt8
  serverNameUtf8 : List UInt8
  address : SockaddrIn
  fd : ℤ
  connectState : ConnectState
  needResume : Bool
  exitFlag : Bool
  lastrequestid : UInt16
  rxQuantum : UInt32
  next : Option Addr

/-- The heap of server structures and the head of their list. -/
structure State where
  heap : Addr → Option AfpServer
  serverBase : Option Addr

namespace State

/-- No server is known. -/
def init : State where
  heap := fun _ => none
  serverBase := none

/-- Store a server structure. -/
def store (st : State) (s : Addr) (srv : AfpServer) : State :=
  { st with heap := Function.update st.heap s (some srv) }

/-- `free()` of a server structure. -/
def release (st : State) (s : Addr) : State :=
  { st with heap := Function.update st.heap s none }

/-- The servers the event loop has to serve. -/
def Connected (st : State) (s : Addr) : Prop :=
  ∃ srv, st.heap s = some srv ∧ srv.connectState = .connected

/-- The addresses reached from `server_base`. -/
def Lists (st : State) (l : List Addr) : Prop :=
  Linked st.heap AfpServer.next st.serverBase l

end State

/-! ## The loops over the list -/

/-- `server_still_valid()`. -/
def serverStillValid (st : State) (fuel : ℕ) (server : Addr) : Option Bool :=
  (search st.heap AfpServer.next (fun s _ => s == server) fuel st.serverBase).map Option.isSome

/-- `find_server_by_name()`.  The converted name it computes is not used. -/
def findServerByName (st : State) (fuel : ℕ) (servername : List UInt8) : Option (Option Addr) :=
  search st.heap AfpServer.next
    (fun _ srv => srv.serverNameUtf8 == servername || srv.serverName == servername)
    fuel st.serverBase

/-- `find_server_by_address()`. -/
def findServerByAddress (st : State) (fuel : ℕ) (address : SockaddrIn) : Option (Option Addr) :=
  search st.heap AfpServer.next (fun _ srv => srv.address == address) fuel st.serverBase

/-- What one call of `process_server_fds()` does. -/
inductive Scan where
  /-- No server has its descriptor in the set: returns 0. -/
  | idle
  /-- "Danger, recursive loop": returns -1. -/
  | recursiveLoop
  /-- `dsi_recv()` runs for this server. -/
  | recv (s : Addr)
  deriving DecidableEq

/-- The loop of `process_server_fds()`, which looks out for a server linked to itself. -/
def scanFrom (heap : Addr → Option AfpServer) (set : ℤ → Bool) : ℕ → Option Addr → Option Scan
  | _, none => some .idle
  | 0, some _ => none
  | fuel + 1, some s =>
    match heap s with
    | none => none
    | some srv =>
      if srv.next = some s then some .recursiveLoop
      else if set srv.fd then some (.recv s)
      else scanFrom heap set fuel srv.next

/-- `process_server_fds()`. -/
def processServerFds (st : State) (fuel : ℕ) (set : ℤ → Bool) : Option Scan :=
  scanFrom st.heap set fuel st.serverBase

/-! ## The operations on the list -/

/-- `afp_server_init()`. -/
def afpServerInit (address : SockaddrIn) : AfpServer where
  serverName := []
  serverNameUtf8 := []
  address := address
  fd := 0
  connectState := .disconnected
  needResume := false
  exitFlag := false
  lastrequestid := 0
  rxQuantum := 0
  next := none

/-- `add_server()`, on a structure about to be stored at `s`. -/
def addServer (st : State) (s : Addr) (newserver : AfpServer) : State :=
  { (st.store s { newserver with next := st.serverBase }) with serverBase := some s }

/-- What the system calls of a connection attempt return. -/
structure ConnectOutcome where
  /-- The result of `socket()`. -/
  socket : ℤ
  /-- The error of `connect()`, if it fails. -/
  connectErrno : Option ℕ
  /-- The error of `socket()`, read only when it fails. -/
  socketErrno : ℕ
  /-- The result of `dsi_getstatus()`, read only by a full connection. -/
  getstatus : ℤ

/-- The attempt reaches the call of `add_server()`. -/
def ConnectOutcome.Accepted (o : ConnectOutcome) : Prop :=
  0 ≤ o.socket ∧ o.connectErrno = none

instance (o : ConnectOutcome) : Decidable o.Accepted :=
  inferInstanceAs (Decidable (_ ∧ _))

/-- `afp_server_connect()` on the structure `srv` at `s`: its result and the state after it. -/
def afpServerConnect (st : State) (s : Addr) (srv : AfpServer) (full : Bool)
    (o : ConnectOutcome) : ℤ × State :=
  if o.socket < 0 then (-o.socketErrno, st.store s { srv with fd := o.socket })
  else
    match o.connectErrno with
    | some e => (-e, st.store s { srv with fd := o.socket })
    | none =>
      let srv := { srv with
        fd := o.socket, exitFlag := false, lastrequestid := 0, connectState := .connected }
      if !full then (0, addServer st s srv)
      else if o.getstatus ≠ 0 then (-o.getstatus, addServer st s srv)
      else (0, addServer st s { srv with rxQuantum := 128 * 1024 })

/-- `afp_server_reconnect()`.  What follows the connection (session, login, volumes) does not
touch the list; `login` is the result of `afp_server_login()`. -/
def afpServerReconnect (st : State) (s : Addr) (srv : AfpServer) (o : ConnectOutcome)
    (login : ℤ) : ℤ × State :=
  let (ret, st) := afpServerConnect st s srv false o
  if ret ≠ 0 then (1, st)
  else if login ≠ 0 then (1, st)
  else (0, st)

/-- `loop_disconnect()`. -/
def loopDisconnect (st : State) (s : Addr) (srv : AfpServer) : State :=
  if srv.connectState ≠ .connected then st
  else st.store s { srv with connectState := .disconnected, needResume := true }

/-- `afp_server_remove()` and the `afp_free_server()` it ends with.  The walk for the
predecessor has fuel. -/
def afpServerRemove (st : State) (fuel : ℕ) (s : Addr) (srv : AfpServer) : Option (ℤ × State) :=
  if st.serverBase = some s then
    some (0, { st with serverBase := srv.next }.release s)
  else
    match search st.heap AfpServer.next (fun _ s2 => s2.next == some s) fuel st.serverBase with
    | none => none
    | some none => some (-1, st)
    | some (some p) =>
      match st.heap p with
      | none => none
      | some prev => some (0, (st.store p { prev with next := srv.next }).release s)

/-! ## Steps -/

/-- What may happen to the list. -/
inductive Action where
  /-- `afp_server_init()` at a fresh address, then `afp_server_connect()`. -/
  | connect (s : Addr) (address : SockaddrIn) (full : Bool) (o : ConnectOutcome)
  /-- The server is suspended or its connection is lost. -/
  | disconnect (s : Addr)
  /-- A known server is resumed. -/
  | reconnect (s : Addr) (o : ConnectOutcome) (login : ℤ)
  /-- A known server is given up. -/
  | remove (s : Addr) (fuel : ℕ)

/-- One action.  A new server is at an address not in use, the others at a known one. -/
def step (st : State) : Action → Option State
  | .connect s address full o =>
    match st.heap s with
    | none => some (afpServerConnect st s (afpServerInit address) full o).2
    | some _ => none
  | .disconnect s => (st.heap s).map (loopDisconnect st s)
  | .reconnect s o login => (st.heap s).map fun srv => (afpServerReconnect st s srv o login).2
  | .remove s fuel =>
    match st.heap s with
    | none => none
    | some srv => (afpServerRemove st fuel s srv).map Prod.snd

/-- The action calls `add_server()` for a server that is already in the list. -/
def Pushes (st : State) : Action → Prop
  | .reconnect s o _ => o.Accepted ∧ ∃ l, st.Lists l ∧ s ∈ l
  | _ => False

/-! ## The shape of the list -/

/-- The links from `server_base` are finite and reach every connected server. -/
def ListShape (st : State) : Prop :=
  ∃ l, st.Lists l ∧ ∀ s, st.Connected s → s ∈ l

theorem listShape_init : ListShape State.init :=
  ⟨[], linked_none.mpr rfl, fun _ ⟨_, h, _⟩ => absurd h (by simp [State.init])⟩

@[simp] theorem store_serverBase (st : State) (s : Addr) (srv : AfpServer) :
    (st.store s srv).serverBase = st.serverBase := rfl

@[simp] theorem store_heap (st : State) (s : Addr) (srv : AfpServer) :
    (st.store s srv).heap = Function.update st.heap s (some srv) := rfl

@[simp] theorem release_serverBase (st : State) (s : Addr) :
    (st.release s).serverBase = st.serverBase := rfl

@[simp] theorem release_heap (st : State) (s : Addr) :
    (st.release s).heap = Function.update st.heap s none := rfl

/-- The connected servers after a store: the new structure decides at its address. -/
theorem connected_store {st : State} {s t : Addr} {srv : AfpServer} :
    (st.store s srv).Connected t ↔
      (t = s ∧ srv.connectState = .connected) ∨ (t ≠ s ∧ st.Connected t) := by
  unfold State.Connected
  by_cases h : t = s
  · subst h
    simp
  · simp [h]

/-- Rewriting a known structure without touching its link keeps the shape, provided it is not
made connected off the list. -/
theorem listShape_store {st : State} {s : Addr} {srv srv' : AfpServer}
    (hs : st.heap s = some srv) (hnext : srv'.next = srv.next)
    (hstate : srv'.connectState = .connected → srv.connectState = .connected)
    (h : ListShape st) : ListShape (st.store s srv') := by
  obtain ⟨l, hl, hconn⟩ := h
  refine ⟨l, Linked.update_same_next hs hnext hl, fun t ht => ?_⟩
  rcases connected_store.mp ht with ⟨rfl, hc⟩ | ⟨-, hc⟩
  · exact hconn t ⟨srv, hs, hstate hc⟩
  · exact hconn t hc

/-- Storing a structure that is not connected at an address off the list keeps the shape. -/
theorem listShape_store_fresh {st : State} {s : Addr} {srv' : AfpServer}
    (hs : ∀ l, st.Lists l → s ∉ l) (hstate : srv'.connectState ≠ .connected)
    (h : ListShape st) : ListShape (st.store s srv') := by
  obtain ⟨l, hl, hconn⟩ := h
  refine ⟨l, hl.update (hs l hl), fun t ht => ?_⟩
  rcases connected_store.mp ht with ⟨rfl, hc⟩ | ⟨-, hc⟩
  · exact absurd hc hstate
  · exact hconn t hc

/-- `add_server()` keeps the shape when the server is not in the list. -/
theorem listShape_addServer {st : State} {s : Addr} {srv' : AfpServer}
    (hs : ∀ l, st.Lists l → s ∉ l) (h : ListShape st) : ListShape (addServer st s srv') := by
  obtain ⟨l, hl, hconn⟩ := h
  refine ⟨s :: l, hl.push (hs l hl) rfl, fun t ht => ?_⟩
  rcases connected_store.mp (show (st.store s _).Connected t from ht) with ⟨rfl, -⟩ | ⟨-, hc⟩
  · exact List.mem_cons_self ..
  · exact List.mem_cons_of_mem _ (hconn t hc)

/-- What `afp_server_connect()` can do to the state: store the structure with a new descriptor,
or push it. -/
theorem afpServerConnect_cases (st : State) (s : Addr) (srv : AfpServer) (full : Bool)
    (o : ConnectOutcome) :
    (¬ o.Accepted ∧
      (afpServerConnect st s srv full o).2 = st.store s { srv with fd := o.socket }) ∨
    (o.Accepted ∧ ∃ srv', srv'.connectState = .connected ∧
      (afpServerConnect st s srv full o).2 = addServer st s srv') := by
  unfold afpServerConnect ConnectOutcome.Accepted
  by_cases hsock : o.socket < 0
  · refine Or.inl ⟨fun h => absurd h.1 (Int.not_le.mpr hsock), ?_⟩
    rw [if_pos hsock]
  · rw [if_neg hsock]
    cases hconn : o.connectErrno with
    | some e => exact Or.inl ⟨fun h => absurd h.2 (by simp), rfl⟩
    | none =>
      refine Or.inr ⟨⟨Int.not_lt.mp hsock, rfl⟩, ?_⟩
      by_cases hfull : full = true
      · by_cases hget : o.getstatus = 0
        · exact ⟨_, rfl, by rw [hfull, if_neg (by simp), if_neg (not_not.mpr hget)]⟩
        · exact ⟨_, rfl, by rw [hfull, if_neg (by simp), if_pos hget]⟩
      · exact ⟨_, rfl, by rw [if_pos (by simpa using hfull)]⟩

theorem afpServerReconnect_state (st : State) (s : Addr) (srv : AfpServer) (o : ConnectOutcome)
    (login : ℤ) :
    (afpServerReconnect st s srv o login).2 = (afpServerConnect st s srv false o).2 := by
  unfold afpServerReconnect
  split
  split
  · simp_all
  · split <;> simp_all

/-- A structure that is not allocated is in no list. -/
theorem not_mem_of_fresh {st : State} {s : Addr} (hs : st.heap s = none) (l : List Addr)
    (hl : st.Lists l) : s ∉ l := fun hmem => by
  obtain ⟨srv, hsrv⟩ := hl.allocated hmem
  rw [hs] at hsrv
  exact absurd hsrv (by simp)

/-- Two servers with the same successor are the same server. -/
theorem eq_of_next_eq {st : State} {l₁ l₂ : List Addr} {p s : Addr} {prev : AfpServer}
    (hl : st.Lists (l₁ ++ p :: l₂)) (hp : st.heap p = some prev) (hnext : prev.next = some s) :
    ∃ l₃, l₂ = s :: l₃ := by
  obtain ⟨-, n, hn, htail⟩ := linked_some_cons.mp (Linked.suffix l₁ hl)
  have hnp : n = prev := Option.some.inj (hn.symm.trans hp)
  rw [hnp, hnext] at htail
  cases l₂ with
  | nil => exact absurd htail not_linked_some_nil
  | cons b l₃ => exact ⟨l₃, by rw [(linked_some_cons.mp htail).1]⟩

/-- Freeing a structure that is in no list keeps the lists. -/
theorem connected_release {st : State} {s t : Addr} (h : (st.release s).Connected t) :
    t ≠ s ∧ st.Connected t := by
  obtain ⟨srv, hsrv, hc⟩ := h
  by_cases hts : t = s
  · subst hts
    simp at hsrv
  · refine ⟨hts, srv, ?_, hc⟩
    rwa [release_heap, Function.update_of_ne hts] at hsrv

/-- `afp_server_remove()` takes the server out of the list before it is freed. -/
theorem lists_remove {st st' : State} {fuel : ℕ} {s : Addr} {srv : AfpServer} {ret : ℤ}
    {l : List Addr} (hs : st.heap s = some srv)
    (hrem : afpServerRemove st fuel s srv = some (ret, st')) (hl : st.Lists l) :
    ∃ l', st'.Lists l' ∧ s ∉ l' ∧ (∀ t ∈ l, t ≠ s → t ∈ l') ∧
      ∀ t, st'.Connected t → st.Connected t ∧ (t ∈ l → t ≠ s) := by
  unfold afpServerRemove at hrem
  by_cases hbase : st.serverBase = some s
  · -- the head of the list
    rw [if_pos hbase] at hrem
    obtain ⟨-, rfl⟩ := Prod.mk.inj (Option.some.inj hrem)
    have hl' := hl
    rw [State.Lists, hbase] at hl'
    cases l with
    | nil => exact absurd hl' not_linked_some_nil
    | cons a l =>
      obtain ⟨rfl, n, hn, htail⟩ := linked_some_cons.mp hl'
      have hns : n = srv := Option.some.inj (hn.symm.trans hs)
      have hnot : s ∉ l := (List.nodup_cons.mp hl'.nodup).1
      refine ⟨l, Linked.update hnot (hns ▸ htail), hnot, fun t ht hne => ?_, fun t ht => ?_⟩
      · exact (List.mem_cons.mp ht).resolve_left hne
      · obtain ⟨hts, hct⟩ := connected_release ht
        exact ⟨hct, fun _ => hts⟩
  · rw [if_neg hbase] at hrem
    split at hrem
    · exact absurd hrem (by simp)
    next hsearch =>
      obtain ⟨-, rfl⟩ := Prod.mk.inj (Option.some.inj hrem)
      have hnot : s ∉ l := by
        intro hmem
        obtain ⟨b, hb, n, hn, hnext⟩ := (hl.head_or_next hmem).resolve_left hbase
        have hpass := passes_eq_false_of_search hl hsearch b hb
        rw [passes, hn, Option.any_some, hnext] at hpass
        exact absurd hpass (by simp)
      exact ⟨l, hl, hnot, fun t ht _ => ht, fun t ht => ⟨ht, fun hmem => ne_of_mem_of_not_mem hmem hnot⟩⟩
    next p hsearch =>
      cases hp : st.heap p with
      | none => rw [hp] at hrem; exact absurd hrem (by simp)
      | some prev =>
        rw [hp] at hrem
        obtain ⟨-, rfl⟩ := Prod.mk.inj (Option.some.inj hrem)
        -- `p` is the predecessor: its link is redirected past `s`
        have hmem := search_mem hl hsearch
        obtain ⟨n, hn, htest⟩ := search_passes hsearch
        have hnp : n = prev := Option.some.inj (hn.symm.trans hp)
        have hnext : prev.next = some s := hnp ▸ eq_of_beq htest
        obtain ⟨l₁, l₂, rfl⟩ := List.append_of_mem hmem
        obtain ⟨l₃, rfl⟩ := eq_of_next_eq hl hp hnext
        have hnodup : (l₁ ++ p :: s :: l₃).Nodup := hl.nodup
        have hnot : s ∉ l₁ ++ p :: l₃ := by
          have hperm : (l₁ ++ p :: s :: l₃).Perm (s :: (l₁ ++ p :: l₃)) := by
            have hmid := @List.perm_middle _ s (l₁ ++ [p]) l₃
            rwa [List.append_assoc, List.append_assoc] at hmid
          exact (List.nodup_cons.mp (hperm.nodup_iff.mp hnodup)).1
        refine ⟨l₁ ++ p :: l₃, ?_, hnot, fun t ht hne => ?_, fun t ht => ?_⟩
        · have hl' : Linked (Function.update st.heap p (some { prev with next := srv.next }))
              AfpServer.next st.serverBase (l₁ ++ p :: l₃) := Linked.unlink hs hp rfl hl
          exact hl'.update hnot
        · simp only [List.mem_append, List.mem_cons] at ht ⊢
          tauto
        · obtain ⟨hts, hct⟩ := connected_release ht
          refine ⟨?_, fun _ => hts⟩
          rcases connected_store.mp hct with ⟨rfl, hc⟩ | ⟨-, hc⟩
          · exact ⟨prev, hp, hc⟩
          · exact hc

/-- `afp_server_remove()` keeps the shape. -/
theorem listShape_remove {st st' : State} {fuel : ℕ} {s : Addr} {srv : AfpServer} {ret : ℤ}
    (hs : st.heap s = some srv) (hrem : afpServerRemove st fuel s srv = some (ret, st'))
    (h : ListShape st) : ListShape st' := by
  obtain ⟨l, hl, hconn⟩ := h
  obtain ⟨l', hl', -, hmem, hold⟩ := lists_remove hs hrem hl
  refine ⟨l', hl', fun t ht => ?_⟩
  obtain ⟨hct, hts⟩ := hold t ht
  exact hmem t (hconn t hct) (hts (hconn t hct))

/-- Where the list is finite, `afp_server_remove()` ends. -/
theorem exists_afpServerRemove {st : State} {fuel : ℕ} {s : Addr} {srv : AfpServer} {l : List Addr}
    (hl : st.Lists l) (hfuel : l.length ≤ fuel) :
    ∃ ret st', afpServerRemove st fuel s srv = some (ret, st') := by
  unfold afpServerRemove
  by_cases hbase : st.serverBase = some s
  · rw [if_pos hbase]
    exact ⟨_, _, rfl⟩
  rw [if_neg hbase, search_eq_find? hl hfuel]
  cases hfind : l.find? (passes st.heap fun _ s2 => s2.next == some s) with
  | none => exact ⟨_, _, rfl⟩
  | some p =>
    obtain ⟨prev, hprev⟩ := hl.allocated (List.mem_of_find?_eq_some hfind)
    simp only [hprev]
    exact ⟨_, _, rfl⟩

/-! ## Steps and the shape -/

/-- **Every step keeps the shape, unless it pushes a server that is still in the list.** -/
theorem step_listShape {st st' : State} {a : Action} (hstep : step st a = some st')
    (hpush : ¬ Pushes st a) (h : ListShape st) : ListShape st' := by
  cases a with
  | connect s address full o =>
    cases hs : st.heap s with
    | some srv => simp [step, hs] at hstep
    | none =>
      have hst' : (afpServerConnect st s (afpServerInit address) full o).2 = st' := by
        simpa [step, hs] using hstep
      rcases afpServerConnect_cases st s (afpServerInit address) full o with
        ⟨-, heq⟩ | ⟨-, srv', -, heq⟩
      · rw [← hst', heq]
        exact listShape_store_fresh (not_mem_of_fresh hs) (by simp [afpServerInit]) h
      · rw [← hst', heq]
        exact listShape_addServer (not_mem_of_fresh hs) h
  | disconnect s =>
    obtain ⟨srv, hs, hst'⟩ := Option.map_eq_some_iff.mp hstep
    rw [← hst', loopDisconnect]
    split
    · exact h
    · exact listShape_store hs rfl (by simp) h
  | reconnect s o login =>
    obtain ⟨srv, hs, hst'⟩ := Option.map_eq_some_iff.mp hstep
    rw [afpServerReconnect_state] at hst'
    rcases afpServerConnect_cases st s srv false o with ⟨-, heq⟩ | ⟨hacc, srv', -, heq⟩
    · rw [← hst', heq]
      exact listShape_store hs rfl id h
    · rw [← hst', heq]
      exact listShape_addServer (fun l hl hmem => hpush ⟨hacc, l, hl, hmem⟩) h
  | remove s fuel =>
    cases hs : st.heap s with
    | none => simp [step, hs] at hstep
    | some srv =>
      simp only [step, hs] at hstep
      obtain ⟨⟨ret, st''⟩, hrem, rfl⟩ := Option.map_eq_some_iff.mp hstep
      exact listShape_remove hs hrem h

/-- **A step that pushes a server still in the list always destroys the shape**: the links from
`server_base` run in a circle. -/
theorem not_listShape_of_pushes {st st' : State} {a : Action} (hstep : step st a = some st')
    (hpush : Pushes st a) : ¬ ∃ l, st'.Lists l := by
  cases a with
  | reconnect s o login =>
    obtain ⟨hacc, l, hl, hmem⟩ := hpush
    obtain ⟨srv, hs, hst'⟩ := Option.map_eq_some_iff.mp hstep
    rw [afpServerReconnect_state] at hst'
    rcases afpServerConnect_cases st s srv false o with ⟨hnot, -⟩ | ⟨-, srv', -, heq⟩
    · exact absurd hacc hnot
    · rw [← hst', heq]
      exact not_linked_push_of_mem hl hmem rfl
  | connect => exact hpush.elim
  | disconnect => exact hpush.elim
  | remove => exact hpush.elim

/-! ## The loops on a list of that shape -/

/-- The loop of `process_server_fds()` on a finite list finds the first server with a descriptor
in the set; no node links to itself. -/
theorem scanFrom_eq {heap : Addr → Option AfpServer} {set : ℤ → Bool} {p : Option Addr}
    {l : List Addr} (h : Linked heap AfpServer.next p l) {fuel : ℕ} (hfuel : l.length ≤ fuel) :
    scanFrom heap set fuel p =
      some (match l.find? (passes heap fun _ srv => set srv.fd) with
        | none => .idle
        | some s => .recv s) := by
  induction l generalizing p fuel with
  | nil =>
    cases p with
    | none => cases fuel <;> rfl
    | some p => exact absurd h not_linked_some_nil
  | cons a l ih =>
    cases p with
    | none => exact absurd (linked_none.mp h) (List.cons_ne_nil a l)
    | some p =>
      have hnodup := h.nodup
      obtain ⟨rfl, srv, hsrv, hl⟩ := linked_some_cons.mp h
      cases fuel with
      | zero => exact absurd hfuel (by simp)
      | succ fuel =>
        have hself : srv.next ≠ some p := fun hnext => by
          rw [hnext] at hl
          cases l with
          | nil => exact not_linked_some_nil hl
          | cons b l =>
            have hb : p = b := (linked_some_cons.mp hl).1
            exact (List.nodup_cons.mp hnodup).1 (hb ▸ List.mem_cons_self ..)
        have hpass : passes heap (fun _ srv => set srv.fd) p = set srv.fd := by
          rw [passes, hsrv]; rfl
        rw [scanFrom, hsrv]
        simp only []
        rw [if_neg hself, List.find?_cons, hpass]
        cases htest : set srv.fd with
        | true => rfl
        | false => exact ih hl (Nat.le_of_succ_le_succ hfuel)

/-- What the four loops answer when the list is `l`: they end within `l.length` links, and each
looks at the servers of `l` in order. -/
structure Walks (st : State) (l : List Addr) : Prop where
  valid : ∀ fuel, l.length ≤ fuel → ∀ s, serverStillValid st fuel s = some (decide (s ∈ l))
  byName : ∀ fuel, l.length ≤ fuel → ∀ name, findServerByName st fuel name =
    some (l.find? (passes st.heap fun _ srv =>
      srv.serverNameUtf8 == name || srv.serverName == name))
  byAddress : ∀ fuel, l.length ≤ fuel → ∀ address, findServerByAddress st fuel address =
    some (l.find? (passes st.heap fun _ srv => srv.address == address))
  fds : ∀ fuel, l.length ≤ fuel → ∀ set, processServerFds st fuel set =
    some (match l.find? (passes st.heap fun _ srv => set srv.fd) with
      | none => .idle
      | some s => .recv s)

theorem walks_of_lists {st : State} {l : List Addr} (hl : st.Lists l) : Walks st l where
  valid fuel hfuel s := by
    rw [serverStillValid, search_eq_find? hl hfuel, Option.map_some, Option.some.injEq]
    rw [Bool.eq_iff_iff, List.find?_isSome, decide_eq_true_iff]
    constructor
    · rintro ⟨t, ht, hpass⟩
      obtain ⟨n, hn⟩ := hl.allocated ht
      rw [passes, hn] at hpass
      exact eq_of_beq hpass ▸ ht
    · intro hs
      obtain ⟨n, hn⟩ := hl.allocated hs
      exact ⟨s, hs, by simp [passes, hn]⟩
  byName fuel hfuel name := search_eq_find? hl hfuel
  byAddress fuel hfuel address := search_eq_find? hl hfuel
  fds fuel hfuel set := scanFrom_eq hl hfuel

/-- On a list that is not finite `server_still_valid()` of a server that is gone never returns. -/
theorem serverStillValid_diverges {st : State} (hcycle : ¬ ∃ l, st.Lists l) {s : Addr}
    (hs : st.heap s = none) (fuel : ℕ) : serverStillValid st fuel s = none := by
  rw [serverStillValid, Option.map_eq_none_iff]
  cases hsearch : search st.heap AfpServer.next (fun t _ => t == s) fuel st.serverBase with
  | none => rfl
  | some found =>
    cases found with
    | none => exact absurd (linked_of_search hsearch) hcycle
    | some t =>
      obtain ⟨n, hn, htest⟩ := search_passes hsearch
      rw [eq_of_beq htest, hs] at hn
      exact absurd hn (by simp)

/-! ## Runs -/

/-- The list as a transition system. -/
def Step (st : State) (a : Action) (st' : State) : Prop :=
  step st a = some st'

/-- A run from the empty list none of whose steps resumes a server that is still linked. -/
def CleanRun (as : List Action) (st : State) : Prop :=
  Run (Guarded (fun st a => ¬ Pushes st a) Step) State.init as st

/-- **The list along a run.**  As long as no successful reconnection concerns a server that is
still in the list, the links from `server_base` are finite, visit no server twice and reach every
connected server, and the loops over the list end and see all of it. -/
theorem serverList_run {as : List Action} {st : State} (hrun : CleanRun as st) :
    ∃ l, st.Lists l ∧ l.Nodup ∧ (∀ s, st.Connected s → s ∈ l) ∧ Walks st l := by
  have hshape : ListShape st :=
    Run.invariant ListShape (fun _ _ _ h hs => step_listShape h.2 h.1 hs) hrun listShape_init
  obtain ⟨l, hl, hconn⟩ := hshape
  exact ⟨l, hl, hl.nodup, hconn, walks_of_lists hl⟩

/-- A port of the loopback interface. -/
def loopback (port : UInt16) : SockaddrIn where
  sinAddr := 0x7f000001
  sinPort := port

/-- A connection attempt that gets the descriptor `fd` and succeeds. -/
def ConnectOutcome.success (fd : ℤ) : ConnectOutcome where
  socket := fd
  connectErrno := none
  socketErrno := 0
  getstatus := 0

/-- Two servers are connected, the second one is lost and given up, the first one is lost, removed
from the list and connected again at its old address. -/
theorem serverList_run_of_two_servers : ∃ st,
    CleanRun [.connect 1 (loopback 548) true (.success 5), .connect 2 (loopback 549) true
      (.success 6), .disconnect 2, .remove 2 5, .disconnect 1, .remove 1 5,
      .connect 1 (loopback 548) true (.success 5)] st ∧
    ∃ l, st.Lists l ∧ l.Nodup ∧ (∀ s, st.Connected s → s ∈ l) ∧ Walks st l := by
  have hrun : ∃ st, CleanRun [.connect 1 (loopback 548) true (.success 5),
      .connect 2 (loopback 549) true (.success 6), .disconnect 2, .remove 2 5, .disconnect 1,
      .remove 1 5, .connect 1 (loopback 548) true (.success 5)] st :=
    ⟨_, .cons ⟨fun h => h, rfl⟩ <| .cons ⟨fun h => h, rfl⟩ <| .cons ⟨fun h => h, rfl⟩ <|
      .cons ⟨fun h => h, rfl⟩ <| .cons ⟨fun h => h, rfl⟩ <| .cons ⟨fun h => h, rfl⟩ <|
      .cons ⟨fun h => h, rfl⟩ <| .nil _⟩
  obtain ⟨st, hst⟩ := hrun
  exact ⟨st, hst, serverList_run hst⟩

/-- **A suspended server is resumed.**  It is still linked behind the server connected after it,
so resuming it closes a cycle through the two, and a walk over the list no longer ends. -/
theorem resume_closes_a_cycle : ∃ st,
    Run Step State.init [.connect 1 (loopback 548) true (.success 5),
      .connect 2 (loopback 549) true (.success 6), .disconnect 1, .reconnect 1 (.success 5) 0] st ∧
    (¬ ∃ l, st.Lists l) ∧ ∀ fuel, serverStillValid st fuel 3 = none := by
  have hpre : ∃ st st', Run Step State.init [.connect 1 (loopback 548) true (.success 5),
      .connect 2 (loopback 549) true (.success 6), .disconnect 1] st ∧
      Step st (.reconnect 1 (.success 5) 0) st' ∧ st.Lists [2, 1] ∧ st'.heap 3 = none :=
    ⟨_, _, .cons rfl <| .cons rfl <| .cons rfl <| .nil _, rfl,
      ⟨rfl, _, rfl, rfl, _, rfl, rfl⟩, rfl⟩
  obtain ⟨st, st', hrun, hstep, hlist, hheap⟩ := hpre
  have hcycle := not_listShape_of_pushes hstep ⟨by decide, [2, 1], hlist, by simp⟩
  exact ⟨st', hrun.append (.cons hstep (.nil _)), hcycle, serverStillValid_diverges hcycle hheap⟩

end Server
end Afpfs
