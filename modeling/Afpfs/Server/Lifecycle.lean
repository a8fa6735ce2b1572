import Afpfs.Server.Completion
import Mathlib.Data.List.Nodup
import Mathlib.Data.List.Perm.Subperm
import Mathlib.Logic.Function.Basic

/-!
# The life of a server

`afp_server_init()` allocates a server, `afp_server_connect()` puts it into the list, and
`afp_server_remove()` takes it out and frees it, with the array of its volumes.  It is called for
the server that `afp_server_full_connect()` only asks for its status, where a connection fails, and
by `afp_unmount_volume()` after the last volume.

A step is an attempt to connect, the loss of a connection, a packet that closes the session, a
volume that is mounted or unmounted, or a request that a thread sends or comes back from.  A step
without a result has read a server that was freed.  `Kept` is what is expected.

* `freed_once_of_sound`: it holds in every run in which each attempt reaches a server that answers as
  it should (`AttemptSound`), a session is closed only when no volume is mounted, no server that
  is still in the list is connected again, and the last volume is unmounted only when no request
  is under way and its caller does not look at it again.
* `Inv.leaks_of_refused`, `connectAgain_faults`, `Inv.closeSession_faults`: otherwise it may fail.
  A server that refuses the connection is not in the list, so `afp_server_remove()` does not free
  it; one whose connection does not complete is freed before `error:` looks at it; and one whose
  session is closed with a volume mounted is freed before it is disconnected.
* `refused_server_leaks`: the first of these in the run of one step.
-/

set_option autoImplicit false

namespace Afpfs
namespace Server
namespace Lifecycle

open PointerList Transition Negotiation Completion

/-! ## The data -/

/-- `AFP_VOLUME_UNMOUNTED`, `AFP_VOLUME_MOUNTED` and `AFP_VOLUME_UNMOUNTING`. -/
inductive Mounted where
  | unmounted
  | mounted
  | unmounting
  deriving DecidableEq

/-- More fields of a server. -/
structure Fields where
  /-- History: the number of the allocation. -/
  serial : ℕ
  signature : List UInt8
  /-- `mounted` of each volume. -/
  volumes : List Mounted

/-- A thread that waits for the reply to a request. -/
structure Waiting where
  server : Addr
  serial : ℕ
  /-- The thread goes on with the server or the volume when it has the reply. -/
  uses : Bool

structure System where
  /-- The servers and their list. -/
  st : State
  fields : Addr → Fields
  waiting : ℕ → Option Waiting
  /-- History: the number of servers allocated so far. -/
  allocated : ℕ
  /-- History: the servers that were freed. -/
  freed : List ℕ
  /-- History: the servers that an attempt to connect has failed for, and not freed. -/
  leaked : List Addr

/-- No server is known. -/
def System.init : System where
  st := State.init
  fields := fun _ => { serial := 0, signature := [], volumes := [] }
  waiting := fun _ => none
  allocated := 0
  freed := []
  leaked := []

/-- Other fields of a server. -/
def System.setFields (sys : System) (s : Addr) (f : Fields) : System :=
  { sys with fields := Function.update sys.fields s f }

theorem setFields_self (sys : System) (s : Addr) (f : Fields) :
    (sys.setFields s f).fields s = f := by
  simp [System.setFields]

theorem setFields_of_ne (sys : System) {s t : Addr} (f : Fields) (h : t ≠ s) :
    (sys.setFields s f).fields t = sys.fields t := by
  simp [System.setFields, h]

/-- The state of a volume. -/
def System.setVolume (sys : System) (s : Addr) (i : ℕ) (m : Mounted) : System :=
  sys.setFields s { sys.fields s with volumes := (sys.fields s).volumes.set i m }

/-- `afp_server_init()` at an address. -/
def System.allocate (sys : System) (s : Addr) : System :=
  { sys.setFields s { serial := sys.allocated, signature := [], volumes := [] } with
    allocated := sys.allocated + 1 }

/-! ## The code -/

/-- `something_is_mounted()`. -/
def somethingIsMounted (f : Fields) : Bool := f.volumes.any fun m => m != .unmounted

/-- `afp_server_remove()`. -/
def System.remove (fuel : ℕ) (sys : System) (s : Addr) : Option (ℤ × System) :=
  match sys.st.heap s with
  | none => none
  | some srv =>
    (afpServerRemove sys.st fuel s srv).map fun (ret, st) =>
      (ret, { sys with
        st := st
        freed := if ret = 0 then (sys.fields s).serial :: sys.freed else sys.freed })

/-- What an attempt to connect a server again comes to, with the result of the login, and whether
the server has closed the connection when the request is written. -/
structure Resume where
  outcome : ConnectOutcome
  login : ℤ
  closed : Bool

/-- `SERVER_STATE_DISCONNECTED`, if the request could not be written. -/
def noteClosed (st : State) (s : Addr) (closed : Bool) : Option State :=
  match st.heap s with
  | none => none
  | some srv =>
    some (if closed then st.store s { srv with connectState := .disconnected } else st)

/-- What `dsi_send()` does to the list: a server that is not connected is connected again. -/
def dsiSend (fuel : ℕ) (st : State) (s : Addr) (r : Resume) : Option State :=
  match serverStillValid st fuel s with
  | none => none
  | some false => some st
  | some true =>
    match st.heap s with
    | none => none
    | some srv =>
      if srv.fd = 0 then some st
      else if srv.connectState = .disconnected then
        noteClosed (afpServerReconnect st s srv r.outcome r.login).2 s r.closed
      else noteClosed st s r.closed

/-- Requests, one after the other. -/
def sends (fuel : ℕ) (st : State) (s : Addr) : List Resume → Option State
  | [] => some st
  | r :: rs =>
    match dsiSend fuel st s r with
    | none => none
    | some st => sends fuel st s rs

/-- The requests of one unmount: `FPFlush`, `FPCloseVol` and perhaps `FPCloseDT`, and
`FPLogout`. -/
structure Requests where
  close : List Resume
  logout : Resume

/-- `afp_unmount_volume()`. -/
def afpUnmountVolume (fuel : ℕ) (sys : System) (s : Addr) (i : ℕ) (requests : Requests) :
    Option (ℤ × System) :=
  match sys.st.heap s with
  | none => none
  | some _ =>
    if (sys.fields s).volumes[i]? ≠ some .mounted then some (-1, sys)
    else
      let sys := sys.setVolume s i .unmounting
      match sends fuel sys.st s requests.close with
      | none => none
      | some st =>
        let sys := { sys with st := st }.setVolume s i .unmounted
        if somethingIsMounted (sys.fields s) then some (0, sys)
        else
          match dsiSend fuel sys.st s requests.logout with
          | none => none
          | some st => (System.remove fuel { sys with st := st } s).map fun r => (-1, r.2)

/-- The loop of `afp_unmount_all_volumes()`, for the last `n` volumes. -/
def unmountAllFrom (fuel : ℕ) (s : Addr) (requests : ℕ → Requests) :
    ℕ → ℕ → System → Option (ℤ × System)
  | 0, _, sys => some (0, sys)
  | n + 1, i, sys =>
    match sys.st.heap s with
    | none => none
    | some _ =>
      if (sys.fields s).volumes[i]? = some .mounted then
        match afpUnmountVolume fuel sys s i (requests i) with
        | none => none
        | some (ret, sys) =>
          if ret ≠ 0 then some (1, sys) else unmountAllFrom fuel s requests n (i + 1) sys
      else unmountAllFrom fuel s requests n (i + 1) sys

/-- `afp_unmount_all_volumes()`. -/
def afpUnmountAllVolumes (fuel : ℕ) (sys : System) (s : Addr) (requests : ℕ → Requests) :
    Option (ℤ × System) :=
  match sys.st.heap s with
  | none => none
  | some _ => unmountAllFrom fuel s requests (sys.fields s).volumes.length 0 sys

/-- `loop_disconnect()`. -/
def System.disconnect (sys : System) (s : Addr) : Option System :=
  match sys.st.heap s with
  | none => none
  | some srv => some { sys with st := loopDisconnect sys.st s srv }

/-- `dsi_incoming_closesession()`. -/
def dsiIncomingClosesession (fuel : ℕ) (sys : System) (s : Addr) (requests : ℕ → Requests) :
    Option System :=
  match afpUnmountAllVolumes fuel sys s requests with
  | none => none
  | some (_, sys) => sys.disconnect s

/-- What an attempt to connect meets. -/
structure Attempt where
  /-- `afp_get_address()`. -/
  address : Option SockaddrIn
  /-- The first `afp_server_init()`. -/
  tmpserver : Option Addr
  first : ConnectOutcome
  /-- The signature in the status. -/
  signature : List UInt8
  /-- The second `afp_server_init()`. -/
  s : Addr
  second : ConnectOutcome
  versions : List UInt8
  uams : UInt32
  requestedVersion : UInt32
  uamMask : UInt32
  answers : Answers

/-- `error:` of `afp_server_full_connect()`, for a server that is set. -/
def errorExit (fuel : ℕ) (sys : System) (s : Addr) : Option (Option Addr × System) :=
  match sys.st.heap s with
  | none => none
  | some _ =>
    if somethingIsMounted (sys.fields s) then some (none, sys)
    else (sys.remove fuel s).map fun r => (none, r.2)

/-- The second connection of `afp_server_full_connect()`. -/
def connectAgain (fuel : ℕ) (sys : System) (address : SockaddrIn) (a : Attempt) :
    Option (Option Addr × System) :=
  let sys := sys.allocate a.s
  let (ret, st) := afpServerConnect sys.st a.s (afpServerInit address) false a.second
  let sys := { sys with st := st }
  if ret ≠ 0 then errorExit fuel sys a.s
  else
    match sys.st.heap a.s with
    | none => none
    | some srv =>
      match afpServerCompleteConnection sys.st fuel a.s srv a.versions a.uams a.requestedVersion
        a.uamMask a.answers with
      | none => none
      | some out =>
        if out.ret ≠ 0 then
          errorExit fuel
            { sys with
              st := out.state
              freed := if (out.state.heap a.s).isNone then (sys.fields a.s).serial :: sys.freed
                else sys.freed } a.s
        else
          match out.state.heap a.s with
          | none => none
          | some _ =>
            some (some a.s, { sys with st := out.state }.setFields a.s
              { sys.fields a.s with
                signature := a.signature
                volumes := ((out.session.parms.map SrvrParms.volumes).getD []).map
                  fun _ => .unmounted })

/-- `afp_server_full_connect()` from the first connection on, whose result is `error`. -/
def afterStatus (fuel : ℕ) (sys : System) (tmpserver : Addr) (address : SockaddrIn) (a : Attempt)
    (error : ℤ) : Option (Option Addr × System) :=
  if error < 0 then (sys.remove fuel tmpserver).map fun r => (none, r.2)
  else
    match sys.disconnect tmpserver with
    | none => none
    | some sys =>
      match sys.remove fuel tmpserver with
      | none => none
      | some (_, sys) =>
        match search sys.st.heap AfpServer.next
          (fun s _ => (sys.fields s).signature == a.signature) fuel sys.st.serverBase with
        | none => none
        | some (some s) => some (some s, sys)
        | some none => connectAgain fuel sys address a

/-- `afp_server_full_connect()`. -/
def afpServerFullConnect (fuel : ℕ) (sys : System) (a : Attempt) : Option (Option Addr × System) :=
  match a.address with
  | none => some (none, sys)
  | some address =>
    match findServerByAddress sys.st fuel address with
    | none => none
    | some (some s) => some (some s, sys)
    | some none =>
      match a.tmpserver with
      | none => some (none, sys)
      | some t =>
        let sys := sys.allocate t
        let (error, st) := afpServerConnect sys.st t (afpServerInit address) true a.first
        afterStatus fuel
          ({ sys with st := st }.setFields t { sys.fields t with signature := a.signature })
          t address a error

/-! ## The system -/

inductive Action where
  | attempt (a : Attempt)
  /-- The connection is lost. -/
  | lose (s : Addr)
  /-- `DSICloseSession` from the server. -/
  | closeSession (s : Addr) (requests : ℕ → Requests)
  /-- `afp_connect_volume()`. -/
  | mount (s : Addr) (i : ℕ) (requests : List Resume)
  /-- `afp_unmount_volume()`, and whether its caller looks at the volume afterwards, as
  `process_unmount()` and `process_detach()` do. -/
  | unmount (s : Addr) (i : ℕ) (requests : Requests) (looks : Bool)
  /-- A thread sends a request and waits. -/
  | request (n : ℕ) (s : Addr) (r : Resume) (uses : Bool)
  /-- A thread has waited long enough. -/
  | wake (n : ℕ)

/-- What an action needs: new servers are at addresses not in use, the others at known ones. -/
def Enabled (sys : System) : Action → Prop
  | .attempt a => (∀ t ∈ a.tmpserver, sys.st.heap t = none) ∧ sys.st.heap a.s = none
  | .lose s | .closeSession s _ => sys.st.Connected s
  | .mount s i _ => (sys.st.heap s).isSome ∧ (sys.fields s).volumes[i]? = some .unmounted
  | .unmount s _ _ _ => (sys.st.heap s).isSome
  | .request n s _ _ => (sys.st.heap s).isSome ∧ sys.waiting n = none
  | .wake n => (sys.waiting n).isSome

/-- A server that is at an address is the one with this number. -/
def System.alive (sys : System) (s : Addr) (serial : ℕ) : Bool :=
  (sys.st.heap s).isSome && (sys.fields s).serial == serial

/-- The end of `dsi_send()`, and what its caller does with the server. -/
def System.wake (fuel : ℕ) (sys : System) (n : ℕ) (w : Waiting) : Option System :=
  match serverStillValid sys.st fuel w.server with
  | none => none
  | some valid =>
    if (valid || w.uses) && !sys.alive w.server w.serial then none
    else some { sys with waiting := Function.update sys.waiting n none }

/-- An action; no loop over the list is longer than the number of servers. -/
def System.perform (sys : System) : Action → Option System
  | .attempt a =>
    (afpServerFullConnect (sys.allocated + 1) sys a).map fun (ret, t) =>
      { t with
        leaked := if ret.isSome then t.leaked
          else (a.tmpserver.toList ++ [a.s]).filter (fun s => (t.st.heap s).isSome) ++ t.leaked }
  | .lose s => sys.disconnect s
  | .closeSession s requests => dsiIncomingClosesession (sys.allocated + 1) sys s requests
  | .mount s i requests =>
    (sends (sys.allocated + 1) sys.st s requests).map fun st =>
      { sys with st := st }.setVolume s i .mounted
  | .unmount s i requests looks =>
    match afpUnmountVolume (sys.allocated + 1) sys s i requests with
    | none => none
    | some (_, t) => if looks && (t.st.heap s).isNone then none else some t
  | .request n s r uses =>
    (dsiSend (sys.allocated + 1) sys.st s r).map fun st =>
      { sys with
        st := st
        waiting := Function.update sys.waiting n (some ⟨s, (sys.fields s).serial, uses⟩) }
  | .wake n =>
    match sys.waiting n with
    | none => some sys
    | some w => sys.wake (sys.allocated + 1) n w

/-- Where the client is. -/
inductive Config where
  | running (sys : System)
  /-- A server was used that is freed, or a loop over the list does not end. -/
  | fault

inductive Step : Config → Action → Config → Prop
  | running {sys t : System} {a : Action} :
      Enabled sys a → sys.perform a = some t → Step (.running sys) a (.running t)
  | fault {sys : System} {a : Action} :
      Enabled sys a → sys.perform a = none → Step (.running sys) a .fault

/-! ## What is expected -/

/-- No server is used after it was freed, none is freed twice, and none is left of an attempt to
connect that has failed. -/
def Kept : Config → Prop
  | .running sys => sys.freed.Nodup ∧ sys.leaked = []
  | .fault => False

/-- The address is that of a known server. -/
def KnownAddress (sys : System) (address : SockaddrIn) : Prop :=
  ∃ l, sys.st.Lists l ∧ ∃ s ∈ l, ∃ srv, sys.st.heap s = some srv ∧ srv.address = address

/-- The signature is that of a known server. -/
def KnownSignature (sys : System) (signature : List UInt8) : Prop :=
  ∃ l, sys.st.Lists l ∧ ∃ s ∈ l, (sys.fields s).signature = signature

/-- The condition on an attempt to connect: the server accepts a connection for its status; and if
the status has come from an unknown server, it accepts another one, there is a common version and
a common UAM, and the login succeeds. -/
structure AttemptSound (sys : System) (a : Attempt) : Prop where
  first : ∀ address t, a.address = some address → ¬ KnownAddress sys address →
    a.tmpserver = some t → a.first.Accepted
  second : ∀ address t, a.address = some address → ¬ KnownAddress sys address →
    a.tmpserver = some t → a.first.getstatus ≤ 0 → ¬ KnownSignature sys a.signature →
      a.second.Accepted ∧ (pickVersion a.versions a.requestedVersion.toUInt8).1 ≠ none ∧
        pickUam a.uams a.uamMask ≠ -1 ∧ loginFails a.answers.login = false

/-- Where a server that is sent requests is not connected, it cannot be connected again. -/
def ResumeSound (connected : Prop) : List Resume → Prop
  | [] => True
  | r :: rs =>
    (¬ connected → ¬ r.outcome.Accepted) ∧ ResumeSound (connected ∧ r.closed = false) rs

/-- A volume is mounted, and no other one is. -/
def LastMounted (sys : System) (s : Addr) (i : ℕ) : Prop :=
  (sys.fields s).volumes[i]? = some .mounted ∧
    ∀ j m, j ≠ i → (sys.fields s).volumes[j]? = some m → m = .unmounted

/-- The condition on a step. -/
def Sound : Config → Action → Prop
  | .running sys, .attempt a => AttemptSound sys a
  | .running sys, .closeSession s _ => .mounted ∉ (sys.fields s).volumes
  | .running sys, .mount s _ requests => ResumeSound (sys.st.Connected s) requests
  | .running sys, .unmount s i requests looks =>
    ResumeSound (sys.st.Connected s) (requests.close ++ [requests.logout]) ∧
      (LastMounted sys s i → looks = false ∧ ∀ n w, sys.waiting n = some w → w.server ≠ s)
  | .running sys, .request _ s r _ => ResumeSound (sys.st.Connected s) [r]
  | _, _ => True

/-! ## The invariant -/

/-- A server in the list is freed, and no other one. -/
theorem afpServerRemove_heap {st st' : State} {l : List Addr} {s : Addr} {srv : AfpServer}
    {fuel : ℕ} {ret : ℤ} (hl : st.Lists l) (hs : s ∈ l)
    (h : afpServerRemove st fuel s srv = some (ret, st')) :
    ret = 0 ∧ ∀ t, (st'.heap t).isSome = true ↔ t ≠ s ∧ (st.heap t).isSome = true := by
  have hrelease : ∀ (st : State) (t : Addr),
      ((st.release s).heap t).isSome = true ↔ t ≠ s ∧ (st.heap t).isSome = true := by
    intro st t
    by_cases ht : t = s
    · simp [ht]
    · simp [ht]
  rw [afpServerRemove] at h
  by_cases hbase : st.serverBase = some s
  · rw [if_pos hbase] at h
    obtain ⟨rfl, rfl⟩ := Prod.mk.inj (Option.some.inj h)
    exact ⟨rfl, hrelease _⟩
  rw [if_neg hbase] at h
  split at h
  · cases h
  next hsearch =>
    -- the list has a predecessor of the server
    obtain ⟨b, hb, n, hn, hnext⟩ := (hl.head_or_next hs).resolve_left hbase
    have hpass := passes_eq_false_of_search hl hsearch b hb
    rw [passes, hn, Option.any_some, hnext] at hpass
    simp at hpass
  next p hsearch =>
    cases hp : st.heap p with
    | none =>
      rw [hp] at h
      cases h
    | some prev =>
      rw [hp] at h
      obtain ⟨rfl, rfl⟩ := Prod.mk.inj (Option.some.inj h)
      refine ⟨rfl, fun t => ?_⟩
      rw [hrelease]
      by_cases ht : t = p
      · rw [ht, hp]
        simp
      · rw [store_heap, Function.update_of_ne ht]

/-- What holds of the servers after every step that meets the condition; `l` is their list. -/
structure Inv (sys : System) (l : List Addr) : Prop where
  lists : sys.st.Lists l
  owned : ∀ s, (sys.st.heap s).isSome = true ↔ s ∈ l
  length : l.length ≤ sys.allocated
  serial : ∀ s ∈ l, (sys.fields s).serial < sys.allocated ∧ (sys.fields s).serial ∉ sys.freed
  distinct : ∀ s ∈ l, ∀ t ∈ l, (sys.fields s).serial = (sys.fields t).serial → s = t
  old : ∀ k ∈ sys.freed, k < sys.allocated
  once : sys.freed.Nodup
  waiting : ∀ n w, sys.waiting n = some w →
    w.server ∈ l ∧ (sys.fields w.server).serial = w.serial
  leaked : sys.leaked = []

theorem inv_init : Inv System.init [] where
  lists := linked_none.mpr rfl
  owned s := by simp [System.init, State.init]
  length := Nat.le_refl 0
  serial s h := absurd h List.not_mem_nil
  distinct s h := absurd h List.not_mem_nil
  old k h := absurd h List.not_mem_nil
  once := List.nodup_nil
  waiting n w h := by simp [System.init] at h
  leaked := rfl

section

variable {sys : System} {l : List Addr} {s t : Addr} {srv srv' : AfpServer}

theorem Inv.mem (h : Inv sys l) (hs : sys.st.heap s = some srv) : s ∈ l :=
  (h.owned s).mp (by rw [hs]; rfl)

theorem Inv.not_mem (h : Inv sys l) (hs : sys.st.heap s = none) : s ∉ l := fun hmem => by
  have hsome := (h.owned s).mpr hmem
  simp [hs] at hsome

/-- A server is stored again, with the same link. -/
theorem Inv.store (h : Inv sys l) (hs : sys.st.heap s = some srv) (hnext : srv'.next = srv.next) :
    Inv { sys with st := sys.st.store s srv' } l :=
  { h with
    lists := Linked.update_same_next hs hnext h.lists
    owned := fun t => by
      rw [← h.owned t]
      by_cases ht : t = s
      · rw [ht, hs]
        simp
      · show (Function.update sys.st.heap s (some srv') t).isSome = true ↔ _
        rw [Function.update_of_ne ht] }

/-- The fields of a server but its number. -/
theorem Inv.setFields (h : Inv sys l) {f : Fields} (hf : f.serial = (sys.fields s).serial) :
    Inv (sys.setFields s f) l := by
  have hserial : ∀ t, ((sys.setFields s f).fields t).serial = (sys.fields t).serial := by
    intro t
    by_cases ht : t = s
    · rw [ht, setFields_self, hf]
    · rw [setFields_of_ne sys f ht]
  exact
    { h with
      serial := fun t ht => by
        rw [hserial]
        exact h.serial t ht
      distinct := fun t ht u hu htu => by
        rw [hserial, hserial] at htu
        exact h.distinct t ht u hu htu
      waiting := fun n w hw => by
        rw [hserial]
        exact h.waiting n w hw }

/-- **A new server** is put into the list. -/
theorem Inv.push (h : Inv sys l) (srv : AfpServer) (ht : sys.st.heap t = none) :
    Inv { sys.allocate t with st := addServer sys.st t srv } (t :: l) := by
  have hnot : t ∉ l := h.not_mem ht
  have hself : ((sys.allocate t).fields t).serial = sys.allocated :=
    congrArg Fields.serial (Function.update_self t _ sys.fields)
  have hother : ∀ u ∈ l, (sys.allocate t).fields u = sys.fields u := fun u hu =>
    Function.update_of_ne (ne_of_mem_of_not_mem hu hnot) _ sys.fields
  refine
    { lists := Linked.push hnot rfl h.lists
      owned := fun u => ?_
      length := Nat.succ_le_succ h.length
      serial := fun u hu => ?_
      distinct := fun u hu v hv huv => ?_
      old := fun k hk => Nat.lt_succ_of_lt (h.old k hk)
      once := h.once
      waiting := fun n w hw => ?_
      leaked := h.leaked }
  · show (Function.update sys.st.heap t (some _) u).isSome = true ↔ u ∈ t :: l
    by_cases hu : u = t
    · rw [hu, Function.update_self]
      simp
    · rw [Function.update_of_ne hu, h.owned u]
      simp [hu]
  · show ((sys.allocate t).fields u).serial < sys.allocated + 1 ∧
      ((sys.allocate t).fields u).serial ∉ sys.freed
    rcases List.mem_cons.mp hu with rfl | hu
    · rw [hself]
      exact ⟨Nat.lt_succ_self _, fun hmem => absurd (h.old _ hmem) (Nat.lt_irrefl _)⟩
    · rw [hother u hu]
      exact ⟨Nat.lt_succ_of_lt (h.serial u hu).1, (h.serial u hu).2⟩
  · have huv' : ((sys.allocate t).fields u).serial = ((sys.allocate t).fields v).serial := huv
    rcases List.mem_cons.mp hu with hut | hul <;> rcases List.mem_cons.mp hv with hvt | hvl
    · rw [hut, hvt]
    · rw [hut, hself, hother v hvl] at huv'
      exact absurd (h.serial v hvl).1 (by omega)
    · rw [hvt, hself, hother u hul] at huv'
      exact absurd (h.serial u hul).1 (by omega)
    · rw [hother u hul, hother v hvl] at huv'
      exact h.distinct u hul v hvl huv'
  · obtain ⟨hmem, hserial⟩ := h.waiting n w hw
    refine ⟨List.mem_cons_of_mem t hmem, ?_⟩
    show ((sys.allocate t).fields w.server).serial = w.serial
    rw [hother _ hmem]
    exact hserial

/-- **A server is removed** for which no request is under way. -/
theorem Inv.remove (h : Inv sys l) (hs : s ∈ l) {fuel : ℕ} (hfuel : l.length ≤ fuel)
    (hwaiting : ∀ n w, sys.waiting n = some w → w.server ≠ s) :
    ∃ sys' l', sys.remove fuel s = some (0, sys') ∧ Inv sys' l' ∧
      (∀ t, t ∈ l' ↔ t ≠ s ∧ t ∈ l) ∧ sys'.fields = sys.fields := by
  obtain ⟨srv, hsrv⟩ := h.lists.allocated hs
  obtain ⟨ret, st', hremove⟩ := @exists_afpServerRemove sys.st fuel s srv l h.lists hfuel
  obtain ⟨l', hl', hnot, hkeep, -⟩ := lists_remove hsrv hremove h.lists
  obtain ⟨hret, hheap⟩ := afpServerRemove_heap h.lists hs hremove
  have hmem : ∀ t, t ∈ l' ↔ t ≠ s ∧ t ∈ l := by
    intro t
    constructor
    · intro ht
      have hne : t ≠ s := ne_of_mem_of_not_mem ht hnot
      obtain ⟨n, hn⟩ := hl'.allocated ht
      have hsome : (st'.heap t).isSome = true := by rw [hn]; rfl
      exact ⟨hne, (h.owned t).mp ((hheap t).mp hsome).2⟩
    · rintro ⟨hne, ht⟩
      exact hkeep t ht hne
  subst hret
  refine ⟨{ sys with st := st', freed := (sys.fields s).serial :: sys.freed }, l', ?_, ?_, hmem,
    rfl⟩
  · rw [System.remove, hsrv]
    simp only [hremove, Option.map_some, if_true]
  refine
    { lists := hl'
      owned := fun t => ?_
      length := ?_
      serial := fun t ht => ?_
      distinct := fun t ht u hu => h.distinct t ((hmem t).mp ht).2 u ((hmem u).mp hu).2
      old := fun k hk => ?_
      once := List.nodup_cons.mpr ⟨(h.serial s hs).2, h.once⟩
      waiting := fun n w hw => ?_
      leaked := h.leaked }
  · rw [hmem t, ← h.owned t]
    exact hheap t
  · have hsub : l' ⊆ l := fun t ht => ((hmem t).mp ht).2
    exact ((List.subperm_of_subset hl'.nodup hsub).length_le).trans h.length
  · obtain ⟨hne, hl⟩ := (hmem t).mp ht
    refine ⟨(h.serial t hl).1, fun hfreed => ?_⟩
    rcases List.mem_cons.mp hfreed with heq | hfreed
    · exact hne (h.distinct t hl s hs heq)
    · exact (h.serial t hl).2 hfreed
  · rcases List.mem_cons.mp hk with rfl | hk
    · exact (h.serial s hs).1
    · exact h.old k hk
  · obtain ⟨hw', hserial⟩ := h.waiting n w hw
    exact ⟨(hmem _).mpr ⟨hwaiting n w hw, hw'⟩, hserial⟩

/-- A connection that is accepted puts the server into the list. -/
theorem afpServerConnect_of_accepted (st : State) (s : Addr) (srv : AfpServer) (full : Bool)
    {o : ConnectOutcome} (h : o.Accepted) :
    ∃ srv', srv'.connectState = .connected ∧ afpServerConnect st s srv full o =
      (if full then -o.getstatus else 0, addServer st s srv') := by
  rw [afpServerConnect, if_neg (Int.not_lt.mpr h.1), h.2]
  let up : AfpServer :=
    { srv with fd := o.socket, exitFlag := false, lastrequestid := 0, connectState := .connected }
  cases full with
  | false => exact ⟨up, rfl, rfl⟩
  | true =>
    by_cases hget : o.getstatus = 0
    · refine ⟨{ up with rxQuantum := 128 * 1024 }, rfl, ?_⟩
      simp only [hget]
      rfl
    · exact ⟨up, rfl, if_pos hget⟩

/-- A server that is in the list is valid. -/
theorem Inv.valid (h : Inv sys l) (hs : s ∈ l) {fuel : ℕ} (hfuel : l.length ≤ fuel) :
    serverStillValid sys.st fuel s = some true := by
  rw [(walks_of_lists h.lists).valid fuel hfuel s, decide_eq_true hs]

/-- **A request** of a server that is connected, or cannot be connected again. -/
theorem Inv.dsiSend (h : Inv sys l) (hs : s ∈ l) {fuel : ℕ} (hfuel : l.length ≤ fuel)
    {r : Resume} (hsound : ¬ sys.st.Connected s → ¬ r.outcome.Accepted) :
    ∃ st', dsiSend fuel sys.st s r = some st' ∧ Inv { sys with st := st' } l ∧
      (sys.st.Connected s ∧ r.closed = false → st'.Connected s) := by
  obtain ⟨srv, hsrv⟩ := h.lists.allocated hs
  -- the write, in a state in which the server is stored
  have hnote : ∀ (sys' : System) (srv' : AfpServer), Inv sys' l → sys'.st.heap s = some srv' →
      ∃ st', noteClosed sys'.st s r.closed = some st' ∧ Inv { sys' with st := st' } l ∧
        (r.closed = false → st' = sys'.st) := by
    intro sys' srv' h' hsrv'
    cases hclosed : r.closed with
    | false => exact ⟨sys'.st, by rw [noteClosed, hsrv']; rfl, h', fun _ => rfl⟩
    | true =>
      refine ⟨sys'.st.store s { srv' with connectState := .disconnected }, ?_, ?_, ?_⟩
      · rw [noteClosed, hsrv']
        rfl
      · exact h'.store hsrv' rfl
      · exact fun hfalse => absurd hfalse (by decide)
  rw [Lifecycle.dsiSend, h.valid hs hfuel]
  simp only [hsrv]
  by_cases hfd : srv.fd = 0
  · rw [if_pos hfd]
    exact ⟨_, rfl, h, fun hconn => hconn.1⟩
  rw [if_neg hfd]
  by_cases hstate : srv.connectState = .disconnected
  · have hnot : ¬ sys.st.Connected s := by
      rintro ⟨srv', hsrv', hconn⟩
      rw [Option.some.inj (hsrv'.symm.trans hsrv), hstate] at hconn
      exact absurd hconn (by decide)
    have hst : (afpServerReconnect sys.st s srv r.outcome r.login).2 =
        sys.st.store s { srv with fd := r.outcome.socket } := by
      rw [afpServerReconnect_state]
      rcases afpServerConnect_cases sys.st s srv false r.outcome with ⟨-, heq⟩ | ⟨hacc, -⟩
      · exact heq
      · exact absurd hacc (hsound hnot)
    rw [if_pos hstate, hst]
    obtain ⟨st', hst', hinv, -⟩ :=
      hnote { sys with st := sys.st.store s { srv with fd := r.outcome.socket } }
        { srv with fd := r.outcome.socket } (h.store hsrv rfl) (by simp)
    exact ⟨st', hst', hinv, fun hconn => absurd hconn.1 hnot⟩
  · rw [if_neg hstate]
    obtain ⟨st', hst', hinv, hopen⟩ := hnote sys srv h hsrv
    refine ⟨st', hst', hinv, fun hconn => ?_⟩
    rw [hopen hconn.2]
    exact hconn.1

theorem resumeSound_mono {c c' : Prop} (hc : c → c') {rs : List Resume} (h : ResumeSound c rs) :
    ResumeSound c' rs := by
  induction rs generalizing c c' with
  | nil => trivial
  | cons r rs ih =>
    refine ⟨fun hnot => h.1 fun hconn => hnot (hc hconn), ?_⟩
    exact ih (fun hconn => ⟨hc hconn.1, hconn.2⟩) h.2

/-- Requests, one after the other. -/
theorem Inv.sends (h : Inv sys l) (hs : s ∈ l) {fuel : ℕ} (hfuel : l.length ≤ fuel)
    {rs rest : List Resume} (hsound : ResumeSound (sys.st.Connected s) (rs ++ rest)) :
    ∃ st', sends fuel sys.st s rs = some st' ∧ Inv { sys with st := st' } l ∧
      ResumeSound (st'.Connected s) rest := by
  induction rs generalizing sys with
  | nil => exact ⟨sys.st, rfl, h, hsound⟩
  | cons r rs ih =>
    obtain ⟨st', hst', hinv, hconn⟩ := h.dsiSend hs hfuel hsound.1
    obtain ⟨st'', hst'', hinv', hrest⟩ := ih hinv (resumeSound_mono hconn hsound.2)
    refine ⟨st'', ?_, hinv', hrest⟩
    rw [Lifecycle.sends, hst']
    exact hst''

/-- The connection of a server ends. -/
theorem Inv.disconnect (h : Inv sys l) (hs : s ∈ l) :
    ∃ sys', sys.disconnect s = some sys' ∧ Inv sys' l ∧ sys'.fields = sys.fields ∧
      sys'.waiting = sys.waiting := by
  obtain ⟨srv, hsrv⟩ := h.lists.allocated hs
  rw [System.disconnect, hsrv]
  refine ⟨_, rfl, ?_, rfl, rfl⟩
  rw [loopDisconnect]
  split
  · exact h
  · exact h.store hsrv rfl

theorem fields_setVolume (sys : System) (s : Addr) (i : ℕ) (m : Mounted) :
    (sys.setVolume s i m).fields s =
      { sys.fields s with volumes := (sys.fields s).volumes.set i m } := setFields_self sys s _

theorem Inv.setVolume (h : Inv sys l) (i : ℕ) (m : Mounted) : Inv (sys.setVolume s i m) l :=
  h.setFields rfl

/-- Nothing is mounted when a volume has been unmounted exactly if it was the last one. -/
theorem lastMounted_iff {i : ℕ} {m : Mounted} {f : Fields}
    (hf : f.volumes = ((sys.fields s).volumes.set i m).set i .unmounted)
    (hmounted : (sys.fields s).volumes[i]? = some .mounted) :
    somethingIsMounted f = false ↔ LastMounted sys s i := by
  have hother : ∀ j, j ≠ i → f.volumes[j]? = (sys.fields s).volumes[j]? := by
    intro j hne
    rw [hf, List.getElem?_set_ne hne.symm, List.getElem?_set_ne hne.symm]
  rw [somethingIsMounted, List.any_eq_false]
  constructor
  · intro h
    refine ⟨hmounted, fun j m' hne hj => ?_⟩
    rw [← hother j hne] at hj
    simpa using h m' (List.mem_of_getElem? hj)
  · intro h m' hm'
    obtain ⟨j, hj⟩ := List.mem_iff_getElem?.mp hm'
    by_cases hji : j = i
    · have hi : i < (sys.fields s).volumes.length := (List.getElem?_eq_some_iff.mp hmounted).1
      rw [hf, hji, List.set_set, List.getElem?_set_self hi] at hj
      simpa using (Option.some.inj hj).symm
    · rw [hother j hji] at hj
      simpa using h.2 j m' hji hj

/-- **A volume is unmounted**, and the server is removed with the last one. -/
theorem Inv.unmount (h : Inv sys l) (hs : s ∈ l) {fuel : ℕ} (hfuel : l.length ≤ fuel) {i : ℕ}
    {requests : Requests}
    (hsound : ResumeSound (sys.st.Connected s) (requests.close ++ [requests.logout]))
    (hlast : LastMounted sys s i → ∀ n w, sys.waiting n = some w → w.server ≠ s) :
    ∃ ret sys' l', afpUnmountVolume fuel sys s i requests = some (ret, sys') ∧ Inv sys' l' ∧
      (sys'.st.heap s = none ↔ LastMounted sys s i) ∧ (LastMounted sys s i → ret = -1) := by
  have halive : ∀ {sys' : System}, Inv sys' l → ¬ sys'.st.heap s = none := fun h' hnone =>
    h'.not_mem hnone hs
  obtain ⟨srv, hsrv⟩ := h.lists.allocated hs
  rw [afpUnmountVolume, hsrv]
  dsimp only
  by_cases hmounted : (sys.fields s).volumes[i]? = some .mounted
  swap
  · rw [if_pos hmounted]
    have hnot : ¬ LastMounted sys s i := fun hlast => hmounted hlast.1
    exact ⟨-1, sys, l, rfl, h, iff_of_false (halive h) hnot, fun _ => rfl⟩
  rw [if_neg (not_not.mpr hmounted)]
  -- the requests that close the volume
  obtain ⟨st', hst', hinv, hlogout⟩ := (h.setVolume i .unmounting (s := s)).sends hs hfuel hsound
  rw [hst']
  dsimp only
  have hinv' := hinv.setVolume i .unmounted (s := s)
  have hiff : somethingIsMounted ((({ sys.setVolume s i .unmounting with
      st := st' }).setVolume s i .unmounted).fields s) = false ↔ LastMounted sys s i := by
    refine lastMounted_iff (m := .unmounting) ?_ hmounted
    rw [fields_setVolume]
    show ((sys.setVolume s i .unmounting).fields s).volumes.set i .unmounted = _
    rw [fields_setVolume]
  by_cases hsome : somethingIsMounted ((({ sys.setVolume s i .unmounting with
      st := st' }).setVolume s i .unmounted).fields s) = true
  · rw [if_pos hsome]
    have hnot : ¬ LastMounted sys s i := fun hlast =>
      absurd (hiff.mpr hlast) (by rw [hsome]; decide)
    exact ⟨0, _, l, rfl, hinv', iff_of_false (halive hinv') hnot, fun hlast => absurd hlast hnot⟩
  rw [if_neg hsome]
  -- the last volume
  have hthis : LastMounted sys s i := hiff.mp (eq_false_of_ne_true hsome)
  obtain ⟨st'', hst'', hinv'', -⟩ := hinv'.dsiSend hs hfuel hlogout.1
  rw [hst'']
  obtain ⟨sys', l', hremove, hgone, hmem, -⟩ := hinv''.remove hs hfuel (hlast hthis)
  simp only [hremove]
  have hfreed : sys'.st.heap s = none := by
    refine Option.not_isSome_iff_eq_none.mp fun hsome => ?_
    exact ((hmem s).mp ((hgone.owned s).mp hsome)).1 rfl
  exact ⟨-1, sys', l', rfl, hgone, iff_of_true hfreed hthis, fun _ => rfl⟩

/-- Where no volume is mounted, none is unmounted. -/
theorem unmountAllFrom_of_not_mounted (hs : sys.st.heap s = some srv)
    (hnot : .mounted ∉ (sys.fields s).volumes) (fuel : ℕ) (requests : ℕ → Requests) (n i : ℕ) :
    unmountAllFrom fuel s requests n i sys = some (0, sys) := by
  induction n generalizing i with
  | zero => rfl
  | succ n ih =>
    have hi : (sys.fields s).volumes[i]? ≠ some .mounted := fun hi =>
      hnot (List.mem_of_getElem? hi)
    rw [unmountAllFrom, hs]
    simp only [if_neg hi]
    exact ih (i + 1)

/-- **A session is closed** that has no volume mounted. -/
theorem Inv.closeSession (h : Inv sys l) (hs : s ∈ l) {fuel : ℕ}
    (hnot : .mounted ∉ (sys.fields s).volumes) (requests : ℕ → Requests) :
    ∃ sys', dsiIncomingClosesession fuel sys s requests = some sys' ∧ Inv sys' l := by
  obtain ⟨srv, hsrv⟩ := h.lists.allocated hs
  obtain ⟨sys', hsys', hinv, -, -⟩ := h.disconnect hs
  refine ⟨sys', ?_, hinv⟩
  rw [dsiIncomingClosesession, afpUnmountAllVolumes, hsrv]
  simp only [unmountAllFrom_of_not_mounted hsrv hnot]
  exact hsys'

theorem afpServerLogin_next (flags : ℕ) (srv : AfpServer) (rc : ℤ) :
    (afpServerLogin flags srv rc).2.next = srv.next := by
  rw [afpServerLogin]
  split_ifs
  all_goals rfl

/-- A connection that completes only stores the server again. -/
theorem complete_of_sound (st : State) (fuel : ℕ) (s : Addr) (srv : AfpServer) {a : Attempt}
    (hversion : (pickVersion a.versions a.requestedVersion.toUInt8).1 ≠ none)
    (huam : pickUam a.uams a.uamMask ≠ -1) (hlogin : loginFails a.answers.login = false) :
    ∃ srv' session, afpServerCompleteConnection st fuel s srv a.versions a.uams
        a.requestedVersion a.uamMask a.answers = some ⟨0, st.store s srv', session⟩ ∧
      srv'.next = srv.next := by
  obtain ⟨version, hversion⟩ := Option.ne_none_iff_exists'.mp hversion
  unfold afpServerCompleteConnection
  rw [hversion]
  dsimp only
  rw [if_neg huam, if_neg (not_not.mpr (afpServerLogin_of_not_fails hlogin)),
    if_neg (not_not.mpr (afpGetsrvrparms_fst _ _))]
  exact ⟨_, _, rfl, afpServerLogin_next a.answers.flags srv a.answers.login⟩

/-- **The second connection** of a sound attempt. -/
theorem Inv.connectAgain (h : Inv sys l) {a : Attempt} (ha : sys.st.heap a.s = none)
    (hsecond : a.second.Accepted)
    (hversion : (pickVersion a.versions a.requestedVersion.toUInt8).1 ≠ none)
    (huam : pickUam a.uams a.uamMask ≠ -1) (hlogin : loginFails a.answers.login = false)
    (fuel : ℕ) (address : SockaddrIn) :
    ∃ sys', connectAgain fuel sys address a = some (some a.s, sys') ∧ Inv sys' (a.s :: l) := by
  obtain ⟨srv', -, hconnect⟩ :=
    afpServerConnect_of_accepted sys.st a.s (afpServerInit address) false hsecond
  have hinv := h.push srv' ha
  have hheap : (addServer sys.st a.s srv').heap a.s =
      some { srv' with next := sys.st.serverBase } := Function.update_self _ _ _
  obtain ⟨srv'', session, hcomplete, hnext⟩ := complete_of_sound
    (addServer sys.st a.s srv') fuel a.s { srv' with next := sys.st.serverBase } hversion huam
    hlogin
  have hstored : ((addServer sys.st a.s srv').store a.s srv'').heap a.s = some srv'' :=
    Function.update_self _ _ _
  rw [Lifecycle.connectAgain]
  simp only [System.allocate, System.setFields, hconnect, hheap, hcomplete, hstored]
  exact ⟨_, rfl, (hinv.store hheap hnext).setFields rfl⟩

/-- What the search by signature says of a signature that is not known. -/
theorem not_knownSignature {signature : List UInt8} {fuel : ℕ}
    (hsearch : search sys.st.heap AfpServer.next
      (fun s _ => (sys.fields s).signature == signature) fuel sys.st.serverBase = some none) :
    ¬ KnownSignature sys signature := by
  rintro ⟨l', hl', s, hs, heq⟩
  obtain ⟨srv, hsrv⟩ := hl'.allocated hs
  have hpass := passes_eq_false_of_search hl' hsearch s hs
  rw [passes, hsrv, Option.any_some, heq] at hpass
  simp at hpass

theorem not_knownAddress {address : SockaddrIn} {fuel : ℕ}
    (hfind : findServerByAddress sys.st fuel address = some none) :
    ¬ KnownAddress sys address := by
  rintro ⟨l', hl', s, hs, srv, hsrv, heq⟩
  have hpass := passes_eq_false_of_search hl' hfind s hs
  rw [passes, hsrv, Option.any_some, heq] at hpass
  simp at hpass

/-- A search of the list ends. -/
theorem Inv.exists_search (h : Inv sys l) {fuel : ℕ} (hfuel : l.length ≤ fuel)
    (test : Addr → AfpServer → Bool) :
    ∃ found, search sys.st.heap AfpServer.next test fuel sys.st.serverBase = some found :=
  ⟨_, search_eq_find? h.lists hfuel⟩

/-- **After the status** of the server at `t`, which is asked for nothing else: it is removed, and
a server with its signature is used or connected. -/
theorem Inv.afterStatus (h : Inv sys (t :: l)) {a : Attempt} (error : ℤ) {fuel : ℕ}
    (hfuel : l.length + 1 ≤ fuel) (ha : a.s ∉ l)
    (hwaiting : ∀ n w, sys.waiting n = some w → w.server ≠ t) (address : SockaddrIn)
    (hsecond : 0 ≤ error → (∀ s ∈ l, (sys.fields s).signature ≠ a.signature) →
      a.second.Accepted ∧ (pickVersion a.versions a.requestedVersion.toUInt8).1 ≠ none ∧
        pickUam a.uams a.uamMask ≠ -1 ∧ loginFails a.answers.login = false) :
    ∃ ret sys' l', afterStatus fuel sys t address a error = some (ret, sys') ∧ Inv sys' l' ∧
      (ret = none → sys'.st.heap a.s = none ∧ sys'.st.heap t = none) := by
  have ht : t ∈ t :: l := List.mem_cons_self
  have hnot : t ∉ l := (List.nodup_cons.mp h.lists.nodup).1
  have hfreed : ∀ {sys' : System} {l' : List Addr}, Inv sys' l' →
      (∀ u, u ∈ l' ↔ u ≠ t ∧ u ∈ t :: l) → sys'.st.heap a.s = none ∧ sys'.st.heap t = none := by
    intro sys' l' hinv hmem
    have hnone : ∀ u, u ∉ l → sys'.st.heap u = none := fun u hu => by
      refine Option.not_isSome_iff_eq_none.mp fun hsome => ?_
      obtain ⟨hne, hul⟩ := (hmem u).mp ((hinv.owned u).mp hsome)
      exact hu ((List.mem_cons.mp hul).resolve_left hne)
    exact ⟨hnone a.s ha, hnone t hnot⟩
  rw [Lifecycle.afterStatus]
  by_cases herror : error < 0
  · rw [if_pos herror]
    obtain ⟨sys', l', hremove, hinv, hmem, -⟩ := h.remove ht hfuel hwaiting
    exact ⟨none, sys', l', by rw [hremove]; rfl, hinv, fun _ => hfreed hinv hmem⟩
  rw [if_neg herror]
  obtain ⟨sys₁, hdisconnect, h₁, hfields₁, hwaiting₁⟩ := h.disconnect ht
  obtain ⟨sys₂, l₂, hremove, h₂, hmem, hfields₂⟩ :=
    h₁.remove ht hfuel (by rwa [hwaiting₁])
  have hsame : ∀ u, u ∈ l₂ ↔ u ∈ l := by
    intro u
    rw [hmem u, List.mem_cons]
    constructor
    · rintro ⟨hne, hu⟩
      exact hu.resolve_left hne
    · exact fun hu => ⟨ne_of_mem_of_not_mem hu hnot, .inr hu⟩
  have hlength : l₂.length ≤ fuel :=
    (List.subperm_of_subset h₂.lists.nodup fun u hu => (hsame u).mp hu).length_le.trans
      (Nat.le_of_succ_le hfuel)
  obtain ⟨found, hsearch⟩ := h₂.exists_search hlength fun s _ =>
    (sys₂.fields s).signature == a.signature
  rw [hdisconnect]
  dsimp only
  rw [hremove]
  dsimp only
  rw [hsearch]
  cases found with
  | some s => exact ⟨some s, sys₂, l₂, rfl, h₂, fun hnone => absurd hnone (by simp)⟩
  | none =>
    obtain ⟨haccepted, hversion, huam, hlogin⟩ := hsecond (Int.not_lt.mp herror) fun s hs heq => by
      refine not_knownSignature hsearch ⟨l₂, h₂.lists, s, (hsame s).mpr hs, ?_⟩
      rw [hfields₂, hfields₁, heq]
    obtain ⟨sys', hconnect, hinv⟩ := h₂.connectAgain (hfreed h₂ hmem).1 haccepted hversion huam
      hlogin fuel address
    exact ⟨some a.s, sys', a.s :: l₂, hconnect, hinv, fun hnone => absurd hnone (by simp)⟩

/-- **An attempt to connect** that is sound: the server it asks for its status is removed, and so
nothing of it is left. -/
theorem Inv.attempt (h : Inv sys l) {a : Attempt} (henabled : Enabled sys (.attempt a))
    (hsound : AttemptSound sys a) {fuel : ℕ} (hfuel : l.length + 1 ≤ fuel) :
    ∃ ret sys' l', afpServerFullConnect fuel sys a = some (ret, sys') ∧ Inv sys' l' ∧
      (ret = none → sys'.st.heap a.s = none ∧ ∀ t ∈ a.tmpserver, sys'.st.heap t = none) := by
  obtain ⟨htmp, ha⟩ := henabled
  rw [afpServerFullConnect]
  cases haddress : a.address with
  | none => exact ⟨none, sys, l, rfl, h, fun _ => ⟨ha, htmp⟩⟩
  | some address =>
  dsimp only
  obtain ⟨found, hfound⟩ := h.exists_search (Nat.le_of_succ_le hfuel) fun _ srv =>
    srv.address == address
  have hfind : findServerByAddress sys.st fuel address = some found := hfound
  rw [hfind]
  cases found with
  | some s => exact ⟨some s, sys, l, rfl, h, fun hnone => absurd hnone (by simp)⟩
  | none =>
  dsimp only
  have hunknown := not_knownAddress hfind
  cases htmpserver : a.tmpserver with
  | none => exact ⟨none, sys, l, rfl, h, fun _ => ⟨ha, by simp⟩⟩
  | some t =>
  dsimp only
  have ht : sys.st.heap t = none := htmp t htmpserver
  -- the connection for the status
  obtain ⟨srv', -, hconnect⟩ :=
    afpServerConnect_of_accepted (sys.allocate t).st t (afpServerInit address) true
      (hsound.first address t haddress hunknown htmpserver)
  rw [hconnect, if_pos rfl]
  have hinv := (h.push srv' ht).setFields (s := t)
    (f := { (sys.allocate t).fields t with signature := a.signature }) rfl
  have hwaiting : ∀ n w, sys.waiting n = some w → w.server ≠ t := fun n w hw =>
    ne_of_mem_of_not_mem (h.waiting n w hw).1 (h.not_mem ht)
  have hsecond : 0 ≤ -a.first.getstatus → (∀ s ∈ l, (sys.fields s).signature ≠ a.signature) →
      a.second.Accepted ∧ (pickVersion a.versions a.requestedVersion.toUInt8).1 ≠ none ∧
        pickUam a.uams a.uamMask ≠ -1 ∧ loginFails a.answers.login = false := by
    intro herror hsig
    refine hsound.second address t haddress hunknown htmpserver (by omega) ?_
    rintro ⟨l', hl', s, hs, heq⟩
    rw [hl'.unique h.lists] at hs
    exact hsig s hs heq
  obtain ⟨ret, sys', l', heq, hinv', hnone⟩ := hinv.afterStatus (-a.first.getstatus)
    hfuel (h.not_mem ha) hwaiting address fun herror hsig => hsecond herror fun s hs => by
      have hne : s ≠ t := ne_of_mem_of_not_mem hs (h.not_mem ht)
      have hs' := hsig s hs
      rw [setFields_of_ne _ _ hne] at hs'
      exact fun heq => hs' ((congrArg Fields.signature (setFields_of_ne sys _ hne)).trans heq)
  refine ⟨ret, sys', l', heq, hinv', fun hret => ⟨(hnone hret).1, fun u hu => ?_⟩⟩
  rw [← Option.some.inj (Option.mem_def.mp hu)]
  exact (hnone hret).2

/-- A thread has waited long enough, for a server that is still there. -/
theorem Inv.wake (h : Inv sys l) {n : ℕ} {w : Waiting} (hw : sys.waiting n = some w) {fuel : ℕ}
    (hfuel : l.length ≤ fuel) : ∃ sys', sys.wake fuel n w = some sys' ∧ Inv sys' l := by
  obtain ⟨hmem, hserial⟩ := h.waiting n w hw
  have halive : sys.alive w.server w.serial = true := by
    rw [System.alive, (h.owned _).mpr hmem, hserial]
    simp
  rw [System.wake, h.valid hmem hfuel]
  simp only [halive, Bool.not_true, Bool.and_false, Bool.false_eq_true, if_false]
  refine ⟨_, rfl, { h with waiting := fun m v hv => ?_ }⟩
  by_cases hm : m = n
  · simp [hm] at hv
  · refine h.waiting m v ?_
    simpa [hm] using hv

/-- A thread sends a request and waits. -/
theorem Inv.request (h : Inv sys l) (hs : s ∈ l) (n : ℕ) (uses : Bool) :
    Inv { sys with
      waiting := Function.update sys.waiting n (some ⟨s, (sys.fields s).serial, uses⟩) } l :=
  { h with
    waiting := fun m v hv => by
      by_cases hm : m = n
      · simp only [hm, Function.update_self, Option.some.injEq] at hv
        exact hv ▸ ⟨hs, rfl⟩
      · refine h.waiting m v ?_
        simpa [hm] using hv }

/-- **A step that meets the condition** uses no server that was freed, and keeps the invariant. -/
theorem Inv.perform (h : Inv sys l) {a : Action} (henabled : Enabled sys a)
    (hsound : Sound (.running sys) a) : ∃ t l', sys.perform a = some t ∧ Inv t l' := by
  have hfuel : l.length ≤ sys.allocated + 1 := Nat.le_succ_of_le h.length
  cases a with
  | attempt a =>
    obtain ⟨ret, t, l', hconnect, hinv, hnone⟩ :=
      h.attempt henabled hsound (Nat.succ_le_succ h.length)
    rw [System.perform, hconnect]
    refine ⟨_, l', rfl, { hinv with leaked := ?_ }⟩
    cases ret with
    | some s => exact hinv.leaked
    | none =>
      obtain ⟨ha, htmp⟩ := hnone rfl
      show (a.tmpserver.toList ++ [a.s]).filter (fun s => (t.st.heap s).isSome) ++ t.leaked = []
      rw [hinv.leaked, List.append_nil, List.filter_eq_nil_iff]
      intro s hs
      rcases List.mem_append.mp hs with hs | hs
      · rw [htmp s (Option.mem_toList.mp hs)]
        exact Bool.false_ne_true
      · rw [List.mem_singleton.mp hs, ha]
        exact Bool.false_ne_true
  | lose s =>
    obtain ⟨srv, hsrv, -⟩ := henabled
    obtain ⟨t, ht, hinv, -, -⟩ := h.disconnect (h.mem hsrv)
    exact ⟨t, l, ht, hinv⟩
  | closeSession s requests =>
    obtain ⟨srv, hsrv, -⟩ := henabled
    obtain ⟨t, ht, hinv⟩ := h.closeSession (h.mem hsrv) hsound requests
    exact ⟨t, l, ht, hinv⟩
  | mount s i requests =>
    have hs : s ∈ l := (h.owned s).mp henabled.1
    have hall : ResumeSound (sys.st.Connected s) (requests ++ []) := by rwa [List.append_nil]
    obtain ⟨st', hst', hinv, -⟩ := h.sends hs hfuel hall
    rw [System.perform, hst']
    exact ⟨_, l, rfl, hinv.setVolume i .mounted⟩
  | unmount s i requests looks =>
    have hs : s ∈ l := (h.owned s).mp henabled
    obtain ⟨ret, t, l', hunmount, hinv, hlast, -⟩ :=
      h.unmount hs hfuel hsound.1 fun hlast => (hsound.2 hlast).2
    rw [System.perform, hunmount]
    refine ⟨t, l', if_neg fun hlooks => ?_, hinv⟩
    rw [Bool.and_eq_true] at hlooks
    have hthis : LastMounted sys s i := hlast.mp (Option.isNone_iff_eq_none.mp hlooks.2)
    rw [(hsound.2 hthis).1] at hlooks
    exact absurd hlooks.1 Bool.false_ne_true
  | request n s r uses =>
    have hs : s ∈ l := (h.owned s).mp henabled.1
    obtain ⟨st', hst', hinv, -⟩ := h.dsiSend hs hfuel hsound.1
    rw [System.perform, hst']
    exact ⟨_, l, rfl, hinv.request hs n uses⟩
  | wake n =>
    obtain ⟨w, hw⟩ := Option.isSome_iff_exists.mp henabled
    obtain ⟨t, ht, hinv⟩ := h.wake hw hfuel
    rw [System.perform, hw]
    exact ⟨t, l, ht, hinv⟩

end

/-! ## The condition is needed -/

section

variable {sys : System} {l : List Addr} {s t : Addr}

/-- A server that is not in the list is not removed. -/
theorem afpServerRemove_of_not_mem {st : State} (hl : st.Lists l) (hs : s ∉ l) {fuel : ℕ}
    (hfuel : l.length ≤ fuel) (srv : AfpServer) :
    afpServerRemove st fuel s srv = some (-1, st) := by
  have hbase : st.serverBase ≠ some s := fun hbase => by
    rw [hl.eq_head?] at hbase
    exact hs (List.mem_of_mem_head? hbase)
  have hsearch : search st.heap AfpServer.next (fun _ s2 => s2.next == some s) fuel
      st.serverBase = some (l.find? (passes st.heap fun _ s2 => s2.next == some s)) :=
    search_eq_find? hl hfuel
  rw [afpServerRemove, if_neg hbase, hsearch]
  cases hfind : l.find? (passes st.heap fun _ s2 => s2.next == some s) with
  | none => rfl
  | some p =>
    rw [hfind] at hsearch
    obtain ⟨prev, hprev, htest⟩ := search_passes hsearch
    obtain ⟨l₁, l₂, rfl⟩ := List.append_of_mem (search_mem hl hsearch)
    obtain ⟨l₃, rfl⟩ := eq_of_next_eq hl hprev (eq_of_beq htest)
    exact absurd (by simp) hs

/-- **A server that refuses the connection is never freed**, whatever the other servers are. -/
theorem Inv.leaks_of_refused (h : Inv sys l) {a : Attempt} (henabled : Enabled sys (.attempt a))
    {address : SockaddrIn} (haddress : a.address = some address)
    (hunknown : ¬ KnownAddress sys address) (htmpserver : a.tmpserver = some t)
    (hrefused : ¬ a.first.Accepted)
    (herror : (afpServerConnect sys.st t (afpServerInit address) true a.first).1 < 0) :
    ∃ sys', sys.perform (.attempt a) = some sys' ∧ t ∈ sys'.leaked := by
  obtain ⟨htmp, -⟩ := henabled
  have hnot : t ∉ l := h.not_mem (htmp t htmpserver)
  have hfuel : l.length ≤ sys.allocated + 1 := Nat.le_succ_of_le h.length
  have hfind : findServerByAddress sys.st (sys.allocated + 1) address = some none := by
    obtain ⟨found, hfound⟩ := h.exists_search hfuel fun _ srv => srv.address == address
    cases found with
    | none => exact hfound
    | some s =>
      obtain ⟨srv, hsrv, htest⟩ := search_passes hfound
      exact absurd ⟨l, h.lists, s, search_mem h.lists hfound, srv, hsrv, eq_of_beq htest⟩ hunknown
  have hstate : (afpServerConnect sys.st t (afpServerInit address) true a.first).2 =
      sys.st.store t { afpServerInit address with fd := a.first.socket } := by
    rcases afpServerConnect_cases sys.st t (afpServerInit address) true a.first with
      ⟨-, heq⟩ | ⟨hacc, -⟩
    · exact heq
    · exact absurd hacc hrefused
  -- the new server is stored, and the list is as it was
  have hl : (sys.st.store t { afpServerInit address with fd := a.first.socket }).Lists l :=
    h.lists.update hnot
  have hremove := afpServerRemove_of_not_mem hl hnot hfuel
    { afpServerInit address with fd := a.first.socket }
  have hconnect : afpServerConnect (sys.allocate t).st t (afpServerInit address) true a.first =
      ((afpServerConnect sys.st t (afpServerInit address) true a.first).1,
        sys.st.store t { afpServerInit address with fd := a.first.socket }) :=
    Prod.ext rfl hstate
  have hheap : (sys.st.store t { afpServerInit address with fd := a.first.socket }).heap t =
      some { afpServerInit address with fd := a.first.socket } := Function.update_self _ _ _
  rw [System.perform, afpServerFullConnect, haddress]
  dsimp only
  rw [hfind, htmpserver]
  dsimp only
  rw [hconnect, Lifecycle.afterStatus, if_pos herror]
  simp only [System.remove, System.setFields, hheap, hremove, Option.map_some]
  refine ⟨_, rfl, List.mem_append_left _ (List.mem_filter.mpr ⟨?_, ?_⟩)⟩
  · exact List.mem_append_left _ (Option.mem_toList.mpr rfl)
  · rw [hheap]
    rfl

/-- A connection that does not complete frees the server. -/
theorem complete_of_fails (st : State) (fuel : ℕ) (srv : AfpServer) {a : Attempt}
    (hbase : st.serverBase = some s)
    (hfails : (pickVersion a.versions a.requestedVersion.toUInt8).1 = none ∨
      pickUam a.uams a.uamMask = -1 ∨ loginFails a.answers.login = true) :
    ∃ out, afpServerCompleteConnection st fuel s srv a.versions a.uams a.requestedVersion
      a.uamMask a.answers = some out ∧ out.ret ≠ 0 ∧ out.state.heap s = none := by
  have hgive : ∀ (session : Session) {ret : ℤ}, ret ≠ 0 →
      ∃ out, giveUp st fuel s srv session ret = some out ∧ out.ret ≠ 0 ∧
        out.state.heap s = none := by
    intro session ret hret
    rw [giveUp, afpServerRemove, if_pos hbase]
    exact ⟨_, rfl, hret, Function.update_self _ _ _⟩
  unfold afpServerCompleteConnection
  cases hversion : (pickVersion a.versions a.requestedVersion.toUInt8).1 with
  | none => exact hgive _ (by decide)
  | some version =>
    dsimp only
    by_cases huam : pickUam a.uams a.uamMask = -1
    · rw [if_pos huam]
      exact hgive _ (by decide)
    · have hlogin := (hfails.resolve_left (by rw [hversion]; simp)).resolve_left huam
      rw [if_neg huam, afpServerLogin_of_fails hlogin]
      exact hgive _ (by decide)

/-- **A server whose connection does not complete** is freed already when `error:` looks whether a
volume of it is mounted, and when it is removed again. -/
theorem connectAgain_faults {a : Attempt} (hsecond : a.second.Accepted)
    (hfails : (pickVersion a.versions a.requestedVersion.toUInt8).1 = none ∨
      pickUam a.uams a.uamMask = -1 ∨ loginFails a.answers.login = true)
    (fuel : ℕ) (address : SockaddrIn) : connectAgain fuel sys address a = none := by
  obtain ⟨srv', -, hconnect⟩ :=
    afpServerConnect_of_accepted (sys.allocate a.s).st a.s (afpServerInit address) false hsecond
  have hheap : (addServer (sys.allocate a.s).st a.s srv').heap a.s =
      some { srv' with next := (sys.allocate a.s).st.serverBase } := Function.update_self _ _ _
  obtain ⟨out, hcomplete, hret, hnone⟩ := complete_of_fails
    (addServer (sys.allocate a.s).st a.s srv') fuel
    { srv' with next := (sys.allocate a.s).st.serverBase } rfl hfails
  rw [connectAgain, hconnect]
  dsimp only
  rw [if_neg Bool.false_ne_true, if_neg (not_not.mpr rfl), hheap]
  dsimp only
  rw [hcomplete]
  dsimp only
  rw [if_pos hret, errorExit, hnone]

/-- A session is closed with one volume mounted. -/
theorem unmountAllFrom_of_lastMounted {i : ℕ} (h : LastMounted sys s i) {fuel : ℕ}
    {requests : ℕ → Requests} {sys' : System} (hs : (sys.st.heap s).isSome = true)
    (hunmount : afpUnmountVolume fuel sys s i (requests i) = some (-1, sys')) (n j : ℕ)
    (hj : j ≤ i) (hi : i < j + n) :
    unmountAllFrom fuel s requests n j sys = some (1, sys') := by
  obtain ⟨srv, hsrv⟩ := Option.isSome_iff_exists.mp hs
  induction n generalizing j with
  | zero => omega
  | succ n ih =>
    rw [unmountAllFrom, hsrv]
    dsimp only
    by_cases hji : j = i
    · subst hji
      rw [if_pos h.1, hunmount]
      rfl
    · have hnot : (sys.fields s).volumes[j]? ≠ some .mounted := fun hmounted =>
        absurd (h.2 j _ hji hmounted) (by decide)
      rw [if_neg hnot]
      exact ih (j + 1) (by omega) (by omega)

/-- **A session that is closed while a volume is mounted** disconnects the server that was removed
with the volume. -/
theorem Inv.closeSession_faults (h : Inv sys l) (hs : s ∈ l) {i : ℕ} (hlast : LastMounted sys s i)
    {requests : ℕ → Requests}
    (hsound : ResumeSound (sys.st.Connected s)
      ((requests i).close ++ [(requests i).logout]))
    (hwaiting : ∀ n w, sys.waiting n = some w → w.server ≠ s) :
    sys.perform (.closeSession s requests) = none := by
  obtain ⟨ret, sys', l', hunmount, -, hfreed, hret⟩ :=
    h.unmount hs (Nat.le_succ_of_le h.length) hsound fun _ => hwaiting
  rw [hret hlast] at hunmount
  obtain ⟨srv, hsrv⟩ := h.lists.allocated hs
  have hi : i < (sys.fields s).volumes.length := (List.getElem?_eq_some_iff.mp hlast.1).1
  rw [System.perform, dsiIncomingClosesession, afpUnmountAllVolumes, hsrv]
  dsimp only
  rw [unmountAllFrom_of_lastMounted hlast (by rw [hsrv]; rfl) hunmount _ 0 (Nat.zero_le i)
    (by omega)]
  dsimp only
  rw [System.disconnect, hfreed.mpr hlast]

end

/-! ## Runs -/

/-- The invariant of the runs. -/
def Config.Holds : Config → Prop
  | .running sys => ∃ l, Inv sys l
  | .fault => False

theorem holds_step {c d : Config} {a : Action} (hstep : Guarded Sound Step c a d) (h : c.Holds) :
    d.Holds := by
  obtain ⟨hsound, hstep⟩ := hstep
  cases hstep with
  | running henabled hperform =>
    obtain ⟨l, hinv⟩ := h
    obtain ⟨t, l', ht, hinv'⟩ := hinv.perform henabled hsound
    rw [Option.some.inj (hperform.symm.trans ht)]
    exact ⟨l', hinv'⟩
  | fault henabled hperform =>
    obtain ⟨l, hinv⟩ := h
    obtain ⟨t, l', ht, -⟩ := hinv.perform henabled hsound
    exact absurd (hperform.symm.trans ht) (by simp)

/-- **The life of a server.**  In a run all of whose steps meet the condition no server is used
after it was freed or freed twice, and nothing is left of an attempt to connect that has failed. -/
theorem freed_once_of_sound {as : List Action} {c : Config}
    (hrun : Run (Guarded Sound Step) (.running .init) as c) : Kept c := by
  have hholds : c.Holds :=
    hrun.invariant Config.Holds (fun _ _ _ hstep h => holds_step hstep h) ⟨[], inv_init⟩
  cases c with
  | running sys =>
    obtain ⟨l, hinv⟩ := hholds
    exact ⟨hinv.once, hinv.leaked⟩
  | fault => exact hholds

/-- An attempt to connect a server that answers as it should: it has no passwords. -/
def guest : Attempt where
  address := some (loopback 548)
  tmpserver := some 1
  first := .success 3
  signature := [7]
  s := 1
  second := .success 3
  versions := [31]
  uams := 1
  requestedVersion := 0
  uamMask := 1
  answers := ⟨0, kFPNoErr, ⟨kFPNoErr, some ⟨0, [(0, [65])]⟩⟩, 0⟩

theorem guest_sound : AttemptSound .init guest where
  first _ _ _ _ _ := by decide
  second _ _ _ _ _ _ _ := by decide

/-- What comes of a request whose server is connected. -/
def Resume.none : Resume where
  outcome := .success 0
  login := 0
  closed := false

/-- A server is connected, and a volume of it is mounted; a request is sent and answered; the
volume is unmounted, and the server is gone. -/
theorem freed_once_of_guest : ∃ sys,
    Run (Guarded Sound Step) (.running .init)
      [.attempt guest, .mount 1 0 [.none], .request 0 1 .none true, .wake 0,
        .unmount 1 0 ⟨[.none], .none⟩ false] (.running sys) ∧ Kept (.running sys) := by
  have hrun : ∃ sys, Run (Guarded Sound Step) (.running .init)
      [.attempt guest, .mount 1 0 [.none], .request 0 1 .none true, .wake 0,
        .unmount 1 0 ⟨[.none], .none⟩ false] (.running sys) := by
    refine ⟨_, .cons ⟨guest_sound, .running ⟨fun _ _ => rfl, rfl⟩ rfl⟩ <|
      .cons ⟨⟨fun hnot => absurd ⟨_, rfl, rfl⟩ hnot, trivial⟩, .running ⟨rfl, rfl⟩ rfl⟩ <|
      .cons ⟨⟨fun hnot => absurd ⟨_, rfl, rfl⟩ hnot, trivial⟩, .running ⟨rfl, rfl⟩ rfl⟩ <|
      .cons ⟨trivial, .running rfl rfl⟩ <|
      .cons ⟨⟨⟨fun hnot => absurd ⟨_, rfl, rfl⟩ hnot, fun hnot => absurd ⟨⟨_, rfl, rfl⟩, rfl⟩ hnot,
        trivial⟩, fun _ => ⟨rfl, fun n w hw => ?_⟩⟩, .running rfl rfl⟩ <| .nil _⟩
    -- no thread waits any more
    have hnone : (Option.none : Option Waiting) = some w := by
      cases n with
      | zero => exact hw
      | succ n => exact hw
    exact absurd hnone (by simp)
  obtain ⟨sys, hsys⟩ := hrun
  exact ⟨sys, hsys, freed_once_of_sound hsys⟩

/-- **A server that refuses the connection** is allocated, and not in the list when
`afp_server_remove()` looks for it there. -/
theorem refused_server_leaks :
    ¬ ∀ (as : List Action) (c : Config), Run Step (.running .init) as c → Kept c := by
  intro h
  have hkept := h _ _ (.cons (.running (a := .attempt { guest with
    first := { guest.first with connectErrno := some 111 } }) ⟨fun _ _ => rfl, rfl⟩ rfl) (.nil _))
  exact absurd hkept.2 (by decide)

end Lifecycle
end Server
end Afpfs
