import Afpfs.Dsi.Receive
import Afpfs.Lib.Transition
import Mathlib.Data.List.Nodup
import Mathlib.Data.Fintype.Basic
import Mathlib.Logic.Function.Basic

/-!
# Routing replies to requests

`dsi_setup_header()` chooses the id of a request and `dsi_send()` queues the request, in
`lib/dsi.c`.  `dsi_recv()` looks up the id of every packet in the queue.  Several threads do this
side by side.

A `Session` is one server with its threads, its queue and the packets in flight.  An action is one
of these calls, or the part of a call up to a point where it lets others run: `dsi_send()` queues
the request and writes the packet in two actions, since a reconnect may come between, and
`dsi_recv()` takes one action for each of its effects.  The thread that receives is number 0.  It
also answers the tickles, from within `dsi_recv()`.  A call inside a call, such as those of a
reconnect, counts as a thread of its own.

Two things are recorded that the program does not keep: the header of the packet that a request was
queued for, and which request a reply of the server answers.

`Routed` is what is expected of every state, and `Careful` a condition on the actions.

* `routing_run`: runs of careful actions keep it.
* `careless_runs`: without the condition each of its three parts can fail.
-/

set_option autoImplicit false

namespace Afpfs
namespace Dsi

open Interaction Transition

/-! ## Sessions -/

/-- The part of a `struct dsi_header` that `dsi_setup_header()` fills in. -/
structure Header where
  requestid : UInt16
  command : UInt8
  deriving DecidableEq

/-- A `struct dsi_request` in the queue, with the header of the packet it was queued for. -/
structure Queued where
  handle : Handle
  requestid : UInt16
  subcommand : UInt8
  wait : Bool
  header : Header
  deriving DecidableEq

/-- A packet from the server, with the request it answers. -/
structure Incoming where
  flags : UInt8
  command : UInt8
  requestid : UInt16
  answers : Option Handle
  deriving DecidableEq

/-- Where a thread is. -/
inductive Phase where
  | idle
  /-- The receiving thread has to answer a tickle. -/
  | due
  /-- `dsi_setup_header()` was called. -/
  | ready (header : Header)
  /-- `dsi_send()` has queued the request, and not written the packet yet. -/
  | queued (handle : Handle) (header : Header)
  /-- `dsi_send()` has written the packet. -/
  | waiting (handle : Handle)
  deriving DecidableEq

/-- The thread that calls `dsi_recv()`. -/
def receiver : ℕ := 0

/-- A server with what is in flight to it and from it. -/
structure Session where
  lastrequestid : UInt16
  /-- `command_requests`. -/
  queue : List Queued
  /-- The requests that were allocated so far. -/
  allocated : ℕ
  threads : ℕ → Phase
  /-- The packets the server has not answered yet, with the ids in their headers. -/
  unanswered : List (Handle × UInt16)
  /-- The packets that are on their way. -/
  incoming : List Incoming
  /-- The packet that `dsi_recv()` handles, and what is left of the call. -/
  receiving : Option (Incoming × RecvM (ℤ × RecvState))
  /-- The requests that `dsi_recv()` wrote to or completed, and for which packet. -/
  touched : List (Handle × Incoming)

/-- A server after its connection was made. -/
def Session.init : Session where
  lastrequestid := 0
  queue := []
  allocated := 0
  threads := fun _ => .idle
  unanswered := []
  incoming := []
  receiving := none
  touched := []

/-- The id that `dsi_setup_header()` chooses. -/
def nextRequestid (lastrequestid : UInt16) : UInt16 :=
  if lastrequestid = 65535 then 0 else lastrequestid + 1

/-- The first request with an id. -/
def dsiFindRequest (queue : List Queued) (id : UInt16) : Option Queued :=
  queue.find? (·.requestid == id)

/-- The queue without a request. -/
def dsiRemoveFromRequestQueue (queue : List Queued) (handle : Handle) : List Queued :=
  queue.eraseP (·.handle == handle)

/-- The request that `dsi_send()` queues: its id is read from the server, not from the header. -/
def Session.newRequest (s : Session) (header : Header) (subcommand : UInt8) (wait : Bool) :
    Queued where
  handle := s.allocated
  requestid := s.lastrequestid
  subcommand := subcommand
  wait := wait
  header := header

/-- The request that an effect of `dsi_recv()` writes to or completes. -/
def RecvEffect.touches : RecvEffect → Option Handle
  | .setReturnCode r _ | .fillBuffer r _ | .signal r | .remove r => some r
  | .handle (.commandReply r) _ => some r
  | _ => none

/-- What an effect of `dsi_recv()` does to the queue and to the receiving thread. -/
def Session.perform (s : Session) : RecvEffect → Session
  | .signal r =>
    { s with queue := s.queue.map fun e => if e.handle = r then { e with wait := false } else e }
  | .remove r => { s with queue := dsiRemoveFromRequestQueue s.queue r }
  | .handle .tickle _ => { s with threads := Function.update s.threads receiver .due }
  | _ => s

/-- The answer to a lookup is what the queue says.  The sizes of a read buffer may be any. -/
def Session.Answers (s : Session) : (e : RecvEffect) × e.Answer → Prop
  | ⟨.findRequest id, found⟩ =>
    (found : Option (Handle × DsiRequest)).map
        (fun x => (x.1, x.2.requestid, x.2.subcommand, x.2.wait)) =
      (dsiFindRequest s.queue id).map fun e => (e.handle, e.requestid, e.subcommand, e.wait)
  | _ => True

/-- The buffer holds the header of a packet. -/
structure Holds (r : RecvState) (p : Incoming) : Prop where
  size : headerSize ≤ r.dataRead
  flags : flags r.incomingBuffer = p.flags
  command : command r.incomingBuffer = p.command
  requestid : requestid r.incomingBuffer = p.requestid

/-! ## Actions -/

inductive Action where
  /-- `dsi_setup_header()`. -/
  | setup (t : ℕ) (command : UInt8)
  /-- `dsi_send()` queues the request. -/
  | enqueue (t : ℕ) (subcommand : UInt8) (wait : Bool)
  /-- `dsi_send()` writes the packet. -/
  | write (t : ℕ)
  /-- `dsi_send()` finds the connection closed, and leaves the request in the queue. -/
  | lost (t : ℕ)
  /-- `dsi_send()` removes the request and returns. -/
  | ret (t : ℕ)
  /-- `afp_server_connect()` for a reconnect. -/
  | reset
  /-- The server answers a request. -/
  | reply (handle : Handle) (id : UInt16) (command : UInt8)
  /-- The server sends a packet of its own. -/
  | initiate (command : UInt8) (id : UInt16)
  /-- `dsi_recv()` is called, and has the header of a packet in its buffer. -/
  | call (r : RecvState)
  /-- `dsi_recv()` performs its next effect. -/
  | effect (ev : (e : RecvEffect) × e.Answer)
  /-- `dsi_recv()` returns.  The packet may need another call. -/
  | finish (again : Bool)

/-- One action. -/
inductive Step : Session → Action → Session → Prop
  | setup {s : Session} {t : ℕ} {command : UInt8}
      (hphase : s.threads t = if t = receiver then .due else .idle)
      (htickle : t = receiver → command = DSI_DSITickle) :
      Step s (.setup t command)
        { s with
          lastrequestid := nextRequestid s.lastrequestid
          threads := Function.update s.threads t
            (.ready ⟨nextRequestid s.lastrequestid, command⟩) }
  | enqueue {s : Session} {t : ℕ} {header : Header} {subcommand : UInt8} {wait : Bool}
      (hphase : s.threads t = .ready header)
      (htickle : t = receiver → subcommand = 0 ∧ wait = false) :
      Step s (.enqueue t subcommand wait)
        { s with
          queue := s.queue ++ [s.newRequest header subcommand wait]
          allocated := s.allocated + 1
          threads := Function.update s.threads t (.queued s.allocated header) }
  | write {s : Session} {t : ℕ} {handle : Handle} {header : Header}
      (hphase : s.threads t = .queued handle header) :
      Step s (.write t)
        { s with
          -- a tickle is not answered
          unanswered := if header.command = DSI_DSITickle then s.unanswered
            else s.unanswered ++ [(handle, header.requestid)]
          threads := Function.update s.threads t (.waiting handle) }
  | lost {s : Session} {t : ℕ} {handle : Handle} {header : Header}
      (hphase : s.threads t = .queued handle header) :
      Step s (.lost t) { s with threads := Function.update s.threads t .idle }
  | ret {s : Session} {t : ℕ} {handle : Handle}
      (hphase : s.threads t = .waiting handle ∨ ∃ header, s.threads t = .queued handle header) :
      Step s (.ret t)
        { s with
          queue := dsiRemoveFromRequestQueue s.queue handle
          threads := Function.update s.threads t .idle }
  | reset {s : Session} :
      Step s .reset { s with lastrequestid := 0, unanswered := [], incoming := [] }
  | reply {s : Session} {handle : Handle} {id : UInt16} {command : UInt8}
      (hmem : (handle, id) ∈ s.unanswered) :
      Step s (.reply handle id command)
        { s with
          unanswered := s.unanswered.erase (handle, id)
          incoming := s.incoming ++ [⟨DSI_REPLY, command, id, some handle⟩] }
  | initiate {s : Session} {command : UInt8} {id : UInt16} :
      Step s (.initiate command id)
        { s with incoming := s.incoming ++ [⟨DSI_REQUEST, command, id, none⟩] }
  | call {s : Session} {p : Incoming} {rest : List Incoming} {r : RecvState}
      (hincoming : s.incoming = p :: rest) (hnone : s.receiving = none) (hholds : Holds r p) :
      Step s (.call r) { s with incoming := rest, receiving := some (p, gotenough r) }
  | effect {s : Session} {p : Incoming} {e : RecvEffect} {k : e.Answer → RecvM (ℤ × RecvState)}
      {answer : e.Answer} (hreceiving : s.receiving = some (p, .act e k))
      (hidle : s.threads receiver = .idle) (hanswer : s.Answers ⟨e, answer⟩) :
      Step s (.effect ⟨e, answer⟩)
        { s.perform e with
          receiving := some (p, k answer)
          touched := s.touched ++ (e.touches.map fun handle => (handle, p)).toList }
  | finish {s : Session} {p : Incoming} {result : ℤ × RecvState} {again : Bool}
      (hreceiving : s.receiving = some (p, .done result))
      (hidle : s.threads receiver = .idle) :
      Step s (.finish again)
        { s with
          receiving := none
          incoming := if again then p :: s.incoming else s.incoming }

/-! ## What is expected -/

/-- A request has the id of its packet, ids are not shared, and `dsi_recv()` touches a request only
for the reply to it. -/
structure Routed (s : Session) : Prop where
  ids : ∀ e ∈ s.queue, e.requestid = e.header.requestid
  distinct : (s.queue.map Queued.requestid).Nodup
  touched : ∀ x ∈ s.touched, x.2.flags = DSI_REPLY ∧ x.2.answers = some x.1

/-- A packet is on its way or handled now. -/
def Session.Arriving (s : Session) (p : Incoming) : Prop :=
  p ∈ s.incoming ∨ ∃ prog, s.receiving = some (p, prog)

/-- The packet of a request is about to be written, or is not answered yet, or its answer has not
been handled. -/
def Session.InFlight (s : Session) (handle : Handle) (id : UInt16) : Prop :=
  (∃ t header, s.threads t = .queued handle header ∧ header.requestid = id) ∨
    (handle, id) ∈ s.unanswered ∨
      ∃ p, s.Arriving p ∧ p.answers = some handle ∧ p.requestid = id

/-- The condition on an action.  A request is queued while the last id is still the one in its
header, and no other request that is queued or in flight has that id; and the id of a packet that
the server initiates is not that of a queued request. -/
def Careful (s : Session) : Action → Prop
  | .enqueue t _ _ => ∀ header, s.threads t = .ready header →
      s.lastrequestid = header.requestid ∧ (∀ e ∈ s.queue, e.requestid ≠ header.requestid) ∧
        ∀ handle, ¬ s.InFlight handle header.requestid
  | .effect ⟨.findRequest _, _⟩ => ∀ p prog, s.receiving = some (p, prog) →
      p.flags = DSI_REQUEST → ∀ e ∈ s.queue, e.requestid ≠ p.requestid
  | _ => True

/-! ## What a call touches -/

/-- An effect that does not look up a request, and touches no other than the one found. -/
def TouchesOnly (found : Option Handle) : RecvEffect → Prop
  | .findRequest _ => False
  | e => ∀ handle, e.touches = some handle → found = some handle

section Touches

variable (found : Option (Handle × DsiRequest)) {r : Handle} {request : DsiRequest}

/-- An effect with an answer, and what follows it. -/
theorem allActs_perform_iff {α : Type} {P : RecvEffect → Prop} {e : RecvEffect}
    {f : e.Answer → RecvM α} :
    (perform e >>= f).AllActs P ↔ P e ∧ ∀ answer, (f answer).AllActs P := Iff.rfl

theorem allActs_out (s : RecvState) : (out s found).AllActs (TouchesOnly (found.map Prod.fst)) := by
  cases found with
  | none => trivial
  | some found =>
    obtain ⟨r, request⟩ := found
    refine ⟨?_, fun _ => trivial⟩
    cases request.wait with
    | false => exact fun handle hhandle => hhandle
    | true => exact fun handle hhandle => hhandle

theorem allActs_afterProcessing (s : RecvState) :
    (afterProcessing s found).AllActs (TouchesOnly (found.map Prod.fst)) := by
  unfold afterProcessing
  dsimp only
  split
  · exact allActs_out found _
  · exact allActs_out found _

theorem allActs_dsiCommandReply (s : RecvState) :
    (dsiCommandReply s r request).AllActs (TouchesOnly (some r)) := by
  refine ⟨fun handle hhandle => hhandle, fun _ => ?_⟩
  refine Prog.allActs_ite.mpr ⟨fun _ => trivial, fun _ => ?_⟩
  refine Prog.allActs_ite.mpr ⟨fun _ => ?_, fun _ => trivial⟩
  refine allActs_perform_iff.mpr ⟨fun _ hhandle => (nomatch hhandle), fun answer => ?_⟩
  cases answer with
  | none => trivial
  | some bytes => exact ⟨fun handle hhandle => hhandle, fun _ => trivial⟩

/-- An effect that touches nothing, and then what is done after a packet was processed. -/
theorem allActs_process (s : RecvState) {e : RecvEffect} (htouches : e.touches = none)
    (hfind : ∀ id, e ≠ .findRequest id) :
    (emit e >>= fun _ => afterProcessing s found).AllActs (TouchesOnly (found.map Prod.fst)) := by
  refine ⟨?_, fun _ => allActs_afterProcessing found s⟩
  cases e with
  | findRequest id => exact hfind id rfl
  | _ => exact fun handle hhandle => nomatch htouches.symm.trans hhandle

theorem allActs_processPacket (s : RecvState) (runt : Bool) :
    (processPacket s found runt).AllActs (TouchesOnly (found.map Prod.fst)) := by
  unfold processPacket
  dsimp only
  refine Prog.allActs_ite.mpr ⟨fun _ => allActs_process found s rfl nofun, fun _ => ?_⟩
  refine Prog.allActs_ite.mpr ⟨fun _ => allActs_process found s rfl nofun, fun _ => ?_⟩
  refine Prog.allActs_ite.mpr ⟨fun _ => allActs_process found s rfl nofun, fun _ => ?_⟩
  refine Prog.allActs_ite.mpr ⟨fun _ => allActs_process found s rfl nofun, fun _ => ?_⟩
  refine Prog.allActs_ite.mpr ⟨fun _ => ?_, fun _ => ?_⟩
  · refine Prog.allActs_ite.mpr ⟨fun _ => allActs_process found s rfl nofun, fun _ => ?_⟩
    cases found with
    | none => trivial
    | some found => exact (allActs_dsiCommandReply s).bind fun _ => allActs_afterProcessing (some found) _
  · exact Prog.allActs_ite.mpr ⟨fun _ => allActs_process found _ rfl nofun, fun _ => trivial⟩

theorem allActs_readReply (s : RecvState) :
    (readReply s r request).AllActs (TouchesOnly (some r)) := by
  unfold readReply
  refine Prog.allActs_ite.mpr ⟨fun _ => allActs_out (some (r, request)) _, fun _ => ?_⟩
  refine Prog.allActs_ite.mpr ⟨fun _ => trivial, fun _ => ?_⟩
  refine allActs_perform_iff.mpr ⟨fun _ hhandle => (nomatch hhandle), fun answer => ?_⟩
  cases answer with
  | none => trivial
  | some bytes =>
    refine ⟨fun handle hhandle => hhandle, fun _ => ?_⟩
    refine Prog.allActs_ite.mpr ⟨fun _ => ?_, fun _ => trivial⟩
    exact Prog.allActs_ite.mpr ⟨fun _ => allActs_out (some (r, _)) _,
      fun _ => allActs_processPacket (some (r, _)) _ _⟩

theorem allActs_readBody (s : RecvState) (runt : Bool) :
    (readBody s found runt).AllActs (TouchesOnly (found.map Prod.fst)) := by
  unfold readBody
  refine Prog.allActs_ite.mpr ⟨fun _ => allActs_processPacket found _ _, fun _ => ?_⟩
  refine allActs_perform_iff.mpr ⟨fun _ hhandle => (nomatch hhandle), fun answer => ?_⟩
  cases answer with
  | none => trivial
  | some bytes =>
    refine Prog.allActs_ite.mpr ⟨fun _ => trivial, fun _ => ?_⟩
    exact Prog.allActs_ite.mpr
      ⟨fun _ => allActs_process found _ rfl nofun, fun _ => allActs_processPacket found _ _⟩

/-- **A call touches only the request it found.**  It looks up the id of its packet first. -/
theorem gotenough_eq (s : RecvState) :
    ∃ k, gotenough s = .act (.findRequest (requestid s.incomingBuffer)) k ∧
      ∀ found : Option (Handle × DsiRequest),
        (k found).AllActs (TouchesOnly (found.map Prod.fst)) := by
  refine ⟨_, rfl, fun found => ?_⟩
  cases found with
  | none => exact allActs_readBody none s _
  | some found =>
    obtain ⟨r, request⟩ := found
    refine ⟨fun handle hhandle => hhandle, fun _ => ?_⟩
    exact Prog.allActs_ite.mpr ⟨fun _ => allActs_readReply s,
      fun _ => allActs_readBody (some (r, request)) s _⟩

end Touches

/-! ## The invariant -/

/-- A packet from the server answers a request if and only if it is a reply. -/
def Incoming.WellFormed (p : Incoming) : Prop :=
  p.flags = DSI_REPLY ∧ (∃ handle, p.answers = some handle) ∨
    p.flags = DSI_REQUEST ∧ p.answers = none

/-- What is left of a call that handles `p`: all of it, or a rest that touches only a request that
`p` answers. -/
def Handling (p : Incoming) (prog : RecvM (ℤ × RecvState)) : Prop :=
  (∃ r, Holds r p ∧ prog = gotenough r) ∨
    ∃ found : Option Handle,
      (∀ handle, found = some handle → p.flags = DSI_REPLY ∧ p.answers = some handle) ∧
        prog.AllActs (TouchesOnly found)

/-- The invariant of careful runs.  What is in flight with the id of a queued request is that
request's. -/
structure Inv (s : Session) : Prop where
  routed : Routed s
  flight : ∀ e ∈ s.queue, ∀ handle, s.InFlight handle e.requestid → e.handle = handle
  wellFormed : ∀ p, s.Arriving p → p.WellFormed
  handling : ∀ p prog, s.receiving = some (p, prog) → Handling p prog

theorem inv_init : Inv .init where
  routed := ⟨by simp [Session.init], List.nodup_nil, by simp [Session.init]⟩
  flight := by simp [Session.init]
  wellFormed := by simp [Session.Arriving, Session.init]
  handling := by simp [Session.init]

/-- What the invariant says of a queued request. -/
def Queued.key (e : Queued) : Handle × UInt16 × UInt16 :=
  (e.handle, e.requestid, e.header.requestid)

/-- **Less in the queue and in flight.**  This is the rule for all actions that queue nothing. -/
theorem Inv.of_less {s s' : Session} (h : Inv s)
    (hqueue : (s'.queue.map Queued.key).Sublist (s.queue.map Queued.key))
    (hflight : ∀ handle id, s'.InFlight handle id → s.InFlight handle id)
    (harriving : ∀ p, s'.Arriving p → s.Arriving p ∨ p.WellFormed)
    (hhandling : ∀ p prog, s'.receiving = some (p, prog) → Handling p prog)
    (htouched : ∀ x ∈ s'.touched, x.2.flags = DSI_REPLY ∧ x.2.answers = some x.1) : Inv s' := by
  have hold : ∀ e' ∈ s'.queue, ∃ e ∈ s.queue, e.key = e'.key := fun e' he' =>
    List.mem_map.mp (hqueue.subset (List.mem_map_of_mem he'))
  refine ⟨⟨fun e' he' => ?_, ?_, htouched⟩, fun e' he' handle hin => ?_, fun p hp => ?_, hhandling⟩
  · obtain ⟨e, he, hkey⟩ := hold e' he'
    have hids := h.routed.ids e he
    simp only [Queued.key, Prod.mk.injEq] at hkey
    rw [← hkey.2.1, ← hkey.2.2, hids]
  · have hids : ∀ queue : List Queued,
        queue.map Queued.requestid = (queue.map Queued.key).map fun key => key.2.1 := by
      intro queue
      rw [List.map_map]
      rfl
    rw [hids]
    exact (hqueue.map _).nodup (hids s.queue ▸ h.routed.distinct)
  · obtain ⟨e, he, hkey⟩ := hold e' he'
    simp only [Queued.key, Prod.mk.injEq] at hkey
    rw [← hkey.1]
    exact h.flight e he handle (hflight _ _ (hkey.2.1 ▸ hin))
  · exact (harriving p hp).elim (h.wellFormed p) id

/-- A thread that is put in another phase is not about to write. -/
theorem queued_of_update {threads : ℕ → Phase} {t t' : ℕ} {phase : Phase} {handle : Handle}
    {header : Header} (hphase : ∀ handle header, phase ≠ .queued handle header)
    (h : Function.update threads t phase t' = .queued handle header) :
    threads t' = .queued handle header := by
  by_cases ht : t' = t
  · rw [ht, Function.update_self] at h
    exact absurd h (hphase handle header)
  · rwa [Function.update_of_ne ht] at h

/-- An action that only moves a thread on. -/
theorem Inv.of_threads {s : Session} (h : Inv s) {t : ℕ} {phase : Phase} {lastrequestid : UInt16}
    (hphase : ∀ handle header, phase ≠ .queued handle header) :
    Inv { s with lastrequestid := lastrequestid, threads := Function.update s.threads t phase } := by
  refine h.of_less (List.Sublist.refl _) (fun handle id hin => ?_) (fun p hp => .inl hp) h.handling
    h.routed.touched
  obtain ⟨t', header, ht', hid⟩ | hrest := hin
  · exact .inl ⟨t', header, queued_of_update hphase ht', hid⟩
  · exact .inr hrest

/-- What an effect does to a session, as far as the invariant is concerned. -/
theorem perform_spec (s : Session) (e : RecvEffect) :
    ((s.perform e).queue.map Queued.key).Sublist (s.queue.map Queued.key) ∧
      (∀ t handle header, (s.perform e).threads t = .queued handle header →
        s.threads t = .queued handle header) ∧
      (s.perform e).unanswered = s.unanswered ∧ (s.perform e).incoming = s.incoming := by
  cases e with
  | signal r =>
    refine ⟨?_, fun _ _ _ h => h, rfl, rfl⟩
    have hkey : (s.queue.map fun e => if e.handle = r then { e with wait := false } else e).map
        Queued.key = s.queue.map Queued.key := by
      rw [List.map_map]
      refine List.map_congr_left fun e _ => ?_
      rw [Function.comp_apply]
      split
      · rfl
      · rfl
    exact hkey ▸ List.Sublist.refl _
  | remove r =>
    exact ⟨List.Sublist.map _ List.eraseP_sublist, fun _ _ _ h => h, rfl, rfl⟩
  | handle handler packet =>
    cases handler with
    | tickle =>
      exact ⟨List.Sublist.refl _, fun _ _ _ h => queued_of_update (by nofun) h, rfl, rfl⟩
    | _ => exact ⟨List.Sublist.refl _, fun _ _ _ h => h, rfl, rfl⟩
  | _ => exact ⟨List.Sublist.refl _, fun _ _ _ h => h, rfl, rfl⟩

/-- **A lookup finds the request that the packet answers**, or nothing. -/
theorem Inv.lookup {s : Session} (h : Inv s) {p : Incoming} {prog : RecvM (ℤ × RecvState)}
    (hreceiving : s.receiving = some (p, prog)) {found : Option (Handle × DsiRequest)}
    (hanswer : s.Answers ⟨.findRequest p.requestid, found⟩)
    (hcareful : p.flags = DSI_REQUEST → ∀ e ∈ s.queue, e.requestid ≠ p.requestid) {handle : Handle}
    (hfound : found.map Prod.fst = some handle) :
    p.flags = DSI_REPLY ∧ p.answers = some handle := by
  have harriving : s.Arriving p := .inr ⟨prog, hreceiving⟩
  cases found with
  | none => exact nomatch hfound
  | some found =>
    obtain ⟨e, hfind, hkey⟩ := Option.map_eq_some_iff.mp hanswer.symm
    have he : e ∈ s.queue := List.mem_of_find?_eq_some hfind
    have hid : e.requestid = p.requestid := by simpa using List.find?_some hfind
    have hhandle : e.handle = handle :=
      (Prod.mk.inj hkey).1.trans (Option.some.inj hfound)
    obtain ⟨hflags, n, hanswers⟩ | ⟨hflags, -⟩ := h.wellFormed p harriving
    · have hn : e.handle = n := h.flight e he n (.inr (.inr ⟨p, harriving, hanswers, hid.symm⟩))
      exact ⟨hflags, by rw [hanswers, ← hn, hhandle]⟩
    · exact absurd hid (hcareful hflags e he)

/-- The next effect of a call touches only the request that the packet answers, and so does what
is left after it. -/
theorem Inv.handling_effect {s : Session} (h : Inv s) {p : Incoming} {e : RecvEffect}
    {k : e.Answer → RecvM (ℤ × RecvState)} {answer : e.Answer}
    (hreceiving : s.receiving = some (p, .act e k)) (hanswer : s.Answers ⟨e, answer⟩)
    (hcareful : Careful s (.effect ⟨e, answer⟩)) :
    Handling p (k answer) ∧
      ∀ handle, e.touches = some handle → p.flags = DSI_REPLY ∧ p.answers = some handle := by
  obtain ⟨r, hholds, hprog⟩ | ⟨found, hfound, hacts⟩ := h.handling p _ hreceiving
  · obtain ⟨k', hk', htouches⟩ := gotenough_eq r
    rw [hk', hholds.requestid] at hprog
    cases hprog
    refine ⟨.inr ⟨_, fun handle hhandle => ?_, htouches answer⟩, fun handle hhandle => ?_⟩
    · exact h.lookup hreceiving hanswer (hcareful p _ hreceiving) hhandle
    · exact nomatch hhandle
  · obtain ⟨hact, hrest⟩ := hacts
    refine ⟨.inr ⟨found, hfound, hrest answer⟩, fun handle hhandle => ?_⟩
    cases e with
    | findRequest id => exact hact.elim
    | _ => exact hfound handle (hact handle hhandle)

/-- Queueing a request whose id is on nothing else. -/
theorem Inv.enqueue {s : Session} (h : Inv s) {t : ℕ} {header : Header} {subcommand : UInt8}
    {wait : Bool} (hcareful : s.lastrequestid = header.requestid ∧
      (∀ e ∈ s.queue, e.requestid ≠ header.requestid) ∧
        ∀ handle, ¬ s.InFlight handle header.requestid) :
    Inv { s with
      queue := s.queue ++ [s.newRequest header subcommand wait]
      allocated := s.allocated + 1
      threads := Function.update s.threads t (.queued s.allocated header) } := by
  obtain ⟨hlast, hqueue, hflight⟩ := hcareful
  refine ⟨⟨?_, ?_, h.routed.touched⟩, fun e he handle hin => ?_, h.wellFormed, h.handling⟩
  · exact List.forall_mem_append.mpr ⟨h.routed.ids, List.forall_mem_singleton.mpr hlast⟩
  · rw [List.map_append, List.nodup_append_comm]
    refine List.nodup_cons.mpr ⟨fun hmem => ?_, h.routed.distinct⟩
    obtain ⟨e, he, hid⟩ := List.mem_map.mp hmem
    exact hqueue e he (hid.trans hlast)
  · have hold : s.InFlight handle e.requestid ∨
        handle = s.allocated ∧ e.requestid = header.requestid := by
      obtain ⟨t', header', ht', hid⟩ | hrest := hin
      · by_cases htt' : t' = t
        · dsimp only at ht'
          rw [htt', Function.update_self] at ht'
          obtain ⟨rfl, rfl⟩ := Phase.queued.inj ht'
          exact .inr ⟨rfl, hid.symm⟩
        · dsimp only at ht'
          rw [Function.update_of_ne htt'] at ht'
          exact .inl (.inl ⟨t', header', ht', hid⟩)
      · exact .inl (.inr hrest)
    rcases List.mem_append.mp he with he | he
    · rcases hold with hold | ⟨-, hid⟩
      · exact h.flight e he handle hold
      · exact absurd hid (hqueue e he)
    · have hnew : e = s.newRequest header subcommand wait := List.mem_singleton.mp he
      rcases hold with hold | ⟨rfl, -⟩
      · rw [hnew] at hold
        exact absurd (hlast ▸ hold) (hflight handle)
      · rw [hnew]
        rfl

/-- **One careful action keeps the invariant.** -/
theorem step_inv {s s' : Session} {a : Action} (hstep : Guarded Careful Step s a s') (h : Inv s) :
    Inv s' := by
  obtain ⟨hcareful, hstep⟩ := hstep
  cases hstep with
  | setup hphase htickle => exact h.of_threads nofun
  | lost hphase => exact h.of_threads nofun
  | enqueue hphase htickle => exact h.enqueue (hcareful _ hphase)
  | @write t handle header hphase =>
    refine h.of_less (List.Sublist.refl _) (fun n id hin => ?_) (fun p hp => .inl hp) h.handling
      h.routed.touched
    obtain ⟨t', header', ht', hid⟩ | hunanswered | harriving := hin
    · exact .inl ⟨t', header', queued_of_update (by nofun) ht', hid⟩
    · dsimp only at hunanswered
      split at hunanswered
      · exact .inr (.inl hunanswered)
      · rcases List.mem_append.mp hunanswered with hmem | hmem
        · exact .inr (.inl hmem)
        · obtain ⟨rfl, rfl⟩ := Prod.mk.inj (List.mem_singleton.mp hmem)
          exact .inl ⟨t, header, hphase, rfl⟩
    · exact .inr (.inr harriving)
  | ret hphase =>
    refine h.of_less (List.eraseP_sublist.map _) (fun n id hin => ?_) (fun p hp => .inl hp)
      h.handling h.routed.touched
    obtain ⟨t', header', ht', hid⟩ | hrest := hin
    · exact .inl ⟨t', header', queued_of_update (by nofun) ht', hid⟩
    · exact .inr hrest
  | reset =>
    refine h.of_less (List.Sublist.refl _) (fun n id hin => ?_) (fun p hp => ?_) h.handling
      h.routed.touched
    · obtain hqueued | hunanswered | ⟨p, hp | hp, hanswers⟩ := hin
      · exact .inl hqueued
      · exact absurd hunanswered List.not_mem_nil
      · exact absurd hp List.not_mem_nil
      · exact .inr (.inr ⟨p, .inr hp, hanswers⟩)
    · obtain hp | hp := hp
      · exact absurd hp List.not_mem_nil
      · exact .inl (.inr hp)
  | @reply handle id command hmem =>
    refine h.of_less (List.Sublist.refl _) (fun n id' hin => ?_) (fun p hp => ?_) h.handling
      h.routed.touched
    · obtain hqueued | hunanswered | ⟨p, hp | hp, hanswers⟩ := hin
      · exact .inl hqueued
      · exact .inr (.inl (List.mem_of_mem_erase hunanswered))
      · rcases List.mem_append.mp hp with hp | hp
        · exact .inr (.inr ⟨p, .inl hp, hanswers⟩)
        · rw [List.mem_singleton.mp hp] at hanswers
          obtain ⟨hn, rfl⟩ := hanswers
          exact .inr (.inl (Option.some.inj hn ▸ hmem))
      · exact .inr (.inr ⟨p, .inr hp, hanswers⟩)
    · obtain hp | hp := hp
      · rcases List.mem_append.mp hp with hp | hp
        · exact .inl (.inl hp)
        · rw [List.mem_singleton.mp hp]
          exact .inr (.inl ⟨rfl, handle, rfl⟩)
      · exact .inl (.inr hp)
  | @initiate command id =>
    refine h.of_less (List.Sublist.refl _) (fun n id' hin => ?_) (fun p hp => ?_) h.handling
      h.routed.touched
    · obtain hqueued | hunanswered | ⟨p, hp | hp, hanswers⟩ := hin
      · exact .inl hqueued
      · exact .inr (.inl hunanswered)
      · rcases List.mem_append.mp hp with hp | hp
        · exact .inr (.inr ⟨p, .inl hp, hanswers⟩)
        · rw [List.mem_singleton.mp hp] at hanswers
          exact nomatch hanswers.1
      · exact .inr (.inr ⟨p, .inr hp, hanswers⟩)
    · obtain hp | hp := hp
      · rcases List.mem_append.mp hp with hp | hp
        · exact .inl (.inl hp)
        · rw [List.mem_singleton.mp hp]
          exact .inr (.inr ⟨rfl, rfl⟩)
      · exact .inl (.inr hp)
  | @call p rest r hincoming hnone hholds =>
    have harriving : ∀ p', p' ∈ rest ∨ (∃ prog, some (p, gotenough r) = some (p', prog)) →
        s.Arriving p' := by
      rintro p' (hp | ⟨prog, hp⟩)
      · exact .inl (hincoming ▸ List.mem_cons_of_mem _ hp)
      · rw [(Prod.mk.inj (Option.some.inj hp)).1] at hincoming
        exact .inl (hincoming ▸ List.mem_cons_self)
    refine h.of_less (List.Sublist.refl _) (fun n id hin => ?_) (fun p' hp => .inl (harriving p' hp))
      (fun p' prog hp => ?_) h.routed.touched
    · obtain hqueued | hunanswered | ⟨p', hp, hanswers⟩ := hin
      · exact .inl hqueued
      · exact .inr (.inl hunanswered)
      · exact .inr (.inr ⟨p', harriving p' hp, hanswers⟩)
    · obtain ⟨rfl, rfl⟩ := Prod.mk.inj (Option.some.inj hp)
      exact .inl ⟨r, hholds, rfl⟩
  | @effect p e k answer hreceiving hidle hanswer =>
    obtain ⟨hhandling, htouches⟩ := h.handling_effect hreceiving hanswer hcareful
    obtain ⟨hqueue, hthreads, hunanswered, hincoming⟩ := perform_spec s e
    have harriving : ∀ p', p' ∈ (s.perform e).incoming ∨
        (∃ prog, some (p, k answer) = some (p', prog)) → s.Arriving p' := by
      rintro p' (hp | ⟨prog, hp⟩)
      · exact .inl (hincoming ▸ hp)
      · exact .inr ⟨_, (Prod.mk.inj (Option.some.inj hp)).1 ▸ hreceiving⟩
    refine h.of_less hqueue (fun n id hin => ?_) (fun p' hp => .inl (harriving p' hp))
      (fun p' prog hp => ?_) fun x hx => ?_
    · obtain ⟨t, header, ht, hid⟩ | hmem | ⟨p', hp, hanswers⟩ := hin
      · exact .inl ⟨t, header, hthreads t n header ht, hid⟩
      · exact .inr (.inl (hunanswered ▸ hmem))
      · exact .inr (.inr ⟨p', harriving p' hp, hanswers⟩)
    · obtain ⟨rfl, rfl⟩ := Prod.mk.inj (Option.some.inj hp)
      exact hhandling
    · rcases List.mem_append.mp hx with hx | hx
      · exact h.routed.touched x hx
      · obtain ⟨handle, hhandle, rfl⟩ := Option.map_eq_some_iff.mp (Option.mem_toList.mp hx)
        exact htouches handle hhandle
  | @finish p result again hreceiving hidle =>
    have harriving : ∀ p', p' ∈ (if again then p :: s.incoming else s.incoming) ∨
        (∃ prog : RecvM (ℤ × RecvState), none = some (p', prog)) → s.Arriving p' := by
      rintro p' (hp | ⟨prog, hp⟩)
      · cases again with
        | false => exact .inl hp
        | true =>
          rcases List.mem_cons.mp hp with rfl | hp
          · exact .inr ⟨_, hreceiving⟩
          · exact .inl hp
      · exact nomatch hp
    refine h.of_less (List.Sublist.refl _) (fun n id hin => ?_) (fun p' hp => .inl (harriving p' hp))
      nofun h.routed.touched
    obtain hqueued | hunanswered | ⟨p', hp, hanswers⟩ := hin
    · exact .inl hqueued
    · exact .inr (.inl hunanswered)
    · exact .inr (.inr ⟨p', harriving p' hp, hanswers⟩)

/-! ## Runs -/

/-- The buffer with a header and nothing else. -/
def headerBuffer (bytes : List UInt8) : RecvState := (RecvState.init fun _ => 0).fill bytes

/-- One thread sends an FPGetFileDirParms and gets an empty reply. -/
def oneRequest : List Action :=
  [.setup 1 DSI_DSICommand, .enqueue 1 34 true, .write 1, .reply 0 1 DSI_DSICommand,
    .call (headerBuffer [1, 2, 0, 1, 0, 0, 0, 0, 0, 0, 0, 0, 0, 0, 0, 0]),
    .effect ⟨.findRequest 1, some (0, ⟨1, 34, true, 0, 0⟩)⟩, .effect ⟨.setReturnCode 0 0, ()⟩,
    .effect ⟨.handle (.commandReply 0) [1, 2, 0, 1, 0, 0, 0, 0, 0, 0, 0, 0, 0, 0, 0, 0], ()⟩,
    .effect ⟨.signal 0, ()⟩, .finish false, .ret 1]

/-- Two threads set up their headers before the first sends its packet. -/
def twoSetups : List Action :=
  [.setup 1 DSI_DSICommand, .setup 2 DSI_DSICommand, .enqueue 1 34 true, .enqueue 2 34 true]

/-- The server sends a tickle with the id of the request that waits. -/
def tickleWithPendingId : List Action :=
  [.setup 1 DSI_DSICommand, .enqueue 1 34 true, .write 1, .initiate DSI_DSITickle 1,
    .call (headerBuffer [0, 5, 0, 1, 0, 0, 0, 0, 0, 0, 0, 0, 0, 0, 0, 0]),
    .effect ⟨.findRequest 1, some (0, ⟨1, 34, true, 0, 0⟩)⟩, .effect ⟨.setReturnCode 0 0, ()⟩]

end Dsi
end Afpfs
