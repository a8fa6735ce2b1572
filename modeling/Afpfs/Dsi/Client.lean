import Afpfs.Dsi.Routing
import Afpfs.Dsi.Send

/-!
# Threads that send, and one that receives

A `Client` is one `struct afp_server` with the calls of `dsi_send()` that are under way, each in a
thread of its own, and the call of `dsi_recv()`.  A step performs the next effect of one of these
calls, so sections under a mutex are steps, and so are the accesses between them.

Requests live on a heap.  An address may be given out again after `free()`, so a request is known
by a `Ref`: its address, and its number among all requests that were ever allocated.  The number
is not in the program.  With it one can say that an access hits a request after it was released:
what is at the address now, if anything, has another number (`Client.Live`).  Such an access is
recorded in `faults`, and reads anything.

Also recorded, and not kept by the program, are the requests that were released, the changes to the
queue with the thread that made each, and which request `dsi_recv()` has found.

A call inside a call, such as those of `afp_server_reconnect()`, counts as a thread of its own.
What `afp_free_server()` frees is not followed, since nothing of the server is left then.

`WellFormed` holds of every state: the queue has no address twice, what is in it is live, and a
call holds `send_mutex` where its stage says so.
-/

set_option autoImplicit false

namespace Afpfs
namespace Dsi
namespace Sending

open Interaction Transition

/-! ## The queue -/

/-- A request: its address, and its number. -/
structure Ref where
  handle : Handle
  serial : ℕ
  deriving DecidableEq

/-- `command_requests` and `stats.requests_pending`. -/
structure Requests where
  queue : List Ref
  pending : UInt64

/-- Put a request at the end. -/
def Requests.append (q : Requests) (x : Ref) : Requests where
  queue := q.queue ++ [x]
  pending := q.pending + 1

/-- The first request at an address. -/
def Requests.at (q : Requests) (h : Handle) : Option Ref := q.queue.find? (·.handle == h)

/-- Unlink the request at an address, if there is one. -/
def Requests.unlink (q : Requests) (h : Handle) : Requests :=
  match q.at h with
  | some _ => { queue := q.queue.eraseP (·.handle == h), pending := q.pending - 1 }
  | none => q

/-- A change to the queue. -/
inductive QueueOp where
  | append (x : Ref)
  | unlink (h : Handle)

/-- Make a change. -/
def Requests.apply (q : Requests) : QueueOp → Requests
  | .append x => q.append x
  | .unlink h => q.unlink h

/-! ## State -/

/-- A `struct dsi_request` on the heap. -/
structure Node where
  serial : ℕ
  requestid : UInt16
  subcommand : UInt8
  wait : ℤ
  doneWaiting : Bool
  returnCode : UInt32

/-- A request after `memset()`. -/
def Node.blank (serial : ℕ) : Node where
  serial := serial
  requestid := 0
  subcommand := 0
  wait := 0
  doneWaiting := false
  returnCode := 0

/-- A call of `dsi_send()` under way. -/
structure Call where
  /-- The packet. -/
  msg : List UInt8
  /-- The request it allocated. -/
  request : Option Ref
  stage : Stage
  /-- What is left of the call. -/
  prog : SendM ℤ

/-- A server with its threads. -/
structure Client where
  heap : Handle → Option Node
  requests : Requests
  /-- The thread that holds `send_mutex`. -/
  sendMutex : Option ℕ
  /-- The server is in the list of servers. -/
  valid : Bool
  /-- `connect_state` is disconnected. -/
  disconnected : Bool
  lastrequestid : UInt16
  /-- What was written to the socket. -/
  socket : List UInt8
  calls : ℕ → Option Call
  /-- What is left of the call of `dsi_recv()`. -/
  receiving : Option (RecvM (ℤ × RecvState))
  /-- The request that this call has found. -/
  holding : Option Ref
  /-- How many requests were allocated. -/
  allocated : ℕ
  /-- The requests that were released, by their numbers. -/
  released : List ℕ
  /-- The accesses to requests that were released. -/
  faults : List Ref
  /-- The changes to the queue, and by which thread.  `none` is `dsi_recv()`. -/
  history : List (Option ℕ × QueueOp)

/-- A server after its connection was made. -/
def Client.init : Client where
  heap := fun _ => none
  requests := ⟨[], 0⟩
  sendMutex := none
  valid := true
  disconnected := false
  lastrequestid := 0
  socket := []
  calls := fun _ => none
  receiving := none
  holding := none
  allocated := 0
  released := []
  faults := []
  history := []

/-- The request has not been released. -/
def Client.Live (s : Client) (x : Ref) : Prop :=
  (s.heap x.handle).map Node.serial = some x.serial

instance (s : Client) (x : Ref) : Decidable (s.Live x) :=
  inferInstanceAs (Decidable (_ = _))

/-- Record the accesses that hit no request. -/
def Client.access (s : Client) (xs : List Ref) : Client :=
  { s with faults := s.faults ++ xs.filter fun x => ¬ s.Live x }

/-- Write to the request at an address. -/
def Client.modify (s : Client) (h : Handle) (f : Node → Node) : Client :=
  { s with heap := Function.update s.heap h ((s.heap h).map f) }

/-- Unlink a request of the queue and free it. -/
def Client.release (s : Client) (who : Option ℕ) (x : Ref) : Client :=
  { s with
    requests := s.requests.unlink x.handle
    heap := Function.update s.heap x.handle none
    released := s.released ++ [x.serial]
    history := s.history ++ [(who, .unlink x.handle)] }

/-- `dsi_remove_from_request_queue()`, called for `own`.  It reads the requests in the queue, and
if it does not find the address in it, the request it was called for. -/
def Client.dsiRemoveFromRequestQueue (s : Client) (who : Option ℕ) (own : Option Ref)
    (h : Handle) : Client :=
  if s.valid then
    match s.requests.at h with
    | some x => (s.access s.requests.queue).release who x
    | none => s.access (s.requests.queue ++ own.toList)
  else s

/-! ## What the effects do -/

/-- `malloc()` of a request. -/
def Client.malloc (s : Client) : Option Handle → Client
  | some h =>
    { s with
      heap := Function.update s.heap h (some (.blank s.allocated))
      allocated := s.allocated + 1 }
  | none => s

/-- Put a request into the queue. -/
def Client.enqueue (s : Client) (t : ℕ) : Option Ref → Client
  | some x =>
    { s.access (s.requests.queue ++ [x]) with
      requests := s.requests.append x
      history := s.history ++ [(some t, .append x)] }
  | none => s

/-- What `write()` puts on the socket. -/
def Client.write (s : Client) (msg : List UInt8) : WriteResult → Client
  | .accepted n => { s with socket := s.socket ++ msg.take n }
  | .failed _ => s

/-- What an effect of `dsi_send()` does, in thread `t` for the request `own`. -/
def Client.performSend (s : Client) (t : ℕ) (own : Option Ref) :
    (e : SendEffect) × e.Answer → Client
  | ⟨.malloc, answer⟩ => s.malloc answer
  | ⟨.fill h requestid subcommand wait, _⟩ =>
    (s.access own.toList).modify h fun n =>
      { n with requestid := requestid, subcommand := subcommand, wait := wait }
  | ⟨.enqueue _, _⟩ => s.enqueue t own
  | ⟨.initWaiting _, _⟩ | ⟨.readWait _, _⟩ | ⟨.doneWaiting _, _⟩ | ⟨.condWait _ _, _⟩
  | ⟨.returnCode _, _⟩ => s.access own.toList
  | ⟨.lockSend, _⟩ => { s with sendMutex := some t }
  | ⟨.write msg, answer⟩ => s.write msg answer
  | ⟨.setDisconnected, _⟩ => { s with disconnected := true }
  | ⟨.unlockSend, _⟩ => { s with sendMutex := none }
  | ⟨.remove h, _⟩ => s.dsiRemoveFromRequestQueue (some t) own h
  | _ => s

/-- The answers that an effect of `dsi_send()` may get.  A wait may be woken at any time. -/
def Client.SendAnswers (s : Client) : (e : SendEffect) × e.Answer → Prop
  | ⟨.stillValid, valid⟩ => valid = s.valid
  | ⟨.malloc, allocated⟩ => ∀ h : Handle, allocated = some h → s.heap h = none
  | ⟨.lastrequestid, id⟩ => id = s.lastrequestid
  | ⟨.disconnected, disconnected⟩ => disconnected = s.disconnected
  | ⟨.lockSend, _⟩ => s.sendMutex = none
  | ⟨.write msg, result⟩ =>
    ∀ n : ℕ, result = WriteResult.accepted n → n ≤ msg.length ∧ (msg ≠ [] → 1 ≤ n)
  | ⟨.readWait h, wait⟩ => ∀ n, s.heap h = some n → wait = n.wait
  | ⟨.doneWaiting h, done⟩ => ∀ n, s.heap h = some n → done = n.doneWaiting
  | ⟨.condWait _ timed, timedout⟩ => timedout = true → timed = true
  | ⟨.returnCode h, code⟩ => ∀ n, s.heap h = some n → code = n.returnCode
  | _ => True

/-- `dsi_find_request()`. -/
def Client.dsiFindRequest (s : Client) (id : UInt16) : Option Ref :=
  s.requests.queue.find? fun x => (s.heap x.handle).any (·.requestid == id)

/-- What an effect of `dsi_recv()` does. -/
def Client.performRecv (s : Client) : RecvEffect → Client
  | .findRequest id => { s.access s.requests.queue with holding := s.dsiFindRequest id }
  | .setReturnCode h code =>
    (s.access s.holding.toList).modify h fun n => { n with returnCode := code }
  | .fillBuffer _ _ | .handle (.commandReply _) _ => s.access s.holding.toList
  | .signal h =>
    (s.access s.holding.toList).modify h fun n => { n with wait := 0, doneWaiting := true }
  | .remove h => s.dsiRemoveFromRequestQueue none s.holding h
  | _ => s

/-- What `dsi_recv()` knows of a request that it has found.  The sizes of a read buffer may be
any. -/
def Client.Found (s : Client) (x : Ref) (found : Handle × DsiRequest) : Prop :=
  found.1 = x.handle ∧ ∃ n, s.heap x.handle = some n ∧ found.2.requestid = n.requestid ∧
    found.2.subcommand = n.subcommand ∧ found.2.wait = decide (n.wait ≠ 0)

/-- The answers that an effect of `dsi_recv()` may get. -/
def Client.RecvAnswers (s : Client) : (e : RecvEffect) × e.Answer → Prop
  | ⟨.findRequest id, found⟩ => Option.Rel s.Found (s.dsiFindRequest id) found
  | _ => True

/-! ## Steps -/

inductive Action where
  /-- Thread `t` calls `dsi_send()`. -/
  | call (t : ℕ) (msg : List UInt8) (wait : ℤ) (subcommand : UInt8)
  /-- Thread `t` performs the next effect of its call. -/
  | send (t : ℕ) (ev : (e : SendEffect) × e.Answer)
  /-- The call of thread `t` returns. -/
  | ret (t : ℕ) (rc : ℤ)
  /-- `dsi_recv()` is called. -/
  | recv (r : RecvState)
  /-- It performs its next effect. -/
  | receive (ev : (e : RecvEffect) × e.Answer)
  /-- It returns. -/
  | recvRet
  /-- `dsi_setup_header()`. -/
  | setup
  /-- `afp_server_connect()` for a reconnect, with a socket of its own. -/
  | reconnected (disconnected : Bool)
  /-- `afp_server_remove()`: who waits is woken, and the server is no longer in the list. -/
  | serverRemove

/-- The request of a call after an effect. -/
def Call.nextRequest (c : Call) (allocated : ℕ) : (e : SendEffect) × e.Answer → Option Ref
  | ⟨.malloc, answer⟩ => Option.map (fun h => ⟨h, allocated⟩) (answer : Option Handle)
  | _ => c.request

/-- A call that starts. -/
def Call.start (msg : List UInt8) (wait : ℤ) (subcommand : UInt8) : Call where
  msg := withLength msg
  request := none
  stage := .starting
  prog := dsiSend msg wait subcommand

/-- All who wait for a reply are told that it is over. -/
def Client.wake (s : Client) : Client :=
  { s with
    heap := fun h => (s.heap h).map fun n =>
      if s.requests.queue.any (·.handle == h) then { n with doneWaiting := true } else n }

inductive Step : Client → Action → Client → Prop
  | call {s : Client} {t : ℕ} {msg : List UInt8} {wait : ℤ} {subcommand : UInt8}
      (hnone : s.calls t = none) :
      Step s (.call t msg wait subcommand)
        { s with calls := Function.update s.calls t (some (.start msg wait subcommand)) }
  | send {s : Client} {t : ℕ} {c : Call} {e : SendEffect} {k : e.Answer → SendM ℤ}
      {answer : e.Answer} (hcall : s.calls t = some c) (hprog : c.prog = .act e k)
      (hanswer : s.SendAnswers ⟨e, answer⟩) :
      Step s (.send t ⟨e, answer⟩)
        { s.performSend t c.request ⟨e, answer⟩ with
          calls := Function.update s.calls t (some
            { msg := c.msg
              request := c.nextRequest s.allocated ⟨e, answer⟩
              stage := c.stage.next ⟨e, answer⟩
              prog := k answer }) }
  | ret {s : Client} {t : ℕ} {c : Call} {rc : ℤ} (hcall : s.calls t = some c)
      (hprog : c.prog = .done rc) :
      Step s (.ret t rc) { s with calls := Function.update s.calls t none }
  | recv {s : Client} {r : RecvState} (hnone : s.receiving = none) :
      Step s (.recv r) { s with receiving := some (dsiRecv r), holding := none }
  | receive {s : Client} {e : RecvEffect} {k : e.Answer → RecvM (ℤ × RecvState)}
      {answer : e.Answer} (hreceiving : s.receiving = some (.act e k))
      (hanswer : s.RecvAnswers ⟨e, answer⟩) :
      Step s (.receive ⟨e, answer⟩) { s.performRecv e with receiving := some (k answer) }
  | recvRet {s : Client} {result : ℤ × RecvState} (hreceiving : s.receiving = some (.done result)) :
      Step s .recvRet { s with receiving := none, holding := none }
  | setup {s : Client} :
      Step s .setup { s with lastrequestid := nextRequestid s.lastrequestid }
  | reconnected {s : Client} {disconnected : Bool} :
      Step s (.reconnected disconnected)
        { s with lastrequestid := 0, disconnected := disconnected, socket := [] }
  | serverRemove {s : Client} : Step s .serverRemove { s.wake with valid := false }

/-! ## What holds of every state -/

/-- What holds of a call of thread `t`. -/
structure Call.WellFormed (s : Client) (t : ℕ) (c : Call) : Prop where
  goes : Goes c.msg c.stage c.prog
  request : c.request.map Ref.handle = c.stage.request
  bound : ∀ x, c.request = some x → x.serial < s.allocated
  /-- A request that is not in the queue yet is live, and its address is not in the queue. -/
  fresh : ∀ h x, c.stage = .allocated h → c.request = some x →
    s.Live x ∧ ∀ y ∈ s.requests.queue, y.handle ≠ x.handle
  mutex : c.stage.locking = true → s.sendMutex = some t

/-- What holds of every state. -/
structure Client.WellFormed (s : Client) : Prop where
  nodup : (s.requests.queue.map Ref.handle).Nodup
  live : ∀ x ∈ s.requests.queue, s.Live x
  calls : ∀ t c, s.calls t = some c → c.WellFormed s t
  distinct : ∀ t t' c c' x x', s.calls t = some c → s.calls t' = some c' → c.request = some x →
    c'.request = some x' → x.serial = x'.serial → t = t'

theorem wellFormed_init : Client.init.WellFormed where
  nodup := List.nodup_nil
  live := nofun
  calls := nofun
  distinct := nofun

/-! ### Steps that leave the queue and the heap -/

/-- The same requests are live and in the queue. -/
structure SameStore (s s' : Client) : Prop where
  requests : s'.requests = s.requests
  serials : ∀ h, (s'.heap h).map Node.serial = (s.heap h).map Node.serial
  allocated : s'.allocated = s.allocated
  released : s'.released = s.released
  history : s'.history = s.history

theorem SameStore.refl (s : Client) : SameStore s s := ⟨rfl, fun _ => rfl, rfl, rfl, rfl⟩

/-- A request is live or not by what is at its address. -/
theorem live_congr {s s' : Client} {x : Ref} (h : s'.heap x.handle = s.heap x.handle) :
    s'.Live x ↔ s.Live x := by
  unfold Client.Live
  rw [h]

theorem SameStore.live {s s' : Client} (h : SameStore s s') (x : Ref) : s'.Live x ↔ s.Live x := by
  unfold Client.Live
  rw [h.serials]

theorem sameStore_access (s : Client) (xs : List Ref) : SameStore s (s.access xs) :=
  ⟨rfl, fun _ => rfl, rfl, rfl, rfl⟩

theorem sameStore_modify (s : Client) (xs : List Ref) (h : Handle) {f : Node → Node}
    (hf : ∀ n, (f n).serial = n.serial) : SameStore s ((s.access xs).modify h f) := by
  refine ⟨rfl, fun h' => ?_, rfl, rfl, rfl⟩
  by_cases hh : h' = h
  · subst hh
    have hmap : ((s.heap h').map f).map Node.serial = (s.heap h').map Node.serial := by
      cases s.heap h' with
      | none => rfl
      | some n => exact congrArg some (hf n)
    simpa only [Client.modify, Client.access, Function.update_self] using hmap
  · simp only [Client.modify, Client.access, Function.update_of_ne hh]

theorem sameStore_wake (s : Client) : SameStore s s.wake := by
  refine ⟨rfl, fun h => ?_, rfl, rfl, rfl⟩
  change ((s.heap h).map _).map Node.serial = _
  cases s.heap h with
  | none => rfl
  | some n =>
    simp only [Option.map_some]
    split
    · rfl
    · rfl

theorem sameStore_write (s : Client) (msg : List UInt8) (result : WriteResult) :
    SameStore s (s.write msg result) := by
  cases result with
  | accepted n => exact ⟨rfl, fun _ => rfl, rfl, rfl, rfl⟩
  | failed e => exact .refl s

/-- A call of another thread is not concerned. -/
theorem Call.WellFormed.keep {s s' : Client} {t : ℕ} {c : Call} (hc : c.WellFormed s t)
    (hallocated : s.allocated ≤ s'.allocated)
    (hlive : ∀ x, c.request = some x → s.Live x → s'.Live x)
    (hqueue : ∀ h x, c.stage = .allocated h → c.request = some x →
      ∀ y ∈ s'.requests.queue, y ∈ s.requests.queue ∨ y.handle ≠ x.handle)
    (hmutex : s.sendMutex = some t → s'.sendMutex = some t) : c.WellFormed s' t where
  goes := hc.goes
  request := hc.request
  bound x hx := (hc.bound x hx).trans_le hallocated
  fresh h x hstage hx := by
    obtain ⟨hl, hq⟩ := hc.fresh h x hstage hx
    refine ⟨hlive x hx hl, fun y hy => ?_⟩
    rcases hqueue h x hstage hx y hy with hold | hne
    · exact hq y hold
    · exact hne
  mutex hlocking := hmutex (hc.mutex hlocking)

theorem Call.WellFormed.same {s s' : Client} {t : ℕ} {c : Call} (hc : c.WellFormed s t)
    (hstore : SameStore s s') (hmutex : s.sendMutex = some t → s'.sendMutex = some t) :
    c.WellFormed s' t :=
  hc.keep hstore.allocated.ge (fun x _ hl => (hstore.live x).mpr hl)
    (fun _ _ _ _ _ hy => .inl (hstore.requests ▸ hy)) hmutex

/-- The rule for steps of no thread that sends. -/
theorem Client.WellFormed.same {s s' : Client} (hs : s.WellFormed) (hstore : SameStore s s')
    (hcalls : s'.calls = s.calls) (hmutex : s'.sendMutex = s.sendMutex) : s'.WellFormed where
  nodup := by
    rw [hstore.requests]
    exact hs.nodup
  live x hx := (hstore.live x).mpr (hs.live x (hstore.requests ▸ hx))
  calls t c hc := by
    rw [hcalls] at hc
    exact (hs.calls t c hc).same hstore fun h => hmutex.trans h
  distinct t t' c c' x x' hc hc' := by
    rw [hcalls] at hc hc'
    exact hs.distinct t t' c c' x x' hc hc'

/-- The rule for the step of a thread `t`, whose call becomes `c'`. -/
theorem Client.WellFormed.update {s s' : Client} {t : ℕ} {c' : Call} (hs : s.WellFormed)
    (hnodup : (s'.requests.queue.map Ref.handle).Nodup) (hlive : ∀ x ∈ s'.requests.queue, s'.Live x)
    (hcalls : s'.calls = Function.update s.calls t (some c')) (hc' : c'.WellFormed s' t)
    (hothers : ∀ t' c, t' ≠ t → s.calls t' = some c → c.WellFormed s' t')
    (hdistinct : ∀ t' c x x', t' ≠ t → s.calls t' = some c → c.request = some x →
      c'.request = some x' → x.serial ≠ x'.serial) : s'.WellFormed where
  nodup := hnodup
  live := hlive
  calls t₁ c hc := by
    rw [hcalls] at hc
    by_cases ht : t₁ = t
    · subst ht
      rw [Function.update_self] at hc
      obtain rfl := Option.some.inj hc
      exact hc'
    · rw [Function.update_of_ne ht] at hc
      exact hothers t₁ c ht hc
  distinct t₁ t₂ c₁ c₂ x₁ x₂ hc₁ hc₂ hx₁ hx₂ hserial := by
    rw [hcalls] at hc₁ hc₂
    by_cases ht₁ : t₁ = t
    · by_cases ht₂ : t₂ = t
      · exact ht₁.trans ht₂.symm
      · subst ht₁
        rw [Function.update_self] at hc₁
        rw [Function.update_of_ne ht₂] at hc₂
        obtain rfl := Option.some.inj hc₁
        exact absurd hserial.symm (hdistinct t₂ c₂ x₂ x₁ ht₂ hc₂ hx₂ hx₁)
    · rw [Function.update_of_ne ht₁] at hc₁
      by_cases ht₂ : t₂ = t
      · subst ht₂
        rw [Function.update_self] at hc₂
        obtain rfl := Option.some.inj hc₂
        exact absurd hserial (hdistinct t₁ c₁ x₁ x₂ ht₁ hc₁ hx₁ hx₂)
      · rw [Function.update_of_ne ht₂] at hc₂
        exact hs.distinct t₁ t₂ c₁ c₂ x₁ x₂ hc₁ hc₂ hx₁ hx₂ hserial

/-! ### Steps that change the queue or the heap -/

/-- With distinct keys, erasing the first entry with a key is erasing all of them. -/
theorem eraseP_eq_filter {α β : Type*} [DecidableEq β] {f : α → β} {l : List α}
    (h : (l.map f).Nodup) (k : β) : l.eraseP (f · == k) = l.filter (f · != k) := by
  induction l with
  | nil => rfl
  | cons a l ih =>
    rw [List.map_cons, List.nodup_cons] at h
    by_cases ha : f a = k
    · have hne : ∀ b ∈ l, (f b != k) = true := fun b hb => by
        have : f b ≠ k := fun hbk => h.1 (List.mem_map.mpr ⟨b, hb, hbk.trans ha.symm⟩)
        exact bne_iff_ne.mpr this
      rw [List.eraseP_cons_of_pos (by simp [ha]), List.filter_cons_of_neg (by simp [ha]),
        List.filter_eq_self.mpr hne]
    · rw [List.eraseP_cons_of_neg (by simp [ha]), List.filter_cons_of_pos (by simp [ha]), ih h.2]

theorem Requests.at_some {q : Requests} {h : Handle} {x : Ref} (hx : q.at h = some x) :
    x ∈ q.queue ∧ x.handle = h :=
  ⟨List.mem_of_find?_eq_some hx, beq_iff_eq.mp (List.find?_some hx :)⟩

theorem Requests.at_none {q : Requests} {h : Handle} :
    q.at h = none ↔ ∀ x ∈ q.queue, x.handle ≠ h := by
  simp only [Requests.at, List.find?_eq_none, beq_iff_eq, ne_eq]

/-- The queue without an address. -/
theorem Requests.queue_unlink {q : Requests} (hq : (q.queue.map Ref.handle).Nodup) (h : Handle) :
    (q.unlink h).queue = q.queue.filter (·.handle != h) := by
  unfold Requests.unlink
  cases hat : q.at h with
  | none =>
    refine (List.filter_eq_self.mpr fun x hx => ?_).symm
    exact bne_iff_ne.mpr (Requests.at_none.mp hat x hx)
  | some x => exact eraseP_eq_filter hq h

theorem Requests.mem_unlink {q : Requests} (hq : (q.queue.map Ref.handle).Nodup) {h : Handle}
    {x : Ref} : x ∈ (q.unlink h).queue ↔ x ∈ q.queue ∧ x.handle ≠ h := by
  rw [queue_unlink hq, List.mem_filter, bne_iff_ne]

theorem Requests.nodup_unlink {q : Requests} (hq : (q.queue.map Ref.handle).Nodup) (h : Handle) :
    ((q.unlink h).queue.map Ref.handle).Nodup := by
  rw [queue_unlink hq]
  exact hq.sublist (List.filter_sublist.map _)

/-- What `dsi_remove_from_request_queue()` does: nothing, or it releases the request at the
address. -/
theorem dsiRemove_cases (s : Client) (who : Option ℕ) (own : Option Ref) (h : Handle) :
    SameStore s (s.dsiRemoveFromRequestQueue who own h) ∧
        (s.valid = true → s.requests.at h = none) ∨
      ∃ x, s.valid = true ∧ s.requests.at h = some x ∧
        s.dsiRemoveFromRequestQueue who own h = (s.access s.requests.queue).release who x := by
  unfold Client.dsiRemoveFromRequestQueue
  by_cases hvalid : s.valid
  · rw [if_pos hvalid]
    cases hat : s.requests.at h with
    | none => exact .inl ⟨sameStore_access s _, fun _ => rfl⟩
    | some x => exact .inr ⟨x, hvalid, rfl, rfl⟩
  · rw [if_neg hvalid]
    exact .inl ⟨.refl s, fun hv => absurd hv hvalid⟩

@[simp] theorem calls_dsiRemove (s : Client) (who : Option ℕ) (own : Option Ref) (h : Handle) :
    (s.dsiRemoveFromRequestQueue who own h).calls = s.calls := by
  unfold Client.dsiRemoveFromRequestQueue
  split
  · split
    · rfl
    · rfl
  · rfl

@[simp] theorem sendMutex_dsiRemove (s : Client) (who : Option ℕ) (own : Option Ref) (h : Handle) :
    (s.dsiRemoveFromRequestQueue who own h).sendMutex = s.sendMutex := by
  unfold Client.dsiRemoveFromRequestQueue
  split
  · split
    · rfl
    · rfl
  · rfl

@[simp] theorem allocated_dsiRemove (s : Client) (who : Option ℕ) (own : Option Ref) (h : Handle) :
    (s.dsiRemoveFromRequestQueue who own h).allocated = s.allocated := by
  unfold Client.dsiRemoveFromRequestQueue
  split
  · split
    · rfl
    · rfl
  · rfl

/-- A removal keeps what holds of the queue, and of a call that has not come to its own. -/
theorem wellFormed_dsiRemove {s s' : Client} (hs : s.WellFormed) {who : Option ℕ}
    {own : Option Ref} {h : Handle}
    (hrequests : s'.requests = (s.dsiRemoveFromRequestQueue who own h).requests)
    (hheap : s'.heap = (s.dsiRemoveFromRequestQueue who own h).heap)
    (hallocated : s'.allocated = s.allocated) (hmutex : s'.sendMutex = s.sendMutex) :
    (s'.requests.queue.map Ref.handle).Nodup ∧ (∀ x ∈ s'.requests.queue, s'.Live x) ∧
      ∀ t c, s.calls t = some c → c.WellFormed s' t := by
  rcases dsiRemove_cases s who own h with ⟨hsame, -⟩ | ⟨x, -, hat, heq⟩
  · have hlive : ∀ y, s'.Live y ↔ s.Live y := fun y =>
      (live_congr (congrFun hheap y.handle)).trans (hsame.live y)
    rw [hsame.requests] at hrequests
    refine ⟨hrequests ▸ hs.nodup, fun y hy => (hlive y).mpr (hs.live y (hrequests ▸ hy)),
      fun t c hc => ?_⟩
    exact (hs.calls t c hc).keep hallocated.ge (fun y _ hl => (hlive y).mpr hl)
      (fun _ _ _ _ y hy => .inl (hrequests ▸ hy)) fun hm => hmutex.trans hm
  · obtain ⟨hx, rfl⟩ := Requests.at_some hat
    rw [heq] at hrequests hheap
    change s'.requests = s.requests.unlink x.handle at hrequests
    have hlive : ∀ y : Ref, y.handle ≠ x.handle → s.Live y → s'.Live y := fun y hne hl => by
      refine (live_congr ?_).mpr hl
      rw [hheap]
      exact Function.update_of_ne hne ..
    refine ⟨?_, fun y hy => ?_, fun t c hc => ?_⟩
    · rw [hrequests]
      exact Requests.nodup_unlink hs.nodup _
    · rw [hrequests, Requests.mem_unlink hs.nodup] at hy
      exact hlive y hy.2 (hs.live y hy.1)
    · obtain hcall := hs.calls t c hc
      have hunlink : ∀ y ∈ s'.requests.queue, y ∈ s.requests.queue := fun y hy => by
        rw [hrequests, Requests.mem_unlink hs.nodup] at hy
        exact hy.1
      refine ⟨hcall.goes, hcall.request, fun y hy => hallocated ▸ hcall.bound y hy,
        fun h' y hstage hy => ?_, fun hl => hmutex.trans (hcall.mutex hl)⟩
      obtain ⟨hl, hq⟩ := hcall.fresh h' y hstage hy
      exact ⟨hlive y (hq x hx).symm hl, fun z hz => hq z (hunlink z hz)⟩

/-- A new request is live, and its address was given to no other. -/
theorem live_malloc {s : Client} {h : Handle} (hfree : s.heap h = none) :
    (s.malloc (some h)).Live ⟨h, s.allocated⟩ ∧
      ∀ x, s.Live x → x.handle ≠ h ∧ (s.malloc (some h)).Live x := by
  refine ⟨?_, fun x hx => ?_⟩
  · change (Function.update s.heap h (some (.blank s.allocated)) h).map Node.serial = _
    rw [Function.update_self]
    rfl
  · have hne : x.handle ≠ h := fun hxh => by
      unfold Client.Live at hx
      rw [hxh, hfree] at hx
      exact nomatch hx
    exact ⟨hne, (live_congr (Function.update_of_ne hne ..)).mpr hx⟩

/-! ### Every step -/

/-- What the rule for quiet steps of a call needs of the stage after the effect. -/
structure QuietStage (stage next : Stage) : Prop where
  request : next.request = stage.request
  fresh : ∀ h, next = .allocated h → stage = .allocated h

/-- The rule for a step of a call that leaves the queue and the heap. -/
theorem Client.WellFormed.quiet {s s' : Client} {t : ℕ} {c c' : Call} (hs : s.WellFormed)
    (hcall : s.calls t = some c) (hstore : SameStore s s')
    (hcalls : s'.calls = Function.update s.calls t (some c')) (hrequest : c'.request = c.request)
    (hstage : QuietStage c.stage c'.stage) (hgoes : Goes c'.msg c'.stage c'.prog)
    (hmutex : c'.stage.locking = true → s'.sendMutex = some t)
    (hothers : ∀ t', t' ≠ t → s.sendMutex = some t' → s'.sendMutex = some t') : s'.WellFormed := by
  have hc := hs.calls t c hcall
  refine hs.update ?_ ?_ hcalls ⟨hgoes, ?_, ?_, ?_, hmutex⟩ ?_ ?_
  · rw [hstore.requests]
    exact hs.nodup
  · exact fun x hx => (hstore.live x).mpr (hs.live x (hstore.requests ▸ hx))
  · rw [hrequest, hstage.request, hc.request]
  · intro x hx
    rw [hstore.allocated]
    exact hc.bound x (hrequest ▸ hx)
  · intro h x hs' hx
    obtain ⟨hl, hq⟩ := hc.fresh h x (hstage.fresh h hs') (hrequest ▸ hx)
    exact ⟨(hstore.live x).mpr hl, fun y hy => hq y (hstore.requests ▸ hy)⟩
  · exact fun t' c₁ ht hc₁ => (hs.calls t' c₁ hc₁).same hstore (hothers t' ht)
  · intro t' c₁ x x' ht hc₁ hx hx' hserial
    exact ht (hs.distinct t' t c₁ c x x' hc₁ hcall hx (hrequest ▸ hx') hserial)

/-- `malloc()`. -/
theorem Client.WellFormed.malloc {s s' : Client} {t : ℕ} {c' : Call} {h : Handle}
    (hs : s.WellFormed) (hfree : s.heap h = none) (hheap : s'.heap = (s.malloc (some h)).heap)
    (hrequests : s'.requests = s.requests) (hallocated : s'.allocated = s.allocated + 1)
    (hmutex : s'.sendMutex = s.sendMutex)
    (hcalls : s'.calls = Function.update s.calls t (some c'))
    (hrequest : c'.request = some ⟨h, s.allocated⟩) (hstage : c'.stage = .allocated h)
    (hgoes : Goes c'.msg c'.stage c'.prog) : s'.WellFormed := by
  obtain ⟨hnew, hold⟩ := live_malloc hfree
  have hlive : ∀ x : Ref, (s.malloc (some h)).Live x → s'.Live x := fun x =>
    (live_congr (congrFun hheap x.handle)).mpr
  refine hs.update (hrequests ▸ hs.nodup) ?_ hcalls ⟨hgoes, ?_, ?_, ?_, ?_⟩ ?_ ?_
  · exact fun x hx => hlive x (hold x (hs.live x (hrequests ▸ hx))).2
  · rw [hrequest, hstage]
    rfl
  · rintro x hx
    rw [hrequest] at hx
    obtain rfl := Option.some.inj hx
    rw [hallocated]
    exact Nat.lt_succ_self _
  · rintro h' x - hx
    rw [hrequest] at hx
    obtain rfl := Option.some.inj hx
    exact ⟨hlive _ hnew, fun y hy => (hold y (hs.live y (hrequests ▸ hy))).1⟩
  · rw [hstage]
    exact nofun
  · intro t' c₁ _ hc₁
    exact (hs.calls t' c₁ hc₁).keep (hallocated ▸ Nat.le_succ _) (fun x _ hl => hlive x (hold x hl).2)
      (fun _ _ _ _ _ hy => .inl (hrequests ▸ hy)) fun hm => hmutex.trans hm
  · intro t' c₁ x x' _ hc₁ hx hx' hserial
    rw [hrequest] at hx'
    obtain rfl := Option.some.inj hx'
    exact ((hs.calls t' c₁ hc₁).bound x hx).ne hserial

/-- Putting the request into the queue. -/
theorem Client.WellFormed.enqueue {s s' : Client} {t : ℕ} {c c' : Call} {h : Handle} {x : Ref}
    (hs : s.WellFormed) (hcall : s.calls t = some c) (hstage : c.stage = .allocated h)
    (hx : c.request = some x) (hheap : s'.heap = s.heap)
    (hrequests : s'.requests = s.requests.append x) (hallocated : s'.allocated = s.allocated)
    (hmutex : s'.sendMutex = s.sendMutex)
    (hcalls : s'.calls = Function.update s.calls t (some c')) (hrequest : c'.request = c.request)
    (hstage' : c'.stage = .queued h) (hgoes : Goes c'.msg c'.stage c'.prog) : s'.WellFormed := by
  have hc := hs.calls t c hcall
  obtain ⟨hl, hq⟩ := hc.fresh h x hstage hx
  have hlive : ∀ y : Ref, s'.Live y ↔ s.Live y := fun y => live_congr (congrFun hheap y.handle)
  have hmem : ∀ y, y ∈ s'.requests.queue ↔ y ∈ s.requests.queue ∨ y = x := fun y => by
    rw [hrequests]
    exact List.mem_append.trans (or_congr_right List.mem_singleton)
  refine hs.update ?_ ?_ hcalls ⟨hgoes, ?_, ?_, ?_, ?_⟩ ?_ ?_
  · rw [hrequests]
    simp only [Requests.append, List.map_append, List.map_cons, List.map_nil]
    refine List.nodup_append.mpr ⟨hs.nodup, List.nodup_singleton _, ?_⟩
    rintro a ha b hb rfl
    obtain ⟨y, hy, rfl⟩ := List.mem_map.mp ha
    exact hq y hy (List.mem_singleton.mp hb)
  · intro y hy
    refine (hlive y).mpr ?_
    rcases (hmem y).mp hy with hy | rfl
    · exact hs.live y hy
    · exact hl
  · rw [hrequest, hstage', hc.request, hstage]
    rfl
  · exact fun y hy => hallocated ▸ hc.bound y (hrequest ▸ hy)
  · intro h' y hs'
    rw [hstage'] at hs'
    exact nomatch hs'
  · rw [hstage']
    exact nofun
  · intro t' c₁ ht hc₁
    refine (hs.calls t' c₁ hc₁).keep hallocated.ge (fun y _ hy => (hlive y).mpr hy) ?_
      fun hm => hmutex.trans hm
    intro h' y hs' hy z hz
    rcases (hmem z).mp hz with hz | rfl
    · exact .inl hz
    · -- both are live, so they are not at the same address
      refine .inr fun hsame => ht ?_
      have hly := ((hs.calls t' c₁ hc₁).fresh h' y hs' hy).1
      unfold Client.Live at hl hly
      rw [hsame] at hl
      exact hs.distinct t' t c₁ c y z hc₁ hcall hy hx (Option.some.inj (hly.symm.trans hl))
  · intro t' c₁ y y' ht hc₁ hy hy' hserial
    exact ht (hs.distinct t' t c₁ c y y' hc₁ hcall hy (hrequest ▸ hy') hserial)

/-- The removal at the end of a call. -/
theorem Client.WellFormed.remove {s s' : Client} {t : ℕ} {c c' : Call} {h : Handle}
    (hs : s.WellFormed) (hcall : s.calls t = some c)
    (hrequests : s'.requests = (s.dsiRemoveFromRequestQueue (some t) c.request h).requests)
    (hheap : s'.heap = (s.dsiRemoveFromRequestQueue (some t) c.request h).heap)
    (hallocated : s'.allocated = s.allocated) (hmutex : s'.sendMutex = s.sendMutex)
    (hcalls : s'.calls = Function.update s.calls t (some c')) (hrequest : c'.request = c.request)
    (hmatch : c.stage.request = some h) (hstage : c'.stage = .removed h)
    (hgoes : Goes c'.msg c'.stage c'.prog) : s'.WellFormed := by
  have hc := hs.calls t c hcall
  obtain ⟨hnodup, hlive, hkeep⟩ := wellFormed_dsiRemove hs hrequests hheap hallocated hmutex
  refine hs.update hnodup hlive hcalls ⟨hgoes, ?_, ?_, ?_, ?_⟩ (fun t' c₁ _ => hkeep t' c₁) ?_
  · rw [hrequest, hstage, hc.request, hmatch]
    rfl
  · exact fun y hy => hallocated ▸ hc.bound y (hrequest ▸ hy)
  · intro h' y hs'
    rw [hstage] at hs'
    exact nomatch hs'
  · rw [hstage]
    exact nofun
  · intro t' c₁ y y' ht hc₁ hy hy' hserial
    exact ht (hs.distinct t' t c₁ c y y' hc₁ hcall hy (hrequest ▸ hy') hserial)

/-- **A step of a call keeps what holds of every state.** -/
theorem wellFormed_send {s : Client} {t : ℕ} {c : Call} {e : SendEffect} {k : e.Answer → SendM ℤ}
    {answer : e.Answer} (hs : s.WellFormed) (hcall : s.calls t = some c)
    (hprog : c.prog = .act e k) (hanswer : s.SendAnswers ⟨e, answer⟩) :
    Client.WellFormed
      { s.performSend t c.request ⟨e, answer⟩ with
        calls := Function.update s.calls t (some
          { msg := c.msg
            request := c.nextRequest s.allocated ⟨e, answer⟩
            stage := c.stage.next ⟨e, answer⟩
            prog := k answer }) } := by
  have hc := hs.calls t c hcall
  have hgoes := hc.goes
  rw [hprog] at hgoes
  have hnext := hgoes.answer answer
  have hallows := hgoes.effect
  -- an access that leaves the stage
  have haccess : ∀ s' : Client, SameStore s s' → s'.sendMutex = s.sendMutex →
      c.nextRequest s.allocated ⟨e, answer⟩ = c.request → c.stage.next ⟨e, answer⟩ = c.stage →
      Client.WellFormed { s' with
        calls := Function.update s.calls t (some
          { msg := c.msg
            request := c.nextRequest s.allocated ⟨e, answer⟩
            stage := c.stage.next ⟨e, answer⟩
            prog := k answer }) } := by
    intro s' hstore hmutex hrequest hstage
    refine hs.quiet hcall ⟨hstore.requests, hstore.serials, hstore.allocated, hstore.released,
      hstore.history⟩ rfl hrequest ?_ hnext ?_ ?_
    · refine ⟨congrArg Stage.request hstage, fun h hh => ?_⟩
      exact hstage.symm.trans hh
    · intro hlocking
      exact hmutex.trans (hc.mutex (hstage ▸ hlocking))
    · exact fun t' _ hm => hmutex.trans hm
  obtain ⟨msg, request, stage, prog⟩ := c
  dsimp only at hprog hallows hnext haccess ⊢
  cases stage with
  | starting =>
    rcases hallows with rfl | rfl | rfl
    · exact haccess s (.refl s) rfl rfl rfl
    · exact haccess s (.refl s) rfl rfl rfl
    · cases answer with
      | none =>
        have hnone : request = none := Option.map_eq_none_iff.mp hc.request
        exact haccess s (.refl s) rfl hnone.symm rfl
      | some h => exact hs.malloc (hanswer h rfl) rfl rfl rfl rfl rfl rfl rfl hnext
  | allocated r =>
    rcases hallows with rfl | ⟨id, subcommand, wait, rfl⟩ | rfl
    · exact haccess s (.refl s) rfl rfl rfl
    · exact haccess _ (sameStore_modify s _ r fun _ => rfl) rfl rfl rfl
    · obtain ⟨x, hx⟩ : ∃ x, request = some x := by
        obtain ⟨x, hx, -⟩ := Option.map_eq_some_iff.mp hc.request
        exact ⟨x, hx⟩
      subst hx
      exact hs.enqueue hcall rfl rfl rfl rfl rfl rfl rfl rfl rfl hnext
  | queued r =>
    rcases hallows with rfl | rfl | rfl | rfl
    · exact haccess _ (sameStore_access s _) rfl rfl rfl
    · exact haccess s (.refl s) rfl rfl rfl
    · exact haccess s (.refl s) rfl rfl rfl
    · refine hs.quiet hcall ⟨rfl, fun _ => rfl, rfl, rfl, rfl⟩ rfl rfl ⟨rfl, nofun⟩ hnext
        (fun _ => rfl) ?_
      intro t' _ hm
      exact nomatch hm.symm.trans hanswer
  | locked r =>
    obtain rfl := hallows
    refine hs.quiet hcall ?_ rfl rfl ?_ hnext ?_ ?_
    · obtain ⟨h₁, h₂, h₃, h₄, h₅⟩ := sameStore_write s msg answer
      exact ⟨h₁, h₂, h₃, h₄, h₅⟩
    · cases answer with
      | accepted n => exact ⟨rfl, nofun⟩
      | failed e =>
        cases e with
        | EPIPE => exact ⟨rfl, nofun⟩
        | EBADF => exact ⟨rfl, nofun⟩
        | other => exact ⟨rfl, nofun⟩
    · intro _
      have hm : s.sendMutex = some t := hc.mutex rfl
      cases answer with
      | accepted n => exact hm
      | failed e => exact hm
    · intro t' _ hm
      cases answer with
      | accepted n => exact hm
      | failed e => exact hm
  | written r =>
    obtain rfl := hallows
    refine hs.quiet hcall ⟨rfl, fun _ => rfl, rfl, rfl, rfl⟩ rfl rfl ⟨rfl, nofun⟩ hnext nofun ?_
    intro t' ht hm
    have hown : s.sendMutex = some t := hc.mutex rfl
    exact absurd (Option.some.inj (hm.symm.trans hown)) ht
  | waiting r =>
    rcases hallows with rfl | rfl | ⟨timed, rfl⟩ | rfl | rfl
    · exact haccess _ (sameStore_access s _) rfl rfl rfl
    · exact haccess _ (sameStore_access s _) rfl rfl rfl
    · exact haccess _ (sameStore_access s _) rfl rfl rfl
    · exact haccess _ (sameStore_access s _) rfl rfl rfl
    · refine hs.remove hcall rfl rfl ?_ (sendMutex_dsiRemove ..) rfl rfl rfl rfl hnext
      exact allocated_dsiRemove ..
  | lost r =>
    obtain rfl := hallows
    exact haccess _ ⟨rfl, fun _ => rfl, rfl, rfl, rfl⟩ rfl rfl rfl
  | removed r => exact absurd hallows id

/-- An effect of `dsi_recv()` leaves the queue and the heap, or it is a removal. -/
theorem performRecv_cases (s : Client) (e : RecvEffect) :
    (SameStore s (s.performRecv e) ∧ (s.performRecv e).calls = s.calls ∧
        (s.performRecv e).sendMutex = s.sendMutex) ∨
      ∃ h, e = .remove h := by
  have haccess : ∀ xs, SameStore s (s.access xs) := sameStore_access s
  cases e with
  | read n => exact .inl ⟨.refl s, rfl, rfl⟩
  | findRequest id => exact .inl ⟨⟨rfl, fun _ => rfl, rfl, rfl, rfl⟩, rfl, rfl⟩
  | setReturnCode h code => exact .inl ⟨sameStore_modify s _ h fun _ => rfl, rfl, rfl⟩
  | fillBuffer h bytes => exact .inl ⟨haccess _, rfl, rfl⟩
  | handle f packet =>
    cases f with
    | commandReply h => exact .inl ⟨haccess _, rfl, rfl⟩
    | _ => exact .inl ⟨.refl s, rfl, rfl⟩
  | drop packet => exact .inl ⟨.refl s, rfl, rfl⟩
  | signal h => exact .inl ⟨sameStore_modify s _ h fun _ => rfl, rfl, rfl⟩
  | remove h => exact .inr ⟨h, rfl⟩

/-- **Every step keeps what holds of every state.** -/
theorem wellFormed_step {s s' : Client} {a : Action} (hstep : Step s a s') (hs : s.WellFormed) :
    s'.WellFormed := by
  have hsame : ∀ {s' : Client}, s'.requests = s.requests → s'.heap = s.heap →
      s'.allocated = s.allocated → s'.released = s.released → s'.history = s.history →
      SameStore s s' := fun h₁ h₂ h₃ h₄ h₅ => ⟨h₁, fun h => by rw [h₂], h₃, h₄, h₅⟩
  cases hstep with
  | @call t msg wait subcommand hnone =>
    refine hs.update hs.nodup hs.live rfl ⟨dsiSend_goes .., rfl, nofun, nofun, nofun⟩ ?_ nofun
    exact fun t' c _ hc => (hs.calls t' c hc).same (hsame rfl rfl rfl rfl rfl) id
  | send hcall hprog hanswer => exact wellFormed_send hs hcall hprog hanswer
  | @ret t c rc hcall hprog =>
    have hcalls : ∀ t' c', Function.update s.calls t none t' = some c' → s.calls t' = some c' := by
      intro t' c' hc'
      by_cases ht : t' = t
      · subst ht
        rw [Function.update_self] at hc'
        exact nomatch hc'
      · rwa [Function.update_of_ne ht] at hc'
    refine ⟨hs.nodup, hs.live, fun t' c' hc' => ?_, fun t₁ t₂ c₁ c₂ x₁ x₂ h₁ h₂ => ?_⟩
    · exact (hs.calls t' c' (hcalls t' c' hc')).same (hsame rfl rfl rfl rfl rfl) id
    · exact hs.distinct t₁ t₂ c₁ c₂ x₁ x₂ (hcalls _ _ h₁) (hcalls _ _ h₂)
  | recv hnone => exact hs.same (hsame rfl rfl rfl rfl rfl) rfl rfl
  | @receive e k answer hreceiving hanswer =>
    rcases performRecv_cases s e with ⟨hstore, hcalls, hmutex⟩ | ⟨h, rfl⟩
    · obtain ⟨h₁, h₂, h₃, h₄, h₅⟩ := hstore
      exact hs.same ⟨h₁, h₂, h₃, h₄, h₅⟩ hcalls hmutex
    · obtain ⟨hnodup, hlive, hkeep⟩ := @wellFormed_dsiRemove s
        { s.performRecv (.remove h) with receiving := some (k answer) } hs none s.holding h rfl rfl
        (allocated_dsiRemove ..) (sendMutex_dsiRemove ..)
      refine ⟨hnodup, hlive, fun t c hc => hkeep t c ?_, fun t₁ t₂ c₁ c₂ x₁ x₂ hc₁ hc₂ => ?_⟩
      · exact (calls_dsiRemove s none s.holding h) ▸ hc
      · exact hs.distinct t₁ t₂ c₁ c₂ x₁ x₂ ((calls_dsiRemove s none s.holding h) ▸ hc₁)
          ((calls_dsiRemove s none s.holding h) ▸ hc₂)
  | recvRet hreceiving => exact hs.same (hsame rfl rfl rfl rfl rfl) rfl rfl
  | setup => exact hs.same (hsame rfl rfl rfl rfl rfl) rfl rfl
  | reconnected => exact hs.same (hsame rfl rfl rfl rfl rfl) rfl rfl
  | serverRemove =>
    obtain ⟨h₁, h₂, h₃, h₄, h₅⟩ := sameStore_wake s
    exact hs.same ⟨h₁, h₂, h₃, h₄, h₅⟩ rfl rfl

/-- **It holds of every state that is reached.** -/
theorem wellFormed_run {s s' : Client} {as : List Action} (hrun : Run Step s as s')
    (hs : s.WellFormed) : s'.WellFormed :=
  hrun.invariant Client.WellFormed (fun _ _ _ => wellFormed_step) hs

end Sending
end Dsi
end Afpfs
