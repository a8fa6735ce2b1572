import Afpfs.Dsi.Receive
import Afpfs.Lib.Wire

/-!
# Sending DSI packets

`dsi_send()` of `lib/dsi.c`.  It allocates a request, puts it at the end of `command_requests`,
writes the packet under `send_mutex`, waits for the reply as it is told to, and takes the request out
again.

`dsiSend` is a program over `SendEffect`.  Each effect is a section under one of the mutexes, or an
access between two of them.  `afp_wait_for_started_loop()`, which waits until the thread of
`dsi_recv()` runs, and `stats.tx_bytes` are left out.

Other threads see a call through its `Stage`: which request it has, whether the request is queued,
and whether the call holds `send_mutex`.  `dsiSend_goes` says that every call goes through the
stages in order, whatever is answered.
-/

set_option autoImplicit false

namespace Afpfs
namespace Dsi

open Interaction Memory

/-! ## Effects -/

/-- The errors of `write()` that `dsi_send()` distinguishes. -/
inductive WriteError where
  | EPIPE
  | EBADF
  | other
  deriving DecidableEq

/-- The result of `write()`. -/
inductive WriteResult where
  /-- So many bytes were accepted. -/
  | accepted (n : ℕ)
  | failed (e : WriteError)
  deriving DecidableEq

/-- `ETIMEDOUT`. -/
def ETIMEDOUT : ℤ := 110

/-- The interactions of `dsi_send()`. -/
inductive SendEffect where
  /-- `server_still_valid()`. -/
  | stillValid
  /-- Read `fd`. -/
  | fd
  /-- `malloc()` of a request. -/
  | malloc
  /-- Read `lastrequestid`. -/
  | lastrequestid
  /-- Fill in a request that was allocated. -/
  | fill (r : Handle) (requestid : UInt16) (subcommand : UInt8) (wait : ℤ)
  /-- Put it at the end of the queue, under `request_queue_mutex`. -/
  | enqueue (r : Handle)
  /-- Initialise `waiting_cond` and `waiting_mutex`. -/
  | initWaiting (r : Handle)
  /-- Is `connect_state` disconnected? -/
  | disconnected
  /-- `afp_server_reconnect()`. -/
  | reconnect
  /-- Lock `send_mutex`. -/
  | lockSend
  /-- `write()`. -/
  | write (msg : List UInt8)
  /-- Set `connect_state` to disconnected. -/
  | setDisconnected
  /-- Unlock `send_mutex`. -/
  | unlockSend
  /-- Read `wait`. -/
  | readWait (r : Handle)
  /-- Read `done_waiting`, under `waiting_mutex`. -/
  | doneWaiting (r : Handle)
  /-- `pthread_cond_wait()`, or `pthread_cond_timedwait()`. -/
  | condWait (r : Handle) (timed : Bool)
  /-- Read `return_code`. -/
  | returnCode (r : Handle)
  /-- `dsi_remove_from_request_queue()`. -/
  | remove (r : Handle)

/-- The answer to an effect.  That of `malloc` is the address, and that of `condWait` says whether
the time was over. -/
def SendEffect.Answer : SendEffect → Type
  | .stillValid | .disconnected | .doneWaiting _ | .condWait _ _ => Bool
  | .fd | .readWait _ => ℤ
  | .malloc => Option Handle
  | .lastrequestid => UInt16
  | .write _ => WriteResult
  | .returnCode _ => UInt32
  | _ => Unit

/-- A function on the sending side. -/
abbrev SendM (α : Type) := Prog SendEffect SendEffect.Answer α

namespace SendEffect

/-- Perform one effect. -/
def run (e : SendEffect) : SendM e.Answer := .act e .done

/-- Perform an effect whose answer does not matter. -/
def emit (e : SendEffect) : SendM Unit := .act e fun _ => .done ()

end SendEffect

/-! ## The function -/

/-- The part of `dsi_send()` at `out`. -/
def removeRequest (r : Handle) (rc : ℤ) : SendM ℤ := do
  SendEffect.emit (.remove r)
  return rc

/-- The part at `skip`: the return code is an `int`. -/
def leave (r : Handle) : SendM ℤ := do
  let code : UInt32 ← SendEffect.run (.returnCode r)
  removeRequest r code.toInt32.toInt

/-- Wait forever. -/
def waitForever (r : Handle) : SendM ℤ := do
  let done : Bool ← SendEffect.run (.doneWaiting r)
  if done = false then SendEffect.emit (.condWait r false)
  leave r

/-- Wait for `wait` seconds.  Whether it has changed its mind is looked at once more. -/
def waitFor (r : Handle) : SendM ℤ := do
  let _seconds : ℤ ← SendEffect.run (.readWait r)
  let wait : ℤ ← SendEffect.run (.readWait r)
  if wait = 0 then leave r
  else do
    let done : Bool ← SendEffect.run (.doneWaiting r)
    if done then leave r
    else do
      let timedout : Bool ← SendEffect.run (.condWait r true)
      if timedout then removeRequest r ETIMEDOUT else leave r

/-- The part behind the write: wait for the reply or not, as `wait` of the request says by now. -/
def awaitReply (r : Handle) : SendM ℤ := do
  let wait : ℤ ← SendEffect.run (.readWait r)
  if wait < 0 then waitForever r
  else do
    let wait : ℤ ← SendEffect.run (.readWait r)
    if 0 < wait then waitFor r else leave r

/-- The part under `send_mutex`.  If the server has closed the connection, it returns at once. -/
def transmit (r : Handle) (msg : List UInt8) : SendM ℤ := do
  SendEffect.emit .lockSend
  let written : WriteResult ← SendEffect.run (.write msg)
  match written with
  | .failed .other => do
    SendEffect.emit .unlockSend
    removeRequest r (-1)
  | .failed _ => do
    SendEffect.emit .setDisconnected
    return -1
  | .accepted _ => do
    SendEffect.emit .unlockSend
    awaitReply r

/-- The packet with the length in its header. -/
def withLength (msg : List UInt8) : List UInt8 :=
  msg.take 8 ++ Wire.toBE 4 (msg.length - headerSize) ++ msg.drop 12

/-- `dsi_send()`. -/
def dsiSend (msg : List UInt8) (wait : ℤ) (subcommand : UInt8) : SendM ℤ := do
  let valid : Bool ← SendEffect.run .stillValid
  if valid = false then return -1
  else do
    let fd : ℤ ← SendEffect.run .fd
    if fd = 0 then return -1
    else do
      let allocated : Option Handle ← SendEffect.run .malloc
      match allocated with
      | none => return -1
      | some r => do
        let requestid : UInt16 ← SendEffect.run .lastrequestid
        SendEffect.emit (.fill r requestid subcommand wait)
        SendEffect.emit (.enqueue r)
        SendEffect.emit (.initWaiting r)
        let disconnected : Bool ← SendEffect.run .disconnected
        if disconnected then SendEffect.emit .reconnect
        transmit r (withLength msg)

/-! ## Stages -/

/-- Where a call of `dsi_send()` is. -/
inductive Stage where
  /-- It has no request. -/
  | starting
  /-- It has a request, which is not in the queue. -/
  | allocated (r : Handle)
  /-- It has put the request into the queue. -/
  | queued (r : Handle)
  /-- It holds `send_mutex`. -/
  | locked (r : Handle)
  /-- It holds `send_mutex`, and has written. -/
  | written (r : Handle)
  /-- It has unlocked `send_mutex`. -/
  | waiting (r : Handle)
  /-- It holds `send_mutex`, and has found the connection closed. -/
  | lost (r : Handle)
  /-- It has taken the request out of the queue. -/
  | removed (r : Handle)
  deriving DecidableEq

/-- The request of a call. -/
def Stage.request : Stage → Option Handle
  | .starting => none
  | .allocated r | .queued r | .locked r | .written r | .waiting r | .lost r | .removed r => some r

/-- The call holds `send_mutex`. -/
def Stage.locking : Stage → Bool
  | .locked _ | .written _ | .lost _ => true
  | _ => false

/-- The call has put its request into the queue, and has not called for its removal. -/
def Stage.listed : Stage → Bool
  | .queued _ | .locked _ | .written _ | .waiting _ | .lost _ => true
  | _ => false

/-- The effects that belong to a stage of a call that sends `msg`. -/
def Stage.Allows (msg : List UInt8) : Stage → SendEffect → Prop
  | .starting, e => e = .stillValid ∨ e = .fd ∨ e = .malloc
  | .allocated r, e =>
    e = .lastrequestid ∨ (∃ id subcommand wait, e = .fill r id subcommand wait) ∨ e = .enqueue r
  | .queued r, e => e = .initWaiting r ∨ e = .disconnected ∨ e = .reconnect ∨ e = .lockSend
  | .locked _, e => e = .write msg
  | .written _, e => e = .unlockSend
  | .waiting r, e =>
    e = .readWait r ∨ e = .doneWaiting r ∨ (∃ timed, e = .condWait r timed) ∨ e = .returnCode r ∨
      e = .remove r
  | .lost _, e => e = .setDisconnected
  | .removed _, _ => False

/-- The stage after `malloc()`. -/
def Stage.afterMalloc : Option Handle → Stage
  | some r => .allocated r
  | none => .starting

/-- The stage after `write()`. -/
def Stage.afterWrite (r : Handle) : WriteResult → Stage
  | .failed .EPIPE | .failed .EBADF => .lost r
  | _ => .written r

/-- The stage after an effect and its answer. -/
def Stage.next (stage : Stage) : (e : SendEffect) × e.Answer → Stage
  | ⟨.malloc, answer⟩ => .afterMalloc answer
  | ⟨.enqueue r, _⟩ => .queued r
  | ⟨.lockSend, _⟩ => stage.request.elim stage .locked
  | ⟨.write _, answer⟩ => stage.request.elim stage fun r => .afterWrite r answer
  | ⟨.unlockSend, _⟩ => stage.request.elim stage .waiting
  | ⟨.remove r, _⟩ => .removed r
  | _ => stage

/-- The stages in which a call may return. -/
def Stage.Returns : Stage → Prop
  | .starting | .lost _ | .removed _ => True
  | _ => False

/-- A program goes on from a stage of a call that sends `msg`. -/
abbrev Goes (msg : List UInt8) : Stage → SendM ℤ → Prop :=
  Prog.Obeys (Stage.Allows msg) Stage.next fun stage _ => stage.Returns

variable {msg : List UInt8} {r : Handle}

theorem goes_removeRequest (rc : ℤ) : Goes msg (.waiting r) (removeRequest r rc) :=
  ⟨.inr (.inr (.inr (.inr rfl))), fun _ => trivial⟩

theorem goes_leave : Goes msg (.waiting r) (leave r) :=
  ⟨.inr (.inr (.inr (.inl rfl))), fun _ => goes_removeRequest _⟩

theorem goes_waitForever : Goes msg (.waiting r) (waitForever r) := by
  refine ⟨.inr (.inl rfl), fun done => ?_⟩
  cases done with
  | false => exact ⟨.inr (.inr (.inl ⟨_, rfl⟩)), fun _ => goes_leave⟩
  | true => exact goes_leave

theorem goes_waitFor : Goes msg (.waiting r) (waitFor r) := by
  refine ⟨.inl rfl, fun _ => ⟨.inl rfl, fun (wait : ℤ) => ?_⟩⟩
  change Goes msg (.waiting r) (if wait = (0 : ℤ) then leave r else _)
  split
  · exact goes_leave
  · refine ⟨.inr (.inl rfl), fun done => ?_⟩
    cases done with
    | true => exact goes_leave
    | false =>
      refine ⟨.inr (.inr (.inl ⟨_, rfl⟩)), fun timedout => ?_⟩
      cases timedout with
      | true => exact goes_removeRequest _
      | false => exact goes_leave

theorem goes_awaitReply : Goes msg (.waiting r) (awaitReply r) := by
  refine ⟨.inl rfl, fun (wait : ℤ) => ?_⟩
  change Goes msg (.waiting r) (if wait < (0 : ℤ) then waitForever r else _)
  split
  · exact goes_waitForever
  · refine ⟨.inl rfl, fun (wait : ℤ) => ?_⟩
    change Goes msg (.waiting r) (if (0 : ℤ) < wait then waitFor r else leave r)
    split
    · exact goes_waitFor
    · exact goes_leave

theorem goes_transmit : Goes msg (.queued r) (transmit r msg) := by
  refine ⟨.inr (.inr (.inr rfl)), fun _ => ⟨rfl, fun written => ?_⟩⟩
  cases written with
  | accepted n => exact ⟨rfl, fun _ => goes_awaitReply⟩
  | failed e =>
    cases e with
    | EPIPE => exact ⟨rfl, fun _ => trivial⟩
    | EBADF => exact ⟨rfl, fun _ => trivial⟩
    | other => exact ⟨rfl, fun _ => goes_removeRequest _⟩

/-- **A call goes through the stages in order.** -/
theorem dsiSend_goes (msg : List UInt8) (wait : ℤ) (subcommand : UInt8) :
    Goes (withLength msg) .starting (dsiSend msg wait subcommand) := by
  refine ⟨.inl rfl, fun valid => ?_⟩
  cases valid with
  | false => exact trivial
  | true =>
    refine ⟨.inr (.inl rfl), fun (fd : ℤ) => ?_⟩
    change Goes _ .starting (if fd = (0 : ℤ) then .done (-1) else _)
    split
    · exact trivial
    · refine ⟨.inr (.inr rfl), fun allocated => ?_⟩
      cases allocated with
      | none => exact trivial
      | some r =>
        refine ⟨.inl rfl, fun _ => ⟨.inr (.inl ⟨_, _, _, rfl⟩), fun _ =>
          ⟨.inr (.inr rfl), fun _ => ⟨.inl rfl, fun _ => ⟨.inr (.inl rfl), fun disconnected => ?_⟩⟩⟩⟩⟩
        cases disconnected with
        | false => exact goes_transmit
        | true => exact ⟨.inr (.inr (.inl rfl)), fun _ => goes_transmit⟩

end Dsi
end Afpfs
