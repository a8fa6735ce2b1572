import Afpfs.Lib.Interaction
import Afpfs.Lib.Memory
import Mathlib.Data.Int.Notation

/-!
# Receiving DSI packets

`dsi_recv()` of `lib/dsi.c`.  It is called whenever the socket is readable and does one `read()`:
for what is missing of a header, for the body of a packet, or into the buffer of a pending
afpRead.  `data_read` says how much of a packet is in `incoming_buffer` between two calls.

`dsiRecv` is a program over `RecvEffect`: the reads, the lookup in the queue of requests, and what
it does to a request.  `incoming_buffer` is the memory behind its address, so a read past
`bufsize` changes that memory and does not fail.  Addresses are taken to fit in an `unsigned int`,
as the source does, and sizes to have 64 bits.
-/

set_option autoImplicit false

namespace Afpfs
namespace Dsi

open Interaction Memory

/-! ## Packets -/

def DSI_REQUEST : UInt8 := 0
def DSI_REPLY : UInt8 := 1

def DSI_DSICloseSession : UInt8 := 1
def DSI_DSICommand : UInt8 := 2
def DSI_DSIGetStatus : UInt8 := 3
def DSI_DSIOpenSession : UInt8 := 4
def DSI_DSITickle : UInt8 := 5
def DSI_DSIWrite : UInt8 := 6
def DSI_DSIAttention : UInt8 := 8

/-- The commands that `dsi_recv()` knows. -/
def knownCommands : List UInt8 :=
  [DSI_DSICloseSession, DSI_DSIGetStatus, DSI_DSIOpenSession, DSI_DSITickle, DSI_DSIWrite,
    DSI_DSICommand, DSI_DSIAttention]

/-- The subcommands whose replies have a buffer of their own. -/
def afpRead : UInt8 := 27
def afpReadExt : UInt8 := 60

/-- `sizeof(struct dsi_header)`. -/
def headerSize : ℕ := 16

/-- The bytes at and behind an address. -/
abbrev Bytes := ℕ → UInt8

/-- `ntohs()` of the two bytes at `i`. -/
def ntohs (m : Bytes) (i : ℕ) : UInt16 := (m i).toUInt16 <<< 8 ||| (m (i + 1)).toUInt16

/-- `ntohl()` of the four bytes at `i`. -/
def ntohl (m : Bytes) (i : ℕ) : UInt32 :=
  (m i).toUInt32 <<< 24 ||| (m (i + 1)).toUInt32 <<< 16 ||| (m (i + 2)).toUInt32 <<< 8 |||
    (m (i + 3)).toUInt32

/-- `header->flags`. -/
def flags (m : Bytes) : UInt8 := m 0

/-- `header->command`. -/
def command (m : Bytes) : UInt8 := m 1

/-- `ntohs(header->requestid)`. -/
def requestid (m : Bytes) : UInt16 := ntohs m 2

/-- `ntohl(header->return_code.error_code)`. -/
def returnCode (m : Bytes) : UInt32 := ntohl m 4

/-- `ntohl(header->length)`. -/
def length (m : Bytes) : ℕ := (ntohl m 8).toNat

/-- The fields of a header depend on its bytes alone. -/
theorem header_congr {m m' : Bytes} (h : ∀ j < headerSize, m j = m' j) :
    flags m = flags m' ∧ command m = command m' ∧ requestid m = requestid m' ∧
      returnCode m = returnCode m' ∧ length m = length m' := by
  unfold headerSize at h
  simp only [flags, command, requestid, returnCode, length, ntohs, ntohl]
  simp only [h 0 (by decide), h 1 (by decide), h 2 (by decide), h 3 (by decide), h 4 (by decide),
    h 5 (by decide), h 6 (by decide), h 7 (by decide), h 8 (by decide), h 9 (by decide),
    h 10 (by decide), h 11 (by decide), and_self]

/-! ## State -/

/-- The address of a `struct dsi_request`. -/
abbrev Handle := ℕ

/-- `struct dsi_request`, with the sizes of the buffer that `other` points to for a read. -/
structure DsiRequest where
  requestid : UInt16
  subcommand : UInt8
  wait : Bool
  maxsize : UInt32
  size : UInt32
  deriving DecidableEq

/-- The request is an afpRead or an afpReadExt. -/
def DsiRequest.isRead (request : DsiRequest) : Bool :=
  request.subcommand == afpRead || request.subcommand == afpReadExt

/-- What `dsi_recv()` keeps in `struct afp_server`. -/
structure RecvState where
  incomingBuffer : Bytes
  dataRead : ℕ
  bufsize : ℕ
  attentionLen : ℕ

/-- The buffer as `afp_server_init()` leaves it, with any contents. -/
def RecvState.init (contents : Bytes) : RecvState where
  incomingBuffer := contents
  dataRead := 0
  bufsize := 2048
  attentionLen := 0

/-- `AFP_DEFAULT_ATTENTION_QUANTUM`, the size of the attention buffer. -/
def attentionQuantum : ℕ := 1024

/-- Bytes that were read into the buffer behind the ones there. -/
def RecvState.fill (s : RecvState) (bytes : List UInt8) : RecvState :=
  { s with
    incomingBuffer := store s.incomingBuffer s.dataRead bytes
    dataRead := s.dataRead + bytes.length }

@[simp] theorem dataRead_fill (s : RecvState) (bytes : List UInt8) :
    (s.fill bytes).dataRead = s.dataRead + bytes.length := rfl

/-- The bytes of the buffer that are in use. -/
def RecvState.packet (s : RecvState) : List UInt8 := load s.incomingBuffer 0 s.dataRead

/-! ## Effects -/

/-- The functions that a packet is handed to. -/
inductive Handler where
  /-- `dsi_incoming_closesession()`. -/
  | closesession
  /-- `dsi_getstatus_reply()`. -/
  | getstatusReply
  /-- `dsi_opensession_reply()`. -/
  | opensessionReply
  /-- `dsi_incoming_tickle()`. -/
  | tickle
  /-- `dsi_command_reply()` with the request. -/
  | commandReply (r : Handle)
  /-- `dsi_incoming_attention()`, in a thread of its own. -/
  | attention
  deriving DecidableEq

/-- The interactions of `dsi_recv()`. -/
inductive RecvEffect where
  /-- `read()` of at most `n` bytes. -/
  | read (n : ℕ)
  /-- `dsi_find_request()`. -/
  | findRequest (id : UInt16)
  /-- Write `return_code` of a request. -/
  | setReturnCode (r : Handle) (code : UInt32)
  /-- Store bytes in the buffer of a read request. -/
  | fillBuffer (r : Handle) (bytes : List UInt8)
  /-- Hand a packet to its function. -/
  | handle (h : Handler) (packet : List UInt8)
  /-- Drop a reply that no request waits for. -/
  | drop (packet : List UInt8)
  /-- Signal a request. -/
  | signal (r : Handle)
  /-- `dsi_remove_from_request_queue()`. -/
  | remove (r : Handle)

/-- The answer to an effect.  A read that fails or finds the end of the stream has none. -/
def RecvEffect.Answer : RecvEffect → Type
  | .read _ => Option (List UInt8)
  | .findRequest _ => Option (Handle × DsiRequest)
  | _ => Unit

/-- A function on the receiving side. -/
abbrev RecvM (α : Type) := Prog RecvEffect RecvEffect.Answer α

/-- Perform one effect. -/
def perform (e : RecvEffect) : RecvM e.Answer := .act e .done

/-- `read()`. -/
def read (n : ℕ) : RecvM (Option (List UInt8)) := perform (.read n)

/-- `dsi_find_request()`. -/
def findRequest (id : UInt16) : RecvM (Option (Handle × DsiRequest)) := perform (.findRequest id)

/-- Perform an effect whose answer does not matter. -/
def emit (e : RecvEffect) : RecvM Unit := .act e fun _ => .done ()

/-! ## The function -/

/-- The part of `dsi_recv()` at `out`. -/
def out (s : RecvState) : Option (Handle × DsiRequest) → RecvM (ℤ × RecvState)
  | none => return (0, s)
  | some (r, request) => do
    emit (if request.wait then .signal r else .remove r)
    return (0, s)

/-- The part at `after_processing`.  What is left behind the packet is copied from the wrong place,
and what is taken off `data_read` is the length of what is left.  `size_to_copy` is unsigned, so
with less than a packet in the buffer almost 2^32 bytes are copied. -/
def afterProcessing (s : RecvState) (found : Option (Handle × DsiRequest)) :
    RecvM (ℤ × RecvState) :=
  let size := length s.incomingBuffer + headerSize
  if s.dataRead = size then out { s with dataRead := 0 } found
  else
    let sizeToCopy := UInt32.ofNat s.dataRead - UInt32.ofNat size
    let moved := load s.incomingBuffer (length s.incomingBuffer) sizeToCopy.toNat
    out { s with
      incomingBuffer := store s.incomingBuffer 0 moved
      dataRead := (UInt32.ofNat s.dataRead - sizeToCopy).toNat } found

/-- `dsi_command_reply()`.  For a read it reads again, into the buffer of the request, and counts
these bytes in `data_read`. -/
def dsiCommandReply (s : RecvState) (r : Handle) (request : DsiRequest) : RecvM RecvState := do
  emit (.handle (.commandReply r) s.packet)
  if s.dataRead < headerSize then return s
  else if request.isRead then
    match ← read (request.maxsize - request.size).toNat with
    | none => return s
    | some bytes => do
      emit (.fillBuffer r bytes)
      return { s with dataRead := s.dataRead + bytes.length }
  else return s

/-- For any other request it does not read. -/
theorem dsiCommandReply_eq {request : DsiRequest} (h : request.isRead = false) (s : RecvState)
    (r : Handle) :
    dsiCommandReply s r request = emit (.handle (.commandReply r) s.packet) >>= fun _ => .done s := by
  unfold dsiCommandReply
  rw [h, if_neg Bool.false_ne_true, ite_self]
  rfl

/-- The part at `process_packet`.  A command without a request is a null dereference. -/
def processPacket (s : RecvState) (found : Option (Handle × DsiRequest)) (runt : Bool) :
    RecvM (ℤ × RecvState) :=
  let command := command s.incomingBuffer
  if command = DSI_DSICloseSession then do
    emit (.handle .closesession s.packet)
    afterProcessing s found
  else if command = DSI_DSIGetStatus then do
    emit (.handle .getstatusReply s.packet)
    afterProcessing s found
  else if command = DSI_DSIOpenSession then do
    emit (.handle .opensessionReply s.packet)
    afterProcessing s found
  else if command = DSI_DSITickle then do
    emit (.handle .tickle s.packet)
    afterProcessing s found
  else if command = DSI_DSIWrite ∨ command = DSI_DSICommand then
    if runt then do
      emit (.drop s.packet)
      afterProcessing s found
    else
      match found with
      | none => .stuck
      | some (r, request) => do
        let s ← dsiCommandReply s r request
        afterProcessing s found
  else if command = DSI_DSIAttention then do
    emit (.handle .attention s.packet)
    afterProcessing { s with attentionLen := s.dataRead } found
  else return (-1, s)

/-- The bytes that are left to read into the buffer of a read request, as the argument of
`read()`: an `int` that may have become negative. -/
def newmax (request : DsiRequest) (length : UInt32) : ℕ :=
  let left := request.maxsize - request.size
  let left := if length - request.size < left then length - request.size else left
  left.toInt32.toInt64.toUInt64.toNat

/-- The buffer without its first header, which was that of the reply to a read. -/
def RecvState.shift (s : RecvState) : RecvState :=
  let sizeToCopy := s.dataRead - headerSize
  { s with
    incomingBuffer := store s.incomingBuffer 0 (load s.incomingBuffer headerSize sizeToCopy)
    dataRead := sizeToCopy }

/-- The branch of `dsi_recv()` for the reply to an afpRead or afpReadExt.  Whatever is in the buffer
behind the header is taken for the next packet, and processed at once. -/
def readReply (s : RecvState) (r : Handle) (request : DsiRequest) : RecvM (ℤ × RecvState) :=
  if s.dataRead = headerSize ∧ length s.incomingBuffer = 0 then
    out { s with dataRead := 0 } (some (r, request))
  else if request.maxsize = 0 then return (-1, s)
  else do
    match ← read (newmax request (.ofNat (length s.incomingBuffer))) with
    | none => return (-1, s)
    | some bytes => do
      emit (.fillBuffer r bytes)
      let request := { request with size := request.size + .ofNat bytes.length }
      if UInt32.ofNat (length s.incomingBuffer) = request.size then
        if s.dataRead = headerSize then out { s with dataRead := 0 } (some (r, request))
        else processPacket s.shift (some (r, request)) false
      else return (0, s)

/-- The branch for any other packet: read its body.  The whole length is asked for again each
time. -/
def readBody (s : RecvState) (found : Option (Handle × DsiRequest)) (runt : Bool) :
    RecvM (ℤ × RecvState) :=
  if s.dataRead = headerSize ∧ length s.incomingBuffer = 0 then processPacket s found runt
  else do
    match ← read (min (length s.incomingBuffer) s.bufsize) with
    | none => return (-1, s)
    | some bytes =>
      let s := s.fill bytes
      if s.dataRead < length s.incomingBuffer + headerSize then return (0, s)
      else if runt then do
        emit (.drop s.packet)
        afterProcessing s found
      else processPacket s found runt

/-- The part at `gotenough`: the header is complete. -/
def gotenough (s : RecvState) : RecvM (ℤ × RecvState) := do
  let found ← findRequest (requestid s.incomingBuffer)
  match found with
  | none => readBody s none (flags s.incomingBuffer == DSI_REPLY)
  | some (r, request) => do
    emit (.setReturnCode r (returnCode s.incomingBuffer))
    if request.isRead then readReply s r request
    else readBody s (some (r, request)) false

/-- `dsi_recv()`: its result and the state. -/
def dsiRecv (s : RecvState) : RecvM (ℤ × RecvState) :=
  if s.dataRead < headerSize then do
    match ← read (headerSize - s.dataRead) with
    | none => return (-1, s)
    | some bytes =>
      let s := s.fill bytes
      if s.dataRead = headerSize ∧ length s.incomingBuffer = 0 then gotenough s
      else return (0, s)
  else gotenough s

end Dsi
end Afpfs
