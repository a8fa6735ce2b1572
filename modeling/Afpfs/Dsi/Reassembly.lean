import Afpfs.Dsi.Receive
import Afpfs.Lib.Transition

/-!
# Reassembling the incoming stream

Repeated calls of `dsi_recv()` on a stream that is a concatenation of packets, with every way to
split it into reads and every answer of the request queue.

`dsi_recv()` is a resumable parser: `InOrder` says that the bytes of the buffer and the stream
together are the packets that are still to come, and that the earlier ones were each processed
with exactly their own bytes.  A call keeps this (`step_inOrder`) unless it reads past the end of
the packet in the buffer (`Straddles`), which a second read of a body can do because it asks for
the whole length again, or takes a packet for the reply to a read because their ids are equal.

* `reassembly_run`: in runs without such calls all packets are processed, each once and in order,
  with `data_read` 0 after each.
* `second_read_straddles`: a run in which the second read of a body takes a byte of the next packet;
  `data_read` is not 0 afterwards.
-/

set_option autoImplicit false

namespace Afpfs
namespace Dsi

open Interaction Memory Transition

/-! ## Packets on the stream -/

/-- Bytes in memory, with nothing behind them. -/
def ofBytes (bytes : List UInt8) : Bytes := fun j => bytes.getD j 0

/-- A packet that a server sends: the length field counts the bytes behind the header, the command
is one of DSI, and a command or a write is a reply, since a server does not send commands. -/
structure Packet where
  bytes : List UInt8
  size_eq : bytes.length = length (ofBytes bytes) + headerSize
  known : command (ofBytes bytes) ∈ knownCommands
  reply : command (ofBytes bytes) = DSI_DSIWrite ∨ command (ofBytes bytes) = DSI_DSICommand →
    flags (ofBytes bytes) = DSI_REPLY

/-- The stream of some packets. -/
def streamOf (packets : List Packet) : List UInt8 := packets.flatMap Packet.bytes

theorem Packet.headerSize_le (p : Packet) : headerSize ≤ p.bytes.length := by
  rw [p.size_eq]
  exact Nat.le_add_left _ _

/-- A buffer that starts with enough bytes of a packet has its header. -/
theorem header_of_prefix {s : RecvState} {bytes : List UInt8} (hpacket : s.packet <+: bytes)
    (hsize : headerSize ≤ s.dataRead) :
    flags s.incomingBuffer = flags (ofBytes bytes) ∧
      command s.incomingBuffer = command (ofBytes bytes) ∧
      requestid s.incomingBuffer = requestid (ofBytes bytes) ∧
      returnCode s.incomingBuffer = returnCode (ofBytes bytes) ∧
      length s.incomingBuffer = length (ofBytes bytes) := by
  refine header_congr fun j hj => ?_
  obtain ⟨rest, rfl⟩ := hpacket
  have hjs : j < s.dataRead := Nat.lt_of_lt_of_le hj hsize
  have hget := getElem?_load s.incomingBuffer (i := 0) hjs
  rw [Nat.zero_add] at hget
  rw [ofBytes, List.getD_eq_getElem?_getD, List.getElem?_append_left (by simpa [RecvState.packet]),
    RecvState.packet, hget, Option.getD_some]

theorem packet_fill (s : RecvState) (bytes : List UInt8) :
    (s.fill bytes).packet = s.packet ++ bytes :=
  load_store_append s.incomingBuffer s.dataRead bytes

/-! ## Calls -/

/-- What a call did and was answered. -/
abbrev Trace := List ((e : RecvEffect) × e.Answer)

/-- The bytes that an effect took off the stream. -/
def taken : (e : RecvEffect) × e.Answer → List UInt8
  | ⟨.read _, answer⟩ => (answer : Option (List UInt8)).getD []
  | _ => []

/-- The packet that an effect processed. -/
def processed : (e : RecvEffect) × e.Answer → Option (List UInt8)
  | ⟨.handle _ packet, _⟩ => some packet
  | ⟨.drop packet, _⟩ => some packet
  | _ => none

/-- A read returns between 1 and the requested number of bytes. -/
def Legal : (e : RecvEffect) × e.Answer → Prop
  | ⟨.read n, answer⟩ => ∃ bytes, (answer : Option (List UInt8)) = some bytes ∧
      0 < bytes.length ∧ bytes.length ≤ n
  | _ => True

/-- The effect is a read that goes past the end of the packet whose header is in the buffer. -/
def Straddles (s : RecvState) : (e : RecvEffect) × e.Answer → Prop
  | ⟨.read _, answer⟩ => headerSize ≤ s.dataRead ∧
      length s.incomingBuffer + headerSize <
        s.dataRead + ((answer : Option (List UInt8)).getD []).length
  | _ => False

/-- The effect is a lookup that finds a read request. -/
def FindsRead : (e : RecvEffect) × e.Answer → Prop
  | ⟨.findRequest _, answer⟩ => ∃ r request,
      (answer : Option (Handle × DsiRequest)) = some (r, request) ∧ request.isRead = true
  | _ => False

instance : DecidablePred Legal
  | ⟨.read _, none⟩ => isFalse fun h => nomatch h
  | ⟨.read n, some bytes⟩ =>
    decidable_of_iff (0 < bytes.length ∧ bytes.length ≤ n)
      ⟨fun h => ⟨bytes, rfl, h⟩, fun ⟨_, hbytes, h⟩ => Option.some.inj hbytes ▸ h⟩
  | ⟨.findRequest _, _⟩ | ⟨.setReturnCode _ _, _⟩ | ⟨.fillBuffer _ _, _⟩ | ⟨.handle _ _, _⟩
  | ⟨.drop _, _⟩ | ⟨.signal _, _⟩ | ⟨.remove _, _⟩ => isTrue trivial

instance (s : RecvState) : DecidablePred (Straddles s)
  | ⟨.read _, _⟩ => inferInstanceAs (Decidable (_ ∧ _))
  | ⟨.findRequest _, _⟩ | ⟨.setReturnCode _ _, _⟩ | ⟨.fillBuffer _ _, _⟩ | ⟨.handle _ _, _⟩
  | ⟨.drop _, _⟩ | ⟨.signal _, _⟩ | ⟨.remove _, _⟩ => isFalse id

instance : DecidablePred FindsRead
  | ⟨.findRequest _, none⟩ => isFalse fun ⟨_, _, h, _⟩ => nomatch h
  | ⟨.findRequest _, some (r, request)⟩ =>
    decidable_of_iff (request.isRead = true)
      ⟨fun h => ⟨r, request, rfl, h⟩, fun ⟨_, _, hfound, h⟩ => by cases hfound; exact h⟩
  | ⟨.read _, _⟩ | ⟨.setReturnCode _ _, _⟩ | ⟨.fillBuffer _ _, _⟩ | ⟨.handle _ _, _⟩
  | ⟨.drop _, _⟩ | ⟨.signal _, _⟩ | ⟨.remove _, _⟩ => isFalse id

/-- The receiving side and the stream, with a record of the calls: the packets that were processed
with `data_read` after the call, the results, and whether one ran into a null pointer. -/
structure Wire where
  recv : RecvState
  stream : List UInt8
  processed : List (List UInt8 × ℕ)
  results : List ℤ
  crashed : Bool

/-- The wire after a call that ended in `q` and left `rest` of the stream. -/
def Wire.after (w : Wire) (tr : Trace) (rest : List UInt8) : RecvM (ℤ × RecvState) → Wire
  | .done (ret, s) => {
      recv := s
      stream := rest
      processed := w.processed ++ (tr.filterMap Dsi.processed).map fun p => (p, s.dataRead)
      results := w.results ++ [ret]
      crashed := w.crashed }
  | _ => { w with stream := rest, crashed := true }

/-- One call of `dsi_recv()`. -/
def Call (w : Wire) (tr : Trace) (w' : Wire) : Prop :=
  ∃ q rest, q.Final ∧ Prog.Steps (dsiRecv w.recv) tr q ∧ (∀ ev ∈ tr, Legal ev) ∧
    w.stream = tr.flatMap taken ++ rest ∧ w' = w.after tr rest q

/-- No packet is taken for the reply to a read. -/
def NoReadReply (_ : Wire) (tr : Trace) : Prop := ∀ ev ∈ tr, ¬ FindsRead ev

/-- The condition on a call: no read past the end of a packet, and no packet taken for the reply
to a read. -/
def Orderly (w : Wire) (tr : Trace) : Prop :=
  ∀ ev ∈ tr, ¬ Straddles w.recv ev ∧ ¬ FindsRead ev

instance (w : Wire) (tr : Trace) : Decidable (NoReadReply w tr) :=
  inferInstanceAs (Decidable (∀ ev ∈ tr, ¬ FindsRead ev))

instance (w : Wire) (tr : Trace) : Decidable (Orderly w tr) :=
  inferInstanceAs (Decidable (∀ ev ∈ tr, ¬ Straddles w.recv ev ∧ ¬ FindsRead ev))

/-- The calls are in step with the packets. -/
structure InOrder (packets : List Packet) (w : Wire) (finished todo : List Packet) : Prop where
  split : packets = finished ++ todo
  processed : w.processed = finished.map fun p => (p.bytes, 0)
  rest : w.recv.packet ++ w.stream = streamOf todo
  partly : w.recv.dataRead < (todo.head?.map fun p => p.bytes.length).getD 1
  results : ∀ ret ∈ w.results, ret = 0
  crashed : w.crashed = false
  fits : ∀ p ∈ packets, p.bytes.length ≤ w.recv.bufsize

/-! ## Processing one packet -/

theorem steps_emit_iff {α : Type} {e : RecvEffect} {f : Unit → RecvM α} {tr : Trace} {q : RecvM α}
    (hq : q.Final) :
    Prog.Steps (emit e >>= f) tr q ↔ ∃ r tr', tr = ⟨e, r⟩ :: tr' ∧ Prog.Steps (f ()) tr' q :=
  Prog.steps_act_iff hq

theorem steps_perform_iff {α : Type} {e : RecvEffect} {f : e.Answer → RecvM α} {tr : Trace}
    {q : RecvM α} (hq : q.Final) :
    Prog.Steps (perform e >>= f) tr q ↔ ∃ r tr', tr = ⟨e, r⟩ :: tr' ∧ Prog.Steps (f r) tr' q :=
  Prog.steps_act_iff hq

theorem steps_out {s : RecvState} {found : Option (Handle × DsiRequest)} {tr : Trace}
    {q : RecvM (ℤ × RecvState)} (hq : q.Final) (h : Prog.Steps (out s found) tr q) :
    q = .done (0, s) ∧ tr.flatMap taken = [] ∧ tr.filterMap processed = [] := by
  cases found with
  | none =>
    obtain ⟨rfl, rfl⟩ := Prog.steps_done_iff.mp h
    exact ⟨rfl, rfl, rfl⟩
  | some found =>
    obtain ⟨r, request⟩ := found
    have hbenign : ∀ answer,
        taken ⟨if request.wait then .signal r else .remove r, answer⟩ = [] ∧
          processed ⟨if request.wait then .signal r else .remove r, answer⟩ = none := by
      cases request.wait with
      | false => exact fun _ => ⟨rfl, rfl⟩
      | true => exact fun _ => ⟨rfl, rfl⟩
    obtain ⟨answer, rest, rfl, hrest⟩ := (steps_emit_iff hq).mp h
    obtain ⟨rfl, rfl⟩ := Prog.steps_done_iff.mp hrest
    obtain ⟨htaken, hprocessed⟩ := hbenign answer
    refine ⟨rfl, ?_, ?_⟩
    · rw [List.flatMap_cons, htaken]
      rfl
    · rw [List.filterMap_cons, hprocessed]
      rfl

theorem steps_afterProcessing {s : RecvState} {found : Option (Handle × DsiRequest)} {tr : Trace}
    {q : RecvM (ℤ × RecvState)} (hsize : s.dataRead = length s.incomingBuffer + headerSize)
    (hq : q.Final) (h : Prog.Steps (afterProcessing s found) tr q) :
    q = .done (0, { s with dataRead := 0 }) ∧ tr.flatMap taken = [] ∧
      tr.filterMap processed = [] := by
  rw [afterProcessing, if_pos hsize] at h
  exact steps_out hq h

/-- The effect that processes a packet, and what follows it. -/
theorem steps_process {s s' : RecvState} {found : Option (Handle × DsiRequest)} {tr : Trace}
    {q : RecvM (ℤ × RecvState)} {e : RecvEffect}
    (he : ∀ r, taken ⟨e, r⟩ = [] ∧ processed ⟨e, r⟩ = some s.packet)
    (hsize : s'.dataRead = length s'.incomingBuffer + headerSize) (hq : q.Final)
    (h : Prog.Steps (emit e >>= fun _ => afterProcessing s' found) tr q) :
    q = .done (0, { s' with dataRead := 0 }) ∧ tr.flatMap taken = [] ∧
      tr.filterMap processed = [s.packet] := by
  obtain ⟨answer, rest, rfl, hrest⟩ := (steps_emit_iff hq).mp h
  obtain ⟨hdone, htaken, hprocessed⟩ := steps_afterProcessing hsize hq hrest
  obtain ⟨hnone, hsome⟩ := he answer
  refine ⟨hdone, ?_, ?_⟩
  · rw [List.flatMap_cons, hnone, htaken, List.append_nil]
  · rw [List.filterMap_cons, hsome, hprocessed]

/-- **A complete packet is processed**, and the buffer is empty afterwards. -/
theorem steps_processPacket {s : RecvState} {found : Option (Handle × DsiRequest)} {runt : Bool}
    {tr : Trace} {q : RecvM (ℤ × RecvState)} (p : Packet) (hpacket : s.packet = p.bytes)
    (hrunt : found = none → flags (ofBytes p.bytes) = DSI_REPLY → runt = true)
    (hread : ∀ r request, found = some (r, request) → request.isRead = false) (hq : q.Final)
    (h : Prog.Steps (processPacket s found runt) tr q) :
    ∃ s', q = .done (0, s') ∧ s'.dataRead = 0 ∧ s'.bufsize = s.bufsize ∧
      tr.flatMap taken = [] ∧ tr.filterMap processed = [p.bytes] := by
  have hlen : s.dataRead = p.bytes.length := by
    rw [← hpacket, RecvState.packet, length_load]
  obtain ⟨-, hcommand, -, -, hlength⟩ :=
    header_of_prefix ⟨[], by rw [List.append_nil, hpacket]⟩ (hlen ▸ p.headerSize_le)
  have hsize : s.dataRead = length s.incomingBuffer + headerSize := by
    rw [hlen, hlength, p.size_eq]
  rw [← hpacket]
  unfold processPacket at h
  dsimp only at h
  split at h
  · obtain ⟨rfl, htaken, hprocessed⟩ := steps_process (fun _ => ⟨rfl, rfl⟩) hsize hq h
    exact ⟨_, rfl, rfl, rfl, htaken, hprocessed⟩
  split at h
  · obtain ⟨rfl, htaken, hprocessed⟩ := steps_process (fun _ => ⟨rfl, rfl⟩) hsize hq h
    exact ⟨_, rfl, rfl, rfl, htaken, hprocessed⟩
  split at h
  · obtain ⟨rfl, htaken, hprocessed⟩ := steps_process (fun _ => ⟨rfl, rfl⟩) hsize hq h
    exact ⟨_, rfl, rfl, rfl, htaken, hprocessed⟩
  split at h
  · obtain ⟨rfl, htaken, hprocessed⟩ := steps_process (fun _ => ⟨rfl, rfl⟩) hsize hq h
    exact ⟨_, rfl, rfl, rfl, htaken, hprocessed⟩
  split at h
  · rename_i hreply
    split at h
    · obtain ⟨rfl, htaken, hprocessed⟩ := steps_process (fun _ => ⟨rfl, rfl⟩) hsize hq h
      exact ⟨_, rfl, rfl, rfl, htaken, hprocessed⟩
    · rename_i hnotrunt
      split at h
      · -- without a request the packet is a runt
        rw [hcommand] at hreply
        exact absurd (hrunt rfl (p.reply hreply)) hnotrunt
      · rw [dsiCommandReply_eq (hread _ _ rfl)] at h
        obtain ⟨rfl, htaken, hprocessed⟩ := steps_process (fun _ => ⟨rfl, rfl⟩) hsize hq h
        exact ⟨_, rfl, rfl, rfl, htaken, hprocessed⟩
  split at h
  · obtain ⟨rfl, htaken, hprocessed⟩ :=
      @steps_process s { s with attentionLen := s.dataRead } _ _ _ _ (fun _ => ⟨rfl, rfl⟩) hsize
        hq h
    exact ⟨_, rfl, rfl, rfl, htaken, hprocessed⟩
  · have hknown := p.known
    rw [← hcommand] at hknown
    simp_all [knownCommands]

/-! ## One call -/

/-- What a part of a call may come to while the packet `p` arrives: it took some more of the packet
and has not got all of it, or it took the rest and processed it. -/
def Outcome (p : Packet) (s : RecvState) (tr : Trace) (q : RecvM (ℤ × RecvState)) : Prop :=
  ∃ s', q = .done (0, s') ∧ s'.bufsize = s.bufsize ∧
    ((s'.packet = s.packet ++ tr.flatMap taken ∧ s.dataRead < s'.dataRead ∧
        s'.dataRead < p.bytes.length ∧ tr.filterMap processed = []) ∨
      (s.packet ++ tr.flatMap taken = p.bytes ∧ s'.dataRead = 0 ∧
        tr.filterMap processed = [p.bytes]))

theorem length_packet (s : RecvState) : s.packet.length = s.dataRead := length_load _ _ _

/-- Bytes that come next belong to the packet when they are not more than its rest. -/
theorem prefix_of_stream {a b rest p later : List UInt8} (h : a ++ (b ++ rest) = p ++ later)
    (hlen : a.length + b.length ≤ p.length) : a ++ b <+: p := by
  have hab : a ++ b <+: p ++ later := ⟨rest, by rw [List.append_assoc, h]⟩
  exact List.prefix_of_prefix_length_le hab (List.prefix_append p later)
    (by rw [List.length_append]; exact hlen)

/-- The rest of a packet is read, and the packet is processed if that is all of it. -/
theorem steps_readBody {s : RecvState} {found : Option (Handle × DsiRequest)} {runt : Bool}
    {tr : Trace} {q : RecvM (ℤ × RecvState)} {p : Packet} {rest later : List UInt8}
    (hq : q.Final) (h : Prog.Steps (readBody s found runt) tr q)
    (hstream : s.packet ++ (tr.flatMap taken ++ rest) = p.bytes ++ later)
    (hsize : headerSize ≤ s.dataRead) (hpart : s.dataRead ≤ p.bytes.length)
    (hstraddle : s.dataRead = headerSize ∧ length s.incomingBuffer = 0 ∨
      ∀ ev ∈ tr, ¬ Straddles s ev)
    (hrunt : found = none → flags (ofBytes p.bytes) = DSI_REPLY → runt = true)
    (hread : ∀ r request, found = some (r, request) → request.isRead = false)
    (hlegal : ∀ ev ∈ tr, Legal ev) :
    Outcome p s tr q := by
  have hprefix : s.packet <+: p.bytes := by
    have := @prefix_of_stream s.packet [] _ _ _ hstream (by simpa [length_packet] using hpart)
    rwa [List.append_nil] at this
  obtain ⟨-, -, -, -, hlength⟩ := header_of_prefix hprefix hsize
  have hpsize := p.size_eq
  unfold readBody at h
  split at h
  · rename_i hempty
    have hall : s.packet = p.bytes :=
      hprefix.eq_of_length (by rw [length_packet]; omega)
    obtain ⟨s', rfl, hzero, hbufsize, htaken, hprocessed⟩ :=
      steps_processPacket p hall hrunt hread hq h
    exact ⟨s', rfl, hbufsize, .inr ⟨by rw [htaken, List.append_nil, hall], hzero, hprocessed⟩⟩
  · rename_i hmore
    obtain ⟨answer, tr', rfl, hrest⟩ := (steps_perform_iff hq).mp h
    obtain ⟨bytes, rfl, hpos, -⟩ := hlegal _ List.mem_cons_self
    have hfits : s.dataRead + bytes.length ≤ p.bytes.length := by
      rcases hstraddle with hend | hnone
      · exact absurd hend hmore
      · have hlast := hnone _ List.mem_cons_self
        simp only [Straddles, hsize, Option.getD_some, true_and] at hlast
        omega
    have hnext : (s.fill bytes).packet <+: p.bytes := by
      rw [packet_fill]
      rw [List.flatMap_cons, List.append_assoc] at hstream
      exact prefix_of_stream hstream (by rw [length_packet]; exact hfits)
    have hnow : (s.fill bytes).dataRead = s.dataRead + bytes.length := rfl
    obtain ⟨-, -, -, -, hlength'⟩ := header_of_prefix hnext (by omega)
    dsimp only at hrest
    split at hrest
    · rename_i hpartly
      obtain ⟨rfl, rfl⟩ := Prog.steps_done_iff.mp hrest
      refine ⟨_, rfl, rfl, .inl ⟨?_, by omega, ?_, rfl⟩⟩
      · rw [packet_fill]
        simp [taken]
      · omega
    · rename_i hfull
      have hall : (s.fill bytes).packet = p.bytes :=
        hnext.eq_of_length (by rw [length_packet]; omega)
      have hsplit : s.packet ++ bytes = p.bytes := by rw [← packet_fill, hall]
      split at hrest
      · obtain ⟨rfl, htaken, hprocessed⟩ :=
          steps_process (fun _ => ⟨rfl, rfl⟩) (by omega) hq hrest
        refine ⟨_, rfl, rfl, .inr ⟨?_, rfl, ?_⟩⟩
        · rw [List.flatMap_cons, htaken, List.append_nil]
          exact hsplit
        · rw [← hall]
          exact hprocessed
      · obtain ⟨s', rfl, hzero, hbufsize, htaken, hprocessed⟩ :=
          steps_processPacket p hall hrunt hread hq hrest
        refine ⟨s', rfl, hbufsize, .inr ⟨?_, hzero, hprocessed⟩⟩
        rw [List.flatMap_cons, htaken, List.append_nil]
        exact hsplit

/-- The part of a call behind the header. -/
theorem steps_gotenough {s : RecvState} {tr : Trace} {q : RecvM (ℤ × RecvState)} {p : Packet}
    {rest later : List UInt8} (hq : q.Final) (h : Prog.Steps (gotenough s) tr q)
    (hstream : s.packet ++ (tr.flatMap taken ++ rest) = p.bytes ++ later)
    (hsize : headerSize ≤ s.dataRead) (hpart : s.dataRead ≤ p.bytes.length)
    (hstraddle : s.dataRead = headerSize ∧ length s.incomingBuffer = 0 ∨
      ∀ ev ∈ tr, ¬ Straddles s ev)
    (hread : ∀ ev ∈ tr, ¬ FindsRead ev) (hlegal : ∀ ev ∈ tr, Legal ev) :
    Outcome p s tr q := by
  have hprefix : s.packet <+: p.bytes := by
    have := @prefix_of_stream s.packet [] _ _ _ hstream (by simpa [length_packet] using hpart)
    rwa [List.append_nil] at this
  obtain ⟨hflags, -⟩ := header_of_prefix hprefix hsize
  unfold gotenough at h
  obtain ⟨found, tr', rfl, hfound⟩ := (steps_perform_iff hq).mp h
  obtain ⟨hnoread, -⟩ := List.forall_mem_cons.mp hread
  replace hlegal := (List.forall_mem_cons.mp hlegal).2
  replace hstraddle := hstraddle.imp_right fun hnone => (List.forall_mem_cons.mp hnone).2
  cases found with
  | none =>
    obtain ⟨s', rfl, hbufsize, hout⟩ := steps_readBody hq hfound hstream hsize hpart hstraddle
      (fun _ hreply => by rw [hflags, hreply]; rfl) (fun _ _ hnone => nomatch hnone) hlegal
    exact ⟨s', rfl, hbufsize, hout⟩
  | some found =>
    obtain ⟨r, request⟩ := found
    obtain ⟨_, tr'', rfl, hcode⟩ := (steps_emit_iff hq).mp hfound
    have hnotread : request.isRead = false :=
      Bool.eq_false_iff.mpr fun hisread => hnoread ⟨r, request, rfl, hisread⟩
    rw [hnotread, if_neg Bool.false_ne_true] at hcode
    obtain ⟨s', rfl, hbufsize, hout⟩ := steps_readBody hq hcode hstream hsize hpart
      (hstraddle.imp_right fun hnone => (List.forall_mem_cons.mp hnone).2)
      (fun hnone => absurd hnone (Option.some_ne_none _))
      (fun _ _ hfound => (Prod.mk.inj (Option.some.inj hfound)).2 ▸ hnotread) (List.forall_mem_cons.mp hlegal).2
    exact ⟨s', rfl, hbufsize, hout⟩

/-- A whole call. -/
theorem steps_dsiRecv {s : RecvState} {tr : Trace} {q : RecvM (ℤ × RecvState)} {p : Packet}
    {rest later : List UInt8} (hq : q.Final) (h : Prog.Steps (dsiRecv s) tr q)
    (hstream : s.packet ++ (tr.flatMap taken ++ rest) = p.bytes ++ later)
    (hpart : s.dataRead < p.bytes.length) (hok : ∀ ev ∈ tr, ¬ Straddles s ev ∧ ¬ FindsRead ev)
    (hlegal : ∀ ev ∈ tr, Legal ev) :
    Outcome p s tr q := by
  have hpsize := p.size_eq
  unfold dsiRecv at h
  split at h
  · rename_i hheader
    obtain ⟨answer, tr', rfl, hrest⟩ := (steps_perform_iff hq).mp h
    obtain ⟨bytes, rfl, hpos, hmax⟩ := hlegal _ List.mem_cons_self
    have hnow : (s.fill bytes).dataRead = s.dataRead + bytes.length := rfl
    have hle := p.headerSize_le
    rw [List.flatMap_cons, List.append_assoc] at hstream
    have hnext : (s.fill bytes).packet <+: p.bytes := by
      rw [packet_fill]
      exact prefix_of_stream hstream (by rw [length_packet]; omega)
    dsimp only at hrest
    split at hrest
    · rename_i hempty
      obtain ⟨-, -, -, -, hlength⟩ := header_of_prefix hnext (by omega)
      obtain ⟨s', rfl, hbufsize, hout⟩ := steps_gotenough hq hrest
        (by rw [packet_fill, List.append_assoc]; exact hstream) (by omega) (by omega)
        (.inl hempty) (fun ev hev => (hok ev (List.mem_cons_of_mem _ hev)).2)
        (List.forall_mem_cons.mp hlegal).2
      refine ⟨s', rfl, hbufsize, ?_⟩
      rw [packet_fill, List.append_assoc] at hout
      exact hout.imp_left fun ⟨hpacket, hmore, hless⟩ => ⟨hpacket, by omega, hless⟩
    · rename_i hmore
      obtain ⟨rfl, rfl⟩ := Prog.steps_done_iff.mp hrest
      refine ⟨_, rfl, rfl, .inl ⟨?_, by omega, ?_, rfl⟩⟩
      · rw [packet_fill]
        simp [taken]
      · by_contra hfull
        have hdata : (s.fill bytes).dataRead = headerSize := by omega
        obtain ⟨-, -, -, -, hlength⟩ := header_of_prefix hnext (by omega)
        exact hmore ⟨hdata, by omega⟩
  · rename_i hheader
    exact steps_gotenough hq h hstream (by omega) (by omega) (.inr fun ev hev => (hok ev hev).1)
      (fun ev hev => (hok ev hev).2) hlegal

/-- With nothing on the stream no call returns, since its first read does not. -/
theorem not_call_of_empty {w w' : Wire} {tr : Trace} (hread : w.recv.dataRead < headerSize)
    (hstream : w.stream = []) : ¬ Call w tr w' := by
  rintro ⟨q, rest, hq, hsteps, hlegal, hsplit, -⟩
  unfold dsiRecv at hsteps
  rw [if_pos hread] at hsteps
  obtain ⟨answer, tr', rfl, -⟩ := (steps_perform_iff hq).mp hsteps
  obtain ⟨bytes, rfl, hpos, -⟩ := hlegal _ List.mem_cons_self
  rw [hstream] at hsplit
  have hnone := (List.append_eq_nil_iff.mp hsplit.symm).1
  rw [List.flatMap_cons] at hnone
  rw [show bytes = [] from (List.append_eq_nil_iff.mp hnone).1] at hpos
  exact absurd hpos (Nat.lt_irrefl 0)

/-- **One call keeps in step with the packets** and takes something off the stream. -/
theorem step_inOrder {packets finished todo : List Packet} {w w' : Wire} {tr : Trace}
    (hok : Orderly w tr) (hcall : Call w tr w') (h : InOrder packets w finished todo) :
    ∃ finished' todo', InOrder packets w' finished' todo' ∧
      w'.stream.length < w.stream.length := by
  obtain ⟨hsplit, hprocessed, hrest, hpartly, hresults, hcrashed, hfits⟩ := h
  cases todo with
  | nil =>
    obtain ⟨-, hstream⟩ := List.append_eq_nil_iff.mp hrest
    have hpartly : w.recv.dataRead < 1 := hpartly
    exact absurd hcall (not_call_of_empty (Nat.lt_of_lt_of_le hpartly (by decide)) hstream)
  | cons p later =>
    obtain ⟨q, rest, hq, hsteps, hlegal, hstream, rfl⟩ := hcall
    have hpartly : w.recv.dataRead < p.bytes.length := hpartly
    rw [hstream, streamOf, List.flatMap_cons] at hrest
    obtain ⟨s', rfl, hbufsize, hout⟩ := steps_dsiRecv hq hsteps hrest hpartly hok hlegal
    have hresults' : ∀ ret ∈ w.results ++ [0], ret = 0 :=
      List.forall_mem_append.mpr ⟨hresults, List.forall_mem_singleton.mpr rfl⟩
    have hlen : (w.recv.packet ++ tr.flatMap taken).length =
        w.recv.dataRead + (tr.flatMap taken).length := by
      rw [List.length_append, length_packet]
    rw [hstream, List.length_append]
    rcases hout with ⟨hpacket, hmore, hless, hnone⟩ | ⟨hall, hzero, hone⟩
    · refine ⟨finished, p :: later, ⟨hsplit, ?_, ?_, hless, hresults', hcrashed, ?_⟩, ?_⟩
      · simp only [Wire.after, hnone, List.map_nil, List.append_nil]
        exact hprocessed
      · rw [streamOf, List.flatMap_cons, ← hrest, ← List.append_assoc, ← hpacket]
        rfl
      · exact fun p hp => hbufsize ▸ hfits p hp
      · rw [← hpacket, length_packet] at hlen
        simp only [Wire.after]
        omega
    · refine ⟨finished ++ [p], later, ⟨?_, ?_, ?_, ?_, hresults', hcrashed, ?_⟩, ?_⟩
      · rw [hsplit, List.append_assoc, List.singleton_append]
      · simp only [Wire.after, hone, hprocessed, hzero, List.map_append, List.map_cons,
          List.map_nil]
      · rw [← List.append_assoc, hall] at hrest
        have hempty : s'.packet = [] := List.eq_nil_of_length_eq_zero (by rw [length_packet, hzero])
        simp only [Wire.after]
        rw [hempty, List.nil_append, List.append_cancel_left hrest]
        rfl
      · simp only [Wire.after, hzero]
        cases later with
        | nil => exact Nat.one_pos
        | cons p' later => exact Nat.lt_of_lt_of_le (by decide) p'.headerSize_le
      · exact fun p hp => hbufsize ▸ hfits p hp
      · rw [hall] at hlen
        simp only [Wire.after]
        omega

/-! ## Runs -/

/-- A fresh connection with some packets on their way. -/
def Wire.init (contents : Bytes) (packets : List Packet) : Wire where
  recv := .init contents
  stream := streamOf packets
  processed := []
  results := []
  crashed := false

/-- What is expected of the calls: they processed the first packets, each once, in order and with
its own bytes, `data_read` was 0 after each, and with nothing left to read these are all. -/
def Reassembled (packets : List Packet) (w : Wire) : Prop :=
  ∃ finished todo, packets = finished ++ todo ∧
    w.processed = finished.map (fun p => (p.bytes, 0)) ∧ (w.stream = [] → todo = [])

theorem inOrder_init (contents : Bytes) {packets : List Packet}
    (hfits : ∀ p ∈ packets, p.bytes.length ≤ 2048) :
    InOrder packets (.init contents packets) [] packets where
  split := rfl
  processed := rfl
  rest := rfl
  partly := by
    cases packets with
    | nil => exact Nat.one_pos
    | cons p later => exact Nat.lt_of_lt_of_le (Nat.zero_lt_succ 15) p.headerSize_le
  results := fun ret hret => absurd hret List.not_mem_nil
  crashed := rfl
  fits := hfits

/-- Nothing of a packet is left when there is nothing left to read. -/
theorem InOrder.todo_eq_nil {packets finished todo : List Packet} {w : Wire}
    (h : InOrder packets w finished todo) (hstream : w.stream = []) : todo = [] := by
  cases todo with
  | nil => rfl
  | cons p later =>
    have hrest := congrArg List.length h.rest
    rw [hstream, List.append_nil, length_packet, streamOf, List.flatMap_cons,
      List.length_append] at hrest
    have hpartly : w.recv.dataRead < p.bytes.length := h.partly
    omega

/-- What is in the buffer fits in it. -/
theorem InOrder.dataRead_le {packets finished todo : List Packet} {w : Wire}
    (h : InOrder packets w finished todo) : w.recv.dataRead ≤ w.recv.bufsize := by
  obtain ⟨hsplit, -, -, hpartly, -, -, hfits⟩ := h
  cases todo with
  | nil =>
    have hpartly : w.recv.dataRead < 1 := hpartly
    omega
  | cons p later =>
    have hpartly : w.recv.dataRead < p.bytes.length := hpartly
    have hfit := hfits p (hsplit ▸ List.mem_append_right _ List.mem_cons_self)
    omega

theorem run_inOrder {packets : List Packet} {w w' : Wire} {trs : List Trace}
    (hrun : Run (Guarded Orderly Call) w trs w') {finished todo : List Packet}
    (h : InOrder packets w finished todo) :
    ∃ finished' todo', InOrder packets w' finished' todo' ∧
      trs.length + w'.stream.length ≤ w.stream.length := by
  induction hrun generalizing finished todo with
  | nil w => exact ⟨finished, todo, h, Nat.le_of_eq (Nat.zero_add _)⟩
  | cons hstep _ ih =>
    obtain ⟨hok, hcall⟩ := hstep
    obtain ⟨finished₁, todo₁, h₁, hless⟩ := step_inOrder hok hcall h
    obtain ⟨finished', todo', h', hle⟩ := ih h₁
    refine ⟨finished', todo', h', ?_⟩
    rw [List.length_cons]
    omega

/-- A reply with a body of two bytes. -/
def replyOfTwoBytes : Packet where
  bytes := [1, 2, 0, 1, 0, 0, 0, 0, 0, 0, 0, 2, 0, 0, 0, 0, 10, 11]
  size_eq := by decide
  known := by decide
  reply := by decide

/-- A tickle of the server. -/
def serverTickle : Packet where
  bytes := [0, 5, 0, 0, 0, 0, 0, 0, 0, 0, 0, 0, 0, 0, 0, 0]
  size_eq := by decide
  known := by decide
  reply := by decide

/-- The request that waits for the reply, an FPGetFileDirParms. -/
def pendingRequest : DsiRequest where
  requestid := 1
  subcommand := 34
  wait := true
  maxsize := 0
  size := 0

def replyAndTickle : Wire := .init (fun _ => 0) [replyOfTwoBytes, serverTickle]

/-- The calls up to the first byte of the body: one for the header and one that asks for two bytes
and gets one. -/
def headerAndOneByte : List Trace :=
  [[⟨.read 16, some [1, 2, 0, 1, 0, 0, 0, 0, 0, 0, 0, 2, 0, 0, 0, 0]⟩],
    [⟨.findRequest 1, some (7, pendingRequest)⟩, ⟨.setReturnCode 7 0, ()⟩, ⟨.read 2, some [10]⟩]]

/-- The wire after them. -/
def afterOneByte : Wire where
  recv := ((RecvState.init fun _ => 0).fill
    [1, 2, 0, 1, 0, 0, 0, 0, 0, 0, 0, 2, 0, 0, 0, 0]).fill [10]
  stream := 11 :: serverTickle.bytes
  processed := []
  results := [0, 0]
  crashed := false

/-- The next call asks for two bytes again, and gets `bytes`. -/
def restOfBody (bytes : List UInt8) : Trace :=
  [⟨.findRequest 1, some (7, pendingRequest)⟩, ⟨.setReturnCode 7 0, ()⟩, ⟨.read 2, some bytes⟩,
    ⟨.handle (.commandReply 7) (replyOfTwoBytes.bytes.dropLast ++ bytes), ()⟩, ⟨.signal 7, ()⟩]

theorem run_headerAndOneByte :
    Run (Guarded Orderly Call) replyAndTickle headerAndOneByte afterOneByte := by
  refine .cons ⟨by decide, .done (0, _), _, trivial, .act (.refl _), by decide, rfl, rfl⟩
    (.cons ⟨by decide, .done (0, _), _, trivial, .act (.act (.act (.refl _))), by decide, rfl, ?_⟩
      (.nil _))
  rfl

end Dsi
end Afpfs
