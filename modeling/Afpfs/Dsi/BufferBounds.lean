import Afpfs.Dsi.Reassembly
import Mathlib.Algebra.Order.Group.Nat

/-!
# The bounds of the receive buffers

`dsi_recv()` reads into `incoming_buffer`, which has `bufsize` bytes, and copies an attention packet
to `attention_buffer`, which has `attention_quantum` bytes.

Nothing here depends on what the bytes are: a read may return any, and the queue of requests may
give any answer.  `Bounded` is the invariant and `HasRoom` what a call needs to keep it, a condition
on the state before the call and on the request that the packet in the buffer belongs to.

* `bounds_run`: in runs whose calls have room, nothing is stored behind either buffer.
* `enumerate_reply_overruns`: the reply to an FPEnumerateExt2, as long as its request allows, is
  stored past the end of `incoming_buffer`.
-/

set_option autoImplicit false

namespace Afpfs
namespace Dsi

open Interaction Memory Transition

/-- The buffers are intact: what is behind `incoming_buffer` is as it was. -/
structure Bounded (contents : Bytes) (s : RecvState) : Prop where
  bufsize : s.bufsize = 2048
  dataRead : s.dataRead ≤ s.bufsize
  behind : ∀ j, s.bufsize ≤ j → s.incomingBuffer j = contents j
  attention : s.attentionLen ≤ attentionQuantum

/-- A read that succeeds returns between 1 and the requested number of bytes. -/
def Answered : (e : RecvEffect) × e.Answer → Prop
  | ⟨.read n, answer⟩ => ∀ bytes, (answer : Option (List UInt8)) = some bytes →
      0 < bytes.length ∧ bytes.length ≤ n
  | _ => True

theorem Legal.answered {ev : (e : RecvEffect) × e.Answer} (h : Legal ev) : Answered ev := by
  obtain ⟨e, answer⟩ := ev
  cases e with
  | read n =>
    obtain ⟨bytes, rfl, hlen⟩ := h
    intro bytes' hbytes
    exact Option.some.inj hbytes ▸ hlen
  | _ => trivial

/-- What is asked for of the body of a packet fits behind what is in the buffer.  An attention
packet must fit in the attention buffer too. -/
def RoomForBody (s : RecvState) (runt : Bool) : Prop :=
  length s.incomingBuffer = 0 ∨
    s.dataRead + min (length s.incomingBuffer) s.bufsize ≤ s.bufsize ∧
      (command s.incomingBuffer = DSI_DSIAttention → runt = false →
        s.dataRead + min (length s.incomingBuffer) s.bufsize ≤ attentionQuantum)

/-- What is in the buffer can be processed: it is all of a packet, an attention packet fits in the
attention buffer, and a command leaves room for `more` bytes. -/
structure Processable (s : RecvState) (more : ℕ) : Prop where
  whole : command s.incomingBuffer ∈ knownCommands →
    length s.incomingBuffer + headerSize ≤ s.dataRead
  attention : command s.incomingBuffer = DSI_DSIAttention → s.dataRead ≤ attentionQuantum
  again : command s.incomingBuffer = DSI_DSIWrite ∨ command s.incomingBuffer = DSI_DSICommand →
    s.dataRead + more ≤ s.bufsize

/-- There is room for the packet in the buffer, given the request it was found to belong to. -/
def HasRoom (s : RecvState) : Option (Handle × DsiRequest) → Prop
  | none => RoomForBody s (flags s.incomingBuffer == DSI_REPLY)
  | some (_, request) =>
    if request.isRead then
      headerSize < s.dataRead → Processable s.shift
        (request.maxsize - .ofNat (length s.incomingBuffer)).toNat
    else RoomForBody s false

theorem hasRoom_some (s : RecvState) (r : Handle) (request : DsiRequest) :
    HasRoom s (some (r, request)) =
      if request.isRead then
        headerSize < s.dataRead → Processable s.shift
          (request.maxsize - .ofNat (length s.incomingBuffer)).toNat
      else RoomForBody s false := rfl

/-- An effect of a call that begins with a whole header finds a request for which there is room. -/
def Roomy (s : RecvState) : (e : RecvEffect) × e.Answer → Prop
  | ⟨.findRequest _, found⟩ => headerSize ≤ s.dataRead → HasRoom s found
  | _ => True

/-! ## One call -/

variable {contents : Bytes} {s : RecvState} {ok : (e : RecvEffect) × e.Answer → Prop}

/-- The invariant on what a call returns. -/
abbrev Keeps (contents : Bytes) (ok : (e : RecvEffect) × e.Answer → Prop)
    (p : RecvM (ℤ × RecvState)) : Prop :=
  p.Ensures ok fun result => Bounded contents result.2

theorem ensures_perform_iff {α : Type} {e : RecvEffect} {f : e.Answer → RecvM α} {Q : α → Prop} :
    (perform e >>= f).Ensures ok Q ↔ ∀ answer, ok ⟨e, answer⟩ → (f answer).Ensures ok Q := Iff.rfl

theorem ensures_emit_iff {α : Type} {e : RecvEffect} {f : Unit → RecvM α} {Q : α → Prop} :
    (emit e >>= f).Ensures ok Q ↔ ∀ answer, ok ⟨e, answer⟩ → (f ()).Ensures ok Q := Iff.rfl

/-- Storing within the buffer. -/
theorem Bounded.store (h : Bounded contents s) {i d : ℕ} {bytes : List UInt8}
    (hstore : i + bytes.length ≤ s.bufsize) (hd : d ≤ s.bufsize) :
    Bounded contents
      { s with incomingBuffer := Memory.store s.incomingBuffer i bytes, dataRead := d } where
  bufsize := h.bufsize
  dataRead := hd
  behind := fun j hj => by
    dsimp only at hj
    exact (store_of_le _ (by omega)).trans (h.behind j hj)
  attention := h.attention

theorem Bounded.empty (h : Bounded contents s) : Bounded contents { s with dataRead := 0 } :=
  ⟨h.bufsize, Nat.zero_le _, h.behind, h.attention⟩

theorem Bounded.fill (h : Bounded contents s) {bytes : List UInt8}
    (hfits : s.dataRead + bytes.length ≤ s.bufsize) : Bounded contents (s.fill bytes) :=
  h.store hfits hfits

theorem Bounded.shift (h : Bounded contents s) : Bounded contents s.shift := by
  have hle := h.dataRead
  exact h.store (by rw [length_load]; omega) (by omega)

theorem keeps_out (h : Bounded contents s) (found : Option (Handle × DsiRequest)) :
    Keeps contents ok (out s found) := by
  cases found with
  | none => exact h
  | some found => exact fun _ _ => h

theorem toNat_ofNat_sub {a b : ℕ} (hle : b ≤ a) (ha : a < 2 ^ 32) :
    (UInt32.ofNat a - UInt32.ofNat b).toNat = a - b := by
  rw [← UInt32.ofNat_sub hle]
  exact UInt32.toNat_ofNat_of_lt' (Nat.lt_of_le_of_lt (Nat.sub_le a b) ha)

/-- With at least a packet in the buffer, what is behind it is moved to the front. -/
theorem keeps_afterProcessing (h : Bounded contents s)
    (hwhole : length s.incomingBuffer + headerSize ≤ s.dataRead)
    (found : Option (Handle × DsiRequest)) : Keeps contents ok (afterProcessing s found) := by
  have hdataRead := h.dataRead
  have hbufsize := h.bufsize
  have hsmall : s.dataRead < 2 ^ 32 := by omega
  unfold afterProcessing
  dsimp only
  split
  · exact keeps_out h.empty found
  · rw [← UInt32.ofNat_sub hwhole, toNat_ofNat_sub (Nat.sub_le _ _) hsmall,
      UInt32.toNat_ofNat_of_lt' (Nat.lt_of_le_of_lt (Nat.sub_le _ _) hsmall)]
    exact keeps_out (h.store (by rw [length_load]; omega) (by omega)) found

/-- `dsi_command_reply()` may add as many bytes to `data_read` as are missing of the read. -/
theorem ensures_dsiCommandReply (h : Bounded contents s)
    (hwhole : length s.incomingBuffer + headerSize ≤ s.dataRead) (r : Handle)
    {request : DsiRequest}
    (hmore : request.isRead = true →
      s.dataRead + (request.maxsize - request.size).toNat ≤ s.bufsize)
    (hok : ∀ ev, ok ev → Answered ev) :
    (dsiCommandReply s r request).Ensures ok fun s' =>
      Bounded contents s' ∧ length s'.incomingBuffer + headerSize ≤ s'.dataRead := by
  intro _ _
  change Prog.Ensures ok _ (if s.dataRead < headerSize then _ else _)
  split
  · exact ⟨h, hwhole⟩
  split
  · rename_i hisread
    refine ensures_perform_iff.mpr fun answer hanswer => ?_
    cases answer with
    | none => exact ⟨h, hwhole⟩
    | some bytes =>
      obtain ⟨-, hlen⟩ := hok _ hanswer bytes rfl
      have hroom := hmore hisread
      intro _ _
      refine ⟨⟨h.bufsize, ?_, h.behind, h.attention⟩, ?_⟩
      · dsimp only
        omega
      · dsimp only
        omega
  · exact ⟨h, hwhole⟩

theorem keeps_processPacket (h : Bounded contents s) {found : Option (Handle × DsiRequest)}
    {runt : Bool} {more : ℕ} (hpacket : Processable s more)
    (hmore : ∀ r request, found = some (r, request) → request.isRead = true →
      (request.maxsize - request.size).toNat = more) (hok : ∀ ev, ok ev → Answered ev) :
    Keeps contents ok (processPacket s found runt) := by
  obtain ⟨hwhole, hattention, hagain⟩ := hpacket
  have hafter : command s.incomingBuffer ∈ knownCommands →
      Keeps contents ok (afterProcessing s found) :=
    fun hknown => keeps_afterProcessing h (hwhole hknown) found
  unfold processPacket
  dsimp only
  split
  · rename_i hcommand
    exact fun _ _ => hafter (by simp [hcommand, knownCommands])
  split
  · rename_i hcommand
    exact fun _ _ => hafter (by simp [hcommand, knownCommands])
  split
  · rename_i hcommand
    exact fun _ _ => hafter (by simp [hcommand, knownCommands])
  split
  · rename_i hcommand
    exact fun _ _ => hafter (by simp [hcommand, knownCommands])
  split
  · rename_i hcommand
    have hknown : command s.incomingBuffer ∈ knownCommands := by
      rcases hcommand with hcommand | hcommand
      · simp [hcommand, knownCommands]
      · simp [hcommand, knownCommands]
    split
    · exact fun _ _ => hafter hknown
    · cases found with
      | none => exact Prog.ensures_stuck
      | some found =>
        obtain ⟨r, request⟩ := found
        have hroom : request.isRead = true →
            s.dataRead + (request.maxsize - request.size).toNat ≤ s.bufsize := by
          intro hisread
          rw [hmore r request rfl hisread]
          exact hagain hcommand
        exact (ensures_dsiCommandReply h (hwhole hknown) r hroom hok).bind fun s' hs' =>
          keeps_afterProcessing hs'.1 hs'.2 _
  split
  · rename_i hcommand
    intro _ _
    apply keeps_afterProcessing
    · exact ⟨h.bufsize, h.dataRead, h.behind, hattention hcommand⟩
    · exact hwhole (by simp [hcommand, knownCommands])
  · exact h

theorem keeps_readBody (h : Bounded contents s) {found : Option (Handle × DsiRequest)}
    {runt : Bool} (hread : ∀ r request, found = some (r, request) → request.isRead = false)
    (hsize : headerSize ≤ s.dataRead)
    (hroom : RoomForBody s runt) (hok : ∀ ev, ok ev → Answered ev) :
    Keeps contents ok (readBody s found runt) := by
  have hnotread : ∀ r request, found = some (r, request) → request.isRead = true →
      (request.maxsize - request.size).toNat = 0 := fun r request hfound hisread =>
    absurd (hread r request hfound) (Bool.eq_false_iff.not.mpr (not_not.mpr hisread))
  unfold readBody
  split
  · rename_i hempty
    refine keeps_processPacket h ⟨fun _ => ?_, fun _ => ?_, fun _ => h.dataRead⟩ hnotread hok
    · omega
    · rw [hempty.1]
      decide
  · rename_i hmore
    refine ensures_perform_iff.mpr fun answer hanswer => ?_
    cases answer with
    | none => exact h
    | some bytes =>
      obtain ⟨hpos, hlen⟩ := hok _ hanswer bytes rfl
      obtain hempty | ⟨hfits, hattention⟩ := hroom
      · -- nothing is asked for, so nothing comes
        omega
      have hnow : (s.fill bytes).dataRead = s.dataRead + bytes.length := rfl
      have hlength : length (s.fill bytes).incomingBuffer = length s.incomingBuffer ∧
          command (s.fill bytes).incomingBuffer = command s.incomingBuffer := by
        obtain ⟨-, hcommand, -, -, hlength⟩ := @header_congr (s.fill bytes).incomingBuffer
          s.incomingBuffer fun j hj => store_of_lt _ _ (Nat.lt_of_lt_of_le hj hsize)
        exact ⟨hlength, hcommand⟩
      have hfilled : Bounded contents (s.fill bytes) := h.fill (by omega)
      dsimp only
      split
      · exact hfilled
      · rename_i hfull
        have hwhole : length (s.fill bytes).incomingBuffer + headerSize ≤
            (s.fill bytes).dataRead := by omega
        split
        · exact fun _ _ => keeps_afterProcessing hfilled hwhole found
        · rename_i hrunt
          refine keeps_processPacket hfilled
            ⟨fun _ => hwhole, fun hcommand => ?_, fun _ => hfilled.dataRead⟩ hnotread hok
          have hsmall := hattention (hlength.2 ▸ hcommand) (Bool.eq_false_iff.mpr hrunt)
          omega

theorem keeps_readReply (h : Bounded contents s) (r : Handle) {request : DsiRequest}
    (hsize : headerSize ≤ s.dataRead)
    (hroom : headerSize < s.dataRead → Processable s.shift
      (request.maxsize - .ofNat (length s.incomingBuffer)).toNat)
    (hok : ∀ ev, ok ev → Answered ev) :
    Keeps contents ok (readReply s r request) := by
  unfold readReply
  split
  · exact keeps_out h.empty _
  split
  · exact h
  refine ensures_perform_iff.mpr fun answer hanswer => ?_
  cases answer with
  | none => exact h
  | some bytes =>
    refine ensures_emit_iff.mpr fun _ _ => ?_
    dsimp only
    split
    · rename_i hcomplete
      split
      · exact keeps_out h.empty _
      · rename_i hbehind
        refine keeps_processPacket h.shift (hroom (by omega)) ?_ hok
        intro r' request' hfound _
        obtain ⟨rfl, rfl⟩ := Prod.mk.inj (Option.some.inj hfound)
        rw [hcomplete]
    · exact h

theorem keeps_gotenough (h : Bounded contents s) (hsize : headerSize ≤ s.dataRead)
    (hroom : ∀ found, ok ⟨.findRequest (requestid s.incomingBuffer), found⟩ → HasRoom s found)
    (hok : ∀ ev, ok ev → Answered ev) : Keeps contents ok (gotenough s) := by
  refine ensures_perform_iff.mpr fun found hfound => ?_
  have hroom := hroom found hfound
  cases found with
  | none =>
    exact keeps_readBody h (fun _ _ hnone => nomatch hnone) hsize hroom hok
  | some found =>
    obtain ⟨r, request⟩ := found
    refine ensures_emit_iff.mpr fun _ _ => ?_
    rw [hasRoom_some] at hroom
    split
    · rename_i hisread
      rw [if_pos hisread] at hroom
      exact keeps_readReply h r hsize hroom hok
    · rename_i hnotread
      rw [if_neg hnotread] at hroom
      refine keeps_readBody h (fun _ _ hfound => ?_) hsize hroom hok
      rw [← (Prod.mk.inj (Option.some.inj hfound)).2]
      exact Bool.eq_false_iff.mpr hnotread

/-- **A call keeps the bounds** when there is room for the packet in the buffer. -/
theorem keeps_dsiRecv (h : Bounded contents s) :
    Keeps contents (fun ev => Answered ev ∧ Roomy s ev) (dsiRecv s) := by
  unfold dsiRecv
  split
  · rename_i hheader
    refine ensures_perform_iff.mpr fun answer hanswer => ?_
    cases answer with
    | none => exact h
    | some bytes =>
      obtain ⟨-, hlen⟩ := hanswer.1 bytes rfl
      have hnow : (s.fill bytes).dataRead = s.dataRead + bytes.length := rfl
      have hbufsize := h.bufsize
      have hheadersize : headerSize = 16 := rfl
      have hfilled : Bounded contents (s.fill bytes) := h.fill (by omega)
      dsimp only
      split
      · rename_i hempty
        refine keeps_gotenough hfilled (by omega) (fun found _ => ?_) fun ev hev => hev.1
        -- nothing is left to read of a header alone
        cases found with
        | none => exact .inl hempty.2
        | some found =>
          rw [hasRoom_some]
          split
          · exact fun hmore => absurd hempty.1 (Nat.ne_of_gt hmore)
          · exact .inl hempty.2
      · exact hfilled
  · rename_i hheader
    exact keeps_gotenough h (by omega) (fun found hfound => hfound.2 (by omega)) fun ev hev => hev.1

/-! ## Runs -/

/-- One call of `dsi_recv()` that returns. -/
def Recv (s : RecvState) (tr : Trace) (s' : RecvState) : Prop :=
  ∃ ret, Prog.Steps (dsiRecv s) tr (.done (ret, s')) ∧ ∀ ev ∈ tr, Answered ev

/-- The condition on a call. -/
def AllRoomy (s : RecvState) (tr : Trace) : Prop := ∀ ev ∈ tr, Roomy s ev

theorem bounded_init (contents : Bytes) : Bounded contents (.init contents) where
  bufsize := rfl
  dataRead := Nat.zero_le _
  behind := fun _ _ => rfl
  attention := Nat.zero_le _

theorem step_bounded {s' : RecvState} {tr : Trace} (hstep : Guarded AllRoomy Recv s tr s')
    (h : Bounded contents s) : Bounded contents s' := by
  obtain ⟨hroomy, ret, hsteps, hanswered⟩ := hstep
  exact (keeps_dsiRecv h).steps hsteps fun ev hev => ⟨hanswered ev hev, hroomy ev hev⟩

/-- **The buffers keep their bounds** in every run of calls that have room. -/
theorem bounds_run {trs : List Trace} (hrun : Run (Guarded AllRoomy Recv) (.init contents) trs s) :
    Bounded contents s :=
  hrun.invariant (Bounded contents) (fun _ _ _ => step_bounded) (bounded_init contents)

/-- An answer of the queue when there is room for the packet. -/
theorem roomy_of_roomForBody {id : UInt16} {r : Handle} {request : DsiRequest}
    (hread : request.isRead = false) (hroom : RoomForBody s false) :
    Roomy s ⟨.findRequest id, some (r, request)⟩ := by
  intro _
  rw [hasRoom_some, hread, if_neg Bool.false_ne_true]
  exact hroom

/-- The reply of two bytes, read in two parts. -/
theorem bounds_run_of_two_bytes : ∃ s, s.packet = [] ∧ Bounded (fun _ => 0) s := by
  have hrun : ∃ s, s.packet = [] ∧ Run (Guarded AllRoomy Recv) (.init fun _ => 0)
      (headerAndOneByte ++ [restOfBody [11]]) s := by
    have hlegal : ∀ tr ∈ headerAndOneByte ++ [restOfBody [11]], ∀ ev ∈ tr, Legal ev := by decide
    have hanswered : ∀ tr ∈ headerAndOneByte ++ [restOfBody [11]], ∀ ev ∈ tr, Answered ev :=
      fun tr htr ev hev => (hlegal tr htr ev hev).answered
    refine ⟨_, rfl, .cons ⟨?_, 0, .act (.refl _), hanswered _ (by simp [headerAndOneByte])⟩ (.cons
      ⟨?_, 0, .act (.act (.act (.refl _))), hanswered _ (by simp [headerAndOneByte])⟩ (.cons
        ⟨?_, 0, .act (.act (.act (.act (.act (.refl _))))), hanswered _ (by simp)⟩ (.nil _)))⟩
    · exact List.forall_mem_singleton.mpr trivial
    · refine List.forall_mem_cons.mpr ⟨?_, List.forall_mem_cons.mpr ⟨trivial, ?_⟩⟩
      · exact roomy_of_roomForBody rfl (.inr ⟨by decide, fun h => absurd h (by decide)⟩)
      · exact List.forall_mem_singleton.mpr trivial
    · refine List.forall_mem_cons.mpr ⟨?_, List.forall_mem_cons.mpr ⟨trivial, ?_⟩⟩
      · exact roomy_of_roomForBody rfl (.inr ⟨by decide, fun h => absurd h (by decide)⟩)
      · exact List.forall_mem_cons.mpr
          ⟨trivial, List.forall_mem_cons.mpr ⟨trivial, List.forall_mem_singleton.mpr trivial⟩⟩
  obtain ⟨s, hpacket, hrun⟩ := hrun
  exact ⟨s, hpacket, bounds_run hrun⟩

/-! ## The reply to an FPEnumerateExt2 -/

/-- The header of a reply with a body of 5280 bytes. -/
def enumerateHeader : List UInt8 := [1, 2, 0, 1, 0, 0, 0, 0, 0, 0, 0x14, 0xA0, 0, 0, 0, 0]

/-- The reply, as long as the request allows. -/
def enumerateReply : Packet where
  bytes := enumerateHeader ++ List.replicate 5280 0
  size_eq := by
    rw [List.length_append, List.length_replicate]
    rfl
  known := by decide
  reply := by decide

/-- The request, an FPEnumerateExt2. -/
def enumerateRequest : DsiRequest where
  requestid := 1
  subcommand := 68
  wait := true
  maxsize := 0
  size := 0

/-- The buffer with this header. -/
def headerRead : RecvState := (RecvState.init fun _ => 0).fill enumerateHeader

/-- Two calls: the header, and as much of the body as is asked for. -/
def headerAndBufsize : List Trace :=
  [[⟨.read 16, some enumerateHeader⟩],
    [⟨.findRequest (requestid headerRead.incomingBuffer), some (7, enumerateRequest)⟩,
      ⟨.setReturnCode 7 (returnCode headerRead.incomingBuffer), ()⟩,
      ⟨.read (min (length headerRead.incomingBuffer) headerRead.bufsize),
        some (List.replicate 2048 0)⟩]]

/-- A call that finds the request of the packet reads its body. -/
theorem steps_of_readBody {r : Handle} {request : DsiRequest} {tr : Trace}
    {q : RecvM (ℤ × RecvState)} (hsize : headerSize ≤ s.dataRead) (hread : request.isRead = false)
    (h : Prog.Steps (readBody s (some (r, request)) false) tr q) :
    Prog.Steps (dsiRecv s) (⟨.findRequest (requestid s.incomingBuffer), some (r, request)⟩ ::
      ⟨.setReturnCode r (returnCode s.incomingBuffer), ()⟩ :: tr) q := by
  rw [dsiRecv, if_neg (Nat.not_lt.mpr hsize)]
  refine .act (.act ?_)
  change Prog.Steps (if request.isRead then _ else readBody s (some (r, request)) false) tr q
  rw [hread, if_neg Bool.false_ne_true]
  exact h

/-- A read that does not complete the body. -/
theorem steps_readBody_partly {found : Option (Handle × DsiRequest)} {runt : Bool}
    {bytes : List UInt8} (hbody : length s.incomingBuffer ≠ 0)
    (hless : (s.fill bytes).dataRead < length (s.fill bytes).incomingBuffer + headerSize) :
    Prog.Steps (readBody s found runt)
      [⟨.read (min (length s.incomingBuffer) s.bufsize), some bytes⟩] (.done (0, s.fill bytes)) := by
  rw [readBody, if_neg fun hempty => hbody hempty.2]
  refine .act ?_
  change Prog.Steps (if (s.fill bytes).dataRead < length (s.fill bytes).incomingBuffer + headerSize
    then .done (0, s.fill bytes) else _) [] _
  rw [if_pos hless]
  exact .refl _

/-- **A reply that is longer than the buffer overruns it.**  `min(length, bufsize)` bytes are read
behind the header, which needs room for 16 more. -/
theorem enumerate_reply_overruns :
    ¬ ∀ (packets : List Packet) (contents : Bytes) (trs : List Trace) (s : RecvState),
      Run Recv (.init contents) trs s → trs.flatten.flatMap taken <+: streamOf packets →
      Bounded contents s := by
  intro hclaim
  have hdata : (headerRead.fill (List.replicate 2048 0)).dataRead = 2064 := by
    rw [dataRead_fill, List.length_replicate]
    rfl
  have hlength : length (headerRead.fill (List.replicate 2048 0)).incomingBuffer = 5280 := by
    decide
  have hless : (headerRead.fill (List.replicate 2048 0)).dataRead <
      length (headerRead.fill (List.replicate 2048 0)).incomingBuffer + headerSize := by
    rw [hdata, hlength]
    decide
  have hrun : Run Recv (.init fun _ => 0) headerAndBufsize
      (headerRead.fill (List.replicate 2048 0)) := by
    refine .cons ⟨0, .act (.refl _), ?_⟩ (.cons ⟨0, steps_of_readBody (by decide) rfl
      (steps_readBody_partly (by decide) hless), ?_⟩ (.nil _))
    · exact List.forall_mem_singleton.mpr (Legal.answered (by decide))
    · refine List.forall_mem_cons.mpr ⟨trivial, List.forall_mem_cons.mpr ⟨trivial, ?_⟩⟩
      refine List.forall_mem_singleton.mpr (Legal.answered ⟨_, rfl, ?_⟩)
      rw [List.length_replicate]
      decide
  have hbounded := hclaim [enumerateReply] _ _ _ hrun ?_
  · have hle := hbounded.dataRead
    rw [hdata] at hle
    exact absurd hle (by decide)
  · refine ⟨List.replicate 3232 0, ?_⟩
    have htaken : headerAndBufsize.flatten.flatMap taken =
        enumerateHeader ++ List.replicate 2048 0 := by
      simp only [headerAndBufsize, List.flatten_cons, List.flatten_nil, List.flatMap_cons,
        List.flatMap_append, List.flatMap_nil, taken, Option.getD_some, List.append_nil,
        List.nil_append]
    rw [htaken, streamOf, List.flatMap_singleton, List.append_assoc, List.replicate_append_replicate]
    rfl

end Dsi
end Afpfs
