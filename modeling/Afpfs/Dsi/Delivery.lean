import Afpfs.Dsi.Reassembly

/-!
# The reply to a read

The payload of the reply to an afpRead does not go through `incoming_buffer`: `dsi_recv()` reads it
into the buffer of the request, which counts in `size` how much of it is there.  The header stays in
`incoming_buffer` until the payload is complete, and the request is looked up again in each call.

What the receiving side is like after `k` bytes of the reply does not depend on how they came:
`Partway k` says what it is.  A call takes it to a later `Partway`, or to the end.

* `newmax_eq`: what is asked for is what is missing of the payload, as long as that is an `int`.
* `call_partway`: one call.
* `delivered`: the payload is delivered, however the stream is split.
-/

set_option autoImplicit false

namespace Afpfs
namespace Dsi
namespace Delivery

open Interaction Memory

/-! ## The receiving side -/

/-- The receiving side with a pending read: the stream, the request, the memory that its buffer points
to, what was done to it, and the results of the calls. -/
structure Receiver where
  recv : RecvState
  stream : List UInt8
  request : DsiRequest
  data : Bytes
  returnCode : UInt32
  completed : List Handle
  results : List ℤ
  reads : ℕ

/-- What an effect does, and its answer.  The `i`-th read finds `splits i + 1` bytes at most, and `r` is
the address of the request. -/
def perform (splits : ℕ → ℕ) (r : Handle) (w : Receiver) : (e : RecvEffect) → e.Answer × Receiver
  | .read n =>
    let bytes := w.stream.take (min n (splits w.reads + 1))
    (if bytes = [] then none else some bytes,
      { w with stream := w.stream.drop bytes.length, reads := w.reads + 1 })
  | .findRequest id => (if id = w.request.requestid then some (r, w.request) else none, w)
  | .setReturnCode r' code => ((), if r' = r then { w with returnCode := code } else w)
  | .fillBuffer r' bytes => ((),
    if r' = r then { w with
      data := store w.data w.request.size.toNat bytes
      request := { w.request with size := w.request.size + .ofNat bytes.length } }
    else w)
  | .signal r' => ((), { w with completed := w.completed ++ [r'] })
  | .remove r' => ((), { w with completed := w.completed ++ [r'] })
  | .handle _ _ => ((), w)
  | .drop _ => ((), w)

/-- One call of `dsi_recv()`. -/
def call (splits : ℕ → ℕ) (r : Handle) (w : Receiver) : Option Receiver :=
  (Prog.exec (perform splits r) (dsiRecv w.recv) w).map fun res =>
    { res.2 with recv := res.1.2, results := res.2.results ++ [res.1.1] }

/-- Some calls. -/
def calls (splits : ℕ → ℕ) (r : Handle) : ℕ → Receiver → Option Receiver
  | 0, w => some w
  | m + 1, w => (call splits r w).bind (calls splits r m)

/-! ## What is expected -/

/-- A read is pending, nothing of its reply has been read, and the stream begins with it. -/
structure Pending (header payload later : List UInt8) (w : Receiver) : Prop where
  headerLength : header.length = headerSize
  requestid : requestid (ofBytes header) = w.request.requestid
  payloadLength : length (ofBytes header) = payload.length
  isRead : w.request.isRead = true
  size : w.request.size = 0
  dataRead : w.recv.dataRead = 0
  stream : w.stream = header ++ (payload ++ later)
  completed : w.completed = []
  results : w.results = []

/-- The reply has been delivered: the buffer has the payload and is otherwise as it was before, and
nothing behind the reply has been read. -/
structure Delivered (r : Handle) (header payload later : List UInt8) (before w : Receiver) : Prop where
  data : w.data = store before.data 0 payload
  size : w.request.size.toNat = payload.length
  returnCode : w.returnCode = returnCode (ofBytes header)
  completed : w.completed = [r]
  dataRead : w.recv.dataRead = 0
  stream : w.stream = later
  results : ∀ ret ∈ w.results, ret = 0

/-! ## What is asked for -/

section

variable {splits : ℕ → ℕ} {r : Handle} {header payload later : List UInt8} {before w : Receiver}

/-- **What is asked for** is what is missing of the payload, if that is an `int`. -/
theorem newmax_eq {request : DsiRequest} {n : ℕ} (hsize : request.size.toNat ≤ n)
    (hmax : n ≤ request.maxsize.toNat) (hint : n < 0x80000000) :
    newmax request (.ofNat n) = n - request.size.toNat := by
  have hn : (UInt32.ofNat n).toNat = n := UInt32.toNat_ofNat_of_lt' (Nat.lt_trans hint (by decide))
  have hlength : (UInt32.ofNat n - request.size).toNat = n - request.size.toNat := by
    rw [UInt32.toNat_sub_of_le _ _ (by rwa [UInt32.le_iff_toNat_le, hn]), hn]
  have hroom : (request.maxsize - request.size).toNat =
      request.maxsize.toNat - request.size.toNat :=
    UInt32.toNat_sub_of_le _ _ (UInt32.le_iff_toNat_le.mpr (Nat.le_trans hsize hmax))
  have hwiden : ∀ x : UInt32, x.toNat < 0x80000000 →
      x.toInt32.toInt64.toUInt64.toNat = x.toNat := by
    intro x hx
    have hmsb : x.toBitVec.msb = false := by
      rw [BitVec.msb_eq_decide]
      simpa using hx
    show (x.toBitVec.signExtend 64).toNat = x.toNat
    rw [BitVec.toNat_signExtend, hmsb]
    simp
  have hleft : (if UInt32.ofNat n - request.size < request.maxsize - request.size then
      UInt32.ofNat n - request.size else request.maxsize - request.size).toNat =
      n - request.size.toNat := by
    split
    next => exact hlength
    next h =>
      rw [UInt32.lt_iff_toNat_lt, hlength, hroom] at h
      rw [hroom]
      omega
  show UInt64.toNat (Int64.toUInt64 (Int32.toInt64 (UInt32.toInt32 (ite ..)))) = _
  rw [hwiden _ (by rw [hleft]; omega), hleft]

/-! ## One call -/

theorem exec_emit_bind {β : Type} (e : RecvEffect) (f : Unit → RecvM β) (w : Receiver) :
    Prog.exec (perform splits r) (emit e >>= f) w =
      Prog.exec (perform splits r) (f ()) (perform splits r w e).2 := rfl

theorem perform_fillBuffer (splits : ℕ → ℕ) (r : Handle) (bytes : List UInt8) (w : Receiver) :
    (perform splits r w (.fillBuffer r bytes)).2 = { w with
      data := store w.data w.request.size.toNat bytes
      request := { w.request with size := w.request.size + .ofNat bytes.length } } :=
  if_pos rfl

/-- A read returns something, as long as there is something on the stream. -/
theorem exec_read_bind (splits : ℕ → ℕ) (r : Handle) (w : Receiver) {n : ℕ} (hn : 0 < n)
    (hstream : w.stream ≠ []) :
    ∃ j, 0 < j ∧ j ≤ n ∧ j ≤ w.stream.length ∧ ∀ {β : Type} (f : Option (List UInt8) → RecvM β),
      Prog.exec (perform splits r) (read n >>= f) w =
        Prog.exec (perform splits r) (f (some (w.stream.take j)))
          { w with stream := w.stream.drop j, reads := w.reads + 1 } := by
  have hpos : 0 < w.stream.length := List.length_pos_of_ne_nil hstream
  obtain ⟨j, hj⟩ : ∃ j, j = min (min n (splits w.reads + 1)) w.stream.length := ⟨_, rfl⟩
  have htake : w.stream.take (min n (splits w.reads + 1)) = w.stream.take j := by
    rw [hj, ← List.take_eq_take_min]
  have hlength : (w.stream.take j).length = j := by
    rw [List.length_take]
    omega
  refine ⟨j, by omega, by omega, by omega, fun f => ?_⟩
  show Prog.exec _ (f (if w.stream.take (min n (splits w.reads + 1)) = [] then none else
    some (w.stream.take (min n (splits w.reads + 1))))) { w with
      stream := w.stream.drop (w.stream.take (min n (splits w.reads + 1))).length
      reads := w.reads + 1 } = _
  rw [htake, if_neg (List.ne_nil_of_length_pos (by omega)), hlength]

/-- What the receiving side is like after `k` bytes of the reply. -/
structure Partway (header payload later : List UInt8) (before : Receiver) (k : ℕ) (w : Receiver) :
    Prop where
  recv : w.recv = { before.recv with
    incomingBuffer := store before.recv.incomingBuffer 0 (header.take k)
    dataRead := min k headerSize }
  stream : w.stream = (header ++ (payload ++ later)).drop k
  request : w.request = { before.request with size := .ofNat (k - headerSize) }
  data : w.data = store before.data 0 (payload.take (k - headerSize))
  completed : w.completed = []
  results : ∀ ret ∈ w.results, ret = 0

theorem store_nil {β : Type} (m : ℕ → β) (i : ℕ) : store m i [] = m := by
  funext j
  rw [store]
  split <;> rfl

theorem Pending.partway (h : Pending header payload later before) :
    Partway header payload later before 0 before where
  recv := by rw [List.take_zero, store_nil, Nat.zero_min, ← h.dataRead]
  stream := h.stream
  request := by rw [Nat.zero_sub, show UInt32.ofNat 0 = before.request.size from h.size.symm]
  data := by rw [Nat.zero_sub, List.take_zero, store_nil]
  completed := h.completed
  results := by
    rw [h.results]
    exact fun ret hret => absurd hret List.not_mem_nil

/-- With the header in the buffer, its fields are known. -/
theorem header_of_store (h : header.length = headerSize) (s : RecvState) {n : ℕ}
    (hs : s.incomingBuffer = store before.recv.incomingBuffer 0 (header.take n)) (hn : headerSize ≤ n)
    (hdata : s.dataRead = headerSize) :
    requestid s.incomingBuffer = requestid (ofBytes header) ∧
      returnCode s.incomingBuffer = returnCode (ofBytes header) ∧
      length s.incomingBuffer = length (ofBytes header) := by
  have hpacket : s.packet = header := by
    rw [RecvState.packet, hs, hdata, List.take_of_length_le (h ▸ hn), ← h, load_store]
  exact ( header_of_prefix (hpacket ▸ List.prefix_rfl) (Nat.le_of_eq hdata.symm)).2.2

/-- The request that is looked up is the pending one, its return code is set, and it is a read. -/
theorem exec_gotenough (splits : ℕ → ℕ) (r : Handle) (w : Receiver)
    (h : Pending header payload later before) {s : RecvState}
    (hid : requestid s.incomingBuffer = requestid (ofBytes header))
    (hcode : returnCode s.incomingBuffer = returnCode (ofBytes header)) {size : UInt32}
    (hw : w.request = { before.request with size := size }) :
    Prog.exec (perform splits r) (gotenough s) w =
      Prog.exec (perform splits r) (readReply s r w.request)
        { w with returnCode := returnCode (ofBytes header) } := by
  have hread : w.request.isRead = true := by
    rw [hw]
    exact h.isRead
  have hfind : Prog.exec (perform splits r) (findRequest (requestid s.incomingBuffer)) w =
      some (some (r, w.request), w) := by
    have hsame : requestid s.incomingBuffer = w.request.requestid := by rw [hid, h.requestid, hw]
    show some ((if requestid s.incomingBuffer = w.request.requestid then some (r, w.request)
      else none), w) = _
    rw [if_pos hsame]
  rw [gotenough, Prog.exec_bind_of hfind]
  show Prog.exec _ (if w.request.isRead = true then _ else _) (perform splits r w _).2 = _
  rw [if_pos hread, hcode]
  show Prog.exec _ _ (if r = r then _ else _) = _
  rw [if_pos rfl]

/-- At `out` the request is signalled or taken off the queue. -/
theorem exec_out (s : RecvState) (request : DsiRequest) (w : Receiver) :
    Prog.exec (perform splits r) (out s (some (r, request))) w =
      some ((0, s), { w with completed := w.completed ++ [r] }) := by
  cases hwait : request.wait with
  | true => simp only [out, hwait, if_true]; rfl
  | false => simp only [out, hwait, Bool.false_eq_true, if_false]; rfl

/-- What a call leads to from the state after `k` bytes. -/
def Advances (splits : ℕ → ℕ) (r : Handle) (header payload later : List UInt8) (before : Receiver)
    (k : ℕ) (w : Receiver) : Prop :=
  ∃ j w', 0 < j ∧ call splits r w = some w' ∧
    (k + j < headerSize + payload.length ∧ Partway header payload later before (k + j) w' ∨
      k + j = headerSize + payload.length ∧ Delivered r header payload later before w')

/-- A call that reads a part of the header. -/
theorem Partway.advances_header (splits : ℕ → ℕ) (r : Handle)
    (hpending : Pending header payload later before) {k : ℕ} (h : Partway header payload later before k w) (hk : k < headerSize) :
    ∃ j w', 0 < j ∧ k + j ≤ headerSize ∧ call splits r w = some w' ∧
      (k + j < headerSize + payload.length ∧ Partway header payload later before (k + j) w' ∨
        k + j = headerSize + payload.length ∧ Delivered r header payload later before w') := by
  have hdata : w.recv.dataRead = k := by
    rw [h.recv]
    exact Nat.min_eq_left (Nat.le_of_lt hk)
  have hdrop : (header ++ (payload ++ later)).drop k = header.drop k ++ (payload ++ later) :=
    List.drop_append_of_le_length (by rw [hpending.headerLength]; omega)
  have hleft : (header.drop k).length = headerSize - k := by
    rw [List.length_drop, hpending.headerLength]
  have hstream : w.stream ≠ [] := by
    rw [h.stream, hdrop]
    exact List.append_ne_nil_of_left_ne_nil (List.ne_nil_of_length_pos (by omega)) _
  obtain ⟨j, hpos, hle, -, hexec⟩ :=
    exec_read_bind splits r w (Nat.sub_pos_of_lt hk) hstream
  have hbytes : w.stream.take j = (header.drop k).take j := by
    rw [h.stream, hdrop, List.take_append_of_le_length (by omega)]
  have hrest : w.stream.drop j = (header ++ (payload ++ later)).drop (k + j) := by
    rw [h.stream, List.drop_drop]
  have hfill : w.recv.fill (w.stream.take j) = { before.recv with
      incomingBuffer := store before.recv.incomingBuffer 0 (header.take (k + j))
      dataRead := k + j } := by
    have hlength : ((header.drop k).take j).length = j := by
      rw [List.length_take]
      omega
    have htake : (header.take k).length = k := by
      rw [List.length_take, hpending.headerLength]
      omega
    have hstore := store_store before.recv.incomingBuffer 0 (header.take k) ((header.drop k).take j)
    rw [Nat.zero_add, htake, ← List.take_add] at hstore
    rw [RecvState.fill, hbytes, hlength, hdata, h.recv, hstore]
  obtain ⟨s, hs⟩ : ∃ s, s = w.recv.fill (w.stream.take j) := ⟨_, rfl⟩
  rw [← hs] at hfill
  have hsdata : s.dataRead = k + j := by rw [hfill]
  have hsbuffer : s.incomingBuffer =
      store before.recv.incomingBuffer 0 (header.take (k + j)) := by rw [hfill]
  rw [call, dsiRecv, hdata, if_pos hk, hexec]
  simp only [← hs]
  by_cases hend : s.dataRead = headerSize ∧ length s.incomingBuffer = 0
  · -- the reply has no payload
    obtain ⟨hid, hcode, hlength⟩ :=
      header_of_store hpending.headerLength s hsbuffer (by omega) hend.1
    have hnil : payload = [] := List.eq_nil_of_length_eq_zero (by
      rw [← hpending.payloadLength, ← hlength, hend.2])
    have hzero : k - headerSize = 0 := by omega
    have hfound := exec_gotenough splits r
      { w with stream := w.stream.drop j, reads := w.reads + 1 } hpending hid hcode h.request
    rw [if_pos hend, hfound, readReply, if_pos hend, exec_out]
    refine ⟨j, _, hpos, by omega, rfl, .inr ⟨by rw [hnil, ← hsdata, hend.1]; rfl, ?_⟩⟩
    refine ⟨?_, ?_, rfl, ?_, rfl, ?_, ?_⟩
    · show w.data = _
      rw [h.data, hnil, List.take_nil]
    · show w.request.size.toNat = _
      rw [h.request, hzero, hnil]
      rfl
    · show w.completed ++ [r] = _
      rw [h.completed, List.nil_append]
    · show w.stream.drop j = _
      rw [hrest, ← hsdata, hend.1, hnil, ← hpending.headerLength, List.drop_left]
      rfl
    · intro ret hret
      rcases List.mem_append.mp hret with hret | hret
      · exact h.results ret hret
      · exact List.mem_singleton.mp hret
  · have hmore : k + j < headerSize + payload.length := by
      by_contra hge
      refine hend ⟨by omega, ?_⟩
      have hlength := (header_of_store hpending.headerLength s hsbuffer (by omega) (by omega)).2.2
      rw [hlength, hpending.payloadLength]
      omega
    rw [if_neg hend]
    refine ⟨j, _, hpos, by omega, rfl, .inl ⟨hmore, ?_⟩⟩
    have hzero : k + j - headerSize = k - headerSize := by omega
    refine ⟨?_, hrest, ?_, ?_, h.completed, ?_⟩
    · show s = _
      rw [hfill, Nat.min_eq_left (by omega)]
    · rw [hzero]
      exact h.request
    · rw [hzero]
      exact h.data
    · intro ret hret
      rcases List.mem_append.mp hret with hret | hret
      · exact h.results ret hret
      · exact List.mem_singleton.mp hret

/-- A call that reads a part of the payload. -/
theorem Partway.advances_payload (splits : ℕ → ℕ) (r : Handle)
    (hpending : Pending header payload later before)
    (hfits : payload.length ≤ before.request.maxsize.toNat) (hint : payload.length < 0x80000000)
    {i : ℕ} (h : Partway header payload later before (headerSize + i) w) (hi : i < payload.length) :
    Advances splits r header payload later before (headerSize + i) w := by
  have hdata : w.recv.dataRead = headerSize := by
    rw [h.recv]
    exact Nat.min_eq_right (Nat.le_add_right _ _)
  have hbuffer : w.recv.incomingBuffer =
      store before.recv.incomingBuffer 0 (header.take (headerSize + i)) := by rw [h.recv]
  obtain ⟨hid, hcode, hlength⟩ :=
    header_of_store hpending.headerLength w.recv hbuffer (Nat.le_add_right headerSize i) hdata
  have hle : i ≤ payload.length := Nat.le_of_lt hi
  have hstream : w.stream = payload.drop i ++ later := by
    rw [h.stream, ← hpending.headerLength, ← List.drop_drop, List.drop_left,
      List.drop_append_of_le_length hle]
  have hrequest : w.request = { before.request with size := .ofNat i } := by
    rw [h.request, Nat.add_sub_cancel_left]
  have hsize : w.request.size.toNat = i := by
    rw [hrequest]
    exact UInt32.toNat_ofNat_of_lt' (Nat.lt_trans hi (Nat.lt_trans hint (by decide)))
  have hmax : w.request.maxsize = before.request.maxsize := by rw [hrequest]
  have hwant : newmax w.request (.ofNat (length w.recv.incomingBuffer)) = payload.length - i := by
    rw [hlength, hpending.payloadLength,
      newmax_eq (hsize ▸ hle) (by rwa [hmax]) hint, hsize]
  have hdrop : (payload.drop i).length = payload.length - i := List.length_drop
  obtain ⟨j, hpos, hwanted, -, hexec⟩ := exec_read_bind splits r
    { w with returnCode := returnCode (ofBytes header) } (Nat.sub_pos_of_lt hi)
    (by
      rw [hstream]
      exact List.append_ne_nil_of_left_ne_nil (List.ne_nil_of_length_pos (by omega)) _)
  -- the receiving side after the read
  obtain ⟨v, hv⟩ : ∃ v : Receiver, v = { w with
      returnCode := returnCode (ofBytes header)
      stream := w.stream.drop j
      reads := w.reads + 1 } := ⟨_, rfl⟩
  simp only [← hv] at hexec
  have hbytes : w.stream.take j = (payload.drop i).take j := by
    rw [hstream, List.take_append_of_le_length (by omega)]
  have hj : ((payload.drop i).take j).length = j := by
    rw [List.length_take]
    omega
  have hrest : w.stream.drop j = (header ++ (payload ++ later)).drop (headerSize + i + j) := by
    rw [h.stream, List.drop_drop]
  have hstored : store w.data i (w.stream.take j) = store before.data 0 (payload.take (i + j)) := by
    have htake : (payload.take i).length = i := by
      rw [List.length_take]
      omega
    have hstore := store_store before.data 0 (payload.take i) ((payload.drop i).take j)
    rw [Nat.zero_add, htake, ← List.take_add] at hstore
    rw [h.data, Nat.add_sub_cancel_left, hbytes, hstore]
  have hcount : w.request.size + .ofNat j = UInt32.ofNat (i + j) := by
    rw [hrequest]
    exact (UInt32.ofNat_add i j).symm
  have hmore : ¬ (w.recv.dataRead = headerSize ∧ length w.recv.incomingBuffer = 0) := by
    rw [hlength, hpending.payloadLength]
    omega
  have hroom : ¬ w.request.maxsize = 0 := by
    intro hzero
    rw [← hmax, hzero] at hfits
    exact absurd (Nat.lt_of_lt_of_le hi hfits) (Nat.not_lt_zero i)
  have hnext : store v.data v.request.size.toNat ((payload.drop i).take j) =
      store before.data 0 (payload.take (i + j)) := by rw [hv, ← hbytes, hsize, hstored]
  have hresults : ∀ ret ∈ w.results ++ [0], ret = 0 := by
    intro ret hret
    rcases List.mem_append.mp hret with hret | hret
    · exact h.results ret hret
    · exact List.mem_singleton.mp hret
  rw [Advances, call, dsiRecv, if_neg (Nat.not_lt.mpr (Nat.le_of_eq hdata.symm)),
    exec_gotenough splits r w hpending hid hcode hrequest, readReply, if_neg hmore, if_neg hroom,
    hwant, hexec]
  simp only []
  rw [exec_emit_bind, perform_fillBuffer, hlength, hpending.payloadLength, hbytes, hj, hcount,
    if_pos hdata]
  have hwide : payload.length < 4294967296 := Nat.lt_trans hint (by decide)
  by_cases hend : i + j = payload.length
  · -- the payload is complete
    rw [if_pos (by rw [hend]), exec_out]
    refine ⟨j, _, hpos, rfl, .inr ⟨by omega, hnext.trans ?_, ?_, ?_, ?_, rfl, ?_, ?_⟩⟩
    · rw [hend, List.take_length]
    · show (v.request.size + .ofNat j).toNat = payload.length
      rw [hv]
      show (w.request.size + .ofNat j).toNat = payload.length
      rw [hcount, hend, UInt32.toNat_ofNat_of_lt' hwide]
    · show v.returnCode = _
      rw [hv]
    · show v.completed ++ [r] = [r]
      rw [hv, show ({ w with .. } : Receiver).completed = [] from h.completed, List.nil_append]
    · show v.stream = later
      rw [hv, show w.stream.drop j = _ from hrest, Nat.add_assoc, hend, ← hpending.headerLength,
        ← List.drop_drop, List.drop_left, List.drop_left]
    · show ∀ ret ∈ v.results ++ [0], ret = 0
      rw [hv]
      exact hresults
  · have hcut : header.take (headerSize + i) = header.take (headerSize + i + j) := by
      rw [List.take_of_length_le (by rw [hpending.headerLength]; omega),
        List.take_of_length_le (by rw [hpending.headerLength]; omega)]
    have hsub : headerSize + i + j - headerSize = i + j := by omega
    rw [if_neg fun heq => hend ?_]
    · refine ⟨j, _, hpos, rfl, .inl ⟨by omega, ?_, ?_, ?_, ?_, ?_, ?_⟩⟩
      · show w.recv = _
        rw [h.recv, hcut, Nat.min_eq_right (by omega), Nat.min_eq_right (by omega)]
      · show v.stream = _
        rw [hv]
        exact hrest
      · show ({ v.request with size := v.request.size + .ofNat j } : DsiRequest) = _
        rw [hv, hsub, ← hcount]
        show ({ w.request with size := w.request.size + .ofNat j } : DsiRequest) = _
        rw [hrequest]
      · rw [hsub]
        exact hnext
      · show v.completed = []
        rw [hv]
        exact h.completed
      · show ∀ ret ∈ v.results ++ [0], ret = 0
        rw [hv]
        exact hresults
    · have hcount' := congrArg UInt32.toNat heq
      rw [UInt32.toNat_ofNat_of_lt' hwide, UInt32.toNat_ofNat_of_lt'
        (Nat.lt_of_le_of_lt (by omega : i + j ≤ payload.length) hwide)] at hcount'
      exact hcount'.symm

/-- **One call** takes in at least one byte of the reply, and no byte behind it. -/
theorem Partway.advances (splits : ℕ → ℕ) (r : Handle)
    (hpending : Pending header payload later before)
    (hfits : payload.length ≤ before.request.maxsize.toNat) (hint : payload.length < 0x80000000)
    {k : ℕ} (h : Partway header payload later before k w) (hk : k < headerSize + payload.length) :
    Advances splits r header payload later before k w := by
  by_cases hheader : k < headerSize
  · obtain ⟨j, w', hpos, -, hcall, hnext⟩ := h.advances_header splits r hpending hheader
    exact ⟨j, w', hpos, hcall, hnext⟩
  · obtain ⟨i, rfl⟩ := Nat.exists_eq_add_of_le (Nat.le_of_not_lt hheader)
    exact h.advances_payload splits r hpending hfits hint (by omega)

/-- From any point of the reply it is delivered after a call for each byte at most. -/
theorem Partway.exists_delivered (hpending : Pending header payload later before)
    (hfits : payload.length ≤ before.request.maxsize.toNat) (hint : payload.length < 0x80000000)
    {k : ℕ} (h : Partway header payload later before k w) (hk : k < headerSize + payload.length) :
    ∃ m ≤ headerSize + payload.length - k, ∃ w', calls splits r m w = some w' ∧
      Delivered r header payload later before w' := by
  induction hleft : headerSize + payload.length - k using Nat.strongRecOn generalizing k w with
  | ind left ih =>
    obtain ⟨j, w₁, hpos, hcall, ⟨hmore, hnext⟩ | ⟨hend, hnext⟩⟩ :=
      h.advances splits r hpending hfits hint hk
    · obtain ⟨m, hm, w', hcalls, hdelivered⟩ := ih _ (by omega) hnext hmore rfl
      exact ⟨m + 1, by omega, w', by rw [calls, hcall, Option.bind_some, hcalls], hdelivered⟩
    · exact ⟨1, by omega, w₁, by rw [calls, hcall]; rfl, hnext⟩

/-- **The payload is delivered**, however the stream is split: after no more calls than the reply has
bytes it is in the buffer, nothing else has changed there, the request has been completed once, and
nothing behind the reply has been read.  The size of the buffer is an `int`: `ll_read()` makes it
`rx_quantum` at most, which is 128 KiB. -/
theorem delivered (splits : ℕ → ℕ) (r : Handle) (h : Pending header payload later before)
    (hfits : payload.length ≤ before.request.maxsize.toNat)
    (hint : before.request.maxsize.toNat < 0x80000000) :
    ∃ m ≤ headerSize + payload.length, ∃ w, calls splits r m before = some w ∧
      Delivered r header payload later before w :=
  h.partway.exists_delivered h hfits (by omega) (by rw [headerSize]; omega)

/-- A read of five bytes, the reply to which has three, with a tickle behind it. -/
def pendingRead : Receiver where
  recv := .init fun _ => 0
  stream := [1, 2, 0, 1, 0, 0, 0, 0, 0, 0, 0, 3, 0, 0, 0, 0] ++ ([7, 8, 9] ++ serverTickle.bytes)
  request := { requestid := 1, subcommand := afpReadExt, wait := true, maxsize := 5, size := 0 }
  data := fun _ => 0
  returnCode := 0
  completed := []
  results := []
  reads := 0

theorem pending_pendingRead : Pending [1, 2, 0, 1, 0, 0, 0, 0, 0, 0, 0, 3, 0, 0, 0, 0] [7, 8, 9]
    serverTickle.bytes pendingRead where
  headerLength := rfl
  requestid := by decide
  payloadLength := by decide
  isRead := by decide
  size := rfl
  dataRead := rfl
  stream := rfl
  completed := rfl
  results := rfl

/-- Ten bytes come at a time. -/
theorem delivered_of_three_bytes : ∃ m ≤ 19, ∃ w, calls (fun _ => 9) 4 m pendingRead = some w ∧
    Delivered 4 [1, 2, 0, 1, 0, 0, 0, 0, 0, 0, 0, 3, 0, 0, 0, 0] [7, 8, 9] serverTickle.bytes
      pendingRead w :=
  delivered _ 4 pending_pendingRead (by decide) (by decide)

/-! ## What is not delivered -/

/-- Nothing is put back on the stream. -/
theorem stream_exec {α : Type} {p : RecvM α} {a : α} {w w' : Receiver}
    (h : Prog.exec (perform splits r) p w = some (a, w')) :
    w'.stream.length ≤ w.stream.length := by
  have hstep : ∀ (w : Receiver) (e : RecvEffect),
      (perform splits r w e).2.stream.length ≤ w.stream.length := by
    intro w e
    cases e with
    | read n =>
      show (w.stream.drop _).length ≤ _
      rw [List.length_drop]
      exact Nat.sub_le _ _
    | setReturnCode r' code =>
      show (if r' = r then _ else w).stream.length ≤ _
      split <;> exact Nat.le_refl _
    | fillBuffer r' bytes =>
      show (if r' = r then _ else w).stream.length ≤ _
      split <;> exact Nat.le_refl _
    | _ => exact Nat.le_refl _
  induction p generalizing w with
  | done b =>
    obtain ⟨rfl, rfl⟩ := Prod.mk.inj (Option.some.inj h)
    exact Nat.le_refl _
  | act e k ih => exact Nat.le_trans (ih _ h) (hstep w e)
  | stuck => cases h

theorem stream_calls {m : ℕ} {w w' : Receiver} (h : calls splits r m w = some w') :
    w'.stream.length ≤ w.stream.length := by
  induction m generalizing w with
  | zero =>
    obtain rfl := Option.some.inj h
    exact Nat.le_refl _
  | succ m ih =>
    obtain ⟨w₁, hcall, hrest⟩ := Option.bind_eq_some_iff.mp h
    obtain ⟨⟨⟨ret, s⟩, v⟩, hexec, rfl⟩ := Option.map_eq_some_iff.mp hcall
    exact Nat.le_trans (ih hrest) (show v.stream.length ≤ _ from stream_exec hexec)

/-- A read that is big enough takes all there is. -/
theorem exec_read_all (splits : ℕ → ℕ) (r : Handle) (w : Receiver) {n : ℕ} (hn : w.stream.length ≤ n)
    (hsplits : w.stream.length ≤ splits w.reads + 1) :
    ∃ answer, ∀ {β : Type} (f : Option (List UInt8) → RecvM β),
      Prog.exec (perform splits r) (read n >>= f) w =
        Prog.exec (perform splits r) (f answer) { w with stream := [], reads := w.reads + 1 } := by
  have htake : w.stream.take (min n (splits w.reads + 1)) = w.stream :=
    List.take_of_length_le (Nat.le_min.mpr ⟨hn, hsplits⟩)
  refine ⟨if w.stream = [] then none else some w.stream, fun f => ?_⟩
  show Prog.exec _ (f (if w.stream.take (min n (splits w.reads + 1)) = [] then none else
    some (w.stream.take (min n (splits w.reads + 1))))) { w with
      stream := w.stream.drop (w.stream.take (min n (splits w.reads + 1))).length
      reads := w.reads + 1 } = _
  rw [htake, List.drop_length]

/-- What is asked for of 2^31 bytes is not an `int`, and almost 2^64 as a `size_t`. -/
theorem le_newmax {request : DsiRequest} (hsize : request.size = 0)
    (hmax : 0x80000000 ≤ request.maxsize.toNat) :
    0x100000000 ≤ newmax request (.ofNat 0x80000000) := by
  have hleft : (if UInt32.ofNat 0x80000000 - request.size < request.maxsize - request.size then
      UInt32.ofNat 0x80000000 - request.size else request.maxsize - request.size) =
      (0x80000000 : UInt32) := by
    rw [hsize, UInt32.sub_zero, UInt32.sub_zero]
    split
    next => rfl
    next h =>
      rw [UInt32.lt_iff_toNat_lt] at h
      exact UInt32.toNat_inj.mp (Nat.le_antisymm (Nat.le_of_not_lt h) hmax)
  show _ ≤ UInt64.toNat (Int64.toUInt64 (Int32.toInt64 (UInt32.toInt32 (ite ..))))
  rw [hleft]
  decide

/-- **A payload of 2^31 bytes** is not delivered when all of it comes at once with something behind it:
that is read too. -/
theorem not_delivered (h : Pending header payload [0] before) (hlength : payload.length = 0x80000000)
    (hfits : payload.length ≤ before.request.maxsize.toNat) (m : ℕ) :
    ¬ ∃ w, calls (fun _ => 0x100000000) r m before = some w ∧
      Delivered r header payload [0] before w := by
  have hrun : ∀ {m k : ℕ} {w w' : Receiver}, k ≤ headerSize →
      Partway header payload [0] before k w →
      calls (fun _ => 0x100000000) r m w = some w' → w'.stream.length ≠ 1 := by
    intro m
    induction m with
    | zero =>
      intro k w w' hk hpartway hcalls
      rw [← Option.some.inj hcalls, hpartway.stream, List.length_drop, List.length_append,
        List.length_append, h.headerLength, hlength, List.length_singleton]
      omega
    | succ m ih =>
      intro k w w' hk hpartway hcalls
      obtain ⟨w₁, hcall, hrest⟩ := Option.bind_eq_some_iff.mp hcalls
      by_cases hheader : k < headerSize
      · obtain ⟨j, w₂, -, hle, hcall', ⟨-, hnext⟩ | ⟨hend, -⟩⟩ :=
          hpartway.advances_header (fun _ => 0x100000000) r h hheader
        · obtain rfl : w₁ = w₂ := Option.some.inj (hcall.symm.trans hcall')
          exact ih hle hnext hrest
        · omega
      · -- the payload and what is behind it
        obtain rfl : k = headerSize := by omega
        have hdata : w.recv.dataRead = headerSize := by
          rw [hpartway.recv]
          exact Nat.min_self _
        have hbuffer : w.recv.incomingBuffer =
            store before.recv.incomingBuffer 0 (header.take headerSize) := by rw [hpartway.recv]
        obtain ⟨hid, hcode, hlength'⟩ :=
          header_of_store h.headerLength w.recv hbuffer (Nat.le_refl _) hdata
        rw [h.payloadLength, hlength] at hlength'
        have hsize : w.request.size = 0 := by rw [hpartway.request]; rfl
        have hmax : w.request.maxsize = before.request.maxsize := by rw [hpartway.request]
        rw [hlength, ← hmax] at hfits
        have hroom : ¬ w.request.maxsize = 0 := fun hzero => by
          rw [hzero] at hfits
          exact absurd hfits (by decide)
        have hstream : w.stream.length ≤ 0x100000000 := by
          rw [hpartway.stream, ← h.headerLength, List.drop_left, List.length_append, hlength,
            List.length_singleton]
          decide
        obtain ⟨answer, hexec⟩ := exec_read_all (fun _ => 0x100000000) r
          { w with returnCode := returnCode (ofBytes header) }
          (Nat.le_trans hstream (le_newmax hsize hfits)) (Nat.le_succ_of_le hstream)
        rw [call, dsiRecv, if_neg (Nat.not_lt.mpr (Nat.le_of_eq hdata.symm)),
          exec_gotenough _ r w h hid hcode hpartway.request, readReply,
          if_neg (by rw [hlength']; exact fun h => absurd h.2 (by decide)), if_neg hroom, hlength', hexec] at hcall
        obtain ⟨⟨⟨ret, s⟩, v⟩, hv, rfl⟩ := Option.map_eq_some_iff.mp hcall
        have hnil : v.stream.length ≤ 0 := stream_exec hv
        have := Nat.le_trans (stream_calls hrest) hnil
        omega
  rintro ⟨w, hcalls, hdelivered⟩
  refine hrun (Nat.zero_le _) h.partway hcalls ?_
  rw [hdelivered.stream]
  rfl

end

end Delivery
end Dsi
end Afpfs
