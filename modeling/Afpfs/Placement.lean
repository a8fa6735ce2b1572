import Afpfs.Writing
import Mathlib.Algebra.Order.BigOperators.Group.List
import Mathlib.Algebra.Order.Group.Nat

/-!
# Where written data goes

The write requests of `ll_write()` when the server accepts everything.  `placed` is what such a
request puts on the wire: the position in the file, and the bytes.

* `placement_iff`: each byte is sent once and for its position exactly if there is nothing to
  write, or the quantum is not 0, the longest message has a length that is an `int`, and the last
  request starts at a position that its field can hold.
* `zero_quantum_never_ends`: a server whose quantum is 0.
-/

set_option autoImplicit false

namespace Afpfs
namespace Placement

open Interaction Writing

/-! ## What is sent -/

/-- What reaches the server of the data of a message.  `afp_write()` and `afp_writeext()` add its
length to that of the `header` in an `unsigned int`, and `dsi_send()` takes the sum as an `int`: a
negative one is refused by `write()`. -/
def delivered (header : ℕ) (data : List UInt8) : Option (List UInt8) :=
  let len : UInt32 := .ofNat (header + data.length)
  if len.toNat < 0x80000000 then some (data.take (len.toNat - header)) else none

/-- The position that a write request is for, and the bytes in it. -/
def placed : Request → Option (ℕ × List UInt8)
  | .write _ offset _ data => (delivered 28 data).map fun bytes => (offset.toNat, bytes)
  | .writeExt _ offset _ data => (delivered 36 data).map fun bytes => (offset.toNat, bytes)
  | _ => none

/-- The bytes that a request sends, each with its position. -/
def sent (r : Request) : List (UInt8 × ℕ) :=
  match placed r with
  | none => []
  | some (position, bytes) => bytes.zipIdx position

/-- The data is cut into the requests of a log: none is longer than the quantum, and the bytes with
their positions are those of the data from `offset` on, in order. -/
structure Partition (quantum : UInt32) (data : List UInt8) (offset : ℕ) (log : Log) : Prop where
  short : ∀ entry ∈ log, carried entry.1 ≤ quantum.toNat
  sent : log.flatMap (fun entry => sent entry.1) = data.zipIdx offset

/-- A server that accepts every request. -/
def accepting : Replies where
  lock _ := kFPNoErr
  unlock _ := kFPNoErr
  write _ := kFPNoErr

/-- A write ends, and the data is cut into its requests. -/
def PlacesAll (volume : Volume) (data : List UInt8) (offset : ℕ) (forkid : UInt16) : Prop :=
  ∃ fuel result log,
    Prog.exec (handler accepting) (llWrite volume data offset forkid fuel) [] =
      some (result, log) ∧
    Partition volume.server.txQuantum data offset log

/-- The length of a write request without its data. -/
def headerLen (volume : Volume) : ℕ := if volume.server.avNumber < 30 then 28 else 36

/-- The first position that the field of a write request cannot hold. -/
def positions (volume : Volume) : ℕ :=
  if volume.server.avNumber < 30 then 0x100000000 else 0x10000000000000000

/-! ## One request -/

/-- The requests of the other kinds place nothing. -/
theorem sent_of_kind {r : Request} (h : kind r ≠ .write) : sent r = [] := by
  cases r
  case write => exact absurd rfl h
  case writeExt => exact absurd rfl h
  all_goals rfl

theorem carried_of_kind {r : Request} (h : kind r ≠ .write) : carried r = 0 := by
  cases r
  case write => exact absurd rfl h
  case writeExt => exact absurd rfl h
  all_goals rfl

/-- Data reaches the server whole exactly if the length of the message is an `int`. -/
theorem delivered_cases {header : ℕ} (hheader : header < 0x80000000) (data : List UInt8) :
    (header + data.length < 0x80000000 ∧ delivered header data = some data) ∨
      (0x80000000 ≤ header + data.length ∧ ∀ bytes ∈ delivered header data,
        bytes.length < data.length) := by
  have hlen : (UInt32.ofNat (header + data.length)).toNat = (header + data.length) % 2 ^ 32 :=
    UInt32.toNat_ofNat' ..
  by_cases hint : header + data.length < 0x80000000
  · refine .inl ⟨hint, ?_⟩
    rw [delivered, hlen, Nat.mod_eq_of_lt (by omega), if_pos hint, Nat.add_sub_cancel_left, List.take_length]
  · refine .inr ⟨Nat.le_of_not_lt hint, fun bytes hbytes => ?_⟩
    rw [delivered, hlen] at hbytes
    split at hbytes
    · rw [← Option.some.inj (Option.mem_def.mp hbytes), List.length_take]
      omega
    · cases hbytes

theorem headerLen_lt (volume : Volume) : headerLen volume < 0x80000000 := by
  rw [headerLen]
  split <;> omega

/-- What a write request sends. -/
theorem sent_writeOf (volume : Volume) (forkid : UInt16) (offset n : ℕ) (data : List UInt8) :
    sent (writeOf volume forkid offset n data) =
      ((delivered (headerLen volume) data).map fun bytes =>
        bytes.zipIdx (offset % positions volume)).getD [] := by
  rw [writeOf, headerLen, positions]
  by_cases hold : volume.server.avNumber < 30
  · simp only [if_pos hold, sent, placed, UInt32.toNat_ofNat']
    cases delivered 28 data with
    | none => rfl
    | some bytes => rfl
  · simp only [if_neg hold, sent, placed, UInt64.toNat_ofNat']
    cases delivered 36 data with
    | none => rfl
    | some bytes => rfl

theorem length_sent_le (volume : Volume) (forkid : UInt16) (offset n : ℕ) (data : List UInt8) :
    (sent (writeOf volume forkid offset n data)).length ≤ data.length := by
  rw [sent_writeOf]
  rcases delivered_cases (headerLen_lt volume) data with ⟨-, hsome⟩ | ⟨-, hshort⟩
  · rw [hsome]
    exact Nat.le_of_eq List.length_zipIdx
  · cases hdelivered : delivered (headerLen volume) data with
    | none => exact Nat.zero_le _
    | some bytes =>
      have hlt := hshort bytes hdelivered
      show (bytes.zipIdx _).length ≤ _
      rw [List.length_zipIdx]
      exact Nat.le_of_lt hlt

/-- A piece is sent for its position exactly if its message and its position fit. -/
theorem sent_writeOf_iff (volume : Volume) (forkid : UInt16) (offset n : ℕ) {data : List UInt8}
    (hdata : data ≠ []) :
    sent (writeOf volume forkid offset n data) = data.zipIdx offset ↔
      headerLen volume + data.length < 0x80000000 ∧ offset < positions volume := by
  have hpos : 0 < positions volume := by
    rw [positions]
    split <;> omega
  rw [sent_writeOf]
  rcases delivered_cases (headerLen_lt volume) data with ⟨hint, hsome⟩ | ⟨hlong, hshort⟩
  · rw [hsome]
    obtain ⟨b, rest, rfl⟩ := List.exists_cons_of_ne_nil hdata
    constructor
    · intro h
      have hhead : (b, offset % positions volume) = (b, offset) := (List.cons.inj h).1
      exact ⟨hint, by rw [← (Prod.mk.inj hhead).2]; exact Nat.mod_lt _ hpos⟩
    · rintro ⟨-, hlt⟩
      rw [Nat.mod_eq_of_lt hlt]
      rfl
  · refine iff_of_false (fun h => ?_) fun h => absurd h.1 (Nat.not_lt.mpr hlong)
    have hlength := congrArg List.length h
    rw [List.length_zipIdx] at hlength
    cases hdelivered : delivered (headerLen volume) data with
    | none =>
      rw [hdelivered] at hlength
      exact hdata (List.length_eq_zero_iff.mp hlength.symm)
    | some bytes =>
      have hlt := hshort bytes hdelivered
      rw [hdelivered] at hlength
      have hbytes : (bytes.zipIdx (offset % positions volume)).length = data.length := hlength
      rw [List.length_zipIdx] at hbytes
      omega

/-! ## All requests -/

/-- Lists put together from parts of which none is longer than its counterpart are equal only if
the parts are. -/
theorem eq_of_flatMap_range_eq {α : Type} {a b : ℕ → List α} {k : ℕ}
    (hle : ∀ i, (a i).length ≤ (b i).length)
    (h : (List.range k).flatMap a = (List.range k).flatMap b) : ∀ i < k, a i = b i := by
  have hlengths : ∀ k, ((List.range k).flatMap a).length ≤ ((List.range k).flatMap b).length := by
    intro k
    rw [List.length_flatMap, List.length_flatMap]
    exact List.sum_le_sum fun i _ => hle i
  induction k with
  | zero => exact fun i hi => absurd hi (Nat.not_lt_zero i)
  | succ k ih =>
    rw [List.range_succ, List.flatMap_append, List.flatMap_append, List.flatMap_singleton,
      List.flatMap_singleton] at h
    -- neither the first parts nor the last one can be longer
    have hlength := congrArg List.length h
    rw [List.length_append, List.length_append] at hlength
    have hfirst := hlengths k
    have hlast := hle k
    obtain ⟨hinit, heq⟩ := List.append_inj h (by omega)
    intro i hi
    rcases Nat.lt_succ_iff_lt_or_eq.mp hi with hlt | rfl
    · exact ih hinit i hlt
    · exact heq

/-- The pieces with their positions. -/
theorem flatMap_piece (q : ℕ) (data : List UInt8) (offset k : ℕ) :
    (List.range k).flatMap (fun i => (piece q data i).zipIdx (offset + i * q)) =
      (data.take (k * q)).zipIdx offset := by
  induction k with
  | zero => rw [Nat.zero_mul, List.take_zero]; rfl
  | succ k ih =>
    rw [List.range_succ, List.flatMap_append, ih, List.flatMap_singleton, Nat.succ_mul,
      List.take_add, List.zipIdx_append, piece]
    congr 1
    by_cases hle : k * q ≤ data.length
    · rw [List.length_take, Nat.min_eq_left hle]
    · rw [List.drop_eq_nil_of_le (by omega), List.take_nil]
      rfl

/-- The requests send the data exactly if each piece fits. -/
theorem sent_requestsOf_iff {volume : Volume} {data : List UInt8} (offset : ℕ) (forkid : UInt16)
    (hdata : data ≠ []) (hq : 0 < volume.server.txQuantum.toNat) :
    (requestsOf volume data offset forkid).flatMap sent = data.zipIdx offset ↔
      headerLen volume + min volume.server.txQuantum.toNat data.length < 0x80000000 ∧
      offset + (data.length - 1) / volume.server.txQuantum.toNat * volume.server.txQuantum.toNat <
        positions volume := by
  obtain ⟨q, hqq⟩ : ∃ q, q = volume.server.txQuantum.toNat := ⟨_, rfl⟩
  have hpos : 0 < data.length := List.length_pos_of_ne_nil hdata
  rw [← hqq] at hq ⊢
  -- the last piece starts at or before the last byte
  have hneeded : requestsNeeded volume data.length = (data.length - 1) / q + 1 := by
    rw [requestsNeeded, ← hqq, ← Nat.add_div_right _ hq]
    congr 1
    omega
  have hlast : (data.length - 1) / q * q ≤ data.length - 1 := Nat.div_mul_le_self ..
  have hall : (data.take (((data.length - 1) / q + 1) * q)) = data := by
    refine List.take_of_length_le ?_
    have hlt := Nat.lt_div_mul_add hq (a := data.length - 1)
    rw [Nat.succ_mul]
    omega
  have hpiece : ∀ i ≤ (data.length - 1) / q, piece q data i ≠ [] ∧
      (piece q data i).length ≤ min q data.length := by
    intro i hi
    have hle : i * q ≤ (data.length - 1) / q * q := Nat.mul_le_mul_right q hi
    have hlength : (piece q data i).length = min q (data.length - i * q) := by
      rw [piece, List.length_take, List.length_drop]
    refine ⟨List.ne_nil_of_length_pos ?_, ?_⟩
    · rw [hlength]
      omega
    · rw [hlength]
      omega
  have hzero : (piece q data 0).length = min q data.length := by
    rw [piece, Nat.zero_mul, List.drop_zero, List.length_take]
  have hrequests : (requestsOf volume data offset forkid).flatMap sent =
      (List.range ((data.length - 1) / q + 1)).flatMap fun i => sent (writeOf volume forkid
        (offset + i * q) (piece q data i).length (piece q data i)) := by
    rw [requestsOf, hneeded, List.flatMap_map, ← hqq]
  have hpieces : data.zipIdx offset = (List.range ((data.length - 1) / q + 1)).flatMap fun i =>
      (piece q data i).zipIdx (offset + i * q) := by
    rw [flatMap_piece, hall]
  rw [hrequests, hpieces]
  constructor
  · intro h
    have heach := eq_of_flatMap_range_eq (fun i => by
      rw [List.length_zipIdx]
      exact length_sent_le volume forkid _ _ _) h
    have hfirst := (sent_writeOf_iff volume forkid _ _ (hpiece 0 (Nat.zero_le _)).1).mp
      (heach 0 (Nat.succ_pos _))
    have hend := (sent_writeOf_iff volume forkid _ _ (hpiece _ le_rfl).1).mp
      (heach _ (Nat.lt_succ_self _))
    rw [hzero] at hfirst
    exact ⟨hfirst.1, hend.2⟩
  · rintro ⟨hint, hend⟩
    refine List.flatMap_congr fun i hi => ?_
    have hi' : i ≤ (data.length - 1) / q := Nat.le_of_lt_succ (List.mem_range.mp hi)
    have hle : i * q ≤ (data.length - 1) / q * q := Nat.mul_le_mul_right q hi'
    obtain ⟨hne, hlength⟩ := hpiece i hi'
    exact (sent_writeOf_iff volume forkid _ _ hne).mpr ⟨by omega, by omega⟩

/-! ## The whole write -/

theorem lockable_accepting (volume : Volume) : Lockable volume accepting :=
  .inr ⟨0, by decide, rfl, fun j hj => absurd hj (Nat.not_lt_zero j)⟩

/-- With a quantum of 0 data is never written to the end. -/
theorem exec_llWrite_zero {volume : Volume} {data : List UInt8} (offset : ℕ) (forkid : UInt16)
    (hdata : data ≠ []) (hq : volume.server.txQuantum.toNat = 0) (fuel : ℕ) :
    Prog.exec (handler accepting) (llWrite volume data offset forkid fuel) [] = none := by
  obtain ⟨ret, locks, hlock, -, hyes, -⟩ :=
    exec_llHandleLocking accepting volume forkid offset data.length
  rw [llWrite, Prog.exec_bind_of hlock, if_neg (not_not.mpr (hyes (lockable_accepting volume))),
    Prog.exec_bind, exec_writeLoop_zero hq fuel (List.length_pos_of_ne_nil hdata)]
  rfl

/-- What the requests of a write place, besides those of the lock. -/
theorem exec_llWrite_accepting {volume : Volume} {data : List UInt8} (offset : ℕ)
    (forkid : UInt16) (hq : data = [] ∨ 0 < volume.server.txQuantum.toNat) {fuel : ℕ}
    (hfuel : data.length ≤ fuel) :
    ∃ log, Prog.exec (handler accepting) (llWrite volume data offset forkid fuel) [] =
        some ((0, data.length), log) ∧
      (∀ entry ∈ log, carried entry.1 ≤ volume.server.txQuantum.toNat) ∧
      log.flatMap (fun entry => sent entry.1) =
        (requestsOf volume data offset forkid).flatMap sent := by
  obtain ⟨total, locks, rest, hexec, hlocks, -, -, hwhole⟩ :=
    exec_llWrite offset forkid accepting hq hfuel
  obtain ⟨writes, unlocks, rfl, hrequests, rfl, -, hunlocks, -, -, -⟩ :=
    hwhole (lockable_accepting volume)
  have hlock : ∀ entry ∈ locks, kind entry.1 ≠ .write := fun entry h => by
    rw [hlocks entry h]
    decide
  have hunlock : ∀ entry ∈ unlocks, kind entry.1 ≠ .write := fun entry h => by
    rw [hunlocks entry h]
    decide
  refine ⟨_, hexec, fun entry hentry => ?_, ?_⟩
  · rcases List.mem_append.mp hentry with h | h
    · rw [carried_of_kind (hlock entry h)]
      exact Nat.zero_le _
    rcases List.mem_append.mp h with h | h
    · have hmem : entry.1 ∈ requestsOf volume data offset forkid :=
        hrequests ▸ List.mem_map_of_mem h
      obtain ⟨i, -, heq⟩ := List.mem_map.mp hmem
      rw [← heq, carried_writeOf, piece, List.length_take]
      exact Nat.min_le_left _ _
    · rw [carried_of_kind (hunlock entry h)]
      exact Nat.zero_le _
  · rw [List.flatMap_append, List.flatMap_append,
      List.flatMap_eq_nil_iff.mpr fun entry h => sent_of_kind (hlock entry h),
      List.flatMap_eq_nil_iff.mpr fun entry h => sent_of_kind (hunlock entry h),
      List.nil_append, List.append_nil, ← hrequests, List.flatMap_map]

/-- **Each byte is sent once, for its position**, and no request is longer than the quantum, exactly
if there is nothing to write or everything fits: the quantum is not 0, the longest message has a
length that is an `int`, and the position of the last request fits in its field. -/
theorem placement_iff (volume : Volume) (data : List UInt8) (offset : ℕ) (forkid : UInt16) :
    PlacesAll volume data offset forkid ↔
      data = [] ∨
        0 < volume.server.txQuantum.toNat ∧
        headerLen volume + min volume.server.txQuantum.toNat data.length < 0x80000000 ∧
        offset + (data.length - 1) / volume.server.txQuantum.toNat *
          volume.server.txQuantum.toNat < positions volume := by
  constructor
  · rintro ⟨fuel, result, log, hexec, hpartition⟩
    refine or_iff_not_imp_left.mpr fun hdata => ?_
    have hq : 0 < volume.server.txQuantum.toNat := by
      by_contra hzero
      rw [exec_llWrite_zero offset forkid hdata (by omega)] at hexec
      cases hexec
    obtain ⟨log', hexec', -, hsent⟩ := exec_llWrite_accepting offset forkid (.inr hq)
      (Nat.le_max_right fuel data.length)
    have hlog : log = log' := by
      rw [llWrite_fuel_mono (Nat.le_max_left fuel data.length) hexec] at hexec'
      exact congrArg Prod.snd (Option.some.inj hexec')
    refine ⟨hq, (sent_requestsOf_iff offset forkid hdata hq).mp ?_⟩
    rw [← hsent, ← hlog]
    exact hpartition.sent
  · intro h
    have hq : data = [] ∨ 0 < volume.server.txQuantum.toNat := h.imp id fun h => h.1
    obtain ⟨log, hexec, hshort, hsent⟩ := exec_llWrite_accepting offset forkid hq le_rfl
    refine ⟨data.length, _, log, hexec, hshort, ?_⟩
    rw [hsent]
    by_cases hdata : data = []
    · rw [hdata, requestsOf_nil]
      rfl
    · obtain ⟨hquantum, hfits⟩ := h.resolve_left hdata
      exact (sent_requestsOf_iff offset forkid hdata hquantum).mpr hfits

/-- **A server whose quantum is 0.**  The request for the one byte carries nothing, and so do all
that follow. -/
theorem zero_quantum_never_ends :
    ¬ ∀ (volume : Volume) (data : List UInt8) (offset : ℕ) (forkid : UInt16),
      PlacesAll volume data offset forkid := by
  intro h
  obtain ⟨fuel, result, log, hexec, -⟩ :=
    h { Volume.plain with server := { Volume.plain.server with txQuantum := 0 } } [1] 0 7
  rw [exec_llWrite_zero 0 7 (List.cons_ne_nil 1 []) rfl] at hexec
  cases hexec

end Placement
end Afpfs
