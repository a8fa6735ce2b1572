import Afpfs.Reading
import Afpfs.Dsi.Delivery

/-!
# The buffer of a read

`ll_read()` asks for as many bytes as its caller wants, but the buffer that it registers for the reply
is not longer than `rx_quantum`.

* `allAsk_llRead`: what is asked for, and the size of the buffer.
* `capable_iff`: every reply is delivered exactly if what is asked for is not more than `rx_quantum`,
  and an `int`.
* `large_read_is_not_capable`: a read of one byte more than `rx_quantum`.
-/

set_option autoImplicit false

namespace Afpfs
namespace ReadCapacity

open Interaction Locking
open Dsi.Delivery (Receiver Pending Delivered calls)

/-! ## What is expected -/

/-- What a read request asks for, and the size of its buffer. -/
def asked : Effect → Option (ℕ × UInt32)
  | .request (.read _ _ count maxsize) => some (count.toNat, maxsize)
  | .request (.readExt _ _ count maxsize) => some (count.toNat, maxsize)
  | _ => none

/-- A reply of any length up to `count` is delivered to a request whose buffer has `maxsize` bytes,
however the stream is split and whatever is behind the reply. -/
def Delivers (count : ℕ) (maxsize : UInt32) : Prop :=
  ∀ (splits : ℕ → ℕ) (r : Dsi.Handle) (header payload later : List UInt8) (before : Receiver),
    Pending header payload later before → before.request.maxsize = maxsize →
      payload.length ≤ count → ∃ m w, calls splits r m before = some w ∧
        Delivered r header payload later before w

/-- The replies to the read requests of `ll_read()` fit in their buffers, and are delivered. -/
structure Capable (volume : Volume) (size offset : ℕ) (forkid : UInt16) : Prop where
  fits : ∀ tr q, Prog.Steps (llRead volume size offset forkid) tr q → ∀ ev ∈ tr,
    ∀ count maxsize, asked ev.1 = some (count, maxsize) → count ≤ maxsize.toNat
  delivers : ∀ tr q, Prog.Steps (llRead volume size offset forkid) tr q → ∀ ev ∈ tr,
    ∀ count maxsize, asked ev.1 = some (count, maxsize) → Delivers count maxsize

/-! ## The request -/

/-- The size, as it is sent. -/
def countOf (volume : Volume) (size : ℕ) : ℕ :=
  if volume.server.avNumber < 30 then (UInt32.ofNat size).toNat else (UInt64.ofNat size).toNat

/-- `bufsize` of `ll_read()`. -/
def bufsizeOf (volume : Volume) (size : ℕ) : UInt32 :=
  if volume.server.rxQuantum.toNat < size then volume.server.rxQuantum else .ofNat size

section

variable {volume : Volume} {size offset : ℕ} {forkid : UInt16}

/-- A buffer of `bufsize` bytes holds what is asked for exactly if `rx_quantum` does. -/
theorem le_bufsizeOf_iff :
    countOf volume size ≤ (bufsizeOf volume size).toNat ↔
      countOf volume size ≤ volume.server.rxQuantum.toNat := by
  rw [bufsizeOf]
  by_cases hlt : volume.server.rxQuantum.toNat < size
  · rw [if_pos hlt]
  · have hquantum := volume.server.rxQuantum.toNat_lt
    have hsize : size < 4294967296 := by omega
    have hcount : countOf volume size = size := by
      rw [countOf, UInt32.toNat_ofNat_of_lt' hsize, UInt64.toNat_ofNat_of_lt'
        (Nat.lt_trans hsize (by decide)), ite_self]
    rw [if_neg hlt, hcount, UInt32.toNat_ofNat_of_lt' hsize]
    omega

/-- The read request of `ll_read()`. -/
def IsTheRead (volume : Volume) (size : ℕ) (e : Effect) : Prop :=
  ∀ c, asked e = some c → c = (countOf volume size, bufsizeOf volume size)

theorem isTheRead_lockOf (unlock : Bool) (forkid : UInt16) (offset size' : ℕ) :
    IsTheRead volume size (.request (lockOf volume unlock forkid offset size')) := by
  rw [lockOf]
  split <;> exact fun c hc => absurd hc (Option.some_ne_none c).symm

/-- **What is asked for.** -/
theorem allAsk_llRead (volume : Volume) (size offset : ℕ) (forkid : UInt16) :
    Prog.AllActs (IsTheRead volume size) (llRead volume size offset forkid) := by
  have hlockLoop : ∀ tries,
      Prog.AllActs (IsTheRead volume size) (lockLoop volume forkid offset size tries) := by
    intro tries
    induction tries with
    | zero => trivial
    | succ tries ih =>
      rw [lockLoop, byteRangeLock_eq]
      refine ⟨isTheRead_lockOf _ _ _ _, fun reply => ?_⟩
      refine Prog.allActs_ite.mpr ⟨fun _ => trivial, fun _ => Prog.allActs_ite.mpr ⟨fun _ => ?_, ?_⟩⟩
      · exact ⟨fun c hc => absurd hc (Option.some_ne_none c).symm, fun _ => ih⟩
      · exact fun _ => trivial
  have hunlock : Prog.AllActs (IsTheRead volume size) (llHandleUnlocking volume forkid offset size) := by
    rw [llHandleUnlocking, byteRangeLock_eq]
    refine Prog.allActs_ite.mpr ⟨fun _ => trivial, fun _ => ⟨isTheRead_lockOf _ _ _ _, fun reply => ?_⟩⟩
    exact Prog.allActs_ite.mpr ⟨fun _ => trivial, fun _ => trivial⟩
  have hread : Prog.AllActs (IsTheRead volume size)
      (readRequest volume forkid offset size (bufsizeOf volume size)) := by
    rw [readRequest]
    by_cases hold : volume.server.avNumber < 30
    · rw [if_pos hold]
      refine ⟨fun c hc => ?_, fun _ => trivial⟩
      rw [countOf, if_pos hold]
      exact (Option.some.inj hc).symm
    · rw [if_neg hold]
      refine ⟨fun c hc => ?_, fun _ => trivial⟩
      rw [countOf, if_neg hold]
      exact (Option.some.inj hc).symm
  have hlock : Prog.AllActs (IsTheRead volume size)
      (llHandleLocking volume forkid offset size) := by
    rw [llHandleLocking]
    exact Prog.allActs_ite.mpr ⟨fun _ => trivial, fun _ => hlockLoop _⟩
  unfold llRead
  refine hlock.bind fun locked => Prog.allActs_ite.mpr ⟨fun _ => trivial, fun _ => ?_⟩
  refine Prog.AllActs.bind hread fun reply => hunlock.bind fun unlocked => ?_
  simp only [Prog.allActs_ite]
  exact ⟨fun _ => trivial, fun _ => ⟨fun _ => trivial, fun _ => ⟨fun _ => trivial, fun _ =>
    ⟨fun _ => trivial, fun _ => trivial⟩⟩⟩⟩

/-- A read request is sent, if the range can be locked. -/
theorem exists_read (volume : Volume) (size offset : ℕ) (forkid : UInt16) :
    ∃ tr q, Prog.Steps (llRead volume size offset forkid) tr q ∧
      ∃ ev ∈ tr, asked ev.1 = some (countOf volume size, bufsizeOf volume size) := by
  obtain ⟨tr, hlocked⟩ : ∃ tr, Prog.Steps (llHandleLocking volume forkid offset size) tr (.done 0) := by
    rw [llHandleLocking]
    split
    · exact ⟨[], .refl _⟩
    · rw [maxLocktrycount, lockLoop, byteRangeLock_eq]
      let granted : Reply (lockOf volume false forkid offset size).Payload := ⟨kFPNoErr, none⟩
      exact ⟨[⟨.request (lockOf volume false forkid offset size), granted⟩], .act (.refl _)⟩
  obtain ⟨e, p, heq, hasked⟩ : ∃ (e : Effect) (p : e.Answer → AfpM (Reply (List UInt8))),
      readRequest volume forkid offset size (bufsizeOf volume size) = .act e p ∧
        asked e = some (countOf volume size, bufsizeOf volume size) := by
    rw [readRequest, countOf]
    by_cases hold : volume.server.avNumber < 30
    · rw [if_pos hold, if_pos hold]
      exact ⟨.request (.read ..), _, rfl, rfl⟩
    · rw [if_neg hold, if_neg hold]
      exact ⟨.request (.readExt ..), _, rfl, rfl⟩
  have hread : ∃ q, Prog.Steps
      (readRequest volume forkid offset size (bufsizeOf volume size)) [⟨e, e.zeroAnswer⟩] q := by
    rw [heq]
    exact ⟨_, .act (.refl _)⟩
  obtain ⟨q, hread⟩ := hread
  have hsteps : ∃ q, Prog.Steps (llRead volume size offset forkid) (tr ++ [⟨e, e.zeroAnswer⟩]) q := by
    unfold llRead
    exact ⟨_, hlocked.bind (hread.bind_left _)⟩
  obtain ⟨q, hsteps⟩ := hsteps
  exact ⟨_, q, hsteps, _, List.mem_append_right _ (List.mem_singleton_self _), hasked⟩

/-- The header of a reply of 2^31 bytes. -/
def hugeHeader : List UInt8 := [1, 2, 0, 1, 0, 0, 0, 0, 0x80, 0, 0, 0, 0, 0, 0, 0]

/-- A read whose reply has a payload and one byte behind it on the stream. -/
def hugeReply (maxsize : UInt32) (payload : List UInt8) : Receiver where
  recv := .init fun _ => 0
  stream := hugeHeader ++ (payload ++ [0])
  request := { requestid := 1, subcommand := Dsi.afpReadExt, wait := true, maxsize, size := 0 }
  data := fun _ => 0
  returnCode := 0
  completed := []
  results := []
  reads := 0

theorem pending_hugeReply (maxsize : UInt32) {payload : List UInt8}
    (hlength : payload.length = 0x80000000) :
    Pending hugeHeader payload [0] (hugeReply maxsize payload) where
  headerLength := rfl
  requestid := by
    show Dsi.requestid (Dsi.ofBytes hugeHeader) = 1
    decide
  payloadLength := by
    rw [hlength]
    decide
  isRead := rfl
  size := rfl
  dataRead := rfl
  stream := rfl
  completed := rfl
  results := rfl

/-- **Every reply fits and is delivered exactly if what is asked for is not more than `rx_quantum`**,
and an `int`. -/
theorem capable_iff (volume : Volume) (size offset : ℕ) (forkid : UInt16) :
    Capable volume size offset forkid ↔
      countOf volume size ≤ volume.server.rxQuantum.toNat ∧ countOf volume size < 0x80000000 := by
  constructor
  · intro h
    obtain ⟨tr, q, hsteps, ev, hev, hasked⟩ := exists_read volume size offset forkid
    have hfits := h.fits tr q hsteps ev hev _ _ hasked
    refine ⟨le_bufsizeOf_iff.mp hfits, ?_⟩
    by_contra hbig
    -- a reply of 2^31 bytes with something behind it
    have hbig : 0x80000000 ≤ countOf volume size := Nat.le_of_not_lt hbig
    obtain ⟨payload, hlength⟩ : ∃ l : List UInt8, l.length = 0x80000000 :=
      ⟨List.replicate 0x80000000 0, List.length_replicate⟩
    have hpending := pending_hugeReply (bufsizeOf volume size) hlength
    obtain ⟨m, hdelivered⟩ := h.delivers tr q hsteps ev hev _ _ hasked (fun _ => 0x100000000) 0 _ _ _ _
      hpending rfl (hlength ▸ hbig)
    exact Dsi.Delivery.not_delivered hpending hlength (hlength ▸ Nat.le_trans hbig hfits) m hdelivered
  · rintro ⟨hquantum, hint⟩
    have hfits : countOf volume size ≤ (bufsizeOf volume size).toNat := le_bufsizeOf_iff.mpr hquantum
    refine ⟨fun tr q hsteps ev hev count maxsize hasked => ?_,
      fun tr q hsteps ev hev count maxsize hasked => ?_⟩
    · obtain ⟨rfl, rfl⟩ := Prod.mk.inj ((allAsk_llRead ..).steps hsteps ev hev _ hasked)
      exact hfits
    · obtain ⟨rfl, rfl⟩ := Prod.mk.inj ((allAsk_llRead ..).steps hsteps ev hev _ hasked)
      intro splits r header payload later before hpending hmax hle
      obtain ⟨m, -, hdelivered⟩ := hpending.partway.exists_delivered hpending
        (by rw [hmax]; exact Nat.le_trans hle hfits) (Nat.lt_of_le_of_lt hle hint)
        (Nat.add_pos_left (by decide) _)
      exact ⟨m, hdelivered⟩

/-- A volume with the `rx_quantum` of `afp_server_init()`. -/
def quantum128k : Volume :=
  { Volume.plain with server := { Volume.plain.server with rxQuantum := 131072 } }

/-- **A read of more than `rx_quantum`.**  What is asked for does not fit in the buffer. -/
theorem large_read_is_not_capable :
    ¬ ∀ (volume : Volume) (size offset : ℕ) (forkid : UInt16), Capable volume size offset forkid := by
  intro h
  obtain ⟨tr, q, hsteps, ev, hev, hasked⟩ := exists_read quantum128k 131073 0 7
  have hfits := (h quantum128k 131073 0 7).fits tr q hsteps ev hev _ _ hasked
  exact absurd hfits (by decide)

end

end ReadCapacity
end Afpfs
