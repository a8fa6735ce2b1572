import Afpfs.Lib.Memory
import Afpfs.Lib.Wire

/-!
# Copying from a reply

Six handlers of replies copy a part of a packet to a destination of their caller with one
`memcpy()`.  Each is given the address of the packet and its size, and computes the number of bytes
from the size, from lengths in the packet and from the capacity of the destination.

The memory behind the packet is there, and may hold anything.  Sizes are `unsigned int`, and
`size_t` where a `sizeof` is involved, so differences may wrap around.

* `within_iff`: when each handler stays inside of the packet and of its destination.
* `fits_getsessiontoken`: a token is copied from inside if the header tells the size of the packet.
* `icon_leaves_its_buffer`: a reply to a GetIcon that is longer than asked for.
-/

set_option autoImplicit false

namespace Afpfs
namespace ReplyCopies

open Memory Wire

/-! ## Handlers -/

/-- `struct afp_comment`, `struct afp_icon`, `struct afp_rx_buffer` and `struct afp_extattr_info`:
the destination, which has room for `maxsize` bytes. -/
structure Destination where
  maxsize : UInt32
  size : UInt32
  data : ℕ → UInt8

/-- `struct afp_token`. -/
structure AfpToken where
  length : UInt32
  data : ℕ → UInt8

/-- `AFP_TOKEN_MAX_LEN`. -/
def afpTokenMaxLen : UInt32 := 256

/-- The bytes that are copied, by their place in the packet. -/
structure Memcpy where
  source : ℕ
  length : ℕ
  deriving DecidableEq

/-- What a handler does with a destination: the size that it records and what it copies. -/
structure Trace where
  recorded : Option UInt32
  copied : Option Memcpy
  deriving DecidableEq

/-- What a handler comes to. -/
structure Outcome (α : Type) where
  ret : ℤ
  other : α
  trace : Trace

/-- `memcpy()` to the start of a destination. -/
def memcpy (data buf : ℕ → UInt8) (source length : ℕ) : ℕ → UInt8 :=
  store data 0 (load buf source length)

/-- `ntohl()` of the four bytes at a place. -/
def ntohlAt (buf : ℕ → UInt8) (i : ℕ) : UInt32 := UInt32.ofNat (ofBE (load buf i 4))

/-- `header.length`. -/
def headerLength (buf : ℕ → UInt8) : UInt32 := ntohlAt buf 8

/-- `sizeof(struct dsi_header)`. -/
def headerSize : ℕ := 16

/-- `afp_geticon_reply()`. -/
def afpGeticonReply (buf : ℕ → UInt8) (size : UInt32) (icon : Destination) : Outcome Destination :=
  let len := (size.toUInt64 - 16).toUInt32
  if size.toUInt64 < 16 + icon.maxsize.toUInt64 then ⟨-1, icon, none, none⟩
  else
    { ret := 0
      other := { icon with size := len, data := memcpy icon.data buf headerSize len.toNat }
      trace := ⟨some len, some ⟨headerSize, len.toNat⟩⟩ }

/-- `afp_getcomment_reply()`.  The length of the comment is behind the header. -/
def afpGetcommentReply (buf : ℕ → UInt8) (size : UInt32) (comment : Destination) :
    Outcome Destination :=
  if size.toUInt64 < 16 then ⟨-1, comment, none, none⟩
  else
    let len := (min (size.toUInt64 - 17) comment.maxsize.toUInt64).toUInt32
    let len := min len (buf headerSize).toUInt32
    { ret := 0
      other := { comment with size := len, data := memcpy comment.data buf 17 len.toNat }
      trace := ⟨some len, some ⟨17, len.toNat⟩⟩ }

/-- The handler of two replies whose data is all that is behind the header.  It does not record how
much it copies. -/
def rxReply (buf : ℕ → UInt8) (size : UInt32) (rx : Option Destination) :
    Outcome (Option Destination) :=
  let size := (size.toUInt64 - 16).toUInt32
  match rx with
  | none => ⟨0, none, none, none⟩
  | some rx =>
    if 0 < size then
      let size := if rx.maxsize < size then rx.maxsize else size
      { ret := 0
        other := some { rx with data := memcpy rx.data buf headerSize size.toNat }
        trace := ⟨none, some ⟨headerSize, size.toNat⟩⟩ }
    else ⟨0, some rx, none, none⟩

/-- `afp_login_reply()`. -/
def afpLoginReply := rxReply

/-- `afp_changepassword_reply()`. -/
def afpChangepasswordReply := rxReply

/-- `afp_getsessiontoken_reply()`.  The size of the packet is not looked at. -/
def afpGetsessiontokenReply (buf : ℕ → UInt8) (token : Option AfpToken) :
    Outcome (Option AfpToken) :=
  if (headerLength buf).toUInt64 ≤ 16 then
    { ret := 0
      other := token.map fun token => { token with length := 0 }
      trace := ⟨token.map fun _ => 0, none⟩ }
  else
    let tokenLen := ntohlAt buf 16
    if afpTokenMaxLen < tokenLen ∨ (headerLength buf).toUInt64 - 16 < tokenLen.toUInt64 then
      ⟨-1, token, none, none⟩
    else
      { ret := 0
        other := token.map fun token =>
          { length := tokenLen, data := memcpy token.data buf 20 tokenLen.toNat }
        trace := ⟨token.map fun _ => tokenLen, token.map fun _ => ⟨20, tokenLen.toNat⟩⟩ }

/-- `afp_listextattrs_reply()`.  The size of the packet is not looked at. -/
def afpListextattrsReply (buf : ℕ → UInt8) (i : Destination) : Outcome Destination :=
  let len := min i.maxsize (ntohlAt buf 18)
  { ret := 0
    other := { i with size := len, data := memcpy i.data buf 22 len.toNat }
    trace := ⟨some len, some ⟨22, len.toNat⟩⟩ }

/-- The six handlers. -/
inductive Handler where
  | getcomment
  | geticon
  | login
  | changepassword
  | getsessiontoken
  | listextattrs
  deriving DecidableEq

/-- What a handler does with a destination that is there. -/
def Handler.trace (buf : ℕ → UInt8) (size : UInt32) (d : Destination) : Handler → Trace
  | .getcomment => (afpGetcommentReply buf size d).trace
  | .geticon => (afpGeticonReply buf size d).trace
  | .login => (afpLoginReply buf size (some d)).trace
  | .changepassword => (afpChangepasswordReply buf size (some d)).trace
  | .getsessiontoken => (afpGetsessiontokenReply buf (some ⟨d.size, d.data⟩)).trace
  | .listextattrs => (afpListextattrsReply buf d).trace

/-- The room in a destination.  A token always has the same. -/
def Handler.capacity (d : Destination) : Handler → UInt32
  | .getsessiontoken => afpTokenMaxLen
  | _ => d.maxsize

/-! ## Inside of the packet and of the destination -/

/-- Every byte that is copied is one of the packet and has room, and a size that is recorded is the
number of these bytes. -/
structure Within (t : Trace) (size capacity : UInt32) : Prop where
  copied : ∀ c ∈ t.copied, ∀ j < c.length, c.source + j < size.toNat ∧ j < capacity.toNat
  recorded : ∀ n ∈ t.recorded, n.toNat = t.copied.elim 0 Memcpy.length

/-- When a handler stays inside. -/
def Handler.Fits (buf : ℕ → UInt8) (size maxsize : UInt32) : Handler → Prop
  | .getcomment => 16 < size.toNat ∨ maxsize = 0 ∨ buf headerSize = 0
  | .geticon => size.toNat ≤ headerSize + maxsize.toNat
  | .login => True
  | .changepassword => True
  | .getsessiontoken =>
    headerSize < (headerLength buf).toNat → (ntohlAt buf 16).toNat ≤ afpTokenMaxLen.toNat →
      headerSize + (ntohlAt buf 16).toNat ≤ (headerLength buf).toNat → ntohlAt buf 16 ≠ 0 →
        20 + (ntohlAt buf 16).toNat ≤ size.toNat
  | .listextattrs =>
    maxsize ≠ 0 → ntohlAt buf 18 ≠ 0 → 22 + min maxsize.toNat (ntohlAt buf 18).toNat ≤ size.toNat

section

variable {buf : ℕ → UInt8} {size maxsize : UInt32} {d : Destination}

/-- Bytes of a packet that are copied and recorded. -/
theorem within_copied_iff {source : ℕ} {len capacity : UInt32} (recorded : Bool) :
    Within ⟨if recorded then some len else none, some ⟨source, len.toNat⟩⟩ size capacity ↔
      len ≠ 0 → source + len.toNat ≤ size.toNat ∧ len.toNat ≤ capacity.toNat := by
  constructor
  · intro h hlen
    have hpos : 0 < len.toNat := Nat.pos_of_ne_zero fun hzero => hlen (UInt32.toNat.inj hzero)
    have hlast := h.copied _ rfl (len.toNat - 1) (by simp only; omega)
    simp only at hlast
    omega
  · intro h
    refine ⟨?_, ?_⟩
    · rintro c ⟨⟩ j hj
      have hlen : len ≠ 0 := by
        rintro rfl
        exact absurd hj (Nat.not_lt_zero j)
      have hroom := h hlen
      simp only at hj ⊢
      omega
    · intro n hn
      cases recorded with
      | false => exact absurd hn (by simp)
      | true => rw [Option.some.inj hn, Option.elim_some]

theorem within_none (capacity : UInt32) : Within ⟨none, none⟩ size capacity :=
  ⟨fun c hc => absurd hc (Option.not_mem_none c), fun n hn => absurd hn (Option.not_mem_none n)⟩

/-- A difference of sizes that does not wrap around. -/
theorem toNat_sub_of_le {n : UInt64} (h : n.toNat ≤ size.toNat) :
    (size.toUInt64 - n).toNat = size.toNat - n.toNat := by
  rw [UInt64.toNat_sub_of_le _ _ (by rwa [UInt64.le_iff_toNat_le, UInt32.toNat_toUInt64]),
    UInt32.toNat_toUInt64]

theorem toNat_min (a b : UInt32) : (min a b).toNat = min a.toNat b.toNat := by
  by_cases h : a ≤ b
  · rw [show min a b = a from if_pos h, Nat.min_eq_left (UInt32.le_iff_toNat_le.mp h)]
  · rw [show min a b = b from if_neg h,
      Nat.min_eq_right (Nat.le_of_not_le fun hle => h (UInt32.le_iff_toNat_le.mpr hle))]

/-- The smaller one of a difference and a capacity fits an `unsigned int`. -/
theorem toNat_min_toUInt32 (a : UInt64) (b : UInt32) :
    (min a b.toUInt64).toUInt32.toNat = min a.toNat b.toNat := by
  have hb : b.toUInt64.toNat = b.toNat := UInt32.toNat_toUInt64 b
  by_cases h : a ≤ b.toUInt64
  · have hle := UInt64.le_iff_toNat_le.mp h
    rw [show min a b.toUInt64 = a from if_pos h, UInt64.toNat_toUInt32,
      Nat.mod_eq_of_lt (by have := b.toNat_lt; omega), Nat.min_eq_left (by omega)]
  · have hle : ¬ a.toNat ≤ b.toUInt64.toNat := mt UInt64.le_iff_toNat_le.mpr h
    rw [show min a b.toUInt64 = b.toUInt64 from if_neg h, UInt64.toNat_toUInt32, hb,
      Nat.mod_eq_of_lt b.toNat_lt, Nat.min_eq_right (by omega)]

theorem ne_zero_iff {n : UInt32} : n ≠ 0 ↔ 0 < n.toNat := by
  rw [Nat.pos_iff_ne_zero]
  exact not_congr UInt32.toNat_inj.symm

/-- All that is behind the header. -/
theorem toNat_payload (hsize : headerSize ≤ size.toNat) :
    (size.toUInt64 - 16).toUInt32.toNat = size.toNat - headerSize := by
  have hlt := size.toNat_lt
  have hle : (16 : UInt64).toNat ≤ size.toNat := hsize
  rw [UInt64.toNat_toUInt32, toNat_sub_of_le hle]
  exact Nat.mod_eq_of_lt (Nat.lt_of_le_of_lt (Nat.sub_le _ _) hlt)

/-! ## The handlers one by one -/

theorem within_geticon_iff (hsize : headerSize ≤ size.toNat) :
    Within (afpGeticonReply buf size d).trace size d.maxsize ↔
      size.toNat ≤ headerSize + d.maxsize.toNat := by
  have hpayload := toNat_payload hsize
  have hshort : size.toUInt64 < 16 + d.maxsize.toUInt64 ↔
      size.toNat < headerSize + d.maxsize.toNat := by
    have hlt := d.maxsize.toNat_lt
    rw [UInt64.lt_iff_toNat_lt, UInt64.toNat_add, UInt32.toNat_toUInt64, UInt32.toNat_toUInt64,
      Nat.mod_eq_of_lt (by simp only [UInt64.reduceToNat]; omega)]
    rfl
  rw [afpGeticonReply]
  split
  next h => exact iff_of_true (within_none _) (hshort.mp h).le
  next h =>
    have hlong := Nat.le_of_not_lt (mt hshort.mpr h)
    refine (within_copied_iff true).trans ?_
    rw [ne_zero_iff, hpayload]
    constructor
    · intro hfits
      by_cases hpos : 0 < size.toNat - headerSize
      · exact Nat.sub_le_iff_le_add'.mp (hfits hpos).2
      · omega
    · intro hfits _
      omega

theorem within_getcomment_iff (hsize : headerSize ≤ size.toNat) :
    Within (afpGetcommentReply buf size d).trace size d.maxsize ↔
      16 < size.toNat ∨ d.maxsize = 0 ∨ buf headerSize = 0 := by
  have hlong : ¬ size.toUInt64 < 16 := by
    rw [UInt64.lt_iff_toNat_lt, UInt32.toNat_toUInt64]
    exact Nat.not_lt.mpr hsize
  rw [afpGetcommentReply, if_neg hlong]
  refine (within_copied_iff true).trans ?_
  rw [ne_zero_iff, toNat_min, toNat_min_toUInt32]
  by_cases hpast : 16 < size.toNat
  · refine iff_of_true (fun _ => ?_) (Or.inl hpast)
    have hdiff : (size.toUInt64 - 17).toNat = size.toNat - 17 := toNat_sub_of_le hpast
    rw [hdiff]
    omega
  · -- the difference wraps around, and what bounds the copy is the capacity
    have hexact : size = 16 := UInt32.toNat.inj (Nat.le_antisymm (Nat.not_lt.mp hpast) hsize)
    subst hexact
    have hwrap : d.maxsize.toNat ≤ ((16 : UInt32).toUInt64 - 17).toNat := by
      have hlt := d.maxsize.toNat_lt
      exact Nat.le_trans hlt.le (by decide)
    have hzero : d.maxsize = 0 ↔ ¬ 0 < d.maxsize.toNat := by rw [← ne_zero_iff, not_not]
    have hbyte : buf headerSize = 0 ↔ ¬ 0 < (buf headerSize).toUInt32.toNat := by
      rw [UInt8.toNat_toUInt32, ← UInt8.toNat_inj, Nat.pos_iff_ne_zero, not_not]
      rfl
    rw [Nat.min_eq_right hwrap, hzero, hbyte]
    have hsixteen : (16 : UInt32).toNat = 16 := rfl
    omega

theorem within_rxReply (hsize : headerSize ≤ size.toNat) :
    Within (rxReply buf size (some d)).trace size d.maxsize := by
  have hpayload := toNat_payload hsize
  rw [rxReply]
  simp only
  split
  · refine (within_copied_iff false).mpr fun _ => ?_
    split
    next hcapacity =>
      have hlt := UInt32.lt_iff_toNat_lt.mp hcapacity
      omega
    next hcapacity =>
      have hle := mt UInt32.lt_iff_toNat_lt.mpr hcapacity
      omega
  · exact within_none _

theorem within_getsessiontoken_iff (token : AfpToken) :
    Within (afpGetsessiontokenReply buf (some token)).trace size afpTokenMaxLen ↔
      (headerSize < (headerLength buf).toNat →
        (ntohlAt buf 16).toNat ≤ afpTokenMaxLen.toNat →
        headerSize + (ntohlAt buf 16).toNat ≤ (headerLength buf).toNat → ntohlAt buf 16 ≠ 0 →
          20 + (ntohlAt buf 16).toNat ≤ size.toNat) := by
  have hshort : (headerLength buf).toUInt64 ≤ 16 ↔ (headerLength buf).toNat ≤ headerSize := by
    rw [UInt64.le_iff_toNat_le, UInt32.toNat_toUInt64]
    rfl
  rw [afpGetsessiontokenReply]
  split
  next h =>
    refine iff_of_true ?_ fun hlong => absurd (hshort.mp h) (Nat.not_le.mpr hlong)
    exact ⟨fun c hc => absurd hc (Option.not_mem_none c), by rintro n ⟨⟩; rfl⟩
  next h =>
    have hlong := Nat.lt_of_not_le (mt hshort.mpr h)
    have hdiff : ((headerLength buf).toUInt64 - 16).toNat =
        (headerLength buf).toNat - headerSize := toNat_sub_of_le hlong.le
    have hrefused : (afpTokenMaxLen < ntohlAt buf 16 ∨
        (headerLength buf).toUInt64 - 16 < (ntohlAt buf 16).toUInt64) ↔
        ¬ ((ntohlAt buf 16).toNat ≤ afpTokenMaxLen.toNat ∧
          headerSize + (ntohlAt buf 16).toNat ≤ (headerLength buf).toNat) := by
      rw [UInt32.lt_iff_toNat_lt, UInt64.lt_iff_toNat_lt, hdiff, UInt32.toNat_toUInt64]
      omega
    simp only
    split
    next hno =>
      refine iff_of_true (within_none _) fun _ hmax hin => ?_
      exact absurd ⟨hmax, hin⟩ (hrefused.mp hno)
    next hyes =>
      obtain ⟨hmax, hin⟩ := not_not.mp (mt hrefused.mpr hyes)
      refine (within_copied_iff true).trans ?_
      constructor
      · exact fun hfits _ _ _ hne => (hfits hne).1
      · exact fun hfits hne => ⟨hfits hlong hmax hin hne, hmax⟩

theorem within_listextattrs_iff :
    Within (afpListextattrsReply buf d).trace size d.maxsize ↔
      (d.maxsize ≠ 0 → ntohlAt buf 18 ≠ 0 →
        22 + min d.maxsize.toNat (ntohlAt buf 18).toNat ≤ size.toNat) := by
  refine (within_copied_iff true).trans ?_
  rw [ne_zero_iff, ne_zero_iff, ne_zero_iff, toNat_min]
  constructor
  · exact fun h hmax hlen => (h (by omega)).1
  · exact fun h hpos => ⟨h (by omega) (by omega), Nat.min_le_left _ _⟩

/-- **When the handlers stay inside.** -/
theorem within_iff (h : Handler) (hsize : headerSize ≤ size.toNat) :
    Within (h.trace buf size d) size (h.capacity d) ↔ h.Fits buf size d.maxsize := by
  cases h with
  | getcomment => exact within_getcomment_iff hsize
  | geticon => exact within_geticon_iff hsize
  | login => exact iff_of_true (within_rxReply hsize) trivial
  | changepassword => exact iff_of_true (within_rxReply hsize) trivial
  | getsessiontoken => exact within_getsessiontoken_iff _
  | listextattrs => exact within_listextattrs_iff

/-- A destination with room for so many bytes. -/
def Destination.empty (maxsize : UInt32) : Destination := ⟨maxsize, 0, fun _ => 0⟩

/-- A comment of two bytes in a packet of 19 bytes. -/
theorem within_iff_of_comment :
    Within (Handler.getcomment.trace (fun _ => 2) 19 (Destination.empty 1024)) 19 1024 ↔
      Handler.getcomment.Fits (fun _ => 2) 19 1024 :=
  @within_iff (fun _ => 2) 19 (Destination.empty 1024) .getcomment (by decide)

/-- **More of an icon than there is room for** is copied, since packets that are too short are looked
for instead. -/
theorem icon_leaves_its_buffer :
    ¬ ∀ (h : Handler) (buf : ℕ → UInt8) (size : UInt32) (d : Destination),
      headerSize ≤ size.toNat → Within (h.trace buf size d) size (h.capacity d) := by
  intro h
  have hfits : 24 ≤ 16 + 4 :=
    (within_geticon_iff (by decide)).mp (h .geticon (fun _ => 0) 24 (Destination.empty 4) (by decide))
  exact absurd hfits (by decide)

/-- **A token** is copied from inside of a packet whose header tells its size. -/
theorem fits_getsessiontoken (hlength : (headerLength buf).toNat + headerSize = size.toNat) :
    Handler.getsessiontoken.Fits buf size maxsize := by
  intro _ _ hin _
  have hheader : headerSize = 16 := rfl
  omega

/-- Where there is no destination nothing is copied. -/
theorem trace_of_null :
    (rxReply buf size none).trace = ⟨none, none⟩ ∧
      (afpGetsessiontokenReply buf none).trace = ⟨none, none⟩ := by
  refine ⟨rfl, ?_⟩
  rw [afpGetsessiontokenReply]
  split
  · rfl
  · simp only
    split <;> rfl

end

end ReplyCopies
end Afpfs
