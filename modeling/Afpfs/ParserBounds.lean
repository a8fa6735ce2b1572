import Afpfs.EnumerateReply
import Afpfs.Server.GetStatus

/-!
# Reading inside the packet

The parsers of four replies are given the number of the bytes of a packet, and look at it only before
they start.  Then they go where the offsets, the sizes and the bitmaps in the packet lead them.
`dsi_getstatus_reply()` has a note that it should check for overruns; `afp_enumerate_reply()` compares
the place of an entry with the end of the packet, and lets an entry through that starts there.

`none` is a read of a byte that is not of the packet.  A packet has at least a DSI header.

* `isSome_enumerateLoop_iff`, `isSome_enumerateext2Loop_iff`: a loop over entries.
* `stays_inside_iff`: each parser reads no other byte exactly if what the packet leads to is inside.
* `entry_at_the_end`: the reply to an Enumerate that announces an entry and ends.
-/

set_option autoImplicit false

namespace Afpfs
namespace ParserBounds

open Wire ReplyBlock EnumerateReply Server.GetStatus

/-! ## The reply to a GetFileDirParms -/

/-- `afp_getfiledirparms_reply()`: what it returns, and the structure. -/
def afpGetfiledirparmsReply (packet : List UInt8) (filecur : AfpFileInfo) :
    Option (ℤ × AfpFileInfo) :=
  let error := fieldAt packet 4 4
  if error.length < 4 then none
  else if error ≠ [0, 0, 0, 0] then
    some ((UInt32.ofNat (ofBE error.reverse)).toInt32.toInt, filecur)
  else if packet.length < replySize then some (-1, filecur)
  else do
    let isdir : UInt8 ← packet[20]?
    let fi ← parseReplyBlock (packet.drop replySize) (isdir ≠ 0)
      (ReplyBlock.ntohs (fieldAt packet 16 2)).toUInt32
      (ReplyBlock.ntohs (fieldAt packet 18 2)).toUInt32
    return (0, { fi with isdir := isdir ≠ 0 })

/-! ## What is in the packet -/

/-- The server reports no error, and the fixed part of the reply is there. -/
structure Parsed (packet : List UInt8) : Prop where
  noError : fieldAt packet 4 4 = [0, 0, 0, 0]
  fixed : replySize ≤ packet.length

/-- The bitmap of a reply for a file or a directory. -/
def bitmapOf (packet : List UInt8) (isdir : Bool) : UInt16 :=
  ReplyBlock.ntohs (fieldAt packet (if isdir then 18 else 16) 2)

/-- The number of entries that a reply announces. -/
def countOf (packet : List UInt8) : ℕ := (ReplyBlock.ntohs (fieldAt packet 20 2)).toNat

/-- The entry at a place, with its flag and its parameters at some distance from it, is in the
packet. -/
structure EntryInside (packet : List UInt8) (flagAt parmsAt p : ℕ) : Prop where
  flag : p + flagAt < packet.length
  block : BlockInside (packet.drop (p + parmsAt)) (packet.getD (p + flagAt) 0 ≠ 0)
    (bitmapOf packet (packet.getD (p + flagAt) 0 ≠ 0))

/-- Where the next entry is, for a size of one byte. -/
def nextShort (packet : List UInt8) (p : ℕ) : ℕ := p + (packet.getD p 0).toNat

/-- The same for a size of two bytes. -/
def nextLong (packet : List UInt8) (p : ℕ) : ℕ :=
  p + (ReplyBlock.ntohs (fieldAt packet p 2)).toNat

/-- Every announced entry of an Enumerate, up to the first that starts behind the packet, is in it. -/
def EnumerateInside (packet : List UInt8) : Prop :=
  Parsed packet → ∀ i < countOf packet, (nextShort packet)^[i] replySize ≤ packet.length →
    EntryInside packet 1 2 ((nextShort packet)^[i] replySize)

/-- Every announced entry of an EnumerateExt2 is in the packet. -/
def Enumerateext2Inside (packet : List UInt8) : Prop :=
  Parsed packet → ∀ i < countOf packet,
    EntryInside packet 2 4 ((nextLong packet)^[i] replySize)

/-- The parameters of a file or a directory are in the packet. -/
def GetfiledirparmsInside (packet : List UInt8) : Prop :=
  Parsed packet → BlockInside (packet.drop replySize) (packet.getD 20 0 ≠ 0)
    (bitmapOf packet (packet.getD 20 0 ≠ 0))

/-! ## The loops -/

section Loops

variable {malloc : Malloc} {infos : List AfpFileInfo} {b : Builder} {packet : List UInt8}

theorem getElem?_of_lt {bytes : List UInt8} {i : ℕ} (h : i < bytes.length) :
    bytes[i]? = some (bytes.getD i 0) := by
  rw [List.getD_eq_getElem?_getD, List.getElem?_eq_getElem h, Option.getD_some]

theorem bitmapOf_eq (packet : List UInt8) (isdir : Bool) :
    (if isdir then (ReplyBlock.ntohs (fieldAt packet 18 2)).toUInt32
      else (ReplyBlock.ntohs (fieldAt packet 16 2)).toUInt32).toUInt16 = bitmapOf packet isdir := by
  rw [toUInt16_bitmap]
  cases isdir <;> rfl

/-- An entry is parsed into its node, or a byte is read that is not of the packet. -/
theorem parseInto_cases (packet : List UInt8) (heap : Heap) (filecur p : ℕ) (isdir : UInt8) :
    BlockInside (packet.drop p) (isdir ≠ 0) (bitmapOf packet (isdir ≠ 0)) ∧
        (∃ fi, parseInto heap filecur (packet.drop p) isdir
          (ReplyBlock.ntohs (fieldAt packet 16 2)) (ReplyBlock.ntohs (fieldAt packet 18 2)) =
            some (Function.update heap filecur (some { info := fi, next := none }))) ∨
      ¬ BlockInside (packet.drop p) (isdir ≠ 0) (bitmapOf packet (isdir ≠ 0)) ∧
        parseInto heap filecur (packet.drop p) isdir (ReplyBlock.ntohs (fieldAt packet 16 2))
          (ReplyBlock.ntohs (fieldAt packet 18 2)) = none := by
  have hiff := @isSome_parseReplyBlock_iff (packet.drop p) (isdir ≠ 0)
    (ReplyBlock.ntohs (fieldAt packet 16 2)).toUInt32
    (ReplyBlock.ntohs (fieldAt packet 18 2)).toUInt32
  rw [bitmapOf_eq] at hiff
  rw [parseInto]
  cases hparse : parseReplyBlock (packet.drop p) (isdir ≠ 0)
      (ReplyBlock.ntohs (fieldAt packet 16 2)).toUInt32
      (ReplyBlock.ntohs (fieldAt packet 18 2)).toUInt32 with
  | none =>
    rw [hparse] at hiff
    exact .inr ⟨fun h => absurd (hiff.mpr h) Bool.false_ne_true, rfl⟩
  | some fi =>
    rw [hparse] at hiff
    exact .inl ⟨hiff.mp rfl, fi, rfl⟩

theorem le_iterate_nextShort (packet : List UInt8) (p i : ℕ) : p ≤ (nextShort packet)^[i] p := by
  induction i generalizing p with
  | zero => exact Nat.le_refl p
  | succ i ih => exact Nat.le_trans (Nat.le_add_right p _) (ih (nextShort packet p))

/-- **The loop of the first handler**, from some entry on. -/
theorem isSome_enumerateLoop_iff (left p : ℕ) (h : Built malloc infos b) :
    (enumerateLoop malloc packet (ReplyBlock.ntohs (fieldAt packet 16 2))
        (ReplyBlock.ntohs (fieldAt packet 18 2)) left infos.length p b).isSome = true ↔
      ∀ i < left, (nextShort packet)^[i] p ≤ packet.length →
        EntryInside packet 1 2 ((nextShort packet)^[i] p) := by
  induction left generalizing infos p b with
  | zero => exact iff_of_true rfl fun i hi => absurd hi (Nat.not_lt_zero i)
  | succ left ih =>
    by_cases hbound : packet.length < p
    · -- the loop gives up, and so are all entries from here on behind the packet
      rw [enumerateLoop, if_pos hbound]
      refine iff_of_true rfl fun i _ hle => absurd (le_iterate_nextShort packet p i) ?_
      omega
    rw [enumerateLoop, if_neg hbound]
    by_cases hflag : p + 1 < packet.length
    swap
    · obtain ⟨filebase, heap', hlink, -, -⟩ := h.link (malloc.garbage infos.length)
      have hnone : packet[p + 1]? = none := List.getElem?_eq_none (Nat.not_lt.mp hflag)
      simp only [hlink, hnone, Option.bind_eq_bind, Option.bind_none, Option.bind_fun_none]
      exact iff_of_false Bool.false_ne_true fun hall =>
        hflag (hall 0 (Nat.succ_pos left) (Nat.not_lt.mp hbound)).flag
    obtain ⟨filebase, heap', hlink, -, hbuilt⟩ := h.link (malloc.garbage infos.length)
    have hsplit : (∀ i < left + 1, (nextShort packet)^[i] p ≤ packet.length →
          EntryInside packet 1 2 ((nextShort packet)^[i] p)) ↔
        EntryInside packet 1 2 p ∧ ∀ i < left,
          (nextShort packet)^[i] (nextShort packet p) ≤ packet.length →
            EntryInside packet 1 2 ((nextShort packet)^[i] (nextShort packet p)) := by
      refine ⟨fun hall => ⟨hall 0 (Nat.succ_pos left) (Nat.not_lt.mp hbound),
        fun i hi => hall (i + 1) (Nat.succ_lt_succ hi)⟩, fun hall i hi hle => ?_⟩
      cases i with
      | zero => exact hall.1
      | succ i => exact hall.2 i (Nat.lt_of_succ_lt_succ hi) hle
    rw [hsplit]
    simp only [hlink, getElem?_of_lt hflag, getElem?_of_lt (Nat.lt_of_succ_lt hflag),
      Option.bind_eq_bind, Option.bind_some]
    rcases parseInto_cases packet heap' (malloc.addr infos.length) (p + 2) (packet.getD (p + 1) 0)
      with ⟨hinside, fi, hparse⟩ | ⟨hinside, hparse⟩
    · have hnext := ih (nextShort packet p) (hbuilt fi)
      rw [List.length_append, List.length_singleton] at hnext
      rw [hparse, Option.bind_some]
      exact hnext.trans (and_iff_right ⟨hflag, hinside⟩).symm
    · rw [hparse]
      exact iff_of_false Bool.false_ne_true fun hall => hinside hall.1.block

/-- **The loop of the second handler.** -/
theorem isSome_enumerateext2Loop_iff (left p : ℕ) (h : Built malloc infos b) :
    (enumerateext2Loop malloc packet (ReplyBlock.ntohs (fieldAt packet 16 2))
        (ReplyBlock.ntohs (fieldAt packet 18 2)) left infos.length p b).isSome = true ↔
      ∀ i < left, EntryInside packet 2 4 ((nextLong packet)^[i] p) := by
  induction left generalizing infos p b with
  | zero => exact iff_of_true rfl fun i hi => absurd hi (Nat.not_lt_zero i)
  | succ left ih =>
    obtain ⟨filebase, heap', -, hlink, hbuilt⟩ :=
      h.link { malloc.garbage infos.length with next := none }
    rw [enumerateext2Loop]
    by_cases hflag : p + 2 < packet.length
    swap
    · have hnone : packet[p + 2]? = none := List.getElem?_eq_none (Nat.not_lt.mp hflag)
      simp only [hlink, hnone, Option.bind_eq_bind, Option.bind_none, Option.bind_fun_none]
      exact iff_of_false Bool.false_ne_true fun hall => hflag (hall 0 (Nat.succ_pos left)).flag
    have hsplit : (∀ i < left + 1, EntryInside packet 2 4 ((nextLong packet)^[i] p)) ↔
        EntryInside packet 2 4 p ∧ ∀ i < left,
          EntryInside packet 2 4 ((nextLong packet)^[i] (nextLong packet p)) := by
      refine ⟨fun hall => ⟨hall 0 (Nat.succ_pos left),
        fun i hi => hall (i + 1) (Nat.succ_lt_succ hi)⟩, fun hall i hi => ?_⟩
      cases i with
      | zero => exact hall.1
      | succ i => exact hall.2 i (Nat.lt_of_succ_lt_succ hi)
    have hsize : [packet.getD p 0, packet.getD (p + 1) 0] = fieldAt packet p 2 := by
      have hp : p < packet.length := by omega
      have hp' : p + 1 < packet.length := by omega
      rw [fieldAt, List.drop_eq_getElem_cons hp, List.drop_eq_getElem_cons hp']
      simp only [List.take_succ_cons, List.take_zero, List.getD_eq_getElem?_getD,
        List.getElem?_eq_getElem hp, List.getElem?_eq_getElem hp', Option.getD_some]
    rw [hsplit]
    simp only [hlink, getElem?_of_lt hflag, getElem?_of_lt (Nat.lt_of_succ_lt hflag),
      getElem?_of_lt (Nat.lt_of_succ_lt (Nat.lt_of_succ_lt hflag)), Option.bind_eq_bind,
      Option.bind_some, hsize]
    rcases parseInto_cases packet heap' (malloc.addr infos.length) (p + 4) (packet.getD (p + 2) 0)
      with ⟨hinside, fi, hparse⟩ | ⟨hinside, hparse⟩
    · have hnext := ih (nextLong packet p) (hbuilt fi)
      rw [List.length_append, List.length_singleton] at hnext
      rw [hparse, Option.bind_some]
      exact hnext.trans (and_iff_right ⟨hflag, hinside⟩).symm
    · rw [hparse]
      exact iff_of_false Bool.false_ne_true fun hall => hinside hall.1.block

end Loops

/-! ## The parsers -/

section Parsers

variable {packet : List UInt8}

/-- A handler looks at its entries if there is no error and the fixed part of the reply is there. -/
theorem isSome_enumerateReply_iff {heap : Heap} {malloc : Malloc}
    {loop : UInt16 → UInt16 → ℕ → ℕ → ℕ → Builder → Option (ℤ × Builder)} {P : Prop}
    (hsize : 16 ≤ packet.length)
    (hloop : Built malloc [] { heap, filebase := none, filecur := none } →
      ((loop (ReplyBlock.ntohs (fieldAt packet 16 2)) (ReplyBlock.ntohs (fieldAt packet 18 2))
        (countOf packet) 0 replySize { heap, filebase := none, filecur := none }).isSome = true ↔
          P)) :
    (enumerateReply loop heap packet).isSome = true ↔ (Parsed packet → P) := by
  have hfour : ¬ (fieldAt packet 4 4).length < 4 := by
    rw [fieldAt, List.length_take, List.length_drop]
    omega
  rw [enumerateReply]
  simp only [if_neg hfour]
  by_cases herror : fieldAt packet 4 4 ≠ [0, 0, 0, 0]
  · rw [if_pos herror]
    exact iff_of_true rfl fun h => absurd h.noError herror
  rw [if_neg herror]
  by_cases hfixed : packet.length < replySize
  · rw [if_pos hfixed]
    exact iff_of_true rfl fun h => absurd h.fixed (Nat.not_le.mpr hfixed)
  rw [if_neg hfixed]
  have hparsed : Parsed packet := ⟨not_not.mp herror, Nat.not_lt.mp hfixed⟩
  rw [forall_prop_of_true hparsed, ← hloop (built_nil malloc heap)]
  simp only [countOf]
  cases loop (ReplyBlock.ntohs (fieldAt packet 16 2)) (ReplyBlock.ntohs (fieldAt packet 18 2))
      (ReplyBlock.ntohs (fieldAt packet 20 2)).toNat 0 replySize
      { heap, filebase := none, filecur := none } with
  | none => exact Iff.rfl
  | some res =>
    refine iff_of_true ?_ rfl
    simp only [Option.bind_eq_bind, Option.bind_some]
    split <;> rfl

theorem isSome_afpEnumerateReply_iff (malloc : Malloc) (heap : Heap) (hsize : 16 ≤ packet.length) :
    (afpEnumerateReply malloc heap packet).isSome = true ↔ EnumerateInside packet :=
  isSome_enumerateReply_iff hsize (isSome_enumerateLoop_iff (countOf packet) replySize)

theorem isSome_afpEnumerateext2Reply_iff (malloc : Malloc) (heap : Heap)
    (hsize : 16 ≤ packet.length) :
    (afpEnumerateext2Reply malloc heap packet).isSome = true ↔ Enumerateext2Inside packet :=
  isSome_enumerateReply_iff hsize (isSome_enumerateext2Loop_iff (countOf packet) replySize)

theorem isSome_afpGetfiledirparmsReply_iff (filecur : AfpFileInfo) (hsize : 16 ≤ packet.length) :
    (afpGetfiledirparmsReply packet filecur).isSome = true ↔ GetfiledirparmsInside packet := by
  have hfour : ¬ (fieldAt packet 4 4).length < 4 := by
    rw [fieldAt, List.length_take, List.length_drop]
    omega
  rw [afpGetfiledirparmsReply, GetfiledirparmsInside]
  simp only [if_neg hfour]
  by_cases herror : fieldAt packet 4 4 ≠ [0, 0, 0, 0]
  · rw [if_pos herror]
    exact iff_of_true rfl fun h => absurd h.noError herror
  rw [if_neg herror]
  by_cases hfixed : packet.length < replySize
  · rw [if_pos hfixed]
    exact iff_of_true rfl fun h => absurd h.fixed (Nat.not_le.mpr hfixed)
  rw [if_neg hfixed]
  have hparsed : Parsed packet := ⟨not_not.mp herror, Nat.not_lt.mp hfixed⟩
  have hisdir : 20 < packet.length := Nat.lt_of_lt_of_le (by decide) (Nat.not_lt.mp hfixed)
  have hiff := @isSome_parseReplyBlock_iff (packet.drop replySize) (packet.getD 20 0 ≠ 0)
    (ReplyBlock.ntohs (fieldAt packet 16 2)).toUInt32
    (ReplyBlock.ntohs (fieldAt packet 18 2)).toUInt32
  rw [bitmapOf_eq] at hiff
  rw [forall_prop_of_true hparsed, ← hiff]
  simp only [getElem?_of_lt hisdir, Option.bind_eq_bind, Option.bind_some]
  show (Option.bind _ (some ∘ _)).isSome = true ↔ _
  rw [← Option.map_eq_bind, Option.isSome_map]

end Parsers

/-- **Exactly then each parser stays inside the packet.** -/
theorem stays_inside_iff (pk : Packet) (beyond : Beyond) (status : Server.GetStatus.Status)
    (malloc : Malloc) (heap : Heap) (filecur : AfpFileInfo) (hsize : 16 ≤ pk.bytes.length) :
    ((dsiGetstatusReply pk beyond status).isSome = true ↔ (34 ≤ pk.bytes.length → Inside pk)) ∧
    ((afpEnumerateReply malloc heap pk.bytes).isSome = true ↔ EnumerateInside pk.bytes) ∧
    ((afpEnumerateext2Reply malloc heap pk.bytes).isSome = true ↔ Enumerateext2Inside pk.bytes) ∧
    ((afpGetfiledirparmsReply pk.bytes filecur).isSome = true ↔ GetfiledirparmsInside pk.bytes) :=
  ⟨isSome_dsiGetstatusReply_iff, isSome_afpEnumerateReply_iff malloc heap hsize,
    isSome_afpEnumerateext2Reply_iff malloc heap hsize,
    isSome_afpGetfiledirparmsReply_iff filecur hsize⟩

/-- Comparisons that find nothing. -/
def nothing : Beyond := ⟨fun _ => none, fun _ => none⟩

/-- A server of which nothing is known. -/
def unknown : Server.GetStatus.Status := ⟨⟨[], 0⟩, [], [], 0, [], [], []⟩

/-- A reply to an EnumerateExt2 with one entry, a file and its modification date, and zeros behind. -/
def entryReply : List UInt8 :=
  List.replicate 16 0 ++ [0, 8, 0, 0, 0, 1] ++ [0, 8, 0, 0, 0x10, 0x20, 0x30, 0x40] ++
    List.replicate 260 0

/-- Each parser stays inside the reply, which each reads in its own way. -/
theorem stays_inside_iff_of_entry :
    Inside ⟨0x1000, entryReply⟩ ∧ EnumerateInside entryReply ∧ Enumerateext2Inside entryReply ∧
      GetfiledirparmsInside entryReply := by
  obtain ⟨hgetstatus, henumerate, henumerateext2, hgetfiledirparms⟩ :=
    stays_inside_iff ⟨0x1000, entryReply⟩ nothing unknown counting (fun _ => none) AfpFileInfo.zero
      (by decide +kernel)
  exact ⟨hgetstatus.mp (by decide +kernel) (by decide +kernel), henumerate.mp (by decide +kernel),
    henumerateext2.mp (by decide +kernel), hgetfiledirparms.mp (by decide +kernel)⟩

/-- **An entry at the very end.**  The reply to an Enumerate announces one entry and ends: the place of
the entry is not behind the end, and its size is read there. -/
theorem entry_at_the_end :
    ¬ ∀ (pk : Packet) (beyond : Beyond) (status : Server.GetStatus.Status) (malloc : Malloc)
        (heap : Heap) (filecur : AfpFileInfo), 16 ≤ pk.bytes.length →
      (dsiGetstatusReply pk beyond status).isSome = true ∧
      (afpEnumerateReply malloc heap pk.bytes).isSome = true ∧
      (afpEnumerateext2Reply malloc heap pk.bytes).isSome = true ∧
      (afpGetfiledirparmsReply pk.bytes filecur).isSome = true := by
  intro h
  have hread := (h ⟨0x1000, List.replicate 21 0 ++ [1]⟩ nothing unknown counting (fun _ => none)
    AfpFileInfo.zero (by decide)).2.1
  exact absurd hread (by decide)

end ParserBounds
end Afpfs
