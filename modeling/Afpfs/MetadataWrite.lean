import Mathlib.Data.List.TakeWhile
import Afpfs.MetadataRead

/-!
# Writing the virtual files

A write to the Finder info reads the Finder info of the server into one structure and then changes and
sends another, the one of the open file.  A write to the comment takes its data for a string, which
it need not be.

* `write_iff`: in which runs a write of the Finder info that succeeds changes the range that was
  written and nothing else, and in which the comment that is sent is the data.
* `first_byte_clears_the_others`: a write of one byte to a file that has just been opened.
-/

set_option autoImplicit false

namespace Afpfs
namespace MetadataWrite

open Interaction Codepage Unicode Locking

/-! ## What is expected -/

/-- The Finder info of the open file, as one event leaves it on the server. -/
def store (fp : AfpFileInfo) (F : List UInt8) : Event → List UInt8
  | ⟨.request (.setFileDirParms dirid pathname bitmap sent), reply⟩ =>
    if reply.rc = kFPNoErr ∧ dirid = fp.did ∧ pathname = fp.basename ∧
        bitmap &&& kFPFinderInfoBit ≠ 0 then
      sent.finderinfo
    else F
  | _ => F

/-- The Finder info of the open file after a trace, if it was `F` before. -/
def finderinfoAfter (fp : AfpFileInfo) (F : List UInt8) (tr : List Event) : List UInt8 :=
  tr.foldl (store fp) F

/-- The number of bytes that fit. -/
def count (data : List UInt8) (offset : ℕ) : ℕ := min data.length (32 - offset)

/-- A write that succeeds has reported the bytes that fit and written these. -/
def Replaces (fp : AfpFileInfo) (F data : List UInt8) (offset : ℕ) (tr : List Event)
    (res : ℤ × ℕ × AfpFileInfo) : Prop :=
  0 ≤ res.1 → res.2.1 = count data offset ∧
    finderinfoAfter fp F tr = patch F offset (data.take (count data offset))

/-- The comment for the open file in a request. -/
def commentSent (fp : AfpFileInfo) : Event → Option CString
  | ⟨.request (.addComment did pathname comment), _⟩ =>
    if did = fp.did ∧ pathname = fp.basename then some comment else none
  | _ => none

/-- The comments that were sent in a trace. -/
def commentsSent (fp : AfpFileInfo) (tr : List Event) : List CString := tr.filterMap (commentSent fp)

/-! ## When it is so -/

/-- Two contents are the same outside of a range. -/
def AgreeOutside (G F : List UInt8) (offset n : ℕ) : Prop :=
  G.take offset = F.take offset ∧ G.drop (offset + n) = F.drop (offset + n)

/-- The size is an `int`, or at least looks like one that is too large. -/
def FitsInt (data : List UInt8) (offset : ℕ) : Prop :=
  min (UInt32.ofNat data.length).toInt32.toInt (32 - offset) = count data offset

/-- The request goes right: it fails with an error that is reported, or it succeeds and the open file
knows what the server has outside of the range, or it fails with an error that is not reported and
there was nothing to change. -/
def Meets (fp : AfpFileInfo) (F data : List UInt8) (offset : ℕ) : Event → Prop
  | ⟨.request (.setFileDirParms ..), reply⟩ =>
    reply.rc = kFPAccessDenied ∨ reply.rc = kFPObjectNotFound ∨
      FitsInt data offset ∧
        if reply.rc = kFPNoErr then AgreeOutside fp.finderinfo F offset (count data offset)
        else (F.drop offset).take (count data offset) = data.take (count data offset)
  | _ => True

/-- The data is a string with a length of one byte, and what is in memory behind it does not matter. -/
def Terminated (data : List UInt8) : Event → Prop
  | ⟨.uninitPath, beyond⟩ => 0 ∉ data ∧ data.length < 256 ∧
    (List.takeWhile (· ≠ 0) (beyond : CString)).length % 256 = 0
  | _ => True

/-! ## Changing a range -/

section

variable {F G bytes : List UInt8} {offset : ℕ}

theorem patch_eq (h : offset ≤ F.length) :
    patch F offset bytes = F.take offset ++ bytes ++ F.drop (offset + bytes.length) := by
  rw [patch]
  split
  next hnil => rw [hnil, List.append_nil, List.length_nil, Nat.add_zero, List.take_append_drop]
  next => rw [Nat.sub_eq_zero_of_le h, List.replicate_zero, List.append_nil]

theorem patch_eq_patch_iff (hG : G.length = F.length) (h : offset ≤ F.length) :
    patch G offset bytes = patch F offset bytes ↔ AgreeOutside G F offset bytes.length := by
  rw [patch_eq h, patch_eq (hG ▸ h), AgreeOutside]
  have htake : (G.take offset).length = (F.take offset).length := by
    rw [List.length_take, List.length_take, hG]
  constructor
  · intro heq
    have hlen : (G.take offset ++ bytes).length = (F.take offset ++ bytes).length := by
      rw [List.length_append, List.length_append, htake]
    obtain ⟨hleft, hright⟩ := List.append_inj heq hlen
    exact ⟨List.append_cancel_right hleft, hright⟩
  · rintro ⟨hleft, hright⟩
    rw [hleft, hright]

theorem patch_eq_self_iff (h : offset + bytes.length ≤ F.length) :
    patch F offset bytes = F ↔ (F.drop offset).take bytes.length = bytes := by
  have hle : offset ≤ F.length := Nat.le_trans (Nat.le_add_right ..) h
  have hsplit : F = F.take offset ++ (F.drop offset).take bytes.length ++
      F.drop (offset + bytes.length) := by
    rw [List.append_assoc, ← List.drop_drop, List.take_append_drop, List.take_append_drop]
  have hmiddle : (F.take offset ++ bytes).length =
      (F.take offset ++ (F.drop offset).take bytes.length).length := by
    rw [List.length_append, List.length_append, @List.length_take_of_le bytes.length]
    rw [List.length_drop]
    omega
  rw [patch_eq hle]
  constructor
  · intro heq
    have hleft := (List.append_inj (heq.trans hsplit) hmiddle).1
    exact (List.append_cancel_left hleft).symm
  · intro heq
    rw [heq] at hsplit
    exact hsplit.symm

end

/-! ## The Finder info -/

theorem store_setFileDirParms (fp sent : AfpFileInfo) (F : List UInt8) (reply : Reply Unit) :
    store fp F ⟨.request (.setFileDirParms fp.did fp.basename kFPFinderInfoBit sent), reply⟩ =
      if reply.rc = kFPNoErr then sent.finderinfo else F := by
  refine if_congr ?_ rfl rfl
  exact and_iff_left ⟨rfl, rfl, by decide⟩

section

variable {volume : Volume} {fp : AfpFileInfo} {data F : List UInt8} {offset totalwritten fuel : ℕ}

theorem length_take_count : (data.take (count data offset)).length = count data offset := by
  rw [List.length_take, count]
  omega

/-- What a write leaves that has sent its bytes. -/
theorem replaces_iff (hF : F.length = 32) (hfp : fp.finderinfo.length = 32) (hoffset : offset < 32)
    {towrite : ℤ} (htowrite : towrite = min (UInt32.ofNat data.length).toInt32.toInt (32 - offset))
    {rc : ℤ} (hdenied : rc ≠ kFPAccessDenied) (hmissing : rc ≠ kFPObjectNotFound) (hle : 0 ≤ towrite) :
    (towrite.toNat = count data offset ∧
        (if rc = kFPNoErr then patch fp.finderinfo offset (data.take towrite.toNat) else F) =
          patch F offset (data.take (count data offset))) ↔
      rc = kFPAccessDenied ∨ rc = kFPObjectNotFound ∨
        FitsInt data offset ∧
          if rc = kFPNoErr then AgreeOutside fp.finderinfo F offset (count data offset)
          else (F.drop offset).take (count data offset) = data.take (count data offset) := by
  have hcount : towrite.toNat = count data offset ↔ FitsInt data offset := by
    rw [FitsInt, ← htowrite]
    omega
  rw [or_iff_right hdenied, or_iff_right hmissing, ← hcount]
  refine and_congr_right fun heq => ?_
  have hlen := @length_take_count data offset
  have hfit : offset + (data.take (count data offset)).length ≤ F.length := by
    rw [hlen, hF, count]
    omega
  rw [heq]
  split
  next =>
    rw [patch_eq_patch_iff (hfp.trans hF.symm) (by omega), hlen]
  next =>
    rw [eq_comm, patch_eq_self_iff hfit, hlen]

/-- **A write to the Finder info.** -/
theorem returns_finderinfo (hkind : fp.resource = .finderinfo) (hF : F.length = 32)
    (hfp : fp.finderinfo.length = 32) (hoffset : offset < 32) :
    Prog.Returns (fun tr res =>
        Replaces fp F data offset tr res ↔ ∀ ev ∈ tr, Meets fp F data offset ev)
      (appledoubleWrite volume fp data offset totalwritten fuel) := by
  rw [appledoubleWrite, hkind]
  refine Prog.returns_ite (fun h => absurd hoffset (Nat.not_lt.mpr h)) fun _ => ?_
  intro fp2 found
  refine Prog.returns_ite (fun hneg => ?_) fun _ => ?_
  · refine iff_of_true (fun hle => absurd hneg (Int.not_lt.mpr hle)) ?_
    exact List.forall_mem_cons.mpr ⟨trivial, List.forall_mem_singleton.mpr trivial⟩
  · refine Prog.returns_ite (fun _ => trivial) fun hle => ?_
    intro reply
    have hmeets (last : Event) : (∀ ev ∈ [(⟨.uninitFileInfo, fp2⟩ : Event), ⟨.request
        (.getFileDirParms fp.did kFPFinderInfoBit kFPFinderInfoBit fp.basename), found⟩, last],
          Meets fp F data offset ev) ↔ Meets fp F data offset last := by
      rw [List.forall_mem_cons, List.forall_mem_cons, List.forall_mem_singleton]
      exact ⟨fun h => h.2.2, fun h => ⟨trivial, trivial, h⟩⟩
    refine Prog.returns_ite (fun hdenied => ?_) fun hdenied =>
      Prog.returns_ite (fun hmissing => ?_) fun hmissing => ?_
    · refine iff_of_true (fun hle => absurd hle (show ¬ (0 : ℤ) ≤ -EACCES by decide)) ?_
      exact (hmeets _).mpr (.inl hdenied)
    · refine iff_of_true (fun hle => absurd hle (show ¬ (0 : ℤ) ≤ -ENOENT by decide)) ?_
      exact (hmeets _).mpr (.inr (.inl hmissing))
    · refine Iff.trans ?_ (hmeets _).symm
      refine Iff.trans ?_ (replaces_iff hF hfp hoffset rfl hdenied hmissing (Int.not_lt.mp hle))
      rw [Replaces, forall_prop_of_true (show (0 : ℤ) ≤ 1 by decide)]
      exact and_congr_right fun _ => iff_of_eq
        (congrArg (· = patch F offset (data.take (count data offset)))
          (store_setFileDirParms fp _ F reply))

/-! ## The comment -/

/-- What the length byte leaves of a string. -/
theorem tail_copyToPascal (src : CString) :
    (PathBlock.copyToPascal src).1.tail = src.take (src.length % 256) :=
  congrArg (src.take ·) UInt8.toNat_ofNat'

/-- The data is sent exactly if its string has no other end and the length byte does not cut it. -/
theorem sent_eq_iff (beyond : CString) :
    (PathBlock.copyToPascal ((data ++ beyond).takeWhile (· ≠ 0))).1.tail = data ↔
      0 ∉ data ∧ data.length < 256 ∧ (beyond.takeWhile (· ≠ 0)).length % 256 = 0 := by
  rw [tail_copyToPascal, List.takeWhile_append]
  have hself : (data.takeWhile (· ≠ 0)).length = data.length ↔ 0 ∉ data := by
    refine Iff.trans ⟨(List.takeWhile_prefix _).eq_of_length, congrArg List.length⟩ ?_
    rw [List.takeWhile_eq_self_iff]
    simp only [decide_eq_true_eq]
    exact ⟨fun h hmem => h 0 hmem rfl, fun h byte hmem heq => h (heq ▸ hmem)⟩
  split
  next h =>
    rw [and_iff_right (hself.mp h), List.length_append]
    constructor
    · intro heq
      have hlen := congrArg List.length heq
      rw [List.length_take, List.length_append] at hlen
      omega
    · rintro ⟨hlt, hzero⟩
      rw [← Nat.add_mod_mod, hzero, Nat.add_zero, Nat.mod_eq_of_lt hlt, List.take_left]
  next h =>
    refine iff_of_false (fun heq => ?_) fun hmeets => h (hself.mpr hmeets.1)
    have hle := (List.takeWhile_prefix (l := data) (· ≠ 0)).length_le
    have hlen := congrArg List.length heq
    rw [List.length_take] at hlen
    omega

theorem commentsSent_iff (beyond : CString) (reply : Reply Unit) :
    commentsSent fp [⟨.uninitPath, beyond⟩, ⟨.request (.addComment fp.did fp.basename
        (PathBlock.copyToPascal ((data ++ beyond).takeWhile (· ≠ 0))).1.tail), reply⟩] = [data] ↔
      ∀ ev ∈ [(⟨.uninitPath, beyond⟩ : Event), ⟨.request (.addComment fp.did fp.basename
        (PathBlock.copyToPascal ((data ++ beyond).takeWhile (· ≠ 0))).1.tail), reply⟩],
        Terminated data ev := by
  have hsent : commentSent fp ⟨.request (.addComment fp.did fp.basename (PathBlock.copyToPascal
      ((data ++ beyond).takeWhile (· ≠ 0))).1.tail), reply⟩ =
        some (PathBlock.copyToPascal ((data ++ beyond).takeWhile (· ≠ 0))).1.tail :=
    if_pos ⟨rfl, rfl⟩
  rw [commentsSent, List.filterMap_cons_none rfl, List.filterMap_cons_some hsent,
    List.filterMap_nil, List.singleton_inj, sent_eq_iff, List.forall_mem_cons,
    List.forall_mem_singleton]
  exact (and_iff_left trivial).symm

/-- **A write to the comment.** -/
theorem returns_comment (hkind : fp.resource = .comment) :
    Prog.Returns (fun tr _ => commentsSent fp tr = [data] ↔ ∀ ev ∈ tr, Terminated data ev)
      (appledoubleWrite volume fp data offset totalwritten fuel) := by
  rw [appledoubleWrite, hkind]
  intro beyond reply
  have hiff := @commentsSent_iff fp data beyond reply
  exact Prog.returns_ite (fun _ => hiff) fun _ => Prog.returns_ite (fun _ => hiff) fun _ =>
    Prog.returns_ite (fun _ => hiff) fun _ => hiff

end

/-- **In which runs a write is right**, of the Finder info and of the comment. -/
theorem write_iff (volume : Volume) (fp : AfpFileInfo) (data : List UInt8)
    (offset totalwritten fuel : ℕ) :
    (∀ F : List UInt8, fp.resource = .finderinfo → F.length = 32 → fp.finderinfo.length = 32 →
      offset < 32 → Prog.Returns (fun tr res =>
          Replaces fp F data offset tr res ↔ ∀ ev ∈ tr, Meets fp F data offset ev)
        (appledoubleWrite volume fp data offset totalwritten fuel)) ∧
      (fp.resource = .comment → Prog.Returns (fun tr _ =>
          commentsSent fp tr = [data] ↔ ∀ ev ∈ tr, Terminated data ev)
        (appledoubleWrite volume fp data offset totalwritten fuel)) :=
  ⟨fun _ hkind hF hfp hoffset => returns_finderinfo hkind hF hfp hoffset, returns_comment⟩

/-- A Finder info that has just been opened. -/
def openFinderinfo : AfpFileInfo := { AfpFileInfo.zero with resource := .finderinfo }

/-- A Finder info on the server. -/
def ones : List UInt8 := List.replicate 32 1

/-- One byte, to the Finder info and to the comment. -/
theorem write_iff_of_one_byte :
    Prog.Returns (fun tr res => Replaces openFinderinfo ones [5] 0 tr res ↔
        ∀ ev ∈ tr, Meets openFinderinfo ones [5] 0 ev)
      (appledoubleWrite Volume.plain openFinderinfo [5] 0 0 0) ∧
    Prog.Returns (fun tr _ => commentsSent MetadataRead.openComment tr = [[5]] ↔
        ∀ ev ∈ tr, Terminated [5] ev)
      (appledoubleWrite Volume.plain MetadataRead.openComment [5] 0 0 0) :=
  ⟨(write_iff Volume.plain openFinderinfo [5] 0 0 0).1 ones rfl rfl rfl (by decide),
    (write_iff Volume.plain MetadataRead.openComment [5] 0 0 0).2 rfl⟩

/-- **One byte clears the others.**  The server answers both requests without an error, and the
Finder info is what the open file has, which nothing has filled in. -/
theorem first_byte_clears_the_others :
    ¬ ∀ (volume : Volume) (fp : AfpFileInfo) (data F : List UInt8) (offset totalwritten fuel : ℕ),
      fp.resource = .finderinfo → F.length = 32 → fp.finderinfo.length = 32 → offset < 32 →
        Prog.Returns (Replaces fp F data offset)
          (appledoubleWrite volume fp data offset totalwritten fuel) := by
  intro h
  have hreturns := h Volume.plain openFinderinfo [5] ones 0 0 0 rfl rfl rfl (by decide)
  have hwritten : Replaces openFinderinfo ones [5] 0 _ _ :=
    hreturns AfpFileInfo.zero ⟨kFPNoErr, none⟩ ⟨kFPNoErr, none⟩
  have hbytes := (hwritten (by decide)).2
  exact absurd hbytes (by decide)

end MetadataWrite
end Afpfs
