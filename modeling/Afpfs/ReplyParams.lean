import Afpfs.ReplyBlock

/-!
# The parameters as a list

`parse_reply_block()` is a sequence of steps of one kind: if the bit of a parameter is set, its bytes
are stored, or skipped, and the cursor moves over them.  Here the steps are a list, so that what is to
be said about each of them is proved by induction.

* `parseParms_eq`: the code reads the list of parameters.
* `parseReplyBlock_append`: what is behind a block that can be parsed does not matter.
* `isSome_parseReplyBlock_iff`: when nothing is read behind the end of a block.
-/

set_option autoImplicit false

namespace Afpfs
namespace ReplyBlock

open Wire

/-! ## The steps -/

/-- One parameter: its bit, the number of its bytes, and how they are stored in the structure, given
all bytes of the block, or that they are skipped. -/
structure Param where
  bit : ℕ
  width : ℕ
  store : Option (List UInt8 → AfpFileInfo → List UInt8 → Option AfpFileInfo)

/-- One step. -/
def Param.read (buf : List UInt8) (bitmap : UInt16) (param : Param) (p : AfpFileInfo × List UInt8) :
    Option (AfpFileInfo × List UInt8) :=
  match param.store with
  | some store => field (has bitmap param.bit) param.width (store buf) p
  | none => some (skip (has bitmap param.bit) param.width p)

/-- All steps. -/
def readParams (buf : List UInt8) (bitmap : UInt16) (params : List Param)
    (p : AfpFileInfo × List UInt8) : Option (AfpFileInfo × List UInt8) :=
  params.foldlM (fun p param => param.read buf bitmap p) p

/-- A parameter with a value. -/
def Param.value {α : Type} (bit width : ℕ) (set : AfpFileInfo → α → AfpFileInfo)
    (dec : List UInt8 → α) : Param where
  bit := bit
  width := width
  store := some fun _ => storing set dec

/-- A parameter that is not looked at. -/
def Param.skipped (bit width : ℕ) : Param where
  bit := bit
  width := width
  store := none

/-- The long name. -/
def Param.longName : Param where
  bit := kFPLongNameBit
  width := 2
  store := some storeLongName

/-- The UTF-8 name. -/
def Param.utf8Name : Param where
  bit := kFPUTF8NameBit
  width := 2
  store := some storeUtf8Name

/-- The parameters of directories alone. -/
def dirParams : List Param :=
  [.value kFPOffspringCountBit 2 (fun fi x => { fi with offspring := x }) ntohs,
    .value kFPOwnerIDBit 4 (fun fi x => { fi with unixprivs.uid := x }) ntohl,
    .value kFPGroupIDBit 4 (fun fi x => { fi with unixprivs.gid := x }) ntohl,
    .value kFPAccessRightsBit 4 (fun fi x => { fi with accessrights := x }) ntohl]

/-- The parameters of files alone. -/
def fileParams : List Param :=
  [.value kFPDataForkLenBit 4 (fun fi x => { fi with size := x }) fun bytes =>
      (ntohl bytes).toUInt64,
    .value kFPRsrcForkLenBit 4 (fun fi x => { fi with resourcesize := x }) fun bytes =>
      (ntohl bytes).toUInt16,
    .value kFPExtDataForkLenBit 8 (fun fi x => { fi with size := x }) ntoh64,
    .skipped kFPLaunchLimitBit 2]

/-- The parameters, in the order of the code. -/
def params (isdir : Bool) : List Param :=
  [.value kFPAttributeBit 2 (fun fi x => { fi with attributes := x }) ntohs,
    .value kFPParentDirIDBit 4 (fun fi x => { fi with did := x }) ntohl,
    .value kFPCreateDateBit 4 (fun fi x => { fi with creationDate := x }) adDateToUnix,
    .value kFPModDateBit 4 (fun fi x => { fi with modificationDate := x }) adDateToUnix,
    .value kFPBackupDateBit 4 (fun fi x => { fi with backupDate := x }) adDateToUnix,
    .value kFPFinderInfoBit 32 (fun fi x => { fi with finderinfo := x }) id,
    .longName,
    .skipped kFPShortNameBit 2,
    .value kFPNodeIDBit 4 (fun fi x => { fi with fileid := x }) ntohl] ++
  ((if isdir then dirParams else fileParams) ++
    [.utf8Name,
      .skipped kFPUTF8NameBit 4,
      .value kFPExtRsrcForkLenBit 8 (fun fi x => { fi with resourcesize := x }) fun bytes =>
        (ntoh64 bytes).toUInt16,
      .value kFPUnixPrivsBit 16 (fun fi x => { fi with unixprivs := x }) ReplyBlock.unixprivs])

/-- **The code reads the list of parameters.** -/
theorem parseParms_eq (buf : List UInt8) (isdir : Bool) (bitmap : UInt16)
    (p : AfpFileInfo × List UInt8) :
    parseParms buf isdir bitmap p = (readParams buf bitmap (params isdir) p).map Prod.fst := by
  cases isdir with
  | false =>
    simp only [parseParms, parseFile, parseLast, readParams, params, fileParams, Param.read,
      Param.value, Param.longName, Param.utf8Name, Param.skipped, List.cons_append, List.nil_append, List.foldlM_cons,
      List.foldlM_nil, Bool.false_eq_true, if_false, Option.bind_eq_bind, Option.pure_def,
      Option.bind_some, Option.bind_assoc, Option.map_bind, Function.comp_def, Option.map_some]
  | true =>
    simp only [parseParms, parseDir, parseLast, readParams, params, dirParams, Param.read,
      Param.value, Param.longName, Param.utf8Name, Param.skipped, List.cons_append, List.nil_append, List.foldlM_cons,
      List.foldlM_nil, if_true, Option.bind_eq_bind, Option.pure_def,
      Option.bind_some, Option.bind_assoc, Option.map_bind, Function.comp_def, Option.map_some]

/-! ## What is behind a block -/

/-- How a parameter uses the block: not at all, or as the place where a name is. -/
inductive Param.Kind (param : Param) : Prop
  | value (set : AfpFileInfo → List UInt8 → AfpFileInfo)
    (hstore : param.store = some fun _ fi bytes => some (set fi bytes))
  | longName (heq : param = .longName)
  | utf8Name (heq : param = .utf8Name)
  | skipped (hstore : param.store = none)

theorem kind_of_mem {isdir : Bool} {param : Param} (h : param ∈ params isdir) : param.Kind := by
  have hvalue {α : Type} (bit width : ℕ) (set : AfpFileInfo → α → AfpFileInfo)
      (dec : List UInt8 → α) : (Param.value bit width set dec).Kind :=
    .value (fun fi bytes => set fi (dec bytes)) rfl
  cases isdir with
  | false =>
    simp only [params, fileParams, List.cons_append, List.nil_append, Bool.false_eq_true, if_false,
      List.mem_cons, List.not_mem_nil, or_false] at h
    rcases h with rfl | rfl | rfl | rfl | rfl | rfl | rfl | rfl | rfl | rfl | rfl | rfl | rfl | rfl |
      rfl | rfl | rfl
    all_goals first
      | exact hvalue ..
      | exact .longName rfl
      | exact .utf8Name rfl
      | exact .skipped rfl
  | true =>
    simp only [params, dirParams, List.cons_append, List.nil_append, if_true, List.mem_cons,
      List.not_mem_nil, or_false] at h
    rcases h with rfl | rfl | rfl | rfl | rfl | rfl | rfl | rfl | rfl | rfl | rfl | rfl | rfl | rfl |
      rfl | rfl | rfl
    all_goals first
      | exact hvalue ..
      | exact .longName rfl
      | exact .utf8Name rfl
      | exact .skipped rfl

theorem copyFromPascal_append {pascal name : List UInt8} {maxLen : ℕ}
    (h : copyFromPascal pascal maxLen = some name) (rest : List UInt8) :
    copyFromPascal (pascal ++ rest) maxLen = some name := by
  cases pascal with
  | nil => cases h
  | cons b data =>
    simp only [copyFromPascal] at h
    by_cases hle : min b.toNat maxLen ≤ data.length
    · rw [if_pos hle] at h
      rw [List.cons_append, copyFromPascal, if_pos (by rw [List.length_append]; omega), List.take_append_of_le_length hle]
      exact h
    · rw [if_neg hle] at h
      cases h

theorem copyFromPascalTwo_append {dest pascal name : List UInt8} {maxLen : ℕ}
    (h : copyFromPascalTwo dest pascal maxLen = some name) (rest : List UInt8) :
    copyFromPascalTwo dest (pascal ++ rest) maxLen = some name := by
  rw [copyFromPascalTwo] at h
  by_cases htwo : 2 ≤ pascal.length
  · rw [if_pos htwo] at h
    rw [copyFromPascalTwo, if_pos (by rw [List.length_append]; omega),
      List.take_append_of_le_length htwo, List.drop_append_of_le_length htwo]
    simp only at h ⊢
    split at h
    next hzero => rw [if_pos hzero, h]
    next hzero =>
      rw [if_neg hzero]
      by_cases hle : min (ntohs (pascal.take 2)).toNat maxLen ≤ (pascal.drop 2).length
      · rw [if_pos hle] at h
        rw [if_pos (by rw [List.length_append]; omega), List.take_append_of_le_length hle]
        exact h
      · rw [if_neg hle] at h
        cases h
  · rw [if_neg htwo] at h
    cases h

theorem copyFromPascal_prefix {pascal pascal' name : List UInt8} {maxLen : ℕ}
    (hpascal : pascal <+: pascal') (h : copyFromPascal pascal maxLen = some name) :
    copyFromPascal pascal' maxLen = some name := by
  obtain ⟨rest, rfl⟩ := hpascal
  exact copyFromPascal_append h rest

/-- A step that succeeds does the same with more behind the block. -/
theorem Param.Kind.read_prefix {param : Param} (hkind : param.Kind) {buf buf' : List UInt8}
    {bitmap : UInt16} {fi fi' : AfpFileInfo} {p p' q : List UInt8} (hbuf : buf <+: buf')
    (hpq : p <+: q) (h : param.read buf bitmap (fi, p) = some (fi', p')) :
    ∃ q', param.read buf' bitmap (fi, q) = some (fi', q') ∧ p' <+: q' := by
  have hfield : ∀ store, param.store = some store →
      (∀ bytes fi', store buf fi bytes = some fi' → store buf' fi bytes = some fi') →
      ∃ q', param.read buf' bitmap (fi, q) = some (fi', q') ∧ p' <+: q' := by
    intro store hstore hmono
    simp only [Param.read, hstore] at h ⊢
    exact field_prefix hpq hmono h
  cases hkind with
  | value set hstore => exact hfield _ hstore fun _ _ h => h
  | longName heq =>
    refine hfield storeLongName (heq ▸ rfl) fun bytes fi' h => ?_
    obtain ⟨name, hname, hfi⟩ := Option.bind_eq_some_iff.mp h
    exact Option.bind_eq_some_iff.mpr ⟨name, copyFromPascal_prefix (hbuf.drop _) hname, hfi⟩
  | utf8Name heq =>
    refine hfield storeUtf8Name (heq ▸ rfl) fun bytes fi' h => ?_
    obtain ⟨name, hname, hfi⟩ := Option.bind_eq_some_iff.mp h
    obtain ⟨rest, hrest⟩ := hbuf.drop ((ntohs bytes).toNat + 4)
    refine Option.bind_eq_some_iff.mpr ⟨name, ?_, hfi⟩
    rw [← hrest]
    exact copyFromPascalTwo_append hname rest
  | skipped hstore =>
    simp only [Param.read, hstore] at h ⊢
    cases hhas : has bitmap param.bit with
    | false =>
      rw [hhas] at h
      obtain ⟨rfl, rfl⟩ := Prod.mk.inj (Option.some.inj h)
      exact ⟨q, rfl, hpq⟩
    | true =>
      rw [hhas] at h
      obtain ⟨rfl, rfl⟩ := Prod.mk.inj (Option.some.inj h)
      exact ⟨q.drop param.width, rfl, List.IsPrefix.drop hpq _⟩

theorem readParams_prefix {ps : List Param} (hkinds : ∀ param ∈ ps, param.Kind)
    {buf buf' : List UInt8} {bitmap : UInt16} {fi fi' : AfpFileInfo} {p p' q : List UInt8}
    (hbuf : buf <+: buf') (hpq : p <+: q)
    (h : readParams buf bitmap ps (fi, p) = some (fi', p')) :
    ∃ q', readParams buf' bitmap ps (fi, q) = some (fi', q') ∧ p' <+: q' := by
  induction ps generalizing fi p q with
  | nil =>
    obtain ⟨rfl, rfl⟩ := Prod.mk.inj (Option.some.inj h)
    exact ⟨q, rfl, hpq⟩
  | cons param ps ih =>
    obtain ⟨hkind, hkinds⟩ := List.forall_mem_cons.mp hkinds
    obtain ⟨⟨fi₁, p₁⟩, hread, h⟩ := Option.bind_eq_some_iff.mp h
    obtain ⟨q₁, hread', hpq₁⟩ := hkind.read_prefix hbuf hpq hread
    obtain ⟨q', hrest, hpq'⟩ := ih hkinds hpq₁ h
    exact ⟨q', Option.bind_eq_some_iff.mpr ⟨_, hread', hrest⟩, hpq'⟩

/-- **What is behind a block does not matter**, if the block can be parsed. -/
theorem parseReplyBlock_append {buf : List UInt8} {isdir : Bool} {filebitmap dirbitmap : UInt32}
    {fi : AfpFileInfo} (h : parseReplyBlock buf isdir filebitmap dirbitmap = some fi)
    (rest : List UInt8) :
    parseReplyBlock (buf ++ rest) isdir filebitmap dirbitmap = some fi := by
  rw [parseReplyBlock, parseParms_eq] at h
  obtain ⟨⟨fi', p'⟩, hread, rfl⟩ := Option.map_eq_some_iff.mp h
  obtain ⟨q', hread', -⟩ := readParams_prefix (fun _ => kind_of_mem) (List.prefix_append buf rest)
    (List.prefix_append buf rest) hread
  rw [parseReplyBlock, parseParms_eq, hread']
  rfl

/-! ## When a block is left -/

/-- A field of a packet. -/
def fieldAt (packet : List UInt8) (i width : ℕ) : List UInt8 := (packet.drop i).take width

/-- The part of a pascal string that is copied is in the buffer. -/
def PascalInside (buf : List UInt8) (i maxLen : ℕ) : Prop :=
  i + 1 + min (buf.getD i 0).toNat maxLen ≤ buf.length

/-- The same for a string with a length of two bytes. -/
def PascalTwoInside (buf : List UInt8) (i maxLen : ℕ) : Prop :=
  i + 2 + min (ntohs (fieldAt buf i 2)).toNat maxLen ≤ buf.length

theorem isSome_copyFromPascal_iff {buf : List UInt8} {i maxLen : ℕ} :
    (copyFromPascal (buf.drop i) maxLen).isSome = true ↔ PascalInside buf i maxLen := by
  rw [PascalInside]
  by_cases hi : i < buf.length
  · rw [List.drop_eq_getElem_cons hi, copyFromPascal, List.getD_eq_getElem?_getD,
      List.getElem?_eq_getElem hi, Option.getD_some]
    simp only [List.length_drop]
    by_cases hle : min buf[i].toNat maxLen ≤ buf.length - (i + 1)
    · rw [if_pos hle]
      exact iff_of_true rfl (by omega)
    · rw [if_neg hle]
      exact iff_of_false Bool.false_ne_true (by omega)
  · rw [List.drop_eq_nil_of_le (Nat.not_lt.mp hi), copyFromPascal]
    exact iff_of_false Bool.false_ne_true (by omega)

theorem isSome_copyFromPascalTwo_iff {dest buf : List UInt8} {i maxLen : ℕ} :
    (copyFromPascalTwo dest (buf.drop i) maxLen).isSome = true ↔ PascalTwoInside buf i maxLen := by
  rw [PascalTwoInside, copyFromPascalTwo, fieldAt]
  simp only [List.length_drop]
  by_cases htwo : 2 ≤ buf.length - i
  · rw [if_pos htwo]
    split
    next hzero => exact iff_of_true rfl (by omega)
    next hzero =>
      split
      next hle => exact iff_of_true rfl (by omega)
      next hle => exact iff_of_false Bool.false_ne_true (by omega)
  · rw [if_neg htwo]
    exact iff_of_false Bool.false_ne_true (by omega)

theorem isSome_storeLongName_iff {buf offset : List UInt8} {fi : AfpFileInfo} :
    (storeLongName buf fi offset).isSome = true ↔
      PascalInside buf (ntohs offset).toNat AFP_MAX_PATH := by
  have heq : storeLongName buf fi offset =
      (copyFromPascal (buf.drop (ntohs offset).toNat) AFP_MAX_PATH).map
        fun name => { fi with name := name } := Option.map_eq_bind.symm
  rw [heq, Option.isSome_map, isSome_copyFromPascal_iff]

theorem isSome_storeUtf8Name_iff {buf offset : List UInt8} {fi : AfpFileInfo} :
    (storeUtf8Name buf fi offset).isSome = true ↔
      PascalTwoInside buf ((ntohs offset).toNat + 4) AFP_MAX_PATH := by
  have heq : storeUtf8Name buf fi offset =
      (copyFromPascalTwo fi.name (buf.drop ((ntohs offset).toNat + 4)) AFP_MAX_PATH).map
        fun name => { fi with name := name } := Option.map_eq_bind.symm
  rw [heq, Option.isSome_map, isSome_copyFromPascalTwo_iff]

/-- The bytes of those of some parameters that are selected. -/
def size (bitmap : UInt16) (ps : List Param) : ℕ :=
  (ps.map fun param => if has bitmap param.bit then param.width else 0).sum

/-- Where a parameter is: behind the selected ones that come before it. -/
def place (isdir : Bool) (bitmap : UInt16) (bit : ℕ) : ℕ :=
  size bitmap ((params isdir).takeWhile fun param => param.bit ≠ bit)

/-- The selected parameters and the names they point to are in the block. -/
structure BlockInside (buf : List UInt8) (isdir : Bool) (bitmap : UInt16) : Prop where
  fields : ∀ param ∈ params isdir, param.store.isSome = true → has bitmap param.bit = true →
    place isdir bitmap param.bit + param.width ≤ buf.length
  longName : has bitmap kFPLongNameBit = true → PascalInside buf
    (ntohs (fieldAt buf (place isdir bitmap kFPLongNameBit) 2)).toNat AFP_MAX_PATH
  utf8Name : has bitmap kFPUTF8NameBit = true → PascalTwoInside buf
    ((ntohs (fieldAt buf (place isdir bitmap kFPUTF8NameBit) 2)).toNat + 4) AFP_MAX_PATH

/-- Whether a value can be stored. -/
def Param.stores (param : Param) (buf bytes : List UInt8) : Bool :=
  param.store.all fun store => (store buf AfpFileInfo.zero bytes).isSome

/-- What is in the structure does not matter for that. -/
theorem Param.Kind.isSome_store {param : Param} (hkind : param.Kind)
    {store : List UInt8 → AfpFileInfo → List UInt8 → Option AfpFileInfo}
    (hstore : param.store = some store) (buf bytes : List UInt8) (fi : AfpFileInfo) :
    (store buf fi bytes).isSome = param.stores buf bytes := by
  rw [Param.stores, hstore, Option.all_some]
  cases hkind with
  | value set hset =>
    obtain rfl := Option.some.inj (hset.symm.trans hstore)
    rfl
  | longName heq =>
    subst heq
    obtain rfl := Option.some.inj hstore
    exact Bool.eq_iff_iff.mpr (isSome_storeLongName_iff.trans isSome_storeLongName_iff.symm)
  | utf8Name heq =>
    subst heq
    obtain rfl := Option.some.inj hstore
    exact Bool.eq_iff_iff.mpr (isSome_storeUtf8Name_iff.trans isSome_storeUtf8Name_iff.symm)
  | skipped hskip => exact absurd (hskip.symm.trans hstore) (Option.some_ne_none store).symm

/-- What a step needs of the block, with the cursor at `i`. -/
def Param.Inside (param : Param) (buf : List UInt8) (bitmap : UInt16) (i : ℕ) : Prop :=
  param.store.isSome = true → has bitmap param.bit = true →
    i + param.width ≤ buf.length ∧ param.stores buf (fieldAt buf i param.width) = true

/-- **One step** moves the cursor over a selected parameter, if what it reads is in the block. -/
theorem Param.Kind.read_eq {param : Param} (hkind : param.Kind) (hwidth : 0 < param.width)
    {buf : List UInt8} {bitmap : UInt16} (i : ℕ) (fi : AfpFileInfo) :
    param.Inside buf bitmap i ∧
        (∃ fi', param.read buf bitmap (fi, buf.drop i) =
          some (fi', buf.drop (i + if has bitmap param.bit then param.width else 0))) ∨
      ¬ param.Inside buf bitmap i ∧ param.read buf bitmap (fi, buf.drop i) = none := by
  cases hstore : param.store with
  | none =>
    have hskip : param.store.isSome = false := hstore ▸ rfl
    refine .inl ⟨fun h => absurd (hskip.symm.trans h) Bool.false_ne_true, fi, ?_⟩
    rw [Param.read, hstore]
    cases has bitmap param.bit with
    | false => rfl
    | true => exact congrArg (fun p => some (fi, p)) List.drop_drop
  | some store =>
    have hread : param.read buf bitmap (fi, buf.drop i) =
        field (has bitmap param.bit) param.width (store buf) (fi, buf.drop i) := by
      rw [Param.read, hstore]
    rw [hread]
    cases hhas : has bitmap param.bit with
    | false => exact .inl ⟨fun _ h => absurd (hhas.symm.trans h) Bool.false_ne_true, fi, rfl⟩
    | true =>
      simp only [field, if_true, List.length_drop]
      by_cases hle : param.width ≤ buf.length - i
      · rw [if_pos hle]
        have hbound : i + param.width ≤ buf.length := by omega
        have hisSome := hkind.isSome_store hstore buf (fieldAt buf i param.width) fi
        cases hvalue : store buf fi (fieldAt buf i param.width) with
        | none =>
          rw [hvalue] at hisSome
          refine .inr ⟨fun h => ?_, ?_⟩
          · exact absurd ((h (hstore ▸ rfl) hhas).2.symm.trans hisSome.symm) Bool.false_ne_true.symm
          · rw [fieldAt] at hvalue
            rw [hvalue, Option.map_none]
        | some fi' =>
          rw [hvalue] at hisSome
          refine .inl ⟨fun _ _ => ⟨hbound, hisSome.symm⟩, fi', ?_⟩
          rw [fieldAt] at hvalue
          rw [hvalue, Option.map_some, List.drop_drop]
      · rw [if_neg hle]
        refine .inr ⟨fun h => hle ?_, rfl⟩
        have := (h (hstore ▸ rfl) hhas).1
        omega

/-- All steps: each of them has to find what it reads where the selected ones before it end. -/
theorem isSome_readParams_iff {ps : List Param} (hkinds : ∀ param ∈ ps, param.Kind)
    (hwidths : ∀ param ∈ ps, 0 < param.width) {buf : List UInt8} {bitmap : UInt16} (i : ℕ)
    (fi : AfpFileInfo) :
    (readParams buf bitmap ps (fi, buf.drop i)).isSome = true ↔
      ∀ ps₁ param ps₂, ps = ps₁ ++ param :: ps₂ →
        param.Inside buf bitmap (i + size bitmap ps₁) := by
  induction ps generalizing i fi with
  | nil =>
    refine iff_of_true rfl fun ps₁ param ps₂ heq => ?_
    exact absurd heq.symm (List.append_ne_nil_of_right_ne_nil _ (List.cons_ne_nil _ _))
  | cons param ps ih =>
    obtain ⟨hkind, hkinds⟩ := List.forall_mem_cons.mp hkinds
    obtain ⟨hwidth, hwidths⟩ := List.forall_mem_cons.mp hwidths
    have hcons : ∀ p, readParams buf bitmap (param :: ps) p =
        (param.read buf bitmap p).bind (readParams buf bitmap ps) := fun _ => rfl
    have hsplit : (∀ ps₁ q ps₂, param :: ps = ps₁ ++ q :: ps₂ →
          q.Inside buf bitmap (i + size bitmap ps₁)) ↔
        param.Inside buf bitmap i ∧ ∀ ps₁ q ps₂, ps = ps₁ ++ q :: ps₂ →
          q.Inside buf bitmap
            (i + (if has bitmap param.bit then param.width else 0) + size bitmap ps₁) := by
      refine ⟨fun h => ⟨h [] param ps rfl, fun ps₁ q ps₂ heq => ?_⟩, fun h ps₁ q ps₂ heq => ?_⟩
      · have := h (param :: ps₁) q ps₂ (heq ▸ rfl)
        rwa [size, List.map_cons, List.sum_cons, ← Nat.add_assoc] at this
      · cases ps₁ with
        | nil =>
          obtain ⟨rfl, rfl⟩ := List.cons.inj heq
          exact h.1
        | cons r ps₁ =>
          obtain ⟨rfl, rfl⟩ := List.cons.inj heq
          rw [size, List.map_cons, List.sum_cons, ← Nat.add_assoc]
          exact h.2 ps₁ q ps₂ rfl
    rw [hcons, hsplit]
    rcases hkind.read_eq hwidth i fi with ⟨hinside, fi', hread⟩ | ⟨hinside, hread⟩
    · rw [hread, Option.bind_some, ih hkinds hwidths]
      exact (and_iff_right hinside).symm
    · rw [hread, Option.bind_none]
      exact iff_of_false Bool.false_ne_true fun h => hinside h.1

theorem width_pos {isdir : Bool} : ∀ param ∈ params isdir, 0 < param.width := by
  cases isdir <;> decide

/-- A parameter that is read has a bit of its own. -/
theorem pairwise_bit (isdir : Bool) :
    (params isdir).Pairwise fun a b => b.store.isSome = true → a.bit ≠ b.bit := by
  cases isdir <;> decide

theorem takeWhile_bit {isdir : Bool} {ps₁ ps₂ : List Param} {param : Param}
    (h : params isdir = ps₁ ++ param :: ps₂) (hstore : param.store.isSome = true) :
    (params isdir).takeWhile (fun q => q.bit ≠ param.bit) = ps₁ := by
  have hpairwise := pairwise_bit isdir
  rw [h] at hpairwise ⊢
  have hbefore := (List.pairwise_append.mp hpairwise).2.2
  rw [List.takeWhile_append_of_pos fun q hq =>
    decide_eq_true (hbefore q hq param List.mem_cons_self hstore)]
  rw [List.takeWhile_cons_of_neg (by simp), List.append_nil]

/-- **When nothing is read behind the end of a block.** -/
theorem isSome_parseReplyBlock_iff {buf : List UInt8} {isdir : Bool}
    {filebitmap dirbitmap : UInt32} :
    (parseReplyBlock buf isdir filebitmap dirbitmap).isSome = true ↔
      BlockInside buf isdir (if isdir then dirbitmap else filebitmap).toUInt16 := by
  have hsteps := @isSome_readParams_iff (params isdir) (fun _ => kind_of_mem) width_pos buf
    (if isdir then dirbitmap else filebitmap).toUInt16 0
    { AfpFileInfo.zero with isdir := isdir }
  rw [parseReplyBlock, parseParms_eq, Option.isSome_map]
  refine hsteps.trans ⟨fun h => ?_, fun h ps₁ param ps₂ heq hstore hhas => ?_⟩
  · have hinside : ∀ param ∈ params isdir, param.store.isSome = true →
        param.Inside buf (if isdir then dirbitmap else filebitmap).toUInt16
          (place isdir (if isdir then dirbitmap else filebitmap).toUInt16 param.bit) := by
      intro param hmem hstore
      obtain ⟨ps₁, ps₂, heq⟩ := List.append_of_mem hmem
      have := h ps₁ param ps₂ heq
      rwa [← takeWhile_bit heq hstore, Nat.zero_add] at this
    refine ⟨fun param hmem hstore hhas => (hinside param hmem hstore hstore hhas).1,
      fun hhas => ?_, fun hhas => ?_⟩
    · have hmem : Param.longName ∈ params isdir := by cases isdir <;> simp [params]
      exact isSome_storeLongName_iff.mp (hinside _ hmem rfl rfl hhas).2
    · have hmem : Param.utf8Name ∈ params isdir := by cases isdir <;> simp [params]
      exact isSome_storeUtf8Name_iff.mp (hinside _ hmem rfl rfl hhas).2
  · have hmem : param ∈ params isdir := heq ▸ List.mem_append_right _ List.mem_cons_self
    have hplace : place isdir (if isdir then dirbitmap else filebitmap).toUInt16 param.bit =
        0 + size (if isdir then dirbitmap else filebitmap).toUInt16 ps₁ := by
      rw [place, takeWhile_bit heq hstore, Nat.zero_add]
    rw [← hplace]
    refine ⟨h.fields param hmem hstore hhas, ?_⟩
    cases kind_of_mem hmem with
    | value set hset => rw [Param.stores, hset]; rfl
    | longName heq =>
      subst heq
      exact isSome_storeLongName_iff.mpr (h.longName hhas)
    | utf8Name heq =>
      subst heq
      exact isSome_storeUtf8Name_iff.mpr (h.utf8Name hhas)
    | skipped hskip =>
      rw [hskip] at hstore
      exact absurd hstore Bool.false_ne_true

end ReplyBlock
end Afpfs
