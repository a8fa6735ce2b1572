import Afpfs.Composition
import Afpfs.Lib.Bytes
import Afpfs.ReplyBlock

/-!
# The list of volumes

`afp_getsrvrparms_reply()` of `lib/proto_server.c`: the reply has the number of volumes, and then
for each a byte of flags and its name, as a Pascal string.  `copy_from_pascal()` returns how much it
has copied, and the cursor moves by that; before AFP 3.0 it copies at most 27 bytes, so that what is
left of a longer name is taken for the next volume.  From AFP 3.0 on a name may fill its field, and
then there is no terminator.

* `utf8ToUcs2_zeros`: in memory that ends in zeros the conversion of a name comes to an end, and
  takes no more bytes than the name has.
* `decodes_old_iff`, `decodes_new_iff`: the replies that are decoded as they should be.
* `getsrvrparms_iff`: both together.
-/

set_option autoImplicit false

namespace Afpfs
namespace VolumeList

open Unicode Codepage Wire

def AFP_VOLUME_NAME_LEN : ℕ := 27
def AFP_VOLUME_NAME_UTF8_LEN : ℕ := 255

/-! ## Data -/

/-- The fields of `struct afp_volume` that the reply sets, all bytes of the names. -/
structure AfpVolume where
  flags : UInt8
  volumeName : List UInt8
  volumeNamePrintable : List UInt8
  deriving DecidableEq

/-- The fields of `struct afp_server` that the reply sets. -/
structure AfpServer where
  connectTime : UInt32
  numVolumes : UInt8
  volumes : List AfpVolume
  deriving DecidableEq

/-- The bytes of a zeroed field of a name to which some are copied. -/
def fieldOf (bytes : List UInt8) : List UInt8 :=
  bytes ++ List.replicate (AFP_VOLUME_NAME_UTF8_LEN - bytes.length) 0

/-! ## The function -/

/-- `copy_from_pascal()`: what it copies, and how much that is.  `none` is a read behind the
memory. -/
def copyFromPascal (pascal : List UInt8) (maxLen : ℕ) : Option (List UInt8 × ℕ) :=
  match pascal with
  | [] => none
  | b :: data =>
    let len := min b.toNat maxLen
    if len ≤ data.length then some (data.take len, len) else none

/-- It copies what it copies from a reply block. -/
theorem copyFromPascal_eq (pascal : List UInt8) (maxLen : ℕ) :
    VolumeList.copyFromPascal pascal maxLen =
      (ReplyBlock.copyFromPascal pascal maxLen).map fun data => (data, data.length) := by
  cases pascal with
  | nil => rfl
  | cons b data =>
    rw [VolumeList.copyFromPascal, ReplyBlock.copyFromPascal]
    by_cases hle : min b.toNat maxLen ≤ data.length
    · rw [if_pos hle, if_pos hle, Option.map_some, List.length_take_of_le hle]
    · rw [if_neg hle, if_neg hle, Option.map_none]

/-- `convert_utf8dec_to_utf8pre()` from a name to the printable name, which is behind it and zero.
`none` when the result is stored behind the printable name. -/
def printableOf (name : List UInt8) : Option (List UInt8) :=
  (convertUtf8decToUtf8pre (name ++ List.replicate AFP_VOLUME_NAME_UTF8_LEN 0)).bind fun dest =>
    if dest.length < AFP_VOLUME_NAME_UTF8_LEN then some (fieldOf dest) else none

/-- A round of the loop: the volume, and where the cursor is then. -/
def readVolume (avNumber : ℕ) : List UInt8 → Option (AfpVolume × List UInt8)
  | [] => none
  | flags :: p =>
    if avNumber < 30 then
      (copyFromPascal p AFP_VOLUME_NAME_LEN).map fun (name, len) =>
        (⟨flags, fieldOf name, fieldOf ((fieldOf name).take AFP_VOLUME_NAME_LEN)⟩, p.drop (len + 1))
    else
      (copyFromPascal p AFP_VOLUME_NAME_UTF8_LEN).bind fun (name, len) =>
        (printableOf (fieldOf name)).map fun printable =>
          (⟨flags, fieldOf name, printable⟩, p.drop (len + 1))

/-- The loop, with the volumes that are left. -/
def readVolumes (avNumber : ℕ) : ℕ → List UInt8 → Option (List AfpVolume)
  | 0, _ => some []
  | n + 1, p =>
    (readVolume avNumber p).bind fun (vol, p) =>
      (readVolumes avNumber n p).map (vol :: ·)

/-- `AD_DATE_TO_UNIX()`. -/
def adDateToUnix (bytes : List UInt8) : UInt32 := UInt32.ofNat (ofBE bytes) + 946684800

/-- `afp_getsrvrparms_reply()`, with the version in use: what it returns, and the server.  The
memory from the message on may go on behind its size. -/
def afpGetsrvrparmsReply (avNumber : ℕ) (msg : List UInt8) (size : ℕ) (server : AfpServer) :
    Option (ℤ × AfpServer) :=
  if size < 21 then some (-1, server)
  else
    msg[20]?.bind fun numvolumes =>
      (readVolumes avNumber numvolumes.toNat (msg.drop 21)).map fun volumes =>
        (0, ⟨adDateToUnix ((msg.drop 16).take 4), numvolumes, volumes⟩)

/-! ## The encoding -/

/-- A volume as the server has it. -/
structure Entry where
  flags : UInt8
  name : List UInt8
  deriving DecidableEq

/-- The bytes of a volume in the reply. -/
def Entry.encode (e : Entry) : List UInt8 := e.flags :: UInt8.ofNat e.name.length :: e.name

/-- A reply with these volumes. -/
def reply (header : List UInt8) (time : UInt32) (entries : List Entry) : List UInt8 :=
  header ++ (toBE 4 time.toNat ++ UInt8.ofNat entries.length :: entries.flatMap Entry.encode)

/-- How much of a name is kept. -/
def nameLimit (avNumber : ℕ) : ℕ :=
  if avNumber < 30 then AFP_VOLUME_NAME_LEN else AFP_VOLUME_NAME_UTF8_LEN

/-- The volume has the flags and the name of the entry, cut to the limit, with a terminator. -/
structure Matches (avNumber : ℕ) (vol : AfpVolume) (e : Entry) : Prop where
  flags : vol.flags = e.flags
  name : vol.volumeName = fieldOf (e.name.take (nameLimit avNumber))
  terminated : 0 ∈ vol.volumeName

/-- **The reply is decoded**: there are as many volumes as entries, and each matches its own. -/
def Decodes (avNumber : ℕ) (msg : List UInt8) (size : ℕ) (entries : List Entry)
    (server : AfpServer) : Prop :=
  ∃ out, afpGetsrvrparmsReply avNumber msg size server = some (0, out) ∧
    out.numVolumes.toNat = entries.length ∧ List.Forall₂ (Matches avNumber) out.volumes entries

/-! ## Names in memory that ends in zeros -/

/-- How many bytes are not zero. -/
def weight (l : List UInt8) : ℕ := l.countP fun b => b ≠ 0

theorem weight_append (l m : List UInt8) : weight (l ++ m) = weight l + weight m :=
  List.countP_append

theorem weight_le_length (l : List UInt8) : weight l ≤ l.length := List.countP_le_length

theorem weight_replicate (n : ℕ) : weight (List.replicate n 0) = 0 := by
  rw [weight, List.countP_replicate]
  rfl

theorem weight_cons_of_ne {c : UInt8} (hc : c ≠ 0) (l : List UInt8) :
    weight (c :: l) = weight l + 1 :=
  List.countP_cons_of_pos (by simpa using hc)

theorem ne_zero_of_mbCharLen {c : UInt8} (h : mbCharLen c ≠ 0) : c ≠ 0 := by
  rintro rfl
  exact h rfl

theorem length_encodeUnit_le (u : UInt16) : (encodeUnit u).length ≤ 3 := by
  rw [length_encodeUnit]
  split_ifs <;> omega

theorem length_encodeUnit_le_two {n : ℕ} (hn : n < 0x800) :
    (encodeUnit (.ofNat n)).length ≤ 2 := by
  have hnat : (UInt16.ofNat n).toNat = n := UInt16.toNat_ofNat_of_lt' (by change n < 65536; omega)
  rw [length_encodeUnit, hnat]
  split_ifs <;> omega

theorem length_encodeUnit_one {n : ℕ} (hn : n < 0x80) : (encodeUnit (.ofNat n)).length = 1 := by
  have hnat : (UInt16.ofNat n).toNat = n := UInt16.toNat_ofNat_of_lt' (by change n < 65536; omega)
  rw [length_encodeUnit, hnat, if_pos hn]

/-- A byte that continues a character is not zero. -/
theorem ne_zero_of_tail {b : UInt8} (h : b.toNat &&& 0xC0 = 0x80) : b ≠ 0 := by
  rintro rfl
  exact absurd h (by decide)

/-- **A character is stored in no more bytes than it was read from**, zeros not counted. -/
theorem length_encodeUnit_decodeUnit {c : UInt8} (h : mbCharLen c ≠ 0) (s : List UInt8)
    (hlen : mbCharLen c ≤ s.length + 1) :
    (encodeUnit (decodeUnit (mbCharLen c) (c :: s))).length ≤
      weight ((c :: s).take (mbCharLen c)) := by
  have hc := ne_zero_of_mbCharLen h
  have hfirst : 1 ≤ weight ((c :: s).take (mbCharLen c)) := by
    obtain ⟨k, hk⟩ := Nat.exists_eq_succ_of_ne_zero h
    rw [hk, List.take_succ_cons, weight_cons_of_ne hc]
    exact Nat.le_add_left 1 _
  have hstar : (encodeUnit (.ofNat '*'.toNat)).length = 1 := length_encodeUnit_one (by decide)
  have htilde : (encodeUnit (.ofNat '~'.toNat)).length = 1 := length_encodeUnit_one (by decide)
  obtain hn | hn | hn | hn : mbCharLen c = 1 ∨ mbCharLen c = 2 ∨ mbCharLen c = 3 ∨
      4 ≤ mbCharLen c := by omega
  · have hascii := lt_of_mbCharLen_eq_one ⟨c.toNat, c.toNat_lt⟩ (by rw [UInt8.ofNat_toNat, hn])
    have hone : (encodeUnit (decodeUnit 1 (c :: s))).length = 1 := length_encodeUnit_one hascii
    rw [hn] at hfirst ⊢
    omega
  · obtain ⟨b, s, rfl⟩ := List.exists_cons_of_length_pos (l := s) (by omega)
    have hunit : decodeUnit 2 (c :: b :: s) =
        if (b.toNat &&& 0x3f) + (c.toNat &&& 0x1f) <<< 6 > 0x7f ∧ b.toNat &&& 0xC0 = 0x80 then
          .ofNat ((b.toNat &&& 0x3f) + (c.toNat &&& 0x1f) <<< 6) else .ofNat '*'.toNat := rfl
    rw [hn] at hfirst ⊢
    rw [hunit]
    split_ifs with hvalid
    · have hlow := @Nat.and_le_right b.toNat 0x3f
      have hhigh := @Nat.and_le_right c.toNat 0x1f
      have htwo := @length_encodeUnit_le_two ((b.toNat &&& 0x3f) + (c.toNat &&& 0x1f) <<< 6)
        (by rw [Nat.shiftLeft_eq]; omega)
      have hweight : weight ((c :: b :: s).take 2) = 2 := by
        rw [List.take_succ_cons, List.take_succ_cons, List.take_zero, weight_cons_of_ne hc,
          weight_cons_of_ne (ne_zero_of_tail hvalid.2)]
        rfl
      omega
    · omega
  · obtain ⟨b, s, rfl⟩ := List.exists_cons_of_length_pos (l := s) (by omega)
    obtain ⟨b', s, rfl⟩ := List.exists_cons_of_length_pos (l := s) (by simp at hlen; omega)
    have hunit : ∃ n, decodeUnit 3 (c :: b :: b' :: s) =
        if n > 0x7ff ∧ b.toNat &&& 0xC0 = 0x80 ∧ b'.toNat &&& 0xC0 = 0x80 then .ofNat n
        else .ofNat '*'.toNat := ⟨_, rfl⟩
    obtain ⟨n, hunit⟩ := hunit
    rw [hn] at hfirst ⊢
    rw [hunit]
    split_ifs with hvalid
    · have hthree := length_encodeUnit_le (.ofNat n)
      have hweight : weight ((c :: b :: b' :: s).take 3) = 3 := by
        rw [List.take_succ_cons, List.take_succ_cons, List.take_succ_cons, List.take_zero,
          weight_cons_of_ne hc, weight_cons_of_ne (ne_zero_of_tail hvalid.2.1),
          weight_cons_of_ne (ne_zero_of_tail hvalid.2.2)]
        rfl
      omega
    · omega
  · obtain ⟨k, hk⟩ := Nat.exists_eq_add_of_le' hn
    have hunit : decodeUnit (mbCharLen c) (c :: s) = .ofNat '~'.toNat := by
      rw [hk]
      rfl
    rw [hunit, htilde]
    exact hfirst

theorem utf8ToUcs2_replicate_zero (n : ℕ) : utf8ToUcs2 (List.replicate n 0) = some [] := by
  cases n with
  | zero => rw [List.replicate_zero, utf8ToUcs2]
  | succ n => rw [List.replicate_succ, utf8ToUcs2, if_pos (by decide)]

/-- **The conversion comes to an end** in memory that ends in zeros, also if a character goes on
behind a terminator. -/
theorem utf8ToUcs2_zeros (l : List UInt8) {n : ℕ} (hn : 8 ≤ n) :
    ∃ us, utf8ToUcs2 (l ++ List.replicate n 0) = some us ∧
      (ucs2ToUtf8 us).length ≤ weight l := by
  induction hl : l.length using Nat.strong_induction_on generalizing l with
  | _ k ih =>
    cases l with
    | nil => exact ⟨[], utf8ToUcs2_replicate_zero n, Nat.zero_le _⟩
    | cons c s =>
      by_cases hzero : mbCharLen c = 0
      · refine ⟨[], ?_, Nat.zero_le _⟩
        rw [List.cons_append, utf8ToUcs2, if_pos hzero]
      have hle := mbCharLen_le c
      have hroom : ¬ (s ++ List.replicate n 0).length + 1 < mbCharLen c := by
        rw [List.length_append, List.length_replicate]
        omega
      have hunit := length_encodeUnit_decodeUnit hzero (s ++ List.replicate n 0)
        (Nat.not_lt.mp hroom)
      rw [List.cons_append, utf8ToUcs2, if_neg hzero, if_neg hroom]
      by_cases hinside : mbCharLen c ≤ s.length + 1
      · -- the next character is in front of the zeros
        have hdrop : (s ++ List.replicate n (0 : UInt8)).drop (mbCharLen c - 1) =
            s.drop (mbCharLen c - 1) ++ List.replicate n 0 :=
          List.drop_append_of_le_length (by omega)
        obtain ⟨us, hus, hlen⟩ := ih (s.drop (mbCharLen c - 1)).length
          (by rw [List.length_drop, ← hl, List.length_cons]; omega) (s.drop (mbCharLen c - 1)) rfl
        have htake : (c :: (s ++ List.replicate n 0)).take (mbCharLen c) =
            (c :: s).take (mbCharLen c) := by
          rw [← List.cons_append]
          exact List.take_append_of_le_length hinside
        have hdropCons : (c :: s).drop (mbCharLen c) = s.drop (mbCharLen c - 1) := by
          obtain ⟨k, hk⟩ := Nat.exists_eq_succ_of_ne_zero hzero
          rw [hk]
          rfl
        have hsplit := weight_append ((c :: s).take (mbCharLen c)) ((c :: s).drop (mbCharLen c))
        rw [List.take_append_drop, hdropCons] at hsplit
        rw [htake] at hunit
        refine ⟨_, by rw [hdrop, hus, Option.map_some], ?_⟩
        rw [ucs2ToUtf8, List.flatMap_cons, List.length_append]
        rw [ucs2ToUtf8] at hlen
        omega
      · -- the character takes all that is left, and zeros
        have hdrop : (s ++ List.replicate n (0 : UInt8)).drop (mbCharLen c - 1) =
            List.replicate (n - (mbCharLen c - 1 - s.length)) 0 := by
          rw [List.drop_append, List.drop_eq_nil_of_le (by omega), List.nil_append,
            List.drop_replicate]
        have htake : (c :: (s ++ List.replicate n 0)).take (mbCharLen c) =
            c :: s ++ List.replicate (mbCharLen c - (s.length + 1)) 0 := by
          rw [← List.cons_append, List.take_append, List.take_of_length_le
            (by rw [List.length_cons]; omega), List.take_replicate, List.length_cons]
          congr 2
          omega
        rw [htake, weight_append, weight_replicate, Nat.add_zero] at hunit
        refine ⟨_, by rw [hdrop, utf8ToUcs2_replicate_zero, Option.map_some], ?_⟩
        rw [ucs2ToUtf8, List.flatMap_cons, List.flatMap_nil, List.append_nil]
        exact hunit

/-! ## Fields -/

theorem length_fieldOf {bytes : List UInt8} (h : bytes.length ≤ AFP_VOLUME_NAME_UTF8_LEN) :
    (fieldOf bytes).length = AFP_VOLUME_NAME_UTF8_LEN := by
  rw [fieldOf, List.length_append, List.length_replicate]
  omega

theorem zero_mem_fieldOf_iff (bytes : List UInt8) :
    0 ∈ fieldOf bytes ↔ bytes.length < AFP_VOLUME_NAME_UTF8_LEN ∨ 0 ∈ bytes := by
  rw [fieldOf, List.mem_append, List.mem_replicate]
  constructor
  · rintro (h | ⟨h, -⟩)
    · exact .inr h
    · exact .inl (by omega)
  · rintro (h | h)
    · exact .inr ⟨by omega, rfl⟩
    · exact .inl h

theorem weight_lt_length {l : List UInt8} (h : 0 ∈ l) : weight l < l.length := by
  refine Nat.lt_of_le_of_ne (weight_le_length l) fun heq => ?_
  have hne := List.countP_eq_length.mp heq 0 h
  exact absurd hne (by decide)

theorem length_le_length_ucs2ToUtf8 (us : List UInt16) : us.length ≤ (ucs2ToUtf8 us).length := by
  induction us with
  | nil => exact Nat.le_refl 0
  | cons u us ih =>
    have hunit : 1 ≤ (encodeUnit u).length := by
      rw [length_encodeUnit]
      split_ifs <;> omega
    rw [ucs2ToUtf8] at ih
    rw [ucs2ToUtf8, List.flatMap_cons, List.length_append, List.length_cons]
    omega

/-- The printable name of what is decoded, when that takes no more than its field. -/
theorem printableOf_of_units {name : List UInt8} {us : List UInt16}
    (hdecode : utf8ToUcs2 (name ++ List.replicate AFP_VOLUME_NAME_UTF8_LEN 0) = some us)
    (hbytes : (ucs2ToUtf8 us).length < AFP_VOLUME_NAME_UTF8_LEN) :
    printableOf name = some (fieldOf (ucs2ToUtf8 (Fold.foldAll composition us))) := by
  have hunits : us.length ≤ 383 := by
    have hle := length_le_length_ucs2ToUtf8 us
    rw [AFP_VOLUME_NAME_UTF8_LEN] at hbytes
    omega
  have hfold : (ucs2ToUtf8 (Fold.foldAll composition us)).length ≤ (ucs2ToUtf8 us).length := by
    rw [Composition.length_ucs2ToUtf8, Composition.length_ucs2ToUtf8]
    exact Fold.sum_map_foldAll_le (fun _ _ _ => length_encodeUnit_composition) _
  rw [printableOf,
    Composition.convertUtf8decToUtf8pre_of_units hdecode (utf8ToUcs2_ne_zero hdecode) hunits,
    Option.bind_some, if_pos (Nat.lt_of_le_of_lt hfold hbytes)]

/-- **A name with a terminator is converted**, and the printable name has one as well. -/
theorem exists_printableOf {name : List UInt8} (hlen : name.length = AFP_VOLUME_NAME_UTF8_LEN)
    (hzero : 0 ∈ name) : ∃ printable, printableOf name = some printable := by
  obtain ⟨us, hdecode, hbytes⟩ := @utf8ToUcs2_zeros name AFP_VOLUME_NAME_UTF8_LEN (by decide)
  have hweight := weight_lt_length hzero
  rw [hlen] at hweight
  exact ⟨_, printableOf_of_units hdecode (Nat.lt_of_le_of_lt hbytes hweight)⟩

/-! ## Reading the encoding -/

theorem encode_append (e : Entry) (rest : List UInt8) :
    e.encode ++ rest = e.flags :: UInt8.ofNat e.name.length :: (e.name ++ rest) := rfl

theorem toNat_length {name : List UInt8} (h : name.length ≤ 255) :
    (UInt8.ofNat name.length).toNat = name.length := UInt8.toNat_ofNat_of_lt' (Nat.lt_succ_of_le h)

/-- What is copied of a Pascal string, with what is behind it. -/
theorem copyFromPascal_of {name : List UInt8} (h : name.length ≤ 255) (rest : List UInt8)
    (maxLen : ℕ) : copyFromPascal (UInt8.ofNat name.length :: (name ++ rest)) maxLen =
      some (name.take maxLen, min name.length maxLen) := by
  have htake : (name ++ rest).take (min name.length maxLen) = name.take maxLen := by
    rw [List.take_append_of_le_length (Nat.min_le_left _ _), List.take_eq_take_iff]
    omega
  rw [copyFromPascal, toNat_length h, if_pos (by rw [List.length_append]; omega), htake]

/-- From AFP 3.0 on all of the name is read. -/
theorem readVolume_new {avNumber : ℕ} (hnew : ¬ avNumber < 30) {e : Entry}
    (h : e.name.length ≤ 255) (rest : List UInt8) : readVolume avNumber (e.encode ++ rest) =
      (printableOf (fieldOf e.name)).map fun printable =>
        (⟨e.flags, fieldOf e.name, printable⟩, rest) := by
  have htake : e.name.take AFP_VOLUME_NAME_UTF8_LEN = e.name := List.take_of_length_le h
  have hmin : min e.name.length AFP_VOLUME_NAME_UTF8_LEN = e.name.length := Nat.min_eq_left h
  rw [encode_append, readVolume, if_neg hnew, copyFromPascal_of h, Option.bind_some, htake, hmin]
  simp only [List.drop_succ_cons, List.drop_left]

/-! ## The loop -/

/-- A volume that can be in a reply. -/
def Fits (e : Entry) : Prop := e.name.length ≤ 255

instance (e : Entry) : Decidable (Fits e) := inferInstanceAs (Decidable (_ ≤ _))

/-- What the loop reads matches the entries. -/
def Reads (avNumber : ℕ) (bytes : List UInt8) (entries : List Entry) : Prop :=
  ∃ vols, readVolumes avNumber entries.length bytes = some vols ∧
    List.Forall₂ (Matches avNumber) vols entries

theorem reads_nil (avNumber : ℕ) (bytes : List UInt8) : Reads avNumber bytes [] :=
  ⟨[], rfl, List.Forall₂.nil⟩

/-- The first volume is read, then the others. -/
theorem reads_cons_iff {avNumber : ℕ} {bytes : List UInt8} {e : Entry} {entries : List Entry} :
    Reads avNumber bytes (e :: entries) ↔
      ∃ vol p, readVolume avNumber bytes = some (vol, p) ∧ Matches avNumber vol e ∧
        Reads avNumber p entries := by
  constructor
  · rintro ⟨vols, hread, hall⟩
    rw [List.length_cons, readVolumes] at hread
    obtain ⟨⟨vol, p⟩, hvol, hread⟩ := Option.bind_eq_some_iff.mp hread
    obtain ⟨vols, hvols, rfl⟩ := Option.map_eq_some_iff.mp hread
    obtain ⟨hmatch, hall⟩ := List.forall₂_cons.mp hall
    exact ⟨vol, p, hvol, hmatch, vols, hvols, hall⟩
  · rintro ⟨vol, p, hvol, hmatch, vols, hvols, hall⟩
    refine ⟨vol :: vols, ?_, List.forall₂_cons.mpr ⟨hmatch, hall⟩⟩
    rw [List.length_cons, readVolumes, hvol]
    simp only [Option.bind_some, hvols, Option.map_some]

/-- **From AFP 3.0 on** the volumes are read one by one, and a name is terminated unless it fills
its field. -/
theorem reads_new_iff {avNumber : ℕ} (hnew : ¬ avNumber < 30) (entries : List Entry)
    (hentries : ∀ e ∈ entries, Fits e) (rest : List UInt8) :
    Reads avNumber (entries.flatMap Entry.encode ++ rest) entries ↔
      ∀ e ∈ entries, 0 ∈ fieldOf e.name := by
  have hlimit : nameLimit avNumber = AFP_VOLUME_NAME_UTF8_LEN := if_neg hnew
  induction entries with
  | nil => exact iff_of_true (reads_nil avNumber _) fun _ h => absurd h List.not_mem_nil
  | cons e entries ih =>
    obtain ⟨hfits, hentries⟩ := List.forall_mem_cons.mp hentries
    have htake : e.name.take (nameLimit avNumber) = e.name := by
      rw [hlimit]
      exact List.take_of_length_le hfits
    rw [reads_cons_iff, List.flatMap_cons, List.append_assoc, readVolume_new hnew hfits,
      List.forall_mem_cons]
    constructor
    · rintro ⟨vol, p, hvol, hmatch, hreads⟩
      obtain ⟨printable, -, heq⟩ := Option.map_eq_some_iff.mp hvol
      obtain ⟨rfl, rfl⟩ := Prod.mk.inj heq
      exact ⟨hmatch.terminated, (ih hentries).mp hreads⟩
    · rintro ⟨hzero, hrest⟩
      obtain ⟨printable, hprintable⟩ := exists_printableOf (length_fieldOf hfits) hzero
      exact ⟨⟨e.flags, fieldOf e.name, printable⟩, _, by rw [hprintable, Option.map_some],
        ⟨rfl, by rw [htake], hzero⟩, (ih hentries).mpr hrest⟩

/-! ## Names that are cut -/

/-- The bytes begin as if the volumes were sent, all names cut to 27 bytes: for each there are its
flags, a length, and the bytes of its name, but for zeros at the end. -/
inductive Mimics : List UInt8 → List Entry → Prop
  | nil (bytes : List UInt8) : Mimics bytes []
  | cons {len : UInt8} {name rest : List UInt8} {e : Entry} {entries : List Entry}
      (hlen : name.length = min len.toNat AFP_VOLUME_NAME_LEN)
      (hname : fieldOf name = fieldOf (e.name.take AFP_VOLUME_NAME_LEN))
      (hrest : Mimics rest entries) :
      Mimics (e.flags :: len :: (name ++ rest)) (e :: entries)

theorem Mimics.exists_of_cons {bytes : List UInt8} {e : Entry} {entries : List Entry}
    (h : Mimics bytes (e :: entries)) :
    ∃ len name rest, bytes = e.flags :: len :: (name ++ rest) ∧
      name.length = min len.toNat AFP_VOLUME_NAME_LEN ∧
      fieldOf name = fieldOf (e.name.take AFP_VOLUME_NAME_LEN) ∧ Mimics rest entries := by
  cases h with
  | cons hlen hname hrest => exact ⟨_, _, _, rfl, hlen, hname, hrest⟩

theorem zero_mem_fieldOf_take (name : List UInt8) :
    0 ∈ fieldOf (name.take AFP_VOLUME_NAME_LEN) := by
  refine (zero_mem_fieldOf_iff _).mpr (.inl ?_)
  rw [List.length_take, AFP_VOLUME_NAME_LEN, AFP_VOLUME_NAME_UTF8_LEN]
  omega

/-- What is read before AFP 3.0 of any bytes. -/
theorem readVolume_old_eq_some {avNumber : ℕ} (hold : avNumber < 30) {bytes p : List UInt8}
    {vol : AfpVolume} (h : readVolume avNumber bytes = some (vol, p)) :
    ∃ flags len name, bytes = flags :: len :: (name ++ p) ∧
      name.length = min len.toNat AFP_VOLUME_NAME_LEN ∧ vol.flags = flags ∧
      vol.volumeName = fieldOf name := by
  cases bytes with
  | nil => exact absurd h.symm (Option.some_ne_none _)
  | cons flags bytes =>
    rw [readVolume, if_pos hold] at h
    obtain ⟨⟨name, k⟩, hcopy, heq⟩ := Option.map_eq_some_iff.mp h
    obtain ⟨rfl, rfl⟩ := Prod.mk.inj heq
    cases bytes with
    | nil => exact absurd hcopy.symm (Option.some_ne_none _)
    | cons len data =>
      rw [copyFromPascal] at hcopy
      obtain ⟨hle, heq⟩ := Option.ite_none_right_eq_some.mp hcopy
      obtain ⟨rfl, rfl⟩ := Prod.mk.inj (Option.some.inj heq)
      refine ⟨flags, len, _, ?_, List.length_take_of_le hle, rfl, rfl⟩
      rw [List.drop_succ_cons, List.take_append_drop]

/-- **Before AFP 3.0** the bytes are read as the volumes when they mimic them. -/
theorem reads_old_iff {avNumber : ℕ} (hold : avNumber < 30) (entries : List Entry)
    (bytes : List UInt8) : Reads avNumber bytes entries ↔ Mimics bytes entries := by
  have hlimit : nameLimit avNumber = AFP_VOLUME_NAME_LEN := if_pos hold
  induction entries generalizing bytes with
  | nil => exact iff_of_true (reads_nil avNumber bytes) (.nil bytes)
  | cons e entries ih =>
    rw [reads_cons_iff]
    constructor
    · rintro ⟨vol, p, hvol, hmatch, hreads⟩
      obtain ⟨flags, len, name, rfl, hlen, hflags, hname⟩ := readVolume_old_eq_some hold hvol
      rw [← hflags, hmatch.flags]
      refine .cons hlen ?_ ((ih p).mp hreads)
      rw [← hname, hmatch.name, hlimit]
    · intro hmimics
      obtain ⟨len, name, rest, rfl, hlen, hname, hrest⟩ := hmimics.exists_of_cons
      have hcopy : copyFromPascal (len :: (name ++ rest)) AFP_VOLUME_NAME_LEN =
          some (name, name.length) := by
        rw [copyFromPascal, ← hlen, if_pos (by rw [List.length_append]; omega), List.take_left]
      have hvol : readVolume avNumber (e.flags :: len :: (name ++ rest)) =
          some (⟨e.flags, fieldOf name, fieldOf ((fieldOf name).take AFP_VOLUME_NAME_LEN)⟩,
            rest) := by
        rw [readVolume, if_pos hold, hcopy, Option.map_some]
        simp only [List.drop_succ_cons, List.drop_left]
      refine ⟨_, rest, hvol, ⟨rfl, ?_, ?_⟩, (ih rest).mpr hrest⟩
      · rw [hlimit, ← hname]
      · change 0 ∈ fieldOf name
        rw [hname]
        exact zero_mem_fieldOf_take e.name

/-- The cursor is behind what is copied of the name. -/
theorem mimics_encode_iff {e : Entry} (hfits : Fits e) {entries : List Entry} {rest : List UInt8} :
    Mimics (e.encode ++ rest) (e :: entries) ↔
      Mimics (e.name.drop AFP_VOLUME_NAME_LEN ++ rest) entries := by
  have hsplit : e.name ++ rest = e.name.take AFP_VOLUME_NAME_LEN ++
      (e.name.drop AFP_VOLUME_NAME_LEN ++ rest) := by
    rw [← List.append_assoc, List.take_append_drop]
  rw [encode_append]
  constructor
  · intro hmimics
    obtain ⟨len, name, rest', hbytes, hlen, -, hrest⟩ := hmimics.exists_of_cons
    obtain ⟨rfl, hnames⟩ := List.cons.inj (List.cons.inj hbytes).2
    have hlength : (e.name.take AFP_VOLUME_NAME_LEN).length = name.length := by
      rw [hlen, toNat_length hfits, List.length_take, Nat.min_comm]
    obtain ⟨-, rfl⟩ := List.append_inj (hsplit.symm.trans hnames) hlength
    exact hrest
  · intro hmimics
    rw [hsplit]
    refine .cons ?_ rfl hmimics
    rw [toNat_length hfits, List.length_take, Nat.min_comm]

/-- Behind the first name that is cut, if there is one, the bytes mimic the volumes that follow. -/
def Recovers (entries : List Entry) (rest : List UInt8) : Prop :=
  ∀ front v back, entries = front ++ v :: back →
    (∀ e ∈ front, e.name.length ≤ AFP_VOLUME_NAME_LEN) → AFP_VOLUME_NAME_LEN < v.name.length →
    Mimics (v.name.drop AFP_VOLUME_NAME_LEN ++ (back.flatMap Entry.encode ++ rest)) back

/-- Nothing has to be mimicked when no name but the last is cut. -/
theorem recovers_of_dropLast {entries : List Entry}
    (h : ∀ e ∈ entries.dropLast, e.name.length ≤ AFP_VOLUME_NAME_LEN) (rest : List UInt8) :
    Recovers entries rest := by
  rintro front v back rfl - hlong
  cases back with
  | nil => exact .nil _
  | cons w back =>
    refine absurd (h v ?_) (Nat.not_le.mpr hlong)
    rw [List.dropLast_append_cons, List.dropLast_cons_cons]
    exact List.mem_append_right front List.mem_cons_self

theorem recovers_cons_iff_of_le {e : Entry} (h : e.name.length ≤ AFP_VOLUME_NAME_LEN)
    (entries : List Entry) (rest : List UInt8) :
    Recovers (e :: entries) rest ↔ Recovers entries rest := by
  constructor
  · rintro hrec front v back rfl hfront hlong
    exact hrec (e :: front) v back rfl (List.forall_mem_cons.mpr ⟨h, hfront⟩) hlong
  · rintro hrec front v back hsplit hfront hlong
    cases front with
    | nil =>
      obtain ⟨rfl, -⟩ := List.cons.inj hsplit
      exact absurd h (Nat.not_le.mpr hlong)
    | cons w front =>
      obtain ⟨-, rfl⟩ := List.cons.inj hsplit
      exact hrec front v back rfl (List.forall_mem_cons.mp hfront).2 hlong

theorem recovers_cons_iff_of_lt {e : Entry} (h : AFP_VOLUME_NAME_LEN < e.name.length)
    (entries : List Entry) (rest : List UInt8) :
    Recovers (e :: entries) rest ↔
      Mimics (e.name.drop AFP_VOLUME_NAME_LEN ++ (entries.flatMap Entry.encode ++ rest))
        entries := by
  constructor
  · intro hrec
    exact hrec [] e entries rfl (fun _ hmem => absurd hmem List.not_mem_nil) h
  · rintro hmimics front v back hsplit hfront hlong
    cases front with
    | nil =>
      obtain ⟨rfl, rfl⟩ := List.cons.inj hsplit
      exact hmimics
    | cons w front =>
      obtain ⟨rfl, -⟩ := List.cons.inj hsplit
      exact absurd (hfront e List.mem_cons_self) (Nat.not_le.mpr h)

/-- Up to the first name that is cut the cursor is where the volumes begin. -/
theorem mimics_flatMap_iff (entries : List Entry) (hentries : ∀ e ∈ entries, Fits e)
    (rest : List UInt8) :
    Mimics (entries.flatMap Entry.encode ++ rest) entries ↔ Recovers entries rest := by
  induction entries with
  | nil =>
    refine iff_of_true (.nil _) (recovers_of_dropLast (fun _ h => ?_) rest)
    exact absurd h List.not_mem_nil
  | cons e entries ih =>
    obtain ⟨hfits, hentries⟩ := List.forall_mem_cons.mp hentries
    rw [List.flatMap_cons, List.append_assoc, mimics_encode_iff hfits]
    rcases Nat.lt_or_ge AFP_VOLUME_NAME_LEN e.name.length with hlong | hshort
    · rw [recovers_cons_iff_of_lt hlong]
    · rw [List.drop_eq_nil_of_le hshort, List.nil_append, recovers_cons_iff_of_le hshort,
        ih hentries]

/-! ## The reply -/

theorem reply_append {header : List UInt8} (hheader : header.length = 16) (time : UInt32)
    (entries : List Entry) (rest : List UInt8) :
    (reply header time entries ++ rest)[20]? = some (UInt8.ofNat entries.length) ∧
      (reply header time entries ++ rest).drop 21 =
        entries.flatMap Entry.encode ++ rest := by
  have hfront : (header ++ toBE 4 time.toNat).length = 20 := by
    rw [List.length_append, hheader, length_toBE]
  have hreply : reply header time entries ++ rest = (header ++ toBE 4 time.toNat) ++
      UInt8.ofNat entries.length :: (entries.flatMap Entry.encode ++ rest) := by
    rw [reply, List.append_assoc, List.append_assoc, List.append_assoc, List.cons_append]
  rw [hreply]
  constructor
  · rw [List.getElem?_append_right hfront.le, hfront]
    rfl
  · rw [List.drop_append, hfront, List.drop_eq_nil_of_le (by omega)]
    rfl

/-- The reply is decoded when the loop reads its volumes. -/
theorem decodes_reply_iff {avNumber : ℕ} {header : List UInt8} (hheader : header.length = 16)
    (time : UInt32) {entries : List Entry} (hnum : entries.length ≤ 255) (rest : List UInt8)
    (server : AfpServer) :
    Decodes avNumber (reply header time entries ++ rest) (reply header time entries).length entries
        server ↔ Reads avNumber (entries.flatMap Entry.encode ++ rest) entries := by
  obtain ⟨hcount, hdrop⟩ := reply_append hheader time entries rest
  have hnat : (UInt8.ofNat entries.length).toNat = entries.length :=
    UInt8.toNat_ofNat_of_lt' (Nat.lt_succ_of_le hnum)
  have hsize : ¬ (reply header time entries).length < 21 := by
    rw [reply, List.length_append, List.length_append, length_toBE, List.length_cons, hheader]
    omega
  rw [Decodes, afpGetsrvrparmsReply, if_neg hsize, hcount, Option.bind_some, hdrop, hnat]
  constructor
  · rintro ⟨out, hout, -, hall⟩
    obtain ⟨vols, hvols, heq⟩ := Option.map_eq_some_iff.mp hout
    obtain ⟨-, rfl⟩ := Prod.mk.inj heq
    exact ⟨vols, hvols, hall⟩
  · rintro ⟨vols, hvols, hall⟩
    exact ⟨_, by rw [hvols, Option.map_some], hnat, hall⟩

/-- Before AFP 3.0 the reply is decoded unless a name is longer than its field: then what is left
of it has to be as the volumes that follow. -/
theorem decodes_old_iff {avNumber : ℕ} (hold : avNumber < 30) {header : List UInt8}
    (hheader : header.length = 16) (time : UInt32) {entries : List Entry}
    (hnum : entries.length ≤ 255) (hentries : ∀ e ∈ entries, Fits e) (rest : List UInt8)
    (server : AfpServer) :
    Decodes avNumber (reply header time entries ++ rest) (reply header time entries).length entries
        server ↔ Recovers entries rest := by
  rw [decodes_reply_iff hheader time hnum, reads_old_iff hold, mimics_flatMap_iff entries hentries]

/-- From AFP 3.0 on the reply is decoded unless a name fills its field. -/
theorem decodes_new_iff {avNumber : ℕ} (hnew : ¬ avNumber < 30) {header : List UInt8}
    (hheader : header.length = 16) (time : UInt32) {entries : List Entry}
    (hnum : entries.length ≤ 255) (hentries : ∀ e ∈ entries, Fits e) (rest : List UInt8)
    (server : AfpServer) :
    Decodes avNumber (reply header time entries ++ rest) (reply header time entries).length entries
        server ↔ ∀ e ∈ entries, e.name.length < AFP_VOLUME_NAME_UTF8_LEN ∨ 0 ∈ e.name := by
  rw [decodes_reply_iff hheader time hnum, reads_new_iff hnew entries hentries]
  simp only [zero_mem_fieldOf_iff]

/-- **When a reply is decoded.**  The memory behind the reply and the server are arbitrary. -/
theorem getsrvrparms_iff (avNumber : ℕ) {header : List UInt8} (hheader : header.length = 16)
    (time : UInt32) {entries : List Entry} (hnum : entries.length ≤ 255)
    (hentries : ∀ e ∈ entries, Fits e) (rest : List UInt8) (server : AfpServer) :
    Decodes avNumber (reply header time entries ++ rest) (reply header time entries).length entries
        server ↔
      if avNumber < 30 then Recovers entries rest
      else ∀ e ∈ entries, e.name.length < AFP_VOLUME_NAME_UTF8_LEN ∨ 0 ∈ e.name := by
  split_ifs with hav
  · exact decodes_old_iff hav hheader time hnum hentries rest server
  · exact decodes_new_iff hav hheader time hnum hentries rest server

/-- A volume whose name has a byte too many, the last one of the reply. -/
theorem getsrvrparms_iff_of_last :
    [(⟨0, [72]⟩ : Entry), ⟨128, List.replicate 28 97⟩].length ≤ 255 ∧
      (Decodes 22 (reply (List.replicate 16 0) 0 [⟨0, [72]⟩, ⟨128, List.replicate 28 97⟩] ++ [1])
          (reply (List.replicate 16 0) 0 [⟨0, [72]⟩, ⟨128, List.replicate 28 97⟩]).length
          [⟨0, [72]⟩, ⟨128, List.replicate 28 97⟩] ⟨0, 0, []⟩ ↔
        if 22 < 30 then Recovers [⟨0, [72]⟩, ⟨128, List.replicate 28 97⟩] [1]
        else ∀ e ∈ [(⟨0, [72]⟩ : Entry), ⟨128, List.replicate 28 97⟩],
          e.name.length < AFP_VOLUME_NAME_UTF8_LEN ∨ 0 ∈ e.name) :=
  ⟨by decide, getsrvrparms_iff 22 (List.length_replicate) 0 (by decide) (by decide) [1] ⟨0, 0, []⟩⟩

/-- A name of 28 bytes in front of another volume, and one that fills its field. -/
theorem long_names_are_not_decoded :
    ¬ Decodes 22 (reply (List.replicate 16 0) 0 [⟨0, List.replicate 28 97⟩, ⟨0, [98]⟩] ++ [])
        (reply (List.replicate 16 0) 0 [⟨0, List.replicate 28 97⟩, ⟨0, [98]⟩]).length
        [⟨0, List.replicate 28 97⟩, ⟨0, [98]⟩] ⟨0, 0, []⟩ ∧
      ¬ Decodes 30 (reply (List.replicate 16 0) 0 [⟨0, List.replicate 255 97⟩] ++ [])
        (reply (List.replicate 16 0) 0 [⟨0, List.replicate 255 97⟩]).length
        [⟨0, List.replicate 255 97⟩] ⟨0, 0, []⟩ := by
  constructor
  · rw [decodes_old_iff (by decide) List.length_replicate 0 (by decide) (by decide),
      recovers_cons_iff_of_lt (by decide)]
    intro hmimics
    obtain ⟨len, name, rest, hbytes, -⟩ := hmimics.exists_of_cons
    exact absurd (List.cons.inj hbytes).1 (by decide)
  · have hfits : ∀ e ∈ [(⟨0, List.replicate 255 97⟩ : Entry)], Fits e :=
      List.forall_mem_singleton.mpr (Nat.le_of_eq List.length_replicate)
    rw [decodes_new_iff (by decide) List.length_replicate 0 (by decide) hfits]
    intro hall
    rcases hall _ List.mem_cons_self with hlen | hmem
    · rw [List.length_replicate, AFP_VOLUME_NAME_UTF8_LEN] at hlen
      omega
    · exact absurd (List.eq_of_mem_replicate hmem) (by decide)

end VolumeList
end Afpfs
