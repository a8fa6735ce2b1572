import Afpfs.ReplyParams
import Afpfs.Server.Negotiation
import Mathlib.Data.List.GetD
import Mathlib.Logic.Function.Iterate

/-!
# The reply to GetStatus

`dsi_getstatus_reply()` follows offsets that the server has chosen, from the start of the data or from
the end of a name, without a look at the size of the packet.  Here the packet is the `data_read` bytes
at the address of `incoming_buffer`, and `none` is a read of any other byte.  What is computed from the
names alone, which is `server_name_printable`, is left out.

The address matters in two places.  The name of the server is at an address that is cast to `unsigned
int`, and what is behind it is at an even address.

* `isSome_parseNames_iff`: the loops over the versions and the UAMs.
* `isSome_dsiGetstatusReply_iff`: nothing else is read exactly if what the offsets lead to is in the
  packet and its address has 32 bits.
* `dsiGetstatusReply_data`: the versions and UAMs that are read are those of `Negotiation`.
-/

set_option autoImplicit false

namespace Afpfs
namespace Server
namespace GetStatus

open Wire ReplyBlock Negotiation

/-! ## Reading -/

/-- The packet in `incoming_buffer`. -/
structure Packet where
  addr : ℕ
  bytes : List UInt8

/-- Some bytes at an address. -/
def Packet.read (pk : Packet) (p n : ℕ) : Option (List UInt8) :=
  if pk.addr ≤ p ∧ p + n ≤ pk.addr + pk.bytes.length then some (fieldAt pk.bytes (p - pk.addr) n)
  else none

/-- `ntohs()` of the two bytes at an address. -/
def Packet.word (pk : Packet) (p : ℕ) : Option UInt16 := (pk.read p 2).map ReplyBlock.ntohs

/-- `copy_from_pascal()`: the array and what is returned. -/
def copyFromPascal (pk : Packet) (p maxLen : ℕ) : Option (List UInt8 × ℕ) := do
  let len ← pk.read p 1
  let len := min (ofBE len) maxLen
  let data ← pk.read (p + 1) len
  return (data ++ List.replicate (maxLen - len) 0, len)

/-- What a comparison comes to that reads behind an array. -/
structure Beyond where
  version : List UInt8 → Option UInt8
  uam : List UInt8 → Option UInt32

/-- The loop of `dsi_parse_versions()` and `dsi_parse_uams()`. -/
def parseNames {β σ : Type} (pk : Packet) (maxLen size : ℕ) (f : UInt8 → UInt8)
    (table : List (List UInt8 × β)) (beyond : List UInt8 → Option β) (add : σ → β → σ) :
    ℕ → ℕ → σ → Option σ
  | 0, _, s => some s
  | n + 1, p, s => do
    let name ← GetStatus.copyFromPascal pk p maxLen
    let array := name.1 ++ List.replicate (size - maxLen) 0
    let found := (search f table array).getD (beyond array)
    parseNames pk maxLen size f table beyond add n (p + (name.2 + 1)) (found.elim s (add s))

/-- `dsi_parse_versions()`. -/
def dsiParseVersions (pk : Packet) (beyond : Beyond) (msg : ℕ) : Option (List UInt8) := do
  let numVersions ← pk.read msg 1
  let versions ← parseNames pk 33 33 id afpVersions beyond.version
    (fun l number => l ++ [number]) (min (ofBE numVersions) serverMaxVersions) (msg + 1) []
  return versions ++ List.replicate (serverMaxVersions - versions.length) 0

/-- `dsi_parse_uams()`. -/
def dsiParseUams (pk : Packet) (beyond : Beyond) (msg : ℕ) : Option UInt32 := do
  let numUams ← pk.read msg 1
  parseNames pk afpUamLength (afpUamLength + 1) toLower afpStrings beyond.uam
    (fun u bit => u ||| bit) (min (ofBE numUams) serverMaxUams) (msg + 1) 0

/-- `AFP_MACHINETYPE_LEN`. -/
def AFP_MACHINETYPE_LEN : ℕ := 15

/-- `AFP_SIGNATURE_LEN`. -/
def AFP_SIGNATURE_LEN : ℕ := 16

/-- `AFP_SERVER_NAME_LEN`. -/
def AFP_SERVER_NAME_LEN : ℕ := 31

/-- `AFP_SERVER_NAME_UTF8_LEN`. -/
def AFP_SERVER_NAME_UTF8_LEN : ℕ := 255

/-- `kSupportsTCP`. -/
def kSupportsTCP : UInt16 := 0x20

/-- `kSupportsDirServices`. -/
def kSupportsDirServices : UInt16 := 0x100

/-- `kSupportsUTF8SrvrName`. -/
def kSupportsUTF8SrvrName : UInt16 := 0x200

/-- What is known of a server. -/
structure Status extends Basic where
  machineType : List UInt8
  icon : List UInt8
  flags : UInt16
  serverName : List UInt8
  signature : List UInt8
  serverNameUtf8 : List UInt8

/-- `len = copy_from_pascal()` of the UTF-8 name, which some servers put one byte too late. -/
def copyUtf8Name (pk : Packet) (p2 : ℕ) : Option (List UInt8) := do
  let name ← GetStatus.copyFromPascal pk p2 AFP_SERVER_NAME_UTF8_LEN
  if name.2 = 0 then
    (GetStatus.copyFromPascal pk (p2 + 1) AFP_SERVER_NAME_UTF8_LEN).map Prod.fst
  else return name.1

/-- The icon and the mask, which are optional. -/
def readIcon (pk : Packet) (iconOffset : UInt16) (icon : List UInt8) : Option (List UInt8) :=
  if 0 < iconOffset.toNat then pk.read (pk.addr + 16 + iconOffset.toNat) 256 else some icon

/-- The UTF-8 name, if the server has one.  Its offset is behind those of the network addresses and
the directory names. -/
def readUtf8Name (pk : Packet) (flags : UInt16) (p : ℕ) (name : List UInt8) :
    Option (List UInt8) :=
  let p := if flags &&& kSupportsTCP ≠ 0 then p + 2 else p
  let p := if flags &&& kSupportsDirServices ≠ 0 then p + 2 else p
  if flags &&& kSupportsUTF8SrvrName ≠ 0 then
    (pk.word p).bind fun offset => copyUtf8Name pk (pk.addr + 16 + offset.toNat + 1)
  else some name

/-- The name of the server and the variable bits behind it: the names and the signature. -/
def readVariable (pk : Packet) (flags : UInt16) (status : Status) :
    Option (List UInt8 × List UInt8 × List UInt8) := do
  -- the cast of the address to `unsigned int`
  let p := pk.addr % 0x100000000 + 26
  let serverName ← GetStatus.copyFromPascal pk p AFP_SERVER_NAME_LEN
  let p := p + (serverName.2 + 1)
  let p := if p % 2 = 1 then p + 1 else p
  let offset ← pk.word p
  let signature ← pk.read (pk.addr + 16 + offset.toNat) AFP_SIGNATURE_LEN
  let serverNameUtf8 ← readUtf8Name pk flags (p + 2) status.serverNameUtf8
  return (serverName.1, signature, serverNameUtf8)

/-- `dsi_getstatus_reply()`. -/
def dsiGetstatusReply (pk : Packet) (beyond : Beyond) (status : Status) : Option Status :=
  if pk.bytes.length < 34 then some status
  else do
    let data := pk.addr + 16
    let machineOffset ← pk.word (pk.addr + 16)
    let machineType ← GetStatus.copyFromPascal pk (data + machineOffset.toNat) AFP_MACHINETYPE_LEN
    let versionOffset ← pk.word (pk.addr + 18)
    let versions ← GetStatus.dsiParseVersions pk beyond (data + versionOffset.toNat)
    let uamsOffset ← pk.word (pk.addr + 20)
    let supportedUams ← GetStatus.dsiParseUams pk beyond (data + uamsOffset.toNat)
    let iconOffset ← pk.word (pk.addr + 22)
    let icon ← readIcon pk iconOffset status.icon
    let flags ← pk.word (pk.addr + 24)
    let names ← readVariable pk flags status
    return {
      versions := versions
      supportedUams := supportedUams
      machineType := machineType.1
      icon := icon
      flags := flags
      serverName := names.1
      signature := names.2.1
      serverNameUtf8 := names.2.2 }

/-! ## What is in the packet -/

/-- The number in the two bytes at a place. -/
def wordAt (bytes : List UInt8) (i : ℕ) : ℕ := (ReplyBlock.ntohs (fieldAt bytes i 2)).toNat

/-- Where the offset at a place leads to. -/
def target (bytes : List UInt8) (i : ℕ) : ℕ := 16 + wordAt bytes i

/-- Behind the part of a pascal string that is copied. -/
def afterPascal (bytes : List UInt8) (maxLen i : ℕ) : ℕ := i + 1 + min (bytes.getD i 0).toNat maxLen

/-- The number at a place and as many strings, `most` at the most. -/
structure NamesInside (bytes : List UInt8) (i most maxLen : ℕ) : Prop where
  number : i < bytes.length
  names : ∀ j < min (bytes.getD i 0).toNat most,
    PascalInside bytes ((afterPascal bytes maxLen)^[j] (i + 1)) maxLen

/-- The place of the offset of the signature, which is behind the name and at an even address. -/
def signaturePlace (pk : Packet) : ℕ :=
  let i := afterPascal pk.bytes AFP_SERVER_NAME_LEN 26
  if (pk.addr + i) % 2 = 1 then i + 1 else i

/-- `server->basic.flags`. -/
def flagsOf (pk : Packet) : UInt16 := ReplyBlock.ntohs (fieldAt pk.bytes 24 2)

/-- The place of the offset of the UTF-8 name. -/
def utf8Place (pk : Packet) : ℕ :=
  signaturePlace pk + 2 + (if flagsOf pk &&& kSupportsTCP ≠ 0 then 2 else 0) +
    (if flagsOf pk &&& kSupportsDirServices ≠ 0 then 2 else 0)

/-- What a reply leads to is in the packet, and the address of the packet is not cut. -/
structure Inside (pk : Packet) : Prop where
  machineType : PascalInside pk.bytes (target pk.bytes 16) AFP_MACHINETYPE_LEN
  versions : NamesInside pk.bytes (target pk.bytes 18) serverMaxVersions 33
  uams : NamesInside pk.bytes (target pk.bytes 20) serverMaxUams afpUamLength
  icon : 0 < wordAt pk.bytes 22 → target pk.bytes 22 + 256 ≤ pk.bytes.length
  low : pk.addr < 0x100000000
  serverName : PascalInside pk.bytes 26 AFP_SERVER_NAME_LEN
  signatureOffset : signaturePlace pk + 2 ≤ pk.bytes.length
  signature : target pk.bytes (signaturePlace pk) + AFP_SIGNATURE_LEN ≤ pk.bytes.length
  utf8Offset : flagsOf pk &&& kSupportsUTF8SrvrName ≠ 0 → utf8Place pk + 2 ≤ pk.bytes.length
  utf8Name : flagsOf pk &&& kSupportsUTF8SrvrName ≠ 0 →
    PascalInside pk.bytes (target pk.bytes (utf8Place pk) + 1) AFP_SERVER_NAME_UTF8_LEN
  utf8NameLate : flagsOf pk &&& kSupportsUTF8SrvrName ≠ 0 →
    pk.bytes.getD (target pk.bytes (utf8Place pk) + 1) 0 = 0 →
      PascalInside pk.bytes (target pk.bytes (utf8Place pk) + 2) AFP_SERVER_NAME_UTF8_LEN

/-! ## The steps -/

section Steps

variable {pk : Packet} {i n maxLen : ℕ}

theorem read_of_le (h : i + n ≤ pk.bytes.length) :
    pk.read (pk.addr + i) n = some (fieldAt pk.bytes i n) := by
  rw [Packet.read, if_pos (by omega), Nat.add_sub_cancel_left]

theorem read_of_lt (h : pk.bytes.length < i + n) : pk.read (pk.addr + i) n = none := by
  rw [Packet.read, if_neg (by omega)]

theorem word_of_le (h : i + 2 ≤ pk.bytes.length) :
    pk.word (pk.addr + i) = some (ReplyBlock.ntohs (fieldAt pk.bytes i 2)) := by
  rw [Packet.word, read_of_le h, Option.map_some]

theorem ofBE_fieldAt_one {bytes : List UInt8} (h : i < bytes.length) :
    ofBE (fieldAt bytes i 1) = (bytes.getD i 0).toNat := by
  rw [fieldAt, List.drop_eq_getElem_cons h, List.take_succ_cons, List.take_zero,
    List.getD_eq_getElem?_getD, List.getElem?_eq_getElem h, Option.getD_some, ofBE,
    List.foldl_cons, List.foldl_nil]
  exact (congrArg (· + bytes[i].toNat) (Nat.mul_zero 256)).trans (Nat.zero_add _)

theorem copyFromPascal_of_inside (h : PascalInside pk.bytes i maxLen) :
    ∃ array, GetStatus.copyFromPascal pk (pk.addr + i) maxLen =
      some (array, min (pk.bytes.getD i 0).toNat maxLen) := by
  rw [PascalInside] at h
  have hlen : ofBE (fieldAt pk.bytes i 1) = (pk.bytes.getD i 0).toNat :=
    ofBE_fieldAt_one (by omega)
  have hdata : pk.read (pk.addr + i + 1) (min (pk.bytes.getD i 0).toNat maxLen) =
      some (fieldAt pk.bytes (i + 1) (min (pk.bytes.getD i 0).toNat maxLen)) :=
    read_of_le (by omega)
  rw [GetStatus.copyFromPascal, read_of_le (by omega), Option.bind_eq_bind, Option.bind_some, hlen]
  simp only [hdata]
  exact ⟨_, rfl⟩

theorem copyFromPascal_of_not_inside (h : ¬ PascalInside pk.bytes i maxLen) :
    GetStatus.copyFromPascal pk (pk.addr + i) maxLen = none := by
  rw [PascalInside] at h
  rw [GetStatus.copyFromPascal]
  by_cases hi : i < pk.bytes.length
  · have hdata : pk.read (pk.addr + i + 1) (min (pk.bytes.getD i 0).toNat maxLen) = none := by
      rw [Nat.add_assoc]
      exact read_of_lt (by omega)
    rw [read_of_le hi, Option.bind_eq_bind, Option.bind_some, ofBE_fieldAt_one hi]
    simp only [hdata]
    rfl
  · rw [read_of_lt (Nat.lt_succ_of_le (Nat.not_lt.mp hi))]
    rfl

/-- **The loop over some strings** reads no other byte if each of them is in the packet. -/
theorem isSome_parseNames_iff {β σ : Type} {size : ℕ} {f : UInt8 → UInt8}
    {table : List (List UInt8 × β)} {beyond : List UInt8 → Option β} {add : σ → β → σ} (s : σ) :
    (GetStatus.parseNames pk maxLen size f table beyond add n (pk.addr + i) s).isSome = true ↔
      ∀ j < n, PascalInside pk.bytes ((afterPascal pk.bytes maxLen)^[j] i) maxLen := by
  induction n generalizing i s with
  | zero => exact iff_of_true rfl fun j hj => absurd hj (Nat.not_lt_zero j)
  | succ n ih =>
    by_cases hfirst : PascalInside pk.bytes i maxLen
    · obtain ⟨array, hcopy⟩ := copyFromPascal_of_inside hfirst
      have hnext : pk.addr + i + (min (pk.bytes.getD i 0).toNat maxLen + 1) =
          pk.addr + afterPascal pk.bytes maxLen i := by
        rw [afterPascal]
        omega
      rw [GetStatus.parseNames, hcopy, Option.bind_eq_bind, Option.bind_some]
      simp only [hnext]
      refine (ih _).trans ⟨fun h j hj => ?_, fun h j hj => ?_⟩
      · cases j with
        | zero => exact hfirst
        | succ j => exact h j (Nat.lt_of_succ_lt_succ hj)
      · exact h (j + 1) (Nat.succ_lt_succ hj)
    · rw [GetStatus.parseNames, copyFromPascal_of_not_inside hfirst]
      exact iff_of_false nofun fun h => hfirst (h 0 (Nat.succ_pos n))

theorem isSome_dsiParseVersions_iff {beyond : Beyond} :
    (GetStatus.dsiParseVersions pk beyond (pk.addr + i)).isSome = true ↔
      NamesInside pk.bytes i serverMaxVersions 33 := by
  rw [GetStatus.dsiParseVersions]
  by_cases hi : i < pk.bytes.length
  · rw [read_of_le hi, Option.bind_eq_bind, Option.bind_some, ofBE_fieldAt_one hi]
    show (Option.bind _ (some ∘ _)).isSome = true ↔ _
    rw [← Option.map_eq_bind, Option.isSome_map, Nat.add_assoc]
    refine Iff.trans (isSome_parseNames_iff []) ⟨fun h => ⟨hi, h⟩, fun h => h.names⟩
  · rw [read_of_lt (by omega)]
    exact iff_of_false nofun fun h => hi h.number

theorem isSome_dsiParseUams_iff {beyond : Beyond} :
    (GetStatus.dsiParseUams pk beyond (pk.addr + i)).isSome = true ↔
      NamesInside pk.bytes i serverMaxUams afpUamLength := by
  rw [GetStatus.dsiParseUams]
  by_cases hi : i < pk.bytes.length
  · rw [read_of_le hi, Option.bind_eq_bind, Option.bind_some, ofBE_fieldAt_one hi, Nat.add_assoc]
    refine Iff.trans (isSome_parseNames_iff 0) ⟨fun h => ⟨hi, h⟩, fun h => h.names⟩
  · rw [read_of_lt (by omega)]
    exact iff_of_false nofun fun h => hi h.number

end Steps

/-- The UTF-8 name, at its place or one byte behind it. -/
theorem isSome_copyUtf8Name_iff {pk : Packet} {i : ℕ} :
    (copyUtf8Name pk (pk.addr + i)).isSome = true ↔
      PascalInside pk.bytes i AFP_SERVER_NAME_UTF8_LEN ∧
        (pk.bytes.getD i 0 = 0 → PascalInside pk.bytes (i + 1) AFP_SERVER_NAME_UTF8_LEN) := by
  rw [copyUtf8Name]
  by_cases hfirst : PascalInside pk.bytes i AFP_SERVER_NAME_UTF8_LEN
  · obtain ⟨array, hcopy⟩ := copyFromPascal_of_inside hfirst
    have hzero : min (pk.bytes.getD i 0).toNat AFP_SERVER_NAME_UTF8_LEN = 0 ↔
        pk.bytes.getD i 0 = 0 := by
      rw [← UInt8.toNat_inj, UInt8.toNat_zero, AFP_SERVER_NAME_UTF8_LEN]
      omega
    rw [hcopy, Option.bind_eq_bind, Option.bind_some, and_iff_right hfirst]
    by_cases hempty : pk.bytes.getD i 0 = 0
    · rw [if_pos (hzero.mpr hempty), Option.isSome_map]
      refine Iff.trans ?_ ⟨fun h _ => h, fun h => h hempty⟩
      by_cases hlate : PascalInside pk.bytes (i + 1) AFP_SERVER_NAME_UTF8_LEN
      · obtain ⟨array', hcopy'⟩ := copyFromPascal_of_inside hlate
        rw [Nat.add_assoc, hcopy']
        exact iff_of_true rfl hlate
      · rw [Nat.add_assoc, copyFromPascal_of_not_inside hlate]
        exact iff_of_false nofun hlate
    · rw [if_neg (mt hzero.mp hempty)]
      exact iff_of_true rfl fun h => absurd h hempty
  · rw [copyFromPascal_of_not_inside hfirst]
    exact iff_of_false nofun fun h => hfirst h.1

/-- An address of more than 32 bits is cut to one in front of the packet. -/
theorem copyFromPascal_of_cut {pk : Packet} (hlow : ¬ pk.addr < 0x100000000) (maxLen : ℕ) :
    GetStatus.copyFromPascal pk (pk.addr % 0x100000000 + 26) maxLen = none := by
  have hread : pk.read (pk.addr % 0x100000000 + 26) 1 = none := by
    rw [Packet.read, if_neg (by omega)]
  rw [GetStatus.copyFromPascal, hread]
  rfl

theorem addr_add_target (pk : Packet) (i : ℕ) :
    pk.addr + 16 + (ReplyBlock.ntohs (fieldAt pk.bytes i 2)).toNat =
      pk.addr + target pk.bytes i := Nat.add_assoc ..

theorem isSome_readIcon_iff {pk : Packet} {icon : List UInt8} :
    (readIcon pk (ReplyBlock.ntohs (fieldAt pk.bytes 22 2)) icon).isSome = true ↔
      (0 < wordAt pk.bytes 22 → target pk.bytes 22 + 256 ≤ pk.bytes.length) := by
  rw [readIcon]
  by_cases hicon : 0 < (ReplyBlock.ntohs (fieldAt pk.bytes 22 2)).toNat
  · rw [if_pos hicon, addr_add_target]
    by_cases hle : target pk.bytes 22 + 256 ≤ pk.bytes.length
    · rw [read_of_le hle]
      exact iff_of_true rfl fun _ => hle
    · rw [read_of_lt (Nat.lt_of_not_le hle)]
      exact iff_of_false nofun fun h => hle (h hicon)
  · rw [if_neg hicon]
    exact iff_of_true rfl fun h => absurd h hicon

theorem isSome_readUtf8Name_iff {pk : Packet} {name : List UInt8} :
    (readUtf8Name pk (flagsOf pk) (pk.addr + (signaturePlace pk + 2)) name).isSome = true ↔
      (flagsOf pk &&& kSupportsUTF8SrvrName ≠ 0 → utf8Place pk + 2 ≤ pk.bytes.length ∧
        PascalInside pk.bytes (target pk.bytes (utf8Place pk) + 1) AFP_SERVER_NAME_UTF8_LEN ∧
        (pk.bytes.getD (target pk.bytes (utf8Place pk) + 1) 0 = 0 →
          PascalInside pk.bytes (target pk.bytes (utf8Place pk) + 2) AFP_SERVER_NAME_UTF8_LEN)) := by
  have hplace : (if flagsOf pk &&& kSupportsDirServices ≠ 0 then
      (if flagsOf pk &&& kSupportsTCP ≠ 0 then pk.addr + (signaturePlace pk + 2) + 2
        else pk.addr + (signaturePlace pk + 2)) + 2
      else if flagsOf pk &&& kSupportsTCP ≠ 0 then pk.addr + (signaturePlace pk + 2) + 2
        else pk.addr + (signaturePlace pk + 2)) = pk.addr + utf8Place pk := by
    rw [utf8Place]
    split <;> split <;> omega
  rw [readUtf8Name]
  simp only [hplace]
  by_cases hflag : flagsOf pk &&& kSupportsUTF8SrvrName ≠ 0
  · rw [if_pos hflag, forall_prop_of_true hflag]
    by_cases hle : utf8Place pk + 2 ≤ pk.bytes.length
    · rw [word_of_le hle, Option.bind_some, and_iff_right hle, Nat.add_assoc, Nat.add_assoc]
      exact isSome_copyUtf8Name_iff
    · rw [Packet.word, read_of_lt (Nat.lt_of_not_le hle)]
      exact iff_of_false nofun fun h => hle h.1
  · rw [if_neg hflag]
    exact iff_of_true rfl fun h => absurd h hflag

theorem isSome_readVariable_iff {pk : Packet} {status : Status} :
    (readVariable pk (flagsOf pk) status).isSome = true ↔
      pk.addr < 0x100000000 ∧ PascalInside pk.bytes 26 AFP_SERVER_NAME_LEN ∧
        signaturePlace pk + 2 ≤ pk.bytes.length ∧
        target pk.bytes (signaturePlace pk) + AFP_SIGNATURE_LEN ≤ pk.bytes.length ∧
        (readUtf8Name pk (flagsOf pk) (pk.addr + (signaturePlace pk + 2))
          status.serverNameUtf8).isSome = true := by
  rw [readVariable]
  by_cases hlow : pk.addr < 0x100000000
  swap
  · simp only [copyFromPascal_of_cut hlow]
    exact iff_of_false nofun fun h => hlow h.1
  rw [and_iff_right hlow, Nat.mod_eq_of_lt hlow]
  by_cases hname : PascalInside pk.bytes 26 AFP_SERVER_NAME_LEN
  swap
  · simp only [copyFromPascal_of_not_inside hname]
    exact iff_of_false nofun fun h => hname h.1
  obtain ⟨array, hcopy⟩ := copyFromPascal_of_inside hname
  have hplace : (if (pk.addr + 26 + (min (pk.bytes.getD 26 0).toNat AFP_SERVER_NAME_LEN + 1)) % 2 = 1
      then pk.addr + 26 + (min (pk.bytes.getD 26 0).toNat AFP_SERVER_NAME_LEN + 1) + 1
      else pk.addr + 26 + (min (pk.bytes.getD 26 0).toNat AFP_SERVER_NAME_LEN + 1)) =
        pk.addr + signaturePlace pk := by
    have hafter : pk.addr + 26 + (min (pk.bytes.getD 26 0).toNat AFP_SERVER_NAME_LEN + 1) =
        pk.addr + afterPascal pk.bytes AFP_SERVER_NAME_LEN 26 := by
      rw [afterPascal]
      omega
    rw [hafter, signaturePlace]
    split <;> omega
  rw [and_iff_right hname]
  simp only [hcopy, Option.bind_eq_bind, Option.bind_some, hplace]
  by_cases hle : signaturePlace pk + 2 ≤ pk.bytes.length
  swap
  · rw [Packet.word, read_of_lt (Nat.lt_of_not_le hle)]
    exact iff_of_false nofun fun h => hle h.1
  rw [word_of_le hle, Option.bind_some, and_iff_right hle, addr_add_target, Nat.add_assoc]
  by_cases hsign : target pk.bytes (signaturePlace pk) + AFP_SIGNATURE_LEN ≤ pk.bytes.length
  swap
  · rw [read_of_lt (Nat.lt_of_not_le hsign)]
    exact iff_of_false nofun fun h => hsign h.1
  rw [read_of_le hsign, Option.bind_some, and_iff_right hsign]
  show (Option.bind _ (some ∘ _)).isSome = true ↔ _
  rw [← Option.map_eq_bind, Option.isSome_map]

/-- **When the parser stays inside the packet.** -/
theorem isSome_dsiGetstatusReply_iff {pk : Packet} {beyond : Beyond} {status : Status} :
    (dsiGetstatusReply pk beyond status).isSome = true ↔
      (34 ≤ pk.bytes.length → Inside pk) := by
  by_cases hlen : pk.bytes.length < 34
  · rw [dsiGetstatusReply, if_pos hlen]
    exact iff_of_true rfl fun h => absurd hlen (Nat.not_lt.mpr h)
  have hnames := @isSome_readUtf8Name_iff pk status.serverNameUtf8
  have hvariable := @isSome_readVariable_iff pk status
  have hicon := @isSome_readIcon_iff pk status.icon
  have hversions := @isSome_dsiParseVersions_iff pk (target pk.bytes 18) beyond
  have huams := @isSome_dsiParseUams_iff pk (target pk.bytes 20) beyond
  rw [forall_prop_of_true (Nat.not_lt.mp hlen), dsiGetstatusReply, if_neg hlen]
  simp only [Option.bind_eq_bind, Option.pure_def, word_of_le (show 16 + 2 ≤ pk.bytes.length by omega),
    word_of_le (show 18 + 2 ≤ pk.bytes.length by omega),
    word_of_le (show 20 + 2 ≤ pk.bytes.length by omega),
    word_of_le (show 22 + 2 ≤ pk.bytes.length by omega),
    word_of_le (show 24 + 2 ≤ pk.bytes.length by omega), Option.bind_some, addr_add_target]
  by_cases hmachine : PascalInside pk.bytes (target pk.bytes 16) AFP_MACHINETYPE_LEN
  swap
  · rw [copyFromPascal_of_not_inside hmachine]
    exact iff_of_false nofun fun h => hmachine h.machineType
  obtain ⟨machineType, hcopy⟩ := copyFromPascal_of_inside hmachine
  rw [hcopy, Option.bind_some]
  cases hparse : GetStatus.dsiParseVersions pk beyond (pk.addr + target pk.bytes 18) with
  | none =>
    rw [hparse] at hversions
    exact iff_of_false nofun fun h => nomatch hversions.mpr h.versions
  | some versions =>
  rw [hparse] at hversions
  cases hparse' : GetStatus.dsiParseUams pk beyond (pk.addr + target pk.bytes 20) with
  | none =>
    rw [hparse'] at huams
    exact iff_of_false nofun fun h => nomatch huams.mpr h.uams
  | some uams =>
  rw [hparse'] at huams
  rw [Option.bind_some, Option.bind_some]
  cases hread : readIcon pk (ReplyBlock.ntohs (fieldAt pk.bytes 22 2)) status.icon with
  | none =>
    rw [hread] at hicon
    exact iff_of_false nofun fun h => nomatch hicon.mpr h.icon
  | some icon =>
  rw [hread] at hicon
  rw [Option.bind_some]
  show (Option.bind _ (some ∘ _)).isSome = true ↔ _
  rw [← Option.map_eq_bind, Option.isSome_map]
  refine hvariable.trans ⟨fun ⟨hlow, hname, hoffset, hsign, hutf8⟩ => ?_, fun h => ?_⟩
  · have hutf8 := hnames.mp hutf8
    exact ⟨hmachine, hversions.mp rfl, huams.mp rfl, hicon.mp rfl, hlow, hname, hoffset, hsign, fun h => (hutf8 h).1,
      fun h => (hutf8 h).2.1, fun h => (hutf8 h).2.2⟩
  · exact ⟨h.low, h.serverName, h.signatureOffset, h.signature,
      hnames.mpr fun hflag => ⟨h.utf8Offset hflag, h.utf8Name hflag, h.utf8NameLate hflag⟩⟩

/-! ## What is negotiated

`dsi_getstatus_reply()` once more, of which `Negotiation` has the part for the versions and the UAMs,
with all of the memory behind the DSI header. -/

/-- The data behind the DSI header, as a memory. -/
def Packet.data (pk : Packet) (i : ℕ) : UInt8 := pk.bytes.getD (16 + i) 0

section Negotiated

variable {pk : Packet} {p n maxLen : ℕ}

/-- `copy_from_pascal()` of a reply block. -/
theorem copyFromPascal_eq_drop (pk : Packet) (i maxLen : ℕ) :
    GetStatus.copyFromPascal pk (pk.addr + i) maxLen =
      (ReplyBlock.copyFromPascal (pk.bytes.drop i) maxLen).map fun data =>
        (data ++ List.replicate (maxLen - data.length) 0, data.length) := by
  by_cases hinside : PascalInside pk.bytes i maxLen
  swap
  · have hnone := mt isSome_copyFromPascal_iff.mp hinside
    rw [copyFromPascal_of_not_inside hinside, Option.not_isSome_iff_eq_none.mp hnone, Option.map_none]
  have hle := hinside
  rw [PascalInside] at hle
  have hi : i < pk.bytes.length := by omega
  have hbyte : pk.bytes.getD i 0 = pk.bytes[i] := List.getD_eq_getElem _ _ hi
  have hdata : min pk.bytes[i].toNat maxLen ≤ (pk.bytes.drop (i + 1)).length := by
    rw [← hbyte, List.length_drop]
    omega
  have hread : pk.read (pk.addr + i + 1) (min pk.bytes[i].toNat maxLen) =
      some (fieldAt pk.bytes (i + 1) (min pk.bytes[i].toNat maxLen)) := read_of_le (hbyte ▸ hle)
  rw [GetStatus.copyFromPascal, read_of_le hi, Option.bind_eq_bind, Option.bind_some,
    ofBE_fieldAt_one hi, List.drop_eq_getElem_cons hi, ReplyBlock.copyFromPascal]
  simp only [hbyte, hread]
  rw [if_pos hdata, Option.map_some, List.length_take_of_le hdata]
  rfl

/-- `copy_from_pascal()` of the memory. -/
theorem copyFromPascal_data (h : PascalInside pk.bytes (16 + p) maxLen) :
    GetStatus.copyFromPascal pk (pk.addr + (16 + p)) maxLen =
      some (Negotiation.copyFromPascal pk.data p maxLen) := by
  rw [PascalInside] at h
  have hp : 16 + p < pk.bytes.length := by omega
  have hread : pk.read (pk.addr + (16 + p) + 1) (min (pk.data p).toNat maxLen) =
      some (fieldAt pk.bytes (16 + p + 1) (min (pk.data p).toNat maxLen)) := read_of_le h
  have hload : Memory.load pk.data (p + 1) (min (pk.data p).toNat maxLen) =
      fieldAt pk.bytes (16 + p + 1) (min (pk.data p).toNat maxLen) := by
    refine List.ext_getElem ?_ fun j hj hj' => ?_
    · rw [Memory.length_load, fieldAt, List.length_take_of_le]
      rw [List.length_drop]
      exact Nat.le_sub_of_add_le' h
    · rw [Memory.length_load] at hj
      have hlt : 16 + (p + 1 + j) < pk.bytes.length := by
        rw [Packet.data] at hj
        omega
      have hplace : 16 + p + 1 + j = 16 + (p + 1 + j) := by omega
      simp only [Memory.load, List.getElem_map, List.getElem_range, fieldAt, List.getElem_take,
        List.getElem_drop, Packet.data, hplace]
      exact List.getD_eq_getElem _ _ hlt
  have hmin : (if maxLen < (pk.data p).toNat then maxLen else (pk.data p).toNat) =
      min (pk.data p).toNat maxLen := by
    split <;> omega
  rw [GetStatus.copyFromPascal, read_of_le hp, Option.bind_eq_bind, Option.bind_some,
    ofBE_fieldAt_one hp, Negotiation.copyFromPascal]
  show (pk.read (pk.addr + (16 + p) + 1) (min (pk.data p).toNat maxLen) >>= _) = _
  simp only [hread, hmin, hload]
  rfl

/-- **The loops** over the names. -/
theorem parseNames_data {β σ : Type} {size : ℕ} {f : UInt8 → UInt8} {table : List (List UInt8 × β)}
    {beyond : List UInt8 → Option β} {add : σ → β → σ} {s s' t : σ}
    (h : GetStatus.parseNames pk maxLen size f table beyond add n (pk.addr + (16 + p)) s = some s')
    (hdata : Negotiation.parseNames maxLen size f table add pk.data n p s = some t) : s' = t := by
  induction n generalizing p s with
  | zero => exact (Option.some.inj h).symm.trans (Option.some.inj hdata)
  | succ n ih =>
    have hinside : PascalInside pk.bytes (16 + p) maxLen :=
      (isSome_parseNames_iff s).mp (Option.isSome_of_mem h) 0 (Nat.succ_pos n)
    obtain ⟨found, hfound, hdata⟩ := Option.bind_eq_some_iff.mp hdata
    have hsearch : search f table ((Negotiation.copyFromPascal pk.data p maxLen).1 ++
        List.replicate (size - maxLen) 0) = some found := hfound
    rw [GetStatus.parseNames, copyFromPascal_data hinside, Option.bind_eq_bind, Option.bind_some] at h
    simp only [hsearch, Option.getD_some] at h
    have hplace : pk.addr + (16 + p) + ((Negotiation.copyFromPascal pk.data p maxLen).2 + 1) =
        pk.addr + (16 + (p + ((Negotiation.copyFromPascal pk.data p maxLen).2 + 1))) := by omega
    rw [hplace] at h
    cases found with
    | none => exact ih h hdata
    | some b => exact ih h hdata

theorem number_data (hp : 16 + p < pk.bytes.length) :
    ofBE (fieldAt pk.bytes (16 + p) 1) = (pk.data p).toNat := ofBE_fieldAt_one hp

theorem dsiParseVersions_data {beyond : Beyond} {versions versions' : List UInt8}
    (h : GetStatus.dsiParseVersions pk beyond (pk.addr + (16 + p)) = some versions)
    (hdata : Negotiation.dsiParseVersions pk.data p = some versions') : versions = versions' := by
  have hp := (isSome_dsiParseVersions_iff.mp (Option.isSome_of_mem h)).number
  rw [GetStatus.dsiParseVersions, read_of_le hp, Option.bind_eq_bind, Option.bind_some,
    number_data hp] at h
  obtain ⟨found, hfound, rfl⟩ := Option.map_eq_some_iff.mp (Option.map_eq_bind.trans h)
  obtain ⟨found', hfound', rfl⟩ := Option.map_eq_some_iff.mp (Option.map_eq_bind.trans hdata)
  rw [parseNames_data hfound hfound']

theorem dsiParseUams_data {beyond : Beyond} {uams uams' : UInt32}
    (h : GetStatus.dsiParseUams pk beyond (pk.addr + (16 + p)) = some uams)
    (hdata : Negotiation.dsiParseUams pk.data p = some uams') : uams = uams' := by
  have hp := (isSome_dsiParseUams_iff.mp (Option.isSome_of_mem h)).number
  rw [GetStatus.dsiParseUams, read_of_le hp, Option.bind_eq_bind, Option.bind_some,
    number_data hp] at h
  exact parseNames_data h hdata

theorem word_data (h : 16 + p + 2 ≤ pk.bytes.length) :
    (ReplyBlock.ntohs (fieldAt pk.bytes (16 + p) 2)).toNat = Negotiation.ntohs pk.data p := by
  have hfield : fieldAt pk.bytes (16 + p) 2 = [pk.data p, pk.data (p + 1)] := by
    have hlt : 16 + p + 1 < pk.bytes.length := h
    rw [fieldAt, List.drop_eq_getElem_cons (Nat.lt_of_succ_lt hlt), List.drop_eq_getElem_cons hlt,
      List.take_succ_cons, List.take_succ_cons, List.take_zero, Packet.data, Packet.data,
      ← Nat.add_assoc, List.getD_eq_getElem _ _ (Nat.lt_of_succ_lt hlt), List.getD_eq_getElem _ _ hlt]
  have hlt := (pk.data p).toNat_lt
  have hlt' := (pk.data (p + 1)).toNat_lt
  rw [hfield, ReplyBlock.ntohs, ofBE, List.foldl_cons, List.foldl_cons, List.foldl_nil, Nat.mul_zero,
    Nat.zero_add, UInt16.toNat_ofNat', Nat.mod_eq_of_lt (by omega), Negotiation.ntohs]

/-- **The versions and the UAMs** are those of `Negotiation`, where no comparison reads behind its
array. -/
theorem dsiGetstatusReply_data {beyond : Beyond} {status status' : Status} {basic : Basic}
    (h : dsiGetstatusReply pk beyond status = some status')
    (hdata : Negotiation.dsiGetstatusReply pk.data pk.bytes.length status.toBasic = some basic) :
    status'.toBasic = basic := by
  rw [Negotiation.dsiGetstatusReply] at hdata
  rw [dsiGetstatusReply] at h
  by_cases hlen : pk.bytes.length < 34
  · rw [if_pos hlen] at h hdata
    obtain rfl := Option.some.inj h
    exact Option.some.inj hdata
  rw [if_neg hlen] at h hdata
  obtain ⟨versions', hversions', hdata⟩ := Option.bind_eq_some_iff.mp hdata
  obtain ⟨uams', huams', hdata⟩ := Option.bind_eq_some_iff.mp hdata
  obtain ⟨_, _, h⟩ := Option.bind_eq_some_iff.mp h
  obtain ⟨_, _, h⟩ := Option.bind_eq_some_iff.mp h
  obtain ⟨versionOffset, hversionOffset, h⟩ := Option.bind_eq_some_iff.mp h
  obtain ⟨versions, hversions, h⟩ := Option.bind_eq_some_iff.mp h
  obtain ⟨uamsOffset, huamsOffset, h⟩ := Option.bind_eq_some_iff.mp h
  obtain ⟨uams, huams, h⟩ := Option.bind_eq_some_iff.mp h
  obtain ⟨_, _, h⟩ := Option.bind_eq_some_iff.mp h
  obtain ⟨_, _, h⟩ := Option.bind_eq_some_iff.mp h
  obtain ⟨_, _, h⟩ := Option.bind_eq_some_iff.mp h
  obtain ⟨_, _, h⟩ := Option.bind_eq_some_iff.mp h
  obtain rfl := Option.some.inj h
  obtain rfl := Option.some.inj hdata
  rw [word_of_le (by omega)] at hversionOffset huamsOffset
  obtain rfl := Option.some.inj hversionOffset
  obtain rfl := Option.some.inj huamsOffset
  rw [Nat.add_assoc, word_data (p := 2) (by omega)] at hversions
  rw [Nat.add_assoc, word_data (p := 4) (by omega)] at huams
  exact congrArg₂ Basic.mk (dsiParseVersions_data hversions hversions') (dsiParseUams_data huams huams')

end Negotiated

end GetStatus
end Server
end Afpfs
