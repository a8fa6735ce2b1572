import Mathlib.Algebra.Order.Group.Nat
import Mathlib.Data.List.Basic
import Mathlib.Data.List.Find
import Mathlib.Data.List.Infix
import Afpfs.Lib.Memory

/-!
# Versions and UAMs

A server's answer to GetStatus has the list of the versions of the protocol and the list of the
user authentication methods that it offers, each a byte with their number and as many pascal
strings.  `dsi_getstatus_reply()` keeps the numbers of the versions that it knows and a bit for
each known method, and `pick_version()` decides for one of the versions.

The two loops copy each string to a temporary with `copy_from_pascal()` and go on behind what was
copied, not behind the string.

* `parseNames_encode`: the loops see the names, if each but the last is no longer than what is
  copied.
* `negotiation`: then, and if no name begins with a known one and a zero byte and no method is
  spelt with other capitals, the versions and methods are those of the names; and `pick_version()`
  picks as expected from them, and reads behind the array exactly if it is full and does not have
  the requested version.
* `ten_versions_read_behind`: with ten known versions it does.
-/

set_option autoImplicit false

namespace Afpfs
namespace Server
namespace Negotiation

open Memory

/-! ## Strings -/

/-- The bytes of an ASCII string. -/
def asciiBytes (s : List Char) : List UInt8 := s.map fun c => UInt8.ofNat c.toNat

/-- `tolower()` in the C locale. -/
def toLower (b : UInt8) : UInt8 := if 65 ≤ b ∧ b ≤ 90 then b + 32 else b

/-- Whether `strcmp()` of a string with an array is 0, up to `f`: `strcmp()` itself with the
identity, `strcasecmp()` with `tolower()`.  `none` stands for a read behind the array. -/
def strEq (f : UInt8 → UInt8) : List UInt8 → List UInt8 → Option Bool
  | _, [] => none
  | [], b :: _ => some (decide (b = 0))
  | c :: name, b :: array => if f c = f b then strEq f name array else some false

/-- `copy_from_pascal()` of the string at `p` to an array of `maxLen` bytes: the array and what is
returned. -/
def copyFromPascal (m : ℕ → UInt8) (p maxLen : ℕ) : List UInt8 × ℕ :=
  let len := (m p).toNat
  let len := if maxLen < len then maxLen else len
  (load m (p + 1) len ++ List.replicate (maxLen - len) 0, len)

/-! ## The tables -/

/-- `afp_versions`. -/
def afpVersions : List (List UInt8 × UInt8) :=
  [(asciiBytes ['A', 'F', 'P', 'V', 'e', 'r', 's', 'i', 'o', 'n', ' ', '1', '.', '1'], 11),
    (asciiBytes ['A', 'F', 'P', 'V', 'e', 'r', 's', 'i', 'o', 'n', ' ', '2', '.', '0'], 20),
    (asciiBytes ['A', 'F', 'P', 'V', 'e', 'r', 's', 'i', 'o', 'n', ' ', '2', '.', '1'], 21),
    (asciiBytes ['A', 'F', 'P', '2', '.', '2'], 22),
    (asciiBytes ['A', 'F', 'P', 'X', '0', '3'], 30),
    (asciiBytes ['A', 'F', 'P', '3', '.', '1'], 31),
    (asciiBytes ['A', 'F', 'P', '3', '.', '2'], 32)]

/-- `afp_strings`, each with its bit. -/
def afpStrings : List (List UInt8 × UInt32) :=
  [(asciiBytes ['N', 'o', ' ', 'U', 's', 'e', 'r', ' ', 'A', 'u', 't', 'h', 'e', 'n', 't'], 0x1),
    (asciiBytes ['C', 'l', 'e', 'a', 'r', 't', 'x', 't', ' ', 'P', 'a', 's', 's', 'w', 'r', 'd'],
      0x2),
    (asciiBytes ['R', 'a', 'n', 'd', 'n', 'u', 'm', ' ', 'E', 'x', 'c', 'h', 'a', 'n', 'g', 'e'],
      0x4),
    (asciiBytes ['2', '-', 'W', 'a', 'y', ' ', 'R', 'a', 'n', 'd', 'n', 'u', 'm', ' ',
      'E', 'x', 'c', 'h', 'a', 'n', 'g', 'e'], 0x8),
    (asciiBytes ['D', 'H', 'C', 'A', 'S', 'T', '1', '2', '8'], 0x10),
    (asciiBytes ['C', 'l', 'i', 'e', 'n', 't', ' ', 'K', 'r', 'b', ' ', 'v', '2'], 0x20),
    (asciiBytes ['D', 'H', 'X', '2'], 0x40),
    (asciiBytes ['R', 'e', 'c', 'o', 'n', '1'], 0x80)]

/-- The search of a table for the string in an array. -/
def search {β : Type} (f : UInt8 → UInt8) : List (List UInt8 × β) → List UInt8 → Option (Option β)
  | [], _ => some none
  | (name, b) :: table, array => do
    if ← strEq f name array then some (some b) else search f table array

/-! ## The reply -/

/-- `SERVER_MAX_VERSIONS`. -/
def serverMaxVersions : ℕ := 10

/-- `SERVER_MAX_UAMS`. -/
def serverMaxUams : ℕ := 10

/-- `AFP_UAM_LENGTH`. -/
def afpUamLength : ℕ := 24

/-- `AFP_MAX_SUPPORTED_VERSION`. -/
def afpMaxSupportedVersion : UInt8 := 32

/-- The fields of `struct afp_server_basic` that are negotiated. -/
structure Basic where
  versions : List UInt8
  supportedUams : UInt32
  deriving DecidableEq

/-- The loop of `dsi_parse_versions()` and `dsi_parse_uams()`: `n` strings from `p` on, each copied
to a temporary of `size` bytes with `maxLen` as the limit, searched for in a table, and taken into
account. -/
def parseNames {β σ : Type} (maxLen size : ℕ) (f : UInt8 → UInt8) (table : List (List UInt8 × β))
    (add : σ → β → σ) (m : ℕ → UInt8) : ℕ → ℕ → σ → Option σ
  | 0, _, s => some s
  | n + 1, p, s => do
    let (copied, len) := copyFromPascal m p maxLen
    let found ← search f table (copied ++ List.replicate (size - maxLen) 0)
    let s := match found with
      | some b => add s b
      | none => s
    parseNames maxLen size f table add m n (p + (len + 1)) s

/-- `dsi_parse_versions()`. -/
def dsiParseVersions (m : ℕ → UInt8) (msg : ℕ) : Option (List UInt8) := do
  let numVersions := min (m msg).toNat serverMaxVersions
  let versions ← parseNames 33 33 id afpVersions (fun l number => l ++ [number]) m numVersions
    (msg + 1) []
  some (versions ++ List.replicate (serverMaxVersions - versions.length) 0)

/-- `dsi_parse_uams()`, with `uam_string_to_bitmap()`. -/
def dsiParseUams (m : ℕ → UInt8) (msg : ℕ) : Option UInt32 :=
  let numUams := min (m msg).toNat serverMaxUams
  parseNames afpUamLength (afpUamLength + 1) toLower afpStrings (fun u bit => u ||| bit) m numUams
    (msg + 1) 0

/-- `ntohs()` of a field of the header. -/
def ntohs (m : ℕ → UInt8) (i : ℕ) : ℕ := 256 * (m i).toNat + (m (i + 1)).toNat

/-- What `dsi_getstatus_reply()` does to the versions and the UAMs.  `data` is the packet behind
its DSI header, `dataRead` the number of bytes of the whole packet. -/
def dsiGetstatusReply (data : ℕ → UInt8) (dataRead : ℕ) (basic : Basic) : Option Basic := do
  if dataRead < 34 then some basic
  else
    let versions ← dsiParseVersions data (ntohs data 2)
    let supportedUams ← dsiParseUams data (ntohs data 4)
    some { versions := versions, supportedUams := supportedUams }

/-! ## The choice -/

/-- What the loop of `pick_version()` leaves. -/
structure Picked where
  versionNum : Int8
  highest : Int8
  foundVersion : Bool
  /-- No element behind the array was read. -/
  inside : Bool

/-- The loop of `pick_version()` over the array from some element on.  It reads an element before
it compares `i` with the size; the element behind the array only ends the loop. -/
def pickLoop (requested : UInt8) : List UInt8 → Int8 → Int8 → Picked
  | [], versionNum, highest => ⟨versionNum, highest, false, false⟩
  | v :: versions, versionNum, highest =>
    if v = 0 then ⟨versionNum, highest, false, true⟩
    else
      let versionNum := v.toInt8
      let highest := if versionNum < highest then highest else versionNum
      if v = requested then ⟨versionNum, highest, true, true⟩
      else pickLoop requested versions versionNum highest

/-- `requested`, limited to the highest supported version. -/
def limit (requested : UInt8) : UInt8 :=
  if requested = 0 then 0
  else if requested < afpMaxSupportedVersion then requested else afpMaxSupportedVersion

/-- `pick_version()`: the element of `afp_versions`, and whether the array was not left. -/
def pickVersion (versions : List UInt8) (requested : UInt8) : Option (List UInt8 × UInt8) × Bool :=
  let picked := pickLoop (limit requested) versions 0 0
  let versionNum := if picked.foundVersion then picked.versionNum else picked.highest
  (afpVersions.find? fun p => (p.2.toNat : ℤ) = versionNum.toInt, picked.inside)

/-! ## What is expected -/

/-- A pascal string. -/
def pascal (name : List UInt8) : List UInt8 := UInt8.ofNat name.length :: name

/-- A list of pascal strings. -/
def encode (names : List (List UInt8)) : List UInt8 :=
  UInt8.ofNat names.length :: names.flatMap pascal

/-- A list of pascal strings is in memory at `p`. -/
structure At (m : ℕ → UInt8) (p : ℕ) (names : List (List UInt8)) : Prop where
  count : names.length < 256
  lengths : ∀ name ∈ names, name.length < 256
  bytes : load m p (encode names).length = encode names

/-- What a table has for a name. -/
def lookup {β : Type} (table : List (List UInt8 × β)) (name : List UInt8) : Option β :=
  (table.find? fun e => e.1 = name).map (·.2)

/-- The numbers of the versions that are offered. -/
def offeredVersions (names : List (List UInt8)) : List UInt8 :=
  (names.take serverMaxVersions).filterMap (lookup afpVersions)

/-- The array of the versions that are offered. -/
def expectedVersions (names : List (List UInt8)) : List UInt8 :=
  offeredVersions names ++ List.replicate (serverMaxVersions - (offeredVersions names).length) 0

/-- The union of the bits of the methods that are offered. -/
def expectedUams (names : List (List UInt8)) : UInt32 :=
  ((names.take serverMaxUams).filterMap (lookup afpStrings)).foldl (fun u bit => u ||| bit) 0

/-- The condition on a list of names, of which `count` are read: the walk keeps in step with the
strings, and none is taken for a known name that it is not. -/
structure Sound {β : Type} (count maxLen : ℕ) (f : UInt8 → UInt8) (table : List (List UInt8 × β))
    (names : List (List UInt8)) : Prop where
  /-- Each name but the last one that is read is copied as a whole. -/
  short : ∀ name ∈ (names.take count).dropLast, name.length ≤ maxLen
  /-- No name is a known one, a zero byte and more. -/
  zero : ∀ name ∈ names.take count, ∀ e ∈ table, ¬ e.1.map f ++ [0] <+: name.map f
  /-- No name is a known one but for capitals. -/
  capitals : ∀ name ∈ names.take count, ∀ e ∈ table, e.1.map f = name.map f → e.1 = name

/-- What is expected of `pick_version()`. -/
structure Chosen (offered : List UInt8) (requested : UInt8) (result : Option (List UInt8 × UInt8)) :
    Prop where
  /-- The requested version, if it is offered. -/
  found : limit requested ∈ offered → ∃ e ∈ afpVersions, result = some e ∧ e.2 = limit requested
  /-- Else the highest one. -/
  highest : limit requested ∉ offered → offered ≠ [] →
    ∃ e ∈ afpVersions, result = some e ∧ e.2 ∈ offered ∧ ∀ v ∈ offered, v ≤ e.2
  /-- None, if none is offered. -/
  none : offered = [] → result = none

/-! ## The comparison -/

theorem strEq_eq {f : UInt8 → UInt8} (hf : ∀ b, f b = 0 ↔ b = 0) :
    ∀ {name array : List UInt8}, name.length < array.length →
      strEq f name array = some (decide (name.map f ++ [0] <+: array.map f))
  | _, [], h => absurd h (Nat.not_lt_zero _)
  | [], b :: array, _ => by
    rw [strEq]
    simp [List.cons_prefix_cons, eq_comm, hf]
  | c :: name, b :: array, h => by
    have ih := strEq_eq hf (Nat.lt_of_succ_lt_succ h)
    rw [strEq, List.map_cons, List.map_cons, List.cons_append]
    simp only [List.cons_prefix_cons]
    by_cases hc : f c = f b
    · rw [if_pos hc, ih]
      simp [hc]
    · rw [if_neg hc]
      simp [hc]

/-- A string with its terminator at the start of an array that has a name, cut to `n` bytes, and
zeros. -/
theorem terminated_prefix_iff {k name : List UInt8} {n r : ℕ} (hzero : 0 ∉ k) (hk : k.length < n)
    (hr : n ≤ name.length + r) :
    k ++ [0] <+: name.take n ++ List.replicate r 0 ↔ k = name ∨ k ++ [0] <+: name := by
  constructor
  · intro h
    by_cases hlength : name.length ≤ k.length
    · left
      rw [List.take_of_length_le (by omega)] at h
      -- the string is the name and zeros, of which it has none
      obtain ⟨t, rfl⟩ : name <+: k := by
        refine List.prefix_of_prefix_length_le (List.prefix_append name _)
          ((List.prefix_append k [0]).trans h) hlength
      rw [List.append_assoc, List.prefix_append_right_inj] at h
      have ht : t = [] := by
        refine List.eq_nil_iff_forall_not_mem.mpr fun b hb => hzero ?_
        have hb0 : b = 0 := List.eq_of_mem_replicate (h.subset (List.mem_append_left _ hb))
        exact List.mem_append_right _ (hb0 ▸ hb)
      rw [ht, List.append_nil]
    · right
      have hle : (k ++ [0]).length ≤ (name.take n).length := by
        rw [List.length_append, List.length_take, List.length_singleton]
        omega
      exact (List.prefix_of_prefix_length_le h (List.prefix_append _ _) hle).trans
        (List.take_prefix n name)
  · rintro (rfl | h)
    · rw [List.take_of_length_le (Nat.le_of_lt hk), List.prefix_append_right_inj]
      obtain ⟨r', rfl⟩ := Nat.exists_eq_add_of_lt (show 0 < r by omega)
      rw [Nat.zero_add, List.replicate_succ]
      exact List.cons_prefix_cons.mpr ⟨rfl, List.nil_prefix⟩
    · refine List.IsPrefix.trans ?_ (List.prefix_append _ _)
      refine List.prefix_take_iff.mpr ⟨h, ?_⟩
      rw [List.length_append, List.length_singleton]
      exact hk

/-! ## The walk -/

section

variable {β σ : Type} {f : UInt8 → UInt8} {table : List (List UInt8 × β)} {m : ℕ → UInt8}
  {maxLen size p : ℕ}

/-- The names of a table are strings that fit the temporaries. -/
structure Fits (maxLen : ℕ) (f : UInt8 → UInt8) (table : List (List UInt8 × β)) : Prop where
  length : ∀ e ∈ table, e.1.length < maxLen
  zero : ∀ e ∈ table, 0 ∉ e.1.map f

/-- What `copy_from_pascal()` makes of a string in memory. -/
theorem copyFromPascal_eq {name : List UInt8} (hlength : name.length < 256)
    (h : load m p (pascal name).length = pascal name) :
    copyFromPascal m p maxLen =
      (name.take maxLen ++ List.replicate (maxLen - name.length) 0, min name.length maxLen) := by
  have hadd : (pascal name).length = 1 + name.length := by
    rw [pascal, List.length_cons, Nat.add_comm]
  rw [hadd, load_add, pascal] at h
  obtain ⟨hhead, htail⟩ : m p = UInt8.ofNat name.length ∧ load m (p + 1) name.length = name :=
    List.cons.inj h
  have hlen : (m p).toNat = name.length := by
    rw [hhead, UInt8.toNat_ofNat_of_lt' hlength]
  rw [copyFromPascal, hlen]
  have htake : ∀ n ≤ name.length, load m (p + 1) n = name.take n := by
    intro n hn
    obtain ⟨r, hr⟩ := Nat.exists_eq_add_of_le hn
    have := congrArg (List.take n) htail
    rw [hr, load_add, List.take_left' (length_load _ _ _)] at this
    exact this
  by_cases hmax : maxLen < name.length
  · simp only [if_pos hmax]
    rw [htake maxLen (Nat.le_of_lt hmax), Nat.sub_self, Nat.sub_eq_zero_of_le (Nat.le_of_lt hmax),
      Nat.min_eq_right (Nat.le_of_lt hmax)]
  · have hle := Nat.le_of_not_lt hmax
    simp only [if_neg hmax]
    rw [htail, List.take_of_length_le hle, Nat.min_eq_left hle]

/-- The search of a table for an array. -/
theorem search_eq (hf : ∀ b, f b = 0 ↔ b = 0) {array : List UInt8}
    (hlength : ∀ e ∈ table, e.1.length < array.length) :
    search f table array =
      some ((table.find? fun e => e.1.map f ++ [0] <+: array.map f).map (·.2)) := by
  induction table with
  | nil => rfl
  | cons e table ih =>
    obtain ⟨name, b⟩ := e
    have hname : name.length < array.length := hlength _ (List.mem_cons_self ..)
    rw [search, strEq_eq hf hname, ih fun e he => hlength e (List.mem_cons_of_mem _ he)]
    by_cases hstarts : name.map f ++ [0] <+: array.map f
    · simp [hstarts]
    · simp [hstarts]

/-- **A name is recognised** exactly if it is a known one. -/
theorem search_name (hf : ∀ b, f b = 0 ↔ b = 0) (hfits : Fits maxLen f table) (hsize : maxLen ≤ size)
    {name : List UInt8} (hzero : ∀ e ∈ table, ¬ e.1.map f ++ [0] <+: name.map f)
    (hcapitals : ∀ e ∈ table, e.1.map f = name.map f → e.1 = name) :
    search f table
        (name.take maxLen ++ List.replicate (maxLen - name.length) 0 ++
          List.replicate (size - maxLen) 0) =
      some (lookup table name) := by
  rw [List.append_assoc, List.replicate_append_replicate, search_eq hf]
  · rw [lookup]
    congr 2
    refine List.find?_congr fun e he => ?_
    rw [List.map_append, List.map_take, List.map_replicate, (hf 0).mpr rfl, decide_eq_decide,
      terminated_prefix_iff (hfits.zero e he) (by rw [List.length_map]; exact hfits.length e he)
        (by rw [List.length_map]; omega)]
    refine ⟨fun h => hcapitals e he (h.resolve_right (hzero e he)), fun h => .inl (by rw [h])⟩
  · intro e he
    have := hfits.length e he
    rw [List.length_append, List.length_take, List.length_replicate]
    omega

/-- **The walk** sees the names, if each but the last is copied as a whole. -/
theorem parseNames_eq (hf : ∀ b, f b = 0 ↔ b = 0) (hfits : Fits maxLen f table)
    (hsize : maxLen ≤ size) (add : σ → β → σ) :
    ∀ {names : List (List UInt8)} {p : ℕ} {s : σ},
      load m p (names.flatMap pascal).length = names.flatMap pascal →
        (∀ name ∈ names, name.length < 256) → (∀ name ∈ names.dropLast, name.length ≤ maxLen) →
          (∀ name ∈ names, ∀ e ∈ table, ¬ e.1.map f ++ [0] <+: name.map f) →
            (∀ name ∈ names, ∀ e ∈ table, e.1.map f = name.map f → e.1 = name) →
              parseNames maxLen size f table add m names.length p s =
                some ((names.filterMap (lookup table)).foldl add s)
  | [], _, _, _, _, _, _, _ => rfl
  | name :: names, p, s, hload, hlengths, hshort, hzero, hcapitals => by
    rw [List.flatMap_cons, List.length_append, load_add] at hload
    obtain ⟨hname, hrest⟩ := List.append_inj hload (length_load _ _ _)
    have hmem : name ∈ name :: names := List.mem_cons_self ..
    have hin : ∀ n ∈ names, n ∈ name :: names := fun n hn => List.mem_cons_of_mem _ hn
    rw [List.length_cons, parseNames, copyFromPascal_eq (hlengths name hmem) hname]
    simp only [search_name hf hfits hsize (hzero name hmem) (hcapitals name hmem)]
    have hstep : ∀ s' : σ,
        parseNames maxLen size f table add m names.length (p + (min name.length maxLen + 1)) s' =
          some ((names.filterMap (lookup table)).foldl add s') := by
      intro s'
      cases hnames : names with
      | nil => rfl
      | cons next rest =>
        rw [← hnames]
        have hne : names ≠ [] := by rw [hnames]; exact List.cons_ne_nil _ _
        rw [List.dropLast_cons_of_ne_nil hne] at hshort
        have hle : name.length ≤ maxLen := hshort name (List.mem_cons_self ..)
        rw [Nat.min_eq_left hle]
        exact parseNames_eq hf hfits hsize add hrest (fun n hn => hlengths n (hin n hn))
          (fun n hn => hshort n (List.mem_cons_of_mem _ hn)) (fun n hn => hzero n (hin n hn))
          (fun n hn => hcapitals n (hin n hn))
    cases hfound : lookup table name with
    | none => simpa [List.filterMap_cons, hfound] using hstep s
    | some b => simpa [List.filterMap_cons, hfound] using hstep (add s b)

/-- A list of names in memory, of which at most `count` are read. -/
theorem parseNames_encode (hf : ∀ b, f b = 0 ↔ b = 0) (hfits : Fits maxLen f table)
    (hsize : maxLen ≤ size) (add : σ → β → σ) {names : List (List UInt8)} {count : ℕ} {s : σ}
    (h : At m p names) (hsound : Sound count maxLen f table names) :
    parseNames maxLen size f table add m (min (m p).toNat count) (p + 1) s =
      some (((names.take count).filterMap (lookup table)).foldl add s) := by
  have hbytes := h.bytes
  rw [encode, List.length_cons, Nat.add_comm, load_add] at hbytes
  obtain ⟨hhead, htail⟩ : m p = UInt8.ofNat names.length ∧
      load m (p + 1) (names.flatMap pascal).length = names.flatMap pascal := List.cons.inj hbytes
  have hcount : min (m p).toNat count = (names.take count).length := by
    rw [hhead, UInt8.toNat_ofNat_of_lt' h.count, List.length_take, Nat.min_comm]
  have hin : ∀ name ∈ names.take count, name ∈ names := fun _ => List.mem_of_mem_take
  rw [hcount]
  refine parseNames_eq hf hfits hsize add ?_ (fun name hname => h.lengths name (hin name hname))
    hsound.short hsound.zero hsound.capitals
  -- what is read is the start of what is there
  rw [← List.take_append_drop count names, List.flatMap_append, List.length_append, load_add] at htail
  exact (List.append_inj htail (length_load _ _ _)).1

end

/-! ## The two lists -/

theorem id_eq_zero_iff : ∀ b : UInt8, id b = 0 ↔ b = 0 := fun _ => Iff.rfl

theorem toLower_eq_zero_iff (b : UInt8) : toLower b = 0 ↔ b = 0 := by
  rw [toLower]
  split
  · next h =>
    rw [UInt8.le_iff_toNat_le, UInt8.le_iff_toNat_le] at h
    constructor
    · intro h0
      have := congrArg UInt8.toNat h0
      rw [UInt8.toNat_add] at this
      simp at this h
      omega
    · rintro rfl
      simp at h
  · exact Iff.rfl

theorem fits_afpVersions : Fits 33 id afpVersions := ⟨by decide, by decide⟩

theorem fits_afpStrings : Fits afpUamLength toLower afpStrings := ⟨by decide, by decide⟩

section

variable {m : ℕ → UInt8} {p : ℕ} {names : List (List UInt8)}

theorem dsiParseVersions_eq (h : At m p names)
    (hsound : Sound serverMaxVersions 33 id afpVersions names) :
    dsiParseVersions m p = some (expectedVersions names) := by
  rw [dsiParseVersions,
    parseNames_encode id_eq_zero_iff fits_afpVersions le_rfl (fun l number => l ++ [number]) h hsound]
  have hfold : ∀ (l s : List UInt8), l.foldl (fun l number => l ++ [number]) s = s ++ l := by
    intro l
    induction l with
    | nil => exact fun s => (List.append_nil s).symm
    | cons b l ih =>
      intro s
      rw [List.foldl_cons, ih, List.append_assoc, List.singleton_append]
  rw [hfold, List.nil_append]
  rfl

theorem dsiParseUams_eq (h : At m p names)
    (hsound : Sound serverMaxUams afpUamLength toLower afpStrings names) :
    dsiParseUams m p = some (expectedUams names) :=
  parseNames_encode toLower_eq_zero_iff fits_afpStrings (Nat.le_succ _) _ h hsound

end

/-! ## The choice -/

section

variable {requested : UInt8} {offered : List UInt8} {zeros : ℕ}

/-- The highest of some versions, as the loop computes it. -/
def highestOf (offered : List UInt8) (highest : Int8) : Int8 :=
  offered.foldl (fun highest v => if v.toInt8 < highest then highest else v.toInt8) highest

/-- The loop finds the requested version. -/
theorem pickLoop_of_mem (hoffered : ∀ v ∈ offered, v ≠ 0) (hmem : requested ∈ offered) :
    ∀ versionNum highest : Int8, ∃ highest',
      pickLoop requested (offered ++ List.replicate zeros 0) versionNum highest =
        ⟨requested.toInt8, highest', true, true⟩ := by
  induction offered with
  | nil => cases hmem
  | cons v offered ih =>
    intro versionNum highest
    rw [List.cons_append, pickLoop, if_neg (hoffered v (List.mem_cons_self ..))]
    by_cases hv : v = requested
    · subst hv
      exact ⟨_, if_pos rfl⟩
    · simp only [if_neg hv]
      exact ih (fun w hw => hoffered w (List.mem_cons_of_mem _ hw))
        ((List.mem_cons.mp hmem).resolve_left (Ne.symm hv)) _ _

/-- The loop ends at the first zero, or behind the array if there is none. -/
theorem pickLoop_of_not_mem (hoffered : ∀ v ∈ offered, v ≠ 0) (hmem : requested ∉ offered) :
    ∀ versionNum highest : Int8, ∃ versionNum',
      pickLoop requested (offered ++ List.replicate zeros 0) versionNum highest =
        ⟨versionNum', highestOf offered highest, false, decide (zeros ≠ 0)⟩ := by
  induction offered with
  | nil =>
    intro versionNum highest
    cases zeros with
    | zero => exact ⟨versionNum, rfl⟩
    | succ n => exact ⟨versionNum, by rw [List.nil_append, List.replicate_succ, pickLoop]; rfl⟩
  | cons v offered ih =>
    intro versionNum highest
    rw [List.cons_append, pickLoop, if_neg (hoffered v (List.mem_cons_self ..))]
    simp only [if_neg fun h : v = requested => hmem (h ▸ List.mem_cons_self ..)]
    exact ih (fun w hw => hoffered w (List.mem_cons_of_mem _ hw))
      (fun h => hmem (List.mem_cons_of_mem _ h)) _ _

/-- The numbers of the known versions. -/
def versionNumbers : List UInt8 := afpVersions.map (·.2)

theorem ne_zero_of_mem_versionNumbers : ∀ v ∈ versionNumbers, v ≠ 0 :=
  List.forall_iff_forall_mem.mp (by decide)

/-- The numbers compare as signed characters as they do as unsigned ones. -/
theorem toInt8_lt_iff : ∀ v ∈ 0 :: versionNumbers, ∀ w ∈ 0 :: versionNumbers,
    v.toInt8 < w.toInt8 ↔ v < w := by
  have h : List.Forall (fun v => List.Forall (fun w : UInt8 => v.toInt8 < w.toInt8 ↔ v < w)
      (0 :: versionNumbers)) (0 :: versionNumbers) := by decide
  exact fun v hv => List.forall_iff_forall_mem.mp (List.forall_iff_forall_mem.mp h v hv)

/-- A known number has an element of the table. -/
theorem find?_of_mem_versionNumbers : ∀ v ∈ versionNumbers, ∃ e ∈ afpVersions,
    (afpVersions.find? fun p => (p.2.toNat : ℤ) = v.toInt8.toInt) = some e ∧ e.2 = v :=
  List.forall_iff_forall_mem.mp (by decide)

theorem find?_zero :
    (afpVersions.find? fun p => (p.2.toNat : ℤ) = (0 : Int8).toInt) = none := by decide

theorem mem_versionNumbers_of_lookup {name : List UInt8} {v : UInt8}
    (h : lookup afpVersions name = some v) : v ∈ versionNumbers := by
  rw [lookup, Option.map_eq_some_iff] at h
  obtain ⟨e, he, rfl⟩ := h
  exact List.mem_map_of_mem (List.mem_of_find?_eq_some he)

/-- What `highestOf` computes is the highest of the versions. -/
theorem highestOf_eq (hoffered : ∀ v ∈ offered, v ∈ versionNumbers) :
    ∀ a ∈ 0 :: versionNumbers, ∃ v ∈ a :: offered,
      highestOf offered a.toInt8 = v.toInt8 ∧ ∀ w ∈ a :: offered, w ≤ v := by
  induction offered with
  | nil =>
    exact fun a _ => ⟨a, List.mem_singleton_self a, rfl, fun w hw =>
      List.mem_singleton.mp hw ▸ UInt8.le_refl w⟩
  | cons b offered ih =>
    intro a ha
    have hb : b ∈ 0 :: versionNumbers :=
      List.mem_cons_of_mem _ (hoffered b (List.mem_cons_self ..))
    have ih' := ih fun v hv => hoffered v (List.mem_cons_of_mem _ hv)
    show ∃ v ∈ a :: b :: offered,
      highestOf offered (if b.toInt8 < a.toInt8 then a.toInt8 else b.toInt8) = v.toInt8 ∧ _
    by_cases hlt : b < a
    · rw [if_pos ((toInt8_lt_iff b hb a ha).mpr hlt)]
      obtain ⟨v, hv, hhighest, hle⟩ := ih' a ha
      refine ⟨v, ?_, hhighest, ?_⟩
      · exact (List.mem_cons.mp hv).elim (fun h => h ▸ List.mem_cons_self ..) fun h =>
          List.mem_cons_of_mem _ (List.mem_cons_of_mem _ h)
      · simp only [List.mem_cons, forall_eq_or_imp] at hle ⊢
        exact ⟨hle.1, UInt8.le_trans (UInt8.le_of_lt hlt) hle.1, hle.2⟩
    · rw [if_neg (mt (toInt8_lt_iff b hb a ha).mp hlt)]
      obtain ⟨v, hv, hhighest, hle⟩ := ih' b hb
      refine ⟨v, List.mem_cons_of_mem _ hv, hhighest, ?_⟩
      simp only [List.mem_cons, forall_eq_or_imp] at hle ⊢
      exact ⟨UInt8.le_trans (UInt8.not_lt.mp hlt) hle.1, hle.1, hle.2⟩

/-- **The choice** from an array of known versions and zeros: as expected, and read behind the
array if there is no zero and the requested version is not there. -/
theorem pickVersion_eq (hoffered : ∀ v ∈ offered, v ∈ versionNumbers) :
    Chosen offered requested (pickVersion (offered ++ List.replicate zeros 0) requested).1 ∧
      ((pickVersion (offered ++ List.replicate zeros 0) requested).2 = true ↔
        ¬ (zeros = 0 ∧ limit requested ∉ offered)) := by
  have hzero : ∀ v ∈ offered, v ≠ 0 := fun v hv => ne_zero_of_mem_versionNumbers v (hoffered v hv)
  rw [pickVersion]
  by_cases hmem : limit requested ∈ offered
  · obtain ⟨highest, hloop⟩ := @pickLoop_of_mem _ _ zeros hzero hmem 0 0
    rw [hloop]
    obtain ⟨e, he, hfind, hnum⟩ := find?_of_mem_versionNumbers _ (hoffered _ hmem)
    refine ⟨⟨fun _ => ⟨e, he, hfind, hnum⟩, fun h => absurd hmem h, ?_⟩, by simp [hmem]⟩
    rintro rfl
    cases hmem
  · obtain ⟨versionNum, hloop⟩ := @pickLoop_of_not_mem _ _ zeros hzero hmem 0 0
    rw [hloop]
    obtain ⟨v, hv, hhighest, hle⟩ := highestOf_eq hoffered 0 (List.mem_cons_self ..)
    have hhighest' : highestOf offered 0 = v.toInt8 := hhighest
    refine ⟨⟨fun h => absurd h hmem, fun _ hne => ?_, ?_⟩, by simp [hmem]⟩
    · have hmemv : v ∈ offered := by
        refine (List.mem_cons.mp hv).resolve_left fun h0 => ?_
        obtain ⟨w, hw⟩ := List.exists_mem_of_ne_nil offered hne
        have hw0 : w ≤ 0 := h0 ▸ hle w (List.mem_cons_of_mem _ hw)
        exact hzero w hw (UInt8.le_zero_iff.mp hw0)
      obtain ⟨e, he, hfind, hnum⟩ := find?_of_mem_versionNumbers v (hoffered v hmemv)
      refine ⟨e, he, ?_, hnum ▸ hmemv, fun w hw => hnum ▸ hle w (List.mem_cons_of_mem _ hw)⟩
      simp only [hhighest']
      exact hfind
    · rintro rfl
      exact find?_zero

theorem mem_versionNumbers_of_offered {names : List (List UInt8)} :
    ∀ v ∈ offeredVersions names, v ∈ versionNumbers := by
  intro v hv
  obtain ⟨name, _, hlookup⟩ := List.mem_filterMap.mp hv
  exact mem_versionNumbers_of_lookup hlookup

theorem length_offeredVersions_le (names : List (List UInt8)) :
    (offeredVersions names).length ≤ serverMaxVersions :=
  (List.length_filterMap_le _ _).trans (List.length_take_le _ _)

end

/-- **Versions and UAMs.**  For every reply to GetStatus with its two lists, if each name but the
last one that is read is no longer than what is copied, and none begins with a known name and a
zero byte or differs from a known one in capitals only, the versions and methods are those of the
names, and `pick_version()` decides as expected for every requested version; it does not read
behind the array exactly if the array is not full or has the requested version. -/
theorem negotiation {data : ℕ → UInt8} {dataRead : ℕ} {basic : Basic}
    {versionNames uamNames : List (List UInt8)} (hread : 34 ≤ dataRead)
    (hversions : At data (ntohs data 2) versionNames) (huams : At data (ntohs data 4) uamNames)
    (hversionNames : Sound serverMaxVersions 33 id afpVersions versionNames)
    (huamNames : Sound serverMaxUams afpUamLength toLower afpStrings uamNames) :
    dsiGetstatusReply data dataRead basic =
        some ⟨expectedVersions versionNames, expectedUams uamNames⟩ ∧
      ∀ requested,
        Chosen (offeredVersions versionNames) requested
            (pickVersion (expectedVersions versionNames) requested).1 ∧
          ((pickVersion (expectedVersions versionNames) requested).2 = true ↔
            ¬ ((offeredVersions versionNames).length = serverMaxVersions ∧
              limit requested ∉ offeredVersions versionNames)) := by
  constructor
  · rw [dsiGetstatusReply, if_neg (Nat.not_lt.mpr hread), dsiParseVersions_eq hversions hversionNames,
      dsiParseUams_eq huams huamNames]
    rfl
  · intro requested
    obtain ⟨hchosen, hinside⟩ := @pickVersion_eq requested _
      (serverMaxVersions - (offeredVersions versionNames).length)
      (@mem_versionNumbers_of_offered versionNames)
    refine ⟨hchosen, hinside.trans (not_congr (and_congr_left fun _ => ?_))⟩
    have := length_offeredVersions_le versionNames
    omega

/-- The names of two versions and of two methods. -/
def offered : List (List UInt8) × List (List UInt8) :=
  ([asciiBytes ['A', 'F', 'P', '2', '.', '2'], asciiBytes ['A', 'F', 'P', '3', '.', '1']],
    [asciiBytes ['D', 'H', 'X', '2'],
      asciiBytes ['C', 'l', 'e', 'a', 'r', 't', 'x', 't', ' ', 'P', 'a', 's', 's', 'w', 'r', 'd']])

/-- A reply that offers them. -/
def shortReply : List UInt8 :=
  [0, 0, 0, 10, 0, 25, 0, 0, 0, 0] ++ encode offered.1 ++ encode offered.2

/-- The version is the second one, which is the higher. -/
theorem negotiation_of_shortReply :
    dsiGetstatusReply (fun i => shortReply.getD i 0) 64 ⟨[], 0⟩ =
        some ⟨[22, 31, 0, 0, 0, 0, 0, 0, 0, 0], 0x42⟩ ∧
      Chosen [22, 31] 32 (pickVersion [22, 31, 0, 0, 0, 0, 0, 0, 0, 0] 32).1 := by
  have h := @negotiation (fun i => shortReply.getD i 0) 64 ⟨[], 0⟩ offered.1 offered.2 (by decide)
    ⟨by decide, by decide, by decide⟩ ⟨by decide, by decide, by decide⟩
    ⟨by decide, by decide, by decide⟩ ⟨by decide, by decide, by decide⟩
  exact ⟨h.1, (h.2 32).1⟩

/-- A reply that offers "AFP3.1" ten times, and no method. -/
def fullReply : List UInt8 :=
  [0, 0, 0, 10, 0, 81, 0, 0, 0, 0, 10] ++
    (List.replicate 10 [6, 65, 70, 80, 51, 46, 49]).flatten ++ [0]

/-- **The condition is needed.**  With ten known versions and a requested one that is not among
them, `pick_version()` reads behind the array. -/
theorem ten_versions_read_behind :
    ¬ ∀ (data : ℕ → UInt8) (dataRead : ℕ) (basic : Basic)
        (versionNames uamNames : List (List UInt8)), 34 ≤ dataRead →
      At data (ntohs data 2) versionNames → At data (ntohs data 4) uamNames →
        ∃ b, dsiGetstatusReply data dataRead basic = some b ∧
          b.versions = expectedVersions versionNames ∧
            b.supportedUams = expectedUams uamNames ∧
              ∀ requested, Chosen (offeredVersions versionNames) requested
                (pickVersion b.versions requested).1 ∧ (pickVersion b.versions requested).2 = true := by
  intro h
  obtain ⟨b, _, hversions, _, hpick⟩ := h (fun i => fullReply.getD i 0) 120 ⟨[], 0⟩
    (List.replicate 10 [65, 70, 80, 51, 46, 49]) [] (by decide) ⟨by decide, by decide, by decide⟩
    ⟨by decide, by decide, by decide⟩
  have hinside := (hpick 0).2
  rw [hversions] at hinside
  exact absurd hinside (by decide)

end Negotiation
end Server
end Afpfs
