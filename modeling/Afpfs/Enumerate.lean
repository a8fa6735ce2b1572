import Afpfs.Create
import Afpfs.PathResolution

/-!
# Listing a whole directory

`ll_readdir()` asks for the entries of a directory in batches.  A request has the index of the first
entry that is wanted, and the server answers with as many as it likes, one at least and twenty at
most, or with `kFPObjectNotFound` if there are none left.

The index is counted in an `unsigned long`, and sent in 16 bits to a server for AFP 2 and in 32 bits
to others.

* `yields_readdirLoop`: the loop collects the entries in order, as long as the index fits.
* `complete_iff`: a directory is listed completely exactly if it does.
* `long_directory_fails`: a directory with 65535 entries on a server for AFP 2.
-/

set_option autoImplicit false

namespace Afpfs
namespace Enumerate

open Unicode Codepage Interaction Scan Translate PathResolution

/-! ## The server -/

/-- The events of a trace. -/
abbrev Event := (e : Effect) × e.Answer

/-- The reply for a directory with some entries to a request for those from the `s`-th on.  There
is no entry 0, and what is answered to a request for it is not known. -/
structure Answers (entries : List AfpFileInfo) (s : ℕ) (reply : Reply (List AfpFileInfo)) :
    Prop where
  more : 1 ≤ s → s ≤ entries.length → reply.rc = 0 ∧
    ∃ count, 1 ≤ count ∧ count ≤ 20 ∧ reply.stored = some ((entries.drop (s - 1)).take count)
  none : entries.length < s → reply.rc = kFPObjectNotFound ∧ reply.stored = none

/-- The answers of a server to requests for the entries of a directory.  The `startindex` of
`afp_enumerateext2()` is an `unsigned long`, of which `htonl()` sends 32 bits.  All else the server
answers as it likes. -/
def Serves (entries : List AfpFileInfo) : Event → Prop
  | ⟨.request (.enumerate _ _ _ _ startindex _), reply⟩ => Answers entries startindex.toNat reply
  | ⟨.request (.enumerateExt2 _ _ _ _ startindex _), reply⟩ =>
    Answers entries (startindex.toNat % 4294967296) reply
  | _ => True

/-- The indices that can be sent are below it. -/
def indexModulus (vol : Volume) : ℕ := if vol.server.avNumber < 30 then 65536 else 4294967296

theorem one_le_indexModulus (vol : Volume) : 1 ≤ indexModulus vol := by
  rw [indexModulus]
  split <;> decide

/-- What becomes of an entry. -/
def present (vol : Volume) (p : AfpFileInfo) : Option AfpFileInfo := do
  let (_, name) ← convertPathToUnix vol.server.pathEncoding p.name AFP_MAX_PATH
  let p := { p with name := name }
  return if vol.server.avNumber < 30 then p.setPermissions (setNonunixPerms p) else p

/-- The directory is listed: exactly its entries, each once and in order. -/
def Listed (vol : Volume) (entries : List AfpFileInfo) (res : ℤ × Option (List AfpFileInfo)) :
    Prop :=
  ∃ list, res = (0, some list) ∧ List.Forall₂ (fun e p => present vol e = some p) entries list

/-- Whatever batches the server makes, the directory is listed after no more requests than it has
entries, and one. -/
def Complete (vol : Volume) (path : CString) (resource : Bool) (entries : List AfpFileInfo) : Prop :=
  ∀ fuel, entries.length < fuel →
    Prog.Yields (Serves entries) (Listed vol entries) (llReaddir vol path resource fuel)

/-! ## The server can answer -/

theorem exists_answers (entries : List AfpFileInfo) (s : ℕ) : ∃ reply, Answers entries s reply := by
  by_cases hs : s ≤ entries.length
  · refine ⟨⟨0, some ((entries.drop (s - 1)).take 1)⟩, fun _ _ => ⟨rfl, 1, ?_⟩, fun h => ?_⟩
    · exact ⟨le_rfl, by decide, rfl⟩
    · omega
  · exact ⟨⟨kFPObjectNotFound, none⟩, fun _ h => absurd h hs, fun _ => ⟨rfl, rfl⟩⟩

theorem exists_serves (entries : List AfpFileInfo) (e : Effect) : ∃ r, Serves entries ⟨e, r⟩ := by
  cases e with
  | request r =>
    cases r with
    | enumerate dirid filebitmap dirbitmap reqcount startindex pathname =>
      exact exists_answers entries startindex.toNat
    | enumerateExt2 dirid filebitmap dirbitmap reqcount startindex pathname =>
      exact exists_answers entries (startindex.toNat % 4294967296)
    | _ => exact ⟨⟨-1, none⟩, trivial⟩
  | _ => exact ⟨Effect.zeroAnswer _, trivial⟩

/-! ## The loop -/

section Loop

variable {vol : Volume} {entries : List AfpFileInfo} {α β : Type} {Q : β → Prop}

/-- The index of a request for more entries is cut to the width of its field. -/
theorem yields_bind_enumerateRequest {dirid : UInt32} {filebitmap dirbitmap startindex : ℕ}
    {basename : CString} {f : Reply (List AfpFileInfo) → AfpM β} :
    Prog.Yields (Serves entries) Q
        (enumerateRequest vol dirid filebitmap dirbitmap startindex basename >>= f) ↔
      ∀ reply, Answers entries (startindex % indexModulus vol) reply →
        Prog.Yields (Serves entries) Q (f reply) := by
  rw [enumerateRequest, indexModulus]
  by_cases hold : vol.server.avNumber < 30
  · rw [if_pos hold, if_pos hold]
    exact Iff.rfl
  · have hwidth : startindex % 18446744073709551616 % 4294967296 = startindex % 4294967296 :=
      Nat.mod_mod_of_dvd startindex (by decide)
    rw [if_neg hold, if_neg hold, ← hwidth]
    exact Iff.rfl

/-- **The loop collects the entries**, the first `k` of which it has, in whatever batches they
come. -/
theorem yields_readdirLoop (hindex : entries.length + 1 < indexModulus vol) (dirid : UInt32)
    (filebitmap dirbitmap : ℕ) (basename : CString) (fuel k : ℕ)
    (hfuel : entries.length < fuel + k) (hk : k ≤ entries.length) :
    Prog.Yields (Serves entries) (fun res => res = (0, entries))
      (readdirLoop vol dirid filebitmap dirbitmap basename fuel (k + 1) (entries.take k)) := by
  induction fuel generalizing k with
  | zero => omega
  | succ fuel ih =>
    refine yields_bind_enumerateRequest.mpr fun reply hreply => ?_
    rw [Nat.mod_eq_of_lt (by omega)] at hreply
    by_cases hlast : k = entries.length
    · -- there are none left
      obtain ⟨hrc, hstored⟩ := hreply.none (by omega)
      simp only [hrc, hstored, Option.getD_none, List.append_nil]
      rw [if_neg (by decide), if_neg (by decide), if_pos trivial]
      rw [hlast, List.take_length]
      rfl
    · obtain ⟨hrc, count, hone, -, hstored⟩ := hreply.more (by omega) (by omega)
      rw [Nat.add_sub_cancel] at hstored
      simp only [hrc, hstored, Option.getD_some]
      rw [if_neg (by decide), if_pos trivial]
      let m := ((entries.drop k).take count).length
      have hm : m = min count (entries.length - k) := by
        rw [← List.length_drop, ← List.length_take]
      have htake : entries.take k ++ (entries.drop k).take count = entries.take (k + m) := by
        rw [List.take_add, hm, ← List.length_drop, ← List.take_eq_take_min]
      rw [htake, show k + 1 + m = k + m + 1 by omega]
      exact ih (k + m) (by omega) (by omega)

/-- **The index wraps.**  A server that gives one entry at a time gets a request for entry 0. -/
theorem not_yields_readdirLoop (hindex : indexModulus vol ≤ entries.length + 1) (dirid : UInt32)
    (filebitmap dirbitmap : ℕ) (basename : CString) (fuel k : ℕ) (hk : k + 1 ≤ indexModulus vol)
    (filebase : List AfpFileInfo) :
    ¬ Prog.Yields (Serves entries) (fun res => res.1 = 0)
      (readdirLoop vol dirid filebitmap dirbitmap basename fuel (k + 1) filebase) := by
  induction fuel generalizing k filebase with
  | zero => exact Prog.yields_stuck
  | succ fuel ih =>
    intro h
    by_cases hlast : k + 1 = indexModulus vol
    · -- there is no entry 0, and the server says so
      have hrefused := yields_bind_enumerateRequest.mp h ⟨kFPParamErr, none⟩ (by
        rw [hlast, Nat.mod_self]
        exact ⟨fun h => absurd h (by decide), fun h => absurd h (Nat.not_lt_zero _)⟩)
      rw [if_neg (by decide), if_neg (by decide), if_neg (by decide), if_neg (by decide),
        if_neg (by decide), if_pos (by decide)] at hrefused
      exact absurd hrefused (by decide : ¬ EIO = 0)
    · have hone := yields_bind_enumerateRequest.mp h ⟨0, some ((entries.drop k).take 1)⟩ (by
        rw [Nat.mod_eq_of_lt (by omega)]
        exact ⟨fun _ _ => ⟨rfl, 1, le_rfl, by decide, rfl⟩, fun h => by omega⟩)
      have hlength : ((entries.drop k).take 1).length = 1 := by
        rw [List.length_take, List.length_drop]
        omega
      simp only [Option.getD_some, hlength] at hone
      rw [if_neg (by decide), if_pos trivial] at hone
      exact ih (k + 1) (by omega) _ hone

end Loop

/-! ## Names and permissions -/

section Present

variable {γ δ : Type} {g : γ → Option δ}

theorem forall₂_of_mapM {l : List γ} {l' : List δ} (h : l.mapM g = some l') :
    List.Forall₂ (fun a b => g a = some b) l l' := by
  induction l generalizing l' with
  | nil =>
    obtain rfl : [] = l' := Option.some.inj h
    exact .nil
  | cons a l ih =>
    rw [List.mapM_cons] at h
    obtain ⟨b, hb, h⟩ := Option.bind_eq_some_iff.mp h
    obtain ⟨bs, hbs, h⟩ := Option.bind_eq_some_iff.mp h
    obtain rfl : b :: bs = l' := Option.some.inj h
    exact .cons hb (ih hbs)

theorem exists_mapM_iff {l : List γ} : (∃ l', l.mapM g = some l') ↔ ∀ a ∈ l, (g a).isSome := by
  induction l with
  | nil => exact iff_of_true ⟨[], rfl⟩ (List.forall_mem_nil _)
  | cons a l ih =>
    rw [List.forall_mem_cons, ← ih]
    constructor
    · rintro ⟨l', h⟩
      rw [List.mapM_cons] at h
      obtain ⟨b, hb, h⟩ := Option.bind_eq_some_iff.mp h
      obtain ⟨bs, hbs, -⟩ := Option.bind_eq_some_iff.mp h
      exact ⟨Option.isSome_iff_exists.mpr ⟨b, hb⟩, bs, hbs⟩
    · rintro ⟨ha, bs, hbs⟩
      obtain ⟨b, hb⟩ := Option.isSome_iff_exists.mp ha
      exact ⟨b :: bs, by rw [List.mapM_cons, hb, hbs]; rfl⟩

/-- An entry with its name converted. -/
def converted (vol : Volume) (p : AfpFileInfo) : Option AfpFileInfo := do
  let (_, name) ← convertPathToUnix vol.server.pathEncoding p.name AFP_MAX_PATH
  return { p with name := name }

/-- An entry with the permissions of `set_nonunix_perms()`, if the server has none. -/
def withPerms (vol : Volume) (p : AfpFileInfo) : AfpFileInfo :=
  if vol.server.avNumber < 30 then p.setPermissions (setNonunixPerms p) else p

theorem present_eq (vol : Volume) (p : AfpFileInfo) :
    present vol p = (converted vol p).map (withPerms vol) := by
  rw [present, converted]
  cases convertPathToUnix vol.server.pathEncoding p.name AFP_MAX_PATH <;> rfl

end Present

/-! ## The listing -/

section Listing

variable {vol : Volume} {entries : List AfpFileInfo}

/-- The end of `ll_readdir()`, with a list of entries. -/
def finish (vol : Volume) (filebase : List AfpFileInfo) : AfpM (ℤ × Option (List AfpFileInfo)) := do
  let old : Bool := vol.server.avNumber < 30
  let filebase ← ofOption (filebase.mapM (converted vol))
  let filebase :=
    if old then filebase.map fun p => p.setPermissions (setNonunixPerms p) else filebase
  return (0, some filebase)

/-- `ll_readdir()` as a directory that is found, the loop and the end. -/
theorem llReaddir_eq {path : CString} (resource : Bool)
    (hvalid : invalidFilename vol.server path = false) :
    ∃ filebitmap dirbitmap, ∀ fuel, llReaddir vol path resource fuel =
      resolve path >>= fun found =>
        if found.1 < 0 then pure (-ENOENT, none)
        else readdirLoop vol found.2.2 filebitmap dirbitmap found.2.1 fuel 1 [] >>= fun loop =>
          if loop.1 ≠ 0 then pure (-loop.1, none) else finish vol loop.2 := by
  simp only [llReaddir, hvalid, Bool.false_eq_true, if_false]
  exact ⟨_, _, fun fuel => rfl⟩

theorem yields_finish {ok : Event → Prop} :
    Prog.Yields ok (Listed vol entries) (finish vol entries) ↔
      ∀ e ∈ entries, (present vol e).isSome := by
  have hsome : (∀ e ∈ entries, (present vol e).isSome) ↔
      ∃ list, entries.mapM (converted vol) = some list := by
    simp only [exists_mapM_iff, present_eq, Option.isSome_map]
  rw [hsome, finish]
  cases hmap : entries.mapM (converted vol) with
  | none => exact iff_of_false Prog.yields_stuck fun ⟨list, h⟩ => by cases h
  | some list =>
    refine iff_of_true ⟨_, rfl, ?_⟩ ⟨list, rfl⟩
    have hconverted := forall₂_of_mapM hmap
    simp only [decide_eq_true_iff]
    by_cases hold : vol.server.avNumber < 30
    · rw [if_pos hold, List.forall₂_map_right_iff]
      refine hconverted.imp fun e p h => ?_
      rw [present_eq, h, Option.map_some, withPerms, if_pos hold]
    · rw [if_neg hold]
      refine hconverted.imp fun e p h => ?_
      rw [present_eq, h, Option.map_some, withPerms, if_neg hold]

variable {path : CString} {resource : Bool}

/-- What a complete listing has after the directory was found. -/
theorem Complete.exists_loop (hpath : path.head? = some slash) (hfits : Fits path)
    (hvalid : invalidFilename vol.server path = false) (h : Complete vol path resource entries) :
    ∃ filebitmap dirbitmap basename dirid, Prog.Yields (Serves entries) (Listed vol entries)
      (readdirLoop vol dirid filebitmap dirbitmap basename (entries.length + 1) 1 [] >>= fun loop =>
        if loop.1 ≠ 0 then pure (-loop.1, none) else finish vol loop.2) := by
  obtain ⟨filebitmap, dirbitmap, heq⟩ := llReaddir_eq resource hvalid
  have hlisted := h (entries.length + 1) (Nat.lt_succ_self _)
  rw [heq] at hlisted
  obtain ⟨⟨ret, basename, dirid⟩, hret, hlisted⟩ :=
    hlisted.of_bind (yields_resolve hpath hfits) (exists_serves entries)
  obtain rfl : ret = 0 := hret
  exact ⟨filebitmap, dirbitmap, basename, dirid, hlisted⟩

theorem Complete.index_lt (hpath : path.head? = some slash) (hfits : Fits path)
    (hvalid : invalidFilename vol.server path = false) (h : Complete vol path resource entries) :
    entries.length + 1 < indexModulus vol := by
  obtain ⟨filebitmap, dirbitmap, basename, dirid, hlisted⟩ := h.exists_loop hpath hfits hvalid
  by_contra hindex
  -- only a loop without an error can list the directory
  refine absurd ((Prog.yields_bind.mp hlisted).mono fun loop hloop => ?_)
    (not_yields_readdirLoop (Nat.le_of_not_lt hindex) dirid _ _ basename _ 0
      (one_le_indexModulus vol) [])
  by_contra hne
  rw [if_pos hne] at hloop
  obtain ⟨list, hres, -⟩ := hloop
  exact absurd (congrArg Prod.snd hres) (by simp)

theorem Complete.isSome_present (hpath : path.head? = some slash) (hfits : Fits path)
    (hvalid : invalidFilename vol.server path = false) (h : Complete vol path resource entries) :
    ∀ e ∈ entries, (present vol e).isSome := by
  have hindex := h.index_lt hpath hfits hvalid
  obtain ⟨filebitmap, dirbitmap, basename, dirid, hlisted⟩ := h.exists_loop hpath hfits hvalid
  obtain ⟨loop, rfl, hfinish⟩ :=
    hlisted.of_bind (yields_readdirLoop hindex dirid _ _ basename _ 0 (Nat.lt_succ_self _)
      (Nat.zero_le _)) (exists_serves entries)
  rw [if_neg (not_not.mpr rfl)] at hfinish
  exact yields_finish.mp hfinish

theorem complete_of_index_lt (hpath : path.head? = some slash) (hfits : Fits path)
    (hvalid : invalidFilename vol.server path = false)
    (hindex : entries.length + 1 < indexModulus vol)
    (hsome : ∀ e ∈ entries, (present vol e).isSome) : Complete vol path resource entries := by
  obtain ⟨filebitmap, dirbitmap, heq⟩ := llReaddir_eq resource hvalid
  intro fuel hfuel
  rw [heq]
  refine (yields_resolve hpath hfits).bind fun ⟨ret, basename, dirid⟩ hret => ?_
  obtain rfl : ret = 0 := hret
  rw [if_neg (lt_irrefl 0)]
  refine (yields_readdirLoop hindex _ _ _ _ _ 0 hfuel (Nat.zero_le _)).bind fun loop hloop => ?_
  subst hloop
  rw [if_neg (not_not.mpr rfl)]
  exact yields_finish.mpr hsome

/-- **A directory is listed completely exactly if the index fits**, and the names can be converted.
The path is absolute and not longer than it can be, as `convert_path_to_afp()` makes it. -/
theorem complete_iff (hpath : path.head? = some slash) (hfits : Fits path)
    (hvalid : invalidFilename vol.server path = false) :
    Complete vol path resource entries ↔
      entries.length + 1 < indexModulus vol ∧ ∀ e ∈ entries, (present vol e).isSome :=
  ⟨fun h => ⟨h.index_lt hpath hfits hvalid, h.isSome_present hpath hfits hvalid⟩,
    fun h => complete_of_index_lt hpath hfits hvalid h.1 h.2⟩

/-- A volume on a server for AFP 2.2, with names in Mac Roman. -/
def classic : Volume :=
  { Volume.plain with
    server := { Volume.plain.server with avNumber := 22, pathEncoding := .kFPLongName } }

/-- A file of a name. -/
def named (name : CString) : AfpFileInfo := { AfpFileInfo.zero with name := name }

theorem fits_root : Fits [slash] := ⟨by decide, by decide⟩

/-- The root with two files. -/
theorem complete_iff_of_root :
    Complete classic [slash] false [named (ascii ['a']), named (ascii ['b'])] :=
  (complete_iff rfl fits_root (by decide)).mpr ⟨by decide, by decide⟩

/-- **A long directory**: the request after its 65535th entry is for entry 0. -/
theorem long_directory_fails :
    ¬ Complete classic [slash] false (List.replicate 65535 (named (ascii ['a']))) := by
  intro h
  have hindex := h.index_lt rfl fits_root (by decide)
  rw [List.length_replicate] at hindex
  exact absurd hindex (by decide)

end Listing

end Enumerate
end Afpfs
