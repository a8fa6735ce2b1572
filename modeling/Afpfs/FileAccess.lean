import Afpfs.FileServer
import Afpfs.Truncate

/-!
# Access by path

What opening, closing and looking up a file comes to on a server of `Afpfs.FileServer`.  The server has
directories that stay as they are and files that may be created; the cache of directory ids answers
what is right or nothing.

* `attains_getDirid`: a path leads to the directory and the name that the tree says.
* `attains_afpMlOpen`: opening gives a reference to the fork of the file, which is created if it is
  not there and the flags ask for it.
* `attains_afpMlClose`: closing gives the reference back.
-/

set_option autoImplicit false

namespace Afpfs
namespace FileServer

open Interaction Unicode Codepage Placement Writing Scan
open PathResolution hiding positions

variable {ι : Type} [DecidableEq ι] {names : Names ι} {s : Server ι} {volume : Volume}

/-! ## Directories -/

/-- **The way back** ends at a prefix of the path whose directory is known. -/
theorem attains_topmostParent (parts : List CString) (hne : parts ≠ [])
    (hsep : Separated slash parts) :
    Prog.Attains (Answers names) (next names)
      (fun s' res => s' = s ∧ ∃ pre mid, parts = pre ++ mid ∧
        res.2 = (joinPath slash pre).length ∧ descend names.tree AFP_ROOT_DID pre = some res.1) s
      (topmostParent (joinPath slash parts)) := by
  induction parts using List.reverseRecOn with
  | nil => exact absurd rfl hne
  | append_singleton parts last ih =>
    have hlast : slash ∉ last := hsep last (by simp)
    have hparts : Separated slash parts := fun part hpart => hsep part (by simp [hpart])
    rw [joinPath_concat]
    have hpos := @strrchr_append _ slash _ (joinPath slash parts) last hlast
    cases hlen : (joinPath slash parts).length with
    | zero =>
      -- only the root is left
      rw [hlen] at hpos
      rw [topmostParent_zero hpos]
      exact ⟨rfl, [], parts ++ [last], rfl, rfl, rfl⟩
    | succ p =>
      rw [hlen] at hpos
      have htake : (joinPath slash parts ++ slash :: last).take (p + 1) = joinPath slash parts := by
        rw [← hlen, List.take_left]
      rw [topmostParent_succ hpos, htake]
      intro (did : UInt32) hdid
      refine Prog.attains_ite (fun hfound => ?_) fun hfound => ?_
      · have hdescend := hdid.resolve_left hfound
        rw [components_joinPath hparts] at hdescend
        exact ⟨rfl, parts, [last], rfl, hlen.symm, hdescend⟩
      · have hne' : parts ≠ [] := fun h => by
          rw [h, joinPath_nil] at hlen
          exact absurd hlen (by simp)
        refine (ih hne' hparts).mono fun s' res h => ?_
        obtain ⟨hs', pre, mid, hsplit, hres⟩ := h
        exact ⟨hs', pre, mid ++ [last], by rw [hsplit, List.append_assoc], hres⟩

/-- A lookup finds what is there, and that is all. -/
theorem attains_afpGetfiledirparms (did : UInt32) (filebitmap dirbitmap : ℕ) (pathname : CString) :
    Prog.Attains (Answers names) (next names)
      (fun s' reply => s' = s ∧ s.Finds names did (requestedName pathname) reply) s
      (afpGetfiledirparms did filebitmap dirbitmap pathname) :=
  fun _ hreply => ⟨rfl, hreply⟩

omit [DecidableEq ι] in
/-- The reply to a lookup of something that is in the tree. -/
theorem Server.Finds.node {did : UInt32} {name : CString} {reply : Reply AfpFileInfo} {node : Node}
    (h : s.Finds names did name reply) (hnode : names.tree did name = .ok node) :
    ∃ fi, reply.stored = some fi ∧ fi.isdir = node.isdir ∧ fi.fileid = node.id := by
  rw [Server.Finds, hnode] at h
  exact h.2

/-- **The way forward** follows the names of directories to the last of them. -/
theorem attains_walkForward (mid : List CString) {pre : List CString} {last : CString}
    (hsep : Separated slash (pre ++ mid ++ [last])) {did d : UInt32}
    (hd : descend names.tree did mid = some d) (fi : AfpFileInfo) :
    Prog.Attains (Answers names) (next names) (fun s' res => s' = s ∧ res = d) s
      (walkForward (joinPath slash (pre ++ mid ++ [last])) did (joinPath slash pre).length fi) := by
  induction mid generalizing pre did fi with
  | nil =>
    have hlast : slash ∉ last := hsep last (by simp)
    have hpos : strchr (joinPath slash (pre ++ [] ++ [last])) ((joinPath slash pre).length + 1)
        slash = none := by
      have h := @strchr_eq_none _ slash _ (joinPath slash pre ++ [slash]) last hlast
      rw [List.length_append, List.length_singleton] at h
      rw [List.append_nil, joinPath_concat, ← h, List.append_assoc, List.singleton_append]
    rw [walkForward_none hpos]
    exact ⟨rfl, Option.some.inj hd⟩
  | cons name mid ih =>
    rw [descend] at hd
    cases hnode : names.tree did name with
    | error e =>
      rw [hnode] at hd
      exact absurd hd (by simp)
    | ok node =>
      rw [hnode] at hd
      simp only at hd
      cases hdir : node.isdir with
      | false =>
        rw [hdir] at hd
        exact absurd hd (by simp)
      | true =>
        rw [hdir, if_pos rfl] at hd
        have hassoc : pre ++ name :: mid ++ [last] = (pre ++ [name]) ++ mid ++ [last] := by simp
        obtain ⟨hpos, hcopy, -⟩ := PathResolution.positions (hassoc ▸ hsep)
        rw [hassoc, walkForward_some hpos, hcopy]
        refine (attains_afpGetfiledirparms did kFPNodeIDBit kFPNodeIDBit (slash :: name)).bind
          fun s' reply h => ?_
        obtain ⟨rfl, hfinds⟩ := h
        obtain ⟨fi', hstored, hisdir, hid⟩ := Server.Finds.node hfinds hnode
        rw [hstored, Option.getD_some, if_pos (hisdir.trans hdir), hid]
        intro _ _
        have hlen : (joinPath slash pre).length + 1 + name.length =
            (joinPath slash (pre ++ [name])).length := by
          rw [joinPath_concat, List.length_append, List.length_cons]
          omega
        rw [hlen]
        exact ih (hassoc ▸ hsep) hd fi'

/-- A path that leads to a directory of the server, and fits into the buffers. -/
structure LeadsTo (names : Names ι) (path : CString) (did : UInt32) : Prop where
  absolute : path.head? = some slash
  fits : Fits path
  directory : descend names.tree AFP_ROOT_DID (parents path) = some did

/-- **`get_dirid()` finds the directory.** -/
theorem attains_getDirid {path : CString} {did : UInt32} (hpath : LeadsTo names path did)
    (basename : CString) (garbage : UInt32) :
    Prog.Attains (Answers names) (next names)
      (fun s' res => s' = s ∧ res = (0, lastComponent path, did)) s
      (getDirid path basename garbage) := by
  obtain ⟨habsolute, hfits, hd⟩ := hpath
  obtain ⟨parts, last, hsep, rfl⟩ := exists_names habsolute
  rw [Fits, lastComponent_joinPath hsep, parents_joinPath hsep] at hfits
  rw [parents_joinPath hsep] at hd
  rw [lastComponent_joinPath hsep, getDirid_joinPath hsep, if_neg (Nat.not_le.mpr hfits.1)]
  have hparts : Separated slash parts := fun part hpart => hsep part (by simp [hpart])
  refine Prog.attains_ite (fun hnil => ?_) fun hne => ?_
  · rw [hnil] at hd
    exact ⟨rfl, by rw [← Option.some.inj hd]⟩
  rw [if_neg (Nat.not_le.mpr hfits.2)]
  intro (newdid : UInt32) hnewdid
  refine Prog.attains_ite (fun hfound => ?_) fun _ => ?_
  · -- the parent itself is cached
    have hdescend := hnewdid.resolve_left hfound
    rw [components_joinPath hparts, hd] at hdescend
    exact ⟨rfl, by rw [← Option.some.inj hdescend]⟩
  · -- up to a known directory and down again
    refine (attains_topmostParent parts hne hparts).bind fun s' parent h => ?_
    obtain ⟨rfl, pre, mid, rfl, hlen, hdid⟩ := h
    rw [descend_append, hdid, Option.bind_some] at hd
    intro fi _
    rw [hlen]
    refine (attains_walkForward mid hsep hd fi).bind fun s'' dirid h => ?_
    obtain ⟨rfl, rfl⟩ := h
    exact ⟨rfl, rfl⟩

theorem attains_resolve {path : CString} {did : UInt32} (hpath : LeadsTo names path did) :
    Prog.Attains (Answers names) (next names)
      (fun s' res => s' = s ∧ res = (0, lastComponent path, did)) s (resolve path) :=
  fun basename _ garbage _ => attains_getDirid hpath basename garbage

/-! ## Files -/

/-- A path that the server spells as the client does, and that is not one of `.AppleDouble`. -/
structure Spelled (volume : Volume) (path : CString) : Prop where
  converted : convertPathToAfp volume.server.pathEncoding path AFP_MAX_PATH = some (0, path)
  plain : Truncate.Plain volume path
  valid : invalidFilename volume.server path = false

/-- There is a directory or a file of the name. -/
def Server.Has (names : Names ι) (s : Server ι) (did : UInt32) (name : CString) : Prop :=
  (∃ node, names.tree did name = .ok node) ∨ s.present (names.fork false did name) = true

omit [DecidableEq ι] in
theorem Server.Finds.rc {did : UInt32} {name : CString} {reply : Reply AfpFileInfo}
    (h : s.Finds names did name reply) (hhas : s.Has names did name) : reply.rc = kFPNoErr := by
  rw [Server.Finds] at h
  cases hnode : names.tree did name with
  | ok node =>
    rw [hnode] at h
    exact h.1
  | error e =>
    rw [hnode] at h
    have hpresent := hhas.resolve_left fun ⟨node, hok⟩ => by rw [hnode] at hok; cases hok
    simp only [hpresent, if_true] at h
    exact h.1

theorem requestedName_lastComponent {path : CString} (hpath : path.head? = some slash) :
    requestedName (lastComponent path) = lastComponent path := by
  obtain ⟨parts, last, hsep, rfl⟩ := exists_names hpath
  rw [lastComponent_joinPath hsep]
  exact if_neg fun h => hsep last (by simp) (List.mem_of_mem_head? h)

/-- The ids of the server can be told to the client. -/
def Mapped (volume : Volume) : Prop :=
  ∀ uid gid, (translateUidgidToClient volume uid gid).1 = 0

/-- An effect that leaves the server alone. -/
theorem attains_perform {α : Type} {Q : Server ι → α → Prop} {e : Effect} {f : e.Answer → AfpM α}
    (hnext : ∀ r, next names s ⟨e, r⟩ = s)
    (hf : ∀ r, Prog.Attains (Answers names) (next names) Q s (f r)) :
    Prog.Attains (Answers names) (next names) Q s (perform e >>= f) := by
  intro r _
  rw [hnext r]
  exact hf r

/-- `ll_getattr()` of a file or a directory. -/
theorem attains_llGetattr {path : CString} {did : UInt32} (hpath : LeadsTo names path did)
    (hspelled : Spelled volume path) (hroot : path ≠ [slash]) (resource : Bool) :
    Prog.Attains (Answers names) (next names)
      (fun s' res => s' = s ∧ (Mapped volume → s.Has names did (lastComponent path) → res.1 = 0)) s
      (llGetattr volume path resource) := by
  have hnot : (decide (volume.server.avNumber < 30) && decide (path = [slash])) = false := by
    rw [decide_eq_false hroot, Bool.and_false]
  rw [llGetattr, if_neg (ne_true_of_eq_false hspelled.valid)]
  refine attains_perform (e := .uninitFileInfo) (fun _ => rfl) fun fi => ?_
  refine Prog.Attains.bind (attains_resolve hpath) fun s' found h => ?_
  obtain ⟨rfl, rfl⟩ := h
  simp only [lt_self_iff_false, if_false, hnot, Bool.false_eq_true]
  refine Prog.Attains.bind (attains_afpGetfiledirparms _ _ _ _) fun s' reply h => ?_
  obtain ⟨rfl, hfinds⟩ := h
  rw [requestedName_lastComponent hpath.absolute] at hfinds
  refine Prog.attains_ite (fun herr => ⟨rfl, fun _ hhas => ?_⟩) fun _ => ?_
  · refine absurd ?_ herr
    rw [hfinds.rc hhas]
    decide
  · exact Prog.attains_ite (fun hid => ⟨rfl, fun hmapped _ => absurd (hmapped ..) hid⟩)
      fun _ => ⟨rfl, fun _ _ => rfl⟩

/-- **`afp_ml_getattr()`** of a file or a directory succeeds. -/
theorem attains_afpMlGetattr {path : CString} {did : UInt32} (hpath : LeadsTo names path did)
    (hspelled : Spelled volume path) (hroot : path ≠ [slash]) (hmapped : Mapped volume)
    (hhas : s.Has names did (lastComponent path)) :
    Prog.Attains (Answers names) (next names) (fun s' res => s' = s ∧ res.1 = 0) s
      (afpMlGetattr volume path) := by
  have hvirtual : appledoubleGetattr volume path = uninitPath >>= fun _ => pure (0, .zero) := by
    rw [appledoubleGetattr, Truncate.translated_eq hspelled.plain]
    rfl
  rw [afpMlGetattr, hspelled.converted, ofOption_some_bind]
  simp only [ne_eq, not_true_eq_false, if_false]
  rw [hvirtual]
  refine attains_perform (e := .uninitPath) (fun _ => rfl) fun _ => ?_
  exact (attains_llGetattr hpath hspelled hroot false).mono fun s' res h =>
    ⟨h.1, h.2 hmapped hhas⟩

/-! ## Modes -/

theorem attains_getUnixprivs (did : UInt32) (name : CString) (fp : AfpFileInfo) :
    Prog.Attains (Answers names) (next names)
      (fun s' res => s' = s ∧ (s.Has names did (requestedName name) → res.1 = 0)) s
      (getUnixprivs did name fp) := by
  rw [getUnixprivs, llGetDirectoryEntry, bind_assoc]
  refine Prog.Attains.bind (attains_afpGetfiledirparms _ _ _ _) fun s' reply h => ?_
  obtain ⟨rfl, hfinds⟩ := h
  refine ⟨rfl, fun hhas => ?_⟩
  show -lookupErr reply.rc = 0
  rw [hfinds.rc hhas]
  decide

/-- Setting a mode leaves the files alone.  A mode that all servers know is set. -/
theorem attains_setUnixprivs (did : UInt32) (basename : CString) (fp : AfpFileInfo) :
    Prog.Attains (Answers names) (next names)
      (fun s' res => s' = s ∧ (hasExtraBits fp.unixprivs.permissions = false → res.1 = 0)) s
      (setUnixprivs volume did basename fp) := by
  have hset : ∀ (isdir : Bool) (fp : AfpFileInfo), Prog.Attains (Answers names) (next names)
      (fun s' rc => s' = s ∧ rc = kFPNoErr) s
      (if isdir then requestRc (.setDirParms did basename kFPUnixPrivsBit fp)
      else requestRc (.setFileDirParms did basename kFPUnixPrivsBit fp)) := fun _ fp =>
    Prog.attains_ite (fun _ reply hreply => ⟨rfl, hreply⟩) fun _ reply hreply => ⟨rfl, hreply⟩
  rw [setUnixprivs]
  refine Prog.attains_ite (fun _ => ⟨rfl, fun _ => rfl⟩) fun _ => ?_
  refine attains_perform (e := .chmodFlags) (fun _ => rfl) fun flags => ?_
  refine Prog.Attains.bind (hset _ _) fun s' rc h => ?_
  obtain ⟨rfl, rfl⟩ := h
  refine attains_perform (e := .chmodFlags) (fun _ => rfl) fun flags => ?_
  refine Prog.attains_ite (fun hread => ?_) fun _ => ⟨rfl, fun _ => rfl⟩
  -- the mode is read back, which has bits that not all servers know
  have hextra : ¬ hasExtraBits fp.unixprivs.permissions = false := fun hno => by
    simp [hno] at hread
  refine attains_perform (e := .uninitFileInfo) (fun _ => rfl) fun fp2 => ?_
  refine Prog.Attains.bind (attains_getUnixprivs _ _ _) fun s' got h => ?_
  obtain ⟨rfl, -⟩ := h
  refine Prog.attains_ite (fun _ => ⟨rfl, fun hno => absurd hno hextra⟩) fun _ => ?_
  refine attains_perform (e := .chmodFlags) (fun _ => rfl) fun flags => ?_
  refine attains_perform (e := .setChmodFlags _) (fun _ => rfl) fun _ => ?_
  refine attains_perform (e := .chmodFlags) (fun _ => rfl) fun flags => ?_
  exact Prog.attains_ite (fun _ _ _ => ⟨rfl, fun _ => rfl⟩)
    fun _ _ _ => ⟨rfl, fun hno => absurd hno hextra⟩

/-- **`afp_ml_chmod()` leaves the files alone.** -/
theorem attains_afpMlChmod {path : CString} {did : UInt32} (hpath : LeadsTo names path did)
    (hspelled : Spelled volume path) (hroot : path ≠ [slash]) (mode : UInt32) :
    Prog.Attains (Answers names) (next names) (fun s' _ => s' = s) s
      (afpMlChmod volume path mode) := by
  have hvirtual : appledoubleChmod volume path = uninitPath >>= fun _ => pure 0 := by
    rw [appledoubleChmod, refuseVirtual, Truncate.translated_eq hspelled.plain]
    rfl
  rw [afpMlChmod, if_neg (ne_true_of_eq_false hspelled.valid)]
  refine Prog.attains_ite (fun _ => rfl) fun _ => ?_
  refine Prog.attains_ite (fun _ => ?_) fun _ => ?_
  · refine Prog.attains_ite (fun _ => ?_) fun _ => rfl
    refine Prog.Attains.bind (attains_llGetattr hpath hspelled hroot false) fun s' res h => ?_
    exact h.1
  rw [hspelled.converted, ofOption_some_bind]
  simp only [ne_eq, not_true_eq_false, if_false]
  rw [hvirtual]
  refine attains_perform (e := .uninitPath) (fun _ => rfl) fun _ => ?_
  simp only [lt_self_iff_false, if_false, zero_ne_one]
  refine attains_perform (e := .uninitFileInfo) (fun _ => rfl) fun fp => ?_
  refine Prog.Attains.bind (attains_resolve hpath) fun s' found h => ?_
  obtain ⟨rfl, rfl⟩ := h
  refine Prog.Attains.bind (attains_getUnixprivs _ _ _) fun s' got h => ?_
  obtain ⟨rfl, -⟩ := h
  refine Prog.attains_ite (fun _ => rfl) fun _ => ?_
  refine Prog.attains_ite (fun _ => rfl) fun _ => ?_
  refine Prog.attains_ite (fun _ => rfl) fun _ => ?_
  refine attains_perform (e := .getgid) (fun _ => rfl) fun (gid : UInt32) => ?_
  refine attains_perform (e := .geteuid) (fun _ => rfl) fun (uid : UInt32) => ?_
  refine Prog.attains_ite (fun _ => rfl) fun _ => ?_
  refine Prog.Attains.bind (attains_setUnixprivs _ _ _) fun s' set h => ?_
  obtain ⟨rfl, -⟩ := h
  exact Prog.attains_ite (fun _ => rfl) fun _ => rfl

/-! ## Creating and opening -/

omit [DecidableEq ι] in
@[simp] theorem present_put (i : ι) (content : List UInt8) [DecidableEq ι] :
    (s.put i content).present = s.present := rfl

theorem present_createFile (did : UInt32) (name : CString) :
    (s.createFile names did name).present (names.fork false did name) = true :=
  Function.update_self ..

/-- **`afp_ml_creat()`** makes an empty file. -/
theorem attains_afpMlCreat {path : CString} {did : UInt32} (hpath : LeadsTo names path did)
    (hspelled : Spelled volume path) (hwrite : volumeIsReadonly volume = false)
    (habsent : s.present (names.fork false did (lastComponent path)) = false) :
    Prog.Attains (Answers names) (next names)
      (fun s' ret => s' = s.createFile names did (lastComponent path) ∧ ret = 0) s
      (afpMlCreat volume path 0o644) := by
  have hvirtual : appledoubleCreat volume path = uninitPath >>= fun _ => pure 0 := by
    rw [appledoubleCreat, Truncate.translated_eq hspelled.plain]
    rfl
  rw [afpMlCreat, hspelled.converted, ofOption_some_bind]
  simp only [ne_eq, not_true_eq_false, if_false, hwrite, Bool.false_eq_true]
  rw [hvirtual]
  refine attains_perform (e := .uninitPath) (fun _ => rfl) fun _ => ?_
  show Prog.Attains _ _ _ s (if invalidFilename volume.server path = true then _ else _)
  rw [if_neg (ne_true_of_eq_false hspelled.valid)]
  refine (attains_resolve hpath).bind fun s' found h => ?_
  obtain ⟨rfl, rfl⟩ := h
  intro reply hreply
  have hrc : Reply.rc reply = kFPNoErr :=
    Eq.trans hreply (if_neg (ne_true_of_eq_false habsent))
  have hnext : next names s' ⟨.request (.createFile kFPSoftCreate did (lastComponent path)), reply⟩ =
      s'.createFile names did (lastComponent path) := if_pos hrc
  rw [hnext]
  show Prog.Attains _ _ _ _ (if createErr (Reply.rc reply) ≠ 0 then _ else _)
  rw [hrc, if_neg (not_not.mpr (by decide))]
  refine Prog.attains_ite (fun _ => ⟨rfl, rfl⟩) fun _ => ?_
  intro fi _
  have hhas : (s'.createFile names did (lastComponent path)).Has names did
      (requestedName (lastComponent path)) := by
    rw [requestedName_lastComponent hpath.absolute]
    exact .inr (present_createFile ..)
  refine (attains_getUnixprivs _ _ fi).bind fun s'' got h => ?_
  obtain ⟨rfl, hgot⟩ := h
  rw [if_neg (not_not.mpr (hgot hhas))]
  refine Prog.attains_ite (fun _ => ⟨rfl, rfl⟩) fun _ => ?_
  have hbits : hasExtraBits 0o644 = false := by decide
  refine Prog.Attains.bind (attains_setUnixprivs _ _ _) fun s'' set h => ?_
  obtain ⟨rfl, hset⟩ := h
  show Prog.Attains _ _ _ _ (if set.1 = kFPAccessDenied then _ else _)
  rw [hset hbits]
  exact ⟨rfl, rfl⟩

theorem attains_afpOpenfork {resource : Bool} {did : UInt32} {name : CString}
    (hpresent : s.present (names.fork resource did name) = true) (accessmode : ℕ) :
    Prog.Attains (Answers names) (next names)
      (fun s' reply => reply.rc = kFPNoErr ∧ ∃ ref, reply.stored = some ref ∧ s.opened ref = none ∧
        s' = s.refer ref (some (names.fork resource did name))) s
      (afpOpenfork resource did accessmode name) := by
  intro (reply : Reply UInt16) hreply
  have hopens : s.Opens (names.fork resource did name) reply := hreply
  rw [Server.Opens, if_pos hpresent] at hopens
  obtain ⟨hrc, ref, hstored, hfree⟩ := hopens
  refine ⟨hrc, ref, hstored, hfree, ?_⟩
  show reply.stored.elim s (fun ref => s.refer ref (some (names.fork resource did name))) = _
  rw [hstored, Option.elim_some]

/-- The server with the file, which is created if it is not there. -/
def Server.ensure (names : Names ι) (s : Server ι) (did : UInt32) (name : CString) : Server ι :=
  if s.present (names.fork false did name) then s else s.createFile names did name

theorem present_ensure (did : UInt32) (name : CString) :
    (s.ensure names did name).present (names.fork false did name) = true := by
  rw [Server.ensure]
  by_cases h : s.present (names.fork false did name) = true
  · rw [if_pos h]
    exact h
  · rw [if_neg h]
    exact present_createFile did name

/-- Other forks stay as they are. -/
theorem ensure_of_ne {did : UInt32} {name : CString} {i : ι} (hrsrc : i ≠ names.fork true did name)
    (hdata : i ≠ names.fork false did name) :
    (s.ensure names did name).present i = s.present i ∧
      (s.ensure names did name).content i = s.content i := by
  rw [Server.ensure]
  by_cases h : s.present (names.fork false did name) = true
  · rw [if_pos h]
    exact ⟨rfl, rfl⟩
  · rw [if_neg h]
    have hupdate : ∀ {β : Type} (f : ι → β) (b c : β),
        Function.update (Function.update f (names.fork true did name) b)
          (names.fork false did name) c i = f i := fun f b c => by
      rw [Function.update_of_ne hdata, Function.update_of_ne hrsrc]
    exact ⟨hupdate .., hupdate ..⟩

/-- The file has what it had, or it is empty. -/
theorem content_ensure (did : UInt32) (name : CString) :
    (s.ensure names did name).content (names.fork false did name) =
      if s.present (names.fork false did name) then s.content (names.fork false did name)
      else [] := by
  rw [Server.ensure]
  by_cases h : s.present (names.fork false did name) = true
  · rw [if_pos h, if_pos h]
  · rw [if_neg h, if_neg h]
    exact Function.update_self ..

theorem opened_ensure (did : UInt32) (name : CString) :
    (s.ensure names did name).opened = s.opened := by
  rw [Server.ensure]
  split <;> rfl

/-- The data fork of a file is opened, and the file is created if it is not there. -/
def Server.Opened (names : Names ι) (s : Server ι) (did : UInt32) (name : CString) (s' : Server ι)
    (ref : UInt16) : Prop :=
  s.opened ref = none ∧
    s' = (s.ensure names did name).refer ref (some (names.fork false did name))

/-- The file is there, or it may be created. -/
def Server.Openable (volume : Volume) (names : Names ι) (s : Server ι) (did : UInt32)
    (name : CString) (flags : ℕ) : Prop :=
  s.present (names.fork false did name) = true ∨
    flags &&& O_CREAT ≠ 0 ∧ volumeIsReadonly volume = false

section Open

variable {path : CString} {did : UInt32} {flags fuel : ℕ}

/-- The answer to a request to open a fork that is not there. -/
theorem attains_afpOpenfork_absent {resource : Bool} {name : CString}
    (habsent : s.present (names.fork resource did name) = false) (accessmode : ℕ) :
    Prog.Attains (Answers names) (next names)
      (fun s' reply => s' = s ∧ reply.rc = kFPObjectNotFound ∧ reply.stored = none) s
      (afpOpenfork resource did accessmode name) := by
  intro (reply : Reply UInt16) hreply
  have hopens : s.Opens (names.fork resource did name) reply := hreply
  rw [Server.Opens, if_neg (ne_true_of_eq_false habsent)] at hopens
  refine ⟨?_, hopens⟩
  show reply.stored.elim s (fun ref => s.refer ref (some (names.fork resource did name))) = _
  rw [hopens.2, Option.elim_none]

/-- The loop opens the fork in its first round, or in its second when it has created the file. -/
theorem attains_openLoop {fp : AfpFileInfo} (hpath : LeadsTo names path fp.did)
    (hspelled : Spelled volume path) (hname : fp.basename = lastComponent path)
    (hplain : fp.resource = .none)
    (hopenable : s.Openable volume names fp.did fp.basename flags) (aflags : ℕ) :
    Prog.Attains (Answers names) (next names)
      (fun s' res => ∃ ref, s.Opened names fp.did fp.basename s' ref ∧
        res = (0, { fp with forkid := ref })) s
      (openLoop volume path flags aflags (fuel + 2) fp) := by
  have hdata : decide (fp.resource ≠ .none) = false := by rw [hplain]; decide
  have hround : ∀ (s : Server ι) n, s.present (names.fork false fp.did fp.basename) = true →
      Prog.Attains (Answers names) (next names)
        (fun s' res => ∃ ref, s.opened ref = none ∧
          s' = s.refer ref (some (names.fork false fp.did fp.basename)) ∧
            res = (0, { fp with forkid := ref })) s
        (openLoop volume path flags aflags (n + 1) fp) := by
    intro s n hpresent
    rw [openLoop, hdata]
    refine (attains_afpOpenfork hpresent aflags).bind fun s' reply h => ?_
    obtain ⟨hrc, ref, hstored, hfree, rfl⟩ := h
    rw [if_neg fun h => absurd (hrc.symm.trans h.1) (by decide), hrc, hstored]
    exact ⟨ref, hfree, rfl, rfl⟩
  cases hpresent : s.present (names.fork false fp.did fp.basename) with
  | true =>
    refine (hround s (fuel + 1) hpresent).mono fun s' res h => ?_
    obtain ⟨ref, hfree, rfl, rfl⟩ := h
    exact ⟨ref, ⟨hfree, by rw [Server.ensure, if_pos hpresent]⟩, rfl⟩
  | false =>
    obtain ⟨hcreat, hwrite⟩ := hopenable.resolve_left (ne_true_of_eq_false hpresent)
    rw [openLoop, hdata]
    refine (attains_afpOpenfork_absent hpresent aflags).bind fun s' reply h => ?_
    obtain ⟨rfl, hrc, hstored⟩ := h
    rw [if_pos ⟨hrc, hcreat⟩, hstored]
    have hcreated := attains_afpMlCreat hpath hspelled hwrite (hname ▸ hpresent)
    rw [← hname] at hcreated
    refine hcreated.bind fun s'' created h => ?_
    obtain ⟨rfl, rfl⟩ := h
    rw [if_pos rfl]
    refine (hround _ fuel (present_createFile ..)).mono fun s'' res h => ?_
    obtain ⟨ref, hfree, rfl, rfl⟩ := h
    exact ⟨ref, ⟨hfree, by rw [Server.ensure, if_neg (ne_true_of_eq_false hpresent)]⟩, rfl⟩

/-- What a function that opens a file gives back. -/
def Server.Gives (names : Names ι) (s : Server ι) (did : UInt32) (name : CString) (s' : Server ι)
    (fp : AfpFileInfo) : Prop :=
  s.Opened names did name s' fp.forkid ∧ fp.resource = .none

/-- `ll_open()` without a check of the size, and without truncating. -/
theorem attains_llOpen {fp : AfpFileInfo} (hpath : LeadsTo names path fp.did)
    (hspelled : Spelled volume path) (hname : fp.basename = lastComponent path)
    (hplain : fp.resource = .none)
    (hopenable : s.Openable volume names fp.did fp.basename flags)
    (hlarge : flags &&& O_LARGEFILE = 0) (htrunc : flags &&& O_TRUNC = 0) (handle : Handle) :
    Prog.Attains (Answers names) (next names)
      (fun s' res => res.1 = 0 ∧ s.Gives names fp.did fp.basename s' res.2) s
      (llOpen volume path flags handle fp (fuel + 2)) := by
  -- the mask and the truth value have no bit in common
  have hmask : accessMode flags &&& AFP_OPENFORK_ALLOWWRITE &&& (volumeIsReadonly volume).toNat =
      0 := by
    rw [Nat.and_assoc]
    cases volumeIsReadonly volume <;> exact Nat.and_zero _
  rw [llOpen]
  simp only [hmask, ne_eq, not_true_eq_false, if_false, and_false, false_and, Bool.false_eq_true,
    pure_bind, checkSize, hlarge, htrunc]
  have hloop := @attains_openLoop ι _ names s volume path flags fuel
    { fp with sync := (flags &&& (O_SYNC ||| O_DIRECT)) % 256 ≠ 0 } hpath hspelled hname hplain
    hopenable (accessMode flags)
  refine Prog.Attains.bind hloop fun s' res h => ?_
  obtain ⟨ref, hopened, rfl⟩ := h
  exact fun _ _ => ⟨rfl, hopened, hplain⟩

/-- Flags that ask neither for a check of the size nor for truncating, nor for writing where that is
not allowed. -/
structure FlagsFit (volume : Volume) (flags : ℕ) : Prop where
  large : flags &&& O_LARGEFILE = 0
  trunc : flags &&& O_TRUNC = 0
  allowed : volumeIsReadonly volume = true →
    flags &&& (O_WRONLY ||| O_RDWR ||| O_TRUNC ||| O_APPEND ||| O_CREAT) = 0

/-- **`afp_ml_open()` opens the data fork.** -/
theorem attains_afpMlOpen (hpath : LeadsTo names path did) (hspelled : Spelled volume path)
    (hopenable : s.Openable volume names did (lastComponent path) flags)
    (hflags : FlagsFit volume flags) :
    Prog.Attains (Answers names) (next names)
      (fun s' res => res.1 = 0 ∧ ∃ handle fp, res.2 = some (handle, fp) ∧
        s.Gives names did (lastComponent path) s' fp) s
      (afpMlOpen volume path flags (fuel + 2)) := by
  have hreadonly : ¬ (volumeIsReadonly volume = true ∧
      flags &&& (O_WRONLY ||| O_RDWR ||| O_TRUNC ||| O_APPEND ||| O_CREAT) ≠ 0) := fun h =>
    h.2 (hflags.allowed h.1)
  rw [afpMlOpen, hspelled.converted, ofOption_some_bind]
  simp only [ne_eq, not_true_eq_false, if_false, hspelled.valid, Bool.false_eq_true]
  rw [if_neg hreadonly]
  intro (allocated : Option Handle) hallocated
  cases allocated with
  | none => exact absurd rfl hallocated
  | some handle =>
    show Prog.Attains _ _ _ s (appledoubleOpen volume path flags handle .zero (fuel + 2) >>= _)
    rw [Truncate.appledoubleOpen_plain hspelled.plain rfl, bind_assoc]
    refine attains_perform (e := .uninitPath) (fun _ => rfl) fun _ => ?_
    simp only [pure_bind, lt_self_iff_false, if_false, zero_ne_one]
    refine attains_perform (e := .uninitInt) (fun _ => rfl) fun _ => ?_
    refine Prog.Attains.bind (attains_getDirid hpath _ _) fun s' found h => ?_
    obtain ⟨rfl, rfl⟩ := h
    simp only [lt_self_iff_false, if_false]
    have hopen := @attains_llOpen ι _ names s' volume path flags fuel
      { AfpFileInfo.zero with basename := lastComponent path, did := did } hpath hspelled rfl rfl
      hopenable hflags.large hflags.trunc handle
    refine hopen.bind fun s'' res h => ?_
    obtain ⟨hret, hgives⟩ := h
    rw [if_neg (by rw [hret]; decide)]
    exact ⟨rfl, handle, res.2, rfl, hgives⟩

/-- **`afp_ml_close()` gives the reference back.** -/
theorem attains_afpMlClose (hspelled : Spelled volume path) {fp : AfpFileInfo}
    (hplain : fp.resource = .none) (hopen : s.opened fp.forkid ≠ none) (handle : Handle) :
    Prog.Attains (Answers names) (next names)
      (fun s' ret => s' = s.refer fp.forkid none ∧ ret = 0) s
      (afpMlClose volume path (some (handle, fp))) := by
  rw [afpMlClose, hspelled.converted, ofOption_some_bind]
  simp only [ne_eq, not_true_eq_false, if_false, hspelled.valid, Bool.false_eq_true, hplain]
  intro reply hreply
  have hrc : Reply.rc reply = kFPNoErr := hreply hopen
  show Prog.Attains _ _ _ (if Reply.rc reply = kFPNoErr then s.refer fp.forkid none else s)
    (if ¬ Reply.rc reply = kFPNoErr then _ else _)
  rw [if_pos hrc, if_neg (not_not.mpr hrc)]
  exact fun _ _ => ⟨rfl, rfl⟩

end Open

end FileServer
end Afpfs
