import Afpfs.Did
import Mathlib.Order.Monotone.Basic
import Mathlib.Order.Nat

/-!
# Path resolution against a tree

What `get_dirid()` answers when the server holds a tree of directories.  A `Tree` says what the
lookup of a name in a directory gives: an error code, or an entry.  `descend` follows names down
from a directory; the volume agrees with a cached name when the path leads to the cached id.

The server is `handler`: it answers lookups from the tree, keeps the cache and reads the clock.

* `exec_topmostParent`, `exec_walkForward`: the two loops, as a descent from the root.
* `exec_getDirid`: if the directory part of the path leads to a directory, that is the answer.
* `getDirid_absolute_returns_zero`: on an absolute path the result is 0 in any case, the failed
  lookup of a directory included.
* `pathResolution_iff`: so the resolution is right exactly when the directory part exists.
-/

set_option autoImplicit false

namespace Afpfs
namespace PathResolution

open Unicode Interaction Scan Did

/-! ## The tree and the server -/

/-- An entry of a directory. -/
structure Node where
  id : UInt32
  isdir : Bool

/-- The lookup of a name in a directory: an error code or the entry. -/
abbrev Tree := UInt32 → CString → Except ℤ Node

/-- The directory that a path of names leads to. -/
def descend (tree : Tree) (did : UInt32) : List CString → Option UInt32
  | [] => some did
  | name :: names =>
    match tree did name with
    | .ok node => if node.isdir then descend tree node.id names else none
    | .error _ => none

/-- The names of the directories above the last component of a path. -/
def parents (path : CString) : List CString := (components slash path).dropLast

/-- The last component of a path. -/
def lastComponent (path : CString) : CString := (components slash path).getLastD []

/-- The cached name leads to the cached id. -/
def Agrees (tree : Tree) (entry : DidCacheEntry) : Prop :=
  descend tree AFP_ROOT_DID (components slash entry.dirname) = some entry.did

/-- The cache and the number of readings of the clock so far. -/
structure World where
  cache : List DidCacheEntry
  readings : ℕ

/-- The name in a request: a separator at the front of a path name is not part of the name. -/
def requestedName (pathname : CString) : CString :=
  if pathname.head? = some slash then pathname.tail else pathname

/-- The reply to a lookup.  An error leaves the result structure alone. -/
def lookupReply (tree : Tree) (did : UInt32) (pathname : CString) : Reply AfpFileInfo :=
  match tree did (requestedName pathname) with
  | .ok node => ⟨kFPNoErr, some { AfpFileInfo.zero with fileid := node.id, isdir := node.isdir }⟩
  | .error e => ⟨e, none⟩

/-- The server, the cache and the system.  `clock` are the readings of the clock and `garbage` is
what an unwritten structure holds. -/
def handler (tree : Tree) (clock : ℕ → ℕ) (garbage : AfpFileInfo) (w : World) :
    (e : Effect) → e.Answer × World
  | .request (.getFileDirParms did _ _ pathname) => (lookupReply tree did pathname, w)
  | .findDirid path =>
    let found := findDiridByFullname (clock w.readings) path w.cache
    (found.1, ⟨found.2, w.readings + 1⟩)
  | .addDid did path => ((), ⟨addDidCacheEntry (clock w.readings) did path w.cache, w.readings + 1⟩)
  | .removeDid path => ((), ⟨removeDidEntry path w.cache, w.readings⟩)
  | .uninitFileInfo => (garbage, w)
  | e => (e.zeroAnswer, w)

/-- The unexpired entries agree with the tree. -/
def Coherent (tree : Tree) (clock : ℕ → ℕ) (w : World) : Prop :=
  ∀ entry ∈ w.cache, ¬ Expired (clock w.readings) entry → Agrees tree entry

/-- What a resolution should do: it ends; it finds the directory part if there is one, and reports
an error if not; and what it puts into the cache is right. -/
def Resolves (tree : Tree) (clock : ℕ → ℕ) (garbage : AfpFileInfo) (w : World)
    (path basename : CString) (dirid : UInt32) : Prop :=
  ∃ ret name did w',
    Prog.exec (handler tree clock garbage) (getDirid path basename dirid) w =
      some ((ret, name, did), w') ∧
    (∀ d, descend tree AFP_ROOT_DID (parents path) = some d →
      ret = 0 ∧ did = d ∧ name = lastComponent path) ∧
    (descend tree AFP_ROOT_DID (parents path) = none → ret < 0) ∧
    ∀ entry ∈ w'.cache, entry ∈ w.cache ∨ Agrees tree entry

/-- The two parts of the path fit into the buffers of `get_dirid()`. -/
def Fits (path : CString) : Prop :=
  (lastComponent path).length < AFP_MAX_PATH ∧
    (joinPath slash (parents path)).length < AFP_MAX_PATH

/-! ## Descents and paths -/

theorem descend_append (tree : Tree) (did : UInt32) (names₁ names₂ : List CString) :
    descend tree did (names₁ ++ names₂) =
      (descend tree did names₁).bind fun d => descend tree d names₂ := by
  induction names₁ generalizing did with
  | nil => rfl
  | cons name names₁ ih =>
    rw [List.cons_append, descend, descend]
    cases tree did name with
    | error e => rfl
    | ok node =>
      cases hdir : node.isdir with
      | false => simp [hdir]
      | true =>
        simp only [hdir, if_true]
        exact ih node.id

/-- An absolute path is the names of its directories and its last component, joined. -/
theorem exists_names {path : CString} (hpath : path.head? = some slash) :
    ∃ names last, Separated slash (names ++ [last]) ∧ path = joinPath slash (names ++ [last]) := by
  obtain ⟨hsep, hjoin, hne⟩ := joinPath_components hpath
  refine ⟨(components slash path).dropLast, (components slash path).getLast hne, ?_, ?_⟩
  · rw [List.dropLast_append_getLast]
    exact hsep
  · rw [List.dropLast_append_getLast, hjoin]

theorem parents_joinPath {names : List CString} {last : CString}
    (hsep : Separated slash (names ++ [last])) :
    parents (joinPath slash (names ++ [last])) = names := by
  rw [parents, components_joinPath hsep, List.dropLast_concat]

theorem lastComponent_joinPath {names : List CString} {last : CString}
    (hsep : Separated slash (names ++ [last])) :
    lastComponent (joinPath slash (names ++ [last])) = last := by
  rw [lastComponent, components_joinPath hsep, List.getLastD_concat]

theorem joinPath_concat (names : List CString) (last : CString) :
    joinPath slash (names ++ [last]) = joinPath slash names ++ slash :: last := by
  rw [joinPath_append, joinPath_singleton]

/-! ## The cache along a resolution -/

variable {tree : Tree} {clock : ℕ → ℕ} {garbage : AfpFileInfo} {w w' w'' : World}

/-- The entries that are new agree with the tree. -/
def Grows (tree : Tree) (w w' : World) : Prop :=
  ∀ entry ∈ w'.cache, entry ∈ w.cache ∨ Agrees tree entry

theorem Grows.refl (tree : Tree) (w : World) : Grows tree w w := fun _ h => Or.inl h

theorem Grows.trans (h₁ : Grows tree w w') (h₂ : Grows tree w' w'') : Grows tree w w'' :=
  fun entry h => (h₂ entry h).elim (h₁ entry) Or.inr

/-- The cache and the clock after a lookup in the cache. -/
def afterFind (clock : ℕ → ℕ) (path : CString) (w : World) : World :=
  ⟨(findDiridByFullname (clock w.readings) path w.cache).2, w.readings + 1⟩

/-- The cache and the clock after an addition to the cache. -/
def afterAdd (clock : ℕ → ℕ) (did : UInt32) (path : CString) (w : World) : World :=
  ⟨addDidCacheEntry (clock w.readings) did path w.cache, w.readings + 1⟩

theorem grows_afterFind (path : CString) : Grows tree w (afterFind clock path w) :=
  fun _ h => Or.inl ((find_sublist _ _ _).subset h)

section Exec

variable {β : Type}

theorem exec_findDirid_bind (path : CString) (f : UInt32 → AfpM β) (w : World) :
    Prog.exec (handler tree clock garbage) (findDirid path >>= f) w =
      Prog.exec (handler tree clock garbage)
        (f (findDiridByFullname (clock w.readings) path w.cache).1) (afterFind clock path w) := rfl

theorem exec_addDid_bind (did : UInt32) (path : CString) (f : Unit → AfpM β) (w : World) :
    Prog.exec (handler tree clock garbage) (addDid did path >>= f) w =
      Prog.exec (handler tree clock garbage) (f ()) (afterAdd clock did path w) := rfl

theorem exec_lookup_bind (did : UInt32) (fb db : ℕ) (pathname : CString)
    (f : Reply AfpFileInfo → AfpM β) (w : World) :
    Prog.exec (handler tree clock garbage) (afpGetfiledirparms did fb db pathname >>= f) w =
      Prog.exec (handler tree clock garbage) (f (lookupReply tree did pathname)) w := rfl

theorem exec_uninitFileInfo_bind (f : AfpFileInfo → AfpM β) (w : World) :
    Prog.exec (handler tree clock garbage) (uninitFileInfo >>= f) w =
      Prog.exec (handler tree clock garbage) (f garbage) w := rfl

end Exec

/-- As time goes on fewer entries are unexpired. -/
theorem Coherent.later (hclock : Monotone clock) (h : Coherent tree clock w) {n : ℕ}
    (hn : w.readings ≤ n) : Coherent tree clock ⟨w.cache, n⟩ :=
  fun entry hentry hexp => h entry hentry fun hold =>
    hexp (Nat.lt_of_lt_of_le hold (hclock hn))

theorem coherent_afterFind (hclock : Monotone clock) (h : Coherent tree clock w)
    (path : CString) : Coherent tree clock (afterFind clock path w) :=
  fun entry hentry hexp =>
    h.later hclock (Nat.le_succ _) entry ((find_sublist _ _ _).subset hentry) hexp

theorem coherent_afterAdd (hclock : Monotone clock) (h : Coherent tree clock w) {did : UInt32}
    {path : CString} (hdid : descend tree AFP_ROOT_DID (components slash path) = some did) :
    Coherent tree clock (afterAdd clock did path w) := fun entry hentry hexp => by
  rcases List.mem_cons.mp hentry with rfl | hentry
  · exact hdid
  · exact h.later hclock (Nat.le_succ _) entry hentry hexp

theorem grows_afterAdd {did : UInt32} {path : CString}
    (hdid : descend tree AFP_ROOT_DID (components slash path) = some did) :
    Grows tree w (afterAdd clock did path w) := fun entry hentry => by
  rcases List.mem_cons.mp hentry with rfl | hentry
  · exact Or.inr hdid
  · exact Or.inl hentry

/-- An id that the cache answers is the id of the directory. -/
theorem descend_of_found (h : Coherent tree clock w) {path : CString} {did : UInt32}
    (hdid : (findDiridByFullname (clock w.readings) path w.cache).1 = did) (hne : did ≠ 0) :
    descend tree AFP_ROOT_DID (components slash path) = some did := by
  obtain ⟨entry, hentry, hexp, rfl, hfound⟩ := find_sound (hdid.symm ▸ hne)
  have hagrees := h entry hentry hexp
  rw [Agrees, hfound, hdid] at hagrees
  exact hagrees

/-! ## The two loops -/

/-- **The way back** ends at a prefix of the path whose directory is known. -/
theorem exec_topmostParent (hclock : Monotone clock) (garbage : AfpFileInfo) (names : List CString)
    (hne : names ≠ []) (hsep : Separated slash names) (hw : Coherent tree clock w) :
    ∃ pre mid did w', names = pre ++ mid ∧
      Prog.exec (handler tree clock garbage) (topmostParent (joinPath slash names)) w =
        some ((did, (joinPath slash pre).length), w') ∧
      descend tree AFP_ROOT_DID pre = some did ∧ Coherent tree clock w' ∧ Grows tree w w' := by
  induction names using List.reverseRecOn generalizing w with
  | nil => exact absurd rfl hne
  | append_singleton names last ih =>
    have hlast : slash ∉ last := hsep last (by simp)
    have hnames : Separated slash names := fun part hpart => hsep part (by simp [hpart])
    rw [joinPath_concat]
    have hpos := @strrchr_append _ slash _ (joinPath slash names) last hlast
    cases hlen : (joinPath slash names).length with
    | zero =>
      -- only the root is left
      rw [hlen] at hpos
      rw [topmostParent_zero hpos]
      exact ⟨[], names ++ [last], AFP_ROOT_DID, w, rfl, rfl, rfl, hw, Grows.refl tree w⟩
    | succ p =>
      rw [hlen] at hpos
      have htake : (joinPath slash names ++ slash :: last).take (p + 1) = joinPath slash names := by
        rw [← hlen, List.take_left]
      rw [topmostParent_succ hpos, htake]
      have hnext := coherent_afterFind hclock hw (joinPath slash names)
      have hgrows : Grows tree w (afterFind clock (joinPath slash names) w) := grows_afterFind _
      by_cases hfound : (findDiridByFullname (clock w.readings) (joinPath slash names) w.cache).1 = 0
      · -- not cached: one name further up
        have hne' : names ≠ [] := fun h => by
          rw [h, joinPath_nil] at hlen
          exact absurd hlen (by simp)
        obtain ⟨pre, mid, did, w', rfl, hexec, hdescend, hw', hgrows'⟩ := ih hne' hnames hnext
        refine ⟨pre, mid ++ [last], did, w', List.append_assoc .., ?_, hdescend, hw',
          hgrows.trans hgrows'⟩
        rw [exec_findDirid_bind, if_neg (not_not.mpr hfound), hexec]
      · -- cached
        have hdescend := descend_of_found hw rfl hfound
        rw [components_joinPath hnames] at hdescend
        refine ⟨names, [last], _, _, rfl, ?_, hdescend, hnext, hgrows⟩
        rw [exec_findDirid_bind, if_pos hfound, hlen]
        rfl

/-- The reply to the lookup of an entry. -/
theorem lookupReply_ok {did : UInt32} {name : CString} {node : Node}
    (h : tree did name = .ok node) :
    lookupReply tree did (slash :: name) =
      ⟨kFPNoErr, some { AfpFileInfo.zero with fileid := node.id, isdir := node.isdir }⟩ := by
  have hname : requestedName (slash :: name) = name := rfl
  rw [lookupReply, hname, h]

/-- The positions that the way forward computes at a name: where the next separator is, the part
of the path in the request, and the part put into the cache. -/
theorem positions {pre mid : List CString} {name last : CString}
    (hsep : Separated slash (pre ++ [name] ++ mid ++ [last])) :
    let path := joinPath slash (pre ++ [name] ++ mid ++ [last])
    let p := (joinPath slash pre).length + 1 + name.length
    strchr path ((joinPath slash pre).length + 1) slash = some p ∧
      (path.drop (joinPath slash pre).length).take (p - (joinPath slash pre).length) =
        slash :: name ∧
      path.take p = joinPath slash (pre ++ [name]) := by
  intro path p
  have hname : slash ∉ name := hsep name (by simp)
  obtain ⟨next, more, hmore⟩ : ∃ next more, mid ++ [last] = next :: more :=
    List.exists_cons_of_ne_nil (by simp)
  have hpath : path = joinPath slash pre ++ (slash :: name ++ joinPath slash (mid ++ [last])) := by
    simp only [path, joinPath_append, joinPath_singleton, List.append_assoc]
  have hrest : joinPath slash (mid ++ [last]) = slash :: (next ++ joinPath slash more) := by
    rw [hmore, joinPath_cons, List.cons_append]
  refine ⟨?_, ?_, ?_⟩
  · have h := @strchr_append _ slash _ (joinPath slash pre ++ [slash]) name
      (next ++ joinPath slash more) hname
    rw [List.length_append, List.length_singleton] at h
    rw [hpath, hrest, ← h]
    simp only [List.append_assoc, List.cons_append, List.nil_append]
  · rw [hpath, List.drop_left, show p - (joinPath slash pre).length = (slash :: name).length by
      simp only [p, List.length_cons]; omega, List.take_left]
  · rw [hpath, ← List.append_assoc, show p = (joinPath slash pre ++ slash :: name).length by
      simp only [p, List.length_append, List.length_cons]; omega, List.take_left, joinPath_concat]

/-- **The way forward** follows the names of directories to the last of them. -/
theorem exec_walkForward (hclock : Monotone clock) (mid : List CString) {pre : List CString}
    {last : CString} (hsep : Separated slash (pre ++ mid ++ [last])) {did d : UInt32}
    (hdid : descend tree AFP_ROOT_DID pre = some did) (hd : descend tree did mid = some d)
    (hw : Coherent tree clock w) (fi : AfpFileInfo) :
    ∃ w', Prog.exec (handler tree clock garbage)
        (walkForward (joinPath slash (pre ++ mid ++ [last])) did (joinPath slash pre).length fi) w =
          some (d, w') ∧
      Coherent tree clock w' ∧ Grows tree w w' := by
  induction mid generalizing pre did fi w with
  | nil =>
    have hlast : slash ∉ last := hsep last (by simp)
    have hpos : strchr (joinPath slash (pre ++ [] ++ [last])) ((joinPath slash pre).length + 1)
        slash = none := by
      have h := @strchr_eq_none _ slash _ (joinPath slash pre ++ [slash]) last hlast
      rw [List.length_append, List.length_singleton] at h
      rw [List.append_nil, joinPath_concat, ← h, List.append_assoc, List.singleton_append]
    rw [walkForward_none hpos]
    exact ⟨w, congrArg (fun x => some (x, w)) (Option.some.inj hd), hw, Grows.refl tree w⟩
  | cons name mid ih =>
    -- the node of the next name
    rw [descend] at hd
    cases hnode : tree did name with
    | error e => rw [hnode] at hd; exact absurd hd (by simp)
    | ok node =>
      rw [hnode] at hd
      simp only at hd
      cases hdir : node.isdir with
      | false => rw [hdir] at hd; exact absurd hd (by simp)
      | true =>
        rw [hdir, if_pos rfl] at hd
        have hname : slash ∉ name := hsep name (by simp)
        have hpre : descend tree AFP_ROOT_DID (pre ++ [name]) = some node.id := by
          rw [descend_append, hdid, Option.bind_some, descend, hnode]
          simp only [hdir, if_true]
          rfl
        have hassoc : pre ++ name :: mid ++ [last] = (pre ++ [name]) ++ mid ++ [last] := by simp
        obtain ⟨hpos, hcopy, htake⟩ := positions (hassoc ▸ hsep)
        have hsep' : Separated slash (pre ++ [name]) := fun part hpart => hsep part (by
          rcases List.mem_append.mp hpart with h | h
          · simp [h]
          · simp [List.mem_singleton.mp h])
        have hcached : descend tree AFP_ROOT_DID
            (components slash (joinPath slash (pre ++ [name]))) = some node.id := by
          rw [components_joinPath hsep', hpre]
        rw [hassoc, walkForward_some hpos, hcopy, htake, exec_lookup_bind, lookupReply_ok hnode]
        simp only [Option.getD_some, hdir, if_true]
        rw [exec_addDid_bind]
        obtain ⟨w', hexec, hw', hgrows⟩ := ih (hassoc ▸ hsep) hpre hd
          (coherent_afterAdd hclock hw hcached)
          { AfpFileInfo.zero with fileid := node.id, isdir := true }
        have hlen : (joinPath slash pre).length + 1 + name.length =
            (joinPath slash (pre ++ [name])).length := by
          rw [joinPath_concat, List.length_append, List.length_cons]
          omega
        rw [hlen]
        exact ⟨w', hexec, hw', (grows_afterAdd hcached).trans hgrows⟩

/-! ## The whole resolution -/

section Whole

variable {names : List CString} {last : CString}

/-- `get_dirid()` on an absolute path, the position of its last separator known. -/
theorem getDirid_joinPath (hsep : Separated slash (names ++ [last])) (basename : CString)
    (dirid : UInt32) :
    getDirid (joinPath slash (names ++ [last])) basename dirid =
      if AFP_MAX_PATH ≤ last.length then .stuck
      else if names = [] then pure (0, last, AFP_ROOT_DID)
      else if AFP_MAX_PATH ≤ (joinPath slash names).length then .stuck
      else findDirid (joinPath slash names) >>= fun newdid =>
        if newdid ≠ 0 then pure (0, last, newdid)
        else topmostParent (joinPath slash names) >>= fun parent =>
          uninitFileInfo >>= fun fi =>
          walkForward (joinPath slash (names ++ [last])) parent.1 parent.2 fi >>= fun dirid =>
          pure (0, last, dirid) := by
  have hlast : slash ∉ last := hsep last (by simp)
  have hpos := @strrchr_append _ slash _ (joinPath slash names) last hlast
  have hne : joinPath slash (names ++ [last]) ≠ [] := by
    rw [joinPath_concat]
    simp
  have hzero : (joinPath slash names).length = 0 ↔ names = [] := by
    rw [List.length_eq_zero_iff]
    cases names with
    | nil => simp
    | cons name names => simp [joinPath_cons]
  have hdrop : (joinPath slash names ++ slash :: last).drop ((joinPath slash names).length + 1) =
      last := by
    rw [← List.drop_drop, List.drop_left]
    rfl
  rw [getDirid, if_neg hne, joinPath_concat, hpos]
  simp only [hdrop, hzero, List.take_left]

/-- The way back ends at the root at the latest. -/
theorem yields_topmostParent {ok : (e : Effect) × e.Answer → Prop} {copy : CString}
    (hcopy : copy.head? = some slash) :
    Prog.Yields ok (fun _ => True) (topmostParent copy) := by
  induction hlength : copy.length using Nat.strong_induction_on generalizing copy with
  | _ length ih =>
    cases hpos : strrchr copy slash with
    | none => exact absurd (List.mem_of_mem_head? hcopy) (strrchr_eq_none hpos)
    | some p =>
      cases p with
      | zero =>
        rw [topmostParent_zero hpos]
        exact trivial
      | succ p =>
        have hlt := strrchr_lt hpos
        rw [topmostParent_succ hpos]
        intro (did : UInt32) _
        refine Prog.yields_ite (fun _ => trivial) fun _ => ?_
        refine ih _ ?_ ?_ rfl
        · rw [List.length_take]
          omega
        · rw [List.head?_take, if_neg (Nat.succ_ne_zero p), hcopy]

/-- The way forward ends. -/
theorem yields_walkForward {ok : (e : Effect) × e.Answer → Prop} (path : CString) (did : UInt32)
    (p2 : ℕ) (fi : AfpFileInfo) :
    Prog.Yields ok (fun _ => True) (walkForward path did p2 fi) := by
  induction hlength : path.length - p2 using Nat.strong_induction_on generalizing did p2 fi with
  | _ length ih =>
    cases hpos : strchr path (p2 + 1) slash with
    | none =>
      rw [walkForward_none hpos]
      exact trivial
    | some p =>
      have hbounds := strchr_bounds hpos
      rw [walkForward_some hpos]
      intro (reply : Reply AfpFileInfo) _
      refine Prog.yields_ite (fun _ _ _ => ?_) fun _ => trivial
      exact ih _ (by omega) _ _ _ rfl

/-- **A path that fits is resolved**, whatever the server answers. -/
theorem yields_getDirid {ok : (e : Effect) × e.Answer → Prop} {path : CString}
    (hpath : path.head? = some slash) (hfits : Fits path) (basename : CString) (dirid : UInt32) :
    Prog.Yields ok (fun res => res.1 = 0) (getDirid path basename dirid) := by
  obtain ⟨names, last, hsep, rfl⟩ := exists_names hpath
  rw [Fits, lastComponent_joinPath hsep, parents_joinPath hsep] at hfits
  rw [getDirid_joinPath hsep, if_neg (Nat.not_le.mpr hfits.1)]
  refine Prog.yields_ite (fun _ => rfl) fun hnil => ?_
  rw [if_neg (Nat.not_le.mpr hfits.2)]
  have hhead : (joinPath slash names).head? = some slash := by
    cases names with
    | nil => exact absurd rfl hnil
    | cons name names => rfl
  intro (did : UInt32) _
  refine Prog.yields_ite (fun _ => rfl) fun _ => ?_
  refine (yields_topmostParent hhead).bind fun parent _ (fi : AfpFileInfo) _ => ?_
  exact (yields_walkForward ..).bind fun _ _ => rfl

theorem yields_resolve {ok : (e : Effect) × e.Answer → Prop} {path : CString}
    (hpath : path.head? = some slash) (hfits : Fits path) :
    Prog.Yields ok (fun res => res.1 = 0) (resolve path) :=
  fun basename _ dirid _ => yields_getDirid hpath hfits basename dirid

/-- **The result is 0 whenever there is one.**  Neither loop looks at an error. -/
theorem getDirid_absolute_returns_zero (hsep : Separated slash (names ++ [last]))
    {basename name : CString} {dirid did : UInt32} {ret : ℤ}
    (h : Prog.exec (handler tree clock garbage)
      (getDirid (joinPath slash (names ++ [last])) basename dirid) w = some ((ret, name, did), w')) :
    ret = 0 := by
  rw [getDirid_joinPath hsep] at h
  split at h
  · exact absurd h (by simp)
  · split at h
    · exact (congrArg (·.1.1) (Option.some.inj h)).symm
    · split at h
      · exact absurd h (by simp)
      · rw [exec_findDirid_bind] at h
        split at h
        · exact (congrArg (·.1.1) (Option.some.inj h)).symm
        · rw [Prog.exec_bind] at h
          obtain ⟨⟨parent, w₁⟩, -, h⟩ := Option.bind_eq_some_iff.mp h
          rw [exec_uninitFileInfo_bind, Prog.exec_bind] at h
          obtain ⟨⟨d, w₂⟩, -, h⟩ := Option.bind_eq_some_iff.mp h
          exact (congrArg (·.1.1) (Option.some.inj h)).symm

/-- **The directory is found** if the names lead to one. -/
theorem exec_getDirid (hclock : Monotone clock) (hsep : Separated slash (names ++ [last]))
    (hw : Coherent tree clock w) (hfits : Fits (joinPath slash (names ++ [last]))) {d : UInt32}
    (hd : descend tree AFP_ROOT_DID names = some d) (garbage : AfpFileInfo) (basename : CString)
    (dirid : UInt32) :
    ∃ w', Prog.exec (handler tree clock garbage)
        (getDirid (joinPath slash (names ++ [last])) basename dirid) w =
          some ((0, last, d), w') ∧ Grows tree w w' := by
  rw [Fits, lastComponent_joinPath hsep, parents_joinPath hsep] at hfits
  have hnames : Separated slash names := fun part hpart => hsep part (by simp [hpart])
  rw [getDirid_joinPath hsep, if_neg (Nat.not_le.mpr hfits.1)]
  by_cases hnil : names = []
  · -- the parent is the root
    rw [if_pos hnil]
    rw [hnil] at hd
    exact ⟨w, by rw [← Option.some.inj hd]; rfl, Grows.refl tree w⟩
  rw [if_neg hnil, if_neg (Nat.not_le.mpr hfits.2), exec_findDirid_bind]
  have hnext := coherent_afterFind hclock hw (joinPath slash names)
  have hgrows : Grows tree w (afterFind clock (joinPath slash names) w) := grows_afterFind _
  by_cases hfound : (findDiridByFullname (clock w.readings) (joinPath slash names) w.cache).1 = 0
  · -- up to a known directory and down again
    rw [if_neg (not_not.mpr hfound)]
    obtain ⟨pre, mid, did, w₁, rfl, hback, hdid, hw₁, hgrows₁⟩ :=
      exec_topmostParent hclock garbage names hnil hnames hnext
    rw [Prog.exec_bind_of hback, exec_uninitFileInfo_bind]
    rw [descend_append, hdid, Option.bind_some] at hd
    obtain ⟨w₂, hforth, -, hgrows₂⟩ := exec_walkForward hclock mid hsep hdid hd hw₁ garbage
    rw [Prog.exec_bind_of hforth]
    exact ⟨w₂, rfl, (hgrows.trans hgrows₁).trans hgrows₂⟩
  · -- the parent itself is cached
    rw [if_pos hfound]
    have hdescend := descend_of_found hw rfl hfound
    rw [components_joinPath hnames, hd] at hdescend
    exact ⟨_, by rw [← Option.some.inj hdescend]; rfl, hgrows⟩

end Whole

/-- **When a path is resolved.**  On an absolute path, with a cache whose unexpired entries agree
with the tree, `get_dirid()` does what it should exactly when the parts of the path fit into its
buffers and every component before the last is a directory. -/
theorem pathResolution_iff (tree : Tree) (clock : ℕ → ℕ) (hclock : Monotone clock)
    (garbage : AfpFileInfo) (w : World) (hw : Coherent tree clock w) (path : CString)
    (hpath : path.head? = some slash) (basename : CString) (dirid : UInt32) :
    Resolves tree clock garbage w path basename dirid ↔
      Fits path ∧ ∃ d, descend tree AFP_ROOT_DID (parents path) = some d := by
  obtain ⟨names, last, hsep, rfl⟩ := exists_names hpath
  constructor
  · rintro ⟨ret, name, did, w', hexec, -, hnone, -⟩
    have hret := getDirid_absolute_returns_zero hsep hexec
    refine ⟨?_, ?_⟩
    · rw [Fits, lastComponent_joinPath hsep, parents_joinPath hsep]
      rw [getDirid_joinPath hsep] at hexec
      by_cases h₁ : AFP_MAX_PATH ≤ last.length
      · rw [if_pos h₁] at hexec
        exact absurd hexec (by simp)
      refine ⟨Nat.not_le.mp h₁, ?_⟩
      rw [if_neg h₁] at hexec
      by_cases hnil : names = []
      · rw [hnil]
        decide
      rw [if_neg hnil] at hexec
      by_cases h₂ : AFP_MAX_PATH ≤ (joinPath slash names).length
      · rw [if_pos h₂] at hexec
        exact absurd hexec (by simp)
      · exact Nat.not_le.mp h₂
    · cases hdescend : descend tree AFP_ROOT_DID (parents (joinPath slash (names ++ [last]))) with
      | none =>
        have hneg := hnone hdescend
        omega
      | some d => exact ⟨d, rfl⟩
  · rintro ⟨hfits, d, hd⟩
    rw [parents_joinPath hsep] at hd
    obtain ⟨w', hexec, hgrows⟩ := exec_getDirid hclock hsep hw hfits hd garbage basename dirid
    refine ⟨0, last, d, w', hexec, fun d' hd' => ?_, fun hnone => ?_, hgrows⟩
    · rw [parents_joinPath hsep, hd] at hd'
      rw [lastComponent_joinPath hsep]
      exact ⟨rfl, Option.some.inj hd', rfl⟩
    · rw [parents_joinPath hsep, hd] at hnone
      exact absurd hnone (by simp)

/-- A volume with a directory `a` that holds a file `f`. -/
def smallTree : Tree := fun did name =>
  if did = AFP_ROOT_DID ∧ name = [0x61] then .ok ⟨5, true⟩
  else if did = 5 ∧ name = [0x66] then .ok ⟨9, false⟩
  else .error kFPObjectNotFound

/-- The cache knows `/a`, unexpired, and has an old entry for it. -/
def smallWorld : World :=
  ⟨[⟨[0x2f, 0x61], 5, 100⟩, ⟨[0x2f, 0x61], 7, 80⟩], 0⟩

theorem coherent_smallWorld : Coherent smallTree (fun n => 105 + n) smallWorld := by
  intro entry hentry hexp
  rcases List.mem_cons.mp hentry with rfl | hentry
  · rfl
  · rw [List.mem_singleton.mp hentry] at hexp
    exact absurd (by decide) hexp

/-- `/a/f` is resolved. -/
theorem pathResolution_iff_of_file :
    Resolves smallTree (fun n => 105 + n) AfpFileInfo.zero smallWorld [0x2f, 0x61, 0x2f, 0x66]
      [] 0 :=
  (pathResolution_iff smallTree (fun n => 105 + n) (fun _ _ h => Nat.add_le_add_left h 105)
    AfpFileInfo.zero smallWorld coherent_smallWorld [0x2f, 0x61, 0x2f, 0x66] rfl [] 0).mpr
    ⟨by unfold Fits; decide, 5, rfl⟩

/-- `/a/x/f`, where `/a/x` does not exist, is not: the result is 0, and a caller that goes on to
delete `f` does so in another directory. -/
theorem missing_directory_is_not_reported :
    Coherent smallTree (fun n => 105 + n) smallWorld ∧
    descend smallTree AFP_ROOT_DID (parents [0x2f, 0x61, 0x2f, 0x78, 0x2f, 0x66]) = none ∧
    ¬ Resolves smallTree (fun n => 105 + n) AfpFileInfo.zero smallWorld
      [0x2f, 0x61, 0x2f, 0x78, 0x2f, 0x66] [] 0 := by
  have hnone : descend smallTree AFP_ROOT_DID (parents [0x2f, 0x61, 0x2f, 0x78, 0x2f, 0x66]) =
      none := rfl
  refine ⟨coherent_smallWorld, hnone, ?_⟩
  rintro ⟨ret, name, did, w', hexec, -, hneg, -⟩
  have hsep : Separated slash ([[0x61], [0x78]] ++ [[0x66]]) := by unfold Separated; decide
  have hret := getDirid_absolute_returns_zero hsep hexec
  have := hneg hnone
  omega

end PathResolution
end Afpfs
