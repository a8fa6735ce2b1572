import Afpfs.Midlevel
import Afpfs.PathResolution

/-!
# What the operations add to the cache

A program relies on a directory: some names lead to it from the root, as far as the program has
looked them up.  `Reliance.next` says how an effect and its answer change that, and `Faithful` that
the program adds to the cache only what it relies on.  No tree is mentioned, so this holds whatever
other threads do to the tree between two effects.

There is one exception in the code.  When a lookup fails, `get_dirid()` may use the result of the
lookup before and add that to the cache at once.

* `faithful_getDirid`: the resolution of an absolute path is faithful.
* `CacheOp.tame`: and so are the operations that create, remove and rename directories.
-/

set_option autoImplicit false

namespace Afpfs
namespace CacheCoherence

open Unicode Interaction Scan Did PathResolution

variable {α β : Type}

/-- Names that lead from the root to a directory. -/
structure Reliance where
  names : List CString
  did : UInt32

/-- Nothing but the root. -/
def Reliance.root : Reliance where
  names := []
  did := AFP_ROOT_DID

/-- What the cache answers for a path. -/
def Reliance.ofCache (path : CString) (did : UInt32) : Reliance :=
  if did ≠ 0 then ⟨components slash path, did⟩ else .root

/-- The names in a request. -/
def requestedNames (pathname : CString) : List CString := split slash (requestedName pathname)

/-- What a program relies on after an effect: what the cache answers, and what a lookup of
`get_dirid()` finds in the directory it relied on. -/
def Reliance.next (g : Reliance) : (e : Effect) × e.Answer → Reliance
  | ⟨.findDirid path, did⟩ => .ofCache path did
  | ⟨.request (.getFileDirParms parent filebitmap _ pathname), reply⟩ =>
    match (reply : Reply AfpFileInfo).stored with
    | some fi =>
      if filebitmap = kFPNodeIDBit ∧ parent = g.did ∧ fi.isdir then
        ⟨g.names ++ requestedNames pathname, fi.fileid⟩
      else .root
    | none => .root
  | ⟨.addDid _ _, _⟩ => g
  | ⟨.uninitFileInfo, _⟩ => g
  | _ => .root

/-- An effect adds to the cache no more than what the program relies on. -/
def Reliance.Permits (g : Reliance) : Effect → Prop
  | .addDid did path => components slash path = g.names ∧ did = g.did
  | _ => True

/-- The effect is a lookup that found nothing. -/
def FindsNothing : (e : Effect) × e.Answer → Prop
  | ⟨.request (.getFileDirParms ..), reply⟩ => (reply : Reply AfpFileInfo).stored = none
  | _ => False

/-- The effect adds to the cache. -/
def Adds : Effect → Prop
  | .addDid _ _ => True
  | _ => False

/-- The program adds to the cache next. -/
def AddsNext : AfpM α → Prop
  | .act e _ => Adds e
  | _ => False

theorem AddsNext.bind {p : AfpM α} (h : AddsNext p) (f : α → AfpM β) : AddsNext (p >>= f) := by
  cases p with
  | act e k => exact h
  | done a => exact h.elim
  | stuck => exact h.elim

/-- **The program adds only what it relies on**, unless it adds something right after a lookup that
found nothing.  `Q` is what holds of its result and of what it relies on at its end. -/
def Faithful (Q : α → Reliance → Prop) (g : Reliance) : AfpM α → Prop
  | .done a => Q a g
  | .act e k => g.Permits e ∧ ∀ answer, (FindsNothing ⟨e, answer⟩ → ¬ AddsNext (k answer)) →
      Faithful Q (g.next ⟨e, answer⟩) (k answer)
  | .stuck => True

/-- A program that adds nothing is faithful. -/
theorem Faithful.of_allActs {Q : α → Reliance → Prop} (hQ : ∀ a g, Q a g) {p : AfpM α}
    (h : p.AllActs fun e => ¬ Adds e) (g : Reliance) : Faithful Q g p := by
  induction p generalizing g with
  | done a => exact hQ a g
  | act e k ih =>
    refine ⟨?_, fun answer _ => ih answer (h.2 answer) _⟩
    cases e with
    | addDid did path => exact absurd trivial h.1
    | _ => trivial
  | stuck => trivial

theorem Faithful.mono {Q T : α → Reliance → Prop} {p : AfpM α} {g : Reliance}
    (hp : Faithful Q g p) (h : ∀ a g', Q a g' → T a g') : Faithful T g p := by
  induction p generalizing g with
  | done a => exact h a g hp
  | act e k ih => exact ⟨hp.1, fun answer hanswer => ih answer (hp.2 answer hanswer)⟩
  | stuck => trivial

/-- **Sequencing.** -/
theorem Faithful.bind {Q : α → Reliance → Prop} {T : β → Reliance → Prop} {p : AfpM α}
    {f : α → AfpM β} {g : Reliance} (hp : Faithful Q g p)
    (hf : ∀ a g', Q a g' → Faithful T g' (f a)) : Faithful T g (p >>= f) := by
  induction p generalizing g with
  | done a => exact hf a g hp
  | act e k ih =>
    exact ⟨hp.1, fun answer hanswer => ih answer (hp.2 answer fun hnothing hadds =>
      hanswer hnothing (hadds.bind f))⟩
  | stuck => trivial

section Effects

variable {Q : α → Reliance → Prop} {g : Reliance}

theorem faithful_findDirid {path : CString} {f : UInt32 → AfpM α}
    (h : ∀ did, Faithful Q (.ofCache path did) (f did)) : Faithful Q g (findDirid path >>= f) :=
  ⟨trivial, fun did _ => h did⟩

theorem faithful_addDid {path : CString} {did : UInt32} {f : Unit → AfpM α}
    (hpath : components slash path = g.names) (hdid : did = g.did) (h : Faithful Q g (f ())) :
    Faithful Q g (addDid did path >>= f) :=
  ⟨⟨hpath, hdid⟩, fun _ _ => h⟩

theorem faithful_uninitFileInfo {f : AfpFileInfo → AfpM α} (h : ∀ fi, Faithful Q g (f fi)) :
    Faithful Q g (uninitFileInfo >>= f) :=
  ⟨trivial, fun fi _ => h fi⟩

/-- The lookup of a name in the directory relied on. -/
theorem faithful_lookup {parent : UInt32} {dirbitmap : ℕ} {pathname : CString}
    {f : Reply AfpFileInfo → AfpM α} (hparent : parent = g.did)
    (hdir : ∀ rc fi, fi.isdir = true →
      Faithful Q ⟨g.names ++ requestedNames pathname, fi.fileid⟩ (f ⟨rc, some fi⟩))
    (hfile : ∀ rc fi, fi.isdir = false → Faithful Q .root (f ⟨rc, some fi⟩))
    (hnone : ∀ rc, ¬ AddsNext (f ⟨rc, none⟩) → Faithful Q .root (f ⟨rc, none⟩)) :
    Faithful Q g (afpGetfiledirparms parent kFPNodeIDBit dirbitmap pathname >>= f) := by
  refine ⟨trivial, fun reply hreply => ?_⟩
  obtain ⟨rc, stored⟩ := reply
  cases stored with
  | none => exact hnone rc (hreply rfl)
  | some fi =>
    cases hisdir : fi.isdir with
    | false =>
      have hnext : g.next ⟨.request (.getFileDirParms parent kFPNodeIDBit dirbitmap pathname),
          ⟨rc, some fi⟩⟩ = .root := if_neg (by simp [hisdir])
      rw [hnext]
      exact hfile rc fi hisdir
    | true =>
      have hnext : g.next ⟨.request (.getFileDirParms parent kFPNodeIDBit dirbitmap pathname),
          ⟨rc, some fi⟩⟩ = ⟨g.names ++ requestedNames pathname, fi.fileid⟩ :=
        if_pos ⟨rfl, hparent, hisdir⟩
      rw [hnext]
      exact hdir rc fi hisdir

end Effects

/-! ## Resolving a path -/

/-- **The way back** ends with a reliance on the prefix it found. -/
theorem faithful_topmostParent (names : List CString) (hne : names ≠ [])
    (hsep : Separated slash names) :
    Faithful (fun found g => ∃ pre mid, names = pre ++ mid ∧
        found.2 = (joinPath slash pre).length ∧ g = ⟨pre, found.1⟩)
      .root (topmostParent (joinPath slash names)) := by
  induction names using List.reverseRecOn with
  | nil => exact absurd rfl hne
  | append_singleton names last ih =>
    have hlast : slash ∉ last := hsep last (by simp)
    have hnames : Separated slash names := fun part hpart => hsep part (by simp [hpart])
    have hpos := @strrchr_append _ slash _ (joinPath slash names) last hlast
    rw [joinPath_concat]
    cases hlen : (joinPath slash names).length with
    | zero =>
      rw [hlen] at hpos
      rw [topmostParent_zero hpos]
      exact ⟨[], names ++ [last], rfl, rfl, rfl⟩
    | succ p =>
      rw [hlen] at hpos
      have htake : (joinPath slash names ++ slash :: last).take (p + 1) = joinPath slash names := by
        rw [← hlen, List.take_left]
      rw [topmostParent_succ hpos, htake]
      refine faithful_findDirid fun did => ?_
      unfold Reliance.ofCache
      split
      · -- cached
        refine ⟨names, [last], rfl, hlen.symm, ?_⟩
        rw [components_joinPath hnames]
      · -- not cached: one name further up
        have hne' : names ≠ [] := fun h => by
          rw [h, joinPath_nil] at hlen
          exact absurd hlen (by simp)
        refine (ih hne' hnames).mono ?_
        rintro found g ⟨pre, mid, rfl, hfound, hg⟩
        exact ⟨pre, mid ++ [last], List.append_assoc .., hfound, hg⟩

/-- **The way forward** adds the directories it looks up. -/
theorem faithful_walkForward (mid : List CString) {pre : List CString} {last : CString}
    (hsep : Separated slash (pre ++ mid ++ [last])) (did : UInt32) (fi : AfpFileInfo) :
    Faithful (fun _ _ => True) ⟨pre, did⟩
      (walkForward (joinPath slash (pre ++ mid ++ [last])) did (joinPath slash pre).length fi) := by
  induction mid generalizing pre did fi with
  | nil =>
    have hlast : slash ∉ last := hsep last (by simp)
    have hpos : strchr (joinPath slash (pre ++ [] ++ [last])) ((joinPath slash pre).length + 1)
        slash = none := by
      have h := @strchr_eq_none _ slash _ (joinPath slash pre ++ [slash]) last hlast
      rw [List.length_append, List.length_singleton] at h
      rw [List.append_nil, joinPath_concat, ← h, List.append_assoc, List.singleton_append]
    rw [walkForward_none hpos]
    trivial
  | cons name mid ih =>
    have hname : slash ∉ name := hsep name (by simp)
    have hassoc : pre ++ name :: mid ++ [last] = (pre ++ [name]) ++ mid ++ [last] := by simp
    obtain ⟨hpos, hcopy, htake⟩ := positions (hassoc ▸ hsep)
    have hsep' : Separated slash (pre ++ [name]) := fun part hpart => hsep part (by
      rcases List.mem_append.mp hpart with h | h
      · simp [h]
      · simp [List.mem_singleton.mp h])
    have hlen : (joinPath slash pre).length + 1 + name.length =
        (joinPath slash (pre ++ [name])).length := by
      rw [joinPath_concat, List.length_append, List.length_cons]
      omega
    rw [hassoc, walkForward_some hpos, hcopy, htake]
    have hnames : requestedNames (slash :: name) = [name] := split_of_not_mem hname
    refine faithful_lookup rfl (fun rc fi' hisdir => ?_) (fun rc fi' hisdir => ?_) fun rc hadds => ?_
    · simp only [Option.getD_some, hisdir, if_true, hnames]
      refine faithful_addDid (components_joinPath hsep') rfl ?_
      rw [hlen]
      exact ih (hassoc ▸ hsep) fi'.fileid fi'
    · simp only [Option.getD_some, hisdir, Bool.false_eq_true, if_false]
      trivial
    · simp only [Option.getD_none] at hadds ⊢
      split at hadds
      · exact absurd trivial hadds
      · rename_i hisdir
        rw [if_neg hisdir]
        trivial

/-- **The resolution of an absolute path is faithful**, whatever the program relied on before. -/
theorem faithful_getDirid {path : CString} (hpath : path.head? = some slash) (g : Reliance)
    (basename : CString) (dirid : UInt32) :
    Faithful (fun _ _ => True) g (getDirid path basename dirid) := by
  obtain ⟨names, last, hsep, rfl⟩ := exists_names hpath
  have hnames : Separated slash names := fun part hpart => hsep part (by simp [hpart])
  rw [getDirid_joinPath hsep]
  split
  · trivial
  split
  · trivial
  rename_i hne
  split
  · trivial
  refine faithful_findDirid fun did => ?_
  unfold Reliance.ofCache
  split
  · trivial
  · refine (faithful_topmostParent names hne hnames).bind fun parent g hparent => ?_
    obtain ⟨pre, mid, rfl, hpos, rfl⟩ := hparent
    refine faithful_uninitFileInfo fun fi => ?_
    rw [hpos]
    exact (faithful_walkForward mid hsep parent.1 fi).bind fun _ _ _ => trivial

/-! ## The operations -/

/-- The program is faithful whatever it relied on before. -/
def Tame (p : AfpM α) : Prop := ∀ g, Faithful (fun _ _ => True) g p

theorem Tame.bind {p : AfpM α} {f : α → AfpM β} (hp : Tame p) (hf : ∀ a, Tame (f a)) :
    Tame (p >>= f) := fun g => (hp g).bind fun a g' _ => hf a g'

theorem tame_of_allActs {p : AfpM α} (h : p.AllActs fun e => ¬ Adds e) : Tame p :=
  Faithful.of_allActs (fun _ _ => trivial) h

theorem tame_ite {c : Prop} [Decidable c] {p q : AfpM α} (hp : c → Tame p) (hq : ¬ c → Tame q) :
    Tame (if c then p else q) := by
  split
  · exact hp ‹_›
  · exact hq ‹_›

theorem tame_pure (a : α) : Tame (pure a : AfpM α) := fun _ => trivial

theorem tame_requestRc (r : Request) : Tame (requestRc r) :=
  tame_of_allActs ⟨id, fun _ => trivial⟩

theorem tame_isDir (parentdid : UInt32) (path : CString) : Tame (isDir parentdid path) := by
  refine tame_of_allActs ⟨id, fun _ => ⟨id, fun _ => ?_⟩⟩
  exact Prog.allActs_ite.mpr ⟨fun _ => trivial, fun _ => trivial⟩

theorem tame_refuseVirtual (volume : Volume) (path : CString) : Tame (refuseVirtual volume path) := by
  refine tame_of_allActs ⟨id, fun _ => ?_⟩
  exact Prog.allActs_ite.mpr ⟨fun _ => trivial, fun _ => trivial⟩

theorem tame_resolve {path : CString} (hpath : path.head? = some slash) : Tame (resolve path) :=
  fun _ => ⟨trivial, fun _ _ => ⟨trivial, fun _ _ => faithful_getDirid hpath _ _ _⟩⟩

/-- A path is converted, and the rest is skipped when that fails. -/
theorem tame_converted {encoding : Codepage.PathEncoding} {path : CString}
    {f : ℤ × CString → AfpM α} (hpath : path.head? = some slash)
    (hf : ∀ ret dest, (ret = 0 → dest.head? = some slash) → Tame (f (ret, dest))) :
    Tame (ofOption (Codepage.convertPathToAfp encoding path AFP_MAX_PATH) >>= f) := by
  cases h : Codepage.convertPathToAfp encoding path AFP_MAX_PATH with
  | none => exact fun _ => trivial
  | some converted =>
    obtain ⟨ret, dest⟩ := converted
    refine hf ret dest fun hret => ?_
    subst hret
    exact Codepage.head?_convertPathToAfp (by decide) hpath h

theorem tame_afpMlMkdir (vol : Volume) {path : CString} (hpath : path.head? = some slash) :
    Tame (afpMlMkdir vol path) := by
  refine tame_converted hpath fun ret dest hdest => ?_
  refine tame_ite (fun _ => tame_pure _) fun hret => ?_
  refine tame_ite (fun _ => tame_pure _) fun _ => tame_ite (fun _ => tame_pure _) fun _ => ?_
  refine (tame_refuseVirtual vol path).bind fun ret' => ?_
  refine tame_ite (fun _ => tame_pure _) fun _ => tame_ite (fun _ => tame_pure _) fun _ => ?_
  refine (tame_resolve (hdest (not_not.mp hret))).bind fun found => ?_
  exact (tame_requestRc _).bind fun _ => tame_pure _

theorem tame_afpMlRmdir (vol : Volume) {path : CString} (hpath : path.head? = some slash) :
    Tame (afpMlRmdir vol path) := by
  refine tame_ite (fun _ => tame_pure _) fun _ => ?_
  refine tame_converted hpath fun ret dest hdest => ?_
  refine tame_ite (fun _ => tame_pure _) fun hret => tame_ite (fun _ => tame_pure _) fun _ => ?_
  refine (tame_refuseVirtual vol path).bind fun ret' => ?_
  refine tame_ite (fun _ => tame_pure _) fun _ => tame_ite (fun _ => tame_pure _) fun _ => ?_
  refine (tame_resolve (hdest (not_not.mp hret))).bind fun found => ?_
  refine (tame_isDir _ _).bind fun directory => tame_ite (fun _ => tame_pure _) fun _ => ?_
  refine (tame_requestRc _).bind fun rc => tame_ite (fun _ => ?_) fun _ => tame_pure _
  exact tame_of_allActs ⟨id, fun _ => trivial⟩

theorem tame_afpMlRename (vol : Volume) {pathFrom pathTo : CString}
    (hfrom : pathFrom.head? = some slash) (hto : pathTo.head? = some slash) :
    Tame (afpMlRename vol pathFrom pathTo) := by
  refine tame_converted hfrom fun ret dest hdest => tame_ite (fun _ => tame_pure _) fun hret => ?_
  refine tame_converted hto fun ret' dest' hdest' => tame_ite (fun _ => tame_pure _) fun hret' => ?_
  refine tame_ite (fun _ => tame_pure _) fun _ => ?_
  refine (tame_resolve (hdest (not_not.mp hret))).bind fun source => ?_
  refine (tame_resolve (hdest' (not_not.mp hret'))).bind fun target => ?_
  refine (tame_isDir _ _).bind fun directory => ?_
  refine Tame.bind (tame_ite (fun _ => tame_requestRc _) fun _ => tame_requestRc _) fun rc => ?_
  refine tame_ite (fun _ => tame_pure _) fun _ => tame_ite (fun _ => tame_pure _) fun _ => ?_
  refine tame_ite (fun _ => ?_) fun _ => tame_ite (fun _ => tame_pure _) fun _ => tame_pure _
  exact (tame_requestRc _).bind fun _ => (tame_requestRc _).bind fun _ => tame_pure _

/-- The operations that use the cache and change directories.  `resolve` is `get_dirid()` on a path
in the encoding of the server. -/
inductive CacheOp where
  | resolve (path : CString)
  | mkdir (path : CString)
  | rmdir (path : CString)
  | rename (pathFrom pathTo : CString)
  deriving DecidableEq

/-- An operation, without its results. -/
def CacheOp.run (volume : Volume) : CacheOp → AfpM Unit
  | .resolve path => do let _ ← Afpfs.resolve path
  | .mkdir path => do let _ ← afpMlMkdir volume path
  | .rmdir path => do let _ ← afpMlRmdir volume path
  | .rename pathFrom pathTo => do let _ ← afpMlRename volume pathFrom pathTo

/-- The paths are absolute. -/
def CacheOp.Absolute : CacheOp → Prop
  | .resolve path | .mkdir path | .rmdir path => path.head? = some slash
  | .rename pathFrom pathTo => pathFrom.head? = some slash ∧ pathTo.head? = some slash

/-- **The operations are faithful.** -/
theorem CacheOp.tame (volume : Volume) {op : CacheOp} (hop : op.Absolute) :
    Tame (op.run volume) := by
  cases op with
  | resolve path => exact (tame_resolve hop).bind fun _ => tame_pure ()
  | mkdir path => exact (tame_afpMlMkdir volume hop).bind fun _ => tame_pure ()
  | rmdir path => exact (tame_afpMlRmdir volume hop).bind fun _ => tame_pure ()
  | rename pathFrom pathTo => exact (tame_afpMlRename volume hop.1 hop.2).bind fun _ => tame_pure ()

end CacheCoherence
end Afpfs
