import Afpfs.PathResolution
import Afpfs.Success

/-!
# Renaming

`afp_ml_rename()` on a server that holds a tree.  `Objects` says what a directory holds under a
name.  `Serve` is one event of the server: lookups are exact, FPMoveAndRename and FPDelete do what
they are asked for and answer `kFPNoErr`, or do nothing and answer another code.

`Renamed` is what a rename should do: success means that the object has moved, to `path_to` or into
the directory there, and an error means that nothing has changed.  The function tests whether
`path_to` is a directory by looking up the whole path in the directory that holds it, which is right
only for the root.  If there is an object in the way it deletes that and does not look at the
result, and what the codes mean at the end falls through to success.

* `ensures_resolve`, `ensures_isDir`: what the two lookups find.
* `moved_into_iff`, `moved_onto_iff`: when the two kinds of FPMoveAndRename are the rename.
* `renamed_iff`: the answers with which `afp_ml_rename()` does what it should.
* `rename_loses_destination`: a file is lost that was to be replaced.
-/

set_option autoImplicit false

namespace Afpfs
namespace Rename

open Unicode Codepage Interaction Scan PathResolution Success ReadOnly

/-! ## The tree -/

/-- What a directory holds under a name. -/
abbrev Objects := UInt32 → CString → Option Node

/-- The objects are a tree below the root. -/
structure IsTree (T : Objects) : Prop where
  /-- No name is empty. -/
  named : ∀ did, T did [] = none
  /-- The root is not held by a directory. -/
  top : ∀ did name node, T did name = some node → node.id ≠ AFP_ROOT_DID
  /-- An object is held once. -/
  unique : ∀ {did did' name name' node}, T did name = some node → T did' name' = some node →
    did = did' ∧ name = name'
  /-- No directory is below itself. -/
  acyclic : ∃ depth : UInt32 → ℕ, ∀ did name node, T did name = some node →
    depth did < depth node.id

/-- The object that a name stands for in a directory: the empty name is the directory. -/
def entry (T : Objects) (did : UInt32) (name : CString) : Option Node :=
  if name = [] then some ⟨did, true⟩ else T did name

/-- The lookups of names. -/
def lookups (T : Objects) : Tree := fun did name =>
  match entry T did name with
  | some node => .ok node
  | none => .error kFPObjectNotFound

/-- The object that a path leads to. -/
def nodeAt (T : Objects) (did : UInt32) (path : CString) : Option Node :=
  (descend (lookups T) did (parents path)).bind fun d => entry T d (lastComponent path)

/-- The path leads to a directory. -/
def LeadsToDir (T : Objects) (did : UInt32) (path : CString) : Prop :=
  ∃ node, nodeAt T did path = some node ∧ node.isdir = true

/-- There is such a directory. -/
def DirExists (T : Objects) (did : UInt32) : Prop :=
  did = AFP_ROOT_DID ∨ ∃ p n, T p n = some ⟨did, true⟩

/-- The object `node`, which `p` holds as `n`, is the one that a name stands for in a directory. -/
structure Place (T : Objects) (did : UInt32) (name : CString) (p : UInt32) (n : CString)
    (node : Node) : Prop where
  held : T p n = some node
  named : p = did ∧ n = name ∨ name = [] ∧ node = ⟨did, true⟩

/-- Put something at a place, or nothing. -/
def put (T : Objects) (p : UInt32) (n : CString) (node : Option Node) : Objects :=
  fun did name => if did = p ∧ name = n then node else T did name

/-- The object moves from one place to another. -/
def relocate (T : Objects) (p : UInt32) (n : CString) (q : UInt32) (m : CString) : Objects :=
  put (put T p n none) q m (T p n)

/-! ## The server -/

/-- FPMoveAndRename: there is nothing at the new place but possibly the object itself. -/
def Moves (T : Objects) (srcDid dstDid : UInt32) (srcPath : CString) (dstPath : Option CString)
    (newName : CString) (T' : Objects) : Prop :=
  ∃ p n node d, Place T srcDid srcPath p n node ∧
    descend (lookups T) dstDid dstPath.toList = some d ∧ DirExists T d ∧
    (∀ names, node.isdir = true → descend (lookups T) node.id names ≠ some d) ∧
    let m := if newName = [] then n else newName
    (T d m = none ∨ d = p ∧ m = n) ∧ T' = relocate T p n d m

/-- FPDelete: a directory must be empty. -/
def Deletes (T : Objects) (did : UInt32) (name : CString) (T' : Objects) : Prop :=
  ∃ p n node, Place T did name p n node ∧ (node.isdir = true → ∀ m, T node.id m = none) ∧
    T' = put T p n none

/-- The reply to a lookup is right. -/
def ExactReply (node : Option Node) (dirbitmap : ℕ) (reply : Reply AfpFileInfo) : Prop :=
  match node with
  | some node => reply.rc = kFPNoErr ∧ ∃ fi, reply.stored = some fi ∧ fi.isdir = node.isdir ∧
      (dirbitmap &&& kFPNodeIDBit ≠ 0 → fi.fileid = node.id)
  | none => reply.rc ≠ kFPNoErr ∧ reply.stored = none

/-- One event: the objects before and after it.  The cache of directory ids answers what is right,
if anything. -/
def Serve (T : Objects) : Event → Objects → Prop
  | ⟨.request (.moveAndRename srcDid dstDid srcPath dstPath newName), reply⟩, T' =>
    if reply.rc = kFPNoErr then Moves T srcDid dstDid srcPath dstPath newName T' else T' = T
  | ⟨.request (.delete did name), reply⟩, T' =>
    if reply.rc = kFPNoErr then Deletes T did name T' else T' = T
  | ⟨.request (.getFileDirParms did _ dirbitmap pathname), reply⟩, T' =>
    T' = T ∧ ExactReply (nodeAt T did (slash :: requestedName pathname)) dirbitmap reply
  | ⟨.findDirid path, did⟩, T' =>
    T' = T ∧ (did ≠ (0 : UInt32) →
      descend (lookups T) AFP_ROOT_DID (components slash path) = some did)
  | _, T' => T' = T

/-- A trace of events. -/
inductive Serves : Objects → List Event → Objects → Prop
  | nil (T : Objects) : Serves T [] T
  | cons {T T₁ T' : Objects} {ev : Event} {tr : List Event} (h : Serve T ev T₁)
      (hrest : Serves T₁ tr T') : Serves T (ev :: tr) T'

/-! ## The rename -/

/-- The path of a name on the server. -/
def serverPath (vol : Volume) (path : CString) : CString :=
  ((convertPathToAfp vol.server.pathEncoding path AFP_MAX_PATH).map Prod.snd).getD []

/-- The place of the object at `path_from`. -/
def Source (T : Objects) (pathFrom : CString) (p : UInt32) (n : CString) (node : Node) : Prop :=
  ∃ did, descend (lookups T) AFP_ROOT_DID (parents pathFrom) = some did ∧
    Place T did (lastComponent pathFrom) p n node

/-- The place that `path_to` means for an object called `n`: in the directory, if it is one. -/
def Target (T : Objects) (pathTo : CString) (n : CString) (q : UInt32) (m : CString) : Prop :=
  (∃ node, nodeAt T AFP_ROOT_DID pathTo = some node ∧ node.isdir = true ∧ q = node.id ∧ m = n) ∨
    (¬ LeadsToDir T AFP_ROOT_DID pathTo ∧
      descend (lookups T) AFP_ROOT_DID (parents pathTo) = some q ∧ m = lastComponent pathTo)

/-- The object has moved, and nothing else changed except a plain file at its new place. -/
def Moved (T : Objects) (pathFrom pathTo : CString) (T' : Objects) : Prop :=
  ∃ p n node q m, Source T pathFrom p n node ∧ Target T pathTo n q m ∧
    (∀ other, T q m = some other → other.isdir = false ∨ q = p ∧ m = n) ∧ T' = relocate T p n q m

/-- What a rename should do. -/
def Renamed (T : Objects) (pathFrom pathTo : CString) (T' : Objects) (ret : ℤ) : Prop :=
  (ret = 0 → Moved T pathFrom pathTo T') ∧ (ret < 0 → T' = T)

/-- The directories above both paths exist. -/
def ParentsExist (T : Objects) (pathFrom pathTo : CString) : Prop :=
  (∃ d, descend (lookups T) AFP_ROOT_DID (parents pathFrom) = some d) ∧
    ∃ d, descend (lookups T) AFP_ROOT_DID (parents pathTo) = some d

/-- The directory at `path_to` is found where the function looks for it: below the directory that
holds it. -/
def Recognized (T : Objects) (pathTo : CString) : Prop :=
  ∃ d, descend (lookups T) AFP_ROOT_DID (parents pathTo) = some d ∧ LeadsToDir T d pathTo

/-- `path_to` means the place where the object is. -/
def InPlace (T : Objects) (pathFrom pathTo : CString) : Prop :=
  ∃ p n node, Source T pathFrom p n node ∧ Target T pathTo n p n

/-- The codes that `afp_ml_rename()` lists as errors of the second move. -/
def moveAgainCodes : List ℤ :=
  [kFPObjectLocked, kFPAccessDenied, kFPCantRename, kFPObjectExists, kFPObjectNotFound]

/-- The answers to FPMoveAndRename, FPDelete and FPMoveAndRename for which `afp_ml_rename()` does
what it should. -/
inductive Answered (T : Objects) (pathFrom pathTo : CString) : List ℤ → Prop
  /-- Nothing is sent. -/
  | unsent : Answered T pathFrom pathTo []
  /-- The move is refused. -/
  | refused {rc : ℤ} (h : rc ∉ [kFPNoErr, kFPObjectNotFound, kFPObjectExists]) :
      Answered T pathFrom pathTo [rc]
  /-- The move is done. -/
  | moved (hparents : ParentsExist T pathFrom pathTo)
      (hdir : LeadsToDir T AFP_ROOT_DID pathTo →
        Recognized T pathTo ∨ lastComponent pathTo = []) :
      Answered T pathFrom pathTo [kFPNoErr]
  /-- Nothing can be deleted, and the second move is refused. -/
  | kept {deleted again : ℤ} (hdeleted : deleted ≠ kFPNoErr) (hagain : again ∈ moveAgainCodes) :
      Answered T pathFrom pathTo [kFPObjectExists, deleted, again]
  /-- The second move is done. -/
  | replaced {deleted : ℤ} (hparents : ParentsExist T pathFrom pathTo)
      (hdir : LeadsToDir T AFP_ROOT_DID pathTo → lastComponent pathTo = []) :
      Answered T pathFrom pathTo [kFPObjectExists, deleted, kFPNoErr]
  /-- There was nothing to be done. -/
  | unmoved (h : InPlace T pathFrom pathTo) : Answered T pathFrom pathTo [kFPObjectNotFound]
  /-- There was nothing to be done, and nothing was. -/
  | unmovedAgain {deleted again : ℤ} (h : InPlace T pathFrom pathTo)
      (hdeleted : deleted ≠ kFPNoErr) (hagain : again ≠ kFPNoErr)
      (hunlisted : again ∉ moveAgainCodes) :
      Answered T pathFrom pathTo [kFPObjectExists, deleted, again]

/-! ## Lookups -/

section Lookups

variable {T : Objects}

theorem lookups_eq_ok_iff {did : UInt32} {name : CString} {node : Node} :
    lookups T did name = .ok node ↔ entry T did name = some node := by
  rw [lookups]
  cases entry T did name with
  | none => simp
  | some node' => simp

/-- One name leads to a directory if that is what it stands for. -/
theorem descend_singleton_iff {did d : UInt32} {name : CString} :
    descend (lookups T) did [name] = some d ↔ entry T did name = some ⟨d, true⟩ := by
  rw [descend]
  cases hnode : lookups T did name with
  | error e =>
    rw [← lookups_eq_ok_iff, hnode]
    simp
  | ok node =>
    obtain ⟨id, isdir⟩ := node
    rw [lookups_eq_ok_iff.mp hnode]
    cases isdir with
    | false => simp
    | true => simp [descend]

/-- A request for one name below a directory. -/
theorem nodeAt_singleton (did : UInt32) {name : CString} (hname : slash ∉ name) :
    nodeAt T did (slash :: name) = entry T did name := by
  have hsep : Separated slash ([] ++ [name]) := fun part hpart => by
    rw [List.mem_singleton.mp hpart]
    exact hname
  have hpath : slash :: name = joinPath slash ([] ++ [name]) := (joinPath_singleton name).symm
  rw [nodeAt, hpath, parents_joinPath hsep, lastComponent_joinPath hsep]
  rfl

end Lookups

/-! ## Programs that serve -/

/-- Whenever the program returns, the codes, the objects in the end and the result satisfy `R`. -/
def Does {α : Type} (T : Objects) (R : List ℤ → Objects → α → Prop) (p : AfpM α) : Prop :=
  Prog.Returns (fun tr a => ∀ T', Serves T tr T' → R (outcomes tr) T' a) p

/-- The event is right, and changes nothing. -/
def Exact (T : Objects) (ev : Event) : Prop := Serve T ev T

section Does

variable {α β : Type} {T T' : Objects} {R : List ℤ → Objects → β → Prop}

theorem serves_append_iff {tr tr' : List Event} :
    Serves T (tr ++ tr') T' ↔ ∃ T₁, Serves T tr T₁ ∧ Serves T₁ tr' T' := by
  induction tr generalizing T with
  | nil =>
    refine ⟨fun h => ⟨T, .nil T, h⟩, ?_⟩
    rintro ⟨_, ⟨⟩, h⟩
    exact h
  | cons ev tr ih =>
    constructor
    · intro h
      cases h with
      | cons hev hrest =>
        obtain ⟨T₁, htr, htr'⟩ := ih.mp hrest
        exact ⟨T₁, .cons hev htr, htr'⟩
    · rintro ⟨T₁, h, htr'⟩
      cases h with
      | cons hev hrest => exact .cons hev (ih.mpr ⟨T₁, hrest, htr'⟩)

/-- What changes nothing. -/
theorem eq_of_serve {ev : Event} (hev : Permitted ev.1) (h : Serve T ev T') : T' = T := by
  obtain ⟨e, answer⟩ := ev
  cases e with
  | request r =>
    cases r with
    | getFileDirParms => exact h.1
    | moveAndRename => exact (Bool.false_ne_true (Eq.symm hev)).elim
    | delete => exact (Bool.false_ne_true (Eq.symm hev)).elim
    | _ => exact h
  | findDirid => exact h.1
  | _ => exact h

theorem serves_of_permitted {tr : List Event} (htr : ∀ ev ∈ tr, Permitted ev.1)
    (h : Serves T tr T') : T' = T ∧ ∀ ev ∈ tr, Exact T ev := by
  induction h with
  | nil T => exact ⟨rfl, fun ev hev => absurd hev List.not_mem_nil⟩
  | cons hev hrest ih =>
    obtain ⟨hpermitted, htr⟩ := List.forall_mem_cons.mp htr
    obtain rfl := eq_of_serve hpermitted hev
    obtain ⟨rfl, hexact⟩ := ih htr
    exact ⟨rfl, List.forall_mem_cons.mpr ⟨hev, hexact⟩⟩

theorem does_ite {c : Prop} [Decidable c] {p q : AfpM β} (hp : c → Does T R p)
    (hq : ¬ c → Does T R q) : Does T R (if c then p else q) :=
  Prog.returns_ite hp hq

/-- What changes nothing and finds out `Q`. -/
theorem does_bind_harmless {Q : α → Prop} {p : AfpM α} {f : α → AfpM β} (hp : Harmless p)
    (hQ : Prog.Ensures (Exact T) Q p) (hf : ∀ a, Q a → Does T R (f a)) :
    Does T R (p >>= f) := by
  refine .bind ((hp.returns.and hQ.returns).mono ?_)
  rintro tr a ⟨hpermitted, hexact⟩
  by_cases hall : ∀ ev ∈ tr, Exact T ev
  · refine (hf a (hexact hall)).mono fun tr' b hR T' hserves => ?_
    obtain ⟨T₁, htr, htr'⟩ := serves_append_iff.mp hserves
    obtain ⟨rfl, -⟩ := serves_of_permitted hpermitted htr
    rw [outcomes_append, outcomes_of_permitted hpermitted]
    exact hR T' htr'
  · refine (Prog.returns_true (f a)).mono fun tr' b _ T' hserves => ?_
    obtain ⟨T₁, htr, -⟩ := serves_append_iff.mp hserves
    exact absurd (serves_of_permitted hpermitted htr).2 hall

theorem does_bind_ofOption {o : Option α} {f : α → AfpM β} (hf : ∀ a, o = some a → Does T R (f a)) :
    Does T R (ofOption o >>= f) := by
  cases o with
  | none => trivial
  | some a => exact hf a rfl

/-- After the first event. -/
theorem returns_of_serve {r : Request} {reply : Reply r.Payload} {p : AfpM β}
    (h : ∀ T₁, Serve T ⟨.request r, reply⟩ T₁ →
      Does T₁ (fun codes T' b => R ((outcome ⟨.request r, reply⟩).toList ++ codes) T' b) p) :
    Prog.Returns (fun tr b => ∀ T', Serves T (⟨.request r, reply⟩ :: tr) T' →
      R (outcomes (⟨.request r, reply⟩ :: tr)) T' b) p := by
  have hall := Prog.returns_forall fun T₁ => Prog.returns_forall fun hserve => h T₁ hserve
  refine hall.mono fun tr b h T' hserves => ?_
  cases hserves with
  | cons hev hrest =>
    have hR := h _ hev T' hrest
    have hcodes : outcomes (⟨.request r, reply⟩ :: tr) =
        (outcome ⟨.request r, reply⟩).toList ++ outcomes tr := by
      rw [outcomes, List.filterMap_cons]
      cases outcome ⟨.request r, reply⟩ <;> rfl
    rw [hcodes]
    exact hR

/-- A move is done or nothing happens. -/
theorem does_bind_move {srcDid dstDid : UInt32} {srcPath : CString} {dstPath : Option CString}
    {newName : CString} {f : ℤ → AfpM β}
    (hdone : ∀ T₁, Moves T srcDid dstDid srcPath dstPath newName T₁ →
      Does T₁ (fun codes T' b => R (kFPNoErr :: codes) T' b) (f kFPNoErr))
    (hnot : ∀ rc, rc ≠ kFPNoErr → Does T (fun codes T' b => R (rc :: codes) T' b) (f rc)) :
    Does T R (requestRc (.moveAndRename srcDid dstDid srcPath dstPath newName) >>= f) := by
  rintro ⟨rc, stored⟩
  refine returns_of_serve fun T₁ hserve => ?_
  have hcase : if rc = kFPNoErr then Moves T srcDid dstDid srcPath dstPath newName T₁
      else T₁ = T := hserve
  by_cases hrc : rc = kFPNoErr
  · rw [if_pos hrc] at hcase
    subst hrc
    exact hdone T₁ hcase
  · rw [if_neg hrc] at hcase
    subst hcase
    exact hnot rc hrc

/-- An object is deleted or nothing happens. -/
theorem does_bind_delete {did : UInt32} {name : CString} {f : ℤ → AfpM β}
    (hdone : ∀ T₁, Deletes T did name T₁ →
      Does T₁ (fun codes T' b => R (kFPNoErr :: codes) T' b) (f kFPNoErr))
    (hnot : ∀ rc, rc ≠ kFPNoErr → Does T (fun codes T' b => R (rc :: codes) T' b) (f rc)) :
    Does T R (requestRc (.delete did name) >>= f) := by
  rintro ⟨rc, stored⟩
  refine returns_of_serve fun T₁ hserve => ?_
  have hcase : if rc = kFPNoErr then Deletes T did name T₁ else T₁ = T := hserve
  by_cases hrc : rc = kFPNoErr
  · rw [if_pos hrc] at hcase
    subst hrc
    exact hdone T₁ hcase
  · rw [if_neg hrc] at hcase
    subst hcase
    exact hnot rc hrc

end Does

/-! ## What the lookups find -/

section Resolve

variable {T : Objects} {names : List CString} {last : CString}

theorem Separated.left {l₁ l₂ : List CString} (h : Separated slash (l₁ ++ l₂)) :
    Separated slash l₁ := fun part hpart => h part (List.mem_append_left l₂ hpart)

/-- **The way back** ends at a directory on the path. -/
theorem ensures_topmostParent (names : List CString) (hsep : Separated slash names)
    (hne : names ≠ []) :
    Prog.Ensures (Exact T) (fun res => ∃ pre mid, names = pre ++ mid ∧
      res.2 = (joinPath slash pre).length ∧
        descend (lookups T) AFP_ROOT_DID pre = some res.1) (topmostParent (joinPath slash names)) := by
  induction names using List.reverseRecOn with
  | nil => exact absurd rfl hne
  | append_singleton names last ih =>
    have hlast : slash ∉ last := hsep last (by simp)
    have hnames := Separated.left hsep
    rw [joinPath_concat]
    have hpos := @strrchr_append _ slash _ (joinPath slash names) last hlast
    cases hlen : (joinPath slash names).length with
    | zero =>
      rw [hlen] at hpos
      rw [topmostParent_zero hpos]
      exact ⟨[], names ++ [last], rfl, rfl, rfl⟩
    | succ p =>
      rw [hlen] at hpos
      have htake : (joinPath slash names ++ slash :: last).take (p + 1) = joinPath slash names := by
        rw [← hlen, List.take_left]
      rw [topmostParent_succ hpos, htake]
      intro (did : UInt32) hdid
      change Prog.Ensures _ _ (if did ≠ 0 then pure (did, p + 1)
        else topmostParent (joinPath slash names))
      by_cases hfound : did = 0
      · -- not cached: one name further up
        have hne' : names ≠ [] := fun h => by
          rw [h, joinPath_nil] at hlen
          exact absurd hlen (by simp)
        rw [if_neg (not_not.mpr hfound)]
        refine (ih hnames hne').mono ?_
        rintro res ⟨pre, mid, rfl, hres⟩
        exact ⟨pre, mid ++ [last], List.append_assoc .., hres⟩
      · -- cached
        rw [if_pos hfound]
        have hdescend := hdid.2 hfound
        rw [components_joinPath hnames] at hdescend
        exact ⟨names, [last], rfl, hlen.symm, hdescend⟩

/-- **The way forward** follows the names of directories to the last of them. -/
theorem ensures_walkForward (mid : List CString) {pre : List CString}
    (hsep : Separated slash (pre ++ mid ++ [last])) {did d : UInt32}
    (hd : descend (lookups T) did mid = some d) (fi : AfpFileInfo) :
    Prog.Ensures (Exact T) (· = d)
      (walkForward (joinPath slash (pre ++ mid ++ [last])) did (joinPath slash pre).length fi) := by
  induction mid generalizing pre did fi with
  | nil =>
    have hlast : slash ∉ last := hsep last (by simp)
    have hpos : strchr (joinPath slash (pre ++ [] ++ [last])) ((joinPath slash pre).length + 1)
        slash = none := by
      have h := @strchr_eq_none _ slash _ (joinPath slash pre ++ [slash]) last hlast
      rw [List.length_append, List.length_singleton] at h
      rw [List.append_nil, joinPath_concat, ← h, List.append_assoc, List.singleton_append]
    rw [walkForward_none hpos]
    exact Option.some.inj hd
  | cons name mid ih =>
    rw [descend] at hd
    cases hnode : lookups T did name with
    | error e => rw [hnode] at hd; exact absurd hd (by simp)
    | ok node =>
      rw [hnode] at hd
      simp only at hd
      cases hdir : node.isdir with
      | false => rw [hdir] at hd; exact absurd hd (by simp)
      | true =>
        rw [hdir, if_pos rfl] at hd
        have hname : slash ∉ name := hsep name (by simp)
        have hassoc : pre ++ name :: mid ++ [last] = (pre ++ [name]) ++ mid ++ [last] := by simp
        obtain ⟨hpos, hcopy, htake⟩ := positions (hassoc ▸ hsep)
        rw [hassoc, walkForward_some hpos, hcopy, htake]
        rintro ⟨rc, stored⟩ ⟨-, hexact⟩
        -- the reply is the entry
        have hnodeAt : nodeAt T did (slash :: name) = some node := by
          rw [nodeAt_singleton did hname, lookups_eq_ok_iff.mp hnode]
        have hrequested : slash :: requestedName (slash :: name) = slash :: name := rfl
        rw [hrequested, hnodeAt] at hexact
        obtain ⟨-, fi', hstored, hisdir, hid⟩ := hexact
        have hstored : stored = some fi' := hstored
        subst hstored
        have hfileid : fi'.fileid = node.id := hid (by decide)
        have hlen : (joinPath slash pre).length + 1 + name.length =
            (joinPath slash (pre ++ [name])).length := by
          rw [joinPath_concat, List.length_append, List.length_cons]
          omega
        change Prog.Ensures _ _ (if fi'.isdir = true then _ else _)
        rw [hisdir, if_pos hdir]
        intro answer hadded
        rw [Option.getD_some, hfileid, hlen]
        exact ih (hassoc ▸ hsep) hd fi'

/-- What is known of a resolved path: the name, and the directory if there is one. -/
def Found (T : Objects) (path : CString) (found : ℤ × CString × UInt32) : Prop :=
  found.2.1 = lastComponent path ∧
    ∀ d, descend (lookups T) AFP_ROOT_DID (parents path) = some d → found.2.2 = d

/-- **A resolved path.** -/
theorem ensures_resolve {path : CString} (hpath : path.head? = some slash) :
    Prog.Ensures (Exact T) (Found T path) (resolve path) := by
  obtain ⟨names, last, hsep, rfl⟩ := exists_names hpath
  have hnames := Separated.left hsep
  intro (basename : CString) _ (dirid : UInt32) _
  change Prog.Ensures _ _ (getDirid (joinPath slash (names ++ [last])) basename dirid)
  rw [getDirid_joinPath hsep]
  have hname := (lastComponent_joinPath hsep).symm
  have hparents := parents_joinPath hsep
  split
  · trivial
  split
  next hnil =>
    subst hnil
    refine ⟨hname, fun d hd => ?_⟩
    rw [hparents] at hd
    exact Option.some.inj hd
  next hnil =>
  split
  · trivial
  intro (newdid : UInt32) hnewdid
  change Prog.Ensures _ _ (if newdid ≠ 0 then pure (0, last, newdid) else _)
  by_cases hfound : newdid = 0
  · rw [if_neg (not_not.mpr hfound)]
    refine (ensures_topmostParent names hnames hnil).bind ?_
    rintro ⟨parent, pos⟩ ⟨pre, mid, rfl, rfl, hpre⟩
    intro (fi : AfpFileInfo) _
    by_cases hd : ∃ d, descend (lookups T) parent mid = some d
    · obtain ⟨d, hd⟩ := hd
      refine (ensures_walkForward mid hsep hd fi).bind fun did hdid => ⟨hname, fun d' hd' => ?_⟩
      rw [hparents, descend_append, hpre, Option.bind_some, hd] at hd'
      exact hdid.trans (Option.some.inj hd')
    · have hall : Prog.Ensures (Exact T) (fun _ : UInt32 => True)
          (walkForward (joinPath slash (pre ++ mid ++ [last])) parent (joinPath slash pre).length fi) :=
        Prog.ensures_of_forall (fun _ => trivial) _
      refine hall.bind fun did _ => ⟨hname, fun d hd' => ?_⟩
      rw [hparents, descend_append, hpre, Option.bind_some] at hd'
      exact absurd ⟨d, hd'⟩ hd
  · rw [if_pos hfound]
    have hdescend := hnewdid.2 hfound
    rw [components_joinPath hnames] at hdescend
    refine ⟨hname, fun d hd => ?_⟩
    rw [hparents, hdescend] at hd
    exact Option.some.inj hd

/-- The test for a directory. -/
theorem ensures_isDir {path : CString} (hpath : path.head? = some slash) (did : UInt32) :
    Prog.Ensures (Exact T) (fun directory => directory = true ↔ LeadsToDir T did path)
      (isDir did path) := by
  intro (fi : AfpFileInfo) _
  rintro ⟨rc, stored⟩ ⟨-, hexact⟩
  have hrequested : slash :: requestedName path = path := by
    obtain ⟨rest, rfl⟩ : ∃ rest, path = slash :: rest := by
      cases path with
      | nil => exact absurd hpath (by simp)
      | cons b rest => exact ⟨rest, by rw [Option.some.inj hpath]⟩
    rfl
  rw [hrequested] at hexact
  let stored' : Option AfpFileInfo := stored
  change Prog.Ensures _ _ (if rc ≠ 0 then pure false else pure (stored'.getD fi).isdir)
  cases hnode : nodeAt T did path with
  | none =>
    rw [hnode] at hexact
    have hrc : rc ≠ 0 := hexact.1
    rw [if_pos hrc]
    refine iff_of_false Bool.false_ne_true ?_
    rintro ⟨node, hsome, -⟩
    exact absurd (hnode.symm.trans hsome) (by simp)
  | some node =>
    rw [hnode] at hexact
    obtain ⟨rfl, fi', rfl, hisdir, -⟩ := hexact
    rw [if_neg (by decide)]
    refine ⟨fun h => ⟨node, hnode, hisdir.symm.trans h⟩, ?_⟩
    rintro ⟨node', hsome, hdir⟩
    obtain rfl := Option.some.inj (hnode.symm.trans hsome)
    exact hisdir.trans hdir

end Resolve

/-! ## Places -/

section Places

variable {T T' : Objects} {did d : UInt32} {name n n' m : CString} {p p' q : UInt32}
  {node node' : Node}

@[simp] theorem put_self (T : Objects) (p : UInt32) (n : CString) (o : Option Node) :
    put T p n o p n = o := if_pos ⟨rfl, rfl⟩

theorem put_of_ne {o : Option Node} (h : ¬ (q = p ∧ m = n)) : put T p n o q m = T q m := if_neg h

theorem held_of_put_none (h : put T p n none q m = some node) :
    ¬ (q = p ∧ m = n) ∧ T q m = some node := by
  by_cases hplace : q = p ∧ m = n
  · rw [hplace.1, hplace.2, put_self] at h
    exact absurd h (by simp)
  · rw [put_of_ne hplace] at h
    exact ⟨hplace, h⟩

theorem relocate_self (T : Objects) (p : UInt32) (n : CString) : relocate T p n p n = T := by
  funext q m
  by_cases hplace : q = p ∧ m = n
  · rw [hplace.1, hplace.2, relocate, put_self]
  · rw [relocate, put_of_ne hplace, put_of_ne hplace]

@[simp] theorem relocate_target (T : Objects) (p : UInt32) (n : CString) (q : UInt32)
    (m : CString) : relocate T p n q m q m = T p n := put_self ..

theorem Place.eq (hT : IsTree T) (h : Place T did name p n node)
    (h' : Place T did name p' n' node') : p = p' ∧ n = n' ∧ node = node' := by
  have hnonempty : ∀ {q m other}, T q m = some other → m ≠ [] := fun hheld hnil => by
    rw [hnil, hT.named] at hheld
    exact absurd hheld (by simp)
  have hsame : p = p' ∧ n = n' := by
    rcases h.named with ⟨hp, hn⟩ | ⟨hname, hnode⟩ <;>
      rcases h'.named with ⟨hp', hn'⟩ | ⟨hname', hnode'⟩
    · exact ⟨hp.trans hp'.symm, hn.trans hn'.symm⟩
    · exact absurd (hn.trans hname') (hnonempty h.held)
    · exact absurd (hn'.trans hname) (hnonempty h'.held)
    · exact hT.unique (h.held.trans (congrArg some hnode)) (h'.held.trans (congrArg some hnode'))
  obtain ⟨rfl, rfl⟩ := hsame
  exact ⟨rfl, rfl, Option.some.inj (h.held.symm.trans h'.held)⟩

/-- A place in what is left is a place. -/
theorem Place.of_put_none (h : Place (put T q m none) did name p n node) :
    Place T did name p n node := ⟨(held_of_put_none h.held).2, h.named⟩

/-- An object that stays where it is. -/
theorem eq_of_relocate_eq_self (hheld : T p n = some node) (h : relocate T p n q m = T) :
    q = p ∧ m = n := by
  by_contra hne
  have hgone : relocate T p n q m p n = none := by
    rw [relocate, put_of_ne fun hplace => hne ⟨hplace.1.symm, hplace.2.symm⟩, put_self]
  rw [h, hheld] at hgone
  exact absurd hgone (by simp)

theorem moved_self_iff {pathFrom pathTo : CString} :
    Moved T pathFrom pathTo T ↔ InPlace T pathFrom pathTo := by
  constructor
  · rintro ⟨p, n, node, q, m, ⟨did, hdid, hplace⟩, htarget, -, hT'⟩
    obtain ⟨rfl, rfl⟩ := eq_of_relocate_eq_self hplace.held hT'.symm
    exact ⟨q, m, node, ⟨did, hdid, hplace⟩, htarget⟩
  · rintro ⟨p, n, node, hsource, htarget⟩
    exact ⟨p, n, node, p, n, hsource, htarget, fun _ _ => .inr ⟨rfl, rfl⟩,
      (relocate_self T p n).symm⟩

/-- The directory that a path leads to. -/
theorem nodeAt_eq {path : CString}
    (h : descend (lookups T) AFP_ROOT_DID (parents path) = some d) :
    nodeAt T AFP_ROOT_DID path = entry T d (lastComponent path) := by
  rw [nodeAt, h, Option.bind_some]

theorem exists_parent {path : CString} (h : LeadsToDir T AFP_ROOT_DID path) :
    ∃ d, descend (lookups T) AFP_ROOT_DID (parents path) = some d := by
  obtain ⟨node, hnode, -⟩ := h
  obtain ⟨d, hd, -⟩ := Option.bind_eq_some_iff.mp hnode
  exact ⟨d, hd⟩

/-- If the target is known there is a directory above it. -/
theorem Target.exists_parent {pathTo : CString} (h : Target T pathTo n q m) :
    ∃ d, descend (lookups T) AFP_ROOT_DID (parents pathTo) = some d := by
  rcases h with ⟨node, hnode, hdir, -⟩ | ⟨-, hd, -⟩
  · exact Rename.exists_parent ⟨node, hnode, hdir⟩
  · exact ⟨q, hd⟩

theorem Moved.parentsExist {pathFrom pathTo : CString} (h : Moved T pathFrom pathTo T') :
    ParentsExist T pathFrom pathTo := by
  obtain ⟨p, n, node, q, m, ⟨did, hdid, -⟩, htarget, -, -⟩ := h
  exact ⟨⟨did, hdid⟩, htarget.exists_parent⟩

/-- What was put away at the new place does not matter. -/
theorem relocate_put_none (h : ¬ (p = q ∧ n = m)) :
    relocate (put T q m none) p n q m = relocate T p n q m := by
  funext q' m'
  by_cases hplace : q' = q ∧ m' = m
  · rw [hplace.1, hplace.2, relocate_target, relocate_target, put_of_ne h]
  · rw [relocate, relocate, put_of_ne hplace, put_of_ne hplace]
    by_cases hold : q' = p ∧ m' = n
    · rw [hold.1, hold.2, put_self, put_self]
    · rw [put_of_ne hold, put_of_ne hold, put_of_ne hplace]

end Places

/-! ## The two moves -/

section TwoMoves

variable {T T₁ T' : Objects} {pathFrom pathTo : CString} {didFrom didTo : UInt32}

/-- **The move into a directory**, the last component of `path_to`, is the rename if the
directories above the paths are known. -/
theorem moved_into_iff
    (hfrom : ∀ d, descend (lookups T) AFP_ROOT_DID (parents pathFrom) = some d → didFrom = d)
    (hto : ∀ d, descend (lookups T) AFP_ROOT_DID (parents pathTo) = some d → didTo = d)
    (hmoves : Moves T didFrom didTo (lastComponent pathFrom) (some (lastComponent pathTo))
      (lastComponent pathFrom) T') :
    Moved T pathFrom pathTo T' ↔ ParentsExist T pathFrom pathTo := by
  refine ⟨Moved.parentsExist, ?_⟩
  rintro ⟨⟨dFrom, hdFrom⟩, dTo, hdTo⟩
  obtain rfl := hfrom dFrom hdFrom
  obtain rfl := hto dTo hdTo
  obtain ⟨p, n, node, d, hplace, hd, -, -, hfree, rfl⟩ := hmoves
  have hname : (if lastComponent pathFrom = [] then n else lastComponent pathFrom) = n := by
    rcases hplace.named with ⟨-, hn⟩ | ⟨hnil, -⟩
    · rw [hn, ite_self]
    · rw [if_pos hnil]
  rw [hname] at hfree ⊢
  have hdir : nodeAt T AFP_ROOT_DID pathTo = some ⟨d, true⟩ := by
    rw [nodeAt_eq hdTo]
    exact descend_singleton_iff.mp hd
  refine ⟨p, n, node, d, n, ⟨didFrom, hdFrom, hplace⟩, .inl ⟨_, hdir, rfl, rfl, rfl⟩, ?_, rfl⟩
  intro other hother
  rcases hfree with hnone | hsame
  · exact absurd (hnone.symm.trans hother) (by simp)
  · exact .inr hsame

/-- An object is where it was moved to. -/
theorem not_moved_of_leadsToDir (hT : IsTree T) {p : UInt32} {n : CString} {node : Node}
    (hdFrom : ∀ d, descend (lookups T) AFP_ROOT_DID (parents pathFrom) = some d → didFrom = d)
    (hplace : Place T didFrom (lastComponent pathFrom) p n node)
    (hdTo : descend (lookups T) AFP_ROOT_DID (parents pathTo) = some didTo)
    (hdir : LeadsToDir T AFP_ROOT_DID pathTo) (hlast : lastComponent pathTo ≠ [])
    (hthere : T' didTo (lastComponent pathTo) = some node) : ¬ Moved T pathFrom pathTo T' := by
  rintro ⟨p', n', node', q, m, ⟨did, hdid, hplace'⟩, htarget, -, rfl⟩
  obtain rfl := hdFrom did hdid
  obtain ⟨rfl, rfl, rfl⟩ := hplace.eq hT hplace'
  -- the directory at `path_to`
  obtain ⟨⟨dir, isdir⟩, hnode, rfl⟩ := hdir
  have hheld : T didTo (lastComponent pathTo) = some ⟨dir, true⟩ := by
    rw [nodeAt_eq hdTo, entry, if_neg hlast] at hnode
    exact hnode
  rcases htarget with ⟨other, hother, -, rfl, rfl⟩ | ⟨hnot, -⟩
  · obtain rfl := Option.some.inj (hnode.symm.trans hother)
    obtain ⟨depth, hdepth⟩ := hT.acyclic
    have hne : didTo ≠ dir := fun h => by
      have hlt := hdepth _ _ _ hheld
      rw [h] at hlt
      exact absurd hlt (Nat.lt_irrefl _)
    rw [relocate, put_of_ne fun h => hne h.1] at hthere
    obtain ⟨hother, hthere⟩ := held_of_put_none hthere
    exact hother (hT.unique hthere hplace.held)
  · exact hnot ⟨_, hnode, rfl⟩

/-- A directory is gone when it was deleted. -/
theorem not_dirExists_of_deleted (hT : IsTree T) {did p : UInt32} {n : CString} {node : Node}
    (hplace : Place T did [] p n node) : ¬ DirExists (put T p n none) did := by
  have hnode : node = ⟨did, true⟩ := by
    rcases hplace.named with ⟨-, rfl⟩ | ⟨-, hnode⟩
    · have hheld := hplace.held
      rw [hT.named] at hheld
      exact absurd hheld (by simp)
    · exact hnode
  have hheld := hplace.held
  rw [hnode] at hheld
  rintro (rfl | ⟨p', n', hheld'⟩)
  · exact hT.top _ _ _ hheld rfl
  · obtain ⟨hother, hheld'⟩ := held_of_put_none hheld'
    exact hother (hT.unique hheld' hheld)

/-- **The move onto `path_to`**, possibly after deleting what was there, is the rename unless
`path_to` is a directory.  With a separator at its end `path_to` is the directory above its last
component. -/
theorem moved_onto_iff (hT : IsTree T)
    (hfrom : ∀ d, descend (lookups T) AFP_ROOT_DID (parents pathFrom) = some d → didFrom = d)
    (hto : ∀ d, descend (lookups T) AFP_ROOT_DID (parents pathTo) = some d → didTo = d)
    (hbefore : T₁ = T ∨ Deletes T didTo (lastComponent pathTo) T₁)
    (hmoves : Moves T₁ didFrom didTo (lastComponent pathFrom) none (lastComponent pathTo) T') :
    Moved T pathFrom pathTo T' ↔ ParentsExist T pathFrom pathTo ∧
      (LeadsToDir T AFP_ROOT_DID pathTo → lastComponent pathTo = []) := by
  obtain ⟨p, n, node, d, hplace₁, hd, hexists, -, hfree, rfl⟩ := hmoves
  obtain rfl := Option.some.inj hd
  have hplace : Place T didFrom (lastComponent pathFrom) p n node := by
    rcases hbefore with rfl | ⟨p', n', node', -, -, rfl⟩
    · exact hplace₁
    · exact hplace₁.of_put_none
  constructor
  · intro hmoved
    refine ⟨hmoved.parentsExist, fun hdir => by_contra fun hlast => ?_⟩
    obtain ⟨dTo, hdTo⟩ := hmoved.parentsExist.2
    obtain rfl := hto dTo hdTo
    refine not_moved_of_leadsToDir hT hfrom hplace hdTo hdir hlast ?_ hmoved
    rw [if_neg hlast, relocate_target]
    exact hplace₁.held
  · rintro ⟨⟨⟨dFrom, hdFrom⟩, dTo, hdTo⟩, hdir⟩
    obtain rfl := hfrom dFrom hdFrom
    obtain rfl := hto dTo hdTo
    by_cases hlast : lastComponent pathTo = []
    · -- the directory itself cannot have been deleted
      have hnode : nodeAt T AFP_ROOT_DID pathTo = some ⟨didTo, true⟩ := by
        rw [nodeAt_eq hdTo, entry, if_pos hlast]
      rw [if_pos hlast] at hfree ⊢
      have hsame : T₁ = T := by
        rcases hbefore with h | ⟨p', n', node', hplace', -, rfl⟩
        · exact h
        · exact absurd hexists (not_dirExists_of_deleted hT (hlast ▸ hplace'))
      subst hsame
      refine ⟨p, n, node, didTo, n, ⟨didFrom, hdFrom, hplace⟩, .inl ⟨_, hnode, rfl, rfl, rfl⟩,
        fun other hother => ?_, rfl⟩
      rcases hfree with hnone | hsame
      · exact absurd (hnone.symm.trans hother) (by simp)
      · exact .inr hsame
    · have hnotdir : ¬ LeadsToDir T AFP_ROOT_DID pathTo := fun h => hlast (hdir h)
      have hentry : nodeAt T AFP_ROOT_DID pathTo = T didTo (lastComponent pathTo) := by
        rw [nodeAt_eq hdTo, entry, if_neg hlast]
      rw [if_neg hlast] at hfree ⊢
      refine ⟨p, n, node, didTo, lastComponent pathTo, ⟨didFrom, hdFrom, hplace⟩,
        .inr ⟨hnotdir, hdTo, rfl⟩, fun other hother => .inl ?_, ?_⟩
      · by_contra hisdir
        exact hnotdir ⟨other, hentry.trans hother, eq_true_of_ne_false hisdir⟩
      · rcases hbefore with rfl | ⟨p', n', node', hplace', -, rfl⟩
        · rfl
        · rcases hplace'.named with ⟨rfl, rfl⟩ | ⟨hnil, -⟩
          · exact relocate_put_none (held_of_put_none hplace₁.held).1
          · exact absurd hnil hlast

end TwoMoves

/-! ## The operation -/

section Operation

variable {T T₁ T' : Objects} {pathFrom pathTo : CString} {didFrom didTo : UInt32}

/-- Nothing was sent or all was refused. -/
theorem renamed_of_refused {ret : ℤ} (hret : ret < 0) : Renamed T pathFrom pathTo T ret :=
  ⟨fun h => absurd hret (Int.not_lt.mpr (Int.le_of_eq h.symm)), fun _ => rfl⟩

theorem renamed_zero_iff : Renamed T pathFrom pathTo T' 0 ↔ Moved T pathFrom pathTo T' :=
  ⟨fun h => h.1 rfl, fun h => ⟨fun _ => h, fun hlt => absurd hlt (Int.lt_irrefl 0)⟩⟩

theorem moveAgainErr_cases (rc : ℤ) :
    rc ∈ moveAgainCodes ∧ 0 < moveAgainErr rc ∨ rc ∉ moveAgainCodes ∧ moveAgainErr rc = 0 := by
  simp only [moveAgainErr, moveAgainCodes, List.mem_cons, List.not_mem_nil, or_false]
  split_ifs with h₁ h₂ h₃
  · exact .inl ⟨by tauto, by decide⟩
  · exact .inl ⟨by tauto, by decide⟩
  · exact .inl ⟨by tauto, by decide⟩
  · exact .inr ⟨by tauto, rfl⟩

/-- An object that was deleted is not where it was, whatever the result. -/
theorem not_renamed_of_deleted (hT : IsTree T) {name : CString} {ret : ℤ}
    (hdeletes : Deletes T didTo name T') (hret : ret ≤ 0) : ¬ Renamed T pathFrom pathTo T' ret := by
  obtain ⟨p', n', node', hplace', -, rfl⟩ := hdeletes
  have hchanged : put T p' n' none ≠ T := fun h => by
    have hheld := hplace'.held
    rw [← h, put_self] at hheld
    exact absurd hheld (by simp)
  rintro ⟨hmoved, hsame⟩
  rcases Int.lt_or_eq_of_le hret with hneg | hzero
  · exact hchanged (hsame hneg)
  · obtain ⟨p, n, node, q, m, ⟨did, hdid, hplace⟩, -, -, hput⟩ := hmoved hzero
    -- the object would still be held where it was moved to
    have hthere : put T p' n' none q m = some node := by
      rw [hput, relocate_target]
      exact hplace.held
    obtain ⟨rfl, rfl⟩ := hT.unique (held_of_put_none hthere).2 hplace.held
    rw [relocate_self] at hput
    exact hchanged hput

/-- What follows when there is an object in the way. -/
theorem does_replace (hT : IsTree T)
    (hfrom : ∀ d, descend (lookups T) AFP_ROOT_DID (parents pathFrom) = some d → didFrom = d)
    (hto : ∀ d, descend (lookups T) AFP_ROOT_DID (parents pathTo) = some d → didTo = d) :
    Does T (fun codes T' ret => Renamed T pathFrom pathTo T' ret ↔
        Answered T pathFrom pathTo (kFPObjectExists :: codes)) (do
      let _ ← requestRc (.delete didTo (lastComponent pathTo))
      let rc ← requestRc (.moveAndRename didFrom didTo (lastComponent pathFrom) none
        (lastComponent pathTo))
      return -moveAgainErr rc : AfpM ℤ) := by
  have hdone : ∀ {T₁ T' : Objects} {deleted : ℤ},
      (T₁ = T ∨ Deletes T didTo (lastComponent pathTo) T₁) →
      Moves T₁ didFrom didTo (lastComponent pathFrom) none (lastComponent pathTo) T' →
      (Renamed T pathFrom pathTo T' (-moveAgainErr kFPNoErr) ↔
        Answered T pathFrom pathTo [kFPObjectExists, deleted, kFPNoErr]) := by
    intro T₁ T' deleted hbefore hmoves
    rw [show -moveAgainErr kFPNoErr = 0 by decide, renamed_zero_iff,
      moved_onto_iff hT hfrom hto hbefore hmoves]
    constructor
    · rintro ⟨hparents, hdir⟩
      exact .replaced hparents hdir
    · intro h
      cases h with
      | kept hdeleted hagain => exact absurd hagain (by decide)
      | replaced hparents hdir => exact ⟨hparents, hdir⟩
      | unmovedAgain h hdeleted hagain hunlisted => exact absurd rfl hagain
  refine does_bind_delete (fun T₁ hdeletes => ?_) fun deleted hdeleted => ?_
  · refine does_bind_move (fun T' hmoves T'' hserves => ?_) fun again hagain T' hserves => ?_
    · cases hserves
      exact hdone (.inr hdeletes) hmoves
    · cases hserves
      refine iff_of_false (not_renamed_of_deleted hT hdeletes ?_) fun h => ?_
      · rcases moveAgainErr_cases again with ⟨-, hpos⟩ | ⟨-, hzero⟩
        · exact Int.le_of_lt (Int.neg_neg_of_pos hpos)
        · rw [hzero]
          exact Int.le_refl 0
      · cases h with
        | kept hdeleted => exact hdeleted rfl
        | replaced => exact hagain rfl
        | unmovedAgain h hdeleted => exact hdeleted rfl
  · refine does_bind_move (fun T' hmoves T'' hserves => ?_) fun again hagain T' hserves => ?_
    · cases hserves
      exact hdone (.inl rfl) hmoves
    · cases hserves
      rcases moveAgainErr_cases again with ⟨hlisted, hpos⟩ | ⟨hunlisted, hzero⟩
      · exact iff_of_true (renamed_of_refused (Int.neg_neg_of_pos hpos)) (.kept hdeleted hlisted)
      · rw [hzero, Int.neg_zero, renamed_zero_iff, moved_self_iff]
        refine ⟨fun h => .unmovedAgain h hdeleted hagain hunlisted, fun h => ?_⟩
        cases h with
        | kept hdeleted hlisted => exact absurd hlisted hunlisted
        | replaced => exact absurd rfl hagain
        | unmovedAgain h => exact h

/-- What follows the first move. -/
theorem does_answer (hT : IsTree T)
    (hfrom : ∀ d, descend (lookups T) AFP_ROOT_DID (parents pathFrom) = some d → didFrom = d)
    (hto : ∀ d, descend (lookups T) AFP_ROOT_DID (parents pathTo) = some d → didTo = d)
    {rc : ℤ} (hrc : rc ≠ kFPNoErr) :
    Does T (fun codes T' ret => Renamed T pathFrom pathTo T' ret ↔
        Answered T pathFrom pathTo (rc :: codes))
      (if rc = kFPObjectLocked ∨ rc = kFPAccessDenied then return -EACCES
      else if rc = kFPCantRename then return -EROFS
      else if rc = kFPObjectExists then do
        let _ ← requestRc (.delete didTo (lastComponent pathTo))
        let rc ← requestRc (.moveAndRename didFrom didTo (lastComponent pathFrom) none
          (lastComponent pathTo))
        return -moveAgainErr rc
      else if rc = kFPObjectNotFound ∨ rc = kFPNoErr then return 0
      else return - EIO : AfpM ℤ) := by
  have hrefused : ∀ {ret : ℤ}, ret < 0 → rc ∉ [kFPNoErr, kFPObjectNotFound, kFPObjectExists] →
      Does T (fun codes T' ret => Renamed T pathFrom pathTo T' ret ↔
        Answered T pathFrom pathTo (rc :: codes)) (pure ret : AfpM ℤ) := by
    intro ret hret hlisted T' hserves
    cases hserves
    exact iff_of_true (renamed_of_refused hret) (.refused hlisted)
  refine does_ite (fun h => hrefused (by decide) ?_) fun h₁ => ?_
  · rcases h with rfl | rfl <;> decide
  refine does_ite (fun h => hrefused (by decide) ?_) fun h₂ => ?_
  · rw [h]
    decide
  refine does_ite (fun h => ?_) fun h₃ => ?_
  · subst h
    exact does_replace hT hfrom hto
  refine does_ite (fun h T' hserves => ?_) fun h₄ => hrefused (by decide) ?_
  · -- the case falls through to success
    cases hserves
    obtain rfl : rc = kFPObjectNotFound := h.resolve_right hrc
    rw [renamed_zero_iff, moved_self_iff]
    refine ⟨.unmoved, fun h => ?_⟩
    cases h with
    | refused h => exact absurd (by decide) h
    | unmoved h => exact h
  · simp only [List.mem_cons, List.not_mem_nil, or_false]
    tauto

/-- **The operation**, on any tree. -/
theorem does_afpMlRename (hT : IsTree T) (vol : Volume) {pathFrom pathTo : CString}
    (hpathFrom : pathFrom.head? = some slash) (hpathTo : pathTo.head? = some slash) :
    Does T (fun codes T' ret =>
        Renamed T (serverPath vol pathFrom) (serverPath vol pathTo) T' ret ↔
          Answered T (serverPath vol pathFrom) (serverPath vol pathTo) codes)
      (afpMlRename vol pathFrom pathTo) := by
  have hunsent : ∀ {src dst : CString} {ret : ℤ}, ret < 0 →
      Does T (fun codes T' ret => Renamed T src dst T' ret ↔ Answered T src dst codes)
        (pure ret : AfpM ℤ) := by
    intro src dst ret hret T' hserves
    cases hserves
    exact iff_of_true (renamed_of_refused hret) .unsent
  refine does_bind_ofOption fun ⟨rcFrom, src⟩ hconvertFrom => ?_
  refine does_ite (fun _ => hunsent (by decide)) fun hrcFrom => ?_
  refine does_bind_ofOption fun ⟨rcTo, dst⟩ hconvertTo => ?_
  refine does_ite (fun _ => hunsent (by decide)) fun hrcTo => ?_
  refine does_ite (fun _ => hunsent (by decide)) fun _ => ?_
  obtain rfl : rcFrom = 0 := not_not.mp hrcFrom
  obtain rfl : rcTo = 0 := not_not.mp hrcTo
  rw [serverPath, serverPath, hconvertFrom, hconvertTo]
  have hsrc := head?_convertPathToAfp (by decide) hpathFrom hconvertFrom
  have hdst := head?_convertPathToAfp (by decide) hpathTo hconvertTo
  refine does_bind_harmless (harmless_resolve src) (ensures_resolve hsrc) ?_
  rintro ⟨retFrom, basenameFrom, diridFrom⟩ ⟨rfl, hfrom⟩
  refine does_bind_harmless (harmless_resolve dst) (ensures_resolve hdst) ?_
  rintro ⟨retTo, basenameTo, diridTo⟩ ⟨rfl, hto⟩
  refine does_bind_harmless (harmless_isDir diridTo dst) (ensures_isDir hdst diridTo) ?_
  intro directory hdirectory
  cases directory with
  | true =>
    refine does_bind_move (fun T' hmoves T'' hserves => ?_) fun rc => does_answer hT hfrom hto
    cases hserves
    rw [renamed_zero_iff]
    refine (moved_into_iff hfrom hto hmoves).trans ⟨fun hparents => ?_, fun h => ?_⟩
    · obtain ⟨d, hd⟩ := hparents.2
      refine .moved hparents fun _ => .inl ⟨d, hd, ?_⟩
      rw [← hto d hd]
      exact hdirectory.mp rfl
    · cases h with
      | refused h => exact absurd (by decide) h
      | moved hparents => exact hparents
  | false =>
    refine does_bind_move (fun T' hmoves T'' hserves => ?_) fun rc => does_answer hT hfrom hto
    cases hserves
    rw [renamed_zero_iff]
    refine (moved_onto_iff hT hfrom hto (.inl rfl) hmoves).trans ⟨?_, fun h => ?_⟩
    · rintro ⟨hparents, hdir⟩
      exact .moved hparents fun h => .inr (hdir h)
    · cases h with
      | refused h => exact absurd (by decide) h
      | moved hparents hdir =>
        refine ⟨hparents, fun h => (hdir h).resolve_left ?_⟩
        rintro ⟨d, hd, hleads⟩
        rw [← hto d hd] at hleads
        exact Bool.false_ne_true (hdirectory.mpr hleads)

end Operation

/-- **A rename does what it should** for exactly these answers. -/
theorem renamed_iff (T : Objects) (hT : IsTree T) (vol : Volume) (pathFrom pathTo : CString)
    (hpathFrom : pathFrom.head? = some slash) (hpathTo : pathTo.head? = some slash)
    (tr : List Event) (T' : Objects) (ret : ℤ)
    (hrun : Prog.Steps (afpMlRename vol pathFrom pathTo) tr (.done ret))
    (hserves : Serves T tr T') :
    Renamed T (serverPath vol pathFrom) (serverPath vol pathTo) T' ret ↔
      Answered T (serverPath vol pathFrom) (serverPath vol pathTo) (outcomes tr) :=
  (does_afpMlRename hT vol hpathFrom hpathTo).steps hrun T' hserves

/-- Two files "a" and "b" in the root. -/
def twoFiles : Objects := fun did name =>
  if did = AFP_ROOT_DID ∧ name = [0x61] then some ⟨16, false⟩
  else if did = AFP_ROOT_DID ∧ name = [0x62] then some ⟨17, false⟩
  else none

theorem twoFiles_cases {did : UInt32} {name : CString} {node : Node}
    (h : twoFiles did name = some node) :
    did = AFP_ROOT_DID ∧ (name = [0x61] ∧ node = ⟨16, false⟩ ∨ name = [0x62] ∧ node = ⟨17, false⟩) := by
  unfold twoFiles at h
  split_ifs at h with h₁ h₂
  · exact ⟨h₁.1, .inl ⟨h₁.2, (Option.some.inj h).symm⟩⟩
  · exact ⟨h₂.1, .inr ⟨h₂.2, (Option.some.inj h).symm⟩⟩

theorem isTree_twoFiles : IsTree twoFiles where
  named did := by simp [twoFiles]
  top did name node h := by
    obtain ⟨-, ⟨-, rfl⟩ | ⟨-, rfl⟩⟩ := twoFiles_cases h <;> decide
  unique h h' := by
    obtain ⟨rfl, ⟨rfl, rfl⟩ | ⟨rfl, rfl⟩⟩ := twoFiles_cases h <;>
      obtain ⟨rfl, ⟨rfl, hnode⟩ | ⟨rfl, hnode⟩⟩ := twoFiles_cases h' <;> simp at hnode ⊢
  acyclic := by
    refine ⟨fun did => if did = AFP_ROOT_DID then 0 else 1, fun did name node h => ?_⟩
    obtain ⟨rfl, ⟨-, rfl⟩ | ⟨-, rfl⟩⟩ := twoFiles_cases h <;> decide

/-- The trace of a rename of "/a" to "/b", where "b" is deleted, with the answer to the second
move. -/
def replaceTrace (rc : ℤ) : List Event :=
  [⟨.uninitPath, ([] : CString)⟩, ⟨.uninitInt, (0 : UInt32)⟩,
    ⟨.uninitPath, ([] : CString)⟩, ⟨.uninitInt, (0 : UInt32)⟩,
    ⟨.uninitFileInfo, AfpFileInfo.zero⟩,
    ⟨.request (.getFileDirParms 2 0 0 [slash, 0x62]),
      (⟨kFPNoErr, some AfpFileInfo.zero⟩ : Reply AfpFileInfo)⟩,
    ⟨.request (.moveAndRename 2 2 [0x61] none [0x62]), (⟨kFPObjectExists, none⟩ : Reply Unit)⟩,
    ⟨.request (.delete 2 [0x62]), (⟨kFPNoErr, none⟩ : Reply Unit)⟩,
    ⟨.request (.moveAndRename 2 2 [0x61] none [0x62]), (⟨rc, none⟩ : Reply Unit)⟩]

theorem steps_replaceTrace (rc : ℤ) :
    Prog.Steps (afpMlRename Volume.plain [slash, 0x61] [slash, 0x62]) (replaceTrace rc)
      (.done (-moveAgainErr rc)) :=
  .act (.act (.act (.act (.act (.act (.act (.act (.act (.refl _)))))))))

/-- The events before the second move leave "a" alone. -/
theorem serves_replaceTrace {rc : ℤ} {T' : Objects}
    (h : Serve (put twoFiles AFP_ROOT_DID [0x62] none)
      ⟨.request (.moveAndRename 2 2 [0x61] none [0x62]), (⟨rc, none⟩ : Reply Unit)⟩ T') :
    Serves twoFiles (replaceTrace rc) T' := by
  have hlookup : ExactReply (some ⟨17, false⟩) 0 ⟨kFPNoErr, some AfpFileInfo.zero⟩ :=
    ⟨rfl, _, rfl, rfl, fun h => absurd (by decide) h⟩
  have hdeletes : Deletes twoFiles 2 [0x62] (put twoFiles AFP_ROOT_DID [0x62] none) :=
    ⟨2, [0x62], ⟨17, false⟩, ⟨rfl, .inl ⟨rfl, rfl⟩⟩, fun h => absurd h Bool.false_ne_true, rfl⟩
  exact .cons rfl (.cons rfl (.cons rfl (.cons rfl (.cons rfl (.cons ⟨rfl, hlookup⟩
    (.cons rfl (.cons hdeletes (.cons h (.nil T')))))))))

theorem renamed_iff_of_file :
    Renamed twoFiles [slash, 0x61] [slash, 0x62]
        (relocate (put twoFiles AFP_ROOT_DID [0x62] none) AFP_ROOT_DID [0x61] AFP_ROOT_DID [0x62])
        (-moveAgainErr kFPNoErr) ↔
      Answered twoFiles [slash, 0x61] [slash, 0x62] (outcomes (replaceTrace kFPNoErr)) :=
  renamed_iff twoFiles isTree_twoFiles Volume.plain [slash, 0x61] [slash, 0x62] rfl rfl
    (replaceTrace kFPNoErr) _ _ (steps_replaceTrace kFPNoErr)
    (serves_replaceTrace ⟨AFP_ROOT_DID, [0x61], ⟨16, false⟩, AFP_ROOT_DID,
      ⟨rfl, .inl ⟨rfl, rfl⟩⟩, rfl, .inl rfl, fun _ h => absurd h Bool.false_ne_true,
      .inl rfl, rfl⟩)

/-- The file "b" is lost: it was deleted, and the second move is refused. -/
theorem rename_loses_destination :
    IsTree twoFiles ∧ Prog.Steps (afpMlRename Volume.plain [slash, 0x61] [slash, 0x62])
        (replaceTrace kFPAccessDenied) (.done (-EACCES)) ∧
      Serves twoFiles (replaceTrace kFPAccessDenied) (put twoFiles AFP_ROOT_DID [0x62] none) ∧
      ¬ Renamed twoFiles [slash, 0x61] [slash, 0x62] (put twoFiles AFP_ROOT_DID [0x62] none)
        (-EACCES) := by
  refine ⟨isTree_twoFiles, steps_replaceTrace kFPAccessDenied, serves_replaceTrace rfl,
    fun h => ?_⟩
  have hlost : none = some (⟨17, false⟩ : Node) :=
    congrFun (congrFun (h.2 (by decide)) AFP_ROOT_DID) [0x62]
  exact absurd hlost (by simp)

end Rename
end Afpfs
