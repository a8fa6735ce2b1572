import Mathlib.Data.List.Induction
import Mathlib.Data.Option.Basic
import Mathlib.Logic.Function.Basic

/-!
# Hierarchies of directories

A server keeps a hierarchy by directory: each has an identity, and names in it stand for files or for
other directories.  A client thinks of paths.  `find` is what a path leads to, and `view` is the map
from paths to what is there.

The two agree on changes as long as the hierarchy is `Proper`, so that no two paths lead to one
directory.

* `find_set`: a change of one name in one directory changes what one path leads to, and nothing else.
* `Proper.set`: the hierarchy stays proper.
* `view_set`: the map from paths is updated at one path.
* `graft_eq_graftAll`: a tree is put at a path by putting the trees of its names there, one by one.
-/

set_option autoImplicit false

namespace Afpfs
namespace Hierarchy

/-- What a name stands for. -/
inductive Entry (D : Type*) where
  | file
  | directory (did : D)
  deriving DecidableEq

/-- What there is at a path. -/
inductive Kind where
  | file
  | directory
  deriving DecidableEq

/-- What the names in the directories stand for. -/
abbrev Entries (D N : Type*) := D → N → Option (Entry D)

variable {D N : Type*} {t : Entries D N} {root d c : D} {n : N} {p q : List N}

def Entry.kind : Entry D → Kind
  | .file => .file
  | .directory _ => .directory

/-- A name in a directory.  There is none in a file. -/
def child (t : Entries D N) : Entry D → N → Option (Entry D)
  | .file, _ => none
  | .directory d, n => t d n

/-- What a path leads to from a directory. -/
def find (t : Entries D N) (d : D) (p : List N) : Option (Entry D) :=
  p.foldlM (child t) (.directory d)

/-- The map from paths to what is there. -/
def view (t : Entries D N) (root : D) (p : List N) : Option Kind := (find t root p).map Entry.kind

/-- No two paths lead to one directory. -/
def Proper (t : Entries D N) (root : D) : Prop :=
  ∀ p q d, find t root p = some (.directory d) → find t root q = some (.directory d) → p = q

/-- No path leads to a directory with this identity, and nothing is in it. -/
structure Fresh (t : Entries D N) (root id : D) : Prop where
  unreached : ∀ p, find t root p ≠ some (.directory id)
  empty : ∀ n, t id n = none

/-- If it is a directory, nothing is in it. -/
def Vacant (t : Entries D N) (o : Option (Entry D)) : Prop :=
  ∀ id, o = some (.directory id) → ∀ n, t id n = none

/-- A name in a directory is made to stand for something else, or for nothing. -/
def set [DecidableEq D] [DecidableEq N] (t : Entries D N) (d : D) (n : N) (o : Option (Entry D)) :
    Entries D N :=
  fun d' n' => if d' = d ∧ n' = n then o else t d' n'

/-! ## Paths -/

@[simp] theorem find_nil : find t d [] = some (.directory d) := rfl

theorem find_append (p q : List N) :
    find t d (p ++ q) = (find t d p).bind fun e => q.foldlM (child t) e :=
  List.foldlM_append

theorem find_concat : find t d (p ++ [n]) = (find t d p).bind fun e => child t e n := by
  rw [find_append]
  refine congrArg _ (funext fun e => ?_)
  rw [List.foldlM_cons]
  exact bind_pure _

/-- Behind a directory a path goes on from there. -/
theorem find_append_of_directory (h : find t d p = some (.directory c)) (q : List N) :
    find t d (p ++ q) = find t c q := by
  rw [find_append, h, Option.bind_some, find]

theorem find_concat_of_directory (h : find t d p = some (.directory c)) :
    find t d (p ++ [n]) = t c n := by
  rw [find_concat, h, Option.bind_some, child]

theorem find_singleton : find t d [n] = t d n := find_concat_of_directory find_nil

/-- A path to a directory goes through directories. -/
theorem directory_of_find_append {e : Entry D} (h : find t d (p ++ n :: q) = some e) :
    ∃ c, find t d p = some (.directory c) := by
  rw [find_append] at h
  cases hp : find t d p with
  | none => simp [hp] at h
  | some e =>
    cases e with
    | directory c => exact ⟨c, rfl⟩
    | file => simp [hp, child] at h

theorem find_cons_eq_directory :
    find t d (n :: p) = some (.directory c) ↔
      ∃ b, t d n = some (.directory b) ∧ find t b p = some (.directory c) := by
  constructor
  · intro h
    cases p with
    | nil =>
      rw [find_singleton] at h
      exact ⟨c, h, rfl⟩
    | cons m p =>
      obtain ⟨b, hb⟩ := directory_of_find_append (p := [n]) h
      refine ⟨b, find_singleton.symm.trans hb, ?_⟩
      rwa [← find_append_of_directory hb]
  · rintro ⟨b, hb, h⟩
    have hn : find t d [n] = some (.directory b) := find_singleton.trans hb
    rw [← List.singleton_append, find_append_of_directory hn, h]

/-! ## Changes -/

section Set

variable [DecidableEq D] [DecidableEq N] {o : Option (Entry D)}

theorem set_self : set t d n o d n = o := if_pos ⟨rfl, rfl⟩

theorem set_of_ne {d' : D} {n' : N} (h : ¬ (d' = d ∧ n' = n)) : set t d n o d' n' = t d' n' := if_neg h

/-- **A change of one name** changes what one path leads to.  What was there is empty, and so is what
is put there. -/
theorem find_set (hproper : Proper t root) (hd : find t root p = some (.directory d))
    (hold : Vacant t (t d n)) (hnew : ∀ id, o = some (.directory id) → Fresh t root id)
    (q : List N) : find (set t d n o) root q = if q = p ++ [n] then o else find t root q := by
  induction q using List.reverseRecOn with
  | nil => rw [if_neg (by simp), find_nil, find_nil]
  | append_singleton q m ih =>
    rw [find_concat, ih]
    by_cases hq : q = p ++ [n]
    · -- below the path there was nothing, and there is nothing
      have hne : q ++ [m] ≠ p ++ [n] := fun h => by
        have hlen := congrArg List.length h
        rw [hq] at hlen
        simp at hlen
      rw [if_pos hq, if_neg hne, hq, find_concat, find_concat_of_directory hd]
      have hbefore : (t d n).bind (fun e => child t e m) = none := by
        cases hn : t d n with
        | none => rfl
        | some e =>
          cases e with
          | file => rfl
          | directory id => exact hold id hn m
      rw [hbefore]
      cases o with
      | none => rfl
      | some e =>
        cases e with
        | file => rfl
        | directory id =>
          obtain ⟨hunreached, hempty⟩ := hnew id rfl
          refine (set_of_ne ?_).trans (hempty m)
          rintro ⟨rfl, -⟩
          exact hunreached p hd
    · rw [if_neg hq, find_concat]
      by_cases hqm : q ++ [m] = p ++ [n]
      · obtain ⟨rfl, hm⟩ := List.append_inj' hqm rfl
        obtain rfl := List.head_eq_of_cons_eq hm
        rw [if_pos rfl, hd, Option.bind_some]
        exact set_self
      · rw [if_neg hqm]
        refine Option.bind_congr fun e he => ?_
        cases e with
        | file => rfl
        | directory c =>
          refine set_of_ne ?_
          rintro ⟨rfl, rfl⟩
          exact hqm (congrArg (· ++ [m]) (hproper q p c he hd))

/-- **The hierarchy stays proper.** -/
theorem Proper.set (hproper : Proper t root) (hd : find t root p = some (.directory d))
    (hold : Vacant t (t d n)) (hnew : ∀ id, o = some (.directory id) → Fresh t root id) :
    Proper (set t d n o) root := by
  intro q q' c hq hq'
  rw [find_set hproper hd hold hnew] at hq hq'
  split at hq <;> split at hq'
  next h h' => rw [h, h']
  next h _ => exact absurd hq' ((hnew c hq).unreached q')
  next _ h' => exact absurd hq ((hnew c hq').unreached q)
  next => exact hproper q q' c hq hq'

/-- **The map from paths** is updated at one path. -/
theorem view_set (hproper : Proper t root) (hd : find t root p = some (.directory d))
    (hold : Vacant t (t d n)) (hnew : ∀ id, o = some (.directory id) → Fresh t root id) :
    view (set t d n o) root = Function.update (view t root) (p ++ [n]) (o.map Entry.kind) := by
  funext q
  rw [view, find_set hproper hd hold hnew]
  by_cases hq : q = p ++ [n]
  · rw [if_pos hq, hq, Function.update_self]
  · rw [if_neg hq, Function.update_of_ne hq, view]

end Set

/-! ## What is there -/

theorem view_eq_directory : view t root p = some .directory ↔ ∃ d, find t root p = some (.directory d) := by
  rw [view, Option.map_eq_some_iff]
  constructor
  · rintro ⟨e, he, hkind⟩
    cases e with
    | file => cases hkind
    | directory d => exact ⟨d, he⟩
  · rintro ⟨d, hd⟩
    exact ⟨_, hd, rfl⟩

theorem view_concat (hd : find t root p = some (.directory d)) :
    view t root (p ++ [n]) = (t d n).map Entry.kind := by
  rw [view, find_concat_of_directory hd]

/-- An empty directory, by paths. -/
theorem vacant_directory_iff (hd : find t root p = some (.directory d)) :
    Vacant t (some (.directory d)) ↔ ∀ n, view t root (p ++ [n]) = none := by
  constructor
  · intro h n
    rw [view_concat hd, h d rfl n, Option.map_none]
  · intro h id hid n
    obtain rfl : d = id := by simpa using hid
    have hn := h n
    rw [view_concat hd, Option.map_eq_none_iff] at hn
    exact hn

/-! ## Trees put at a path -/

section Graft

variable {V : Type*} [DecidableEq N] {base sub : List N → Option V} {r : List N} {m : N}
  {names : List N}

/-- A tree is put at a path, over what is there. -/
def graft (base : List N → Option V) (p : List N) (sub : List N → Option V) : List N → Option V :=
  fun r => if p <+: r then (sub (r.drop p.length)).or (base r) else base r

/-- The trees of several names are put at a path. -/
def graftAll (p : List N) (sub : List N → Option V) (base : List N → Option V) (names : List N) :
    List N → Option V :=
  names.foldl (fun acc n => graft acc (p ++ [n]) fun q => sub (n :: q)) base

/-- Where there is something in both, the two are alike. -/
def Compatible (alike : V → V → Prop) (base : List N → Option V) (p : List N)
    (sub : List N → Option V) : Prop :=
  ∀ q v w, sub q = some v → base (p ++ q) = some w → alike v w

theorem graft_append (q : List N) : graft base p sub (p ++ q) = (sub q).or (base (p ++ q)) := by
  rw [graft, if_pos (List.prefix_append p q), List.drop_left]

theorem graft_self : graft base p sub p = (sub []).or (base p) := by
  rw [graft, if_pos (List.prefix_refl p), List.drop_length]

theorem graft_of_not_above (h : ¬ p <+: r) : graft base p sub r = base r := if_neg h

/-- What is at the root of the tree is replaced. -/
theorem graft_update {v : V} (o : Option V) (hroot : sub [] = some v) :
    graft (Function.update base p o) p sub = graft base p sub := by
  funext r
  by_cases hr : r = p
  · rw [hr, graft_self, graft_self, hroot, Option.some_or, Option.some_or]
  · rw [graft, graft, Function.update_of_ne hr]

/-- A tree of one node. -/
theorem graft_leaf (v : V) :
    graft base p (fun q => if q = [] then some v else none) = Function.update base p (some v) := by
  funext r
  by_cases hprefix : p <+: r
  · obtain ⟨q, rfl⟩ := hprefix
    rw [graft_append]
    by_cases hq : q = []
    · rw [if_pos hq, hq, List.append_nil, Function.update_self, Option.some_or]
    · rw [if_neg hq, Function.update_of_ne (by simpa using hq), Option.none_or]
  · have hne : r ≠ p := fun h => hprefix (h ▸ List.prefix_refl r)
    rw [graft_of_not_above hprefix, Function.update_of_ne hne]

/-- The tree of one name reaches only what is below it. -/
theorem graft_cons (q : List N) :
    graft base (p ++ [m]) (fun q => sub (m :: q)) (p ++ n :: q) =
      if m = n then (sub (n :: q)).or (base (p ++ n :: q)) else base (p ++ n :: q) := by
  by_cases hm : m = n
  · subst hm
    have happend : p ++ m :: q = (p ++ [m]) ++ q := by simp
    rw [if_pos rfl, happend, graft_append]
  · rw [if_neg hm, graft_of_not_above fun h => hm ?_]
    rw [List.prefix_append_right_inj, List.cons_prefix_cons] at h
    exact h.1

theorem graftAll_cons (q : List N) :
    graftAll p sub base names (p ++ n :: q) =
      if n ∈ names then (sub (n :: q)).or (base (p ++ n :: q)) else base (p ++ n :: q) := by
  induction names generalizing base with
  | nil => rfl
  | cons m names ih =>
    rw [graftAll, List.foldl_cons, ← graftAll, ih, graft_cons]
    by_cases hm : m = n
    · subst hm
      rw [if_pos rfl, if_pos List.mem_cons_self, ← Option.or_assoc, Option.or_self, ite_self]
    · have hmem : n ∈ m :: names ↔ n ∈ names := List.mem_cons.trans (or_iff_right (Ne.symm hm))
      simp only [if_neg hm, hmem]

theorem graftAll_of_not_below (h : ∀ n q, r ≠ p ++ n :: q) : graftAll p sub base names r = base r := by
  induction names generalizing base with
  | nil => rfl
  | cons m names ih =>
    rw [graftAll, List.foldl_cons, ← graftAll, ih]
    refine graft_of_not_above fun hprefix => ?_
    obtain ⟨q, rfl⟩ := hprefix
    exact h m q (by simp)

/-- **A tree is the trees of its names.**  At its root nothing changes. -/
theorem graft_eq_graftAll (hroot : (sub []).or (base p) = base p)
    (hnames : ∀ n q, sub (n :: q) ≠ none → n ∈ names) :
    graft base p sub = graftAll p sub base names := by
  funext r
  by_cases hprefix : p <+: r
  · obtain ⟨q, rfl⟩ := hprefix
    rw [graft_append]
    cases q with
    | nil =>
      rw [List.append_nil, hroot, graftAll_of_not_below fun n q h => by simp at h]
    | cons n q =>
      rw [graftAll_cons]
      by_cases hn : n ∈ names
      · rw [if_pos hn]
      · rw [if_neg hn, not_not.mp (mt (hnames n q) hn), Option.none_or]
  · rw [graft_of_not_above hprefix, graftAll_of_not_below fun n q h => hprefix ⟨n :: q, h.symm⟩]

omit [DecidableEq N] in
theorem Compatible.child {alike : V → V → Prop} (h : Compatible alike base p sub) (n : N) :
    Compatible alike base (p ++ [n]) fun q => sub (n :: q) := by
  intro q v w hv hw
  rw [List.append_assoc] at hw
  exact h (n :: q) v w hv hw

/-- The tree of another name makes no difference. -/
theorem Compatible.graft {alike : V → V → Prop}
    (h : Compatible alike base (p ++ [n]) fun q => sub (n :: q)) (hm : m ≠ n) :
    Compatible alike (graft base (p ++ [m]) fun q => sub (m :: q)) (p ++ [n])
      fun q => sub (n :: q) := by
  intro q v w hv hw
  rw [List.append_assoc, List.singleton_append, graft_cons, if_neg hm] at hw
  refine h q v w hv ?_
  rw [List.append_assoc, List.singleton_append, hw]

end Graft

end Hierarchy
end Afpfs
