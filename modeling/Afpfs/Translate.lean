import Afpfs.Volume

/-!
# AppleDouble paths

`extra_translate()` of `lib/resource.c`: which part of which file a virtual path stands for.

It compares the last component of the path with ".AppleDouble", but looks for the directory
".AppleDouble" in the middle of the path with `strstr()`, which also finds it inside the name of
another component.  `Mapped` is what is expected of a path, and `mapped_iff` says which paths meet
it: the substring must not occur where it is not a component.

One position is harmless, as `splice_eq_iff` shows: if the directory's own name ends in the
substring, then cutting out that occurrence or the component behind it leaves the same string.
-/

set_option autoImplicit false

namespace Afpfs
namespace Translate

open Unicode Scan

/-! ## The function -/

/-- A string literal. -/
def ascii (s : List Char) : CString := s.map fun c => c.toNat.toUInt8

/-- `appledouble`. -/
def appledouble : CString := ascii ['.', 'A', 'p', 'p', 'l', 'e', 'D', 'o', 'u', 'b', 'l', 'e']

/-- `finderinfo_string`. -/
def finderinfoString : CString := ascii ['.', 'f', 'i', 'n', 'd', 'e', 'r', 'i', 'n', 'f', 'o']

/-- `comment_string`. -/
def commentString : CString := ascii ['.', 'c', 'o', 'm', 'm', 'e', 'n', 't']

/-- `servericon_string`. -/
def servericonString : CString :=
  ascii ['/', '.', 's', 'e', 'r', 'v', 'e', 'r', 'i', 'c', 'o', 'n']

/-- The string is longer than `suffix` and ends in it. -/
def endsIn (suffix s : CString) : Bool :=
  suffix.length < s.length && s.drop (s.length - suffix.length) = suffix

/-- The string without the last bytes that `suffix` takes. -/
def cut (suffix s : CString) : CString := s.take (s.length - suffix.length)

/-- `newpath` around the occurrence of `appledouble` at `p`.  The byte behind the occurrence is
dropped as well; where that is the terminator of the path, the string goes on with `beyond`, the
bytes in memory behind it. -/
def splice (path : CString) (p : ℕ) (beyond : CString) : CString :=
  path.take p ++
    if path.length < p + appledouble.length + 1 then beyond
    else path.drop (p + appledouble.length + 1)

/-- The end of `extra_translate()`: tag the new path by its ending. -/
def tagEnding (newpath : CString) : AfpMeta × Option CString :=
  if endsIn finderinfoString newpath then (.finderinfo, some (cut finderinfoString newpath))
  else if endsIn commentString newpath then (.comment, some (cut commentString newpath))
  else (.resource, some newpath)

/-- `extra_translate()`: its result and `*newpath_p`. -/
def extraTranslate (volume : Volume) (path beyond : CString) : AfpMeta × Option CString :=
  if volume.has VOLUME_EXTRA_FLAGS_SHOW_APPLEDOUBLE = false then (.none, none)
  else if path = servericonString then (.serverIcon, none)
  else if path.length < appledouble.length + 1 then (.none, none)
  else
    match strrchr path slash with
    | none => (.none, none)
    | some p =>
      if path.drop (p + 1) = appledouble then
        (.appledouble, some (if path.length = appledouble.length + 1 then [slash]
          else path.take (path.length - (appledouble.length + 1))))
      else
        match strstr appledouble path with
        | some p => tagEnding (splice path p beyond)
        | none => (.none, none)

/-! ## What is expected -/

/-- The path of `name` in the directory `dir`, which is empty for the root. -/
def within (dir name : CString) : CString := dir ++ slash :: name

/-- The virtual path of `name` in the directory `dir`. -/
def virtual (dir name : CString) : CString := within (within dir appledouble) name

/-- The path is mapped as it should be. -/
structure Mapped (volume : Volume) (path beyond : CString) : Prop where
  /-- A path without the component is left alone. -/
  plain : appledouble ∉ components slash path → path ≠ servericonString →
    extraTranslate volume path beyond = (.none, none)
  /-- The virtual directory stands for the directory it is in. -/
  directory : ∀ dir, path = within dir appledouble →
    extraTranslate volume path beyond =
      (.appledouble, some (if dir = [] then [slash] else dir))
  /-- The Finder info of a file. -/
  finderinfo : ∀ dir name, appledouble ∉ components slash dir → name ≠ [] → slash ∉ name →
    path = virtual dir (name ++ finderinfoString) →
    extraTranslate volume path beyond = (.finderinfo, some (within dir name))
  /-- The comment of a file. -/
  comment : ∀ dir name, appledouble ∉ components slash dir → name ≠ [] → slash ∉ name →
    path = virtual dir (name ++ commentString) →
    extraTranslate volume path beyond = (.comment, some (within dir name))
  /-- The resource fork of a file. -/
  resource : ∀ dir name, appledouble ∉ components slash dir → name ≠ [] → slash ∉ name →
    ¬ finderinfoString <:+ name → ¬ commentString <:+ name →
    path = virtual dir name →
    extraTranslate volume path beyond = (.resource, some (within dir name))

/-- The names of virtual files that stand for something: the suffixes alone do not. -/
def Covered (name : CString) : Prop :=
  name ≠ [] ∧ name ≠ finderinfoString ∧ name ≠ commentString

/-- The substring occurs only as a component: not at all in a path without the component; and in
front of the virtual directory not before its directory's name ends.  The virtual directory itself
is not a file in the virtual directory. -/
structure OnlyAsComponent (path : CString) : Prop where
  plain : appledouble ∉ components slash path → ¬ appledouble <:+: path
  virtual : ∀ dir name, path = virtual dir name → appledouble ∉ components slash dir →
    slash ∉ name → Covered name → ¬ appledouble <:+: dir.dropLast ∧ name ≠ appledouble

/-! ## Endings -/

theorem endsIn_iff {suffix s : CString} :
    endsIn suffix s = true ↔ ∃ r, r ≠ [] ∧ s = r ++ suffix := by
  rw [endsIn, Bool.and_eq_true, decide_eq_true_iff, decide_eq_true_iff]
  constructor
  · rintro ⟨hlt, hdrop⟩
    refine ⟨s.take (s.length - suffix.length), ?_, ?_⟩
    · rw [ne_eq, List.take_eq_nil_iff, not_or]
      exact ⟨by omega, List.ne_nil_of_length_pos (by omega)⟩
    · have happend := List.take_append_drop (s.length - suffix.length) s
      rw [hdrop] at happend
      exact happend.symm
  · rintro ⟨r, hr, rfl⟩
    have hpos := List.length_pos_of_ne_nil hr
    rw [List.length_append, Nat.add_sub_cancel, List.drop_left]
    exact ⟨by omega, rfl⟩

theorem cut_append (r suffix : CString) : cut suffix (r ++ suffix) = r := by
  rw [cut, List.length_append, Nat.add_sub_cancel, List.take_left]

theorem within_append (dir name suffix : CString) :
    within dir (name ++ suffix) = within dir name ++ suffix := by
  rw [within, within, List.append_assoc, List.cons_append]

theorem within_ne_nil (dir name : CString) : within dir name ≠ [] := by
  simp [within]

/-- A suffix without a slash that a path ends in is a suffix of its last component. -/
theorem suffix_of_endsIn_within {suffix dir name : CString} (hsuffix : slash ∉ suffix)
    (h : endsIn suffix (within dir name) = true) : suffix <:+ name := by
  obtain ⟨r, -, hr⟩ := endsIn_iff.mp h
  have hr' : r ++ (suffix ++ []) = dir ++ slash :: name := by rw [List.append_nil, ← hr, within]
  rcases occurrence_beside hsuffix hr' with ⟨t, -, ht⟩ | ⟨t, -, hname⟩
  · exact absurd ht (by simp)
  · exact ⟨t, by rw [hname, List.append_nil]⟩

theorem tagEnding_finderinfo (dir name : CString) :
    tagEnding (within dir (name ++ finderinfoString)) = (.finderinfo, some (within dir name)) := by
  have hends : endsIn finderinfoString (within dir name ++ finderinfoString) = true :=
    endsIn_iff.mpr ⟨_, within_ne_nil dir name, rfl⟩
  rw [within_append, tagEnding, if_pos hends, cut_append]

/-- The two suffixes end in different letters. -/
theorem not_finderinfo_suffix_comment (s : CString) : ¬ finderinfoString <:+ s ++ commentString := by
  rintro ⟨r, hr⟩
  have hlast := congrArg List.getLast? hr
  rw [List.getLast?_append, List.getLast?_append] at hlast
  exact absurd (show some (0x6f : UInt8) = some 0x74 from hlast) (by decide)

theorem tagEnding_comment (dir name : CString) :
    tagEnding (within dir (name ++ commentString)) = (.comment, some (within dir name)) := by
  have hother : ¬ endsIn finderinfoString (within dir (name ++ commentString)) = true := by
    intro h
    exact not_finderinfo_suffix_comment name (suffix_of_endsIn_within (by decide) h)
  have hends : endsIn commentString (within dir name ++ commentString) = true :=
    endsIn_iff.mpr ⟨_, within_ne_nil dir name, rfl⟩
  rw [tagEnding, if_neg hother, within_append, if_pos hends, cut_append]

theorem tagEnding_resource {name : CString} (hfinderinfo : ¬ finderinfoString <:+ name)
    (hcomment : ¬ commentString <:+ name) (dir : CString) :
    tagEnding (within dir name) = (.resource, some (within dir name)) := by
  rw [tagEnding, if_neg fun h => hfinderinfo (suffix_of_endsIn_within (by decide) h),
    if_neg fun h => hcomment (suffix_of_endsIn_within (by decide) h)]

theorem tagEnding_ne_none (newpath : CString) : (tagEnding newpath).1 ≠ .none := by
  rw [tagEnding]
  split
  · exact fun h => AfpMeta.noConfusion h
  · split <;> exact fun h => AfpMeta.noConfusion h

/-! ## The branches of the function -/

variable {volume : Volume} (hshow : volume.has VOLUME_EXTRA_FLAGS_SHOW_APPLEDOUBLE = true)

include hshow

/-- The path of the virtual directory is recognised wherever it is. -/
theorem extraTranslate_directory (dir beyond : CString) :
    extraTranslate volume (within dir appledouble) beyond =
      (.appledouble, some (if dir = [] then [slash] else dir)) := by
  have hlen : (within dir appledouble).length = dir.length + (appledouble.length + 1) := by
    rw [within, List.length_append, List.length_cons]
  have hicon : within dir appledouble ≠ servericonString := by
    intro h
    rw [h, show servericonString.length = appledouble.length from rfl] at hlen
    omega
  have hlast : (within dir appledouble).drop (dir.length + 1) = appledouble := by
    rw [within, List.append_cons, show dir.length + 1 = (dir ++ [slash]).length by simp,
      List.drop_left]
  rw [extraTranslate, if_neg (by simp [hshow]), if_neg hicon, if_neg (by omega), within,
    strrchr_append (by decide)]
  simp only
  rw [← within, if_pos hlast, hlen, Nat.add_sub_cancel]
  by_cases hdir : dir = []
  · rw [if_pos hdir, if_pos (by simp [hdir])]
  · have hpos := List.length_pos_of_ne_nil hdir
    rw [if_neg hdir, if_neg (by omega), within, List.take_left]

/-- Any other path: only an occurrence of the substring makes it virtual. -/
theorem extraTranslate_within {dir last : CString} (hlast : slash ∉ last)
    (hne : last ≠ appledouble) (hicon : within dir last ≠ servericonString) (beyond : CString) :
    extraTranslate volume (within dir last) beyond =
      match strstr appledouble (within dir last) with
      | some p => tagEnding (splice (within dir last) p beyond)
      | none => (.none, none) := by
  have hdrop : (within dir last).drop (dir.length + 1) = last := by
    rw [within, List.append_cons, show dir.length + 1 = (dir ++ [slash]).length by simp,
      List.drop_left]
  rw [extraTranslate, if_neg (by simp [hshow]), if_neg hicon]
  by_cases hshort : (within dir last).length < appledouble.length + 1
  · rw [if_pos hshort]
    rcases strstr_cases appledouble (within dir last) with ⟨hnone, -⟩ | ⟨a, b, hpath, -, -⟩
    · rw [hnone]
    · -- the path would be the substring, which has no slash
      exfalso
      have hlen := congrArg List.length hpath
      rw [List.length_append, List.length_append] at hlen
      have ha : a = [] := List.eq_nil_of_length_eq_zero (by omega)
      have hb : b = [] := List.eq_nil_of_length_eq_zero (by omega)
      rw [ha, hb, List.append_nil, List.nil_append] at hpath
      exact absurd (hpath ▸ (show slash ∈ within dir last by simp [within])) (by decide)
  · rw [if_neg hshort]
    conv_lhs => rw [within, strrchr_append hlast]
    simp only
    rw [← within, hdrop, if_neg hne]

omit hshow

/-- The last component of an absolute path. -/
theorem exists_within {path : CString} (hpath : path.head? = some slash) :
    ∃ dir last, path = within dir last ∧ slash ∉ last := by
  obtain ⟨hsep, hjoin, hne⟩ := joinPath_components hpath
  refine ⟨joinPath slash (components slash path).dropLast, (components slash path).getLast hne,
    ?_, hsep _ (List.getLast_mem hne)⟩
  rw [within, ← joinPath_singleton, ← joinPath_append, List.dropLast_append_getLast, hjoin]

theorem mem_components_within {dir last : CString} (hlast : slash ∉ last) :
    last ∈ components slash (within dir last) :=
  (mem_components_iff hlast).mpr ⟨dir, [], by rw [List.append_nil, within], Or.inl rfl⟩

/-- Which absolute paths are ordinary. -/
theorem extraTranslate_eq_none_iff (hshow : volume.has VOLUME_EXTRA_FLAGS_SHOW_APPLEDOUBLE = true)
    {path : CString} (hpath : path.head? = some slash) (beyond : CString) :
    (extraTranslate volume path beyond).1 = .none ↔
      path ≠ servericonString ∧ ¬ appledouble <:+: path := by
  obtain ⟨dir, last, rfl, hlast⟩ := exists_within hpath
  by_cases hdirectory : last = appledouble
  · subst hdirectory
    rw [extraTranslate_directory hshow]
    refine iff_of_false (fun h => AfpMeta.noConfusion h) fun h => h.2 ?_
    exact ⟨dir ++ [slash], [], by simp [within]⟩
  by_cases hicon : within dir last = servericonString
  · rw [extraTranslate, if_neg (by simp [hshow]), if_pos hicon]
    exact iff_of_false (fun h => AfpMeta.noConfusion h) fun h => h.1 hicon
  · rw [extraTranslate_within hshow hlast hdirectory hicon]
    rcases strstr_cases appledouble (within dir last) with ⟨hnone, hno⟩ | ⟨a, b, heq, hsome, -⟩
    · rw [hnone]
      exact iff_of_true rfl ⟨hicon, hno⟩
    · rw [hsome]
      refine iff_of_false (tagEnding_ne_none _) fun h => h.2 ?_
      exact ⟨a, b, by rw [heq, List.append_assoc]⟩

/-! ## Cutting out the virtual directory -/

/-- The substring moved past a slash is the substring at the end. -/
theorem eq_of_rotated {t : CString} {x : UInt8}
    (h : t ++ slash :: appledouble = appledouble ++ x :: t) :
    ∃ u, x :: t = u ++ slash :: appledouble := by
  have hpath : [] ++ (appledouble ++ x :: t) = t ++ slash :: appledouble := by
    rw [List.nil_append, h]
  rcases occurrence_beside (by decide) hpath with ⟨u, -, hu⟩ | ⟨u, hnil, -⟩
  · exact ⟨u, hu⟩
  · exact absurd hnil (by simp)

/-- **Cutting out the first occurrence** of the substring in the path of a virtual file leaves a
path of that name, and the right one exactly if the substring does not occur in front of the end of
the directory's name. -/
theorem splice_eq_iff {dir : CString} (hdir : appledouble ∉ components slash dir)
    (name beyond : CString) :
    ∃ p front, strstr appledouble (virtual dir name) = some p ∧
      splice (virtual dir name) p beyond = within front name ∧
      (front = dir ↔ ¬ appledouble <:+: dir.dropLast) := by
  have hvirtual : virtual dir name = (dir ++ [slash]) ++ (appledouble ++ slash :: name) := by
    rw [virtual, within, within, List.append_assoc, List.append_assoc]
    rfl
  rcases strstr_cases appledouble (virtual dir name) with ⟨-, hno⟩ | ⟨a, b, hpath, hp, hfirst⟩
  · exact absurd ⟨dir ++ [slash], slash :: name, by rw [hvirtual, List.append_assoc]⟩ hno
  have hle := hfirst _ _ hvirtual
  have hsplice : ∀ x r, b = x :: r → splice (virtual dir name) a.length beyond = a ++ r := by
    intro x r hb
    have hsplit : virtual dir name = (a ++ appledouble ++ [x]) ++ r := by rw [hpath, hb]; simp
    have hlen : a.length + appledouble.length + 1 = (a ++ appledouble ++ [x]).length := by
      simp [Nat.add_assoc]
    rw [splice, hlen, hsplit, if_neg (by simp), List.drop_left]
    rw [List.append_assoc, List.append_assoc, List.take_left]
  have hbefore : ∀ {u x v}, dir = u ++ (appledouble ++ x :: v) →
      a.length + appledouble.length < dir.length := by
    intro u x v hu
    have hua := hfirst u (x :: v ++ slash :: (appledouble ++ slash :: name)) (by
      rw [hvirtual, hu]
      simp)
    rw [hu, List.length_append, List.length_append, List.length_cons]
    omega
  rw [hvirtual, List.append_assoc, List.singleton_append] at hpath
  rcases occurrence_beside (by decide) hpath.symm with ⟨t, ht, hb⟩ | ⟨t, ha, hr⟩
  · cases t with
    | nil =>
      -- the directory's name ends in the substring
      refine ⟨a.length, dir, hp, ?_, iff_of_true rfl ?_⟩
      · rw [hsplice _ _ hb, ht, within]
        simp
      · rw [infix_dropLast_iff (by decide)]
        rintro ⟨u, x, v, hu⟩
        exact absurd (hbefore hu) (by rw [ht]; simp)
    | cons x t =>
      -- the substring is in the directory's name and something follows it there
      refine ⟨a.length, a ++ (t ++ slash :: appledouble), hp, ?_, iff_of_false ?_ ?_⟩
      · rw [hsplice _ _ hb, within]
        simp
      · intro heq
        rw [ht] at heq
        obtain ⟨u, hu⟩ := eq_of_rotated (List.append_cancel_left heq)
        refine hdir ?_
        rw [ht, hu]
        exact (mem_components_iff (by decide)).mpr
          ⟨a ++ (appledouble ++ u), [], by simp, Or.inl rfl⟩
      · rw [not_not, infix_dropLast_iff (by decide)]
        exact ⟨a, x, t, ht⟩
  · -- the first occurrence is the virtual directory
    have htnil : t = [] := by
      rw [ha] at hle
      simp only [List.length_append, List.length_cons, List.length_nil] at hle
      exact List.eq_nil_of_length_eq_zero (by omega)
    rw [htnil, List.nil_append] at hr
    have hb := List.append_cancel_left hr
    refine ⟨a.length, dir, hp, ?_, iff_of_true rfl ?_⟩
    · rw [hsplice _ _ hb.symm, ha, htnil, within, List.append_assoc]
      rfl
    · rw [infix_dropLast_iff (by decide)]
      rintro ⟨u, x, v, hu⟩
      exact absurd (hbefore hu) (by rw [ha]; simp; omega)

/-! ## The paths that are mapped as expected -/

theorem within_left_inj {dir dir' name : CString} :
    within dir name = within dir' name ↔ dir = dir' :=
  List.append_left_inj (slash :: name)

/-- What the function makes of the path of a virtual file. -/
theorem extraTranslate_virtual (hshow : volume.has VOLUME_EXTRA_FLAGS_SHOW_APPLEDOUBLE = true)
    {dir name : CString} (hdir : appledouble ∉ components slash dir) (hname : slash ∉ name)
    (hne : name ≠ appledouble) (beyond : CString) :
    ∃ front, extraTranslate volume (virtual dir name) beyond = tagEnding (within front name) ∧
      (front = dir ↔ ¬ appledouble <:+: dir.dropLast) := by
  obtain ⟨p, front, hp, hsplice, hiff⟩ := splice_eq_iff hdir name beyond
  have hicon : virtual dir name ≠ servericonString := by
    intro h
    rw [h] at hp
    exact absurd hp (by rw [show strstr appledouble servericonString = none by decide]; simp)
  refine ⟨front, ?_, hiff⟩
  rw [virtual, extraTranslate_within hshow hname hne hicon, ← virtual, hp]
  exact congrArg tagEnding hsplice

/-- The covered names, by their ending. -/
theorem covered_cases {name : CString} (h : Covered name) :
    (∃ base, base ≠ [] ∧ name = base ++ finderinfoString) ∨
    (∃ base, base ≠ [] ∧ name = base ++ commentString) ∨
    (¬ finderinfoString <:+ name ∧ ¬ commentString <:+ name) := by
  obtain ⟨-, hfinderinfo, hcomment⟩ := h
  by_cases h₁ : finderinfoString <:+ name
  · obtain ⟨base, rfl⟩ := h₁
    exact Or.inl ⟨base, fun hnil => hfinderinfo (by rw [hnil, List.nil_append]), rfl⟩
  by_cases h₂ : commentString <:+ name
  · obtain ⟨base, rfl⟩ := h₂
    exact Or.inr (Or.inl ⟨base, fun hnil => hcomment (by rw [hnil, List.nil_append]), rfl⟩)
  · exact Or.inr (Or.inr ⟨h₁, h₂⟩)

theorem covered_append {base suffix : CString} (hbase : base ≠ [])
    (h : suffix = finderinfoString ∨ suffix = commentString) : Covered (base ++ suffix) := by
  have hpos := List.length_pos_of_ne_nil hbase
  refine ⟨List.append_ne_nil_of_left_ne_nil hbase suffix, ?_, ?_⟩
  · intro heq
    rcases h with rfl | rfl
    · have hlen := congrArg List.length heq
      rw [List.length_append] at hlen
      omega
    · exact not_finderinfo_suffix_comment base (heq ▸ List.suffix_refl finderinfoString)
  · intro heq
    have hlen := congrArg List.length heq
    rw [List.length_append] at hlen
    rcases h with rfl | rfl
    · have : finderinfoString.length = 11 := rfl
      have : commentString.length = 8 := rfl
      omega
    · omega

/-- **A path is mapped as expected** exactly if the substring occurs in it only as a component. -/
theorem mapped_iff (volume : Volume)
    (hshow : volume.has VOLUME_EXTRA_FLAGS_SHOW_APPLEDOUBLE = true) (path : CString)
    (hpath : path.head? = some slash) (beyond : CString) :
    Mapped volume path beyond ↔ OnlyAsComponent path := by
  constructor
  · intro hmapped
    constructor
    · intro hcomponent hoccurs
      obtain ⟨dir, last, rfl, hlast⟩ := exists_within hpath
      have hne : last ≠ appledouble := by
        rintro rfl
        exact hcomponent (mem_components_within hlast)
      have hicon : within dir last ≠ servericonString := by
        intro h
        rw [h] at hoccurs
        exact absurd hoccurs (by decide)
      have hresult := hmapped.plain hcomponent hicon
      rw [extraTranslate_within hshow hlast hne hicon] at hresult
      rcases strstr_cases appledouble (within dir last) with ⟨-, hno⟩ | ⟨a, b, -, hsome, -⟩
      · exact hno hoccurs
      · rw [hsome] at hresult
        exact tagEnding_ne_none _ (congrArg Prod.fst hresult)
    · rintro dir name rfl hdir hname hcovered
      have hne : name ≠ appledouble := by
        rintro rfl
        have hresource := hmapped.resource dir appledouble hdir hcovered.1 hname (by decide)
          (by decide) rfl
        rw [virtual, extraTranslate_directory hshow] at hresource
        exact AfpMeta.noConfusion (congrArg Prod.fst hresource)
      refine ⟨?_, hne⟩
      obtain ⟨front, hresult, hiff⟩ := extraTranslate_virtual hshow hdir hname hne beyond
      refine hiff.mp ?_
      rcases covered_cases hcovered with
        ⟨base, hbase, rfl⟩ | ⟨base, hbase, rfl⟩ | ⟨hfinderinfo, hcomment⟩
      · have hexpected := hmapped.finderinfo dir base hdir hbase
          (fun h => hname (List.mem_append_left _ h)) rfl
        rw [hresult, tagEnding_finderinfo] at hexpected
        exact within_left_inj.mp (Option.some.inj (congrArg Prod.snd hexpected))
      · have hexpected := hmapped.comment dir base hdir hbase
          (fun h => hname (List.mem_append_left _ h)) rfl
        rw [hresult, tagEnding_comment] at hexpected
        exact within_left_inj.mp (Option.some.inj (congrArg Prod.snd hexpected))
      · have hexpected := hmapped.resource dir name hdir hcovered.1 hname hfinderinfo hcomment rfl
        rw [hresult, tagEnding_resource hfinderinfo hcomment] at hexpected
        exact within_left_inj.mp (Option.some.inj (congrArg Prod.snd hexpected))
  · intro honly
    -- the path of a virtual file with a covered name
    have hvirtual : ∀ dir name, appledouble ∉ components slash dir → slash ∉ name →
        Covered name → path = virtual dir name →
        extraTranslate volume path beyond = tagEnding (within dir name) := by
      intro dir name hdir hname hcovered hvirtual
      obtain ⟨hinside, hne⟩ := honly.virtual dir name hvirtual hdir hname hcovered
      obtain ⟨front, hresult, hiff⟩ := extraTranslate_virtual hshow hdir hname hne beyond
      rw [hvirtual, hresult, hiff.mpr hinside]
    constructor
    · intro hcomponent hicon
      obtain ⟨dir, last, rfl, hlast⟩ := exists_within hpath
      have hne : last ≠ appledouble := by
        rintro rfl
        exact hcomponent (mem_components_within hlast)
      rw [extraTranslate_within hshow hlast hne hicon]
      rcases strstr_cases appledouble (within dir last) with ⟨hnone, -⟩ | ⟨a, b, heq, -, -⟩
      · rw [hnone]
      · exact absurd ⟨a, b, by rw [heq, List.append_assoc]⟩ (honly.plain hcomponent)
    · rintro dir rfl
      exact extraTranslate_directory hshow dir beyond
    · intro dir name hdir hne hname heq
      rw [hvirtual dir _ hdir ?_ (covered_append hne (Or.inl rfl)) heq, tagEnding_finderinfo]
      exact fun h => (List.mem_append.mp h).elim hname (by decide)
    · intro dir name hdir hne hname heq
      rw [hvirtual dir _ hdir ?_ (covered_append hne (Or.inr rfl)) heq, tagEnding_comment]
      exact fun h => (List.mem_append.mp h).elim hname (by decide)
    · intro dir name hdir hne hname hfinderinfo hcomment heq
      have hcovered : Covered name :=
        ⟨hne, fun h => hfinderinfo (h ▸ List.suffix_refl _),
          fun h => hcomment (h ▸ List.suffix_refl _)⟩
      rw [hvirtual dir name hdir hname hcovered heq, tagEnding_resource hfinderinfo hcomment]

/-- A volume that shows its AppleDouble files. -/
def showing : Volume :=
  { Volume.plain with extraFlags := VOLUME_EXTRA_FLAGS_SHOW_APPLEDOUBLE }

/-- The Finder info of the file `x` in the directory `/a`. -/
theorem mapped_iff_of_finderinfo :
    Mapped showing
        (virtual (ascii ['/', 'a']) (ascii ['x', '.', 'f', 'i', 'n', 'd', 'e', 'r', 'i', 'n', 'f', 'o']))
        [] ↔
      OnlyAsComponent (virtual (ascii ['/', 'a'])
        (ascii ['x', '.', 'f', 'i', 'n', 'd', 'e', 'r', 'i', 'n', 'f', 'o'])) :=
  mapped_iff showing (by decide) _ (by decide) []

/-- **A name that contains the marker.**  The ordinary file `x` in the directory `/.AppleDoubles`
is taken for the resource fork of `//x`: the byte behind the marker is dropped with it. -/
theorem marker_inside_a_name :
    extraTranslate showing (within (within [] (appledouble ++ ascii ['s'])) (ascii ['x'])) [] =
        (.resource, some (ascii ['/', '/', 'x'])) ∧
      ¬ ∀ (volume : Volume) (path beyond : CString),
        volume.has VOLUME_EXTRA_FLAGS_SHOW_APPLEDOUBLE = true → path.head? = some slash →
        Mapped volume path beyond := by
  have hresult : extraTranslate showing
      (within (within [] (appledouble ++ ascii ['s'])) (ascii ['x'])) [] =
        (.resource, some (ascii ['/', '/', 'x'])) := by decide
  refine ⟨hresult, fun h => ?_⟩
  have hplain := (h showing (within (within [] (appledouble ++ ascii ['s'])) (ascii ['x'])) []
    (by decide) (by decide)).plain (by decide) (by decide)
  rw [hresult] at hplain
  exact AfpMeta.noConfusion (congrArg Prod.fst hplain)

end Translate
end Afpfs
