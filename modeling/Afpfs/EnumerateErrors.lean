import Afpfs.Enumerate

/-!
# The errors of a listing

`ll_readdir()` looks at the result of each Enumerate request in a `switch`.  A result that is not
listed there leaves the loop as it was, and the request is sent again.  `kFPDirNotFound` sets an
errno and leaves the loop by the exit of a complete listing.

* `tracks_readdirLoop`: all results but the last are 0, as long as what comes first after the zeros
  is handled.
* `stopsOnError_iff`: the listing stops with its first error exactly if that error is handled.
* `missing_directory_is_empty`: `kFPDirNotFound`.
-/

set_option autoImplicit false

namespace Afpfs
namespace EnumerateErrors

open Unicode Codepage Interaction PathResolution Enumerate

/-! ## What is expected -/

/-- The result of an Enumerate request. -/
def enumerateRc : Event → Option ℤ
  | ⟨.request (.enumerate ..), reply⟩ => some (Reply.rc reply)
  | ⟨.request (.enumerateExt2 ..), reply⟩ => some (Reply.rc reply)
  | _ => none

/-- The results of the Enumerate requests of a trace. -/
def rcs (tr : List Event) : List ℤ := tr.filterMap enumerateRc

/-- The results are the first ones of a sequence. -/
def Answered (results : ℕ → ℤ) (tr : List Event) : Prop :=
  rcs tr = (List.range (rcs tr).length).map results

/-- Neither a batch of entries nor the end of the directory. -/
def Bad (rc : ℤ) : Prop := rc ≠ 0 ∧ rc ≠ kFPObjectNotFound

/-- What should hold whatever has happened so far: after a bad result no more Enumerate requests are
sent, and the call has returned with a negative result and without a list; there is one request more
at most than there are zeros. -/
structure Stopped (tr : List Event) (q : AfpM (ℤ × Option (List AfpFileInfo))) : Prop where
  last : ∀ rc ∈ (rcs tr).dropLast, ¬ Bad rc
  failed : (∃ rc ∈ rcs tr, Bad rc) → ∃ ret < 0, q = .done (ret, none)
  count : (rcs tr).length ≤ (rcs tr).count 0 + 1

/-- The listing stops with its first error. -/
def StopsOnError (vol : Volume) (path : CString) (resource : Bool) (results : ℕ → ℤ) : Prop :=
  ∀ fuel tr q, Prog.Steps (llReaddir vol path resource fuel) tr q → Answered results tr →
    Stopped tr q

/-- The results that end the loop as they should. -/
def Handled (rc : ℤ) : Prop :=
  rc = kFPObjectNotFound ∨ rc = -1 ∨ rc = kFPAccessDenied ∨ rc = kFPBitmapErr ∨ rc = kFPMiscErr ∨
    rc = kFPObjectTypeErr ∨ rc = kFPParamErr ∨ rc = kFPCallNotSupported

instance (rc : ℤ) : Decidable (Handled rc) := inferInstanceAs (Decidable (_ ∨ _))

/-- The first result of a sequence that is not 0, if there is one, is handled. -/
def FirstHandled (results : ℕ → ℤ) : Prop :=
  ∀ k, (∀ i < k, results i = 0) → results k ≠ 0 → Handled (results k)

/-! ## Results -/

section

variable {vol : Volume} {results : ℕ → ℤ} {tr : List Event} {ev : Event} {rc : ℤ}

theorem rcs_append (tr tr' : List Event) : rcs (tr ++ tr') = rcs tr ++ rcs tr' :=
  List.filterMap_append ..

theorem rcs_snoc (h : enumerateRc ev = some rc) (tr : List Event) :
    rcs (tr ++ [ev]) = rcs tr ++ [rc] := by
  rw [rcs_append, rcs, rcs, List.filterMap_cons_some h]
  rfl

/-- Resolving a path enumerates nothing. -/
theorem rcs_of_looksUp (h : ∀ ev ∈ tr, LooksUp ev.1) : rcs tr = [] := by
  refine List.filterMap_eq_nil_iff.mpr fun ev hev => ?_
  obtain ⟨e, a⟩ := ev
  have hlooksUp : LooksUp e := h _ hev
  cases e with
  | request r =>
    cases r with
    | enumerate | enumerateExt2 => exact hlooksUp.elim
    | _ => rfl
  | _ => rfl

theorem Answered.of_snoc (h : enumerateRc ev = some rc) (hanswered : Answered results (tr ++ [ev])) :
    Answered results tr ∧ rc = results (rcs tr).length := by
  rw [Answered, rcs_snoc h, List.length_append, List.length_singleton, List.range_succ,
    List.map_append] at hanswered
  obtain ⟨htr, hrc⟩ := List.append_inj hanswered (by rw [List.length_map, List.length_range])
  exact ⟨htr, (List.cons.inj hrc).1⟩

/-- The results so far are zeros. -/
def Zeros (results : ℕ → ℤ) (tr : List Event) : Prop := Answered results tr → ∀ rc ∈ rcs tr, rc = 0

/-- What comes first after zeros is handled. -/
theorem Zeros.handled (hfirst : FirstHandled results) (hzeros : Zeros results tr)
    (h : enumerateRc ev = some rc) (hanswered : Answered results (tr ++ [ev])) (hrc : rc ≠ 0) :
    Handled rc := by
  obtain ⟨htr, rfl⟩ := hanswered.of_snoc h
  refine hfirst _ (fun i hi => hzeros htr _ ?_) hrc
  rw [htr]
  exact List.mem_map.mpr ⟨i, List.mem_range.mpr hi, rfl⟩

theorem Zeros.snoc (hzeros : Zeros results tr) (h : enumerateRc ev = some rc)
    (hrc : Answered results (tr ++ [ev]) → rc = 0) : Zeros results (tr ++ [ev]) := by
  intro hanswered rc' hmem
  rw [rcs_snoc h, List.mem_append, List.mem_singleton] at hmem
  rcases hmem with hmem | rfl
  · exact hzeros (hanswered.of_snoc h).1 rc' hmem
  · exact hrc hanswered

/-! ## The loop -/

/-- No result is bad. -/
def Quiet (results : ℕ → ℤ) (tr : List Event) : Prop :=
  Answered results tr → ∀ rc ∈ rcs tr, ¬ Bad rc

theorem Zeros.quiet (hzeros : Zeros results tr) : Quiet results tr :=
  fun hanswered rc hrc hbad => hbad.1 (hzeros hanswered rc hrc)

/-- After a bad result there is an errno. -/
def Reported (results : ℕ → ℤ) (tr : List Event) (ret : ℤ) : Prop :=
  Answered results tr → (∃ rc ∈ rcs tr, Bad rc) → 0 < ret

/-- The form of the request depends on the version of the protocol only. -/
theorem enumerateRequest_eq (vol : Volume) (dirid : UInt32)
    (filebitmap dirbitmap startindex : ℕ) (basename : CString) :
    ∃ (e : Effect) (reply : e.Answer → Reply (List AfpFileInfo)),
      enumerateRequest vol dirid filebitmap dirbitmap startindex basename =
        .act e (fun a => .done (reply a)) ∧
      (∀ a, enumerateRc ⟨e, a⟩ = some (reply a).rc) ∧ Function.Surjective reply := by
  rw [enumerateRequest]
  by_cases hold : vol.server.avNumber < 30
  · rw [if_pos hold]
    exact ⟨.request (.enumerate ..), id, rfl, fun _ => rfl, fun reply => ⟨reply, rfl⟩⟩
  · rw [if_neg hold]
    exact ⟨.request (.enumerateExt2 ..), id, rfl, fun _ => rfl, fun reply => ⟨reply, rfl⟩⟩

/-- **All results but the last are 0**, after an error there is an errno, and the loop ends. -/
theorem tracks_readdirLoop (hfirst : FirstHandled results) (dirid : UInt32)
    (filebitmap dirbitmap : ℕ) (basename : CString) (fuel startindex : ℕ)
    (filebase : List AfpFileInfo) (hzeros : Zeros results tr) :
    Prog.Tracks (fun tr' _ => Zeros results tr') (Quiet results)
      (fun tr' loop => Reported results tr' loop.1) tr
      (readdirLoop vol dirid filebitmap dirbitmap basename fuel startindex filebase) := by
  induction fuel generalizing startindex filebase tr with
  | zero => exact hzeros.quiet
  | succ fuel ih =>
    obtain ⟨e, reply, heq, hrc, -⟩ :=
      enumerateRequest_eq vol dirid filebitmap dirbitmap startindex basename
    rw [readdirLoop, heq]
    refine ⟨hzeros, fun a => ?_⟩
    have hev := hrc a
    have hhandled := fun h => hzeros.handled hfirst hev h
    -- a listed error becomes an errno, and the rest is no error
    have herror : ∀ {errno : ℤ} {filebase' : List AfpFileInfo}, 0 < errno →
        Prog.Tracks (fun tr' _ => Zeros results tr') (Quiet results)
          (fun tr' loop => Reported results tr' loop.1) (tr ++ [⟨e, a⟩])
          (.done (errno, filebase')) := fun hpos _ _ => hpos
    refine Prog.tracks_ite (fun _ => herror (by decide)) fun hlost => ?_
    refine Prog.tracks_ite (fun h => ih _ _ (hzeros.snoc hev fun _ => h)) fun hzero => ?_
    refine Prog.tracks_ite (fun hend hanswered hbad => ?_) fun hend => ?_
    · obtain ⟨rc, hmem, hne, hne'⟩ := hbad
      rw [rcs_snoc hev, List.mem_append, List.mem_singleton] at hmem
      rcases hmem with hmem | rfl
      · exact absurd (hzeros (hanswered.of_snoc hev).1 rc hmem) hne
      · exact absurd hend hne'
    refine Prog.tracks_ite (fun _ => herror (by decide)) fun hdenied => ?_
    refine Prog.tracks_ite (fun hmissing hanswered _ => ?_) fun _ => ?_
    · have := hhandled hanswered hzero
      rw [hmissing] at this
      exact absurd this (by decide)
    refine Prog.tracks_ite (fun _ => herror (by decide)) fun hlisted => ih _ _ (hzeros.snoc hev ?_)
    intro hanswered
    have := hhandled hanswered hzero
    simp only [Handled] at this
    exact absurd this (by tauto)

/-- The function: the loop once the directory is found, and the end. -/
theorem tracks_llReaddir (hfirst : FirstHandled results) (path : CString) (resource : Bool)
    (fuel : ℕ) :
    Prog.Tracks (fun tr _ => Zeros results tr) (Quiet results)
      (fun tr res => Answered results tr → (∃ rc ∈ rcs tr, Bad rc) → res.1 < 0 ∧ res.2 = none) []
      (llReaddir vol path resource fuel) := by
  have hnil : ∀ {tr : List Event}, rcs tr = [] → Zeros results tr := fun h _ rc hrc => by
    rw [h] at hrc
    exact absurd hrc List.not_mem_nil
  by_cases hvalid : invalidFilename vol.server path = true
  · rw [llReaddir, if_pos hvalid]
    rintro - ⟨rc, hrc, -⟩
    exact absurd hrc List.not_mem_nil
  obtain ⟨filebitmap, dirbitmap, heq⟩ := llReaddir_eq resource (Bool.not_eq_true _ ▸ hvalid)
  rw [heq]
  have hresolve : Prog.Tracks (fun tr _ => Zeros results tr) (Quiet results)
      (fun tr _ => rcs tr = []) [] (resolve path) := by
    refine (looksUp_resolve path).tracks rfl (fun tr htr => (hnil htr).quiet) fun tr e htr h => ?_
    refine ⟨hnil htr, fun a => ?_⟩
    rw [rcs_append, htr, List.nil_append]
    exact rcs_of_looksUp fun ev hev => List.mem_singleton.mp hev ▸ h
  refine hresolve.bind fun tr found htr => ?_
  refine Prog.tracks_ite (fun _ _ _ => ⟨by decide, rfl⟩) fun _ => ?_
  refine (tracks_readdirLoop hfirst _ _ _ _ _ _ _ (hnil htr)).bind fun tr loop hloop => ?_
  refine Prog.tracks_ite (fun hne hanswered hbad => ⟨?_, rfl⟩) fun hzero => ?_
  · exact Int.neg_neg_of_pos (hloop hanswered hbad)
  · rw [finish]
    -- without an errno there was no error, and a name that cannot be converted changes nothing
    have hquiet : ∀ (_ : Answered results tr) (_ : ∃ rc ∈ rcs tr, Bad rc), False :=
      fun hanswered hbad => absurd (hloop hanswered hbad) (by omega)
    cases loop.2.mapM (converted vol) with
    | none => exact fun hanswered rc hrc hbad => hquiet hanswered ⟨rc, hrc, hbad⟩
    | some list => exact fun hanswered hbad => (hquiet hanswered hbad).elim

/-- Zeros, and one more at most. -/
theorem length_le_of_dropLast {l : List ℤ} (h : ∀ rc ∈ l.dropLast, rc = 0) :
    l.length ≤ l.count 0 + 1 := by
  have hcount : l.dropLast.count 0 = l.dropLast.length :=
    List.count_eq_length.mpr fun rc hrc => (h rc hrc).symm
  have hle : l.dropLast.count 0 ≤ l.count 0 := l.dropLast_sublist.count_le 0
  rw [List.length_dropLast] at hcount
  omega

/-- The results before the last one are from the requests before the last one. -/
theorem exists_split {tr : List Event} {l : List ℤ} (h : rcs tr = l ++ [rc]) :
    ∃ tr₁ ev tr₂, tr = tr₁ ++ ev :: tr₂ ∧ rcs tr₁ = l ∧ enumerateRc ev = some rc := by
  obtain ⟨tr₁, rest, rfl, hl, hrest⟩ := List.filterMap_eq_append_iff.mp h
  obtain ⟨tr₂, ev, tr₃, rfl, hnone, hev, -⟩ := List.filterMap_eq_cons_iff.mp hrest
  refine ⟨tr₁ ++ tr₂, ev, tr₃, by rw [List.append_assoc], ?_, hev⟩
  rw [rcs_append, rcs, hl, rcs, List.filterMap_eq_nil_iff.mpr hnone, List.append_nil]

theorem Answered.of_append {tr tr' : List Event} (h : Answered results (tr ++ tr')) :
    Answered results tr := by
  rw [Answered, rcs_append, List.length_append, List.range_add, List.map_append] at h
  exact (List.append_inj h (by rw [List.length_map, List.length_range])).1

theorem stopsOnError_of_firstHandled (hfirst : FirstHandled results) (path : CString)
    (resource : Bool) : StopsOnError vol path resource results := by
  intro fuel tr q hsteps hanswered
  obtain ⟨hallowed, hend⟩ := (tracks_llReaddir hfirst path resource fuel).steps hsteps
  rw [List.nil_append] at hend
  have hzeros : ∀ rc ∈ (rcs tr).dropLast, rc = 0 := by
    rcases List.eq_nil_or_concat (rcs tr) with hnil | ⟨l, rc, hl⟩
    · rw [hnil]
      exact fun rc hrc => absurd hrc List.not_mem_nil
    · rw [List.concat_eq_append] at hl
      obtain ⟨tr₁, ev, tr₂, rfl, rfl, -⟩ := exists_split hl
      rw [hl, List.dropLast_concat]
      exact hallowed _ _ _ rfl hanswered.of_append
  refine ⟨fun rc hrc hbad => hbad.1 (hzeros rc hrc), ?_, length_le_of_dropLast hzeros⟩
  rintro ⟨rc, hrc, hbad⟩
  -- a bad result is no zero, so that nothing is left to be done, and the call is not stuck
  cases q with
  | done res =>
    obtain ⟨hneg, hnone⟩ := hend hanswered ⟨rc, hrc, hbad⟩
    exact ⟨res.1, hneg, by rw [← hnone]⟩
  | act e k => exact absurd (hend.1 hanswered rc hrc) hbad.1
  | stuck => exact absurd hbad (hend hanswered rc hrc)

/-! ## What is not handled -/

/-- A request can be answered by any result without entries: the loop goes on with a result that is
not handled as with 0, and leaves with what it has if the directory is missing. -/
theorem exists_step (vol : Volume) (dirid : UInt32) (filebitmap dirbitmap : ℕ) (basename : CString)
    (fuel startindex : ℕ) (filebase : List AfpFileInfo) (rc : ℤ) :
    ∃ ev q, enumerateRc ev = some rc ∧
      Prog.Steps (readdirLoop vol dirid filebitmap dirbitmap basename (fuel + 1) startindex filebase)
        [ev] q ∧
      (rc = 0 ∨ ¬ Handled rc ∧ rc ≠ kFPDirNotFound →
        q = readdirLoop vol dirid filebitmap dirbitmap basename fuel startindex filebase) ∧
      (rc = kFPDirNotFound → q = .done (0, filebase)) := by
  obtain ⟨e, reply, heq, hrc, hsurj⟩ :=
    enumerateRequest_eq vol dirid filebitmap dirbitmap startindex basename
  obtain ⟨a, ha⟩ := hsurj ⟨rc, none⟩
  rw [readdirLoop, heq]
  refine ⟨⟨e, a⟩, _, by rw [hrc, ha], .act (.refl _), ?_, ?_⟩
  · beta_reduce
    rw [ha]
    show _ → (if rc = -1 then _ else _) = _
    rintro (rfl | ⟨hhandled, hmissing⟩)
    · rw [if_neg (by decide), if_pos rfl]
      show readdirLoop _ _ _ _ _ _ _ (filebase ++ []) = _
      rw [List.append_nil]
      rfl
    · simp only [Handled, not_or] at hhandled
      obtain ⟨hend, hlost, hdenied, hlisted⟩ := hhandled
      rw [if_neg hlost]
      by_cases hzero : rc = 0
      · rw [if_pos hzero]
        show readdirLoop _ _ _ _ _ _ _ (filebase ++ []) = _
        rw [List.append_nil]
        rfl
      · rw [if_neg hzero, if_neg hend, if_neg hdenied, if_neg hmissing, if_neg (by tauto)]
  · rintro rfl
    beta_reduce
    rw [ha]
    rfl

/-- A run that starts with empty batches. -/
theorem exists_zeros (vol : Volume) (dirid : UInt32) (filebitmap dirbitmap : ℕ)
    (basename : CString) (fuel startindex : ℕ) (filebase : List AfpFileInfo) (k : ℕ) :
    ∃ tr, rcs tr = List.replicate k 0 ∧
      Prog.Steps (readdirLoop vol dirid filebitmap dirbitmap basename (fuel + k) startindex filebase)
        tr (readdirLoop vol dirid filebitmap dirbitmap basename fuel startindex filebase) := by
  induction k with
  | zero => exact ⟨[], rfl, .refl _⟩
  | succ k ih =>
    obtain ⟨tr, hrcs, hsteps⟩ := ih
    obtain ⟨ev, q, hev, hstep, hzero, -⟩ :=
      exists_step vol dirid filebitmap dirbitmap basename (fuel + k) startindex filebase 0
    rw [hzero (.inl rfl)] at hstep
    refine ⟨ev :: tr, ?_, hstep.trans hsteps⟩
    rw [rcs, List.filterMap_cons_some hev, List.replicate_succ]
    exact congrArg _ hrcs

variable {path : CString} {resource : Bool}

/-- The end of `ll_readdir()`, behind its loop. -/
def ending (vol : Volume) (loop : ℤ × List AfpFileInfo) : AfpM (ℤ × Option (List AfpFileInfo)) :=
  if loop.1 ≠ 0 then pure (-loop.1, none) else finish vol loop.2

theorem ending_nil (vol : Volume) : ending vol (0, []) = .done (0, some []) := by
  rw [ending, if_neg (not_not.mpr rfl), finish]
  by_cases hold : vol.server.avNumber < 30
  · simp [hold, ofOption]
  · simp [hold, ofOption]

/-- What the loop can do, `ll_readdir()` can do once it has found the directory. -/
theorem exists_found (hpath : path.head? = some slash) (hfits : Fits path)
    (hvalid : invalidFilename vol.server path = false) (resource : Bool) :
    ∃ dirid filebitmap dirbitmap basename tr₀, rcs tr₀ = [] ∧ ∀ fuel tr q,
      Prog.Steps (readdirLoop vol dirid filebitmap dirbitmap basename fuel 1 []) tr q →
        Prog.Steps (llReaddir vol path resource fuel) (tr₀ ++ tr) (q >>= ending vol) := by
  obtain ⟨filebitmap, dirbitmap, heq⟩ := llReaddir_eq resource hvalid
  have hyields : Prog.Yields (fun _ => True) (fun res => res.1 = 0) (resolve path) :=
    yields_resolve hpath hfits
  obtain ⟨tr₀, ⟨ret, basename, dirid⟩, hresolve, hret⟩ :=
    hyields.exists_steps fun e => ⟨e.zeroAnswer, trivial⟩
  obtain rfl : ret = 0 := hret
  refine ⟨dirid, filebitmap, dirbitmap, basename, tr₀,
    rcs_of_looksUp ((looksUp_resolve path).steps hresolve), fun fuel tr q h => ?_⟩
  rw [heq]
  refine hresolve.bind ?_
  rw [if_neg (lt_irrefl 0)]
  exact h.bind_left _

/-- **Every result that comes first after zeros is handled**, if the listing stops with its first
error. -/
theorem StopsOnError.firstHandled (hpath : path.head? = some slash) (hfits : Fits path)
    (hvalid : invalidFilename vol.server path = false) (h : StopsOnError vol path resource results) :
    FirstHandled results := by
  intro k hzeros hne
  by_contra hhandled
  have hbad : Bad (results k) := ⟨hne, fun hend => hhandled (.inl hend)⟩
  obtain ⟨dirid, filebitmap, dirbitmap, basename, tr₀, hnil, hlift⟩ :=
    exists_found hpath hfits hvalid resource
  -- the first `k` batches are empty, and the next request fails
  obtain ⟨tr, hrcs, hsteps⟩ := exists_zeros vol dirid filebitmap dirbitmap basename 2 1 [] k
  obtain ⟨ev, q, hev, hstep, hagain, hmissing⟩ :=
    exists_step vol dirid filebitmap dirbitmap basename 1 1 [] (results k)
  have htr : rcs (tr₀ ++ (tr ++ [ev])) = List.replicate k 0 ++ [results k] := by
    rw [rcs_append, hnil, rcs_snoc hev, hrcs, List.nil_append]
  have hmap : (List.range k).map results = List.replicate k 0 := by
    refine List.eq_replicate_iff.mpr ⟨by rw [List.length_map, List.length_range], ?_⟩
    intro rc hrc
    obtain ⟨i, hi, rfl⟩ := List.mem_map.mp hrc
    exact hzeros i (List.mem_range.mp hi)
  by_cases hdir : results k = kFPDirNotFound
  · -- the directory is missing, and an empty listing is returned
    have hdone := hlift _ _ _ (hsteps.trans hstep)
    rw [hmissing hdir, Prog.done_bind, ending_nil] at hdone
    have hstopped := h _ _ _ hdone (by
      rw [Answered, htr, List.length_append, List.length_replicate, List.length_singleton,
        List.range_succ, List.map_append, hmap]
      rfl)
    obtain ⟨ret, -, hret⟩ := hstopped.failed ⟨results k, by simp [htr], hbad⟩
    cases hret
  · -- the request is sent again
    obtain ⟨ev', q', hev', hstep', -, -⟩ :=
      exists_step vol dirid filebitmap dirbitmap basename 0 1 [] (results (k + 1))
    rw [hagain (.inr ⟨hhandled, hdir⟩)] at hstep
    have htr' : rcs (tr₀ ++ (tr ++ [ev] ++ [ev'])) =
        List.replicate k 0 ++ [results k] ++ [results (k + 1)] := by
      rw [← List.append_assoc, rcs_snoc hev', htr]
    have hstopped := h _ _ _ (hlift _ _ _ ((hsteps.trans hstep).trans hstep')) (by
      rw [Answered, htr', List.length_append, List.length_append, List.length_replicate,
        List.length_singleton, List.length_singleton, List.range_succ, List.range_succ,
        List.map_append, List.map_append, hmap]
      rfl)
    have hlast := hstopped.last (results k)
    rw [htr', List.dropLast_concat] at hlast
    exact hlast (by simp) hbad

/-- **The listing stops with its first error exactly if that error is handled**, or no request is
sent because a name in the path is too long.  The path is absolute and not longer than it can be, as
`convert_path_to_afp()` makes it. -/
theorem stopsOnError_iff (hpath : path.head? = some slash) (hfits : Fits path) :
    StopsOnError vol path resource results ↔
      invalidFilename vol.server path = true ∨ FirstHandled results := by
  constructor
  · intro h
    cases hvalid : invalidFilename vol.server path with
    | true => exact .inl rfl
    | false => exact .inr (h.firstHandled hpath hfits hvalid)
  · rintro (hvalid | hfirst)
    · intro fuel tr q hsteps _
      rw [llReaddir, if_pos hvalid] at hsteps
      obtain ⟨rfl, rfl⟩ := Prog.steps_done_iff.mp hsteps
      refine ⟨fun rc hrc => absurd hrc List.not_mem_nil, ?_, Nat.zero_le _⟩
      rintro ⟨rc, hrc, -⟩
      exact absurd hrc List.not_mem_nil
    · exact stopsOnError_of_firstHandled hfirst path resource

/-- A listing of the root without access to it. -/
theorem stopsOnError_iff_of_denied :
    StopsOnError .plain [slash] false (fun _ => kFPAccessDenied) ↔
      invalidFilename Volume.plain.server [slash] = true ∨ FirstHandled fun _ => kFPAccessDenied :=
  stopsOnError_iff rfl fits_root

/-- **A missing directory** is an empty one: the root, which the server answers with
`kFPDirNotFound`.  That is an error, and the call returns 0 with an empty list. -/
theorem missing_directory_is_empty :
    ¬ StopsOnError .plain [slash] false (fun _ => kFPDirNotFound) := by
  intro h
  have hfirst := h.firstHandled rfl fits_root (by decide)
  have hhandled : Handled kFPDirNotFound :=
    hfirst 0 (fun i hi => absurd hi (Nat.not_lt_zero i)) (by decide)
  exact absurd hhandled (by decide)

end

end EnumerateErrors
end Afpfs
