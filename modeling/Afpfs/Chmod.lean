import Afpfs.Create
import Afpfs.Lib.Transition

/-!
# Learning what a server does with modes

A Netatalk server may not keep all the bits of the mode of a file.  `set_unixprivs()` finds it out
the first time it sets others than `AFP_CHMOD_ALLOWED_BITS_22`: it reads the mode back, and sets
`VOL_CHMOD_KNOWN` and, if the permissions are not what they should be, `VOL_CHMOD_BROKEN`.  From
then on it leaves out the other bits if the latter is set.

A run is any number of calls with any arguments, each seeing the flags as the one before left them.

* `outcome_setUnixprivs`: what one call does with the flags.
* `adapted_run`: what is found out, in every run in which a reply to the lookup has the mode.
* `verdict_without_mode`: a reply that is too short.
-/

set_option autoImplicit false

namespace Afpfs
namespace Chmod

open Unicode Interaction Transition Translate

/-! ## The flags in a trace -/

/-- The events of a trace. -/
abbrev Event := (e : Effect) × e.Answer

/-- The flags are `f` before the events and `f'` after them. -/
def Serves : ChmodFlags → List Event → ChmodFlags → Prop
  | f, [], f' => f' = f
  | f, ⟨.chmodFlags, flags⟩ :: tr, f' => flags = f ∧ Serves f tr f'
  | _, ⟨.setChmodFlags flags, _⟩ :: tr, f' => Serves flags tr f'
  | f, _ :: tr, f' => Serves f tr f'

/-- The event writes the flags. -/
def isVerdict : Event → Bool
  | ⟨.setChmodFlags _, _⟩ => true
  | _ => false

/-! ## Calls -/

/-- A call of `set_unixprivs()` and what happens in it. -/
structure Call where
  dirid : UInt32
  basename : CString
  fp : AfpFileInfo
  trace : List Event

/-- The call stores a verdict. -/
def Call.stores (call : Call) : Bool := call.trace.any isVerdict

/-- The call is made and returns. -/
def Step (vol : Volume) (f : ChmodFlags) (call : Call) (f' : ChmodFlags) : Prop :=
  ∃ res, Prog.Steps (setUnixprivs vol call.dirid call.basename call.fp) call.trace (.done res) ∧
    Serves f call.trace f'

/-- The permissions that the call asks for. -/
def Call.requested (call : Call) : UInt32 := call.fp.unixprivs.permissions &&& .ofNat TOCHECK_BITS

/-- The reply to a lookup. -/
def lookupReply : Event → Option (Reply AfpFileInfo)
  | ⟨.request (.getFileDirParms ..), reply⟩ => some reply
  | _ => none

/-- The verdict is about the permissions that were read back. -/
def Judged (call : Call) (f' : ChmodFlags) : Prop :=
  ∃ reply ∈ call.trace.filterMap lookupReply, ∃ info,
    reply.rc = kFPNoErr ∧ reply.stored = some info ∧
      (f'.broken = true ↔ info.unixprivs.permissions &&& .ofNat TOCHECK_BITS ≠ call.requested)

/-- A request for the mode of a file asks for no other bits. -/
def Stripped : Event → Prop
  | ⟨.request (.setFileDirParms _ _ _ fp), _⟩ => hasExtraBits fp.unixprivs.permissions = false
  | _ => True

/-- The flags after some calls, and what the next steps can do. -/
structure Adapted (step : ChmodFlags → Call → ChmodFlags → Prop) (calls : List Call)
    (f : ChmodFlags) : Prop where
  /-- Known flags do not change any more. -/
  kept : f.known = true → ∀ calls' f', Run step f calls' f' → f' = f
  /-- A server is not broken before that is known. -/
  known : f.broken = true → f.known = true
  /-- There was one verdict at most. -/
  once : (calls.filter Call.stores).length ≤ 1
  /-- The next verdict is about what was asked for and what was read back. -/
  verdict : ∀ call f', step f call f' → call.stores = true → f'.known = true ∧ Judged call f'
  /-- A broken server is not asked for more than it can. -/
  stripped : f.broken = true → ∀ call f', step f call f' → ∀ ev ∈ call.trace, Stripped ev

/-- Every lookup that succeeds in the call has the parameters in its reply. -/
def Answered (call : Call) : Prop :=
  ∀ reply ∈ call.trace.filterMap lookupReply, reply.rc = kFPNoErr → reply.stored.isSome

/-! ## One call -/

/-- What a call does. -/
structure Outcome (vol : Volume) (call : Call) (f f' : ChmodFlags) : Prop where
  stripped : vol.server.serverType = .netatalk → f.known = true → f.broken = true →
    ∀ ev ∈ call.trace, Stripped ev
  flags : (f' = f ∧ call.stores = false) ∨
    (f.known = false ∧ f'.known = true ∧ (Answered call → Judged call f'))

/-- Stripped bits are those that are allowed. -/
theorem hasExtraBits_stripped (permissions : UInt32) :
    hasExtraBits (permissions &&& .ofNat AFP_CHMOD_ALLOWED_BITS_22) = false := by
  refine decide_eq_false (not_not.mpr ?_)
  rw [UInt32.and_assoc, UInt32.and_not_self, UInt32.and_zero]

theorem lookupErr_ne_zero {rc : ℤ} (h : rc ≠ kFPNoErr) : -lookupErr rc ≠ 0 := by
  rw [lookupErr, if_neg h]
  split
  · decide
  · split <;> decide

/-- The request is one event, which does not touch the flags. -/
theorem returns_setPrivs (dirid : UInt32) (basename : CString) (fp : AfpFileInfo) :
    Prog.Returns (fun tr _ => ∃ ev, tr = [ev] ∧ isVerdict ev = false ∧
        (∀ f tr' f', Serves f (ev :: tr') f' → Serves f tr' f') ∧
        (fp.isdir = false → hasExtraBits fp.unixprivs.permissions = false → Stripped ev) ∧
        (fp.isdir = true → Stripped ev))
      (if fp.isdir then requestRc (.setDirParms dirid basename kFPUnixPrivsBit fp)
      else requestRc (.setFileDirParms dirid basename kFPUnixPrivsBit fp)) := by
  refine Prog.returns_ite (fun hdir reply => ?_) fun hdir reply => ?_
  · exact ⟨_, rfl, rfl, fun _ _ _ h => h, fun h => absurd (hdir.symm.trans h) (by decide), fun _ => trivial⟩
  · exact ⟨_, rfl, rfl, fun _ _ _ h => h, fun _ h => h, fun h => absurd h hdir⟩

theorem returns_setUnixprivs (vol : Volume) (dirid : UInt32) (basename : CString)
    (fp : AfpFileInfo) :
    Prog.Returns (fun tr _ => ∀ f f', Serves f tr f' → Outcome vol ⟨dirid, basename, fp, tr⟩ f f')
      (setUnixprivs vol dirid basename fp) := by
  unfold setUnixprivs
  refine Prog.returns_ite (fun _ => ?_) fun _ => ?_
  · exact fun f f' hf => ⟨fun _ _ _ ev hev => absurd hev List.not_mem_nil, .inl ⟨hf, rfl⟩⟩
  refine Prog.returns_bind_perform (e := Effect.chmodFlags) fun flags => ?_
  extract_lets unixprivs fp'
  -- the bits are left out of the mode of a file if the server is known to be broken
  have hdir : fp'.isdir = fp.isdir := by
    unfold fp'
    split <;> rfl
  have hrequested : flags.known = false → fp'.unixprivs.permissions = fp.unixprivs.permissions := by
    intro hknown
    unfold fp'
    rw [hknown, Bool.and_false, Bool.false_and, if_neg Bool.false_ne_true]
  have hstrip : fp.isdir = false → vol.server.serverType = .netatalk → flags.known = true →
      flags.broken = true → hasExtraBits fp'.unixprivs.permissions = false := by
    intro hfile hnetatalk hknown hbroken
    unfold fp'
    cases hextra : hasExtraBits fp.unixprivs.permissions with
    | true =>
      rw [if_pos (by simp [hfile, hnetatalk, hknown, hbroken])]
      exact hasExtraBits_stripped _
    | false =>
      rw [if_neg (by simp)]
      exact hextra
  clear_value fp'
  refine .bind ((returns_setPrivs dirid basename fp').mono ?_)
  rintro tr rc ⟨ev, rfl, hquiet, hserves, hfile, hdirectory⟩
  rw [hdir] at hfile hdirectory
  -- the requests after this one are lookups
  have hstripped : ∀ {f : ChmodFlags} {tr : List Event}, flags = f → (∀ ev ∈ tr, Stripped ev) →
      vol.server.serverType = .netatalk → f.known = true → f.broken = true →
      ∀ ev' ∈ (⟨.chmodFlags, flags⟩ :: ev :: tr : List Event), Stripped ev' := by
    rintro f tr rfl htr hnetatalk hknown hbroken
    refine List.forall_mem_cons.mpr ⟨trivial, List.forall_mem_cons.mpr ⟨?_, htr⟩⟩
    cases hisdir : fp.isdir with
    | true => exact hdirectory hisdir
    | false => exact hfile hisdir (hstrip hisdir hnetatalk hknown hbroken)
  have hunchanged : ∀ {f f' : ChmodFlags} {tr : List Event}, flags = f → f' = f →
      (∀ ev ∈ tr, Stripped ev) → tr.any isVerdict = false →
      Outcome vol ⟨dirid, basename, fp, ⟨.chmodFlags, flags⟩ :: ev :: tr⟩ f f' := by
    intro f f' tr hflags hf htr hnone
    refine ⟨hstripped hflags htr, .inl ⟨hf, ?_⟩⟩
    rw [Call.stores, List.any_cons, List.any_cons, hquiet, hnone]
    rfl
  refine Prog.returns_bind_perform (e := Effect.chmodFlags) fun flags' => ?_
  refine Prog.returns_ite (fun hprobe => ?_) fun _ => ?_
  · refine Prog.returns_bind_perform (e := Effect.uninitFileInfo) fun fp2 => ?_
    intro (reply : Reply AfpFileInfo)
    refine Prog.returns_ite (fun _ f f' hf => ?_) fun hrc => ?_
    · obtain ⟨hflags, hrest⟩ : flags = f ∧ _ := hf
      obtain ⟨-, hend⟩ : flags' = f ∧ _ := hserves _ _ _ hrest
      exact hunchanged hflags hend (by simp [Stripped]) rfl
    · obtain ⟨hextra, hknown⟩ : hasExtraBits fp'.unixprivs.permissions = true ∧
          flags'.known = false := by
        simp only [Bool.and_eq_true, Bool.not_eq_true'] at hprobe
        exact ⟨hprobe.1.1, hprobe.1.2⟩
      have hreply : reply.rc = kFPNoErr := by_contra fun h => hrc (lookupErr_ne_zero h)
      -- a verdict, after which the flags are known
      have hverdict : ∀ {f f' : ChmodFlags} {tr : List Event}, flags = f → flags' = f →
          f'.known = true → (∀ ev ∈ tr, Stripped ev) →
          (f'.broken = true ↔ (reply.stored.getD fp2).unixprivs.permissions &&& .ofNat TOCHECK_BITS ≠
            fp'.unixprivs.permissions &&& .ofNat TOCHECK_BITS) →
          Outcome vol ⟨dirid, basename, fp, ⟨.chmodFlags, flags⟩ :: ev :: ⟨.chmodFlags, flags'⟩ ::
            ⟨.uninitFileInfo, fp2⟩ :: ⟨.request (.getFileDirParms dirid kFPUnixPrivsBit
              kFPUnixPrivsBit basename), reply⟩ :: tr⟩ f f' := by
        intro f f' tr hflags hflags' hf' htr hbroken
        refine ⟨hstripped hflags ?_, .inr ⟨hflags' ▸ hknown, hf', fun hanswered => ?_⟩⟩
        · exact List.forall_mem_cons.mpr ⟨trivial, List.forall_mem_cons.mpr ⟨trivial,
            List.forall_mem_cons.mpr ⟨trivial, htr⟩⟩⟩
        have hmem : reply ∈ List.filterMap lookupReply (⟨.chmodFlags, flags⟩ :: ev ::
            ⟨.chmodFlags, flags'⟩ :: ⟨.uninitFileInfo, fp2⟩ :: ⟨.request (.getFileDirParms dirid
              kFPUnixPrivsBit kFPUnixPrivsBit basename), reply⟩ :: tr) :=
          List.mem_filterMap.mpr ⟨⟨.request (.getFileDirParms dirid kFPUnixPrivsBit kFPUnixPrivsBit
            basename), reply⟩, by simp, rfl⟩
        obtain ⟨info, hinfo⟩ := Option.isSome_iff_exists.mp (hanswered reply hmem hreply)
        refine ⟨reply, hmem, info, hreply, hinfo, ?_⟩
        rw [hbroken, hinfo, Call.requested, hrequested (by rw [hflags, ← hflags', hknown])]
        rfl
      refine Prog.returns_bind_perform (e := Effect.chmodFlags) fun flags3 => ?_
      refine Prog.returns_bind_perform (e := Effect.setChmodFlags _) fun _ => ?_
      refine Prog.returns_bind_perform (e := Effect.chmodFlags) fun flags4 => ?_
      refine Prog.returns_ite (fun heq => ?_) fun hne => ?_
      · refine Prog.returns_bind_perform (e := Effect.setChmodFlags _) fun _ f f' hf => ?_
        obtain ⟨hflags, hrest⟩ : flags = f ∧ _ := hf
        obtain ⟨hflags', -, hflags4, hend⟩ : flags' = f ∧ flags3 = f ∧ flags4 = _ ∧ f' = _ :=
          hserves _ _ _ hrest
        refine hverdict hflags hflags' ?_ (by simp [Stripped]) ?_
        · rw [hend, hflags4]
        · rw [hend]
          exact iff_of_false Bool.false_ne_true (not_not.mpr heq)
      · refine Prog.returns_bind_perform (e := Effect.setChmodFlags _) fun _ f f' hf => ?_
        obtain ⟨hflags, hrest⟩ : flags = f ∧ _ := hf
        obtain ⟨hflags', -, hflags4, hend⟩ : flags' = f ∧ flags3 = f ∧ flags4 = _ ∧ f' = _ :=
          hserves _ _ _ hrest
        refine hverdict hflags hflags' ?_ (by simp [Stripped]) ?_
        · rw [hend, hflags4]
        · rw [hend]
          exact iff_of_true rfl hne
  · intro f f' hf
    obtain ⟨hflags, hrest⟩ : flags = f ∧ _ := hf
    obtain ⟨-, hend⟩ : flags' = f ∧ _ := hserves _ _ _ hrest
    exact hunchanged hflags hend (by simp [Stripped]) rfl

theorem outcome_setUnixprivs {vol : Volume} {call : Call} {f f' : ChmodFlags}
    (h : Step vol f call f') : Outcome vol call f f' := by
  obtain ⟨res, hsteps, hserves⟩ := h
  exact (returns_setUnixprivs vol call.dirid call.basename call.fp).steps hsteps f f' hserves

/-! ## Runs -/

section Runs

variable {vol : Volume} {f f' : ChmodFlags} {calls : List Call}

/-- Nothing is known of the server. -/
def unknown : ChmodFlags := ⟨false, false⟩

/-- Once the flags are known no call changes them or stores a verdict. -/
theorem run_of_known (hknown : f.known = true) (hrun : Run (Step vol) f calls f') :
    f' = f ∧ ∀ call ∈ calls, call.stores = false := by
  induction hrun with
  | nil _ => exact ⟨rfl, fun _ hcall => absurd hcall List.not_mem_nil⟩
  | @cons s t u call calls hstep _ ih =>
    rcases (outcome_setUnixprivs hstep).flags with ⟨rfl, hstores⟩ | ⟨hnot, -⟩
    · obtain ⟨rfl, hrest⟩ := ih hknown
      exact ⟨rfl, List.forall_mem_cons.mpr ⟨hstores, hrest⟩⟩
    · exact absurd (hknown.symm.trans hnot) (by decide)

/-- A server is not broken before that is known. -/
theorem known_of_broken (hrun : Run (Step vol) f calls f')
    (h : f.broken = true → f.known = true) : f'.broken = true → f'.known = true := by
  refine Run.invariant (fun f => f.broken = true → f.known = true) ?_ hrun h
  intro f call f' hstep hf
  rcases (outcome_setUnixprivs hstep).flags with ⟨rfl, -⟩ | ⟨-, hknown, -⟩
  · exact hf
  · exact fun _ => hknown

theorem length_filter_stores_le (hrun : Run (Step vol) f calls f') :
    (calls.filter Call.stores).length ≤ 1 := by
  induction hrun with
  | nil _ => exact Nat.zero_le 1
  | @cons s t u call calls hstep hrest ih =>
    rcases (outcome_setUnixprivs hstep).flags with ⟨-, hstores⟩ | ⟨-, hknown, -⟩
    · rwa [List.filter_cons_of_neg (ne_true_of_eq_false hstores)]
    · -- the first verdict is the last one
      have hnone : calls.filter Call.stores = [] := List.filter_eq_nil_iff.mpr fun call' hcall' =>
        ne_true_of_eq_false ((run_of_known hknown hrest).2 call' hcall')
      rw [List.filter_cons, hnone]
      split <;> simp

/-- **What is found out.**  On a Netatalk volume, in every run of calls whose lookups that succeed
have the parameters in their replies. -/
theorem adapted_run (hnetatalk : vol.server.serverType = .netatalk)
    (hrun : Run (Guarded (fun _ call => Answered call) (Step vol)) unknown calls f) :
    Adapted (Guarded (fun _ call => Answered call) (Step vol)) calls f := by
  have hknown := known_of_broken hrun.ofGuarded (fun h => absurd h Bool.false_ne_true)
  refine ⟨fun h calls' f' hrest => (run_of_known h hrest.ofGuarded).1, hknown,
    length_filter_stores_le hrun.ofGuarded, ?_, fun hbroken call f' hstep => ?_⟩
  · rintro call f' ⟨hanswered, hstep⟩ hstores
    rcases (outcome_setUnixprivs hstep).flags with ⟨-, hnot⟩ | ⟨-, hf', hjudged⟩
    · exact absurd (hstores.symm.trans hnot) (by decide)
    · exact ⟨hf', hjudged hanswered⟩
  · exact (outcome_setUnixprivs hstep.2).stripped hnetatalk (hknown hbroken) hbroken

end Runs

/-- A Netatalk volume. -/
def netatalk : Volume := { Volume.plain with server := { Volume.plain.server with
  serverType := .netatalk } }

/-- A file is made executable, and the mode is read back in `reply`. -/
def makeExecutable (reply : Reply AfpFileInfo) (verdict : ChmodFlags) : Call where
  dirid := AFP_ROOT_DID
  basename := ascii ['f']
  fp := AfpFileInfo.zero.setPermissions 0o755
  trace := [⟨.chmodFlags, unknown⟩,
    ⟨.request (.setFileDirParms AFP_ROOT_DID (ascii ['f']) kFPUnixPrivsBit
      (AfpFileInfo.zero.setPermissions 0o755)), ⟨kFPNoErr, none⟩⟩,
    ⟨.chmodFlags, unknown⟩, ⟨.uninitFileInfo, AfpFileInfo.zero⟩,
    ⟨.request (.getFileDirParms AFP_ROOT_DID kFPUnixPrivsBit kFPUnixPrivsBit (ascii ['f'])), reply⟩,
    ⟨.chmodFlags, unknown⟩, ⟨.setChmodFlags ⟨true, false⟩, ()⟩, ⟨.chmodFlags, ⟨true, false⟩⟩,
    ⟨.setChmodFlags verdict, ()⟩]

theorem step_makeExecutable_kept :
    Step netatalk unknown (makeExecutable ⟨kFPNoErr, some (AfpFileInfo.zero.setPermissions 0o755)⟩
      ⟨true, false⟩) ⟨true, false⟩ :=
  ⟨_, .act <| .act <| .act <| .act <| .act <| .act <| .act <| .act <| .act <| .refl _,
    rfl, rfl, rfl, rfl, rfl⟩

theorem step_makeExecutable_lost :
    Step netatalk unknown (makeExecutable ⟨kFPNoErr, none⟩ ⟨true, true⟩) ⟨true, true⟩ :=
  ⟨_, .act <| .act <| .act <| .act <| .act <| .act <| .act <| .act <| .act <| .refl _,
    rfl, rfl, rfl, rfl, rfl⟩

/-- The server keeps the mode. -/
theorem adapted_run_of_executable :
    Adapted (Guarded (fun _ call => Answered call) (Step netatalk))
      [makeExecutable ⟨kFPNoErr, some (AfpFileInfo.zero.setPermissions 0o755)⟩ ⟨true, false⟩]
      ⟨true, false⟩ := by
  refine adapted_run rfl (.cons ⟨fun reply hreply _ => ?_, step_makeExecutable_kept⟩ (.nil _))
  rw [List.mem_singleton.mp hreply]
  rfl

/-- **A reply without the mode.**  The server answers the lookup `kFPNoErr` but sends no parameters,
and what the stack holds is compared with the mode. -/
theorem verdict_without_mode :
    ¬ ∀ (vol : Volume) (calls : List Call) (f : ChmodFlags), vol.server.serverType = .netatalk →
      Run (Step vol) unknown calls f → Adapted (Step vol) calls f := by
  intro h
  obtain ⟨-, reply, hreply, info, -, hinfo, -⟩ :=
    (h netatalk [] unknown rfl (.nil _)).verdict _ _ step_makeExecutable_lost rfl
  rw [List.mem_singleton.mp hreply] at hinfo
  exact absurd hinfo (by simp)

end Chmod
end Afpfs
