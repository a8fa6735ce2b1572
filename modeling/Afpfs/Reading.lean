import Afpfs.Locking

/-!
# What a read returns

`ll_read()` looks at the result of its request in a `switch` that has no default.  A result that is
not listed there is taken for a success, with what has arrived in the buffer by then.

* `told_iff`: the result tells what happened exactly if the result of the read request is listed, or
  the range cannot be unlocked.
* `timeout_reads_nothing`: a request that is never answered is an empty read.
-/

set_option autoImplicit false

namespace Afpfs
namespace Reading

open Interaction Locking

/-! ## What is expected -/

/-- The reply to a read request. -/
def readReply : Event → Option (Reply (List UInt8))
  | ⟨.request (.read ..), reply⟩ => some reply
  | ⟨.request (.readExt ..), reply⟩ => some reply
  | _ => none

/-- The replies to the read requests of a trace. -/
def reads (tr : List Event) : List (Reply (List UInt8)) := tr.filterMap readReply

/-- The result of an unlock request. -/
def unlockRc (entry : Request × ℤ) : Option ℤ :=
  match lockRange entry.1 with
  | some (true, _) => some entry.2
  | _ => none

/-- An unlock request was refused. -/
def UnlockFailed (tr : List Event) : Prop :=
  ∃ rc ∈ (requests tr).filterMap unlockRc, rc ≠ kFPNoErr

/-- The result of a read tells what happened: the read request was answered without an error, perhaps
at the end of the file, and the buffer has the bytes that were sent; or it is a negative errno. -/
structure Told (tr : List Event) (ret : ℤ) (buffer : List UInt8) (eof : Bool) : Prop where
  success : 0 ≤ ret → ∃ reply ∈ reads tr, (reply.rc = kFPNoErr ∨ reply.rc = kFPEOFErr) ∧
    buffer = reply.stored.getD [] ∧ ret = buffer.length ∧ (eof = true ↔ reply.rc = kFPEOFErr)
  failure : ret < 0 → ∃ errno ∈ [EACCES, EBUSY, EIO], ret = -errno

/-- The results in the `switch` of `ll_read()`. -/
def Listed (rc : ℤ) : Prop :=
  rc = kFPAccessDenied ∨ rc = kFPLockErr ∨ rc = kFPMiscErr ∨ rc = kFPParamErr ∨ rc = kFPEOFErr ∨
    rc = kFPNoErr

/-! ## The parts of a read -/

section

variable {tr tr' : List Event} {volume : Volume} {size offset : ℕ} {forkid : UInt16}

theorem reads_append (tr tr' : List Event) : reads (tr ++ tr') = reads tr ++ reads tr' :=
  List.filterMap_append ..

theorem unlockFailed_append :
    UnlockFailed (tr ++ tr') ↔ UnlockFailed tr ∨ UnlockFailed tr' := by
  simp only [UnlockFailed, requests_append, List.filterMap_append, List.mem_append, or_and_right,
    exists_or]

/-- A request for a lock reads nothing. -/
theorem readReply_of_lockRange {r : Request} {lock : Bool × Range} (h : lockRange r = some lock)
    (reply : Reply r.Payload) : readReply ⟨.request r, reply⟩ = none := by
  cases r
  case byteRangeLock | byteRangeLockExt => rfl
  all_goals cases h

/-- What asks for a lock, and the pauses. -/
def Asks : Effect → Prop
  | .request r => ∃ range, lockRange r = some (false, range)
  | .sleep => True
  | _ => False

/-- Asking for a lock reads nothing and unlocks nothing. -/
theorem of_asks (h : ∀ ev ∈ tr, Asks ev.1) : reads tr = [] ∧ ¬ UnlockFailed tr := by
  constructor
  · refine List.filterMap_eq_nil_iff.mpr fun ev hev => ?_
    obtain ⟨e, a⟩ := ev
    have hasks : Asks e := h _ hev
    cases e with
    | request r =>
      obtain ⟨range, hrange⟩ := hasks
      exact readReply_of_lockRange hrange a
    | sleep => rfl
    | _ => exact hasks.elim
  · rintro ⟨rc, hrc, -⟩
    obtain ⟨entry, hentry, hunlock⟩ := List.mem_filterMap.mp hrc
    obtain ⟨⟨e, a⟩, hev, hrequest⟩ := List.mem_filterMap.mp hentry
    have hasks : Asks e := h _ hev
    cases e with
    | request r =>
      obtain ⟨range, hrange⟩ := hasks
      rw [← Option.some.inj hrequest, unlockRc, hrange] at hunlock
      cases hunlock
    | sleep => cases hrequest
    | _ => exact hasks.elim

theorem asks_lockLoop (tries : ℕ) :
    Prog.AllActs Asks (lockLoop volume forkid offset size tries) := by
  induction tries with
  | zero => exact trivial
  | succ tries ih =>
    rw [lockLoop, byteRangeLock_eq]
    refine ⟨⟨_, lockRange_lockOf volume false forkid offset size⟩, fun reply => ?_⟩
    refine Prog.allActs_ite.mpr ⟨fun _ => trivial, fun _ => Prog.allActs_ite.mpr ⟨fun _ => ?_, ?_⟩⟩
    · exact ⟨trivial, fun _ => ih⟩
    · exact fun _ => trivial

theorem returns_llHandleLocking :
    Prog.Returns (fun tr _ => reads tr = [] ∧ ¬ UnlockFailed tr)
      (llHandleLocking volume forkid offset size) := by
  rw [llHandleLocking]
  split
  · exact of_asks fun ev h => absurd h List.not_mem_nil
  · exact (asks_lockLoop maxLocktrycount).returns.mono fun tr _ h => of_asks h

/-- Unlocking fails exactly if its request is refused. -/
theorem returns_llHandleUnlocking :
    Prog.Returns (fun tr ret => reads tr = [] ∧ (ret ≠ 0 ↔ UnlockFailed tr))
      (llHandleUnlocking volume forkid offset size) := by
  rw [llHandleUnlocking]
  split
  · refine ⟨rfl, iff_of_false (not_not.mpr rfl) ?_⟩
    rintro ⟨rc, hrc, -⟩
    exact absurd hrc List.not_mem_nil
  · rw [byteRangeLock_eq]
    refine fun reply => ?_
    have hrefused : UnlockFailed [⟨.request (lockOf volume true forkid offset size), reply⟩] ↔
        reply.rc ≠ kFPNoErr := by
      have hrcs : (requests [⟨.request (lockOf volume true forkid offset size), reply⟩]).filterMap
          unlockRc = [reply.rc] := by
        show ([(lockOf volume true forkid offset size, reply.rc)] : Writing.Log).filterMap
          unlockRc = _
        rw [List.filterMap_cons, unlockRc, lockRange_lockOf]
        rfl
      rw [UnlockFailed, hrcs]
      simp
    have hreads : reads [⟨.request (lockOf volume true forkid offset size), reply⟩] = [] := by
      refine List.filterMap_eq_nil_iff.mpr fun ev hev => ?_
      rw [List.mem_singleton.mp hev]
      exact readReply_of_lockRange (lockRange_lockOf volume true forkid offset size) reply
    refine Prog.returns_ite (fun hok => ⟨hreads, ?_⟩) fun hok => ⟨hreads, ?_⟩
    · exact iff_of_false (not_not.mpr rfl) fun h => hrefused.mp h hok
    · exact iff_of_true (by decide) (hrefused.mpr hok)

theorem returns_readRequest {maxsize : UInt32} :
    Prog.Returns (fun tr reply => reads tr = [reply] ∧ ¬ UnlockFailed tr)
      (readRequest volume forkid offset size maxsize) := by
  have hnone : ∀ r, lockRange r = none → ∀ reply, ¬ UnlockFailed [⟨.request r, reply⟩] := by
    rintro r hr reply ⟨rc, hrc, -⟩
    have hrcs : (requests [⟨.request r, reply⟩]).filterMap unlockRc = [] := by
      show ([(r, Reply.rc reply)] : Writing.Log).filterMap unlockRc = []
      rw [List.filterMap_cons, unlockRc, hr]
      rfl
    rw [hrcs] at hrc
    exact absurd hrc List.not_mem_nil
  unfold readRequest
  split
  · exact fun reply => ⟨rfl, hnone _ rfl reply⟩
  · exact fun reply => ⟨rfl, hnone _ rfl reply⟩

end

/-! ## The result -/

/-- A negative errno tells only that the read has failed. -/
theorem told_of_errno {tr : List Event} {errno : ℤ} (h : errno ∈ [EACCES, EBUSY, EIO])
    (buffer : List UInt8) (eof : Bool) : Told tr (-errno) buffer eof := by
  have hpos : ∀ errno ∈ [EACCES, EBUSY, EIO], 0 < errno := List.forall_iff_forall_mem.mp (by decide)
  refine ⟨fun hle => ?_, fun _ => ⟨errno, h, rfl⟩⟩
  have := hpos errno h
  omega

/-- **The result tells what happened** exactly if the result of the read request is listed, or the
range could not be unlocked. -/
theorem told_iff (volume : Volume) (size offset : ℕ) (forkid : UInt16) :
    Prog.Returns (fun tr result => Told tr result.1 result.2.1 result.2.2 ↔
        ∀ reply ∈ reads tr, Listed reply.rc ∨ UnlockFailed tr)
      (llRead volume size offset forkid) := by
  unfold llRead
  refine (returns_llHandleLocking.mono fun tr₀ locked h₀ => ?_).bind
  refine Prog.returns_ite (fun _ => ?_) fun _ => ?_
  · -- no lock, no read request
    refine iff_of_true (told_of_errno (by decide) _ _) fun reply hreply => ?_
    rw [List.append_nil, h₀.1] at hreply
    exact absurd hreply List.not_mem_nil
  refine (returns_readRequest.mono fun tr₁ reply h₁ => ?_).bind
  refine (returns_llHandleUnlocking.mono fun tr₂ unlocked h₂ => ?_).bind
  have hreads : reads (tr₀ ++ (tr₁ ++ (tr₂ ++ []))) = [reply] := by
    rw [reads_append, reads_append, reads_append, h₀.1, h₁.1, h₂.1]
    rfl
  have hcond : (∀ reply' ∈ reads (tr₀ ++ (tr₁ ++ (tr₂ ++ []))), Listed reply'.rc ∨
      UnlockFailed (tr₀ ++ (tr₁ ++ (tr₂ ++ [])))) ↔ Listed reply.rc ∨ unlocked ≠ 0 := by
    rw [hreads, List.append_nil, unlockFailed_append, unlockFailed_append, ← h₂.2]
    simp only [h₀.2, h₁.2, false_or, List.mem_singleton, forall_eq]
  refine Prog.returns_ite (fun hunlock => ?_) fun hunlock => ?_
  · exact iff_of_true (told_of_errno (by decide) _ _) (hcond.mpr (.inr hunlock))
  refine Prog.returns_ite (fun hrc => ?_) fun hdenied => Prog.returns_ite (fun hrc => ?_) fun hlock =>
    Prog.returns_ite (fun hrc => ?_) fun hmisc => ?_
  · exact iff_of_true (told_of_errno (by decide) _ _) (hcond.mpr (.inl (.inl hrc)))
  · exact iff_of_true (told_of_errno (by decide) _ _) (hcond.mpr (.inl (.inr (.inl hrc))))
  · refine iff_of_true (told_of_errno (by decide) _ _) (hcond.mpr (.inl ?_))
    rcases hrc with h | h
    · exact .inr (.inr (.inl h))
    · exact .inr (.inr (.inr (.inl h)))
  · -- the rest of the `switch` is taken for a success
    refine Iff.trans ?_ hcond.symm
    constructor
    · intro htold
      obtain ⟨reply', hmem, hrc, -⟩ := htold.success (Int.natCast_nonneg _)
      rw [hreads, List.mem_singleton] at hmem
      rw [hmem] at hrc
      rcases hrc with h | h
      · exact .inl (.inr (.inr (.inr (.inr (.inr h)))))
      · exact .inl (.inr (.inr (.inr (.inr (.inl h)))))
    · intro hlisted
      have hrc : reply.rc = kFPNoErr ∨ reply.rc = kFPEOFErr := by
        rcases hlisted.resolve_right hunlock with h | h | h | h | h | h
        · exact absurd h hdenied
        · exact absurd h hlock
        · exact absurd (.inl h) hmisc
        · exact absurd (.inr h) hmisc
        · exact .inr h
        · exact .inl h
      refine ⟨fun _ => ⟨reply, ?_, hrc, rfl, rfl, decide_eq_true_iff⟩, fun hlt => ?_⟩
      · rw [hreads]
        exact List.mem_singleton_self reply
      · have hle : (0 : ℤ) ≤ (reply.stored.getD []).length := Int.natCast_nonneg _
        exact absurd hlt (Int.not_lt.mpr hle)

/-- **A request that is never answered.**  `dsi_send()` returns `ETIMEDOUT`, and the read comes to
an end with 0 bytes and without the end of the file. -/
theorem timeout_reads_nothing :
    ¬ ∀ (volume : Volume) (size offset : ℕ) (forkid : UInt16) (tr : List Event)
      (result : ℤ × List UInt8 × Bool),
      Prog.Steps (llRead volume size offset forkid) tr (.done result) →
        Told tr result.1 result.2.1 result.2.2 := by
  intro h
  have hsteps : Prog.Steps
      (llRead { Volume.plain with extraFlags := VOLUME_EXTRA_FLAGS_NO_LOCKING } 5 0 7)
      [⟨.request (.readExt 7 0 5 5), (⟨ETIMEDOUT, none⟩ : Reply (List UInt8))⟩] (.done (0, [], false)) :=
    .act (.refl _)
  obtain ⟨reply, hreply, hrc, -⟩ := (h _ _ _ _ _ _ hsteps).success (Int.le_refl 0)
  rw [List.mem_singleton.mp hreply] at hrc
  exact absurd hrc (by decide)

end Reading
end Afpfs
