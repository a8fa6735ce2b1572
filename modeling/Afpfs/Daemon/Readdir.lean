import Mathlib.Algebra.Order.Group.Nat
import Mathlib.Data.List.TakeDrop
import Afpfs.Daemon.Interface

/-!
# Directories by pages

`process_readdir()` answers with a page of a directory: `count` of its entries from `start` on,
and `eod` if the last one is among them.  `afp_sl_readdir()` is the call of a client.

`Lists` is the loop of a client: it begins with `start` 0, adds the number of entries of each
answer and ends when `eod` is reported.  What is expected is that it obtains the entries of the
directory, each once and in order, and that no page before the last one has the last entry.

* `processReaddir_page` and `processReaddir_eq_outside_iff`: the answer, and when the daemon
  follows the list behind its end.
* `readdir_iff`: the loop obtains the directory exactly if `eod`, which is only ever set and comes
  from fresh memory, is 0 there in each page but the last, the directory is not empty or `eod`
  happens to be set, and the last page begins before `2 ^ 31`; and the list is followed behind its
  end exactly if `start` is the number of the entries, which is not 0.
* `empty_directory_has_no_end`: the loop does not end for an empty directory.
-/

set_option autoImplicit false

namespace Afpfs
namespace Daemon
namespace Readdir

/-! ## The request and the response -/

/-- `sizeof(struct afp_server_readdir_response)`. -/
def responseSize : ℕ := 16

/-- `sizeof(struct afp_file_info_basic)`. -/
def fileInfoSize : ℕ := 800

/-- `maximum_that_will_fit`. -/
def maximumThatWillFit : ℕ := (maxClientResponse - responseSize) / fileInfoSize

/-- `struct afp_server_readdir_request` as it is in `complete_packet`, less the volume and the
path.  `start` and `count` are the values of the fields as unsigned numbers. -/
structure Request where
  /-- The packet has the size of the structure. -/
  complete : Bool
  start : ℕ
  count : ℕ

variable {Entry : Type}

/-- `struct afp_server_readdir_response` and the entries behind it. -/
structure Response (Entry : Type) where
  result : UInt8
  len : ℕ
  numfiles : ℕ
  eod : UInt8
  entries : List Entry

/-- What `process_readdir()` comes to. -/
inductive Outcome (Entry : Type) where
  | response (r : Response Entry)
  /-- The list is followed behind its end. -/
  | outside

/-! ## The answer -/

/-- The loop that advances to the first entry, or finds the end of the list. -/
def advance : ℕ → List Entry → Option (List Entry)
  | 0, fp => some fp
  | _ + 1, [] => none
  | n + 1, _ :: fp => advance n fp

/-- The loop that copies `n` entries.  It sets `eod` and ends at the last one, and follows a null
pointer if there is none. -/
def copyEntries (eod : UInt8) : ℕ → List Entry → Option (List Entry × UInt8)
  | 0, _ => some ([], eod)
  | _ + 1, [] => none
  | _ + 1, [entry] => some ([entry], 1)
  | n + 1, entry :: fp => do
    let (entries, eod) ← copyEntries eod n fp
    some (entry :: entries, eod)

/-- The exit of `process_readdir()` at `error`. -/
def errorResponse (heap : UInt8) : Outcome Entry :=
  .response
    { result := ServerResult.error, len := responseSize, numfiles := 0, eod := heap, entries := [] }

/-- `process_readdir()`.  `filebase` is the list of `afp_ml_readdir()`, or `none` where the volume
is not found or `afp_ml_readdir()` fails; `heap` is what fresh memory has at `eod`. -/
def processReaddir (heap : UInt8) (filebase : Option (List Entry)) (req : Request) :
    Outcome Entry :=
  if req.complete = false ∨ Negative req.start then errorResponse heap
  else
    match filebase with
    | none => errorResponse heap
    | some filebase =>
      let all := filebase.length % 2 ^ 32
      if all < req.start then errorResponse heap
      else
        let numfiles := if req.count < all then req.count else all
        let numfiles :=
          if maximumThatWillFit < numfiles then maximumThatWillFit else numfiles
        let len := responseSize + numfiles * fileInfoSize
        match advance req.start filebase with
        | none =>
          .response
            { result := ServerResult.okay, len := len, numfiles := 0, eod := 1, entries := [] }
        | some fp =>
          match copyEntries heap numfiles fp with
          | none => .outside
          | some (entries, eod) =>
            .response
              { result := ServerResult.okay
                len := len
                numfiles := entries.length
                eod := eod
                entries := entries }

/-- `afp_sl_readdir()`: the entries of a response and whether `eod` is reported, or an error. -/
def afpSlReaddir : Outcome Entry → Option (List Entry × Bool)
  | .outside => none
  | .response r =>
    if r.result ≠ ServerResult.okay then none
    else some (r.entries.take r.numfiles, decide (r.eod ≠ 0))

/-! ## The loop of a client -/

/-- The answer to the request of a client for a page of a directory. -/
def page (L : List Entry) (heap : UInt8) (start count : ℕ) : Option (List Entry × Bool) :=
  afpSlReaddir (processReaddir heap (some L) ⟨true, start, count⟩)

/-- The loop of a client, from its `k`-th call on: it obtains these entries, and `eod` is reported
with the last of them and not before. -/
inductive Lists (L : List Entry) (count : ℕ) (heap : ℕ → UInt8) :
    ℕ → ℕ → List Entry → Prop
  | last {k start : ℕ} {entries : List Entry} :
      page L (heap k) start count = some (entries, true) → Lists L count heap k start entries
  | more {k start : ℕ} {entries rest : List Entry} :
      page L (heap k) start count = some (entries, false) → rest ≠ [] →
        Lists L count heap (k + 1) ((start + entries.length) % 2 ^ 32) rest →
          Lists L count heap k start (entries ++ rest)

/-- The number of entries of a page that is not the last one. -/
def pageSize (count : ℕ) : ℕ := min count maximumThatWillFit

/-- The condition on a directory, the number of entries asked for and the memory. -/
structure Sound (L : List Entry) (count : ℕ) (heap : ℕ → UInt8) : Prop where
  /-- Fresh memory does not have `eod` set, for each page but the last. -/
  unset : ∀ k, (k + 1) * pageSize count < L.length → heap k = 0
  /-- An empty directory is not reported as such, unless `eod` happens to be set. -/
  nonempty : L = [] → heap 0 ≠ 0
  /-- The last page begins before `2 ^ 31`. -/
  start : ∀ k, k * pageSize count < L.length → ¬ Negative (k * pageSize count)

/-! ## The cases -/

theorem advance_eq : ∀ {n : ℕ} {fp : List Entry}, n ≤ fp.length → advance n fp = some (fp.drop n)
  | 0, _, _ => rfl
  | n + 1, _ :: fp, h => by
    rw [advance, List.drop_succ_cons]
    exact advance_eq (Nat.le_of_succ_le_succ h)

/-- The copy of a part of the list that is not empty. -/
theorem copyEntries_eq (eod : UInt8) : ∀ {n : ℕ} {fp : List Entry}, fp ≠ [] → n ≠ 0 →
    copyEntries eod n fp = some (fp.take n, if fp.length ≤ n then 1 else eod)
  | 0, _, _, h => absurd rfl h
  | _, [], h, _ => absurd rfl h
  | n + 1, [entry], _, _ => by
    rw [copyEntries, List.take_succ_cons, List.take_nil, List.length_singleton,
      if_pos (Nat.le_add_left 1 n)]
  | 1, entry :: next :: fp, _, _ => by
    rw [copyEntries, copyEntries, if_neg (by simp)]
    · rfl
    · exact List.cons_ne_nil next fp
  | n + 2, entry :: next :: fp, _, _ => by
    have ih := @copyEntries_eq eod (n + 1) (next :: fp) (List.cons_ne_nil _ _) (Nat.succ_ne_zero n)
    rw [copyEntries, ih, List.take_succ_cons]
    · simp only [List.length_cons, Nat.add_le_add_iff_right]
      rfl
    · exact List.cons_ne_nil next fp

/-- No more entries are copied than were meant to be. -/
theorem length_copyEntries {eod eod' : UInt8} {n : ℕ} {fp entries : List Entry}
    (h : copyEntries eod n fp = some (entries, eod')) : entries.length ≤ n := by
  by_cases hn : n = 0
  · subst hn
    rw [copyEntries, Option.some.injEq, Prod.mk.injEq] at h
    rw [← h.1, List.length_nil]
  · by_cases hfp : fp = []
    · obtain ⟨m, rfl⟩ := Nat.exists_eq_succ_of_ne_zero hn
      rw [hfp, copyEntries] at h
      cases h
    · rw [copyEntries_eq eod hfp hn, Option.some.injEq, Prod.mk.injEq] at h
      rw [← h.1]
      exact List.length_take_le n fp

section

variable {L : List Entry} {heap : UInt8} {start count : ℕ}

/-- The number of entries that `process_readdir()` means to copy. -/
theorem clip_eq (all count : ℕ) :
    (if maximumThatWillFit < (if count < all then count else all) then maximumThatWillFit
      else (if count < all then count else all)) = min all (pageSize count) := by
  rw [pageSize]
  split <;> split at * <;> omega

/-- A request that is not complete, or that has a negative `start`. -/
theorem processReaddir_of_rejected {filebase : Option (List Entry)} {req : Request}
    (h : req.complete = false ∨ Negative req.start) :
    processReaddir heap filebase req = errorResponse heap := if_pos h

theorem processReaddir_of_error (h : Negative start ∨ L.length % 2 ^ 32 < start) :
    processReaddir heap (some L) ⟨true, start, count⟩ = errorResponse heap := by
  rw [processReaddir]
  by_cases hnegative : Negative start
  · exact if_pos (.inr hnegative)
  · rw [if_neg (by simpa using hnegative)]
    exact if_pos (h.resolve_left hnegative)

/-- **The answer** to a request for a part of the directory. -/
theorem processReaddir_eq (hnegative : ¬ Negative start) (hstart : start ≤ L.length % 2 ^ 32) :
    processReaddir heap (some L) ⟨true, start, count⟩ =
      match copyEntries heap (min (L.length % 2 ^ 32) (pageSize count)) (L.drop start) with
      | none => .outside
      | some (entries, eod) =>
        .response
          { result := ServerResult.okay
            len := responseSize + min (L.length % 2 ^ 32) (pageSize count) * fileInfoSize
            numfiles := entries.length
            eod := eod
            entries := entries } := by
  have hle : start ≤ L.length := Nat.le_trans hstart (Nat.mod_le _ _)
  rw [processReaddir, if_neg (by simpa using hnegative)]
  simp only [if_neg (Nat.not_lt.mpr hstart), clip_eq, advance_eq hle]

theorem maximumThatWillFit_eq : maximumThatWillFit = 10 := rfl

theorem pageSize_le (count : ℕ) : pageSize count ≤ 10 := Nat.min_le_right _ _

theorem pageSize_pos (hcount : count ≠ 0) : 0 < pageSize count := by
  rw [pageSize, maximumThatWillFit_eq]
  omega

/-- **The list is followed behind its end** if the page begins there. -/
theorem processReaddir_eq_outside_iff :
    processReaddir heap (some L) ⟨true, start, count⟩ = .outside ↔
      start = L.length ∧ ¬ Negative start ∧ L ≠ [] ∧ count ≠ 0 := by
  by_cases herror : Negative start ∨ L.length % 2 ^ 32 < start
  · rw [processReaddir_of_error herror]
    refine ⟨by rintro ⟨⟩, fun ⟨hstart, hnegative, _, _⟩ => ?_⟩
    have hlt : start < 2 ^ 31 := Nat.lt_of_not_le hnegative
    exact absurd (herror.resolve_left hnegative) (by omega)
  · obtain ⟨hnegative, hle⟩ := not_or.mp herror
    have hlt : start < 2 ^ 31 := Nat.lt_of_not_le hnegative
    rw [processReaddir_eq hnegative (Nat.le_of_not_lt hle)]
    have hmin : min (L.length % 2 ^ 32) (pageSize count) ≠ 0 ↔
        L.length % 2 ^ 32 ≠ 0 ∧ count ≠ 0 := by
      rw [pageSize, maximumThatWillFit_eq]
      omega
    by_cases hn : min (L.length % 2 ^ 32) (pageSize count) = 0
    · rw [hn, copyEntries]
      refine ⟨by rintro ⟨⟩, fun ⟨hstart, _, hL, hcount⟩ => ?_⟩
      have hpos := List.length_pos_iff.mpr hL
      exact absurd hn (hmin.mpr ⟨by omega, hcount⟩)
    · by_cases hstart : start = L.length
      · rw [hstart, List.drop_length]
        obtain ⟨n, hn'⟩ := Nat.exists_eq_succ_of_ne_zero hn
        rw [hn', copyEntries]
        refine ⟨fun _ => ⟨rfl, hstart ▸ hnegative, ?_, (hmin.mp hn).2⟩, fun _ => rfl⟩
        rintro rfl
        exact (hmin.mp hn).1 rfl
      · have hne : L.drop start ≠ [] := by
          rw [Ne, List.drop_eq_nil_iff]
          have := Nat.mod_le L.length (2 ^ 32)
          omega
        rw [copyEntries_eq heap hne hn]
        exact ⟨by rintro ⟨⟩, fun h => absurd h.1 hstart⟩

/-- Elsewhere in the directory the answer is a page. -/
theorem processReaddir_okay (hnegative : ¬ Negative start) (hstart : start ≤ L.length % 2 ^ 32)
    (hinside : ¬ (start = L.length ∧ L ≠ [] ∧ count ≠ 0)) :
    ∃ r, processReaddir heap (some L) ⟨true, start, count⟩ = .response r ∧
      r.result = ServerResult.okay := by
  have hne : processReaddir heap (some L) ⟨true, start, count⟩ ≠ .outside := fun h =>
    hinside ((processReaddir_eq_outside_iff.mp h).imp_right And.right)
  rw [processReaddir_eq hnegative hstart] at hne ⊢
  rcases hcopy : copyEntries heap (min (L.length % 2 ^ 32) (pageSize count)) (L.drop start) with
    _ | ⟨entries, eod⟩
  · rw [hcopy] at hne
    exact absurd rfl hne
  · exact ⟨_, rfl, rfl⟩

/-- **A page** of a directory with fewer than `2 ^ 32` entries. -/
theorem page_eq (hL : L.length < 2 ^ 32) (hnegative : ¬ Negative start) (hstart : start < L.length)
    (hcount : count ≠ 0) :
    page L heap start count =
      some ((L.drop start).take (min L.length (pageSize count)),
        decide (L.length - start ≤ min L.length (pageSize count) ∨ heap ≠ 0)) := by
  have hpos := pageSize_pos hcount
  have hne : L.drop start ≠ [] := by
    rw [Ne, List.drop_eq_nil_iff]
    omega
  have hmod : L.length % 2 ^ 32 = L.length := Nat.mod_eq_of_lt hL
  rw [page, processReaddir_eq hnegative (by rw [hmod]; exact Nat.le_of_lt hstart), hmod,
    copyEntries_eq heap hne (by omega)]
  simp only [afpSlReaddir, ne_eq, not_true_eq_false, if_false, List.take_length, List.length_drop]
  by_cases hlast : L.length - start ≤ min L.length (pageSize count)
  · simp only [hlast, true_or, if_true]
    rfl
  · simp only [hlast, false_or, if_false]

/-- The page of an empty directory. -/
theorem page_nil : page ([] : List Entry) heap 0 count = some ([], decide (heap ≠ 0)) := by
  rw [page, processReaddir_eq (by decide) (Nat.zero_le _)]
  rfl

/-- A page that is not an error begins before `2 ^ 31` and has at most ten entries. -/
theorem page_bounds {entries : List Entry} {eod : Bool}
    (h : page L heap start count = some (entries, eod)) :
    ¬ Negative start ∧ entries.length ≤ 10 := by
  by_cases herror : Negative start ∨ L.length % 2 ^ 32 < start
  · rw [page, processReaddir_of_error herror] at h
    simp [errorResponse, afpSlReaddir, ServerResult.error, ServerResult.okay] at h
  · obtain ⟨hnegative, hle⟩ := not_or.mp herror
    refine ⟨hnegative, ?_⟩
    rw [page, processReaddir_eq hnegative (Nat.le_of_not_lt hle)] at h
    rcases hcopy : copyEntries heap (min (L.length % 2 ^ 32) (pageSize count)) (L.drop start) with
      _ | ⟨copied, last⟩
    · rw [hcopy] at h
      cases h
    · rw [hcopy] at h
      have hcopied := length_copyEntries hcopy
      simp only [afpSlReaddir, ne_eq, not_true_eq_false, if_false, List.take_length,
        Option.some.injEq, Prod.mk.injEq] at h
      rw [← h.1]
      exact Nat.le_trans hcopied (Nat.le_trans (Nat.min_le_right _ _) (pageSize_le count))

end

/-! ## The loop -/

section

variable {L : List Entry} {heap : ℕ → UInt8} {count k start : ℕ}

/-- The loop obtains no more than what lies before `2 ^ 31`, and one page. -/
theorem Lists.length_le {l : List Entry} (h : Lists L count heap k start l) :
    start + l.length < 2 ^ 31 + 10 := by
  induction h with
  | last hpage =>
    obtain ⟨hnegative, hlength⟩ := page_bounds hpage
    have := Nat.lt_of_not_le hnegative
    omega
  | more hpage _ _ ih =>
    obtain ⟨hnegative, hlength⟩ := page_bounds hpage
    have := Nat.lt_of_not_le hnegative
    rw [List.length_append]
    omega

/-- What is left of the condition before the `k`-th page. -/
structure SoundFrom (L : List Entry) (count : ℕ) (heap : ℕ → UInt8) (k : ℕ) : Prop where
  unset : ∀ j, k ≤ j → (j + 1) * pageSize count < L.length → heap j = 0
  start : ∀ j, k ≤ j → j * pageSize count < L.length → ¬ Negative (j * pageSize count)

/-- **The loop meets the condition**, if it obtains the rest of the directory. -/
theorem Lists.soundFrom (hL : L.length < 2 ^ 32) (hcount : count ≠ 0) {l : List Entry}
    (h : Lists L count heap k start l) (hstart : start = k * pageSize count)
    (hlt : start < L.length) (hl : l = L.drop start) : SoundFrom L count heap k := by
  have hpos := pageSize_pos hcount
  induction h with
  | @last k start entries hpage =>
    have hnegative := (page_bounds hpage).1
    rw [page_eq hL hnegative hlt hcount, Option.some.injEq, Prod.mk.injEq] at hpage
    have hlength : L.length ≤ (k + 1) * pageSize count := by
      have := congrArg List.length (hpage.1.trans hl)
      rw [List.length_take, List.length_drop] at this
      rw [Nat.succ_mul]
      omega
    refine ⟨fun j hj hlast => ?_, fun j hj hlast => ?_⟩
    · have : (k + 1) * pageSize count ≤ (j + 1) * pageSize count :=
        Nat.mul_le_mul_right _ (Nat.succ_le_succ hj)
      exact absurd hlast (by omega)
    · rcases Nat.eq_or_lt_of_le hj with rfl | hj
      · exact hstart ▸ hnegative
      · have : (k + 1) * pageSize count ≤ j * pageSize count :=
          Nat.mul_le_mul_right _ (Nat.succ_le_of_lt hj)
        exact absurd hlast (by omega)
  | @more k start entries rest hpage hrest _ ih =>
    have hnegative := (page_bounds hpage).1
    rw [page_eq hL hnegative hlt hcount, Option.some.injEq, Prod.mk.injEq, decide_eq_false_iff_not,
      not_or, not_not] at hpage
    obtain ⟨hentries, hmore, hheap⟩ := hpage
    have hsize : min L.length (pageSize count) = pageSize count := by omega
    rw [hsize] at hentries hmore
    have hlength : entries.length = pageSize count := by
      rw [← hentries, List.length_take, List.length_drop]
      omega
    have hnext : (start + entries.length) % 2 ^ 32 = start + pageSize count := by
      rw [hlength]
      omega
    have htail : rest = L.drop (start + pageSize count) := by
      have hsplit := List.take_append_drop (pageSize count) (L.drop start)
      rw [hentries, List.drop_drop, ← hl] at hsplit
      exact (List.append_cancel_left hsplit).symm
    rw [hnext] at ih
    have hsound := ih (by rw [hstart, Nat.succ_mul]) (by omega) htail
    refine ⟨fun j hj hlast => ?_, fun j hj hlast => ?_⟩
    · rcases Nat.eq_or_lt_of_le hj with rfl | hj
      · exact hheap
      · exact hsound.unset j hj hlast
    · rcases Nat.eq_or_lt_of_le hj with rfl | hj
      · exact hstart ▸ hnegative
      · exact hsound.start j hj hlast

/-- **The condition is enough**: from each page on, the loop obtains the rest. -/
theorem lists_of_sound (hcount : count ≠ 0) (h : Sound L count heap) (hL : L.length < 2 ^ 32) :
    ∀ n k, L.length - k * pageSize count = n → k * pageSize count < L.length →
      Lists L count heap k (k * pageSize count) (L.drop (k * pageSize count)) := by
  have hpos := pageSize_pos hcount
  intro n
  induction n using Nat.strong_induction_on with
  | _ n ih =>
    intro k hn hk
    have hpage := @page_eq _ L (heap k) _ count hL (h.start k hk) hk hcount
    by_cases hlast : L.length - k * pageSize count ≤ min L.length (pageSize count)
    · rw [List.take_of_length_le (by rw [List.length_drop]; exact hlast)] at hpage
      refine .last ?_
      rw [hpage]
      simp [hlast]
    · have hsize : min L.length (pageSize count) = pageSize count := by omega
      have hnext : (k + 1) * pageSize count < L.length := by
        rw [Nat.succ_mul]
        omega
      have hheap := h.unset k hnext
      rw [hsize] at hpage hlast
      have hlength : ((L.drop (k * pageSize count)).take (pageSize count)).length =
          pageSize count := by
        rw [List.length_take, List.length_drop]
        omega
      have hstart : (k * pageSize count + pageSize count) % 2 ^ 32 = (k + 1) * pageSize count := by
        rw [Nat.succ_mul] at *
        omega
      rw [← List.take_append_drop (pageSize count) (L.drop (k * pageSize count)), List.drop_drop,
        ← Nat.succ_mul]
      refine .more ?_ ?_ ?_
      · rw [hpage]
        simp [hlast, hheap]
      · rw [Ne, List.drop_eq_nil_iff]
        exact Nat.not_le.mpr hnext
      · rw [hlength, hstart]
        exact ih _ (by rw [Nat.succ_mul] at *; omega) (k + 1) rfl hnext

/-- A directory whose last page begins before `2 ^ 31` has fewer than `2 ^ 32` entries. -/
theorem Sound.length_lt (hcount : count ≠ 0) (h : Sound L count heap) : L.length < 2 ^ 32 := by
  by_contra hlarge
  have hpos := pageSize_pos hcount
  have hle := pageSize_le count
  -- a multiple of the size of a page between 2 ^ 31 and 2 ^ 32
  have hdiv := Nat.div_add_mod (2 ^ 31 + 10) (pageSize count)
  have hmod := Nat.mod_lt (2 ^ 31 + 10) hpos
  rw [Nat.mul_comm] at hdiv
  refine h.start ((2 ^ 31 + 10) / pageSize count) (by omega) ?_
  show 2 ^ 31 ≤ _
  omega

/-- The loop ends for an empty directory with the first page only if `eod` happens to be set. -/
theorem Lists.heap_ne_zero {l : List Entry} (h : Lists ([] : List Entry) count heap 0 0 l)
    (hl : l = []) : heap 0 ≠ 0 := by
  cases h with
  | last hpage =>
    rw [page_nil, Option.some.injEq, Prod.mk.injEq] at hpage
    simpa using hpage.2
  | more _ hrest _ => exact absurd (List.append_eq_nil_iff.mp hl).2 hrest

/-- **The loop obtains the directory** exactly if the condition is met. -/
theorem lists_iff (hcount : count ≠ 0) : Lists L count heap 0 0 L ↔ Sound L count heap := by
  constructor
  · intro h
    have hL : L.length < 2 ^ 32 := by
      have := h.length_le
      omega
    by_cases hnil : L = []
    · subst hnil
      exact ⟨fun k hk => absurd hk (Nat.not_lt_zero _), fun _ => h.heap_ne_zero rfl,
        fun k hk => absurd hk (Nat.not_lt_zero _)⟩
    · have hsound := h.soundFrom hL hcount (Nat.zero_mul _).symm (List.length_pos_iff.mpr hnil) rfl
      exact ⟨fun k => hsound.unset k (Nat.zero_le k), fun h => absurd h hnil,
        fun k => hsound.start k (Nat.zero_le k)⟩
  · intro h
    by_cases hnil : L = []
    · subst hnil
      refine .last ?_
      rw [page_nil]
      simp [h.nonempty rfl]
    · have hall := lists_of_sound hcount h (h.length_lt hcount) _ 0 rfl
      rw [Nat.zero_mul] at hall
      exact hall (List.length_pos_iff.mpr hnil)

end

/-- **Directories by pages.**  For every directory, every `count` of at least 1 and every contents
of the fresh memory, the loop of a client obtains exactly the entries of the directory in their
order, and `eod` with the last one, if and only if the condition is met; and for every `start` and
`count`, the daemon follows the list behind its end exactly if the page begins there and the
directory is not empty. -/
theorem readdir_iff (L : List Entry) (heap : ℕ → UInt8) :
    (∀ count : ℕ, 1 ≤ count → (Lists L count heap 0 0 L ↔ Sound L count heap)) ∧
    ∀ (u : UInt8) (start count : ℕ),
      processReaddir u (some L) ⟨true, start, count⟩ = .outside ↔
        start = L.length ∧ ¬ Negative start ∧ L ≠ [] ∧ count ≠ 0 :=
  ⟨fun _ hcount => lists_iff (Nat.one_le_iff_ne_zero.mp hcount),
    fun _ _ _ => processReaddir_eq_outside_iff⟩

/-- A directory of three entries, read two at a time. -/
theorem readdir_iff_of_three :
    Lists [1, 2, 3] 2 (fun _ => 0) 0 0 [1, 2, 3] ∧
      processReaddir 0 (some [1, 2, 3]) ⟨true, 3, 2⟩ = .outside := by
  obtain ⟨hlists, houtside⟩ := readdir_iff [1, 2, 3] fun _ => 0
  refine ⟨(hlists 2 (by decide)).mpr ⟨fun _ _ => rfl, fun h => by simp at h, fun k hk => ?_⟩,
    (houtside 0 3 2).mpr ⟨rfl, by decide, by simp, by decide⟩⟩
  have hlt : k * pageSize 2 < 3 := hk
  exact Nat.not_le.mpr (Nat.lt_trans hlt (by decide))

/-- **The condition is needed.**  For an empty directory, and fresh memory that is zero, the loop
does not end. -/
theorem empty_directory_has_no_end :
    ¬ ∀ (L : List ℕ) (count : ℕ) (heap : ℕ → UInt8), 1 ≤ count → Lists L count heap 0 0 L :=
  fun h => ((lists_iff Nat.one_ne_zero).mp (h [] 1 (fun _ => 0) le_rfl)).nonempty rfl rfl

end Readdir
end Daemon
end Afpfs
