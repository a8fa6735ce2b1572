import Afpfs.Url

/-!
# Searching in URLs

`afp_parse_url()` with every pointer that it forms.  A pointer into a string is a position from the
first byte to the terminator, and the parser has no result where it forms another one or where it
does not return.  What `snprintf()` makes of a text with conversions is not known: `Url.format` has no
result for it, and here, where the question is about the pointers alone, a field may be anything then
(`format_eq_none_iff`).

`escape_strchr()` never leaves the string (`escapeStrchr_eq`).  `escape_strrchr()` does not return
when the last delimiter is doubled, and three other places form a pointer before the string.

* `inside_iff`: the texts that are parsed without leaving them.
* `doubled_colon_never_returns`: one that is not.
* `afpParseUrl_agrees`: where there is a result it is the one of `Url.afpParseUrl`.
-/

set_option autoImplicit false

namespace Afpfs
namespace UrlSearch

open Scan Url

/-! ## The parser with its pointers -/

/-- A pointer into a string, as a position.  The terminator is behind the last byte. -/
def pointer (s : CString) (i : ℤ) : Option ℕ :=
  if 0 ≤ i ∧ i ≤ s.length then some i.toNat else none

/-- `escape_strchr()` for a character that is escaped, from the position `haystack` on. -/
def escapeStrchr (s : CString) (c : UInt8) : ℕ → ℕ → Option (Option ℕ)
  | 0, _ => none
  | fuel + 1, haystack =>
    match strchr s haystack c with
    | none => some none
    | some p =>
      if p = s.length then some (some p)
      else do
        let next ← pointer s (p + 1)
        if s[next]? ≠ some c then return some p
        else do
          let next ← pointer s (p + 2)
          escapeStrchr s c fuel next

/-- The server name, which is between `p` and `stop`, and the pointer to its last character. -/
def searchServername (printed : CString → CString) (firstpart : CString) (p stop : ℕ)
    (url : AfpUrl) : Option (ℤ × AfpUrl) := do
  let servername := (firstpart.take stop).drop p
  let url := { url with servername := printed servername }
  if checkServername url.servername ≠ 0 then return (-1, url)
  else do
    let _last ← pointer firstpart (p + servername.length - 1)
    return (0, url)

/-- The server name and the port, from `p` on. -/
def searchServer (errno : ℤ) (printed : CString → CString) (firstpart : CString) (p : ℕ)
    (url : AfpUrl) : Option (ℤ × AfpUrl) :=
  match strchr firstpart p colon with
  | none => searchServername printed firstpart p firstpart.length url
  | some colonAt => do
    let q ← pointer firstpart (colonAt + 1)
    let port := firstpart.drop q
    if checkPort errno port ≠ 0 then return (-1, url)
    else if strtol port = 0 then return (-1, { url with port := 0 })
    else do
      let (rc, url) ←
        searchServername printed firstpart p colonAt { url with port := strtol port }
      if rc ≠ 0 then return (rc, url)
      else do
        let _last ← pointer firstpart (q + port.length - 1)
        return (0, url)

/-- What is before the server name. -/
def searchEarliest (fuel : ℕ) (printed : CString → CString) (p : CString) (url : AfpUrl) :
    Option (ℤ × AfpUrl) := do
  let q ← escapeStrrchr p colon fuel 0
  let password ← q.elim (some url.password) fun q =>
    (pointer p (q + 1)).map fun q => printed (p.drop q)
  let url := { url with password := password }
  let p := p.take (q.getD p.length)
  let q := strstr (ascii [';', 'A', 'U', 'T', 'H', '=']) p
  let uamname ← q.elim (some url.uamname) fun q =>
    (pointer p (q + 6)).map fun q => printed (p.drop q)
  let url := { url with uamname := uamname }
  if q.isSome ∧ checkUamname uamname ≠ 0 then return (-1, url)
  else
    let p := p.take (q.getD p.length)
    return (0, { url with username := if 0 < p.length then printed p else url.username })

/-- The volume and the path, if they are there. -/
def searchSecond (printed : CString → CString) (secondpart : Option CString) (url : AfpUrl) :
    Option (ℤ × AfpUrl) :=
  match secondpart with
  | none => some (0, escapeUrl url)
  | some p => do
    let q := strchr p 0 slash
    let volumename := printed (p.take (q.getD p.length))
    let path ← q.elim (some url.path) fun q =>
      (pointer p (q + 1)).map fun q => slash :: printed (p.drop q)
    return (0, escapeUrl { url with volumename := volumename, path := path })

/-- The first part and the second.  `lastchar` is formed before the first part is searched. -/
def searchParts (fuel : ℕ) (errno : ℤ) (printed : CString → CString) (firstpart : CString)
    (secondpart : Option CString) (url : AfpUrl) : Option (ℤ × AfpUrl) := do
  let _lastchar ← pointer firstpart (firstpart.length - 1)
  let q ← escapeStrchr firstpart commercialAt fuel 0
  let p ← q.elim (some 0) fun q => pointer firstpart (q + 1)
  let (rc, url) ← searchServer errno printed firstpart p url
  if rc ≠ 0 then return (rc, url)
  else do
    let (rc, url) ← q.elim (some (0, url)) fun q =>
      searchEarliest fuel printed (firstpart.take q) url
    if rc ≠ 0 then return (rc, url)
    else searchSecond printed secondpart url

/-- `afp_parse_url()`, where `printed` is what `snprintf()` leaves in a field. -/
def afpParseUrl (fuel : ℕ) (errno : ℤ) (printed : CString → CString) (url : AfpUrl)
    (toparse : CString) : Option (ℤ × AfpUrl) := do
  let url := { url with
    username := [], servername := [], uamname := [], password := [], volumename := [], path := [] }
  match strstr (ascii [':', '/', '/']) toparse with
  | none => return (-1, url)
  | some p => do
    let q ← pointer toparse (p - 3)
    if (toparse.drop q).take 3 ≠ ascii ['a', 'f', 'p'] then return (-1, url)
    else do
      let p ← pointer toparse (p + 3)
      let (firstpart, secondpart) ← sscanf (toparse.drop p)
      searchParts fuel errno printed firstpart secondpart url

/-! ## Texts that are parsed without leaving them -/

/-- `snprintf()` with a text without conversions.  With one there may be anything. -/
def Prints (printed : CString → CString) : Prop := ∀ p s, format p = some s → printed p = s

/-- A format without a result is one of which a field may be different things. -/
theorem format_eq_none_iff {p : CString} :
    format p = none ↔ ∃ printed printed', Prints printed ∧ Prints printed' ∧ printed p ≠ printed' p := by
  constructor
  · intro hnone
    refine ⟨fun q => (format q).getD [], fun q => (format q).getD [percent], fun q s hs => ?_,
      fun q s hs => ?_, ?_⟩
    · simp only [hs, Option.getD_some]
    · simp only [hs, Option.getD_some]
    · simp [hnone]
  · rintro ⟨printed, printed', hprints, hprints', hne⟩
    by_contra hsome
    obtain ⟨s, hs⟩ := Option.ne_none_iff_exists'.mp hsome
    exact hne ((hprints p s hs).trans (hprints' p s hs).symm)

/-- The parser returns, and forms no pointer outside of what it searches. -/
def Inside (errno : ℤ) (toparse : CString) : Prop :=
  ∀ printed, Prints printed → ∀ url, ∃ fuel, (afpParseUrl fuel errno printed url toparse).isSome

/-- The parts fit the temporaries. -/
def Fits (toparse : CString) : Prop :=
  ∀ p ∈ strstr (ascii [':', '/', '/']) toparse,
    let firstpart := (toparse.drop (p + 3)).takeWhile (· ≠ slash)
    firstpart.length < 255 ∧
      (((toparse.drop (p + 3)).drop (firstpart.length + 1)).takeWhile (· ≠ dollar)).length < 2048

/-- The last one is the second of two. -/
def LastDoubled (c : UInt8) (s : CString) : Prop := ∃ a b, s = a ++ c :: c :: b ∧ c ∉ b

/-- The server name and the port. -/
def serverPart (firstpart : CString) : CString :=
  firstpart.drop ((Url.escapeStrchr commercialAt firstpart).elim 0 (· + 1))

/-- The port is accepted if there is one. -/
def PortAccepted (errno : ℤ) (server : CString) : Prop :=
  ∀ q ∈ strchr server 0 colon,
    checkPort errno (server.drop (q + 1)) = 0 ∧ strtol (server.drop (q + 1)) ≠ 0

/-- There is a part before the volume.  Unless the port is not accepted it does not begin with a
colon if it has no user, and the last colon of a user is not doubled. -/
structure OrderlyFirst (errno : ℤ) (firstpart : CString) : Prop where
  nonempty : firstpart ≠ []
  server : PortAccepted errno (serverPart firstpart) →
    Url.escapeStrchr commercialAt firstpart = none → firstpart.head? ≠ some colon
  user : PortAccepted errno (serverPart firstpart) →
    ∀ q ∈ Url.escapeStrchr commercialAt firstpart, ¬ LastDoubled colon (firstpart.take q)

/-- There are three characters before `://`, and if they are `afp` what follows is orderly. -/
def Orderly (errno : ℤ) (toparse : CString) : Prop :=
  ∀ p ∈ strstr (ascii [':', '/', '/']) toparse,
    3 ≤ p ∧ ((toparse.drop (p - 3)).take 3 = ascii ['a', 'f', 'p'] →
      OrderlyFirst errno ((toparse.drop (p + 3)).takeWhile (· ≠ slash)))

/-! ## The two searches -/

section Searches

variable {c : UInt8} {s : CString}

theorem pointer_natCast {i : ℕ} (h : i ≤ s.length) : pointer s i = some i := by
  rw [pointer, if_pos ⟨Int.natCast_nonneg i, Int.ofNat_le.mpr h⟩, Int.toNat_natCast]

theorem pointer_of_lt {i : ℤ} (h : i < 0) : pointer s i = none := if_neg (by omega)

/-- The search from the left goes on behind the first pair. -/
theorem escapeStrchr_append {a r : CString} (ha : c ∉ a) :
    Url.escapeStrchr c (a ++ c :: r) =
      if r.head? ≠ some c then some a.length
      else (Url.escapeStrchr c r.tail).map (a.length + 2 + ·) := by
  induction a with
  | nil =>
    cases r with
    | nil => simp [Url.escapeStrchr]
    | cons d r =>
      by_cases hd : d = c
      · simp [Url.escapeStrchr, hd, Nat.add_comm]
      · simp [Url.escapeStrchr, hd]
  | cons d a ih =>
    obtain ⟨hd, ha⟩ := not_or.mp (List.mem_cons.not.mp ha)
    obtain ⟨d', l, hl⟩ : ∃ d' l, a ++ c :: r = d' :: l :=
      List.exists_cons_of_ne_nil (by simp)
    have hstep : Url.escapeStrchr c (d :: d' :: l) =
        (Url.escapeStrchr c (d' :: l)).map (· + 1) := by
      rw [Url.escapeStrchr, if_neg (Ne.symm hd)]
    rw [List.cons_append, hl, hstep, ← hl, ih ha]
    split
    · rfl
    · rw [Option.map_map]
      refine congrArg (Option.map · _) (funext fun i => ?_)
      simp only [Function.comp_apply, List.length_cons]
      omega

/-- **The search from the left stays inside**, and has a result. -/
theorem escapeStrchr_eq {fuel start : ℕ} (hstart : start ≤ s.length)
    (hfuel : s.length - start < fuel) :
    escapeStrchr s c fuel start =
      some ((Url.escapeStrchr c (s.drop start)).map (start + ·)) := by
  induction fuel generalizing start with
  | zero => exact absurd hfuel (Nat.not_lt_zero _)
  | succ fuel ih =>
    by_cases hmem : c ∈ s.drop start
    · obtain ⟨a, r, hs, ha⟩ := List.eq_append_cons_of_mem hmem
      have hlength : s.length - start = a.length + (r.length + 1) := by
        rw [← List.length_drop, hs, List.length_append, List.length_cons]
      have hpos : strchr s start c = some (start + a.length) := by
        rw [strchr, hs, idxOf?_append_cons ha, Option.map_some]
      have hget : s[start + a.length + 1]? = r.head? := by
        rw [Nat.add_assoc, ← List.getElem?_drop, hs, List.getElem?_append_right (by omega),
          Nat.add_sub_cancel_left, List.getElem?_cons_succ, List.head?_eq_getElem?]
      rw [escapeStrchr, hpos, hs, escapeStrchr_append ha]
      simp only [if_neg (by omega : ¬ start + a.length = s.length)]
      rw [← Nat.cast_add_one, pointer_natCast (by omega)]
      simp only [Option.bind_eq_bind, Option.bind_some, hget]
      split
      · rfl
      next hr =>
        obtain ⟨r, rfl⟩ : ∃ r', r = c :: r' := by
          cases r with
          | nil => exact absurd (by simp) hr
          | cons d r => exact ⟨r, by rw [Option.some.inj (not_not.mp hr)]⟩
        rw [List.length_cons] at hlength
        have hrest : s.drop (start + a.length + 2) = r := by
          rw [Nat.add_assoc, ← List.drop_drop, hs]
          simp
        rw [show ((start + a.length : ℕ) : ℤ) + 2 = ((start + a.length + 2 : ℕ) : ℤ) by omega,
          pointer_natCast (by omega), Option.bind_some, ih (by omega) (by omega), hrest,
          List.tail_cons, Option.map_map]
        refine congrArg (fun f => some (Option.map f _)) (funext fun i => ?_)
        simp only [Function.comp_apply]
        omega
    · have hpos : strchr s start c = none := by
        rw [strchr, List.idxOf?_eq_none_iff.mpr hmem, Option.map_none]
      rw [escapeStrchr, hpos, escapeStrchr_of_not_mem hmem, Option.map_none]

theorem escapeStrchr_succ {fuel start : ℕ} {r : Option ℕ} (h : escapeStrchr s c fuel start = some r) :
    escapeStrchr s c (fuel + 1) start = some r := by
  induction fuel generalizing start with
  | zero => exact absurd h (by simp [escapeStrchr])
  | succ fuel ih =>
    rw [escapeStrchr] at h ⊢
    cases hpos : strchr s start c with
    | none => rwa [hpos] at h
    | some p =>
      rw [hpos] at h
      simp only at h ⊢
      split at h
      next hend => rwa [if_pos hend]
      next hend =>
        obtain ⟨next, hnext, h⟩ := Option.bind_eq_some_iff.mp h
        rw [if_neg hend, hnext, Option.bind_eq_bind, Option.bind_some]
        split at h
        next hother => rwa [if_pos hother]
        next hother =>
          obtain ⟨next', hnext', h⟩ := Option.bind_eq_some_iff.mp h
          rw [if_neg hother, hnext', Option.bind_some]
          exact ih h

/-- A result of the search from the left does not depend on the fuel. -/
theorem eq_of_escapeStrchr_eq_some {fuel : ℕ} {r : Option ℕ} (h : escapeStrchr s c fuel 0 = some r) :
    r = Url.escapeStrchr c s := by
  have hmore : escapeStrchr s c (fuel + (s.length + 1)) 0 = some r := by
    induction s.length + 1 with
    | zero => exact h
    | succ n ih => exact escapeStrchr_succ ih
  rw [escapeStrchr_eq (Nat.zero_le _) (by omega)] at hmore
  simpa using (Option.some.inj hmore).symm

/-- **The search from the right** comes to an end unless the last one is doubled. -/
theorem isSome_escapeStrrchr_iff (fuel : ℕ) :
    (escapeStrrchr s c (fuel + 1) 0).isSome ↔ ¬ LastDoubled c s := by
  by_cases hmem : c ∈ s
  · obtain ⟨a, b, rfl, hb⟩ := exists_last hmem
    by_cases ha : a.getLast? = some c
    · obtain ⟨a, rfl⟩ := List.getLast?_eq_some_iff.mp ha
      rw [List.append_assoc, List.singleton_append]
      refine iff_of_false ?_ (not_not.mpr ⟨a, b, rfl, hb⟩)
      rw [escapeStrrchr_doubled hb _ 0 (Nat.zero_le _)]
      exact Bool.false_ne_true
    · refine iff_of_true ?_ ?_
      · rw [escapeStrrchr_append hb ha]
        rfl
      · rintro ⟨a', b', h, hb'⟩
        have hlast : a.length = (a' ++ [c]).length := by
          have hpos := congrArg (strrchr · c) h
          rw [List.append_cons a' c] at hpos
          simpa only [strrchr_append hb, strrchr_append hb', Option.some.injEq] using hpos
        rw [List.append_cons a' c] at h
        obtain ⟨rfl, -⟩ := List.append_inj h hlast
        exact ha List.getLast?_concat
  · refine iff_of_true ?_ ?_
    · rw [escapeStrrchr_of_not_mem hmem]
      rfl
    · rintro ⟨a, b, rfl, -⟩
      exact hmem (by simp)

theorem lt_length_of_escapeStrchr {q : ℕ} (h : Url.escapeStrchr c s = some q) : q < s.length := by
  fun_induction Url.escapeStrchr c s generalizing q with
  | case1 => exact absurd h (by simp)
  | case2 =>
    obtain rfl := Option.some.inj h
    exact Nat.zero_lt_one
  | case3 => exact absurd h (by simp)
  | case4 =>
    obtain rfl := Option.some.inj h
    exact Nat.zero_lt_succ _
  | case5 d s hd ih =>
    obtain ⟨q, hq, rfl⟩ := Option.map_eq_some_iff.mp h
    exact Nat.add_lt_add_right (ih hq) 2
  | case6 d d' s hd ih =>
    obtain ⟨q, hq, rfl⟩ := Option.map_eq_some_iff.mp h
    exact Nat.succ_lt_succ (ih hq)

theorem lt_length_of_escapeStrrchr {fuel start q : ℕ}
    (h : escapeStrrchr s c fuel start = some (some q)) : q < s.length := by
  induction fuel generalizing start with
  | zero => exact absurd h (by simp [escapeStrrchr])
  | succ fuel ih =>
    rw [escapeStrrchr] at h
    cases hpos : strrchr (s.drop start) c with
    | none =>
      rw [hpos] at h
      exact absurd h (by simp)
    | some p =>
      have hlt := strrchr_lt hpos
      rw [List.length_drop] at hlt
      rw [hpos] at h
      cases p with
      | zero =>
        obtain rfl := Option.some.inj (Option.some.inj h)
        omega
      | succ p =>
        simp only at h
        split at h
        · obtain rfl := Option.some.inj (Option.some.inj h)
          omega
        · split at h
          · exact absurd h (by simp)
          · exact ih h

end Searches

/-! ## The parts -/

section Parts

variable {fuel p : ℕ} {errno : ℤ} {printed : CString → CString} {firstpart : CString}
  {url : AfpUrl}

/-- The end of the server name. -/
def serverStop (firstpart : CString) (p : ℕ) : ℕ :=
  (strchr firstpart p colon).getD firstpart.length

/-- The server name. -/
def servernameOf (firstpart : CString) (p : ℕ) : CString :=
  (firstpart.take (serverStop firstpart p)).drop p

theorem searchServername_eq {stop : ℕ} (hstop : stop ≤ firstpart.length) (hp : p ≤ stop) :
    searchServername printed firstpart p stop url =
      if checkServername (printed ((firstpart.take stop).drop p)) ≠ 0 then
        some (-1, { url with servername := printed ((firstpart.take stop).drop p) })
      else if stop = 0 then none
      else some (0, { url with servername := printed ((firstpart.take stop).drop p) }) := by
  have hlength : ((firstpart.take stop).drop p).length = stop - p := by
    rw [List.length_drop, List.length_take, Nat.min_eq_left hstop]
  rw [searchServername]
  simp only [hlength]
  split
  · rfl
  · split
    next hzero =>
      rw [pointer_of_lt (by omega)]
      rfl
    next hzero =>
      rw [show ((p : ℤ) + ((stop - p : ℕ) : ℤ) - 1) = ((stop - 1 : ℕ) : ℤ) by omega,
        pointer_natCast (by omega)]
      rfl

theorem serverStop_bounds (hp : p ≤ firstpart.length) :
    p ≤ serverStop firstpart p ∧ serverStop firstpart p ≤ firstpart.length := by
  rw [serverStop]
  cases hq : strchr firstpart p colon with
  | none => exact ⟨hp, le_refl _⟩
  | some q =>
    have hbounds := strchr_bounds hq
    exact ⟨hbounds.1, hbounds.2.le⟩

theorem portAccepted_drop_iff :
    PortAccepted errno (firstpart.drop p) ↔ ∀ q ∈ strchr firstpart p colon,
      checkPort errno (firstpart.drop (q + 1)) = 0 ∧ strtol (firstpart.drop (q + 1)) ≠ 0 := by
  rw [PortAccepted, strchr, strchr, List.drop_zero]
  cases (firstpart.drop p).idxOf? colon with
  | none => exact iff_of_true (by simp) (by simp)
  | some q => simp [List.drop_drop, Nat.add_assoc]

/-- The server name begins a text that it is cut off from. -/
theorem serverStop_eq_zero_iff (hfirst : firstpart ≠ []) (hp : p ≤ firstpart.length) :
    serverStop firstpart p = 0 ↔ p = 0 ∧ firstpart.head? = some colon := by
  obtain ⟨b, rest, rfl⟩ := List.exists_cons_of_ne_nil hfirst
  constructor
  · intro h
    obtain rfl : p = 0 := by
      have hbounds := serverStop_bounds hp
      omega
    refine ⟨rfl, ?_⟩
    rw [serverStop, strchr, List.drop_zero, List.idxOf?_cons] at h
    split at h
    next hb => rw [List.head?_cons, eq_of_beq hb]
    next hb =>
      cases hq : rest.idxOf? colon with
      | none => simp [hq] at h
      | some q => simp [hq] at h
  · rintro ⟨rfl, h⟩
    obtain rfl := Option.some.inj h
    rw [serverStop, strchr, List.drop_zero, List.idxOf?_cons, beq_self_eq_true]
    rfl

/-- **The server part.**  It is refused, or it is read; then the pointer to the last character is
formed. -/
theorem searchServer_cases (hp : p ≤ firstpart.length) :
    (¬ (PortAccepted errno (firstpart.drop p) ∧
        checkServername (printed (servernameOf firstpart p)) = 0) ∧
      ∃ rc out, rc ≠ 0 ∧ searchServer errno printed firstpart p url = some (rc, out)) ∨
    ((PortAccepted errno (firstpart.drop p) ∧
        checkServername (printed (servernameOf firstpart p)) = 0) ∧
      ((serverStop firstpart p = 0 ∧ searchServer errno printed firstpart p url = none) ∨
        (serverStop firstpart p ≠ 0 ∧
          ∃ out, searchServer errno printed firstpart p url = some (0, out)))) := by
  obtain ⟨hlow, hhigh⟩ := serverStop_bounds hp
  rw [portAccepted_drop_iff, searchServer, servernameOf]
  cases hq : strchr firstpart p colon with
  | none =>
    have hstop : serverStop firstpart p = firstpart.length := by rw [serverStop, hq, Option.getD_none]
    rw [hstop] at hlow ⊢
    simp only [searchServername_eq (le_refl _) hlow]
    by_cases hname : checkServername (printed ((firstpart.take firstpart.length).drop p)) = 0
    · refine Or.inr ⟨⟨by simp, hname⟩, ?_⟩
      rw [if_neg (not_not.mpr hname)]
      by_cases hzero : firstpart.length = 0
      · exact Or.inl ⟨hzero, if_pos hzero⟩
      · exact Or.inr ⟨hzero, _, if_neg hzero⟩
    · exact Or.inl ⟨fun h => hname h.2, -1, _, by decide, if_pos hname⟩
  | some q =>
    have hstop : serverStop firstpart p = q := by rw [serverStop, hq, Option.getD_some]
    have hlt := (strchr_bounds hq).2
    rw [hstop] at hlow hhigh ⊢
    simp only [Option.mem_def, Option.some.injEq, forall_eq']
    rw [← Nat.cast_add_one, pointer_natCast (Nat.succ_le_of_lt hlt), Option.bind_eq_bind,
      Option.bind_some]
    by_cases hport : checkPort errno (firstpart.drop (q + 1)) = 0
    · rw [if_neg (not_not.mpr hport)]
      by_cases hnumber : strtol (firstpart.drop (q + 1)) = 0
      · exact Or.inl ⟨fun h => h.1.2 hnumber, -1, _, by decide, if_pos hnumber⟩
      · rw [if_neg hnumber, searchServername_eq hhigh hlow]
        by_cases hname : checkServername (printed ((firstpart.take q).drop p)) = 0
        · refine Or.inr ⟨⟨⟨hport, hnumber⟩, hname⟩, ?_⟩
          rw [if_neg (not_not.mpr hname)]
          by_cases hzero : q = 0
          · refine Or.inl ⟨hzero, ?_⟩
            rw [if_pos hzero]
            rfl
          · refine Or.inr ⟨hzero, { url with
              port := strtol (firstpart.drop (q + 1))
              servername := printed ((firstpart.take q).drop p) }, ?_⟩
            have hlast : (((q + 1 : ℕ) : ℤ) + ((firstpart.drop (q + 1)).length : ℕ) - 1) =
                ((firstpart.length - 1 : ℕ) : ℤ) := by
              rw [List.length_drop]
              omega
            rw [if_neg hzero, hlast, pointer_natCast (Nat.sub_le _ _)]
            rfl
        · refine Or.inl ⟨fun h => hname h.2, -1, { url with
            port := strtol (firstpart.drop (q + 1))
            servername := printed ((firstpart.take q).drop p) }, by decide, ?_⟩
          rw [if_pos hname]
          rfl
    · exact Or.inl ⟨fun h => hport h.1.1, -1, _, by decide, if_pos hport⟩

/-- **The part before it** is left only by the search for the password. -/
theorem isSome_searchEarliest_iff {p : CString} :
    (searchEarliest (fuel + 1) printed p url).isSome ↔ ¬ LastDoubled colon p := by
  rw [← isSome_escapeStrrchr_iff fuel, searchEarliest]
  cases hq : escapeStrrchr p colon (fuel + 1) 0 with
  | none => exact iff_of_false Bool.false_ne_true Bool.false_ne_true
  | some q =>
    refine iff_of_true ?_ rfl
    have hpassword : ∃ password, q.elim (some url.password) (fun q =>
        (pointer p (q + 1)).map fun q => printed (p.drop q)) = some password := by
      cases q with
      | none => exact ⟨_, rfl⟩
      | some q =>
        refine ⟨printed (p.drop (q + 1)), ?_⟩
        rw [Option.elim_some, ← Nat.cast_add_one,
          pointer_natCast (Nat.succ_le_of_lt (lt_length_of_escapeStrrchr hq)), Option.map_some]
    obtain ⟨password, hpassword⟩ := hpassword
    have huam : ∃ uam, (strstr (ascii [';', 'A', 'U', 'T', 'H', '=']) (p.take (q.getD p.length))).elim
        (some url.uamname) (fun i => (pointer (p.take (q.getD p.length)) (i + 6)).map fun i =>
          printed ((p.take (q.getD p.length)).drop i)) = some uam := by
      rcases strstr_cases (ascii [';', 'A', 'U', 'T', 'H', '=']) (p.take (q.getD p.length)) with
        ⟨h, -⟩ | ⟨a, b, hsplit, h, -⟩
      · rw [h]
        exact ⟨_, rfl⟩
      · refine ⟨printed ((p.take (q.getD p.length)).drop (a.length + 6)), ?_⟩
        rw [h, Option.elim_some, show ((a.length : ℕ) : ℤ) + 6 = ((a.length + 6 : ℕ) : ℤ) by omega,
          pointer_natCast ?_, Option.map_some]
        rw [hsplit, List.length_append, List.length_append]
        exact Nat.add_le_add_left (Nat.le_add_right 6 b.length) _
    obtain ⟨uam, huam⟩ := huam
    simp only [Option.bind_eq_bind, Option.bind_some, hpassword, huam]
    split <;> rfl

theorem isSome_searchSecond (second : Option CString) :
    (searchSecond printed second url).isSome := by
  cases second with
  | none => rfl
  | some p =>
    rw [searchSecond]
    cases hq : strchr p 0 slash with
    | none => rfl
    | some q =>
      simp only [Option.elim_some]
      rw [← Nat.cast_add_one, pointer_natCast (Nat.succ_le_of_lt (strchr_bounds hq).2)]
      rfl

theorem searchParts_eq {second : Option CString} {q : Option ℕ} {last : ℕ}
    (hlast : pointer firstpart (firstpart.length - 1) = some last)
    (hsearch : escapeStrchr firstpart commercialAt fuel 0 = some q)
    (hpointer : q.elim (some 0) (fun q => pointer firstpart (q + 1)) = some p) :
    searchParts fuel errno printed firstpart second url =
      (searchServer errno printed firstpart p url).bind fun server =>
        if server.1 ≠ 0 then some server
        else (q.elim (some (0, server.2)) fun q =>
            searchEarliest fuel printed (firstpart.take q) server.2).bind fun user =>
          if user.1 ≠ 0 then some user else searchSecond printed second user.2 := by
  simp only [searchParts, hlast, hsearch, hpointer, Option.bind_eq_bind, Option.bind_some]
  rfl

/-- The parts around the server name. -/
theorem isSome_around_iff {second : Option CString} {q : Option ℕ} :
    ((q.elim (some (0, url)) fun q =>
        searchEarliest (fuel + 1) printed (firstpart.take q) url).bind fun user =>
      if user.1 ≠ 0 then some user else searchSecond printed second user.2).isSome ↔
      ∀ n ∈ q, ¬ LastDoubled colon (firstpart.take n) := by
  have hsecond : ∀ user : ℤ × AfpUrl,
      (if user.1 ≠ 0 then some user else searchSecond printed second user.2).isSome := by
    intro user
    split
    · rfl
    · exact isSome_searchSecond second
  cases q with
  | none => exact iff_of_true (hsecond (0, url)) (by simp)
  | some n =>
    simp only [Option.elim_some, Option.mem_def, Option.some.injEq, forall_eq']
    rw [← @isSome_searchEarliest_iff fuel printed url (firstpart.take n)]
    cases searchEarliest (fuel + 1) printed (firstpart.take n) url with
    | none => exact iff_of_false Bool.false_ne_true Bool.false_ne_true
    | some user => exact iff_of_true (hsecond user) rfl

/-- **What is between `://` and the volume** is left unless the port or the server name is refused:
with an empty server name at its start, and in the search for the password. -/
theorem isSome_searchParts_iff {second : Option CString} {q : Option ℕ} (hfirst : firstpart ≠ [])
    (hq : Url.escapeStrchr commercialAt firstpart = q)
    (hsearch : escapeStrchr firstpart commercialAt fuel 0 = some q) :
    (searchParts fuel errno printed firstpart second url).isSome ↔
      (PortAccepted errno (serverPart firstpart) ∧
          checkServername (printed (servernameOf firstpart (q.elim 0 (· + 1)))) = 0 →
        (q = none → firstpart.head? ≠ some colon) ∧
          ∀ n ∈ q, ¬ LastDoubled colon (firstpart.take n)) := by
  obtain ⟨fuel, rfl⟩ : ∃ k, fuel = k + 1 := by
    cases fuel with
    | zero => exact absurd hsearch (by simp [escapeStrchr])
    | succ k => exact ⟨k, rfl⟩
  have hlast : pointer firstpart (firstpart.length - 1) = some (firstpart.length - 1) := by
    have hpos := List.length_pos_of_ne_nil hfirst
    rw [show ((firstpart.length : ℕ) : ℤ) - 1 = ((firstpart.length - 1 : ℕ) : ℤ) by omega,
      pointer_natCast (Nat.sub_le _ _)]
  have hle : q.elim 0 (· + 1) ≤ firstpart.length := by
    cases q with
    | none => exact Nat.zero_le _
    | some q => exact lt_length_of_escapeStrchr hq
  have hpointer : q.elim (some 0) (fun q => pointer firstpart (q + 1)) =
      some (q.elim 0 (· + 1)) := by
    cases q with
    | none => rfl
    | some q =>
      have hlt : q + 1 ≤ firstpart.length := hle
      rw [Option.elim_some, ← Nat.cast_add_one, pointer_natCast hlt, Option.elim_some]
  have hstart : q.elim 0 (· + 1) = 0 ↔ q = none := by
    cases q with
    | none => exact iff_of_true rfl rfl
    | some q => exact iff_of_false (Nat.succ_ne_zero q) (Option.some_ne_none q)
  have hstop := serverStop_eq_zero_iff hfirst hle
  rw [hstart] at hstop
  rw [searchParts_eq hlast hsearch hpointer, serverPart, hq]
  rcases searchServer_cases hle with
    ⟨hrefused, rc, out, hrc, hsome⟩ | ⟨haccepted, ⟨hzero, hnone⟩ | ⟨hzero, out, hsome⟩⟩
  · rw [hsome, Option.bind_some, if_pos hrc]
    exact iff_of_true rfl fun h => absurd h hrefused
  · rw [hnone]
    exact iff_of_false Bool.false_ne_true fun h =>
      (h haccepted).1 (hstop.mp hzero).1 (hstop.mp hzero).2
  · rw [hsome, Option.bind_some, if_neg (not_not.mpr rfl), isSome_around_iff]
    constructor
    · exact fun h _ => ⟨fun hnone hhead => hzero (hstop.mpr ⟨hnone, hhead⟩), h⟩
    · exact fun h => (h haccepted).2

/-- **Which first parts** are searched without leaving them, for some number of steps. -/
theorem exists_isSome_searchParts_iff {second : Option CString} (hfirst : firstpart ≠ []) :
    (∃ fuel, (searchParts fuel errno printed firstpart second url).isSome) ↔
      (PortAccepted errno (serverPart firstpart) ∧
          checkServername (printed (servernameOf firstpart
            ((Url.escapeStrchr commercialAt firstpart).elim 0 (· + 1)))) = 0 →
        (Url.escapeStrchr commercialAt firstpart = none → firstpart.head? ≠ some colon) ∧
          ∀ n ∈ Url.escapeStrchr commercialAt firstpart,
            ¬ LastDoubled colon (firstpart.take n)) := by
  constructor
  · rintro ⟨fuel, h⟩
    cases hsearch : escapeStrchr firstpart commercialAt fuel 0 with
    | none =>
      simp only [searchParts, hsearch, Option.bind_eq_bind, Option.bind_none,
        Option.bind_fun_none] at h
      exact absurd h Bool.false_ne_true
    | some q =>
      have hq := eq_of_escapeStrchr_eq_some hsearch
      exact hq ▸ (isSome_searchParts_iff hfirst hq.symm hsearch).mp h
  · intro h
    have hsearch := escapeStrchr_eq (c := commercialAt) (Nat.zero_le firstpart.length)
      (Nat.lt_succ_self _)
    rw [List.drop_zero] at hsearch
    refine ⟨_, (isSome_searchParts_iff hfirst rfl (hsearch.trans ?_)).mpr h⟩
    simp

end Parts

/-! ## The texts -/

section Texts

variable {errno : ℤ} {printed : CString → CString} {url : AfpUrl} {toparse : CString} {p : ℕ}

/-- What comes before the volume. -/
def firstOf (toparse : CString) (p : ℕ) : CString :=
  (toparse.drop (p + 3)).takeWhile (· ≠ slash)

theorem strstr_url_bounds (hp : strstr (ascii [':', '/', '/']) toparse = some p) :
    p + 3 ≤ toparse.length := by
  rcases strstr_cases (ascii [':', '/', '/']) toparse with ⟨h, -⟩ | ⟨a, b, hsplit, h, -⟩
  · rw [h] at hp
    exact absurd hp.symm (Option.some_ne_none p)
  · obtain rfl := Option.some.inj (h.symm.trans hp)
    rw [hsplit, List.length_append, List.length_append]
    exact Nat.add_le_add_left (Nat.le_add_right 3 b.length) _

theorem afpParseUrl_of_afp (fuel : ℕ) (hp : strstr (ascii [':', '/', '/']) toparse = some p)
    (hthree : 3 ≤ p) (hafp : (toparse.drop (p - 3)).take 3 = ascii ['a', 'f', 'p']) :
    afpParseUrl fuel errno printed url toparse =
      (sscanf (toparse.drop (p + 3))).bind fun parts =>
        searchParts fuel errno printed parts.1 parts.2 (blank url) := by
  have hend := strstr_url_bounds hp
  rw [afpParseUrl]
  simp only [hp]
  rw [show ((p : ℕ) : ℤ) - 3 = ((p - 3 : ℕ) : ℤ) by omega, pointer_natCast (by omega),
    show ((p : ℕ) : ℤ) + 3 = ((p + 3 : ℕ) : ℤ) by omega, pointer_natCast hend]
  simp only [Option.bind_eq_bind, Option.bind_some, hafp, ne_eq, not_true_eq_false, if_false]
  rfl

theorem sscanf_cases (hfits : Fits toparse)
    (hp : strstr (ascii [':', '/', '/']) toparse = some p) :
    (firstOf toparse p = [] ∧ sscanf (toparse.drop (p + 3)) = none) ∨
      (firstOf toparse p ≠ [] ∧
        ∃ second, sscanf (toparse.drop (p + 3)) = some (firstOf toparse p, second)) := by
  obtain ⟨hfirst, hsecond⟩ := hfits p hp
  rw [sscanf]
  by_cases hnil : firstOf toparse p = []
  · exact Or.inl ⟨hnil, if_pos (Or.inl hnil)⟩
  · refine Or.inr ⟨hnil, _, if_neg ?_⟩
    rintro (h | h | h)
    · exact hnil h
    · exact absurd hfirst (Nat.not_lt.mpr h)
    · exact absurd hsecond (Nat.not_lt.mpr h)

/-- What is printed where nothing is known about it. -/
def formatted (p : CString) : CString := (format p).getD []

theorem prints_formatted : Prints formatted := fun p s h => by rw [formatted, h, Option.getD_some]

/-- A server name that is printed without conversions is not refused. -/
theorem checkServername_formatted {first : CString} {i : ℕ} (hslash : slash ∉ first) :
    checkServername (formatted (servernameOf first i)) = 0 := by
  have hcolon : colon ∉ servernameOf first i := by
    rw [servernameOf, serverStop]
    cases hq : strchr first i colon with
    | none =>
      rw [Option.getD_none, List.take_length]
      rw [strchr, Option.map_eq_none_iff, List.idxOf?_eq_none_iff] at hq
      exact hq
    | some q =>
      obtain ⟨k, hk, rfl⟩ := Option.map_eq_some_iff.mp hq
      obtain ⟨hlt, hget, hbefore⟩ := List.idxOf?_eq_some_iff.mp hk
      rw [Option.getD_some, List.drop_take, Nat.add_sub_cancel_left]
      intro hmem
      obtain ⟨j, hj, heq⟩ := List.mem_iff_getElem.mp hmem
      rw [List.length_take] at hj
      rw [List.getElem_take] at heq
      exact absurd heq (by simpa using hbefore j (by omega))
  have hsub : (formatted (servernameOf first i)).Sublist (servernameOf first i) := by
    rw [formatted]
    cases h : format (servernameOf first i) with
    | none => exact List.nil_sublist _
    | some s => exact format_sublist h
  have hslash' : slash ∉ formatted (servernameOf first i) := fun h =>
    hslash (List.mem_of_mem_take (List.mem_of_mem_drop (hsub.subset h)))
  rw [checkServername, if_neg fun h => hcolon (hsub.subset h), if_neg hslash']

theorem orderly_iff (hp : strstr (ascii [':', '/', '/']) toparse = some p) :
    Orderly errno toparse ↔ 3 ≤ p ∧ ((toparse.drop (p - 3)).take 3 = ascii ['a', 'f', 'p'] →
      OrderlyFirst errno (firstOf toparse p)) := by
  rw [Orderly, hp]
  simp only [Option.mem_def, Option.some.injEq, forall_eq']
  rfl

/-- A text that is parsed is orderly, since the name of the server is printed as it is when it has
no conversions. -/
theorem Inside.orderly (hfits : Fits toparse) (h : Inside errno toparse) :
    Orderly errno toparse := by
  intro p hp
  obtain ⟨fuel, hsome⟩ := h formatted prints_formatted afpDefaultUrl
  have hthree : 3 ≤ p := by
    by_contra hlt
    rw [afpParseUrl] at hsome
    simp only [show strstr (ascii [':', '/', '/']) toparse = some p from hp] at hsome
    rw [pointer_of_lt (by omega)] at hsome
    exact Bool.false_ne_true hsome
  refine ⟨hthree, fun hafp => ?_⟩
  rw [afpParseUrl_of_afp fuel hp hthree hafp] at hsome
  rcases sscanf_cases hfits hp with ⟨-, hscan⟩ | ⟨hfirst, second, hscan⟩
  · rw [hscan] at hsome
    exact absurd hsome Bool.false_ne_true
  · rw [hscan, Option.bind_some] at hsome
    have hslash : slash ∉ firstOf toparse p := fun hmem => by
      simpa using List.mem_takeWhile_imp hmem
    have hsearch := (exists_isSome_searchParts_iff hfirst).mp ⟨fuel, hsome⟩
    exact
      { nonempty := hfirst
        server := fun hport => (hsearch ⟨hport, checkServername_formatted hslash⟩).1
        user := fun hport => (hsearch ⟨hport, checkServername_formatted hslash⟩).2 }

/-- An orderly text is parsed, whatever is printed. -/
theorem Orderly.inside (hfits : Fits toparse) (h : Orderly errno toparse) :
    Inside errno toparse := by
  intro printed _ url
  cases hp : strstr (ascii [':', '/', '/']) toparse with
  | none =>
    refine ⟨0, ?_⟩
    rw [afpParseUrl, hp]
    rfl
  | some p =>
    obtain ⟨hthree, horderly⟩ := (orderly_iff hp).mp h
    by_cases hafp : (toparse.drop (p - 3)).take 3 = ascii ['a', 'f', 'p']
    · obtain ⟨hfirst, hserver, huser⟩ := horderly hafp
      rcases sscanf_cases hfits hp with ⟨hnil, -⟩ | ⟨-, second, hscan⟩
      · exact absurd hnil hfirst
      obtain ⟨fuel, hsome⟩ := (@exists_isSome_searchParts_iff errno printed _ (blank url) second
        hfirst).mpr fun haccepted => ⟨hserver haccepted.1, huser haccepted.1⟩
      refine ⟨fuel, ?_⟩
      rw [afpParseUrl_of_afp fuel hp hthree hafp, hscan]
      exact hsome
    · refine ⟨0, ?_⟩
      have hend := strstr_url_bounds hp
      rw [afpParseUrl]
      simp only [hp]
      rw [show ((p : ℕ) : ℤ) - 3 = ((p - 3 : ℕ) : ℤ) by omega, pointer_natCast (by omega),
        Option.bind_eq_bind, Option.bind_some, if_pos hafp]
      rfl

/-- **Which texts are parsed without leaving them.** -/
theorem inside_iff (hfits : Fits toparse) : Inside errno toparse ↔ Orderly errno toparse :=
  ⟨fun h => h.orderly hfits, fun h => h.inside hfits⟩

/-- A text with all parts and both escapes. -/
theorem inside_iff_of_everything :
    Inside 0 everything.text ↔ Orderly 0 everything.text := by
  refine inside_iff fun p hp => ?_
  obtain rfl := Option.some.inj (hp.symm.trans
    (by decide : strstr (ascii [':', '/', '/']) everything.text = some 3))
  decide

/-- `afp://a::b@server`. -/
def doubledColon : CString :=
  ascii ['a', 'f', 'p', ':', '/', '/', 'a', ':', ':', 'b', '@', 's', 'e', 'r', 'v', 'e', 'r']

/-- **A colon in a user name without a password** is looked for again and again. -/
theorem doubled_colon_never_returns :
    ¬ ∀ errno toparse, Fits toparse → Inside errno toparse := by
  intro h
  have hpos : strstr (ascii [':', '/', '/']) doubledColon = some 3 := by decide
  have hfits : Fits doubledColon := by
    intro p hp
    obtain rfl := Option.some.inj (hp.symm.trans hpos)
    decide
  have horderly := ((h 0 doubledColon hfits).orderly hfits 3 hpos).2 (by decide)
  refine horderly.user ?_ 4 (by decide) ⟨[97], [98], by decide, by decide⟩
  have hport : strchr (serverPart (firstOf doubledColon 3)) 0 colon = none := by decide
  intro q hq
  exact absurd (hq.symm.trans hport) (Option.some_ne_none q)

end Texts

/-! ## The fields -/

section Agreement

variable {fuel p size : ℕ} {errno : ℤ} {printed : CString → CString} {firstpart s : CString}
  {url : AfpUrl} {out out' : ℤ × AfpUrl}

theorem Prints.of_snprintf (hprints : Prints printed) {text : CString}
    (h : snprintf size text = some s) : printed text = s :=
  hprints text s (format_of_snprintf h)

theorem strchr_drop : strchr firstpart p colon = (strchr (firstpart.drop p) 0 colon).map (p + ·) := by
  rw [strchr, strchr, List.drop_zero, Option.map_map]
  refine congrArg (Option.map · _) (funext fun i => ?_)
  rw [Function.comp_apply, Nat.zero_add]

theorem searchServername_agrees (hprints : Prints printed) {stop : ℕ} {name : CString}
    (hname : (firstpart.take stop).drop p = name) (hs : snprintf 255 name = some s)
    (h : searchServername printed firstpart p stop url = some out) :
    out = (checkServername s, { url with servername := s }) := by
  rw [searchServername, hname, hprints.of_snprintf hs] at h
  simp only at h
  have hcheck : checkServername s = 0 ∨ checkServername s = -1 := by
    rw [checkServername]
    split
    · exact Or.inr rfl
    · split
      · exact Or.inr rfl
      · exact Or.inl rfl
  split at h
  next hne =>
    rw [hcheck.resolve_left hne]
    exact (Option.some.inj h).symm
  next heq =>
    obtain ⟨last, -, h⟩ := Option.bind_eq_some_iff.mp h
    rw [not_not.mp heq]
    exact (Option.some.inj h).symm

theorem searchServer_agrees (hprints : Prints printed)
    (h : parseServer errno (firstpart.drop p) url = some out)
    (h' : searchServer errno printed firstpart p url = some out') : out' = out := by
  rw [parseServer] at h
  rw [searchServer, strchr_drop] at h'
  cases hq : strchr (firstpart.drop p) 0 colon with
  | none =>
    rw [hq] at h h'
    simp only [Option.map_none, Option.getD_none, Option.not_mem_none, false_and, exists_false,
      if_false, Option.isSome_none, Bool.false_eq_true, and_false, List.take_length] at h h'
    obtain ⟨s, hs, h⟩ := Option.bind_eq_some_iff.mp h
    rw [← Option.some.inj h]
    exact searchServername_agrees hprints (by rw [List.take_length]) hs h'
  | some q =>
    rw [hq] at h h'
    simp only [Option.map_some, Option.getD_some, Option.mem_def, Option.some.injEq,
      exists_eq_left', List.drop_drop, Option.isSome_some, and_true] at h h'
    have hlt : p + q + 1 ≤ firstpart.length := by
      have hbounds := (strchr_bounds hq).2
      rw [List.length_drop] at hbounds
      omega
    rw [← Nat.cast_add_one, pointer_natCast hlt, Option.bind_eq_bind, Option.bind_some] at h'
    rw [← Nat.add_assoc] at h
    split at h
    next hport =>
      rw [if_pos hport] at h'
      exact (Option.some.inj h').symm.trans (Option.some.inj h)
    next hport =>
      rw [if_neg hport] at h'
      split at h
      next hzero =>
        rw [if_pos hzero] at h'
        rw [hzero] at h
        exact (Option.some.inj h').symm.trans (Option.some.inj h)
      next hzero =>
        rw [if_neg hzero] at h'
        obtain ⟨s, hs, h⟩ := Option.bind_eq_some_iff.mp h
        obtain ⟨server, hserver, h'⟩ := Option.bind_eq_some_iff.mp h'
        have hname : (firstpart.take (p + q)).drop p = (firstpart.drop p).take q := by
          rw [List.drop_take, Nat.add_sub_cancel_left]
        obtain rfl := searchServername_agrees hprints hname hs hserver
        split at h'
        next hne => exact (Option.some.inj h').symm.trans (Option.some.inj h)
        next heq =>
          obtain ⟨last, -, h'⟩ := Option.bind_eq_some_iff.mp h'
          have hzero : checkServername s = 0 := not_not.mp heq
          rw [← Option.some.inj h, hzero]
          exact (Option.some.inj h').symm

/-- What a field is where something is found for it. -/
theorem printed_agrees (hprints : Prints printed) {text field field' old : CString} {q : Option ℕ}
    {n : ℕ} {i : ℤ} (hi : i = n)
    (h : (q.map fun q => snprintf size (text.drop (q + n))).getD (some old) = some field)
    (h' : (q.elim (some old) fun q => (pointer text (q + i)).map fun q => printed (text.drop q)) =
      some field') : field' = field := by
  cases q with
  | none => exact (Option.some.inj h').symm.trans (Option.some.inj h)
  | some q =>
    rw [Option.map_some, Option.getD_some] at h
    obtain ⟨k, hk, rfl⟩ := Option.map_eq_some_iff.mp h'
    rw [pointer] at hk
    split at hk
    · obtain rfl := Option.some.inj hk
      rw [hi, ← Nat.cast_add, Int.toNat_natCast]
      exact hprints.of_snprintf h
    · exact absurd hk.symm (Option.some_ne_none k)

theorem searchEarliest_agrees (hprints : Prints printed) {text : CString}
    (h : parseEarliest fuel (some text) url = some out)
    (h' : searchEarliest fuel printed text url = some out') : out' = out := by
  obtain ⟨q, hq, h⟩ := Option.bind_eq_some_iff.mp h
  obtain ⟨password, hpassword, h⟩ := Option.bind_eq_some_iff.mp h
  obtain ⟨uamname, huamname, h⟩ := Option.bind_eq_some_iff.mp h
  obtain ⟨q', hq', h'⟩ := Option.bind_eq_some_iff.mp h'
  obtain rfl := Option.some.inj (hq'.symm.trans hq)
  obtain ⟨password', hpassword', h'⟩ := Option.bind_eq_some_iff.mp h'
  obtain rfl := printed_agrees hprints Nat.cast_one.symm hpassword hpassword'
  obtain ⟨uamname', huamname', h'⟩ := Option.bind_eq_some_iff.mp h'
  obtain rfl := printed_agrees hprints rfl huamname huamname'
  simp only at h h'
  split at h
  next hcheck =>
    rw [if_pos hcheck] at h'
    exact (Option.some.inj h').symm.trans (Option.some.inj h)
  next hcheck =>
    rw [if_neg hcheck] at h'
    obtain ⟨username, husername, rfl⟩ := Option.map_eq_some_iff.mp h
    rw [← Option.some.inj h']
    split at husername
    next hpos =>
      simp only [if_pos hpos, hprints.of_snprintf husername]
    next hpos =>
      obtain rfl := Option.some.inj husername
      simp only [if_neg hpos]

theorem searchSecond_agrees (hprints : Prints printed) {second : Option CString}
    (h : parseSecond second url = some out) (h' : searchSecond printed second url = some out') :
    out' = out := by
  cases second with
  | none => exact (Option.some.inj h').symm.trans (Option.some.inj h)
  | some text =>
    obtain ⟨volumename, hvolume, h⟩ := Option.bind_eq_some_iff.mp h
    obtain ⟨path, hpath, h⟩ := Option.bind_eq_some_iff.mp h
    obtain ⟨path', hpath', h'⟩ := Option.bind_eq_some_iff.mp h'
    rw [hprints.of_snprintf hvolume] at h'
    obtain rfl : path' = path := by
      cases hq : strchr text 0 slash with
      | none =>
        rw [hq] at hpath hpath'
        exact (Option.some.inj hpath').symm.trans (Option.some.inj hpath)
      | some q =>
        rw [hq, Option.map_some, Option.getD_some] at hpath
        obtain ⟨s, hs, rfl⟩ := Option.map_eq_some_iff.mp hpath
        rw [hq, Option.elim_some, ← Nat.cast_add_one,
          pointer_natCast (Nat.succ_le_of_lt (strchr_bounds hq).2), Option.map_some,
          hprints.of_snprintf hs] at hpath'
        exact (Option.some.inj hpath').symm
    exact (Option.some.inj h').symm.trans (Option.some.inj h)

theorem elim_pointer {q : Option ℕ}
    (h : (q.elim (some 0) fun q => pointer firstpart (q + 1)) = some p) :
    p = q.elim 0 (· + 1) := by
  cases q with
  | none => exact (Option.some.inj h).symm
  | some q =>
    rw [Option.elim_some, pointer] at h
    split at h
    · rw [← Option.some.inj h]
      exact Int.toNat_natCast (q + 1)
    · exact absurd h.symm (Option.some_ne_none p)

/-- **Where there is a result** in both, it is the same. -/
theorem afpParseUrl_agrees (hprints : Prints printed) {toparse : CString}
    (h : Url.afpParseUrl fuel errno url toparse = some out)
    (h' : afpParseUrl fuel errno printed url toparse = some out') : out' = out := by
  rw [Url.afpParseUrl] at h
  cases hp : strstr (ascii [':', '/', '/']) toparse with
  | none =>
    rw [afpParseUrl] at h'
    rw [hp] at h h'
    exact (Option.some.inj h').symm.trans (Option.some.inj h)
  | some p =>
    simp only [hp] at h
    split at h
    next => exact absurd h.symm (Option.some_ne_none out)
    next hthree =>
      split at h
      next hafp =>
        have hend := strstr_url_bounds hp
        rw [afpParseUrl] at h'
        simp only [hp] at h'
        rw [show ((p : ℕ) : ℤ) - 3 = ((p - 3 : ℕ) : ℤ) by omega, pointer_natCast (by omega),
          Option.bind_eq_bind, Option.bind_some, if_pos hafp] at h'
        exact (Option.some.inj h').symm.trans (Option.some.inj h)
      next hafp =>
        rw [afpParseUrl_of_afp fuel hp (Nat.not_lt.mp hthree) (not_not.mp hafp)] at h'
        obtain ⟨⟨firstpart, second⟩, hscan, h⟩ := Option.bind_eq_some_iff.mp h
        rw [hscan, Option.bind_some] at h'
        obtain ⟨last, -, h'⟩ := Option.bind_eq_some_iff.mp h'
        obtain ⟨q, hsearch, h'⟩ := Option.bind_eq_some_iff.mp h'
        obtain rfl := eq_of_escapeStrchr_eq_some hsearch
        obtain ⟨start, hstart, h'⟩ := Option.bind_eq_some_iff.mp h'
        obtain ⟨⟨rc, url₁⟩, hserver', h'⟩ := Option.bind_eq_some_iff.mp h'
        obtain ⟨server, hserver, h⟩ := Option.bind_eq_some_iff.mp h
        rw [elim_pointer hstart] at hserver'
        obtain rfl := searchServer_agrees hprints hserver hserver'
        simp only at h h'
        split at h
        next hrc =>
          rw [if_pos hrc] at h'
          exact (Option.some.inj h').symm.trans (Option.some.inj h)
        next hrc =>
          rw [if_neg hrc] at h'
          obtain ⟨⟨rc₂, url₂⟩, huser', h'⟩ := Option.bind_eq_some_iff.mp h'
          obtain ⟨user, huser, h⟩ := Option.bind_eq_some_iff.mp h
          obtain rfl : (rc₂, url₂) = user := by
            cases hq : Url.escapeStrchr commercialAt firstpart with
            | none =>
              rw [hq] at huser huser'
              exact (Option.some.inj huser').symm.trans (Option.some.inj huser)
            | some q =>
              rw [hq] at huser huser'
              exact searchEarliest_agrees hprints huser huser'
          simp only at h h'
          split at h
          next hrc =>
            rw [if_pos hrc] at h'
            exact (Option.some.inj h').symm.trans (Option.some.inj h)
          next hrc =>
            rw [if_neg hrc] at h'
            exact searchSecond_agrees hprints h h'

end Agreement

end UrlSearch
end Afpfs
