import Afpfs.Protocol
import Afpfs.Server.Negotiation
import Afpfs.Server.ServerList
import Mathlib.Data.Nat.Bitwise

/-!
# Completing a connection

`afp_server_complete_connection()` (`lib/server.c`) takes a server that is connected through five
stages: a version, a UAM, the login, the parameters of the server, and its message.  The first four
have an error of their own, and the server is removed if one of them fails.

`afp_server_login()` makes no error of a version that the server refuses, since its case falls
through; and `afp_getsrvrparms()` always returns 0.

* `pickVersion_offered`, `pickUam_common`: what is picked is offered.
* `completed_iff`: when the result tells what happened.
* `refused_version_completes`: a login that the server refuses is successful.
-/

set_option autoImplicit false

namespace Afpfs
namespace Server
namespace Completion

open Negotiation

/-! ## The stages -/

/-- The loop of `pick_uam()`, from the bit below `n` downwards. -/
def pickUamFrom (common : ℕ) : ℕ → ℤ
  | 0 => -1
  | i + 1 => if 1 <<< i &&& common ≠ 0 then ((1 <<< i : ℕ) : ℤ) else pickUamFrom common i

/-- `pick_uam()`. -/
def pickUam (uam2 uam1 : UInt32) : ℤ := pickUamFrom (uam2 &&& uam1).toNat 16

/-- The `switch` of `afp_server_login()` on the result of `afp_dologin()`: whether it goes to the
error.  The case of `kFPBadVersNum` has no `break` and falls into the next one. -/
def loginFails (rc : ℤ) : Bool :=
  if rc = -1 then true
  else if rc = kFPAuthContinue then true
  else if rc = kFPBadUAM then true
  else if rc = kFPBadVersNum ∨ rc = kFPCallNotSupported ∨ rc = kFPMiscErr then false
  else if rc = kFPNoServer then true
  else if rc = kFPPwdExpiredErr ∨ rc = kFPPwdNeedsChangeErr then true
  else if rc = kFPServerGoingDown then true
  else if rc = kFPUserNotAuth then true
  else if rc = 0 then false
  else true

/-- `kSupportsReconnect`. -/
def kSupportsReconnect : ℕ := 0x80

/-- `afp_server_login()`: its result and the server.  The tokens for a reconnection are asked for,
and whether they come is not looked at. -/
def afpServerLogin (flags : ℕ) (srv : AfpServer) (rc : ℤ) : ℤ × AfpServer :=
  if loginFails rc then (1, srv)
  else if flags &&& kSupportsReconnect ≠ 0 ∧ srv.needResume then
    (0, { srv with needResume := false })
  else (0, srv)

/-- What `afp_getsrvrparms_reply()` stores. -/
structure SrvrParms where
  connectTime : UInt32
  /-- The flags and the name of each volume. -/
  volumes : List (UInt8 × List UInt8)
  deriving DecidableEq

/-- The outcome of the request for the parameters: what `dsi_send()` returns, and what the reply
handler stored, if it stored anything. -/
structure ParmsReply where
  rc : ℤ
  stored : Option SrvrParms
  deriving DecidableEq

/-- The fields of `struct afp_server` that a connection fills in. -/
structure Session where
  requestedVersion : UInt32
  usingVersion : Option (List UInt8 × UInt8)
  usingUam : ℤ
  parms : Option SrvrParms
  deriving DecidableEq

/-- `afp_getsrvrparms()`: its result and what is known of the server. -/
def afpGetsrvrparms (session : Session) (reply : ParmsReply) : ℤ × Session :=
  (0, { session with parms := reply.stored.orElse fun _ => session.parms })

/-! ## The connection -/

/-- What the server and the system answer. -/
structure Answers where
  /-- The flags in the server's status. -/
  flags : ℕ
  /-- The result of `afp_dologin()`. -/
  login : ℤ
  parms : ParmsReply
  /-- The seconds of `gettimeofday()`. -/
  now : UInt32

/-- The result of `afp_server_complete_connection()`, the list of the servers, and what is known
of the server. -/
structure Outcome where
  ret : ℤ
  state : State
  session : Session

/-- `error:`. -/
def giveUp (st : State) (fuel : ℕ) (s : Addr) (srv : AfpServer) (session : Session) (ret : ℤ) :
    Option Outcome := do
  let (_, st) ← afpServerRemove st fuel s srv
  some ⟨ret, st, session⟩

/-- A time that was not sent becomes the time of the connection. -/
def fixTime (now : UInt32) (parms : SrvrParms) : SrvrParms :=
  if parms.connectTime = 3094168448 then { parms with connectTime := now } else parms

/-- `afp_server_complete_connection()` of the server `srv` at `s`.  The request for the message of
the day comes last, and its result is not looked at. -/
def afpServerCompleteConnection (st : State) (fuel : ℕ) (s : Addr) (srv : AfpServer)
    (versions : List UInt8) (uams requestedVersion uamMask : UInt32) (answers : Answers) :
    Option Outcome :=
  let session : Session :=
    { requestedVersion := requestedVersion, usingVersion := none, usingUam := 0, parms := none }
  -- the parameter of `pick_version()` has eight bits
  match (pickVersion versions requestedVersion.toUInt8).1 with
  | none => giveUp st fuel s srv session (-ENOPROTOOPT)
  | some version =>
    let session := { session with usingVersion := some version }
    let usingUam := pickUam uams uamMask
    if usingUam = -1 then giveUp st fuel s srv session (-EPROTONOSUPPORT)
    else
      let session := { session with usingUam := usingUam }
      let (ret, srv) := afpServerLogin answers.flags srv answers.login
      if ret ≠ 0 then giveUp st fuel s srv session (-EACCES)
      else
        let (ret, session) := afpGetsrvrparms session answers.parms
        if ret ≠ 0 then giveUp st fuel s srv session (-ENONET)
        else some {
          ret := 0
          state := st.store s srv
          session := { session with parms := session.parms.map (fixTime answers.now) } }

/-! ## What is expected -/

/-- The list of the volumes was obtained. -/
def Obtained (reply : ParmsReply) : Prop := reply.rc = kFPNoErr ∧ reply.stored.isSome

/-- What a result of 0 stands for: a common version and a common UAM are in use, the login was
not refused, and the volumes are known. -/
structure Established (refused : ℤ → Prop) (versions : List UInt8) (uams uamMask : UInt32)
    (answers : Answers) (session : Session) : Prop where
  version : ∃ e ∈ afpVersions, e.2 ∈ versions ∧ session.usingVersion = some e
  uam : ∃ i < 16, uams.toNat.testBit i ∧ uamMask.toNat.testBit i ∧
    session.usingUam = ((2 ^ i : ℕ) : ℤ)
  login : ¬ refused answers.login
  parms : Obtained answers.parms ∧ session.parms = answers.parms.stored.map (fixTime answers.now)

/-- What the errors stand for. -/
inductive Documented (refused : ℤ → Prop) (versions : List UInt8)
    (uams requestedVersion uamMask : UInt32) (answers : Answers) : ℤ → Prop
  | version (h : (pickVersion versions requestedVersion.toUInt8).1 = none) :
    Documented refused versions uams requestedVersion uamMask answers (-ENOPROTOOPT)
  | uam (h : pickUam uams uamMask = -1) :
    Documented refused versions uams requestedVersion uamMask answers (-EPROTONOSUPPORT)
  | login (h : refused answers.login) :
    Documented refused versions uams requestedVersion uamMask answers (-EACCES)
  | parms (h : ¬ Obtained answers.parms) :
    Documented refused versions uams requestedVersion uamMask answers (-ENONET)

/-- The result tells what happened, and a server that is not connected is not listed. -/
structure Completed (refused : ℤ → Prop) (s : Addr) (versions : List UInt8)
    (uams requestedVersion uamMask : UInt32) (answers : Answers) (out : Outcome) : Prop where
  success : out.ret = 0 → Established refused versions uams uamMask answers out.session
  failure : out.ret ≠ 0 →
    Documented refused versions uams requestedVersion uamMask answers out.ret ∧
      ∃ l, out.state.Lists l ∧ s ∉ l

/-! ## What is picked -/

/-- The loop of `pick_version()` only remembers what it saw. -/
theorem pickLoop_mem (requested : UInt8) (versions : List UInt8) (versionNum highest : Int8) :
    ((pickLoop requested versions versionNum highest).foundVersion = true →
        ∃ v ∈ versions, (pickLoop requested versions versionNum highest).versionNum = v.toInt8) ∧
      ((pickLoop requested versions versionNum highest).highest = highest ∨
        ∃ v ∈ versions, (pickLoop requested versions versionNum highest).highest = v.toInt8) := by
  induction versions generalizing versionNum highest with
  | nil => exact ⟨fun h => absurd h Bool.false_ne_true, .inl rfl⟩
  | cons v versions ih =>
    rw [pickLoop]
    by_cases hzero : v = 0
    · rw [if_pos hzero]
      exact ⟨fun h => absurd h Bool.false_ne_true, .inl rfl⟩
    rw [if_neg hzero]
    have hhighest : (if v.toInt8 < highest then highest else v.toInt8) = highest ∨
        (if v.toInt8 < highest then highest else v.toInt8) = v.toInt8 := by
      split
      · exact .inl rfl
      · exact .inr rfl
    dsimp only
    by_cases hfound : v = requested
    · rw [if_pos hfound]
      refine ⟨fun _ => ⟨v, List.mem_cons_self, rfl⟩, hhighest.imp id fun h => ?_⟩
      exact ⟨v, List.mem_cons_self, h⟩
    · rw [if_neg hfound]
      obtain ⟨hversion, hrest⟩ := ih v.toInt8 (if v.toInt8 < highest then highest else v.toInt8)
      refine ⟨fun h => ?_, ?_⟩
      · obtain ⟨w, hw, heq⟩ := hversion h
        exact ⟨w, List.mem_cons_of_mem v hw, heq⟩
      · rcases hrest with h | ⟨w, hw, heq⟩
        · exact hhighest.imp h.trans fun heq => ⟨v, List.mem_cons_self, h.trans heq⟩
        · exact .inr ⟨w, List.mem_cons_of_mem v hw, heq⟩

/-- A byte that is not negative as a `char`. -/
theorem toInt_toInt8 {v : UInt8} {n : ℕ} (h : (n : ℤ) = v.toInt8.toInt) : v.toNat = n := by
  have hcond : v.toInt8.toInt =
      if 2 * v.toNat < 256 then (v.toNat : ℤ) else (v.toNat : ℤ) - 256 :=
    BitVec.toInt_eq_toNat_cond v.toBitVec
  have hlt := v.toNat_lt
  rw [hcond] at h
  split at h
  all_goals omega

/-- **The version that is picked is one of those that are offered**, whatever they are. -/
theorem pickVersion_offered {versions : List UInt8} {requested : UInt8} {e : List UInt8 × UInt8}
    (h : (pickVersion versions requested).1 = some e) : e ∈ afpVersions ∧ e.2 ∈ versions := by
  let picked := pickLoop (limit requested) versions 0 0
  have hfind : (afpVersions.find? fun p => (p.2.toNat : ℤ) =
      (if picked.foundVersion then picked.versionNum else picked.highest).toInt) = some e := h
  have hmem : e ∈ afpVersions := List.mem_of_find?_eq_some hfind
  have htest := List.find?_some hfind
  have hnum : (e.2.toNat : ℤ) =
      (if picked.foundVersion then picked.versionNum else picked.highest).toInt :=
    of_decide_eq_true htest
  obtain ⟨hfound, hhighest⟩ := pickLoop_mem (limit requested) versions 0 0
  refine ⟨hmem, ?_⟩
  have hoffered : ∀ {num : Int8}, (e.2.toNat : ℤ) = num.toInt → (∃ v ∈ versions, num = v.toInt8) →
      e.2 ∈ versions := by
    rintro num hnum ⟨v, hv, rfl⟩
    rwa [UInt8.toNat_inj.mp (toInt_toInt8 hnum)] at hv
  split at hnum
  next hversion => exact hoffered hnum (hfound hversion)
  next =>
    refine hoffered hnum (hhighest.resolve_left fun hzero => ?_)
    have hpos : ∀ e ∈ afpVersions, e.2.toNat ≠ 0 := List.forall_iff_forall_mem.mp (by decide)
    rw [show picked.highest = 0 from hzero] at hnum
    exact hpos e hmem (Int.natCast_eq_zero.mp hnum)

/-- The UAM that is picked is a bit that both masks have. -/
theorem pickUamFrom_cases (common n : ℕ) :
    pickUamFrom common n = -1 ∨
      ∃ i < n, common.testBit i ∧ pickUamFrom common n = ((2 ^ i : ℕ) : ℤ) := by
  induction n with
  | zero => exact .inl rfl
  | succ n ih =>
    rw [pickUamFrom]
    by_cases h : 1 <<< n &&& common ≠ 0
    · rw [if_pos h, Nat.one_shiftLeft]
      refine .inr ⟨n, Nat.lt_succ_self n, ?_, rfl⟩
      rw [Nat.one_shiftLeft, Nat.two_pow_and] at h
      by_contra hbit
      exact h (by simp [eq_false_of_ne_true hbit])
    · rw [if_neg h]
      refine ih.imp id ?_
      rintro ⟨i, hi, hbit⟩
      exact ⟨i, Nat.lt_succ_of_lt hi, hbit⟩

/-- **The UAM that is picked is offered and allowed.** -/
theorem pickUam_common {uams uamMask : UInt32} (h : pickUam uams uamMask ≠ -1) :
    ∃ i < 16, uams.toNat.testBit i ∧ uamMask.toNat.testBit i ∧
      pickUam uams uamMask = ((2 ^ i : ℕ) : ℤ) := by
  obtain ⟨i, hi, hbit, hpicked⟩ := (pickUamFrom_cases (uams &&& uamMask).toNat 16).resolve_left h
  rw [UInt32.toNat_and, Nat.testBit_and, Bool.and_eq_true] at hbit
  exact ⟨i, hi, hbit.1, hbit.2, hpicked⟩

/-! ## The connection completes -/

section Completes

variable {st : State} {fuel : ℕ} {s : Addr} {srv : AfpServer} {versions : List UInt8}
  {uams requestedVersion uamMask : UInt32} {answers : Answers} {refused : ℤ → Prop}
  {l : List Addr} {session : Session} {ret : ℤ}

/-- A login that fails leaves the server alone. -/
theorem afpServerLogin_of_fails {flags : ℕ} {rc : ℤ} (h : loginFails rc = true) :
    afpServerLogin flags srv rc = (1, srv) := if_pos h

theorem afpServerLogin_of_not_fails {flags : ℕ} {rc : ℤ} (h : loginFails rc = false) :
    (afpServerLogin flags srv rc).1 = 0 := by
  rw [afpServerLogin, if_neg (ne_true_of_eq_false h)]
  split
  · rfl
  · rfl

/-- Whatever the server answers. -/
theorem afpGetsrvrparms_fst (session : Session) (reply : ParmsReply) :
    (afpGetsrvrparms session reply).1 = 0 := rfl

theorem afpGetsrvrparms_parms (h : session.parms = none) (reply : ParmsReply) :
    (afpGetsrvrparms session reply).2.parms = reply.stored := by
  rw [afpGetsrvrparms, h]
  cases reply.stored with
  | none => rfl
  | some parms => rfl

/-- The result tells what happened exactly if a stage failed that has an error, or if the login
was not refused and the volumes are known. -/
def Told (refused : ℤ → Prop) (versions : List UInt8) (uams requestedVersion uamMask : UInt32)
    (answers : Answers) : Prop :=
  (pickVersion versions requestedVersion.toUInt8).1 = none ∨ pickUam uams uamMask = -1 ∨
    loginFails answers.login = true ∨ ¬ refused answers.login ∧ Obtained answers.parms

theorem not_established (session : Session) (h : ¬ Told refused versions uams requestedVersion
    uamMask answers) : ¬ Established refused versions uams uamMask answers session :=
  fun hestablished => h (.inr (.inr (.inr ⟨hestablished.login, hestablished.parms.1⟩)))

/-- A server that is given up is not listed any more, so an error that is documented tells it. -/
theorem completed_of_giveUp (hl : st.Lists l) (hs : st.heap s = some srv) (hfuel : l.length ≤ fuel)
    (session : Session) (hne : ret ≠ 0)
    (hret : Documented refused versions uams requestedVersion uamMask answers ret)
    (htold : Told refused versions uams requestedVersion uamMask answers) :
    ∃ out, giveUp st fuel s srv session ret = some out ∧
      (Completed refused s versions uams requestedVersion uamMask answers out ↔
        Told refused versions uams requestedVersion uamMask answers) := by
  obtain ⟨ret', st', hremove⟩ := @exists_afpServerRemove st fuel s srv l hl hfuel
  obtain ⟨l', hl', hnot, -, -⟩ := lists_remove hs hremove hl
  refine ⟨⟨ret, st', session⟩, by rw [giveUp, hremove]; rfl, fun _ => htold, fun _ => ?_⟩
  exact ⟨fun h => absurd h hne, fun _ => ⟨hret, l', hl', hnot⟩⟩

/-- **When the result tells what happened.**  The refusals are those of the protocol: every result
that the `switch` makes an error of is one, and whether the others are is left open. -/
theorem completed_iff (hrefused : ∀ rc, loginFails rc = true → refused rc) (hl : st.Lists l)
    (hs : st.heap s = some srv) (hfuel : l.length ≤ fuel) :
    ∃ out, afpServerCompleteConnection st fuel s srv versions uams requestedVersion uamMask
        answers = some out ∧
      (Completed refused s versions uams requestedVersion uamMask answers out ↔
        Told refused versions uams requestedVersion uamMask answers) := by
  unfold afpServerCompleteConnection
  cases hversion : (pickVersion versions requestedVersion.toUInt8).1 with
  | none => exact completed_of_giveUp hl hs hfuel _ (by decide) (.version hversion) (.inl hversion)
  | some version =>
    dsimp only
    by_cases huam : pickUam uams uamMask = -1
    · rw [if_pos huam]
      exact completed_of_giveUp hl hs hfuel _ (by decide) (.uam huam) (.inr (.inl huam))
    rw [if_neg huam]
    cases hlogin : loginFails answers.login with
    | true =>
      rw [afpServerLogin_of_fails hlogin]
      exact completed_of_giveUp hl hs hfuel _ (by decide) (.login (hrefused _ hlogin))
        (.inr (.inr (.inl hlogin)))
    | false =>
      rw [if_neg (not_not.mpr (afpServerLogin_of_not_fails hlogin)),
        if_neg (not_not.mpr (afpGetsrvrparms_fst _ _))]
      refine ⟨_, rfl, fun h => ?_, fun htold => ⟨fun _ => ?_, fun h => absurd rfl h⟩⟩
      · exact by_contra fun htold => not_established _ htold (h.success rfl)
      · obtain ⟨hmem, hoffered⟩ := pickVersion_offered hversion
        have hend := ((htold.resolve_left (by rw [hversion]; simp)).resolve_left huam).resolve_left
          (ne_true_of_eq_false hlogin)
        refine ⟨⟨version, hmem, hoffered, rfl⟩, pickUam_common huam, hend.1, hend.2, ?_⟩
        exact congrArg (Option.map (fixTime answers.now)) (afpGetsrvrparms_parms rfl answers.parms)

/-- The list with the one server at 1. -/
def alone : State := addServer .init 1 (afpServerInit (loopback 548))

theorem lists_alone : alone.Lists [1] := ⟨rfl, _, rfl, rfl⟩

/-- A server for AFP 3.1 without passwords, whose answers are as they should be. -/
theorem completed_iff_of_guest :
    ∃ out, afpServerCompleteConnection alone 1 1 (afpServerInit (loopback 548)) [31] 1 0 1
        ⟨0, kFPNoErr, ⟨kFPNoErr, some ⟨0, []⟩⟩, 0⟩ = some out ∧
      (Completed (fun rc => rc ≠ kFPNoErr ∧ rc ≠ kFPMiscErr) 1 [31] 1 0 1
          ⟨0, kFPNoErr, ⟨kFPNoErr, some ⟨0, []⟩⟩, 0⟩ out ↔
        Told (fun rc => rc ≠ kFPNoErr ∧ rc ≠ kFPMiscErr) [31] 1 0 1
          ⟨0, kFPNoErr, ⟨kFPNoErr, some ⟨0, []⟩⟩, 0⟩) := by
  refine completed_iff (fun rc hrc => ⟨?_, ?_⟩) lists_alone rfl (by decide)
  · rintro rfl
    exact absurd hrc (by decide)
  · rintro rfl
    exact absurd hrc (by decide)

/-- **A version that the server refuses.**  The login is answered `kFPBadVersNum`, and so is the
request for the parameters; the connection is complete. -/
theorem refused_version_completes :
    ¬ ∀ (refused : ℤ → Prop) (st : State) (fuel : ℕ) (s : Addr) (srv : AfpServer) (l : List Addr)
      (versions : List UInt8) (uams requestedVersion uamMask : UInt32) (answers : Answers)
      (out : Outcome), refused kFPBadVersNum → st.Lists l → st.heap s = some srv → l.length ≤ fuel →
      afpServerCompleteConnection st fuel s srv versions uams requestedVersion uamMask answers =
        some out →
      Completed refused s versions uams requestedVersion uamMask answers out := by
  intro h
  have hcompleted := h (fun rc => rc = kFPBadVersNum) alone 1 1 _ [1] [31] 1 0 1
    ⟨0, kFPBadVersNum, ⟨kFPBadVersNum, none⟩, 0⟩ _ rfl lists_alone rfl (by decide) rfl
  exact (hcompleted.success rfl).login rfl

end Completes

end Completion
end Server
end Afpfs
