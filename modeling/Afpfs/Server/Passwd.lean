import Mathlib.Data.List.TakeWhile
import Afpfs.Lib.Bytes
import Afpfs.Server.Login

/-!
# Changing the password

`dhx_passwd()` and `dhx2_passwd()` of `uams.c`: FPChangePassword is sent until the server has
returned its nonce, and the last message has the nonce incremented and the two passwords, encrypted.
`dhx2_passwd()` copies the old password to both places.  Its last message has the transaction ID as
it is in memory.

Whether a byte is left free behind the name of the user depends on the parity of a pointer to a big
number, which is an argument here.

* `incremented_eq`: the nonce plus one modulo 2^128, also where its length changes.
* `sent_dhxPasswd_cases`, `sent_dhx2Passwd_cases`: what is sent, for all replies.
* `password_content_iff`: what is encrypted in it, and when two of them differ.
-/

set_option autoImplicit false

namespace Afpfs
namespace Server
namespace Login

open Wire

/-! ## The numbers -/

/-- What `gcry_mpi_print()` stores with `GCRYMPI_FMT_USG`: the bytes of the number from the first
on that is not zero, and nothing if the buffer is too short. -/
def gcryMpiPrint (buflen n : ℕ) : List UInt8 :=
  if n < 256 ^ buflen then (toBE buflen n).dropWhile (· = 0) else []

/-- The buffer after the number was moved to its end. -/
def printed (size n : ℕ) : List UInt8 :=
  let bytes := gcryMpiPrint size n
  if bytes.length < size then List.replicate (size - bytes.length) 0 ++ bytes else bytes

/-- What is documented of the big numbers and of the cipher, which is taken to be injective. -/
structure Documented (G : Primitives) : Prop where
  mpiScan : ∀ bytes, G.mpiScan bytes = ofBE bytes
  mpiPrint : ∀ size n, G.mpiPrint size n = printed size n
  length_cast5Encrypt : ∀ {key iv plaintext crypted},
    G.cast5Encrypt key iv plaintext = some crypted → crypted.length = plaintext.length
  injective_cast5Encrypt : ∀ {key iv plaintext plaintext' crypted},
    G.cast5Encrypt key iv plaintext = some crypted →
      G.cast5Encrypt key iv plaintext' = some crypted → plaintext = plaintext'

/-! ## The exchanges -/

/-- What a change of the password does: the `userauthinfo` of each FPChangePassword, and what it
returns.  `none` stands for a read behind the end of a buffer. -/
structure Change where
  sent : List (List UInt8)
  ret : Option ℤ
  deriving DecidableEq

/-- A block of this size with the name of the user in front: a byte is left free behind it, or the
last byte of the block is not sent. -/
def authinfo (size : ℕ) (username : List UInt8) (free : Bool) (fields : List UInt8) : List UInt8 :=
  if free then padded size (copyToPascal username ++ 0 :: fields)
  else padded (size - 1) (copyToPascal username ++ fields)

/-- `(int)p & 0x1` is 0. -/
def isEven (p : ℕ) : Bool := decide (p % 2 = 0)

/-- The plaintext of the last FPChangePassword in `dhx_passwd()`. -/
def dhxPasswdPlaintext (G : Primitives) (oldpasswd newpasswd decrypted : List UInt8) :
    List UInt8 :=
  G.incremented (decrypted.take 16) ++ (padded dhxPasswdlen oldpasswd ++
    padded dhxPasswdlen newpasswd)

/-- The first `userauthinfo` of `dhx_passwd()`. -/
def dhxPasswdFirst (G : Primitives) (p : ℕ) (username Ra : List UInt8) : List UInt8 :=
  let Ma := G.powm (G.mpiScan gBinary) (G.mpiScan Ra) (G.mpiScan pBinary)
  authinfo (2 + username.length + 2 + 16) username (isEven p) (toBE 2 0 ++ G.mpiPrint 16 Ma)

/-- The last `userauthinfo` of `dhx_passwd()`. -/
def dhxPasswdLast (p : ℕ) (username : List UInt8) (id : ℕ) (crypted : List UInt8) : List UInt8 :=
  authinfo (2 + username.length + 2 + 16 + 2 * dhxPasswdlen) username (isEven p)
    (toBE 2 id ++ crypted)

/-- `dhx_passwd()`, with the address of the number `p` and the random exponent. -/
def dhxPasswd (G : Primitives) (p : ℕ) (username oldpasswd newpasswd Ra : List UInt8)
    (replies : ℕ → Reply) : Change :=
  let first := dhxPasswdFirst G p username Ra
  if (replies 0).ret ≠ kFPAuthContinue then ⟨[first], some (replies 0).ret⟩
  else
    -- the check of `rbuf.size` asserts a string
    let d := received 50 (replies 0)
    let key := dhxKey G Ra d
    match G.cast5Decrypt key dhxS2civ (d.drop 18) with
    | none => ⟨[first], some (-1)⟩
    | some decrypted =>
      match G.cast5Encrypt key dhxC2siv
          (dhxPasswdPlaintext G oldpasswd newpasswd decrypted) with
      | none => ⟨[first], some (-1)⟩
      | some crypted =>
        ⟨[first, dhxPasswdLast p username (ntohs d) crypted], some (replies 1).ret⟩

/-- The first `userauthinfo` of `dhx2_passwd()`, with the address of the new number `p`. -/
def dhx2PasswdFirst (p : ℕ) (username : List UInt8) : List UInt8 :=
  padded (if isEven p then 2 + username.length else 2 + username.length - 1)
    (copyToPascal username)

/-- The second `userauthinfo` of `dhx2_passwd()`. -/
def dhx2PasswdSecond (G : Primitives) (p : ℕ) (username Ra d crypted : List UInt8) : List UInt8 :=
  authinfo (2 + username.length + 2 + bignumLen d + 16) username (isEven p)
    (toBE 2 (ntohs d) ++ (dhx2Ma G Ra d ++ crypted))

/-- The plaintext of the last FPChangePassword in `dhx2_passwd()`, which does not look at the new
password. -/
def dhx2PasswdPlaintext (G : Primitives) (oldpasswd _newpasswd decrypted : List UInt8) :
    List UInt8 :=
  G.incremented ((decrypted.drop 16).take 16) ++ (padded dhx2Passwdlen oldpasswd ++
    padded dhx2Passwdlen oldpasswd)

/-- The last `userauthinfo` of `dhx2_passwd()`.  The ID is stored without `htons()`. -/
def dhx2PasswdLast (p : ℕ) (username : List UInt8) (id : ℕ) (crypted : List UInt8) : List UInt8 :=
  authinfo (2 + username.length + 2 + 16 + 2 * dhx2Passwdlen) username (isEven p)
    ((toBE 2 id).reverse ++ crypted)

/-- The size of the buffer for the first reply. -/
def dhx2PasswdMaxsize : ℕ := 2 + 4 + 2 + dhx2Passwdlen * 2

/-- `dhx2_passwd()`, with the addresses of the number `p` before and after the first reply, the
random exponent, of as many bytes as the server says, and the nonce. -/
def dhx2Passwd (G : Primitives) (p p' : ℕ) (username oldpasswd newpasswd : List UInt8)
    (Ra : ℕ → List UInt8) (nonce : List UInt8) (replies : ℕ → Reply) : Change :=
  let first := dhx2PasswdFirst p username
  if (replies 0).ret ≠ kFPAuthContinue then ⟨[first], some (replies 0).ret⟩
  else
    let d := received dhx2PasswdMaxsize (replies 0)
    -- the check of the length asserts a string, and then the numbers are read
    if 256 < bignumLen d then ⟨[first], none⟩
    else
      let key := dhx2Key G (Ra (bignumLen d)) d
      match G.cast5Encrypt key dhxC2siv nonce with
      | none => ⟨[first], some (-1)⟩
      | some crypted =>
        let second := dhx2PasswdSecond G p' username (Ra (bignumLen d)) d crypted
        if (replies 1).ret ≠ kFPAuthContinue then ⟨[first, second], some (replies 1).ret⟩
        else
          let d := received 34 (replies 1)
          match G.cast5Decrypt key dhxS2civ (d.drop 2) with
          | none => ⟨[first, second], some (-1)⟩
          | some decrypted =>
            -- the comparison of the incremented nonce asserts a string
            match G.cast5Encrypt key dhxC2siv
                (dhx2PasswdPlaintext G oldpasswd newpasswd decrypted) with
            | none => ⟨[first, second], some (-1)⟩
            | some crypted =>
              ⟨[first, second, dhx2PasswdLast p' username (ntohs d) crypted],
                some (replies 2).ret⟩

/-! ## What is to be sent -/

/-- The nonce plus one, then the old password and the new one, each with zeros up to its size. -/
def content (size : ℕ) (nonce oldpasswd newpasswd : List UInt8) : List UInt8 :=
  toBE 16 ((ofBE nonce + 1) % 2 ^ 128) ++ (padded size oldpasswd ++ padded size newpasswd)

/-- The message ends with the content, encrypted. -/
def Carries (G : Primitives) (key : List UInt8) (size : ℕ)
    (nonce oldpasswd newpasswd last : List UInt8) : Prop :=
  ∃ front crypted, last = front ++ crypted ∧ crypted.length = 16 + 2 * size ∧
    G.cast5Encrypt key dhxC2siv (content size nonce oldpasswd newpasswd) = some crypted

/-- The last message of `dhx_passwd()` has the content, with the nonce of the server. -/
def DhxCarries (G : Primitives) (oldpasswd newpasswd Ra : List UInt8) (replies : ℕ → Reply)
    (last : List UInt8) : Prop :=
  let d := received 50 (replies 0)
  let key := dhxKey G Ra d
  ∃ decrypted, G.cast5Decrypt key dhxS2civ (d.drop 18) = some decrypted ∧
    Carries G key dhxPasswdlen (decrypted.take 16) oldpasswd newpasswd last

/-- The last message of `dhx2_passwd()` has the content, with the nonce of the server. -/
def Dhx2Carries (G : Primitives) (oldpasswd newpasswd : List UInt8) (Ra : ℕ → List UInt8)
    (replies : ℕ → Reply) (last : List UInt8) : Prop :=
  let d := received dhx2PasswdMaxsize (replies 0)
  let key := dhx2Key G (Ra (bignumLen d)) d
  ∃ decrypted, G.cast5Decrypt key dhxS2civ ((received 34 (replies 1)).drop 2) = some decrypted ∧
    Carries G key dhx2Passwdlen ((decrypted.drop 16).take 16) oldpasswd newpasswd last

/-! ## Numbers of a given size -/

/-- A list with its zeros in front counted. -/
theorem replicate_append_dropWhile (l : List UInt8) :
    List.replicate (l.length - (l.dropWhile (· = 0)).length) 0 ++ l.dropWhile (· = 0) = l := by
  have hsplit := @List.takeWhile_append_dropWhile _ (· = 0) l
  have hlen := congrArg List.length hsplit
  rw [List.length_append] at hlen
  have hzeros : l.takeWhile (· = 0) =
      List.replicate (l.length - (l.dropWhile (· = 0)).length) 0 := by
    refine List.eq_replicate_iff.mpr ⟨by omega, fun b hb => ?_⟩
    have hzero := List.mem_takeWhile_imp hb
    exact of_decide_eq_true hzero
  rw [← hzeros, hsplit]

/-- A number that fits is printed with its zeros in front, and one that does not as zeros. -/
theorem printed_eq (size n : ℕ) :
    printed size n = if n < 256 ^ size then toBE size n else List.replicate size 0 := by
  have hfront : printed size n =
      List.replicate (size - (gcryMpiPrint size n).length) 0 ++ gcryMpiPrint size n := by
    rw [printed]
    split_ifs with hshort
    · rfl
    · rw [Nat.sub_eq_zero_of_le (Nat.not_lt.mp hshort), List.replicate_zero, List.nil_append]
  rw [hfront, gcryMpiPrint]
  split_ifs with hfits
  · have hsplit := replicate_append_dropWhile (toBE size n)
    rwa [length_toBE] at hsplit
  · rw [List.length_nil, Nat.sub_zero, List.append_nil]

/-- **The nonce plus one**, modulo 2^128. -/
theorem incremented_eq {G : Primitives} (hG : Documented G) {nonce : List UInt8}
    (hlen : nonce.length ≤ 16) :
    G.incremented nonce = toBE 16 ((ofBE nonce + 1) % 2 ^ 128) := by
  have hpow : 256 ^ 16 = 2 ^ 128 := by decide
  have hlt : ofBE nonce < 2 ^ 128 :=
    hpow ▸ (ofBE_lt nonce).trans_le (Nat.pow_le_pow_right (by decide) hlen)
  rw [Primitives.incremented, hG.mpiScan, hG.mpiPrint, printed_eq, hpow]
  split_ifs with hfits
  · rw [Nat.mod_eq_of_lt hfits]
  · -- the carry goes out of the 16 bytes
    have hfull : ofBE nonce + 1 = 2 ^ 128 := by omega
    rw [hfull, Nat.mod_self]
    decide

/-! ## Blocks with a name -/

theorem padded_of_length {n : ℕ} {bytes : List UInt8} (h : bytes.length = n) :
    padded n bytes = bytes := by
  rw [padded, List.take_append_of_le_length h.ge, List.take_of_length_le h.le]

theorem length_padded (n : ℕ) (bytes : List UInt8) : (padded n bytes).length = n := by
  rw [padded, List.length_take, List.length_append, List.length_replicate]
  omega

theorem length_copyToPascal {src : List UInt8} (h : src.length ≤ 255) :
    (copyToPascal src).length = src.length + 1 := by
  rw [copyToPascal, List.length_cons, Nat.mod_eq_of_lt (Nat.lt_succ_of_le h), List.take_length]

/-- The block has exactly its fields. -/
theorem authinfo_eq {size : ℕ} {username fields : List UInt8} (husername : username.length ≤ 255)
    (hsize : 2 + username.length + fields.length = size) (free : Bool) :
    authinfo size username free fields =
      copyToPascal username ++ (if free then 0 :: fields else fields) := by
  have hname := length_copyToPascal husername
  rw [authinfo]
  cases free with
  | true =>
    rw [if_pos rfl, if_pos rfl]
    refine padded_of_length ?_
    rw [List.length_append, hname, List.length_cons]
    omega
  | false =>
    rw [if_neg Bool.false_ne_true, if_neg Bool.false_ne_true]
    refine padded_of_length ?_
    rw [List.length_append, hname]
    omega

/-- What is encrypted last stands at the end of the block. -/
theorem exists_authinfo_append {size : ℕ} {username : List UInt8}
    (husername : username.length ≤ 255) (free : Bool) {id : List UInt8} {n : ℕ}
    (hsize : 2 + username.length + (id.length + n) = size) :
    ∃ front, ∀ crypted : List UInt8, crypted.length = n →
      authinfo size username free (id ++ crypted) = front ++ crypted := by
  refine ⟨copyToPascal username ++ (if free then 0 :: id else id), fun crypted hcrypted => ?_⟩
  rw [authinfo_eq husername (by rw [List.length_append, hcrypted]; exact hsize)]
  cases free with
  | true => rw [if_pos rfl, if_pos rfl, List.append_assoc, List.cons_append]
  | false => rw [if_neg Bool.false_ne_true, if_neg Bool.false_ne_true, List.append_assoc]

/-! ## The last message -/

section Exchanges

variable (G : Primitives) {username oldpasswd newpasswd : List UInt8} {replies : ℕ → Reply}

/-- What `dhx_passwd()` can send. -/
theorem sent_dhxPasswd_cases (p : ℕ) (Ra : List UInt8) :
    (dhxPasswd G p username oldpasswd newpasswd Ra replies).sent =
      [dhxPasswdFirst G p username Ra] ∨
    ∃ decrypted crypted,
      G.cast5Decrypt (dhxKey G Ra (received 50 (replies 0))) dhxS2civ
        ((received 50 (replies 0)).drop 18) = some decrypted ∧
      G.cast5Encrypt (dhxKey G Ra (received 50 (replies 0))) dhxC2siv
        (dhxPasswdPlaintext G oldpasswd newpasswd decrypted) = some crypted ∧
      (dhxPasswd G p username oldpasswd newpasswd Ra replies).sent =
        [dhxPasswdFirst G p username Ra,
          dhxPasswdLast p username (ntohs (received 50 (replies 0))) crypted] := by
  rw [dhxPasswd]
  split_ifs with hret
  · exact .inl rfl
  cases hdecrypted : G.cast5Decrypt (dhxKey G Ra (received 50 (replies 0))) dhxS2civ
      ((received 50 (replies 0)).drop 18) with
  | none =>
    simp only [hdecrypted, true_or]
  | some decrypted =>
    cases hcrypted : G.cast5Encrypt (dhxKey G Ra (received 50 (replies 0))) dhxC2siv
        (dhxPasswdPlaintext G oldpasswd newpasswd decrypted) with
    | none =>
      simp only [hdecrypted, hcrypted, true_or]
    | some crypted =>
      simp only [hdecrypted, hcrypted]
      exact .inr ⟨decrypted, crypted, rfl, hcrypted, rfl⟩

/-- What `dhx2_passwd()` can send. -/
theorem sent_dhx2Passwd_cases (p p' : ℕ) (Ra : ℕ → List UInt8) (nonce : List UInt8) :
    (dhx2Passwd G p p' username oldpasswd newpasswd Ra nonce replies).sent =
      [dhx2PasswdFirst p username] ∨
    ∃ crypted,
      G.cast5Encrypt (dhx2Key G (Ra (bignumLen (received dhx2PasswdMaxsize (replies 0))))
        (received dhx2PasswdMaxsize (replies 0))) dhxC2siv nonce = some crypted ∧
      ((dhx2Passwd G p p' username oldpasswd newpasswd Ra nonce replies).sent =
        [dhx2PasswdFirst p username, dhx2PasswdSecond G p' username
          (Ra (bignumLen (received dhx2PasswdMaxsize (replies 0))))
          (received dhx2PasswdMaxsize (replies 0)) crypted] ∨
      ∃ decrypted crypted',
        G.cast5Decrypt (dhx2Key G (Ra (bignumLen (received dhx2PasswdMaxsize (replies 0))))
          (received dhx2PasswdMaxsize (replies 0))) dhxS2civ
          ((received 34 (replies 1)).drop 2) = some decrypted ∧
        G.cast5Encrypt (dhx2Key G (Ra (bignumLen (received dhx2PasswdMaxsize (replies 0))))
          (received dhx2PasswdMaxsize (replies 0))) dhxC2siv
          (dhx2PasswdPlaintext G oldpasswd newpasswd decrypted) = some crypted' ∧
        (dhx2Passwd G p p' username oldpasswd newpasswd Ra nonce replies).sent =
          [dhx2PasswdFirst p username, dhx2PasswdSecond G p' username
            (Ra (bignumLen (received dhx2PasswdMaxsize (replies 0))))
            (received dhx2PasswdMaxsize (replies 0)) crypted,
            dhx2PasswdLast p' username (ntohs (received 34 (replies 1))) crypted']) := by
  rw [dhx2Passwd]
  by_cases hret : (replies 0).ret = kFPAuthContinue
  · rw [if_neg (not_not.mpr hret)]
    by_cases hlong : 256 < bignumLen (received dhx2PasswdMaxsize (replies 0))
    · simp only [if_pos hlong, true_or]
    · simp only [if_neg hlong]
      generalize dhx2Key G (Ra (bignumLen (received dhx2PasswdMaxsize (replies 0))))
        (received dhx2PasswdMaxsize (replies 0)) = key
      cases hnonce : G.cast5Encrypt key dhxC2siv nonce with
      | none => exact .inl rfl
      | some crypted =>
        refine .inr ⟨crypted, rfl, ?_⟩
        simp only
        by_cases hcontinue : (replies 1).ret = kFPAuthContinue
        · rw [if_neg (not_not.mpr hcontinue)]
          cases hdecrypted : G.cast5Decrypt key dhxS2civ ((received 34 (replies 1)).drop 2) with
          | none => exact .inl rfl
          | some decrypted =>
            cases hcrypted : G.cast5Encrypt key dhxC2siv
                (dhx2PasswdPlaintext G oldpasswd newpasswd decrypted) with
            | none =>
              simp only [hcrypted, true_or]
            | some crypted' =>
              simp only [hcrypted]
              exact .inr ⟨decrypted, crypted', rfl, hcrypted, rfl⟩
        · rw [if_pos hcontinue]
          exact .inl rfl
  · rw [if_pos hret]
    exact .inl rfl

/-- A second message of `dhx_passwd()` is what was encrypted. -/
theorem sent_dhxPasswd {p : ℕ} {Ra first last : List UInt8}
    (h : (dhxPasswd G p username oldpasswd newpasswd Ra replies).sent = [first, last]) :
    ∃ decrypted crypted,
      G.cast5Decrypt (dhxKey G Ra (received 50 (replies 0))) dhxS2civ
        ((received 50 (replies 0)).drop 18) = some decrypted ∧
      G.cast5Encrypt (dhxKey G Ra (received 50 (replies 0))) dhxC2siv
        (dhxPasswdPlaintext G oldpasswd newpasswd decrypted) = some crypted ∧
      last = dhxPasswdLast p username (ntohs (received 50 (replies 0))) crypted := by
  rcases sent_dhxPasswd_cases G p Ra with hsent | ⟨decrypted, crypted, hdec, henc, hsent⟩
  · exact absurd (congrArg List.length (h.symm.trans hsent)) (Nat.succ_ne_self 1)
  · obtain ⟨-, hlast⟩ := List.cons.inj (h.symm.trans hsent)
    exact ⟨decrypted, crypted, hdec, henc, (List.cons.inj hlast).1⟩

/-- A third message of `dhx2_passwd()` is what was encrypted. -/
theorem sent_dhx2Passwd {p p' : ℕ} {Ra : ℕ → List UInt8} {nonce first second last : List UInt8}
    (h : (dhx2Passwd G p p' username oldpasswd newpasswd Ra nonce replies).sent =
      [first, second, last]) :
    ∃ decrypted crypted,
      G.cast5Decrypt (dhx2Key G (Ra (bignumLen (received dhx2PasswdMaxsize (replies 0))))
        (received dhx2PasswdMaxsize (replies 0))) dhxS2civ
        ((received 34 (replies 1)).drop 2) = some decrypted ∧
      G.cast5Encrypt (dhx2Key G (Ra (bignumLen (received dhx2PasswdMaxsize (replies 0))))
        (received dhx2PasswdMaxsize (replies 0))) dhxC2siv
        (dhx2PasswdPlaintext G oldpasswd newpasswd decrypted) = some crypted ∧
      last = dhx2PasswdLast p' username (ntohs (received 34 (replies 1))) crypted := by
  rcases sent_dhx2Passwd_cases G p p' Ra nonce with
    hsent | ⟨crypted, -, hsent | ⟨decrypted, crypted', hdec, henc, hsent⟩⟩
  · exact absurd (congrArg List.length (h.symm.trans hsent)) (by simp)
  · exact absurd (congrArg List.length (h.symm.trans hsent)) (Nat.succ_ne_self 2)
  · obtain ⟨-, hrest⟩ := List.cons.inj (h.symm.trans hsent)
    obtain ⟨-, hlast⟩ := List.cons.inj hrest
    exact ⟨decrypted, crypted', hdec, henc, (List.cons.inj hlast).1⟩

end Exchanges

/-! ## The content -/

theorem length_content (size : ℕ) (nonce oldpasswd newpasswd : List UInt8) :
    (content size nonce oldpasswd newpasswd).length = 16 + 2 * size := by
  rw [content, List.length_append, List.length_append, length_toBE, length_padded, length_padded]
  omega

/-- Two contents with the same nonce and old password differ in the new one. -/
theorem content_eq_iff {size : ℕ} {nonce oldpasswd newpasswd newpasswd' : List UInt8} :
    content size nonce oldpasswd newpasswd = content size nonce oldpasswd newpasswd' ↔
      padded size newpasswd = padded size newpasswd' := by
  rw [content, content, List.append_cancel_left_eq, List.append_cancel_left_eq]

theorem dhxPasswdPlaintext_eq {G : Primitives} (hG : Documented G)
    (oldpasswd newpasswd decrypted : List UInt8) :
    dhxPasswdPlaintext G oldpasswd newpasswd decrypted =
      content dhxPasswdlen (decrypted.take 16) oldpasswd newpasswd := by
  rw [dhxPasswdPlaintext, incremented_eq hG (List.length_take_le 16 decrypted), content]

/-- The old password is in both places. -/
theorem dhx2PasswdPlaintext_eq {G : Primitives} (hG : Documented G)
    (oldpasswd newpasswd decrypted : List UInt8) :
    dhx2PasswdPlaintext G oldpasswd newpasswd decrypted =
      content dhx2Passwdlen ((decrypted.drop 16).take 16) oldpasswd oldpasswd := by
  rw [dhx2PasswdPlaintext, incremented_eq hG (List.length_take_le 16 _), content]

/-- A message that ends with one content, encrypted, carries another one only if they are equal. -/
theorem carries_iff {G : Primitives} (hG : Documented G) {key nonce front crypted last : List UInt8}
    {size : ℕ} {oldpasswd newpasswd sentpasswd : List UInt8}
    (hcrypted : G.cast5Encrypt key dhxC2siv (content size nonce oldpasswd sentpasswd) =
      some crypted) (hlast : last = front ++ crypted) :
    Carries G key size nonce oldpasswd newpasswd last ↔
      padded size newpasswd = padded size sentpasswd := by
  have hlength := hG.length_cast5Encrypt hcrypted
  rw [length_content] at hlength
  constructor
  · rintro ⟨front', crypted', hlast', hlength', hcrypted'⟩
    have hend := hlast.symm.trans hlast'
    obtain ⟨-, rfl⟩ := List.append_inj' hend (hlength.trans hlength'.symm)
    exact content_eq_iff.mp (hG.injective_cast5Encrypt hcrypted' hcrypted)
  · intro hequal
    rw [← content_eq_iff.mpr hequal] at hcrypted
    exact ⟨front, crypted, hlast, hlength, hcrypted⟩

theorem exists_dhxPasswdLast_append {username : List UInt8} (husername : username.length ≤ 255)
    (p id : ℕ) : ∃ front, ∀ crypted : List UInt8, crypted.length = 16 + 2 * dhxPasswdlen →
      dhxPasswdLast p username id crypted = front ++ crypted :=
  exists_authinfo_append husername _ (by rw [length_toBE]; omega)

theorem exists_dhx2PasswdLast_append {username : List UInt8} (husername : username.length ≤ 255)
    (p id : ℕ) : ∃ front, ∀ crypted : List UInt8, crypted.length = 16 + 2 * dhx2Passwdlen →
      dhx2PasswdLast p username id crypted = front ++ crypted :=
  exists_authinfo_append husername _ (by rw [List.length_reverse, length_toBE]; omega)

section Exchanges

variable {G : Primitives} (hG : Documented G) {username oldpasswd newpasswd newpasswd' : List UInt8}
  (husername : username.length ≤ 255) {replies : ℕ → Reply}

include hG husername

/-- **The last message of `dhx_passwd()`** has the nonce, the old password and the new one. -/
theorem dhxCarries_of_sent {p : ℕ} {Ra first last : List UInt8}
    (h : (dhxPasswd G p username oldpasswd newpasswd Ra replies).sent = [first, last]) :
    DhxCarries G oldpasswd newpasswd Ra replies last := by
  obtain ⟨decrypted, crypted, hdecrypted, hcrypted, hlast⟩ := sent_dhxPasswd G h
  rw [dhxPasswdPlaintext_eq hG] at hcrypted
  have hlength := hG.length_cast5Encrypt hcrypted
  rw [length_content] at hlength
  obtain ⟨front, hfront⟩ :=
    exists_dhxPasswdLast_append husername p (ntohs (received 50 (replies 0)))
  rw [hfront crypted hlength] at hlast
  exact ⟨decrypted, hdecrypted, (carries_iff hG hcrypted hlast).mpr rfl⟩

/-- Two of them differ when the new passwords do, in the bytes that are sent. -/
theorem dhx_last_ne_iff {p : ℕ} {Ra first last first' last' : List UInt8}
    (h : (dhxPasswd G p username oldpasswd newpasswd Ra replies).sent = [first, last])
    (h' : (dhxPasswd G p username oldpasswd newpasswd' Ra replies).sent = [first', last']) :
    last ≠ last' ↔ padded dhxPasswdlen newpasswd ≠ padded dhxPasswdlen newpasswd' := by
  obtain ⟨decrypted, crypted, hdecrypted, hcrypted, hlast⟩ := sent_dhxPasswd G h
  obtain ⟨decrypted', crypted', hdecrypted', hcrypted', hlast'⟩ := sent_dhxPasswd G h'
  obtain rfl := Option.some.inj (hdecrypted.symm.trans hdecrypted')
  rw [dhxPasswdPlaintext_eq hG] at hcrypted hcrypted'
  have hlength := hG.length_cast5Encrypt hcrypted
  have hlength' := hG.length_cast5Encrypt hcrypted'
  rw [length_content] at hlength hlength'
  obtain ⟨front, hfront⟩ :=
    exists_dhxPasswdLast_append husername p (ntohs (received 50 (replies 0)))
  rw [hfront crypted hlength] at hlast
  rw [hfront crypted' hlength'] at hlast'
  rw [hlast, hlast', Ne, Ne, List.append_cancel_left_eq]
  refine not_congr ⟨fun hequal => ?_, fun hequal => ?_⟩
  · rw [← hequal] at hcrypted'
    exact content_eq_iff.mp (hG.injective_cast5Encrypt hcrypted hcrypted')
  · rw [content_eq_iff.mpr hequal] at hcrypted
    exact Option.some.inj (hcrypted.symm.trans hcrypted')

/-- **The last message of `dhx2_passwd()`** has the new password only if it is the old one. -/
theorem dhx2Carries_iff_of_sent {p p' : ℕ} {Ra : ℕ → List UInt8}
    {nonce first second last : List UInt8}
    (h : (dhx2Passwd G p p' username oldpasswd newpasswd Ra nonce replies).sent =
      [first, second, last]) :
    Dhx2Carries G oldpasswd newpasswd Ra replies last ↔
      padded dhx2Passwdlen newpasswd = padded dhx2Passwdlen oldpasswd := by
  obtain ⟨decrypted, crypted, hdecrypted, hcrypted, hlast⟩ := sent_dhx2Passwd G h
  rw [dhx2PasswdPlaintext_eq hG] at hcrypted
  have hlength := hG.length_cast5Encrypt hcrypted
  rw [length_content] at hlength
  obtain ⟨front, hfront⟩ :=
    exists_dhx2PasswdLast_append husername p' (ntohs (received 34 (replies 1)))
  rw [hfront crypted hlength] at hlast
  have hcarries := @carries_iff G hG _ _ _ _ _ _ _ newpasswd _ hcrypted hlast
  constructor
  · rintro ⟨decrypted', hdecrypted', hlast'⟩
    obtain rfl := Option.some.inj (hdecrypted.symm.trans hdecrypted')
    exact hcarries.mp hlast'
  · intro hequal
    exact ⟨decrypted, hdecrypted, hcarries.mpr hequal⟩

end Exchanges

/-- **What a change of the password sends.**  The last message of `dhx_passwd()` is always right,
and two of them differ if the new passwords differ in their first 64 bytes; that of `dhx2_passwd()`
is right only if nothing is to be changed, and does not depend on the new password. -/
theorem password_content_iff {G : Primitives} (hG : Documented G) (p p' : ℕ)
    {username : List UInt8} (husername : username.length ≤ 255)
    (oldpasswd newpasswd newpasswd' Ra nonce : List UInt8) (Ra' : ℕ → List UInt8)
    (replies : ℕ → Reply) :
    (∀ first last,
      (dhxPasswd G p username oldpasswd newpasswd Ra replies).sent = [first, last] →
        DhxCarries G oldpasswd newpasswd Ra replies last) ∧
    (∀ first last first' last',
      (dhxPasswd G p username oldpasswd newpasswd Ra replies).sent = [first, last] →
      (dhxPasswd G p username oldpasswd newpasswd' Ra replies).sent = [first', last'] →
        (last ≠ last' ↔ padded dhxPasswdlen newpasswd ≠ padded dhxPasswdlen newpasswd')) ∧
    (∀ first second last,
      (dhx2Passwd G p p' username oldpasswd newpasswd Ra' nonce replies).sent =
        [first, second, last] →
        (Dhx2Carries G oldpasswd newpasswd Ra' replies last ↔
          padded dhx2Passwdlen newpasswd = padded dhx2Passwdlen oldpasswd)) ∧
    (dhx2Passwd G p p' username oldpasswd newpasswd Ra' nonce replies).sent =
      (dhx2Passwd G p p' username oldpasswd newpasswd' Ra' nonce replies).sent :=
  ⟨fun _ _ h => dhxCarries_of_sent hG husername h,
    fun _ _ _ _ h h' => dhx_last_ne_iff hG husername h h',
    fun _ _ _ h => dhx2Carries_iff_of_sent hG husername h, rfl⟩

/-- Ciphers and a hash that change nothing, with numbers as they are documented. -/
def documentedPlain : Primitives := { plain with mpiPrint := printed }

theorem documented_documentedPlain : Documented documentedPlain where
  mpiScan _ := rfl
  mpiPrint _ _ := rfl
  length_cast5Encrypt h := (congrArg List.length (Option.some.inj h)).symm
  injective_cast5Encrypt h h' := (Option.some.inj h).trans (Option.some.inj h').symm

/-- A change of the password `b` by `dhx_passwd()`, with the replies of `impostor`. -/
def dhxChange (newpasswd : List UInt8) : Change :=
  dhxPasswd documentedPlain 8 [117] [98] newpasswd (List.replicate 32 0) impostor

/-- A change of the password `b` by `dhx2_passwd()`. -/
def dhx2Change (newpasswd : List UInt8) : Change :=
  dhx2Passwd documentedPlain 8 16 [117] [98] newpasswd (List.replicate · 0) (List.replicate 16 7)
    impostor

set_option maxRecDepth 4000 in
theorem sent_dhx2Change (newpasswd : List UInt8) :
    ∃ first second last, (dhx2Change newpasswd).sent = [first, second, last] := by
  have hlen : ¬ 256 < bignumLen (received dhx2PasswdMaxsize (impostor 0)) := by decide
  rw [dhx2Change, dhx2Passwd, if_neg (by decide)]
  simp only [if_neg hlen]
  exact ⟨_, _, _, rfl⟩

/-- Two changes of the password, to `c` and to `d`. -/
theorem password_content_iff_of_letters :
    Documented documentedPlain ∧ [(117 : UInt8)].length ≤ 255 ∧
    (∀ first last, (dhxChange [99]).sent = [first, last] →
      DhxCarries documentedPlain [98] [99] (List.replicate 32 0) impostor last) ∧
    (∀ first last first' last', (dhxChange [99]).sent = [first, last] →
      (dhxChange [100]).sent = [first', last'] →
        (last ≠ last' ↔ padded dhxPasswdlen [99] ≠ padded dhxPasswdlen [100])) ∧
    (∀ first second last, (dhx2Change [99]).sent = [first, second, last] →
      (Dhx2Carries documentedPlain [98] [99] (List.replicate · 0) impostor last ↔
        padded dhx2Passwdlen [99] = padded dhx2Passwdlen [98])) ∧
    (dhx2Change [99]).sent = (dhx2Change [100]).sent :=
  ⟨documented_documentedPlain, by decide,
    password_content_iff documented_documentedPlain 8 16 (by decide) [98] [99] [100]
      (List.replicate 32 0) (List.replicate 16 7) (List.replicate · 0) impostor⟩

/-- **The new password is not sent**: the last message of `dhx2_passwd()` is not the one of the
change, and it is the same for every new password; `dhx_passwd()` sends 64 bytes of it. -/
theorem new_password_is_not_sent :
    (∃ first second last, (dhx2Change [99]).sent = [first, second, last] ∧
      ¬ Dhx2Carries documentedPlain [98] [99] (List.replicate · 0) impostor last) ∧
    (dhx2Change [99]).sent = (dhx2Change [100]).sent ∧
    (dhxChange (List.replicate 64 97)).sent = (dhxChange (List.replicate 65 97)).sent := by
  refine ⟨?_, rfl, ?_⟩
  · obtain ⟨first, second, last, hsent⟩ := sent_dhx2Change [99]
    refine ⟨first, second, last, hsent, fun hcarries => ?_⟩
    have hequal := (dhx2Carries_iff_of_sent documented_documentedPlain (by decide) hsent).mp hcarries
    exact absurd (congrArg List.head? hequal) (by decide)
  · have hpadded : padded dhxPasswdlen (List.replicate 64 97) =
        padded dhxPasswdlen (List.replicate 65 97) := by decide
    rw [dhxChange, dhxChange, dhxPasswd, dhxPasswd]
    simp only [dhxPasswdPlaintext, hpadded]

end Login
end Server
end Afpfs
