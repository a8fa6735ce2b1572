import Mathlib.Data.List.TakeDrop
import Afpfs.Lib.Wire
import Afpfs.Protocol

/-!
# Logging in

The logins of `uams.c` that exchange random numbers: one-way and two-way random numbers, DHCAST128
and DHX2.  Each sends FPLogin, looks at the block of the reply, and goes on with FPLoginCont.  The
ciphers, the hash and the big numbers are given functions, and what is chosen at random is an
argument.

`afp_login_reply()` copies the block to the buffer of the login, but does not set its `size`; the
checks of the length and of the nonce are assertions of a string, which never fail.  So a block of
any length is taken as if zeros followed, and DHX2 goes on whatever the server returns for the
nonce.  And a login that is not to be continued ends with what the server answered, also if that
is `kFPNoErr`.

* `authentication_enforced`: for each login, the replies for which every check is enforced.
* `impostor_is_accepted`: DHX2 sends the password to a server that does not know the nonce.
-/

set_option autoImplicit false

namespace Afpfs
namespace Server
namespace Login

/-! ## Replies and messages -/

/-- A reply: what `dsi_send()` returns, and the block behind the header. -/
structure Reply where
  ret : ℤ
  payload : List UInt8
  deriving DecidableEq

/-- The UAMs with an exchange of random numbers: "Randnum Exchange", "2-Way Randnum Exchange",
"DHCAST128" and "DHX2". -/
inductive Uam where
  | randnum
  | randnum2
  | dhx
  | dhx2
  deriving DecidableEq

/-- The requests of a login, with their `userauthinfo`. -/
inductive Message where
  | login (uam : Uam) (ai : List UInt8)
  | logincont (id : ℕ) (ai : List UInt8)
  deriving DecidableEq

/-- What a login does: the messages that it sends, and what it returns.  `none` stands for a read
behind the end of a buffer. -/
structure Outcome where
  sent : List Message
  ret : Option ℤ
  deriving DecidableEq

/-- A login ends with this value. -/
abbrev Outcome.done (sent : List Message) (ret : ℤ) : Outcome := ⟨sent, some ret⟩

/-! ## Buffers -/

/-- The first `n` bytes of a string and zeros: what `strncpy()` writes, and what is in a block of
`calloc()` after bytes were stored at its start. -/
def padded (n : ℕ) (bytes : List UInt8) : List UInt8 := (bytes ++ List.replicate n 0).take n

/-- `struct afp_rx_buffer`. -/
structure RxBuffer where
  maxsize : ℕ
  size : ℕ
  data : List UInt8

/-- The buffer of a login before its request. -/
def RxBuffer.calloc (maxsize : ℕ) : RxBuffer := ⟨maxsize, 0, List.replicate maxsize 0⟩

/-- `afp_login_reply()`. -/
def afpLoginReply (rx : RxBuffer) (payload : List UInt8) : RxBuffer :=
  let size := if rx.maxsize < payload.length then rx.maxsize else payload.length
  { rx with data := payload.take size ++ rx.data.drop size }

/-- The data in the buffer of a login after the reply. -/
def received (maxsize : ℕ) (reply : Reply) : List UInt8 :=
  (afpLoginReply (RxBuffer.calloc maxsize) reply.payload).data

/-- `ntohs()` of the two bytes at the start. -/
def ntohs (data : List UInt8) : ℕ := Wire.ofBE (data.take 2)

/-- What `copy_to_pascal()` writes. -/
def copyToPascal (src : List UInt8) : List UInt8 :=
  UInt8.ofNat src.length :: src.take (src.length % 256)

/-! ## The primitives -/

/-- What the logins use of libgcrypt.  `none` stands for an error of the cipher. -/
structure Primitives where
  /-- DES in ECB mode, with a key and a block. -/
  desEncrypt : List UInt8 → List UInt8 → Option (List UInt8)
  /-- CAST5 in CBC mode, with a key, an initialization vector and a plaintext. -/
  cast5Encrypt : List UInt8 → List UInt8 → List UInt8 → Option (List UInt8)
  /-- CAST5 in CBC mode, with a key, an initialization vector and a ciphertext. -/
  cast5Decrypt : List UInt8 → List UInt8 → List UInt8 → Option (List UInt8)
  md5 : List UInt8 → List UInt8
  /-- `gcry_mpi_scan()` of an unsigned number. -/
  mpiScan : List UInt8 → ℕ
  /-- `gcry_mpi_print()` of a number to a buffer of this size, at its end. -/
  mpiPrint : ℕ → ℕ → List UInt8
  /-- `gcry_mpi_powm()`: base, exponent and modulus. -/
  powm : ℕ → ℕ → ℕ → ℕ

/-- A number of 16 bytes, incremented. -/
def Primitives.incremented (G : Primitives) (nonce : List UInt8) : List UInt8 :=
  G.mpiPrint 16 (G.mpiScan nonce + 1)

/-- `dhx_c2siv`: "LWallace". -/
def dhxC2siv : List UInt8 := [76, 87, 97, 108, 108, 97, 99, 101]

/-- `dhx_s2civ`: "CJalbert". -/
def dhxS2civ : List UInt8 := [67, 74, 97, 108, 98, 101, 114, 116]

/-- `p_binary`. -/
def pBinary : List UInt8 :=
  [0xba, 0x28, 0x73, 0xdf, 0xb0, 0x60, 0x57, 0xd4, 0x3f, 0x20, 0x24, 0x74, 0x4c, 0xee, 0xe7, 0x5b]

/-- `g_binary`. -/
def gBinary : List UInt8 := [0x07]

/-- `DHX_PASSWDLEN`. -/
def dhxPasswdlen : ℕ := 64

/-- `DHX2_BIGNUM_RESERVELEN`. -/
def dhx2BignumReservelen : ℕ := 512

/-- `DHX2_PASSWDLEN`. -/
def dhx2Passwdlen : ℕ := 256

/-! ## The logins -/

/-- `randnum_login()`. -/
def randnumLogin (G : Primitives) (username passwd : List UInt8) (replies : ℕ → Reply) : Outcome :=
  let login := Message.login .randnum (padded (1 + username.length) (copyToPascal username))
  if (replies 0).ret ≠ kFPAuthContinue then .done [login] (replies 0).ret
  else
    -- the check of `rbuf.size` asserts a string
    let p := received 10 (replies 0)
    match G.desEncrypt (padded 8 passwd) (p.drop 2) with
    | none => .done [login] (-1)
    | some crypted => .done [login, .logincont (ntohs p) crypted] (replies 1).ret

/-- `c >> 7` of a signed character. -/
def signBits (c : UInt8) : UInt8 := if 128 ≤ c then 0xff else 0

/-- The rotation of the key in `randnum2_login()`: each byte is shifted to the left, and the
shifted sign of the next is put in. -/
def rotate (key : List UInt8) : List UInt8 :=
  List.zipWith (fun c next : UInt8 => c <<< 1 ||| signBits next) key (key.tail ++ key.take 1)

/-- `randnum2_login()`, with the random number that it chooses. -/
def randnum2Login (G : Primitives) (username passwd nonce : List UInt8) (replies : ℕ → Reply) :
    Outcome :=
  let login := Message.login .randnum2 (padded (1 + username.length) (copyToPascal username))
  if (replies 0).ret ≠ kFPAuthContinue then .done [login] (replies 0).ret
  else
    -- the check of `rbuf.size` asserts a string
    let p := received 10 (replies 0)
    let key := rotate (padded 8 passwd)
    match G.desEncrypt key (p.drop 2) with
    | none => .done [login] (-1)
    | some ai =>
      let sent := [login, .logincont (ntohs p) (ai ++ nonce)]
      if (replies 1).ret ≠ kFPNoErr then .done sent (replies 1).ret
      else
        -- again
        match G.desEncrypt key nonce with
        | none => .done sent (-1)
        | some crypted =>
          if crypted ≠ received 8 (replies 1) then .done sent kFPUserNotAuth
          else .done sent (replies 1).ret

/-- The session key of `dhx_login()`. -/
def dhxKey (G : Primitives) (Ra p : List UInt8) : List UInt8 :=
  G.mpiPrint 16 (G.powm (G.mpiScan ((p.drop 2).take 16)) (G.mpiScan Ra) (G.mpiScan pBinary))

/-- The `userauthinfo` of FPLogin in `dhx_login()`: the number is at an even position. -/
def dhxAuthinfo (G : Primitives) (username Ra : List UInt8) : List UInt8 :=
  let Ma := G.powm (G.mpiScan gBinary) (G.mpiScan Ra) (G.mpiScan pBinary)
  let d := (copyToPascal username).length
  let aiLen := 1 + username.length + 1 + 16
  if d % 2 = 1 then padded aiLen (copyToPascal username ++ 0 :: G.mpiPrint 16 Ma)
  else padded (aiLen - 1) (copyToPascal username ++ G.mpiPrint 16 Ma)

/-- The plaintext of FPLoginCont in `dhx_login()`. -/
def dhxPlaintext (G : Primitives) (passwd decrypted : List UInt8) : List UInt8 :=
  G.incremented (decrypted.take 16) ++ padded dhxPasswdlen passwd

/-- `dhx_login()`, with the random exponent that it chooses. -/
def dhxLogin (G : Primitives) (username passwd Ra : List UInt8) (replies : ℕ → Reply) : Outcome :=
  let login := Message.login .dhx (dhxAuthinfo G username Ra)
  if (replies 0).ret ≠ kFPAuthContinue then .done [login] (replies 0).ret
  else
    -- the check of `rbuf.size` asserts a string
    let d := received 50 (replies 0)
    let key := dhxKey G Ra d
    match G.cast5Decrypt key dhxS2civ (d.drop 18) with
    | none => .done [login] (-1)
    | some decrypted =>
      match G.cast5Encrypt key dhxC2siv (dhxPlaintext G passwd decrypted) with
      | none => .done [login] (-1)
      | some ai => .done [login, .logincont (ntohs d) ai] (replies 1).ret

/-- The size of the buffer for the first reply of DHX2. -/
def dhx2Maxsize : ℕ := 2 + 4 + 2 + dhx2BignumReservelen * 2

/-- The length of the large numbers in the first reply of DHX2. -/
def bignumLen (d : List UInt8) : ℕ := ntohs (d.drop 6)

/-- The number of the client in DHX2: `Ma`, which is sent to the server. -/
def dhx2Ma (G : Primitives) (Ra d : List UInt8) : List UInt8 :=
  let len := bignumLen d
  let p := G.mpiScan ((d.drop 8).take len)
  G.mpiPrint len (G.powm (G.mpiScan ((d.drop 2).take 4)) (G.mpiScan Ra) p)

/-- The hash of the session key of DHX2. -/
def dhx2Key (G : Primitives) (Ra d : List UInt8) : List UInt8 :=
  let len := bignumLen d
  let p := G.mpiScan ((d.drop 8).take len)
  let Mb := G.mpiScan ((d.drop (8 + len)).take len)
  G.md5 (G.mpiPrint len (G.powm Mb (G.mpiScan Ra) p))

/-- The plaintext of the last FPLoginCont in `dhx2_login()`. -/
def dhx2Plaintext (G : Primitives) (passwd decrypted : List UInt8) : List UInt8 :=
  G.incremented ((decrypted.drop 16).take 16) ++ padded dhx2Passwdlen passwd

/-- `dhx2_login()`, with the random exponent and the nonce that it chooses.  The exponent has as
many bytes as the server says. -/
def dhx2Login (G : Primitives) (username passwd : List UInt8) (Ra : ℕ → List UInt8)
    (nonce : List UInt8) (replies : ℕ → Reply) : Outcome :=
  let login := Message.login .dhx2 (padded (username.length + 1) (copyToPascal username))
  if (replies 0).ret ≠ kFPAuthContinue then .done [login] (replies 0).ret
  else
    let d := received dhx2Maxsize (replies 0)
    -- the check of the length asserts a string, and then the numbers are read
    if dhx2BignumReservelen < bignumLen d then ⟨[login], none⟩
    else
      let key := dhx2Key G (Ra (bignumLen d)) d
      match G.cast5Encrypt key dhxC2siv nonce with
      | none => .done [login] (-1)
      | some crypted =>
        let first := Message.logincont (ntohs d) (dhx2Ma G (Ra (bignumLen d)) d ++ crypted)
        if (replies 1).ret ≠ kFPAuthContinue then .done [login, first] (replies 1).ret
        else
          let d := received 34 (replies 1)
          match G.cast5Decrypt key dhxS2civ (d.drop 2) with
          | none => .done [login, first] (-1)
          | some decrypted =>
            -- the comparison of the incremented nonce asserts a string
            match G.cast5Encrypt key dhxC2siv (dhx2Plaintext G passwd decrypted) with
            | none => .done [login, first] (-1)
            | some ai => .done [login, first, .logincont (ntohs d) ai] (replies 2).ret

/-! ## What is to be enforced -/

/-- The login fails. -/
def Outcome.Failed (o : Outcome) : Prop := ∃ e, o.ret = some e ∧ e ≠ kFPNoErr

/-- If the login receives reply `k` and it is bad, then the login fails and sends nothing more. -/
def Outcome.Refuses (o : Outcome) (k : ℕ) (bad : Prop) : Prop :=
  k < o.sent.length → bad → o.sent.length = k + 1 ∧ o.Failed

/-- The login is successful only after reply `k`, and only if it is good. -/
def Outcome.Requires (o : Outcome) (k : ℕ) (good : Prop) : Prop :=
  o.ret = some kFPNoErr → k < o.sent.length ∧ good

/-- The second reply of the two-way exchange: 8 bytes, the random number of the client encrypted
with the password. -/
def Returned (G : Primitives) (passwd nonce : List UInt8) (reply : Reply) : Prop :=
  reply.payload.length = 8 ∧ G.desEncrypt (rotate (padded 8 passwd)) nonce = some reply.payload

/-- The first reply of DHX2: a number of 4 bytes, a length in range and two numbers of that
length. -/
def Numbers (reply : Reply) : Prop :=
  bignumLen reply.payload ≤ dhx2BignumReservelen ∧
    reply.payload.length = 8 + 2 * bignumLen reply.payload

/-- The second reply of DHX2: 34 bytes, with the nonce of the client incremented and encrypted. -/
def Proven (G : Primitives) (Ra : ℕ → List UInt8) (nonce : List UInt8) (replies : ℕ → Reply) :
    Prop :=
  let d := received dhx2Maxsize (replies 0)
  (replies 1).payload.length = 34 ∧
    ∃ decrypted, G.cast5Decrypt (dhx2Key G (Ra (bignumLen d)) d) dhxS2civ
        ((replies 1).payload.drop 2) = some decrypted ∧
      decrypted.take 16 = G.incremented nonce

/-- A mutual exchange: the login fails after a bad first or second reply, and it is successful only
after a good second reply. -/
structure Outcome.Mutual (o : Outcome) (first second : Prop) : Prop where
  refuses_first : o.Refuses 0 (¬ first)
  refuses_second : o.Refuses 1 (¬ second)
  requires_second : o.Requires 1 second

/-- The checks of the random number exchange. -/
def RandnumEnforced (replies : ℕ → Reply) (o : Outcome) : Prop :=
  o.Refuses 0 (¬ (replies 0).payload.length = 10)

/-- The checks of the two-way random number exchange. -/
def Randnum2Enforced (G : Primitives) (passwd nonce : List UInt8) (replies : ℕ → Reply)
    (o : Outcome) : Prop :=
  o.Mutual ((replies 0).payload.length = 10) (Returned G passwd nonce (replies 1))

/-- The checks of DHCAST128. -/
def DhxEnforced (replies : ℕ → Reply) (o : Outcome) : Prop :=
  o.Refuses 0 (¬ (replies 0).payload.length = 50)

/-- The checks of DHX2. -/
def Dhx2Enforced (G : Primitives) (Ra : ℕ → List UInt8) (nonce : List UInt8)
    (replies : ℕ → Reply) (o : Outcome) : Prop :=
  o.Mutual (Numbers (replies 0)) (Proven G Ra nonce replies)

/-! ## When the checks are enforced -/

/-- The replies for which one-way random numbers are checked: if FPLogin alone is successful, or
the challenge can be encrypted, then the block has its 10 bytes. -/
def RandnumChecked (G : Primitives) (passwd : List UInt8) (replies : ℕ → Reply) : Prop :=
  ((replies 0).ret = kFPNoErr → (replies 0).payload.length = 10) ∧
    ((replies 0).ret = kFPAuthContinue →
      G.desEncrypt (padded 8 passwd) ((received 10 (replies 0)).drop 2) ≠ none →
        (replies 0).payload.length = 10)

/-- The replies for which two-way random numbers are checked: FPLogin alone is not successful, the
challenge has its 10 bytes, and what equals the encrypted number has its 8 bytes. -/
def Randnum2Checked (G : Primitives) (passwd nonce : List UInt8) (replies : ℕ → Reply) : Prop :=
  (replies 0).ret ≠ kFPNoErr ∧
    ((replies 0).ret = kFPAuthContinue →
      G.desEncrypt (rotate (padded 8 passwd)) ((received 10 (replies 0)).drop 2) ≠ none →
        (replies 0).payload.length = 10 ∧
          ((replies 1).ret = kFPNoErr →
            G.desEncrypt (rotate (padded 8 passwd)) nonce = some (received 8 (replies 1)) →
              (replies 1).payload.length = 8))

/-- The replies for which DHCAST128 is checked: if FPLogin alone is successful, or the password can
be encrypted, then the block has its 50 bytes. -/
def DhxChecked (G : Primitives) (passwd Ra : List UInt8) (replies : ℕ → Reply) : Prop :=
  let d := received 50 (replies 0)
  ((replies 0).ret = kFPNoErr → (replies 0).payload.length = 50) ∧
    ((replies 0).ret = kFPAuthContinue →
      ∀ decrypted, G.cast5Decrypt (dhxKey G Ra d) dhxS2civ (d.drop 18) = some decrypted →
        G.cast5Encrypt (dhxKey G Ra d) dhxC2siv (dhxPlaintext G passwd decrypted) ≠ none →
          (replies 0).payload.length = 50)

/-- The replies for which DHX2 is checked: FPLogin alone is not successful, the first block is as
long as its own length says, and what the login goes on after, or is successful after, is a
proof. -/
def Dhx2Checked (G : Primitives) (passwd : List UInt8) (Ra : ℕ → List UInt8) (nonce : List UInt8)
    (replies : ℕ → Reply) : Prop :=
  let d := received dhx2Maxsize (replies 0)
  let key := dhx2Key G (Ra (bignumLen d)) d
  (replies 0).ret ≠ kFPNoErr ∧
    ((replies 0).ret = kFPAuthContinue →
      bignumLen d ≤ dhx2BignumReservelen ∧
        (G.cast5Encrypt key dhxC2siv nonce ≠ none →
          Numbers (replies 0) ∧
            ((replies 1).ret = kFPNoErr → Proven G Ra nonce replies) ∧
              ((replies 1).ret = kFPAuthContinue →
                ∀ decrypted,
                  G.cast5Decrypt key dhxS2civ ((received 34 (replies 1)).drop 2) = some decrypted →
                    G.cast5Encrypt key dhxC2siv (dhx2Plaintext G passwd decrypted) ≠ none →
                      Proven G Ra nonce replies)))

/-! ## Received blocks -/

/-- The size of the buffer is never set. -/
theorem size_afpLoginReply (rx : RxBuffer) (payload : List UInt8) :
    (afpLoginReply rx payload).size = rx.size := rfl

theorem received_eq (maxsize : ℕ) (reply : Reply) :
    received maxsize reply = padded maxsize reply.payload := by
  rw [received, afpLoginReply, RxBuffer.calloc, padded, List.take_append, List.drop_replicate,
    List.take_replicate]
  split
  · rename_i h
    rw [Nat.sub_self, Nat.sub_eq_zero_of_le (Nat.le_of_lt h), Nat.min_eq_left (Nat.zero_le _)]
  · rename_i h
    rw [List.take_of_length_le (Nat.le_refl _), List.take_of_length_le (Nat.not_lt.mp h),
      Nat.min_eq_left (Nat.sub_le _ _)]

theorem received_of_length {maxsize : ℕ} {reply : Reply} (h : reply.payload.length = maxsize) :
    received maxsize reply = reply.payload := by
  rw [received_eq, padded, ← h, List.take_left]

/-- The length of the numbers in the buffer, of a reply that has it. -/
theorem bignumLen_received {reply : Reply} (h : 8 ≤ reply.payload.length) :
    bignumLen (received dhx2Maxsize reply) = bignumLen reply.payload := by
  have hdrop : (received dhx2Maxsize reply).drop 6 =
      (reply.payload.drop 6 ++ List.replicate dhx2Maxsize 0).take (dhx2Maxsize - 6) := by
    rw [received_eq, padded, List.drop_take, List.drop_append_of_le_length (by omega)]
  have hmin : min 2 (dhx2Maxsize - 6) = 2 := by decide
  rw [bignumLen, bignumLen, ntohs, ntohs, hdrop, List.take_take, hmin,
    List.take_append_of_le_length (by rw [List.length_drop]; omega)]

/-- A good first reply of DHX2 has its length in range. -/
theorem Numbers.bignumLen_received {reply : Reply} (h : Numbers reply) :
    bignumLen (received dhx2Maxsize reply) ≤ dhx2BignumReservelen := by
  have hlength : 8 ≤ reply.payload.length := h.2 ▸ Nat.le_add_right _ _
  rw [Login.bignumLen_received hlength]
  exact h.1

/-! ## Checks of an outcome -/

section Outcome

variable {first second : Prop} {m m' m'' : Message} {ret : ℤ}

theorem Outcome.failed_done_iff {sent : List Message} :
    (Outcome.done sent ret).Failed ↔ ret ≠ kFPNoErr :=
  ⟨fun ⟨_, he, hne⟩ => Option.some.inj he ▸ hne, fun h => ⟨ret, rfl, h⟩⟩

/-- Nothing is to be refused before it is there. -/
theorem Outcome.refuses_of_length_le {o : Outcome} {k : ℕ} {bad : Prop} (h : o.sent.length ≤ k) :
    o.Refuses k bad := fun hk => absurd hk (Nat.not_lt.mpr h)

/-- The login may end with what it gets after a bad reply if that is an error. -/
theorem Outcome.refuses_done_iff {sent : List Message} {k : ℕ} (h : sent.length = k + 1) :
    (Outcome.done sent ret).Refuses k (¬ first) ↔ (ret = kFPNoErr → first) := by
  constructor
  · intro hrefuses hret
    by_contra hbad
    exact Outcome.failed_done_iff.mp (hrefuses (h ▸ Nat.lt_succ_self k) hbad).2 hret
  · intro hgood _ hbad
    exact ⟨h, Outcome.failed_done_iff.mpr fun hret => hbad (hgood hret)⟩

/-- What the login goes on after must be good. -/
theorem Outcome.refuses_iff_of_lt {o : Outcome} {k : ℕ} (h : k + 1 < o.sent.length) :
    o.Refuses k (¬ first) ↔ first := by
  refine ⟨fun hrefuses => ?_, fun hgood _ hbad => absurd hgood hbad⟩
  by_contra hbad
  exact absurd (hrefuses (Nat.lt_of_succ_lt h) hbad).1 (Nat.ne_of_gt h)

/-- A mutual login that ends with FPLogin must fail. -/
theorem Outcome.mutual_one_iff : (Outcome.done [m] ret).Mutual first second ↔ ret ≠ kFPNoErr := by
  constructor
  · intro h hret
    exact absurd (h.requires_second (hret ▸ rfl)).1 (Nat.lt_irrefl 1)
  · intro hret
    exact ⟨(Outcome.refuses_done_iff rfl).mpr fun h => absurd h hret,
      Outcome.refuses_of_length_le (Nat.le_refl 1), fun h => absurd (Option.some.inj h) hret⟩

/-- A mutual login that ends with the second reply must have had a good first one, and a good
second one if it is successful. -/
theorem Outcome.mutual_two_iff :
    (Outcome.done [m, m'] ret).Mutual first second ↔ first ∧ (ret = kFPNoErr → second) := by
  constructor
  · intro h
    exact ⟨(Outcome.refuses_iff_of_lt (Nat.lt_succ_self 1)).mp h.refuses_first,
      (Outcome.refuses_done_iff rfl).mp h.refuses_second⟩
  · rintro ⟨hfirst, hsecond⟩
    exact ⟨(Outcome.refuses_iff_of_lt (Nat.lt_succ_self 1)).mpr hfirst,
      (Outcome.refuses_done_iff rfl).mpr hsecond,
      fun h => ⟨Nat.lt_succ_self 1, hsecond (Option.some.inj h)⟩⟩

/-- A mutual login that goes on after the second reply must have had two good ones. -/
theorem Outcome.mutual_three_iff :
    (Outcome.done [m, m', m''] ret).Mutual first second ↔ first ∧ second := by
  constructor
  · intro h
    exact ⟨(Outcome.refuses_iff_of_lt (by decide : 0 + 1 < 3)).mp h.refuses_first,
      (Outcome.refuses_iff_of_lt (Nat.lt_succ_self 2)).mp h.refuses_second⟩
  · rintro ⟨hfirst, hsecond⟩
    exact ⟨(Outcome.refuses_iff_of_lt (by decide : 0 + 1 < 3)).mpr hfirst,
      (Outcome.refuses_iff_of_lt (Nat.lt_succ_self 2)).mpr hsecond,
      fun _ => ⟨(by decide : 1 < 3), hsecond⟩⟩

/-- A mutual login that reads behind its buffer must have had a good first reply. -/
theorem Outcome.mutual_none_iff : (Outcome.mk [m] none).Mutual first second ↔ first := by
  constructor
  · intro h
    by_contra hbad
    obtain ⟨_, he, _⟩ := (h.refuses_first Nat.zero_lt_one hbad).2
    cases he
  · intro hfirst
    exact ⟨fun _ hbad => absurd hfirst hbad, Outcome.refuses_of_length_le (Nat.le_refl 1),
      fun h => by cases h⟩

end Outcome

/-! ## The logins check -/

section Logins

variable (G : Primitives) (username passwd : List UInt8) (replies : ℕ → Reply)

theorem kFPAuthContinue_ne : kFPAuthContinue ≠ kFPNoErr := by decide

theorem kFPUserNotAuth_ne : kFPUserNotAuth ≠ kFPNoErr := by decide

theorem neg_one_ne : -1 ≠ kFPNoErr := by decide

/-- A block that equals the encrypted number is the number returned if its length is right. -/
theorem returned_iff {nonce : List UInt8} {reply : Reply}
    (h : G.desEncrypt (rotate (padded 8 passwd)) nonce = some (received 8 reply)) :
    Returned G passwd nonce reply ↔ reply.payload.length = 8 :=
  ⟨And.left, fun hlength => ⟨hlength, by rw [h, received_of_length hlength]⟩⟩

theorem randnumLogin_enforced_iff :
    RandnumEnforced replies (randnumLogin G username passwd replies) ↔
      RandnumChecked G passwd replies := by
  rw [RandnumEnforced, RandnumChecked, randnumLogin]
  by_cases hcont : (replies 0).ret = kFPAuthContinue
  · rw [if_neg (not_not.mpr hcont)]
    cases hdes : G.desEncrypt (padded 8 passwd) ((received 10 (replies 0)).drop 2) with
    | none =>
      simp only [hdes]
      refine Iff.trans (Outcome.refuses_done_iff rfl) ?_
      simp [hcont, kFPAuthContinue_ne, neg_one_ne]
    | some crypted =>
      simp only [hdes]
      refine Iff.trans (Outcome.refuses_iff_of_lt (Nat.lt_succ_self 1)) ?_
      simp [hcont, kFPAuthContinue_ne]
  · rw [if_pos hcont]
    refine Iff.trans (Outcome.refuses_done_iff rfl) ?_
    simp [hcont]

theorem randnum2Login_enforced_iff (nonce : List UInt8) :
    Randnum2Enforced G passwd nonce replies (randnum2Login G username passwd nonce replies) ↔
      Randnum2Checked G passwd nonce replies := by
  rw [Randnum2Enforced, Randnum2Checked, randnum2Login]
  by_cases hcont : (replies 0).ret = kFPAuthContinue
  · rw [if_neg (not_not.mpr hcont)]
    cases hdes : G.desEncrypt (rotate (padded 8 passwd)) ((received 10 (replies 0)).drop 2) with
    | none =>
      simp only [hdes]
      refine Iff.trans Outcome.mutual_one_iff ?_
      simp [hcont, kFPAuthContinue_ne, neg_one_ne]
    | some ai =>
      simp only [hdes]
      by_cases hret : (replies 1).ret = kFPNoErr
      · rw [if_neg (not_not.mpr hret)]
        cases hnonce : G.desEncrypt (rotate (padded 8 passwd)) nonce with
        | none =>
          refine Iff.trans Outcome.mutual_two_iff ?_
          simp [hcont, kFPAuthContinue_ne, neg_one_ne]
        | some crypted =>
          by_cases heq : crypted = received 8 (replies 1)
          · subst heq
            simp only [ne_eq, not_true_eq_false, if_false]
            refine Iff.trans Outcome.mutual_two_iff ?_
            simp [hcont, kFPAuthContinue_ne, hret, returned_iff G passwd hnonce]
          · simp only [ne_eq, heq, not_false_eq_true, if_true]
            refine Iff.trans Outcome.mutual_two_iff ?_
            simp [hcont, kFPAuthContinue_ne, kFPUserNotAuth_ne, heq]
      · rw [if_pos hret]
        refine Iff.trans Outcome.mutual_two_iff ?_
        simp [hcont, kFPAuthContinue_ne, hret]
  · rw [if_pos hcont]
    refine Iff.trans Outcome.mutual_one_iff ?_
    simp [hcont]

theorem dhxLogin_enforced_iff (Ra : List UInt8) :
    DhxEnforced replies (dhxLogin G username passwd Ra replies) ↔ DhxChecked G passwd Ra replies := by
  rw [DhxEnforced, DhxChecked, dhxLogin]
  by_cases hcont : (replies 0).ret = kFPAuthContinue
  · rw [if_neg (not_not.mpr hcont)]
    cases hdec : G.cast5Decrypt (dhxKey G Ra (received 50 (replies 0))) dhxS2civ
        ((received 50 (replies 0)).drop 18) with
    | none =>
      simp only [hdec]
      refine Iff.trans (Outcome.refuses_done_iff rfl) ?_
      simp [hcont, kFPAuthContinue_ne, neg_one_ne]
    | some decrypted =>
      simp only [hdec]
      cases henc : G.cast5Encrypt (dhxKey G Ra (received 50 (replies 0))) dhxC2siv
          (dhxPlaintext G passwd decrypted) with
      | none =>
        simp only
        refine Iff.trans (Outcome.refuses_done_iff rfl) ?_
        simp [hcont, kFPAuthContinue_ne, neg_one_ne, henc]
      | some ai =>
        simp only
        refine Iff.trans (Outcome.refuses_iff_of_lt (Nat.lt_succ_self 1)) ?_
        simp [hcont, kFPAuthContinue_ne, henc]
  · rw [if_pos hcont]
    refine Iff.trans (Outcome.refuses_done_iff rfl) ?_
    simp [hcont]

theorem dhx2Login_enforced_iff (Ra : ℕ → List UInt8) (nonce : List UInt8) :
    Dhx2Enforced G Ra nonce replies (dhx2Login G username passwd Ra nonce replies) ↔
      Dhx2Checked G passwd Ra nonce replies := by
  rw [Dhx2Enforced, Dhx2Checked, dhx2Login]
  by_cases hcont : (replies 0).ret = kFPAuthContinue
  · rw [if_neg (not_not.mpr hcont)]
    simp only [hcont, ne_eq, kFPAuthContinue_ne, not_false_eq_true, true_and, true_implies]
    by_cases hlen : bignumLen (received dhx2Maxsize (replies 0)) ≤ dhx2BignumReservelen
    · rw [if_neg (Nat.not_lt.mpr hlen)]
      generalize dhx2Key G (Ra (bignumLen (received dhx2Maxsize (replies 0))))
        (received dhx2Maxsize (replies 0)) = key
      cases henc : G.cast5Encrypt key dhxC2siv nonce with
      | none =>
        refine Iff.trans Outcome.mutual_one_iff ?_
        simp [hlen, neg_one_ne]
      | some crypted =>
        simp only [hlen, reduceCtorEq, not_false_eq_true, true_and, true_implies]
        by_cases hcont' : (replies 1).ret = kFPAuthContinue
        · rw [if_neg (not_not.mpr hcont')]
          simp only [hcont', kFPAuthContinue_ne, false_implies, true_and, true_implies]
          cases hdec : G.cast5Decrypt key dhxS2civ ((received 34 (replies 1)).drop 2) with
          | none =>
            refine Iff.trans Outcome.mutual_two_iff ?_
            simp [neg_one_ne]
          | some decrypted =>
            cases henc' : G.cast5Encrypt key dhxC2siv (dhx2Plaintext G passwd decrypted) with
            | none =>
              simp only [henc']
              refine Iff.trans Outcome.mutual_two_iff ?_
              simp [neg_one_ne, henc']
            | some ai =>
              simp only [henc']
              refine Iff.trans Outcome.mutual_three_iff ?_
              simp [henc']
        · rw [if_pos hcont']
          refine Iff.trans Outcome.mutual_two_iff ?_
          simp [hcont']
    · rw [if_pos (Nat.not_le.mp hlen)]
      refine Iff.trans Outcome.mutual_none_iff ?_
      exact ⟨fun h => absurd h.bignumLen_received hlen, fun h => absurd h.1 hlen⟩
  · rw [if_pos hcont]
    refine Iff.trans Outcome.mutual_one_iff ?_
    simp [hcont]

end Logins

/-- **The checks of the logins** are enforced for exactly these replies. -/
theorem authentication_enforced (G : Primitives) (username passwd nonce Ra : List UInt8)
    (Ra' : ℕ → List UInt8) (nonce' : List UInt8) (replies : ℕ → Reply) :
    (RandnumEnforced replies (randnumLogin G username passwd replies) ↔
      RandnumChecked G passwd replies) ∧
    (Randnum2Enforced G passwd nonce replies (randnum2Login G username passwd nonce replies) ↔
      Randnum2Checked G passwd nonce replies) ∧
    (DhxEnforced replies (dhxLogin G username passwd Ra replies) ↔ DhxChecked G passwd Ra replies) ∧
    (Dhx2Enforced G Ra' nonce' replies (dhx2Login G username passwd Ra' nonce' replies) ↔
      Dhx2Checked G passwd Ra' nonce' replies) :=
  ⟨randnumLogin_enforced_iff G username passwd replies,
    randnum2Login_enforced_iff G username passwd replies nonce,
    dhxLogin_enforced_iff G username passwd replies Ra,
    dhx2Login_enforced_iff G username passwd replies Ra' nonce'⟩

/-- Ciphers and a hash that change nothing. -/
def plain : Primitives where
  desEncrypt _ block := some block
  cast5Encrypt _ _ plaintext := some plaintext
  cast5Decrypt _ _ ciphertext := some ciphertext
  md5 bytes := bytes
  mpiScan := Wire.ofBE
  mpiPrint := Wire.toBE
  powm b e m := b ^ e % m

/-- A server that does not return the nonce: good numbers, then zeros, then success. -/
def impostor : ℕ → Reply
  | 0 => ⟨kFPAuthContinue, [0, 1, 0, 0, 0, 2, 0, 64] ++ Wire.toBE 64 23 ++ Wire.toBE 64 5⟩
  | 1 => ⟨kFPAuthContinue, List.replicate 34 0⟩
  | _ => ⟨kFPNoErr, []⟩

/-- The password is sent to a server that did not return the nonce, and the login is successful. -/
theorem impostor_is_accepted :
    let o := dhx2Login plain [117] [112] (List.replicate · 0) (List.replicate 16 7) impostor
    o.sent.length = 3 ∧ o.ret = some kFPNoErr ∧
      ¬ Dhx2Enforced plain (List.replicate · 0) (List.replicate 16 7) impostor o := by
  have hsent : (dhx2Login plain [117] [112] (List.replicate · 0) (List.replicate 16 7)
      impostor).sent.length = 3 := by decide +kernel
  refine ⟨hsent, by decide +kernel, fun h => ?_⟩
  have hproven : ¬ Proven plain (List.replicate · 0) (List.replicate 16 7) impostor := by
    rintro ⟨-, decrypted, hdecrypted, hnonce⟩
    cases hdecrypted
    exact absurd hnonce (by decide)
  have hlength := (h.refuses_second (hsent ▸ by decide) hproven).1
  exact absurd (hsent.symm.trans hlength) (by decide)

end Login
end Server
end Afpfs
