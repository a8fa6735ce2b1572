import Afpfs.Server.Negotiation
import Afpfs.Server.Passwd

/-!
# Where the fields behind the name of the user are

The field behind the name of the user is to be at an even offset in the AFP block.  The functions of
`uams.c` decide from the parity of a pointer whether they leave a byte free behind the name, and
what is in front of the name is added by `afp_login()` and `afp_changepassword()`.  `dhx_passwd()`
and `dhx2_passwd()` look at the pointer to a big number, which has nothing to do with the name.

* `laidOut_iff`: a byte has to be left free exactly if the name ends at an even offset.
* `laidOut_cleartxtPasswd`, `laidOut_randnumPasswd`: they are always right.
* `laidOut_cleartxtLogin_iff`, `laidOut_dhxLogin_iff`: they are for a version string of even length,
  as all strings of `afp_versions` are (`even_length_afpVersions`).
* `laidOut_dhxPasswd_iff`, `laidOut_dhx2Passwd_iff`: they are for names of one parity.
* `auth_layout_iff`: all together.
-/

set_option autoImplicit false

namespace Afpfs
namespace Server
namespace Login

open Wire Negotiation

/-! ## Packets -/

/-- What is given to `dsi_send()`: the length, and the block behind the DSI header. -/
structure Packet where
  length : ℕ
  block : List UInt8
  deriving DecidableEq

/-- `afpLogin` of `enum AFPFunction`. -/
def afpLoginCommand : UInt8 := 18

/-- `afpChangePassword` of `enum AFPFunction`. -/
def afpChangePasswordCommand : UInt8 := 36

/-- The names of the UAMs in `uams.c`. -/
def cleartxtPasswrd : List UInt8 :=
  asciiBytes ['C', 'l', 'e', 'a', 'r', 't', 'x', 't', ' ', 'P', 'a', 's', 's', 'w', 'r', 'd']
def randnumExchange : List UInt8 :=
  asciiBytes ['R', 'a', 'n', 'd', 'n', 'u', 'm', ' ', 'E', 'x', 'c', 'h', 'a', 'n', 'g', 'e']
def dhcast128 : List UInt8 := asciiBytes ['D', 'H', 'C', 'A', 'S', 'T', '1', '2', '8']
def dhx2 : List UInt8 := asciiBytes ['D', 'H', 'X', '2']

/-- What `afp_login()` puts in front of `userauthinfo`. -/
def loginFront (version uaName : List UInt8) : List UInt8 :=
  afpLoginCommand :: (copyToPascal version ++ copyToPascal uaName)

/-- `afp_login()`, with the name of the version in use. -/
def afpLogin (version uaName userauthinfo : List UInt8) : Packet :=
  ⟨16 + 1 + (version.length + 1) + (uaName.length + 1) + userauthinfo.length,
    loginFront version uaName ++ userauthinfo⟩

/-- What `afp_changepassword()` puts in front of `userauthinfo`.  `pad` is not set. -/
def changepasswordFront (pad : UInt8) (uaName : List UInt8) : List UInt8 :=
  afpChangePasswordCommand :: pad :: copyToPascal uaName

/-- `afp_changepassword()`. -/
def afpChangepassword (pad : UInt8) (uaName userauthinfo : List UInt8) : Packet :=
  ⟨16 + 2 + (uaName.length + 1) + userauthinfo.length,
    changepasswordFront pad uaName ++ userauthinfo⟩

/-! ## The functions -/

/-- The pointer behind the name in the block at the address `ai`. -/
def behindName (ai : ℕ) (username : List UInt8) : ℕ := ai + (copyToPascal username).length

/-- `cleartxt_login()`. -/
def cleartxtLogin (ai : ℕ) (version username passwd : List UInt8) : Packet :=
  afpLogin version cleartxtPasswrd (authinfo (1 + username.length + 1 + 8) username
    (isEven (behindName ai username)) (padded 8 passwd))

/-- `cleartxt_passwd()`. -/
def cleartxtPasswd (ai : ℕ) (pad : UInt8) (username _oldpasswd newpasswd : List UInt8) : Packet :=
  afpChangepassword pad cleartxtPasswrd (authinfo (1 + username.length + 1 + 8) username
    (isEven (behindName ai username)) (padded 8 newpasswd))

/-- What `randnum_passwd()` encrypts: the old password with the new one, and the new one with the
old one. -/
def randnumCrypted (G : Primitives) (oldpasswd newpasswd : List UInt8) : Option (List UInt8) :=
  (G.desEncrypt (padded 8 newpasswd) (padded 8 oldpasswd)).bind fun crypted =>
    (G.desEncrypt (padded 8 oldpasswd) (padded 8 newpasswd)).map (crypted ++ ·)

/-- `randnum_passwd()`.  `none` is an error of the cipher, and then nothing is sent. -/
def randnumPasswd (G : Primitives) (ai : ℕ) (pad : UInt8)
    (username oldpasswd newpasswd : List UInt8) : Option Packet :=
  (randnumCrypted G oldpasswd newpasswd).map fun crypted =>
    afpChangepassword pad randnumExchange (authinfo (2 + username.length + 8 * 2) username
      (isEven (behindName ai username)) crypted)

/-- The number of the client in DHCAST128: `Ma`, which is sent to the server. -/
def dhxMa (G : Primitives) (Ra : List UInt8) : List UInt8 :=
  G.mpiPrint 16 (G.powm (G.mpiScan gBinary) (G.mpiScan Ra) (G.mpiScan pBinary))

/-- The FPLogin of `dhx_login()`. -/
def dhxLoginFirst (G : Primitives) (ai : ℕ) (version username Ra : List UInt8) : Packet :=
  afpLogin version dhcast128 (authinfo (1 + username.length + 1 + 16) username
    (!isEven (behindName ai username)) (dhxMa G Ra))

/-! ## The layout -/

/-- **The layout**: behind what is in front of it and the name, the fields start at the first even
offset of the block, and the length is up to the last byte of them. -/
structure LaidOut (packet : Packet) (front username fields : List UInt8) : Prop where
  named : front ++ copyToPascal username <+: packet.block
  starts : packet.block.drop ((front ++ copyToPascal username).length +
    (front ++ copyToPascal username).length % 2) = fields
  ends : packet.length = 16 + ((front ++ copyToPascal username).length +
    (front ++ copyToPascal username).length % 2) + fields.length

/-- A packet with its fields behind the name, or behind a free byte, is laid out if the byte is
there when the offset is odd. -/
theorem laidOut_iff {packet : Packet} {front username fields : List UInt8} {free : Bool}
    (hblock : packet.block =
      front ++ (copyToPascal username ++ (if free then 0 :: fields else fields)))
    (hlength : packet.length = 16 + packet.block.length) (hfields : fields ≠ []) :
    LaidOut packet front username fields ↔
      (free = true ↔ (front ++ copyToPascal username).length % 2 = 1) := by
  rw [← List.append_assoc] at hblock
  generalize hname : front ++ copyToPascal username = name at hblock ⊢
  have hprefix : name <+: packet.block := hblock ▸ List.prefix_append _ _
  have hmod := Nat.mod_two_eq_zero_or_one name.length
  have hpos := List.length_pos_of_ne_nil hfields
  constructor
  · intro hlaid
    have hend := hlaid.ends
    rw [hlength, hblock, hname, List.length_append] at hend
    cases free with
    | true =>
      rw [if_pos rfl, List.length_cons] at hend
      exact iff_of_true rfl (by omega)
    | false =>
      rw [if_neg Bool.false_ne_true] at hend
      exact iff_of_false Bool.false_ne_true (by omega)
  · intro hfree
    have hdrop : packet.block.drop (name.length + name.length % 2) = fields := by
      rw [hblock, List.drop_append]
      cases free with
      | true =>
        rw [if_pos rfl, hfree.mp rfl, List.drop_eq_nil_of_le (by omega), Nat.add_sub_cancel_left]
        rfl
      | false =>
        have hzero : name.length % 2 = 0 :=
          hmod.resolve_right fun h => Bool.false_ne_true (hfree.mpr h)
        rw [if_neg Bool.false_ne_true, hzero, Nat.add_zero, List.drop_length, Nat.sub_self]
        rfl
    have hend : packet.length = 16 + (name.length + name.length % 2) + fields.length := by
      rw [hlength, hblock, List.length_append]
      cases free with
      | true =>
        rw [if_pos rfl, List.length_cons, hfree.mp rfl]
        omega
      | false =>
        have hzero : name.length % 2 = 0 :=
          hmod.resolve_right fun h => Bool.false_ne_true (hfree.mpr h)
        rw [if_neg Bool.false_ne_true, hzero]
        omega
    exact ⟨hname ▸ hprefix, hname ▸ hdrop, hname ▸ hend⟩

section Packets

variable {uaName username fields : List UInt8} (huaName : uaName.length ≤ 255)
  (husername : username.length ≤ 255) {size : ℕ}
  (hsize : 2 + username.length + fields.length = size) (hfields : fields ≠ []) (free : Bool)

include huaName husername hsize hfields

theorem laidOut_afpLogin_iff {version : List UInt8} (hversion : version.length ≤ 255) :
    LaidOut (afpLogin version uaName (authinfo size username free fields))
        (loginFront version uaName) username fields ↔
      (free = true ↔ (version.length + uaName.length + username.length) % 2 = 1) := by
  have hfront : (loginFront version uaName).length = version.length + uaName.length + 3 := by
    rw [loginFront, List.length_cons, List.length_append, length_copyToPascal hversion,
      length_copyToPascal huaName]
    omega
  have hlength : (afpLogin version uaName (authinfo size username free fields)).length =
      16 + (afpLogin version uaName (authinfo size username free fields)).block.length := by
    rw [afpLogin]
    simp only [List.length_append, hfront]
    omega
  rw [laidOut_iff (by rw [afpLogin, authinfo_eq husername hsize]) hlength hfields,
    List.length_append, hfront, length_copyToPascal husername]
  exact iff_congr Iff.rfl (by omega)

theorem laidOut_afpChangepassword_iff (pad : UInt8) :
    LaidOut (afpChangepassword pad uaName (authinfo size username free fields))
        (changepasswordFront pad uaName) username fields ↔
      (free = true ↔ (uaName.length + username.length) % 2 = 1) := by
  have hfront : (changepasswordFront pad uaName).length = uaName.length + 3 := by
    rw [changepasswordFront, List.length_cons, List.length_cons, length_copyToPascal huaName]
  have hlength : (afpChangepassword pad uaName (authinfo size username free fields)).length =
      16 + (afpChangepassword pad uaName (authinfo size username free fields)).block.length := by
    rw [afpChangepassword]
    simp only [List.length_append, hfront]
    omega
  rw [laidOut_iff (by rw [afpChangepassword, authinfo_eq husername hsize]) hlength hfields,
    List.length_append, hfront, length_copyToPascal husername]
  exact iff_congr Iff.rfl (by omega)

end Packets

/-! ## One by one -/

theorem isEven_eq_true_iff (p : ℕ) : isEven p = true ↔ p % 2 = 0 := decide_eq_true_iff

theorem not_isEven_eq_true_iff (p : ℕ) : (!isEven p) = true ↔ p % 2 = 1 := by
  rw [Bool.not_eq_true', isEven, decide_eq_false_iff_not]
  omega

theorem ne_nil_of_length {l : List UInt8} {n : ℕ} (h : l.length = n) (hn : 0 < n) : l ≠ [] :=
  List.ne_nil_of_length_pos (h ▸ hn)

theorem length_printed (size n : ℕ) : (printed size n).length = size := by
  rw [printed_eq]
  split_ifs
  · exact length_toBE size n
  · exact List.length_replicate

theorem length_randnumCrypted {G : Primitives}
    (hdes : ∀ {key block crypted}, G.desEncrypt key block = some crypted →
      crypted.length = block.length) {oldpasswd newpasswd crypted : List UInt8}
    (h : randnumCrypted G oldpasswd newpasswd = some crypted) : crypted.length = 16 := by
  obtain ⟨first, hfirst, h⟩ := Option.bind_eq_some_iff.mp h
  obtain ⟨second, hsecond, rfl⟩ := Option.map_eq_some_iff.mp h
  rw [List.length_append, hdes hfirst, hdes hsecond, length_padded, length_padded]

/-- All versions that are spoken have names of even length. -/
theorem even_length_afpVersions : ∀ v ∈ afpVersions, v.1.length % 2 = 0 := by decide

section Builders

variable {ai p : ℕ} (hai : ai % 2 = 0) (hp : p % 2 = 0) {username : List UInt8}
  (husername : username.length ≤ 255)

include hai husername

theorem laidOut_cleartxtLogin_iff {version : List UInt8} (hversion : version.length ≤ 255)
    (passwd : List UInt8) :
    LaidOut (cleartxtLogin ai version username passwd) (loginFront version cleartxtPasswrd)
      username (padded 8 passwd) ↔ version.length % 2 = 0 := by
  have hpasswd := length_padded 8 passwd
  have hua : cleartxtPasswrd.length = 16 := rfl
  rw [cleartxtLogin, laidOut_afpLogin_iff (by decide) husername (by omega)
    (ne_nil_of_length hpasswd (by decide)) _ hversion, isEven_eq_true_iff, behindName,
    length_copyToPascal husername, hua]
  omega

theorem laidOut_cleartxtPasswd (pad : UInt8) (oldpasswd newpasswd : List UInt8) :
    LaidOut (cleartxtPasswd ai pad username oldpasswd newpasswd)
      (changepasswordFront pad cleartxtPasswrd) username (padded 8 newpasswd) := by
  have hpasswd := length_padded 8 newpasswd
  have hua : cleartxtPasswrd.length = 16 := rfl
  rw [cleartxtPasswd, laidOut_afpChangepassword_iff (by decide) husername (by omega)
    (ne_nil_of_length hpasswd (by decide)), isEven_eq_true_iff, behindName,
    length_copyToPascal husername, hua]
  omega

theorem laidOut_randnumPasswd {G : Primitives}
    (hdes : ∀ {key block crypted}, G.desEncrypt key block = some crypted →
      crypted.length = block.length) {pad : UInt8} {oldpasswd newpasswd crypted : List UInt8}
    {packet : Packet} (hpacket : randnumPasswd G ai pad username oldpasswd newpasswd = some packet)
    (hcrypted : randnumCrypted G oldpasswd newpasswd = some crypted) :
    LaidOut packet (changepasswordFront pad randnumExchange) username crypted := by
  have hlength := length_randnumCrypted hdes hcrypted
  have hua : randnumExchange.length = 16 := rfl
  rw [randnumPasswd, hcrypted, Option.map_some, Option.some.injEq] at hpacket
  rw [← hpacket, laidOut_afpChangepassword_iff (by decide) husername (by omega)
    (ne_nil_of_length hlength (by decide)), isEven_eq_true_iff, behindName,
    length_copyToPascal husername, hua]
  omega

theorem laidOut_dhxLogin_iff {G : Primitives} (hG : Documented G) {version : List UInt8}
    (hversion : version.length ≤ 255) (Ra : List UInt8) :
    LaidOut (dhxLoginFirst G ai version username Ra) (loginFront version dhcast128) username
      (dhxMa G Ra) ↔ version.length % 2 = 0 := by
  have hMa : (dhxMa G Ra).length = 16 := by rw [dhxMa, hG.mpiPrint, length_printed]
  have hua : dhcast128.length = 9 := rfl
  rw [dhxLoginFirst, laidOut_afpLogin_iff (by decide) husername (by omega)
    (ne_nil_of_length hMa (by decide)) _ hversion, not_isEven_eq_true_iff, behindName,
    length_copyToPascal husername, hua]
  omega

end Builders

/-! ## The exchanges -/

/-- The packets of `dhx_passwd()` are laid out: the first one has the ID 0 and the number of the
client, and the last one the ID of the server and what is encrypted. -/
def DhxPasswdLaidOut (G : Primitives) (pad : UInt8) (username oldpasswd newpasswd Ra : List UInt8)
    (replies : ℕ → Reply) (sent : List (List UInt8)) : Prop :=
  let d := received 50 (replies 0)
  let key := dhxKey G Ra d
  (∀ first ∈ sent[0]?, LaidOut (afpChangepassword pad dhcast128 first)
    (changepasswordFront pad dhcast128) username (toBE 2 0 ++ dhxMa G Ra)) ∧
  ∀ last ∈ sent[1]?, ∃ decrypted crypted,
    G.cast5Decrypt key dhxS2civ (d.drop 18) = some decrypted ∧
    G.cast5Encrypt key dhxC2siv (dhxPasswdPlaintext G oldpasswd newpasswd decrypted) =
      some crypted ∧
    LaidOut (afpChangepassword pad dhcast128 last) (changepasswordFront pad dhcast128) username
      (toBE 2 (ntohs d) ++ crypted)

/-- The packets of `dhx2_passwd()` with something behind the name are laid out: the second one has
the ID, the number of the client and its nonce, and the last one the ID and what is encrypted. -/
def Dhx2PasswdLaidOut (G : Primitives) (pad : UInt8) (username oldpasswd newpasswd : List UInt8)
    (Ra : ℕ → List UInt8) (nonce : List UInt8) (replies : ℕ → Reply)
    (sent : List (List UInt8)) : Prop :=
  let d := received dhx2PasswdMaxsize (replies 0)
  let key := dhx2Key G (Ra (bignumLen d)) d
  (∀ second ∈ sent[1]?, ∃ crypted, G.cast5Encrypt key dhxC2siv nonce = some crypted ∧
    LaidOut (afpChangepassword pad dhx2 second) (changepasswordFront pad dhx2) username
      (toBE 2 (ntohs d) ++ (dhx2Ma G (Ra (bignumLen d)) d ++ crypted))) ∧
  ∀ last ∈ sent[2]?, ∃ decrypted crypted,
    G.cast5Decrypt key dhxS2civ ((received 34 (replies 1)).drop 2) = some decrypted ∧
    G.cast5Encrypt key dhxC2siv (dhx2PasswdPlaintext G oldpasswd newpasswd decrypted) =
      some crypted ∧
    LaidOut (afpChangepassword pad dhx2 last) (changepasswordFront pad dhx2) username
      ((toBE 2 (ntohs (received 34 (replies 1)))).reverse ++ crypted)

section Exchanges

variable {G : Primitives} (hG : Documented G) {p : ℕ} (hp : p % 2 = 0) {username : List UInt8}
  (husername : username.length ≤ 255) (pad : UInt8)

include hG hp husername

theorem laidOut_dhxPasswdFirst_iff (Ra : List UInt8) :
    LaidOut (afpChangepassword pad dhcast128 (dhxPasswdFirst G p username Ra))
      (changepasswordFront pad dhcast128) username (toBE 2 0 ++ dhxMa G Ra) ↔
      username.length % 2 = 0 := by
  have hfields : (toBE 2 0 ++ dhxMa G Ra).length = 18 := by
    rw [List.length_append, length_toBE, dhxMa, hG.mpiPrint, length_printed]
  have hua : dhcast128.length = 9 := rfl
  rw [dhxPasswdFirst, ← dhxMa, laidOut_afpChangepassword_iff (by decide) husername (by omega)
    (ne_nil_of_length hfields (by decide)), isEven_eq_true_iff, hua]
  omega

theorem laidOut_dhxPasswdLast_iff {key oldpasswd newpasswd decrypted crypted : List UInt8} (id : ℕ)
    (hcrypted : G.cast5Encrypt key dhxC2siv (dhxPasswdPlaintext G oldpasswd newpasswd decrypted) =
      some crypted) :
    LaidOut (afpChangepassword pad dhcast128 (dhxPasswdLast p username id crypted))
      (changepasswordFront pad dhcast128) username (toBE 2 id ++ crypted) ↔
      username.length % 2 = 0 := by
  rw [dhxPasswdPlaintext_eq hG] at hcrypted
  have hlength := hG.length_cast5Encrypt hcrypted
  rw [length_content] at hlength
  have hfields : (toBE 2 id ++ crypted).length = 2 + (16 + 2 * dhxPasswdlen) := by
    rw [List.length_append, length_toBE, hlength]
  have hua : dhcast128.length = 9 := rfl
  rw [dhxPasswdLast, laidOut_afpChangepassword_iff (by decide) husername (by omega)
    (ne_nil_of_length hfields (by decide)), isEven_eq_true_iff, hua]
  omega

theorem laidOut_dhx2PasswdSecond_iff {key Ra d nonce crypted : List UInt8}
    (hnonce : nonce.length = 16) (hcrypted : G.cast5Encrypt key dhxC2siv nonce = some crypted) :
    LaidOut (afpChangepassword pad dhx2 (dhx2PasswdSecond G p username Ra d crypted))
      (changepasswordFront pad dhx2) username
      (toBE 2 (ntohs d) ++ (dhx2Ma G Ra d ++ crypted)) ↔ username.length % 2 = 1 := by
  have hMa : (dhx2Ma G Ra d).length = bignumLen d := by
    rw [dhx2Ma, hG.mpiPrint, length_printed]
  have hfields : (toBE 2 (ntohs d) ++ (dhx2Ma G Ra d ++ crypted)).length =
      2 + (bignumLen d + 16) := by
    rw [List.length_append, List.length_append, length_toBE, hMa, hG.length_cast5Encrypt hcrypted,
      hnonce]
  have hua : dhx2.length = 4 := rfl
  rw [dhx2PasswdSecond, laidOut_afpChangepassword_iff (by decide) husername (by omega)
    (ne_nil_of_length hfields (by omega)), isEven_eq_true_iff, hua]
  omega

theorem laidOut_dhx2PasswdLast_iff {key oldpasswd newpasswd decrypted crypted : List UInt8}
    (id : ℕ) (hcrypted : G.cast5Encrypt key dhxC2siv
      (dhx2PasswdPlaintext G oldpasswd newpasswd decrypted) = some crypted) :
    LaidOut (afpChangepassword pad dhx2 (dhx2PasswdLast p username id crypted))
      (changepasswordFront pad dhx2) username ((toBE 2 id).reverse ++ crypted) ↔
      username.length % 2 = 1 := by
  rw [dhx2PasswdPlaintext_eq hG] at hcrypted
  have hlength := hG.length_cast5Encrypt hcrypted
  rw [length_content] at hlength
  have hfields : ((toBE 2 id).reverse ++ crypted).length = 2 + (16 + 2 * dhx2Passwdlen) := by
    rw [List.length_append, List.length_reverse, length_toBE, hlength]
  have hua : dhx2.length = 4 := rfl
  rw [dhx2PasswdLast, laidOut_afpChangepassword_iff (by decide) husername (by omega)
    (ne_nil_of_length hfields (by decide)), isEven_eq_true_iff, hua]
  omega

/-- **`dhx_passwd()`** is right for names of even length. -/
theorem laidOut_dhxPasswd_iff (oldpasswd newpasswd Ra : List UInt8) (replies : ℕ → Reply) :
    DhxPasswdLaidOut G pad username oldpasswd newpasswd Ra replies
      (dhxPasswd G p username oldpasswd newpasswd Ra replies).sent ↔
      username.length % 2 = 0 := by
  have hfirst := laidOut_dhxPasswdFirst_iff hG hp husername pad Ra
  have hfirsts : (∀ first ∈ some (dhxPasswdFirst G p username Ra),
      LaidOut (afpChangepassword pad dhcast128 first) (changepasswordFront pad dhcast128) username
        (toBE 2 0 ++ dhxMa G Ra)) ↔ username.length % 2 = 0 := by
    refine ⟨fun hlaid => hfirst.mp (hlaid _ rfl), ?_⟩
    rintro heven _ ⟨⟩
    exact hfirst.mpr heven
  rcases @sent_dhxPasswd_cases G username oldpasswd newpasswd replies p Ra with
    hsent | ⟨decrypted, crypted, hdecrypted, hcrypted, hsent⟩
  · rw [hsent]
    refine ⟨fun hlaid => hfirsts.mp hlaid.1, fun heven => ⟨hfirsts.mpr heven, ?_⟩⟩
    exact fun last hlast => absurd hlast (Option.not_mem_none last)
  · have hlast := laidOut_dhxPasswdLast_iff hG hp husername pad
      (ntohs (received 50 (replies 0))) hcrypted
    rw [hsent]
    refine ⟨fun hlaid => hfirsts.mp hlaid.1, fun heven => ⟨hfirsts.mpr heven, ?_⟩⟩
    rintro _ ⟨⟩
    exact ⟨decrypted, crypted, hdecrypted, hcrypted, hlast.mpr heven⟩

/-- **`dhx2_passwd()`**, if it gets to its second packet, is right for names of odd length. -/
theorem laidOut_dhx2Passwd_iff (p₀ : ℕ) (oldpasswd newpasswd : List UInt8) (Ra : ℕ → List UInt8)
    {nonce : List UInt8} (hnonce : nonce.length = 16) (replies : ℕ → Reply)
    (hsent : (dhx2Passwd G p₀ p username oldpasswd newpasswd Ra nonce replies).sent[1]?.isSome) :
    Dhx2PasswdLaidOut G pad username oldpasswd newpasswd Ra nonce replies
      (dhx2Passwd G p₀ p username oldpasswd newpasswd Ra nonce replies).sent ↔
      username.length % 2 = 1 := by
  -- the second packet of either exchange
  have hseconds : ∀ {key d ra crypted : List UInt8},
      G.cast5Encrypt key dhxC2siv nonce = some crypted →
        ((∀ second ∈ some (dhx2PasswdSecond G p username ra d crypted), ∃ crypted,
          G.cast5Encrypt key dhxC2siv nonce = some crypted ∧
          LaidOut (afpChangepassword pad dhx2 second) (changepasswordFront pad dhx2) username
            (toBE 2 (ntohs d) ++ (dhx2Ma G ra d ++ crypted))) ↔ username.length % 2 = 1) := by
    intro key d ra crypted hcrypted
    have hsecond := @laidOut_dhx2PasswdSecond_iff G hG p hp username husername pad key ra d nonce
      crypted hnonce hcrypted
    constructor
    · intro hlaid
      obtain ⟨crypted₁, hcrypted₁, hlaid⟩ := hlaid _ rfl
      obtain rfl := Option.some.inj (hcrypted.symm.trans hcrypted₁)
      exact hsecond.mp hlaid
    · rintro hodd _ ⟨⟩
      exact ⟨crypted, hcrypted, hsecond.mpr hodd⟩
  rcases @sent_dhx2Passwd_cases G username oldpasswd newpasswd replies p₀ p Ra nonce with
    hone | ⟨crypted, hcrypted, htwo | ⟨decrypted, crypted', hdecrypted, hcrypted', hthree⟩⟩
  · rw [hone] at hsent
    exact absurd hsent Bool.false_ne_true
  · rw [htwo]
    refine ⟨fun hlaid => (hseconds hcrypted).mp hlaid.1,
      fun hodd => ⟨(hseconds hcrypted).mpr hodd, ?_⟩⟩
    exact fun last hlast => absurd hlast (Option.not_mem_none last)
  · have hlast := laidOut_dhx2PasswdLast_iff hG hp husername pad
      (ntohs (received 34 (replies 1))) hcrypted'
    rw [hthree]
    refine ⟨fun hlaid => (hseconds hcrypted).mp hlaid.1,
      fun hodd => ⟨(hseconds hcrypted).mpr hodd, ?_⟩⟩
    rintro _ ⟨⟩
    exact ⟨decrypted, crypted', hdecrypted, hcrypted', hlast.mpr hodd⟩

end Exchanges

/-- The `userauthinfo` of `dhx_login()` is the one of the login, in a block at an even address. -/
theorem dhxLoginFirst_eq {G : Primitives} {ai : ℕ} (hai : ai % 2 = 0)
    (version username Ra : List UInt8) :
    dhxLoginFirst G ai version username Ra =
      afpLogin version dhcast128 (dhxAuthinfo G username Ra) := by
  rw [dhxLoginFirst, dhxAuthinfo, authinfo, behindName]
  by_cases hodd : (copyToPascal username).length % 2 = 1
  · rw [if_pos ((not_isEven_eq_true_iff _).mpr (by omega)), if_pos hodd, dhxMa]
  · rw [if_neg (fun h => hodd (by have := (not_isEven_eq_true_iff _).mp h; omega)), if_neg hodd,
      dhxMa]

/-- **Where the fields behind the name are**, for all functions that put it in front of others: for
every name and every string of a version.  The blocks of the heap are at even addresses. -/
theorem auth_layout_iff {G : Primitives} (hG : Documented G)
    (hdes : ∀ {key block crypted}, G.desEncrypt key block = some crypted →
      crypted.length = block.length) {ai p : ℕ} (hai : ai % 2 = 0) (hp : p % 2 = 0) (p₀ : ℕ)
    {version username nonce : List UInt8} (hversion : version.length ≤ 255)
    (husername : username.length ≤ 255) (hnonce : nonce.length = 16) (pad : UInt8)
    (passwd oldpasswd newpasswd Ra : List UInt8) (Ra' : ℕ → List UInt8) (replies : ℕ → Reply) :
    (LaidOut (cleartxtLogin ai version username passwd) (loginFront version cleartxtPasswrd)
      username (padded 8 passwd) ↔ version.length % 2 = 0) ∧
    LaidOut (cleartxtPasswd ai pad username oldpasswd newpasswd)
      (changepasswordFront pad cleartxtPasswrd) username (padded 8 newpasswd) ∧
    (∀ packet crypted, randnumPasswd G ai pad username oldpasswd newpasswd = some packet →
      randnumCrypted G oldpasswd newpasswd = some crypted →
        LaidOut packet (changepasswordFront pad randnumExchange) username crypted) ∧
    (LaidOut (dhxLoginFirst G ai version username Ra) (loginFront version dhcast128) username
      (dhxMa G Ra) ↔ version.length % 2 = 0) ∧
    (DhxPasswdLaidOut G pad username oldpasswd newpasswd Ra replies
      (dhxPasswd G p username oldpasswd newpasswd Ra replies).sent ↔
        username.length % 2 = 0) ∧
    ((dhx2Passwd G p₀ p username oldpasswd newpasswd Ra' nonce replies).sent[1]?.isSome →
      (Dhx2PasswdLaidOut G pad username oldpasswd newpasswd Ra' nonce replies
        (dhx2Passwd G p₀ p username oldpasswd newpasswd Ra' nonce replies).sent ↔
          username.length % 2 = 1)) :=
  ⟨laidOut_cleartxtLogin_iff hai husername hversion passwd,
    laidOut_cleartxtPasswd hai husername pad oldpasswd newpasswd,
    fun _ _ hpacket hcrypted => laidOut_randnumPasswd hai husername hdes hpacket hcrypted,
    laidOut_dhxLogin_iff hai husername hG hversion Ra,
    laidOut_dhxPasswd_iff hG hp husername pad oldpasswd newpasswd Ra replies,
    laidOut_dhx2Passwd_iff hG hp husername pad p₀ oldpasswd newpasswd Ra' hnonce replies⟩

/-- The name of AFP 3.1. -/
def afp31 : List UInt8 := asciiBytes ['A', 'F', 'P', '3', '.', '1']

/-- A name of one letter, and AFP 3.1. -/
theorem auth_layout_iff_of_letter :
    (LaidOut (cleartxtLogin 8 afp31 [117] [98]) (loginFront afp31 cleartxtPasswrd) [117]
      (padded 8 [98]) ↔ afp31.length % 2 = 0) ∧
    LaidOut (cleartxtPasswd 8 0 [117] [98] [99]) (changepasswordFront 0 cleartxtPasswrd) [117]
      (padded 8 [99]) ∧
    (∀ packet crypted, randnumPasswd documentedPlain 8 0 [117] [98] [99] = some packet →
      randnumCrypted documentedPlain [98] [99] = some crypted →
        LaidOut packet (changepasswordFront 0 randnumExchange) [117] crypted) ∧
    (LaidOut (dhxLoginFirst documentedPlain 8 afp31 [117] (List.replicate 32 0))
      (loginFront afp31 dhcast128) [117] (dhxMa documentedPlain (List.replicate 32 0)) ↔
        afp31.length % 2 = 0) ∧
    (DhxPasswdLaidOut documentedPlain 0 [117] [98] [99] (List.replicate 32 0) impostor
      (dhxPasswd documentedPlain 16 [117] [98] [99] (List.replicate 32 0) impostor).sent ↔
        [(117 : UInt8)].length % 2 = 0) ∧
    ((dhx2Change [99]).sent[1]?.isSome →
      (Dhx2PasswdLaidOut documentedPlain 0 [117] [98] [99] (List.replicate · 0)
        (List.replicate 16 7) impostor (dhx2Change [99]).sent ↔
          [(117 : UInt8)].length % 2 = 1)) :=
  @auth_layout_iff documentedPlain documented_documentedPlain
    (fun h => congrArg List.length (Option.some.inj h).symm) 8 16 rfl rfl 8 afp31 [117]
    (List.replicate 16 7) (by decide) (by decide) rfl 0 [98] [98] [99] (List.replicate 32 0)
    (List.replicate · 0) impostor

/-- With a name of one letter, what `dhx_passwd()` sends is not laid out: a byte is left free where
none is missing. -/
theorem number_at_odd_offset :
    ¬ DhxPasswdLaidOut documentedPlain 0 [117] [98] [99] (List.replicate 32 0) impostor
      (dhxChange [99]).sent := by
  rw [dhxChange, laidOut_dhxPasswd_iff documented_documentedPlain (by decide) (by decide)]
  decide

end Login
end Server
end Afpfs
