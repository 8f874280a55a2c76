import DahuaBridge.Lib.Base64
import DahuaBridge.Lib.Python

/-!
# The local address in a channel request

`get_enc` and `get_dec` of `app/vendor/dh_p2p/helpers.py`, and what `main` of
`app/vendor/dh_p2p/main.py` puts into `LocalAddr` and makes of the field in a response.

The nonce is the text of it, `str(nonce)`: `main` draws a number, and a response has a text.

1. `getDec_getEnc`: what is encrypted is decrypted to itself.
2. `parseAddr_plain`: an address and a port are read back from their text.
3. `parseAddr_padded`: with zero bytes behind them they are not.
-/

namespace DahuaBridge.Easy4ip

open Python (Exc)

/-! ## Encryption -/

/-- The functions of the `cryptography` package and of `hashlib`. -/
structure AesOfb where
  /-- `pbkdf2_hmac("sha256", key, salt, 20000, 32)`. -/
  derive : List UInt8 → List UInt8 → List UInt8
  /-- The key stream of AES in the mode OFB that starts with `IV`. -/
  stream : List UInt8 → Nat → UInt8

/-- `update` and `finalize` of the encryptor: OFB adds the key stream to the data. -/
def AesOfb.update (aes : AesOfb) (dk data : List UInt8) : List UInt8 :=
  data.mapIdx fun i b => b ^^^ aes.stream dk i

def getEnc (aes : AesOfb) (key : List UInt8) (nonce data : List Char) : List Char :=
  let dk := aes.derive key (Python.encode nonce)
  Base64.encode (aes.update dk (Python.encode data))

/-- `base64.b64decode` of a text. -/
def b64decode (text : List Char) : Except Exc (List UInt8) :=
  match Base64.decode text with
  | some bytes => .ok bytes
  | none => .error .valueError

def getDec (aes : AesOfb) (key : List UInt8) (nonce data : List Char) : Except Exc (List Char) := do
  let dk := aes.derive key (Python.encode nonce)
  let bytes ← b64decode data
  Python.decode (aes.update dk bytes)

section Encryption

variable (aes : AesOfb) (key : List UInt8) (nonce : List Char)

theorem update_update (dk data : List UInt8) : aes.update dk (aes.update dk data) = data := by
  rw [AesOfb.update, AesOfb.update, List.mapIdx_mapIdx]
  refine List.ext_getElem? fun i => ?_
  rw [List.getElem?_mapIdx]
  cases data[i]? with
  | none => rfl
  | some b => rw [Option.map_some, Function.comp_apply, UInt8.xor_assoc, UInt8.xor_self, UInt8.xor_zero]

/-- What is encrypted is decrypted to itself. -/
theorem getDec_getEnc (text : List Char) :
    getDec aes key nonce (getEnc aes key nonce text) = .ok text := by
  simp only [getDec, getEnc, b64decode, Base64.decode_encode, bind, Except.bind]
  rw [update_update, Python.decode_encode]

end Encryption

/-! ## What is sent -/

/-- `f"{advertise_ip}:{main_remote.lport}"`. -/
def laddr (ip : List Char) (port : Nat) : List Char := ip ++ ':' :: Nat.toDigits 10 port

/-- `local_addr_plain`: the address in a field of 64 bytes. -/
def localAddrPlain (ip : List Char) (port : Nat) : Except Exc (List UInt8) :=
  (Python.encodeAscii (laddr ip port)).map fun text =>
    text ++ List.replicate (64 - text.length) 0

/-- `encrypted_local_addr` of `build_p2p_channel_body`. -/
def encryptedLocalAddr (aes : AesOfb) (key : List UInt8) (channelNonce : List Char)
    (ip : List Char) (port : Nat) : Except Exc (List Char) :=
  (localAddrPlain ip port).map fun plain =>
    getEnc aes key channelNonce (Python.decodeLatin1 plain)

/-! ## What is read -/

/-- The fields of the channel response that decide about the address. -/
structure ChannelInfo where
  localAddr : List Char
  ipEncrptV2 : List Char
  nonce : Option (List Char)

/-- `device_laddr`. Without a nonce `main` raises `ConnectionError`, which is an `OSError`. -/
def deviceLaddr (aes : AesOfb) (dtype : Int) (key : List UInt8) (info : ChannelInfo) :
    Except Exc (List Char) :=
  if 0 < dtype ∧ Text.lower info.ipEncrptV2 = "true".toList then
    match info.nonce with
    | some nonce => getDec aes key nonce info.localAddr
    | none => .error .osError
  else .ok info.localAddr

/-- `isspace` of C. -/
def isCSpace (c : Char) : Bool := c = ' ' || ('\t' ≤ c && c ≤ '\r')

/-- A digit of a base up to 16. -/
def digitValue (c : Char) : Option Nat :=
  if '0' ≤ c ∧ c ≤ '9' then some (c.toNat - 48)
  else if 'a' ≤ c ∧ c ≤ 'f' then some (c.toNat - 87)
  else if 'A' ≤ c ∧ c ≤ 'F' then some (c.toNat - 55)
  else none

/-- The value of the digits, if all of them belong to the base. -/
def ofBase (base : Nat) (text : List Char) : Option Nat :=
  text.foldl (fun value c => value.bind fun v => (digitValue c).bind fun d =>
    if d < base then some (base * v + d) else none) (some 0)

/-- A part of an address: hexadecimal, octal or decimal. -/
def addrPart : List Char → Option Nat
  | [] => none
  | ['0', 'x'] => none
  | ['0', 'X'] => none
  | '0' :: 'x' :: text => ofBase 16 text
  | '0' :: 'X' :: text => ofBase 16 text
  | '0' :: text => ofBase 8 text
  | text => ofBase 10 text

/-- `n` as so many bytes, the highest first. -/
def bigEndian : Nat → Nat → List UInt8
  | 0, _ => []
  | width + 1, n => UInt8.ofNat (n / 256 ^ width) :: bigEndian width n

/-- `socket.inet_aton`: up to four parts, of which the last one fills what is left. What stands
behind a space is ignored. -/
def inetAton (text : List Char) : Except Exc (List UInt8) :=
  if '\x00' ∈ text then .error .valueError
  else
    match ((text.takeWhile (!isCSpace ·)).splitOnP (· = '.')).mapM addrPart with
    | some [a] => if a < 2 ^ 32 then .ok (bigEndian 4 a) else .error .osError
    | some [a, b] =>
      if a < 256 ∧ b < 2 ^ 24 then .ok (bigEndian 1 a ++ bigEndian 3 b) else .error .osError
    | some [a, b, c] =>
      if a < 256 ∧ b < 256 ∧ c < 2 ^ 16 then .ok (bigEndian 1 a ++ bigEndian 1 b ++ bigEndian 2 c)
      else .error .osError
    | some [a, b, c, d] =>
      if a < 256 ∧ b < 256 ∧ c < 256 ∧ d < 256 then
        .ok (bigEndian 1 a ++ bigEndian 1 b ++ bigEndian 1 c ++ bigEndian 1 d)
      else .error .osError
    | _ => .error .osError

/-- `port.to_bytes(2)`. -/
def portBytes (port : Int) : Except Exc (List UInt8) :=
  if 0 ≤ port ∧ port < 2 ^ 16 then .ok (bigEndian 2 port.toNat) else .error .overflowError

/-- `ip`, `port` and `eaddr`. A text that is not in two parts cannot be unpacked. -/
def parseAddr (deviceLaddr : List Char) : Except Exc (List Char × Int × List UInt8) :=
  match deviceLaddr.splitOnP (· = ':') with
  | [ip, port] => do
    let port ← Python.int port
    let bytes ← portBytes port
    let addr ← inetAton ip
    return (ip, port, bytes ++ addr)
  | _ => .error .valueError

section Parse

variable {text ip portText : List Char} {port : Int} {bytes addr : List UInt8} {e : Exc}

theorem parseAddr_ok (hsplit : text.splitOnP (· = ':') = [ip, portText])
    (hport : Python.int portText = .ok port) (hbytes : portBytes port = .ok bytes)
    (haddr : inetAton ip = .ok addr) : parseAddr text = .ok (ip, port, bytes ++ addr) := by
  rw [parseAddr, hsplit]
  simp only [hport, hbytes, haddr, bind, Except.bind, pure, Except.pure]

theorem parseAddr_error (hsplit : text.splitOnP (· = ':') = [ip, portText])
    (hport : Python.int portText = .error e) : parseAddr text = .error e := by
  rw [parseAddr, hsplit]
  simp only [hport, bind, Except.bind]

end Parse

/-- The address of the device in a channel response. -/
def readLocalAddr (aes : AesOfb) (dtype : Int) (key : List UInt8) (info : ChannelInfo) :
    Except Exc (List Char × Int × List UInt8) :=
  deviceLaddr aes dtype key info >>= parseAddr

/-! ## Dotted addresses -/

/-- An address in four decimal parts. -/
def dotted (a b c d : UInt8) : List Char :=
  Nat.toDigits 10 a.toNat ++ '.' :: (Nat.toDigits 10 b.toNat ++ '.' ::
    (Nat.toDigits 10 c.toNat ++ '.' :: Nat.toDigits 10 d.toNat))

section Dotted

variable (a b c d : UInt8) (port : UInt16)

theorem mem_dotted {x : Char} (h : x ∈ dotted a b c d) : x.isDigit = true ∨ x = '.' := by
  have hdigit {n : Nat} (hx : x ∈ Nat.toDigits 10 n) : x.isDigit = true := Text.isDigit_toDigits n x hx
  simp only [dotted, List.mem_append, List.mem_cons] at h
  rcases h with h | h | h | h | h | h | h
  · exact .inl (hdigit h)
  · exact .inr h
  · exact .inl (hdigit h)
  · exact .inr h
  · exact .inl (hdigit h)
  · exact .inr h
  · exact .inl (hdigit h)

theorem not_mem_toDigits {x : Char} (hx : x.isDigit = false) (n : Nat) : x ∉ Nat.toDigits 10 n := by
  intro hmem
  rw [Text.isDigit_toDigits n x hmem] at hx
  cases hx

theorem not_mem_dotted {x : Char} (hx : x.isDigit = false) (hdot : x ≠ '.') :
    x ∉ dotted a b c d := by
  intro hmem
  rcases mem_dotted a b c d hmem with hdigit | heq
  · rw [hdigit] at hx
    cases hx
  · exact hdot heq

theorem isAscii_laddr : Utf8.isAscii (laddr (dotted a b c d) port.toNat) = true := by
  have hdigit {x : Char} (hx : x.isDigit = true) : x.toNat < 0x80 :=
    Nat.lt_of_le_of_lt (Text.isDigit_bounds hx).2 (by decide)
  rw [Utf8.isAscii_iff]
  intro x hx
  rcases List.mem_append.mp hx with hip | hport
  · rcases mem_dotted a b c d hip with hx | rfl
    · exact hdigit hx
    · decide
  · rcases List.mem_cons.mp hport with rfl | hport
    · decide
    · exact hdigit (Text.isDigit_toDigits _ x hport)

theorem length_laddr_lt : (laddr (dotted a b c d) port.toNat).length < 64 := by
  have hoctet (x : UInt8) : (Nat.toDigits 10 x.toNat).length ≤ 3 :=
    (Nat.length_toDigits_le_iff (by decide) (by decide)).mpr (Nat.lt_trans x.toNat_lt (by decide))
  have hport : (Nat.toDigits 10 port.toNat).length ≤ 5 :=
    (Nat.length_toDigits_le_iff (by decide) (by decide)).mpr (Nat.lt_trans port.toNat_lt (by decide))
  have ha := hoctet a
  have hb := hoctet b
  have hc := hoctet c
  have hd := hoctet d
  simp only [laddr, dotted, List.length_append, List.length_cons]
  omega

theorem splitOnP_laddr {port : List Char} (hport : ':' ∉ port) :
    (dotted a b c d ++ ':' :: port).splitOnP (· = ':') = [dotted a b c d, port] := by
  have hip : ':' ∉ dotted a b c d := not_mem_dotted a b c d (by decide) (by decide)
  rw [List.splitOnP_append_cons _ _ (by decide), List.splitOnP_eq_singleton, List.splitOnP_eq_singleton]
  · rfl
  · exact fun x hx => decide_eq_false fun heq => hport (heq ▸ hx)
  · exact fun x hx => decide_eq_false fun heq => hip (heq ▸ hx)

theorem addrPart_toDigits : ∀ n < 256, addrPart (Nat.toDigits 10 n) = some n := by decide +kernel

theorem splitOnP_dotted : (dotted a b c d).splitOnP (· = '.') =
    [Nat.toDigits 10 a.toNat, Nat.toDigits 10 b.toNat, Nat.toDigits 10 c.toNat,
      Nat.toDigits 10 d.toNat] := by
  have hpart (n : Nat) : (Nat.toDigits 10 n).splitOnP (· = '.') = [Nat.toDigits 10 n] :=
    List.splitOnP_eq_singleton fun x hx =>
      decide_eq_false fun heq => not_mem_toDigits (by decide) n (heq ▸ hx)
  rw [dotted, List.splitOnP_append_cons _ _ (by decide), List.splitOnP_append_cons _ _ (by decide),
    List.splitOnP_append_cons _ _ (by decide), hpart, hpart, hpart, hpart]
  rfl

theorem bigEndian_one (x : UInt8) : bigEndian 1 x.toNat = [x] := by
  rw [bigEndian, bigEndian, Nat.pow_zero, Nat.div_one, UInt8.ofNat_toNat]

theorem not_isCSpace_of_isDigit {x : Char} (h : x.isDigit = true) : isCSpace x = false := by
  have hlow := (Text.isDigit_bounds h).1
  have hblank : x ≠ ' ' := by
    rintro rfl
    cases h
  have hreturn : ¬x ≤ '\r' := by
    rw [Char.le_def, UInt32.le_iff_toNat_le]
    change ¬x.toNat ≤ 13
    omega
  rw [isCSpace, decide_eq_false hblank, decide_eq_false hreturn, Bool.and_false, Bool.or_false]

theorem inetAton_dotted : inetAton (dotted a b c d) = .ok [a, b, c, d] := by
  have hnul : '\x00' ∉ dotted a b c d := not_mem_dotted a b c d (by decide) (by decide)
  have hspace : (dotted a b c d).takeWhile (!isCSpace ·) = dotted a b c d := by
    rw [List.takeWhile_eq_self_iff]
    intro x hx
    rcases mem_dotted a b c d hx with hdigit | rfl
    · rw [not_isCSpace_of_isDigit hdigit, Bool.not_false]
    · decide
  have hparts : ((dotted a b c d).splitOnP (· = '.')).mapM addrPart =
      some [a.toNat, b.toNat, c.toNat, d.toNat] := by
    rw [splitOnP_dotted]
    simp only [List.mapM_cons, List.mapM_nil, addrPart_toDigits _ (UInt8.toNat_lt _), bind,
      Option.bind, pure]
  have hlt : a.toNat < 256 ∧ b.toNat < 256 ∧ c.toNat < 256 ∧ d.toNat < 256 :=
    ⟨a.toNat_lt, b.toNat_lt, c.toNat_lt, d.toNat_lt⟩
  rw [inetAton, if_neg hnul, hspace, hparts]
  simp only [if_pos hlt, bigEndian_one]
  rfl

theorem portBytes_toNat : portBytes port.toNat = .ok (bigEndian 2 port.toNat) := by
  have hlt := port.toNat_lt
  rw [portBytes, if_pos (by omega), Int.toNat_natCast]

theorem short_toDigits : (Nat.toDigits 10 port.toNat).length ≤ 4300 := by
  have hport : (Nat.toDigits 10 port.toNat).length ≤ 5 :=
    (Nat.length_toDigits_le_iff (by decide) (by decide)).mpr (Nat.lt_trans port.toNat_lt (by decide))
  omega

/-- An address and a port are read back from their text. -/
theorem parseAddr_plain : parseAddr (laddr (dotted a b c d) port.toNat) =
    .ok (dotted a b c d, port.toNat, bigEndian 2 port.toNat ++ [a, b, c, d]) :=
  parseAddr_ok (splitOnP_laddr a b c d (not_mem_toDigits (by decide) _))
    (Python.int_toDigits (short_toDigits port)) (portBytes_toNat port) (inetAton_dotted a b c d)

/-- With zero bytes behind them they are not. -/
theorem parseAddr_padded {zeros : Nat} (hzeros : 0 < zeros) :
    parseAddr (laddr (dotted a b c d) port.toNat ++ List.replicate zeros '\x00') =
      .error .valueError := by
  have hnul : '\x00' ∈ Nat.toDigits 10 port.toNat ++ List.replicate zeros '\x00' :=
    List.mem_append_right _ (List.mem_replicate.mpr ⟨Nat.ne_of_gt hzeros, rfl⟩)
  have hcolon : ':' ∉ Nat.toDigits 10 port.toNat ++ List.replicate zeros '\x00' := by
    rw [List.mem_append, List.mem_replicate]
    rintro (hdigit | ⟨-, heq⟩)
    · exact not_mem_toDigits (by decide) _ hdigit
    · exact absurd heq (by decide)
  rw [laddr, List.append_assoc, List.cons_append]
  exact parseAddr_error (splitOnP_laddr a b c d hcolon)
    (Python.int_of_mem hnul (by decide) (by decide) (by decide) (by decide) (by decide))

end Dotted

/-- What is sent is the address with zero bytes up to the end of the field. -/
theorem encryptedLocalAddr_eq (aes : AesOfb) (key : List UInt8) (nonce : List Char)
    (a b c d : UInt8) (port : UInt16) : ∃ zeros, 0 < zeros ∧
    encryptedLocalAddr aes key nonce (dotted a b c d) port.toNat = .ok (getEnc aes key nonce
      (laddr (dotted a b c d) port.toNat ++ List.replicate zeros '\x00')) := by
  have hascii := isAscii_laddr a b c d port
  have hlength := length_laddr_lt a b c d port
  refine ⟨64 - (laddr (dotted a b c d) port.toNat).length, Nat.sub_pos_of_lt hlength, ?_⟩
  have hzeros (n : Nat) : Python.decodeLatin1 (List.replicate n 0) = List.replicate n '\x00' :=
    List.map_replicate
  rw [encryptedLocalAddr, localAddrPlain, Python.encodeAscii, if_pos hascii]
  simp only [Except.map, List.length_map, Python.decodeLatin1_append, Python.decodeLatin1_ascii hascii,
    hzeros]

/-- What is read of an encrypted field is the text that was encrypted. -/
theorem readLocalAddr_getEnc (aes : AesOfb) (key : List UInt8) (nonce : List Char) {dtype : Int}
    (hdtype : 0 < dtype) (text : List Char) : readLocalAddr aes dtype key
      ⟨getEnc aes key nonce text, "true".toList, some nonce⟩ = parseAddr text := by
  have hencrypted : 0 < dtype ∧ Text.lower "true".toList = "true".toList := ⟨hdtype, by decide⟩
  rw [readLocalAddr, deviceLaddr, if_pos hencrypted]
  show getDec aes key nonce (getEnc aes key nonce text) >>= parseAddr = _
  rw [getDec_getEnc]
  rfl

/-- The field that `main` sends cannot be read back, for any address, port, key and nonce: the
zero bytes stay behind the port, and they belong to no number. Without them it can, and any text
is decrypted to itself. -/
theorem localAddr_unreadable (aes : AesOfb) (key : List UInt8) (nonce : List Char) {dtype : Int}
    (hdtype : 0 < dtype) (a b c d : UInt8) (port : UInt16) :
    let ip := dotted a b c d
    let response (field : List Char) : ChannelInfo := ⟨field, "true".toList, some nonce⟩
    (∃ field, encryptedLocalAddr aes key nonce ip port.toNat = .ok field ∧
      readLocalAddr aes dtype key (response field) = .error .valueError) ∧
    readLocalAddr aes dtype key (response (getEnc aes key nonce (laddr ip port.toNat))) =
      .ok (ip, port.toNat, bigEndian 2 port.toNat ++ [a, b, c, d]) ∧
    ∀ text, getDec aes key nonce (getEnc aes key nonce text) = .ok text := by
  intro ip response
  obtain ⟨zeros, hzeros, hfield⟩ := encryptedLocalAddr_eq aes key nonce a b c d port
  refine ⟨⟨_, hfield, ?_⟩, ?_, getDec_getEnc aes key nonce⟩
  · rw [readLocalAddr_getEnc aes key nonce hdtype, parseAddr_padded a b c d port hzeros]
  · rw [readLocalAddr_getEnc aes key nonce hdtype, parseAddr_plain]

/-- A key stream that is the key itself, over and over. -/
def repeatedKey : AesOfb := ⟨fun key salt => key ++ salt, fun dk i => dk.getD (i % dk.length) 0⟩

theorem localAddr_unreadable_lan : ∃ field,
    encryptedLocalAddr repeatedKey [1, 2, 3] "77".toList (dotted 192 168 1 108) 37777 = .ok field ∧
    readLocalAddr repeatedKey 1 [1, 2, 3] ⟨field, "true".toList, some "77".toList⟩ =
      .error .valueError :=
  (localAddr_unreadable repeatedKey [1, 2, 3] "77".toList (by decide : (0 : Int) < 1)
    192 168 1 108 37777).1

theorem localAddr_not_always_read : ¬ ∀ (aes : AesOfb) (key : List UInt8) (nonce : List Char)
    (dtype : Int), 0 < dtype → ∀ (a b c d : UInt8) (port : UInt16), ∃ field eaddr,
      encryptedLocalAddr aes key nonce (dotted a b c d) port.toNat = .ok field ∧
      readLocalAddr aes dtype key ⟨field, "true".toList, some nonce⟩ =
        .ok (dotted a b c d, port.toNat, eaddr) := by
  intro h
  obtain ⟨field, eaddr, hfield, hread⟩ :=
    h repeatedKey [1, 2, 3] "77".toList 1 (by decide) 192 168 1 108 37777
  obtain ⟨zeros, hzeros, hsent⟩ :=
    encryptedLocalAddr_eq repeatedKey [1, 2, 3] "77".toList 192 168 1 108 37777
  obtain rfl := Except.ok.inj (hsent.symm.trans hfield)
  rw [readLocalAddr_getEnc repeatedKey [1, 2, 3] "77".toList (by decide),
    parseAddr_padded 192 168 1 108 37777 hzeros] at hread
  cases hread

end DahuaBridge.Easy4ip
