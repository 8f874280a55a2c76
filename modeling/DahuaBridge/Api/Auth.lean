import DahuaBridge.Lib.Base64
import DahuaBridge.Lib.Python

/-!
# Sessions and logins

`create_session_token`, `valid_session_token`, `require_auth` and `login` of `app/main.py`.

A function returns, or raises an `HTTPException`, or lets an exception of Python through that
becomes an internal error. `valid_session_token` catches a `ValueError` and a `TypeError`; the
comparisons of the user and the password catch nothing.

* `validSessionToken_cases`: what the check of a token may come to.
* `validSessionToken_create`: a token is good until its time is over.
* `auth_decides_iff`: when `require_auth` and `login` decide as they should.
-/

namespace DahuaBridge

open Python (Exc Json)

/-! ## The calls -/

/-- What is called of libraries: `sha256`, `hmac.new(key, message, sha256)` and `json.loads`. -/
structure Library where
  sha256 : List UInt8 → List UInt8
  hmac : List UInt8 → List UInt8 → List UInt8
  loads : List UInt8 → Except Exc Json

/-- The settings from the environment. -/
structure Settings where
  appSecret : List Char
  adminPassword : List Char
  sessionMaxAge : Int
  cookieSecure : Bool

/-- What a handler may raise. -/
inductive Failure
  | http (status : Nat) (detail : String) (headers : List (String × String))
  | python (e : Exc)

/-- A call of a library function in a handler. -/
def raising {α : Type} (outcome : Except Exc α) : Except Failure α :=
  outcome.mapError Failure.python

/-- A `ValueError` where there is no result. -/
def orValueError {α : Type} : Option α → Except Failure α
  | some a => .ok a
  | none => .error (.python .valueError)

def sessionCookie : String := "bridge_session"

section Handlers

variable (lib : Library) (cfg : Settings)

/-- `_session_signing_key`. -/
def sessionSigningKey : Except Failure (List UInt8) :=
  if cfg.appSecret.length < 24 then
    .error (.http 503 "APP_SECRET_KEY must contain at least 24 characters" [])
  else .ok (lib.sha256 (Python.encode cfg.appSecret))

/-- `secrets.token_hex`, with the random bytes. -/
def tokenHex (bytes : List UInt8) : List Char :=
  bytes.flatMap fun b => [Nat.digitChar (b.toNat / 16), Nat.digitChar (b.toNat % 16)]

/-- `json.dumps` of the payload. -/
def dumps (exp : Int) (nonce : List UInt8) : Except Exc (List Char) :=
  (Python.str exp).map fun digits =>
    "\x7b\"user\":\"admin\",\"exp\":".toList ++ digits ++ ",\"nonce\":\"".toList ++ tokenHex nonce ++
      "\"\x7d".toList

def createSessionToken (now : Rat) (nonce : List UInt8) : Except Failure (List Char) := do
  let payload ← raising (dumps (Python.truncate now + cfg.sessionMaxAge) nonce)
  let encoded := Base64.strip (Base64.urlEncode (Python.encode payload))
  let key ← sessionSigningKey lib cfg
  let signature := lib.hmac key (Python.encode encoded)
  return encoded ++ '.' :: Base64.strip (Base64.urlEncode signature)

/-- `payload.get("user") == "admin" and int(payload.get("exp", 0)) > int(time.time())`. -/
def admits (now : Rat) : Json → Except Exc Bool
  | .dict items =>
    match items.lookup "user".toList with
    | some (.str user) =>
      if user = "admin".toList then
        (((items.lookup "exp".toList).getD (.int 0)).toInt).map fun exp => Python.truncate now < exp
      else .ok false
    | _ => .ok false
  | _ => .error .attributeError

/-- The `try` of `valid_session_token`. -/
def checkSessionToken (now : Rat) (token : List Char) : Except Failure Bool := do
  let (encoded, suppliedSignature) ← orValueError (Text.splitOnce (· = '.') token)
  let key ← sessionSigningKey lib cfg
  let expected := lib.hmac key (Python.encode encoded)
  let supplied ← orValueError (Base64.urlDecode (Base64.pad suppliedSignature))
  if expected ≠ supplied then return false
  let bytes ← orValueError (Base64.urlDecode (Base64.pad encoded))
  let payload ← raising (lib.loads bytes)
  raising (admits now payload)

/-- `except (ValueError, TypeError, json.JSONDecodeError): return False`. -/
def orFalse : Except Failure Bool → Except Failure Bool
  | .error (.python .valueError) => .ok false
  | .error (.python .typeError) => .ok false
  | outcome => outcome

def validSessionToken (now : Rat) (token : Option (List Char)) : Except Failure Bool :=
  match token with
  | none => .ok false
  | some token => if '.' ∉ token then .ok false else orFalse (checkSessionToken lib cfg now token)

/-- `HTTPBasicCredentials`, and `LoginInput`. -/
structure Credentials where
  username : List Char
  password : List Char
  deriving DecidableEq

/-- `require_auth`, with the session cookie of the request. -/
def requireAuth (now : Rat) (cookie : Option (List Char)) (credentials : Option Credentials) :
    Except Failure Unit := do
  if cfg.adminPassword = [] then throw (.http 503 "ADMIN_PASSWORD is not configured" [])
  if ← validSessionToken lib cfg now cookie then return
  let validUser ← match credentials with
    | none => pure false
    | some given => raising (Python.compareDigest given.username "admin".toList)
  let validPassword ← match credentials with
    | none => pure false
    | some given => raising (Python.compareDigest given.password cfg.adminPassword)
  if !(validUser && validPassword) then
    throw (.http 401 "Authentication required" [("WWW-Authenticate", "Basic")])

/-- What `response.set_cookie` is called with. -/
structure Cookie where
  key : String
  value : List Char
  maxAge : Int
  httponly : Bool
  samesite : String
  secure : Bool
  path : String

structure LoginResponse where
  username : String
  cookie : Cookie

/-- The answer to a login, with the cookie that is set. -/
def loginResponse (token : List Char) : LoginResponse :=
  { username := "admin"
    cookie :=
      { key := sessionCookie
        value := token
        maxAge := cfg.sessionMaxAge
        httponly := true
        samesite := "strict"
        secure := cfg.cookieSecure
        path := "/" } }

def login (now : Rat) (nonce : List UInt8) (loginData : Credentials) : Except Failure LoginResponse := do
  let validUser ← raising (Python.compareDigest loginData.username "admin".toList)
  let validPassword ←
    if cfg.adminPassword = [] then pure false
    else raising (Python.compareDigest loginData.password cfg.adminPassword)
  if !(validUser && validPassword) then
    throw (.http 401 "Napačno uporabniško ime ali geslo" [])
  let token ← createSessionToken lib cfg now nonce
  return loginResponse cfg token

end Handlers

/-! ## What should be decided -/

section Spec

variable (lib : Library) (cfg : Settings)

/-- The part of a token before the first point, with a signature behind that. -/
def Signed (token encoded : List Char) : Prop :=
  ∃ signature, '.' ∉ encoded ∧ token = encoded ++ '.' :: signature ∧
    Base64.urlDecode (Base64.pad signature) =
      some (lib.hmac (lib.sha256 (Python.encode cfg.appSecret)) (Python.encode encoded))

/-- The payload names the administrator, and its time is not over. -/
def Admitted (now : Rat) (payload : Json) : Prop :=
  ∃ items exp, payload = .dict items ∧ items.lookup "user".toList = some (.str "admin".toList) ∧
    ((items.lookup "exp".toList).getD (.int 0)).toInt = .ok exp ∧ Python.truncate now < exp

/-- The cookie is a payload that admits its bearer, and the signature of it. -/
def SessionAccepted (now : Rat) (cookie : Option (List Char)) : Prop :=
  ∃ token encoded bytes payload, cookie = some token ∧ Signed lib cfg token encoded ∧
    Base64.urlDecode (Base64.pad encoded) = some bytes ∧ lib.loads bytes = .ok payload ∧
    Admitted now payload

/-- What is read is a `dict`, in which the time of the administrator is not infinite; or reading
it raises what is caught. -/
def PayloadSound : Except Exc Json → Prop
  | .ok (.dict items) => items.lookup "user".toList = some (.str "admin".toList) →
      ∀ negative, items.lookup "exp".toList ≠ some (.float (.infinite negative))
  | .ok _ => False
  | .error e => e = .valueError ∨ e = .typeError

/-- A cookie whose signature is right has such a payload. -/
def SessionSound (cookie : Option (List Char)) : Prop :=
  ∀ token encoded bytes, cookie = some token → Signed lib cfg token encoded →
    Base64.urlDecode (Base64.pad encoded) = some bytes → PayloadSound (lib.loads bytes)

end Spec

/-- A handler returns where it should, and raises an `HTTPException` 401 otherwise. -/
def Decides {α : Type} (outcome : Except Failure α) (accepted : Prop) : Prop :=
  (accepted ∧ ∃ a, outcome = .ok a) ∨
    (¬accepted ∧ ∃ detail headers, outcome = .error (.http 401 detail headers))

/-! ## Tokens -/

/-- What a check comes to: the bearer is admitted, or is not, or an exception is let through. -/
inductive Verdict (accepted sound : Prop) : Except Failure Bool → Prop
  | admitted : accepted → sound → Verdict accepted sound (.ok true)
  | refused : ¬accepted → sound → Verdict accepted sound (.ok false)
  | raised (e : Exc) : ¬accepted → ¬sound → Verdict accepted sound (.error (.python e))

section Tokens

variable {lib : Library} {cfg : Settings} {now : Rat} {payload : Json} {token encoded signature : List Char}
  {bytes : List UInt8} {accepted accepted' sound sound' : Prop} {outcome : Except Failure Bool}

theorem Verdict.congr (haccepted : accepted ↔ accepted') (hsound : sound ↔ sound')
    (h : Verdict accepted sound outcome) : Verdict accepted' sound' outcome := by
  rwa [← propext haccepted, ← propext hsound]

theorem admits_of_user {items : List (List Char × Json)}
    (huser : items.lookup "user".toList = some (.str "admin".toList)) :
    admits now (.dict items) = (((items.lookup "exp".toList).getD (.int 0)).toInt).map
      fun exp => decide (Python.truncate now < exp) := by
  simp only [admits, huser, if_true]

theorem admits_of_not_user {items : List (List Char × Json)}
    (huser : items.lookup "user".toList ≠ some (.str "admin".toList)) :
    admits now (.dict items) = .ok false := by
  rw [admits]
  split
  · next user hlookup =>
    have hother : user ≠ "admin".toList := by
      rintro rfl
      exact huser hlookup
    exact if_neg hother
  · rfl

/-- Where `int` raises anything that is not caught, the time is infinite. -/
theorem exp_verdict {items : List (List Char × Json)}
    (huser : items.lookup "user".toList = some (.str "admin".toList)) :
    Verdict (Admitted now (.dict items)) (PayloadSound (.ok (.dict items)))
      (orFalse (raising (admits now (.dict items)))) := by
  rw [admits_of_user huser]
  cases hexp : ((items.lookup "exp".toList).getD (.int 0)).toInt with
  | ok exp =>
    have hsound : PayloadSound (.ok (.dict items)) := by
      intro _ negative hinfinite
      rw [hinfinite, Option.getD_some] at hexp
      cases hexp
    by_cases hlater : Python.truncate now < exp
    · rw [Except.map, decide_eq_true hlater]
      exact .admitted ⟨items, exp, rfl, huser, hexp, hlater⟩ hsound
    · rw [Except.map, decide_eq_false hlater]
      refine .refused ?_ hsound
      rintro ⟨items', exp', hitems, -, hexp', hlater'⟩
      obtain rfl := Json.dict.inj hitems
      obtain rfl := Except.ok.inj (hexp.symm.trans hexp')
      exact hlater hlater'
  | error e =>
    have hnot : ¬Admitted now (.dict items) := by
      rintro ⟨items', exp', hitems, -, hexp', -⟩
      obtain rfl := Json.dict.inj hitems
      cases hexp.symm.trans hexp'
    have hcaught (he : e ≠ .overflowError) : PayloadSound (.ok (.dict items)) := by
      intro _ negative hinfinite
      rw [hinfinite, Option.getD_some] at hexp
      exact he (Except.error.inj hexp).symm
    rcases Python.Json.toInt_error hexp with rfl | rfl | ⟨rfl, negative, hinfinite⟩
    · exact .refused hnot (hcaught (by decide))
    · exact .refused hnot (hcaught (by decide))
    · refine .raised .overflowError hnot fun hsound => hsound huser negative ?_
      cases hlookup : items.lookup "exp".toList with
      | none =>
        rw [hlookup] at hinfinite
        cases hinfinite
      | some value =>
        rw [hlookup, Option.getD_some] at hinfinite
        rw [hinfinite]

/-- What is read of the payload decides. -/
theorem payload_verdict (now : Rat) (loaded : Except Exc Json) :
    Verdict (∃ payload, loaded = .ok payload ∧ Admitted now payload) (PayloadSound loaded)
      (orFalse (raising loaded >>= fun payload => raising (admits now payload))) := by
  have hother {payload : Json} (hnot : ∀ items, payload ≠ .dict items) :
      ¬∃ payload', (.ok payload : Except Exc Json) = .ok payload' ∧ Admitted now payload' := by
    rintro ⟨_, heq, items, -, rfl, -⟩
    exact hnot items (Except.ok.inj heq)
  cases loaded with
  | error e =>
    have hnone : ¬∃ payload, (.error e : Except Exc Json) = .ok payload ∧ Admitted now payload := by
      rintro ⟨_, heq, -⟩
      cases heq
    cases e with
    | valueError => exact .refused hnone (.inl rfl)
    | typeError => exact .refused hnone (.inr rfl)
    | attributeError => exact .raised _ hnone (by rintro (h | h) <;> cases h)
    | overflowError => exact .raised _ hnone (by rintro (h | h) <;> cases h)
    | recursionError => exact .raised _ hnone (by rintro (h | h) <;> cases h)
    | osError => exact .raised _ hnone (by rintro (h | h) <;> cases h)
  | ok payload =>
    cases payload with
    | dict items =>
      have hiff : Admitted now (.dict items) ↔
          ∃ payload, (.ok (.dict items) : Except Exc Json) = .ok payload ∧ Admitted now payload :=
        ⟨fun h => ⟨_, rfl, h⟩, fun ⟨_, heq, h⟩ => Except.ok.inj heq ▸ h⟩
      refine Verdict.congr hiff Iff.rfl ?_
      show Verdict _ _ (orFalse (raising (admits now (.dict items))))
      by_cases huser : items.lookup "user".toList = some (.str "admin".toList)
      · exact exp_verdict huser
      · rw [admits_of_not_user huser]
        refine .refused ?_ fun h => absurd h huser
        rintro ⟨items', -, hitems, huser', -⟩
        obtain rfl := Json.dict.inj hitems
        exact huser huser'
    | null => exact .raised .attributeError (hother (by rintro _ ⟨⟩)) id
    | bool b => exact .raised .attributeError (hother (by rintro _ ⟨⟩)) id
    | int n => exact .raised .attributeError (hother (by rintro _ ⟨⟩)) id
    | float x => exact .raised .attributeError (hother (by rintro _ ⟨⟩)) id
    | str text => exact .raised .attributeError (hother (by rintro _ ⟨⟩)) id
    | list items => exact .raised .attributeError (hother (by rintro _ ⟨⟩)) id

theorem splitOnce_token (hpoint : '.' ∉ encoded) :
    Text.splitOnce (· = '.') (encoded ++ '.' :: signature) = some (encoded, signature) :=
  Text.splitOnce_append_cons
    (fun c hc => decide_eq_false fun (heq : c = '.') => hpoint (heq ▸ hc)) (decide_eq_true rfl) signature

theorem Signed.unique {other : List Char} (h : Signed lib cfg token encoded)
    (h' : Signed lib cfg token other) : other = encoded := by
  obtain ⟨signature, hpoint, rfl, -⟩ := h
  obtain ⟨signature', hpoint', heq, -⟩ := h'
  have hsplit : Text.splitOnce (· = '.') (other ++ '.' :: signature') = some (other, signature') :=
    splitOnce_token hpoint'
  rw [← heq, splitOnce_token hpoint] at hsplit
  exact (Prod.mk.inj (Option.some.inj hsplit)).1.symm

section Checked

variable (hsecret : 24 ≤ cfg.appSecret.length)

include hsecret

theorem sessionSigningKey_eq :
    sessionSigningKey lib cfg = .ok (lib.sha256 (Python.encode cfg.appSecret)) :=
  if_neg (Nat.not_lt_of_le hsecret)

/-- The signature is decoded and compared, and only then the payload is read. -/
theorem checkSessionToken_eq (hpoint : '.' ∉ encoded) :
    checkSessionToken lib cfg now (encoded ++ '.' :: signature) =
      (orValueError (Base64.urlDecode (Base64.pad signature)) >>= fun supplied =>
        if lib.hmac (lib.sha256 (Python.encode cfg.appSecret)) (Python.encode encoded) ≠ supplied then
          .ok false
        else do
          let bytes ← orValueError (Base64.urlDecode (Base64.pad encoded))
          let payload ← raising (lib.loads bytes)
          raising (admits now payload)) := by
  simp only [checkSessionToken, splitOnce_token hpoint, sessionSigningKey_eq hsecret, orValueError]
  rfl

/-- A wrong signature is refused. -/
theorem check_unsigned (hpoint : '.' ∈ token) (h : ∀ encoded, ¬Signed lib cfg token encoded) :
    orFalse (checkSessionToken lib cfg now token) = .ok false := by
  obtain ⟨encoded, signature, rfl, hencoded⟩ := List.eq_append_cons_of_mem hpoint
  rw [checkSessionToken_eq hsecret hencoded]
  cases hsupplied : Base64.urlDecode (Base64.pad signature) with
  | none => rfl
  | some supplied =>
    have hne : lib.hmac (lib.sha256 (Python.encode cfg.appSecret)) (Python.encode encoded) ≠ supplied :=
      fun heq => h encoded ⟨signature, hencoded, rfl, heq ▸ hsupplied⟩
    exact congrArg orFalse (if_pos hne)

/-- With the right signature, the payload is read. -/
theorem check_signed (h : Signed lib cfg token encoded) : checkSessionToken lib cfg now token =
    (do
      let bytes ← orValueError (Base64.urlDecode (Base64.pad encoded))
      let payload ← raising (lib.loads bytes)
      raising (admits now payload)) := by
  obtain ⟨signature, hpoint, rfl, hsignature⟩ := h
  rw [checkSessionToken_eq hsecret hpoint, hsignature]
  exact if_neg (not_not_intro rfl)

/-- What the check of a token may come to. -/
theorem validSessionToken_verdict (now : Rat) (cookie : Option (List Char)) :
    Verdict (SessionAccepted lib cfg now cookie) (SessionSound lib cfg cookie)
      (validSessionToken lib cfg now cookie) := by
  cases cookie with
  | none =>
    refine .refused ?_ ?_
    · rintro ⟨token, -, -, -, heq, -⟩
      cases heq
    · rintro token encoded bytes ⟨⟩
  | some token =>
    by_cases hsigned : ∃ encoded, Signed lib cfg token encoded
    · obtain ⟨encoded, hsigned⟩ := hsigned
      have hpoint : '.' ∈ token := by
        obtain ⟨signature, -, rfl, -⟩ := hsigned
        exact List.mem_append_right _ List.mem_cons_self
      rw [validSessionToken, if_neg (not_not_intro hpoint), check_signed hsecret hsigned]
      cases hbytes : Base64.urlDecode (Base64.pad encoded) with
      | none =>
        refine .refused ?_ ?_
        · rintro ⟨token', encoded', bytes, payload, heq, hsigned', hbytes', -⟩
          obtain rfl := Option.some.inj heq
          rw [hsigned.unique hsigned', hbytes] at hbytes'
          cases hbytes'
        · intro token' encoded' bytes heq hsigned' hbytes'
          obtain rfl := Option.some.inj heq
          rw [hsigned.unique hsigned', hbytes] at hbytes'
          cases hbytes'
      | some bytes =>
        refine (payload_verdict now (lib.loads bytes)).congr ?_ ?_
        · constructor
          · rintro ⟨payload, hloads, hadmitted⟩
            exact ⟨token, encoded, bytes, payload, rfl, hsigned, hbytes, hloads, hadmitted⟩
          · rintro ⟨token', encoded', bytes', payload, heq, hsigned', hbytes', hloads, hadmitted⟩
            obtain rfl := Option.some.inj heq
            rw [hsigned.unique hsigned', hbytes] at hbytes'
            obtain rfl := Option.some.inj hbytes'
            exact ⟨payload, hloads, hadmitted⟩
        · constructor
          · intro hsound token' encoded' bytes' heq hsigned' hbytes'
            obtain rfl := Option.some.inj heq
            rw [hsigned.unique hsigned', hbytes] at hbytes'
            obtain rfl := Option.some.inj hbytes'
            exact hsound
          · exact fun h => h token encoded bytes rfl hsigned hbytes
    · have hfalse : validSessionToken lib cfg now (some token) = .ok false := by
        by_cases hpoint : '.' ∈ token
        · rw [validSessionToken, if_neg (not_not_intro hpoint)]
          exact check_unsigned hsecret hpoint (not_exists.mp hsigned)
        · rw [validSessionToken, if_pos hpoint]
      rw [hfalse]
      refine .refused ?_ ?_
      · rintro ⟨token', encoded, -, -, heq, hsigned', -⟩
        obtain rfl := Option.some.inj heq
        exact hsigned ⟨encoded, hsigned'⟩
      · intro token' encoded bytes heq hsigned'
        obtain rfl := Option.some.inj heq
        exact absurd ⟨encoded, hsigned'⟩ hsigned

end Checked

end Tokens

/-! ## A token that is made -/

/-- The payload as it is read back. -/
def sessionPayload (exp : Int) (nonce : List UInt8) : Json :=
  .dict [("user".toList, .str "admin".toList), ("exp".toList, .int exp),
    ("nonce".toList, .str (tokenHex nonce))]

section Create

variable {lib : Library} {cfg : Settings} {now : Rat} {nonce : List UInt8} {token : List Char}

variable (hsecret : 24 ≤ cfg.appSecret.length)

include hsecret

theorem createSessionToken_eq {payload : List Char}
    (hdumps : dumps (Python.truncate now + cfg.sessionMaxAge) nonce = .ok payload) :
    let encoded := Base64.strip (Base64.urlEncode (Python.encode payload))
    createSessionToken lib cfg now nonce = .ok (encoded ++ '.' :: Base64.strip (Base64.urlEncode
      (lib.hmac (lib.sha256 (Python.encode cfg.appSecret)) (Python.encode encoded)))) := by
  simp only [createSessionToken, hdumps, sessionSigningKey_eq hsecret]
  rfl

omit hsecret in
theorem createSessionToken_error (h : ¬Python.Printable (Python.truncate now + cfg.sessionMaxAge)) :
    createSessionToken lib cfg now nonce = .error (.python .valueError) := by
  simp only [createSessionToken, dumps, Python.str, if_neg h]
  rfl

/-- A token is good until its time is over. -/
theorem validSessionToken_create
    (hcreate : createSessionToken lib cfg now nonce = .ok token)
    (hloads : ∀ text, dumps (Python.truncate now + cfg.sessionMaxAge) nonce = .ok text →
      lib.loads (Python.encode text) =
        .ok (sessionPayload (Python.truncate now + cfg.sessionMaxAge) nonce)) (later : Rat) :
    validSessionToken lib cfg later (some token) =
      .ok (Python.truncate later < Python.truncate now + cfg.sessionMaxAge) := by
  cases hdumps : dumps (Python.truncate now + cfg.sessionMaxAge) nonce with
  | error e =>
    rw [createSessionToken, hdumps] at hcreate
    cases hcreate
  | ok payload =>
    rw [createSessionToken_eq hsecret hdumps] at hcreate
    obtain rfl := Except.ok.inj hcreate
    have hpoint := Base64.point_not_mem_strip (Python.encode payload)
    rw [validSessionToken, if_neg (not_not_intro (List.mem_append_right _ List.mem_cons_self)),
      check_signed hsecret ⟨_, hpoint, rfl, Base64.urlDecode_pad _⟩, Base64.urlDecode_pad]
    show orFalse (raising (lib.loads (Python.encode payload)) >>= _) = _
    rw [hloads payload hdumps]
    show orFalse (raising (admits later (sessionPayload _ nonce))) = _
    rw [sessionPayload, admits_of_user rfl]
    rfl

end Create

/-! ## Decisions -/

/-- The name and the password of the administrator. -/
def Settings.admin (cfg : Settings) : Credentials := ⟨"admin".toList, cfg.adminPassword⟩

/-- The comparisons raise nothing. -/
def Comparable (cfg : Settings) (given : Credentials) : Prop :=
  Utf8.isAscii given.username = true ∧ Utf8.isAscii given.password = true ∧
    Utf8.isAscii cfg.adminPassword = true

section Decisions

variable {lib : Library} {cfg : Settings} {now : Rat} {given : Credentials}

theorem decides_ok {α : Type} {a : α} {accepted : Prop} (h : accepted) : Decides (.ok a) accepted :=
  .inl ⟨h, a, rfl⟩

theorem decides_unauthorized {α : Type} {detail : String} {headers : List (String × String)}
    {accepted : Prop} (h : ¬accepted) :
    Decides (.error (.http 401 detail headers) : Except Failure α) accepted :=
  .inr ⟨h, detail, headers, rfl⟩

/-- An exception that is let through decides nothing. -/
theorem not_decides_python {α : Type} {e : Exc} {accepted : Prop} :
    ¬Decides (.error (.python e) : Except Failure α) accepted := by
  rintro (⟨-, a, h⟩ | ⟨-, detail, headers, h⟩)
  · cases h
  · cases h

/-- Both comparisons are made, whatever comes of the first one. -/
theorem compare_comparable {α : Type} (h : Comparable cfg given) (next : Bool → Bool → Except Failure α) :
    (do
      let validUser ← raising (Python.compareDigest given.username "admin".toList)
      let validPassword ← raising (Python.compareDigest given.password cfg.adminPassword)
      next validUser validPassword) =
      next (given.username = "admin".toList) (given.password = cfg.adminPassword) := by
  obtain ⟨husername, hpassword, hadmin⟩ := h
  rw [Python.compareDigest_ascii husername (by decide), Python.compareDigest_ascii hpassword hadmin]
  rfl

theorem compare_not_comparable {α : Type} (h : ¬Comparable cfg given)
    (next : Bool → Bool → Except Failure α) :
    (do
      let validUser ← raising (Python.compareDigest given.username "admin".toList)
      let validPassword ← raising (Python.compareDigest given.password cfg.adminPassword)
      next validUser validPassword) = .error (.python .typeError) := by
  by_cases husername : Utf8.isAscii given.username = true
  · rw [Python.compareDigest_ascii husername (by decide),
      Python.compareDigest_error fun hboth => h ⟨husername, hboth⟩]
    rfl
  · rw [Python.compareDigest_error fun hboth => husername hboth.1]
    rfl

theorem eq_admin_iff : given = cfg.admin ↔
    (decide (given.username = "admin".toList) && decide (given.password = cfg.adminPassword)) = true := by
  rw [Bool.and_eq_true, decide_eq_true_eq, decide_eq_true_eq]
  exact ⟨fun h => h ▸ ⟨rfl, rfl⟩, fun ⟨husername, hpassword⟩ => by
    obtain ⟨username, password⟩ := given
    exact congrArg₂ Credentials.mk husername hpassword⟩

variable (hsecret : 24 ≤ cfg.appSecret.length) (hpassword : cfg.adminPassword ≠ [])

include hsecret hpassword

/-- A session that is sound decides by itself; otherwise the credentials must be comparable. -/
theorem requireAuth_decides_iff (cookie : Option (List Char)) (credentials : Option Credentials) :
    Decides (requireAuth lib cfg now cookie credentials)
        (SessionAccepted lib cfg now cookie ∨ credentials = some cfg.admin) ↔
      SessionSound lib cfg cookie ∧ (¬SessionAccepted lib cfg now cookie →
        ∀ given, credentials = some given → Comparable cfg given) := by
  have hverdict : Verdict _ _ (validSessionToken lib cfg now cookie) :=
    validSessionToken_verdict hsecret now cookie
  rw [requireAuth, if_neg hpassword]
  show Decides (validSessionToken lib cfg now cookie >>= _) _ ↔ _
  generalize validSessionToken lib cfg now cookie = outcome at hverdict
  cases hverdict with
  | admitted haccepted hsound =>
    exact iff_of_true (decides_ok (.inl haccepted)) ⟨hsound, fun h => absurd haccepted h⟩
  | raised e haccepted hsound =>
    exact iff_of_false not_decides_python fun h => hsound h.1
  | refused haccepted hsound =>
    cases credentials with
    | none =>
      have hnone : ¬(SessionAccepted lib cfg now cookie ∨ (none : Option Credentials) = some cfg.admin) := by
        rintro (h | h)
        · exact haccepted h
        · cases h
      exact iff_of_true (decides_unauthorized hnone) ⟨hsound, by rintro - given ⟨⟩⟩
    | some given =>
      have haccept : (SessionAccepted lib cfg now cookie ∨ some given = some cfg.admin) ↔
          given = cfg.admin := by
        rw [or_iff_right haccepted, Option.some.injEq]
      rw [haccept]
      by_cases hcomparable : Comparable cfg given
      · refine iff_of_true ?_ ⟨hsound, by rintro - _ ⟨⟩; exact hcomparable⟩
        show Decides (do
          let validUser ← raising (Python.compareDigest given.username "admin".toList)
          let validPassword ← raising (Python.compareDigest given.password cfg.adminPassword)
          if !(validUser && validPassword) then
            throw (.http 401 "Authentication required" [("WWW-Authenticate", "Basic")])) _
        rw [compare_comparable hcomparable, eq_admin_iff]
        cases decide (given.username = "admin".toList) && decide (given.password = cfg.adminPassword) with
        | true => exact decides_ok rfl
        | false => exact decides_unauthorized Bool.false_ne_true
      · refine iff_of_false ?_ fun h => hcomparable (h.2 haccepted given rfl)
        show ¬Decides (do
          let validUser ← raising (Python.compareDigest given.username "admin".toList)
          let validPassword ← raising (Python.compareDigest given.password cfg.adminPassword)
          if !(validUser && validPassword) then
            throw (.http 401 "Authentication required" [("WWW-Authenticate", "Basic")])) _
        rw [compare_not_comparable hcomparable]
        exact not_decides_python

omit hsecret in
theorem login_eq (nonce : List UInt8) (loginData : Credentials) :
    login lib cfg now nonce loginData = (do
      let validUser ← raising (Python.compareDigest loginData.username "admin".toList)
      let validPassword ← raising (Python.compareDigest loginData.password cfg.adminPassword)
      if validUser && validPassword then
        (createSessionToken lib cfg now nonce).map (loginResponse cfg)
      else .error (.http 401 "Napačno uporabniško ime ali geslo" [])) := by
  rw [login]
  cases Python.compareDigest loginData.username "admin".toList with
  | error e => rfl
  | ok validUser =>
    refine (if_neg hpassword).trans ?_
    cases Python.compareDigest loginData.password cfg.adminPassword with
    | error e => rfl
    | ok validPassword =>
      show (if (!(validUser && validPassword)) = true then _ else _) =
        if (validUser && validPassword) = true then _ else _
      cases validUser && validPassword with
      | false => rfl
      | true => cases createSessionToken lib cfg now nonce <;> rfl

/-- The right pair is also given a token. -/
theorem login_decides_iff (nonce : List UInt8) (loginData : Credentials) :
    Decides (login lib cfg now nonce loginData) (loginData = cfg.admin) ↔
      Comparable cfg loginData ∧ (loginData = cfg.admin →
        Python.Printable (Python.truncate now + cfg.sessionMaxAge)) := by
  rw [login_eq hpassword]
  by_cases hcomparable : Comparable cfg loginData
  · rw [compare_comparable hcomparable fun validUser validPassword => if validUser && validPassword then
      (createSessionToken lib cfg now nonce).map (loginResponse cfg) else _]
    by_cases hadmin : loginData = cfg.admin
    · rw [if_pos (eq_admin_iff.mp hadmin)]
      by_cases hprintable : Python.Printable (Python.truncate now + cfg.sessionMaxAge)
      · have hdumps : ∃ payload, dumps (Python.truncate now + cfg.sessionMaxAge) nonce = .ok payload := by
          rw [dumps, Python.str, if_pos hprintable]
          exact ⟨_, rfl⟩
        obtain ⟨payload, hdumps⟩ := hdumps
        rw [createSessionToken_eq hsecret hdumps]
        exact iff_of_true (decides_ok hadmin) ⟨hcomparable, fun _ => hprintable⟩
      · rw [createSessionToken_error hprintable]
        exact iff_of_false not_decides_python fun h => hprintable (h.2 hadmin)
    · rw [if_neg fun h => hadmin (eq_admin_iff.mpr h)]
      exact iff_of_true (decides_unauthorized hadmin) ⟨hcomparable, fun h => absurd h hadmin⟩
  · rw [compare_not_comparable hcomparable fun validUser validPassword =>
      if validUser && validPassword then
        (createSessionToken lib cfg now nonce).map (loginResponse cfg) else _]
    exact iff_of_false not_decides_python fun h => hcomparable h.1

end Decisions

/-- With a secret and a password that are set: `require_auth` decides as it should exactly when the
session is sound and, without a session, what is compared is ASCII; `login` exactly when what is
compared is ASCII and the time of the new token can be written. A token is good until its time
is over. -/
theorem auth_decides_iff (lib : Library) (cfg : Settings) (hsecret : 24 ≤ cfg.appSecret.length)
    (hpassword : cfg.adminPassword ≠ []) :
    (∀ now cookie credentials,
      Decides (requireAuth lib cfg now cookie credentials)
          (SessionAccepted lib cfg now cookie ∨ credentials = some cfg.admin) ↔
        SessionSound lib cfg cookie ∧ (¬SessionAccepted lib cfg now cookie →
          ∀ given, credentials = some given → Comparable cfg given)) ∧
    (∀ now nonce loginData,
      Decides (login lib cfg now nonce loginData) (loginData = cfg.admin) ↔
        Comparable cfg loginData ∧ (loginData = cfg.admin →
          Python.Printable (Python.truncate now + cfg.sessionMaxAge))) ∧
    ∀ start nonce token,
      createSessionToken lib cfg start nonce = .ok token →
      (∀ text, dumps (Python.truncate start + cfg.sessionMaxAge) nonce = .ok text →
        lib.loads (Python.encode text) =
          .ok (sessionPayload (Python.truncate start + cfg.sessionMaxAge) nonce)) →
      ∀ now, validSessionToken lib cfg now (some token) =
        .ok (Python.truncate now < Python.truncate start + cfg.sessionMaxAge) :=
  ⟨fun _ => requireAuth_decides_iff hsecret hpassword, fun _ => login_decides_iff hsecret hpassword,
    fun _ _ _ => validSessionToken_create hsecret⟩

/-- Library functions that read one payload. -/
def oneSession (exp : Int) (nonce : List UInt8) : Library where
  sha256 := id
  hmac key message := key ++ message
  loads bytes := do
    let text ← dumps exp nonce
    if bytes = Python.encode text then .ok (sessionPayload exp nonce) else .error .valueError

def someSettings : Settings where
  appSecret := "twenty-four characters or more".toList
  adminPassword := "pa55".toList
  sessionMaxAge := 3600
  cookieSecure := false

/-- A token of an hour, before and after its end. -/
theorem auth_decides_iff_hour : ∃ token,
    createSessionToken (oneSession 3700 [0xAB]) someSettings 100 [0xAB] = .ok token ∧
    validSessionToken (oneSession 3700 [0xAB]) someSettings 3699 (some token) = .ok true ∧
    validSessionToken (oneSession 3700 [0xAB]) someSettings 3700 (some token) = .ok false := by
  obtain ⟨-, -, hsession⟩ :=
    auth_decides_iff (oneSession 3700 [0xAB]) someSettings (by decide) (by decide)
  have hexp : Python.truncate 100 + someSettings.sessionMaxAge = 3700 := by decide
  have hloads : ∀ text, dumps 3700 [0xAB] = .ok text →
      (oneSession 3700 [0xAB]).loads (Python.encode text) = .ok (sessionPayload 3700 [0xAB]) := by
    intro text hdumps
    simp only [oneSession, hdumps]
    exact if_pos rfl
  obtain ⟨token, hcreate⟩ : ∃ token,
      createSessionToken (oneSession 3700 [0xAB]) someSettings 100 [0xAB] = .ok token := ⟨_, rfl⟩
  have hvalid := hsession 100 [0xAB] token hcreate (hexp ▸ hloads)
  exact ⟨token, hcreate, hvalid 3699, hvalid 3700⟩

/-- A password with a letter that is not ASCII. -/
def otherPassword : Settings := { someSettings with adminPassword := "geslo-č".toList }

/-- The comparison raises a `TypeError`: in `login` for a name that is not ASCII, and in
`require_auth` for every pair when `ADMIN_PASSWORD` is not. -/
theorem auth_not_always_decides :
    ¬Decides (login (oneSession 3700 []) someSettings 100 [] ⟨"é".toList, "pa55".toList⟩)
      ((⟨"é".toList, "pa55".toList⟩ : Credentials) = someSettings.admin) ∧
    ¬Decides (requireAuth (oneSession 3700 []) otherPassword 100 none
        (some ⟨"admin".toList, "pa55".toList⟩))
      (SessionAccepted (oneSession 3700 []) otherPassword 100 none ∨
        (some ⟨"admin".toList, "pa55".toList⟩ : Option Credentials) = some otherPassword.admin) :=
  ⟨not_decides_python, not_decides_python⟩

end DahuaBridge
