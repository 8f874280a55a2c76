import DahuaBridge.Http.Message

/-!
# Rewriting HTTP responses

`replace_url_authorities`, `normalize_no_profile_delete_response` and
`rewrite_http_response` of `rust-engine/src/process.rs`.

* `replaceUrlAuthorities_eq`: the loops are token rewritings, one after the other.
* `httpRule_lawful`, `rtspRule_lawful`, `compatible_rules`: they are such that one more byte can be
  told from the result.
* `assemble_inj`: the same header with different bodies gives different responses.
* `infix_assemble_iff`: where a text can stand in a response.
* `isNoProfile_iff`: the fault is recognised by its bytes.
-/

namespace DahuaBridge

structure HttpRewriteConfig where
  host : String
  onvifPort : UInt16
  rtspPort : UInt16

/-! ## Addresses -/

/-- What ends an authority: slash, blank, line ends, quotes, angle brackets. -/
def isAuthorityEnd (b : UInt8) : Bool :=
  b.toNat ∈ [0x2F, 0x20, 0x0D, 0x0A, 0x22, 0x27, 0x3C, 0x3E]

/-- `u8::is_ascii_digit`. -/
def isAsciiDigit (b : UInt8) : Bool := 48 ≤ b.toNat && b.toNat ≤ 57

/-- `original_host`: behind the last `@`, before the first `:` there. -/
def originalHost (authority : Bytes) : Bytes :=
  let afterUser := (authority.reverse.takeWhile (· != '@'.toUInt8)).reverse
  afterUser.takeWhile (· != ':'.toUInt8)

/-- `ipv4_literal || localhost`. -/
def isLocalHost (host : Bytes) : Bool :=
  let ipv4Literal := host.all (fun b => isAsciiDigit b || b == '.'.toUInt8) &&
    host.count '.'.toUInt8 == 3
  let localhost := eqIgnoreAsciiCase host (asBytes "localhost")
  ipv4Literal || localhost

/-- `windows(prefix.len()).position(|window| window.eq_ignore_ascii_case(prefix))`, as the
tests for the letters of the prefix. -/
def schemeMarker (scheme : Bytes) : List (UInt8 → Bool) :=
  scheme.map fun b a => asciiLower a == asciiLower b

/-- The `while` loop of `replace_url_authorities` for one prefix. The fuel counts the
turns that are left. -/
def replaceLoop (scheme authority : Bytes) : Nat → Nat → Bytes → Bytes
  | 0, _, output => output
  | fuel + 1, searchFrom, output =>
    if searchFrom + scheme.length < output.length then
      match Tokens.position (schemeMarker scheme) (output.drop searchFrom) with
      | none => output
      | some relative =>
        let start := searchFrom + relative + scheme.length
        let stop := start + (output.drop start).findIdx isAuthorityEnd
        let originalAuthority := (output.take stop).drop start
        if isLocalHost (originalHost originalAuthority) then
          replaceLoop scheme authority fuel (start + authority.length)
            (output.take start ++ authority ++ output.drop stop)
        else replaceLoop scheme authority fuel stop output
    else output

/-- `format!("{}:{}", host, port)`. -/
def authority (host : String) (port : UInt16) : Bytes :=
  asBytes (host ++ ":" ++ toString port.toNat)

/-- One turn of the `for` loop, with a prefix and its authority. -/
def replaceScheme (output : Bytes) (entry : Bytes × Bytes) : Bytes :=
  replaceLoop entry.1 entry.2 output.length 0 output

def replaceUrlAuthorities (data : Bytes) (config : HttpRewriteConfig) : Bytes :=
  [(asBytes "http://", authority config.host config.onvifPort),
    (asBytes "rtsp://", authority config.host config.rtspPort)].foldl replaceScheme data

/-! ## Responses -/

/-- The two texts of a fault that says that the profile does not exist. -/
def isNoProfile (data : Bytes) : Bool :=
  let text := Utf8.lossy data
  Text.contains "Profile token does not exist".toList text &&
    Text.contains "ter:NoProfile".toList text

def deleteProfileBody : Bytes :=
  asBytes "<?xml version=\"1.0\" encoding=\"utf-8\" standalone=\"yes\" ?>" ++
    asBytes "<s:Envelope xmlns:s=\"http://www.w3.org/2003/05/soap-envelope\">" ++
    asBytes "<s:Body><DeleteProfileResponse " ++
    asBytes "xmlns=\"http://www.onvif.org/ver10/media/wsdl\"/>" ++ asBytes "</s:Body></s:Envelope>"

/-- The answer that stands in for the fault. -/
def deleteProfileAnswer : Bytes :=
  asBytes "HTTP/1.1 200 OK\r\n" ++ asBytes "Content-Type: application/soap+xml; charset=utf-8\r\n" ++
    asBytes "Connection: close\r\nContent-Length: " ++ asBytes (toString deleteProfileBody.length) ++
    asBytes "\r\n\r\n" ++ deleteProfileBody

def normalizeNoProfileDeleteResponse (data : Bytes) : Bytes :=
  if isNoProfile data then deleteProfileAnswer else data

/-- `str::split("\r\n")`. -/
def splitCrlf : List Char → List (List Char)
  | [] => [[]]
  | '\r' :: '\n' :: text => [] :: splitCrlf text
  | c :: text => (splitCrlf text).modifyHead (c :: ·)

/-- `[String]::join("\r\n")`. -/
def joinCrlf : List (List Char) → List Char
  | [] => []
  | [line] => line
  | line :: rest => line ++ '\r' :: '\n' :: joinCrlf rest

/-- `line.to_ascii_lowercase().starts_with("content-length:")`. -/
def isContentLength (line : List Char) : Bool :=
  "content-length:".toList.isPrefixOf (line.map Char.toLower)

/-- `format!("Content-Length: {}", body.len())`. -/
def contentLengthLine (length : Nat) : List Char :=
  ("Content-Length: " ++ toString length).toList

/-- `header_lines`: every length is replaced, and one is added if there is none. -/
def headerLines (headerText : List Char) (length : Nat) : List (List Char) :=
  let replaced := (splitCrlf headerText).map fun line =>
    if isContentLength line then contentLengthLine length else line
  if (splitCrlf headerText).any isContentLength then replaced
  else replaced ++ [contentLengthLine length]

/-- The response that is made of a header and a body. -/
def assemble (headerText : List Char) (body : Bytes) : Bytes :=
  encode (joinCrlf (headerLines headerText body.length)) ++ asBytes "\r\n\r\n" ++ body

def rewriteHttpResponse (data : Bytes) (config : HttpRewriteConfig) : Bytes :=
  match headerEnd data with
  | none => normalizeNoProfileDeleteResponse (replaceUrlAuthorities data config)
  | some headerEnd =>
    assemble (Utf8.lossy (data.take headerEnd))
      (replaceUrlAuthorities (data.drop (headerEnd + 4)) config)

/-! ## The loops rewrite tokens -/

/-- What one loop looks for, and what it puts in the place of it. -/
def authorityRule (scheme authority : Bytes) : Tokens.Rule UInt8 where
  marker := schemeMarker scheme
  delim := isAuthorityEnd
  test := fun token => isLocalHost (originalHost token)
  substitute := authority

def httpRule (config : HttpRewriteConfig) : Tokens.Rule UInt8 :=
  authorityRule (asBytes "http://") (authority config.host config.onvifPort)

def rtspRule (config : HttpRewriteConfig) : Tokens.Rule UInt8 :=
  authorityRule (asBytes "rtsp://") (authority config.host config.rtspPort)

section Loop

variable {scheme authority output : Bytes} {searchFrom : Nat}

theorem length_schemeMarker (scheme : Bytes) : (schemeMarker scheme).length = scheme.length :=
  List.length_map _

/-- From its position on, the loop rewrites what is left. -/
theorem replaceLoop_eq (hscheme : scheme ≠ []) (fuel : Nat) (h : searchFrom ≤ output.length) :
    replaceLoop scheme authority fuel searchFrom output = output.take searchFrom ++
      Tokens.rewrite (authorityRule scheme authority) fuel (output.drop searchFrom) := by
  induction fuel generalizing searchFrom output with
  | zero => exact (List.take_append_drop searchFrom output).symm
  | succ fuel ih =>
    have hmarker : (authorityRule scheme authority).marker = schemeMarker scheme := rfl
    have hdelim : (authorityRule scheme authority).delim = isAuthorityEnd := rfl
    have hlength : (output.drop searchFrom).length ≤ scheme.length ↔
        ¬searchFrom + scheme.length < output.length := by
      rw [List.length_drop]
      omega
    rw [replaceLoop, Tokens.rewrite, hmarker, length_schemeMarker, hdelim]
    by_cases hmore : searchFrom + scheme.length < output.length
    · rw [if_pos hmore, if_neg (fun hle => hlength.mp hle hmore)]
      cases hposition : Tokens.position (schemeMarker scheme) (output.drop searchFrom) with
      | none => exact (List.take_append_drop searchFrom output).symm
      | some relative =>
        have hle := Tokens.position_add_length_le
          (by rwa [schemeMarker, Ne, List.map_eq_nil_iff]) hposition
        rw [length_schemeMarker, List.length_drop] at hle
        obtain ⟨start, hstart⟩ : ∃ start, start = searchFrom + (relative + scheme.length) := ⟨_, rfl⟩
        have hbefore : output.take searchFrom ++
            (output.drop searchFrom).take (relative + scheme.length) = output.take start := by
          rw [hstart]
          exact List.take_add.symm
        have hafter : (output.drop searchFrom).drop (relative + scheme.length) = output.drop start := by
          rw [hstart, List.drop_drop]
        have htoken : (output.drop start).takeWhile (!isAuthorityEnd ·) =
            (output.drop start).take ((output.drop start).findIdx isAuthorityEnd) := by
          simp only [List.takeWhile_eq_take_findIdx_not, Bool.not_not]
        have hrest : (output.drop start).dropWhile (!isAuthorityEnd ·) =
            output.drop (start + (output.drop start).findIdx isAuthorityEnd) := by
          simp only [List.dropWhile_eq_drop_findIdx_not, Bool.not_not, List.drop_drop]
        have hstop : (output.drop start).findIdx isAuthorityEnd ≤ output.length - start :=
          List.length_drop ▸ List.findIdx_le_length
        simp only [hafter, htoken, hrest, Nat.add_assoc searchFrom, ← hstart, List.drop_take,
          Nat.add_sub_cancel_left]
        rw [← List.append_assoc, ← List.append_assoc, hbefore]
        split
        · next hlocal =>
          have hwritten : (output.take start ++ authority).length = start + authority.length := by
            rw [List.length_append, List.length_take_of_le (by omega)]
          have hsubstitute : (authorityRule scheme authority).substitute = authority := rfl
          rw [Tokens.Rule.replace_of_true hlocal, ih, List.take_left' hwritten,
            List.drop_left' hwritten, hsubstitute]
          rw [List.length_append, hwritten]
          exact Nat.le_add_right ..
        · next hforeign =>
          rw [Tokens.Rule.replace_of_false (Bool.eq_false_iff.mpr hforeign), ih, List.take_add]
          omega
    · rw [if_neg hmore, if_pos (hlength.mpr hmore)]
      exact (List.take_append_drop searchFrom output).symm

theorem replaceScheme_eq (hscheme : scheme ≠ []) (data : Bytes) :
    replaceScheme data (scheme, authority) = (authorityRule scheme authority).apply data :=
  replaceLoop_eq hscheme data.length (Nat.zero_le _)

/-- The two loops are two rewritings. -/
theorem replaceUrlAuthorities_eq (data : Bytes) (config : HttpRewriteConfig) :
    replaceUrlAuthorities data config = (rtspRule config).apply ((httpRule config).apply data) := by
  rw [replaceUrlAuthorities, List.foldl_cons, List.foldl_cons, List.foldl_nil,
    replaceScheme_eq (by decide), replaceScheme_eq (by decide)]
  rfl

end Loop

/-! ## The host of an authority -/

section Host

variable {host user port : Bytes}

theorem takeWhile_append_cons {p : UInt8 → Bool} {b : UInt8} (hb : p b = false) (before after : Bytes) :
    (before ++ b :: after).takeWhile p = before.takeWhile p := by
  induction before with
  | nil => rw [List.nil_append, List.takeWhile_cons, hb, List.takeWhile_nil]; rfl
  | cons c before ih => rw [List.cons_append, List.takeWhile_cons, List.takeWhile_cons, ih]

/-- A port does not belong to the host. -/
theorem originalHost_port (host : Bytes) (hport : '@'.toUInt8 ∉ port) :
    originalHost (host ++ ':'.toUInt8 :: port) = originalHost host := by
  have huser : ((host ++ ':'.toUInt8 :: port).reverse.takeWhile (· != '@'.toUInt8)).reverse =
      (host.reverse.takeWhile (· != '@'.toUInt8)).reverse ++ ':'.toUInt8 :: port := by
    have hcolon : (':'.toUInt8 != '@'.toUInt8) = true := by decide
    have hpass : ∀ b ∈ port.reverse, (b != '@'.toUInt8) = true := by
      intro b hb
      exact bne_iff_ne.mpr fun heq => hport (heq ▸ List.mem_reverse.mp hb)
    rw [List.reverse_append, List.reverse_cons, List.append_assoc,
      List.takeWhile_append_of_pos hpass, List.singleton_append, List.takeWhile_cons, hcolon,
      if_pos rfl, List.reverse_append, List.reverse_cons, List.reverse_reverse, List.append_assoc,
      List.singleton_append]
  rw [originalHost, huser]
  exact takeWhile_append_cons (by decide) _ _

/-- Behind an `@` the host starts again. -/
theorem originalHost_at (user : Bytes) : originalHost (user ++ ['@'.toUInt8]) = [] := by
  rw [originalHost, List.reverse_append]
  rfl

theorem length_originalHost_le (authority : Bytes) :
    (originalHost authority).length ≤ authority.length := by
  have hhost := (List.takeWhile_sublist (· != ':'.toUInt8)
    (l := (authority.reverse.takeWhile (· != '@'.toUInt8)).reverse)).length_le
  have huser := (List.takeWhile_sublist (· != '@'.toUInt8) (l := authority.reverse)).length_le
  rw [List.length_reverse] at hhost huser
  exact Nat.le_trans hhost huser

/-- A short host is no address. -/
theorem isLocalHost_short (h : host.length < 3) : isLocalHost host = false := by
  have hdots : (host.count '.'.toUInt8 == 3) = false :=
    beq_eq_false_iff_ne.mpr (Nat.ne_of_lt (Nat.lt_of_le_of_lt List.count_le_length h))
  have hname : eqIgnoreAsciiCase host (asBytes "localhost") = false := by
    refine beq_eq_false_iff_ne.mpr fun heq => ?_
    have hlength := congrArg List.length heq
    have hnine : (asBytes "localhost").length = 9 := by decide
    rw [List.length_map, List.length_map, hnine] at hlength
    omega
  rw [isLocalHost, hdots, hname, Bool.and_false, Bool.or_false]

end Host

/-! ## The rules are lawful -/

/-- The decimal digits of a number. -/
def decimal (n : Nat) : Bytes := encode (Nat.toDigits 10 n)

theorem decimal_ne_nil (n : Nat) : decimal n ≠ [] := by
  rw [decimal, encode_ascii (Text.toDigits_ascii n), Ne, List.map_eq_nil_iff]
  exact Nat.toDigits_ne_nil

theorem isAsciiDigit_of_mem_decimal {n : Nat} {b : UInt8} (h : b ∈ decimal n) :
    isAsciiDigit b = true := by
  rw [decimal, encode_ascii (Text.toDigits_ascii n)] at h
  obtain ⟨c, hc, rfl⟩ := List.mem_map.mp h
  obtain ⟨hlow, hhigh⟩ := Text.isDigit_bounds (Text.isDigit_toDigits n c hc)
  rw [isAsciiDigit, Utf8.toNat_toUInt8 (Text.toDigits_ascii n c hc), decide_eq_true hlow,
    decide_eq_true hhigh, Bool.and_self]

theorem authority_eq (host : String) (port : UInt16) :
    authority host port = asBytes host ++ ':'.toUInt8 :: decimal port.toNat := by
  have htext : (host ++ ":" ++ toString port.toNat).toList =
      host.toList ++ ([':'] ++ Nat.toDigits 10 port.toNat) := by
    rw [String.toList_append, String.toList_append, List.append_assoc]
    congr 2
    exact Nat.toList_repr
  have hcolon : encode [':'] = [':'.toUInt8] := by decide
  rw [authority]
  show encode (host ++ ":" ++ toString port.toNat).toList = _
  rw [htext, encode_append, encode_append, hcolon, List.singleton_append]
  rfl

theorem isAsciiDigit_iff {b : UInt8} : isAsciiDigit b = true ↔ 48 ≤ b.toNat ∧ b.toNat ≤ 57 := by
  rw [isAsciiDigit, Bool.and_eq_true, decide_eq_true_eq, decide_eq_true_eq]

theorem isAuthorityEnd_of_digit {b : UInt8} (h : isAsciiDigit b = true) : isAuthorityEnd b = false := by
  have hbounds := isAsciiDigit_iff.mp h
  simp only [isAuthorityEnd, List.mem_cons, List.not_mem_nil, or_false, decide_eq_false_iff_not]
  omega

theorem at_not_mem {digits : Bytes} (h : ∀ b ∈ digits, isAsciiDigit b = true) : '@'.toUInt8 ∉ digits :=
  fun hmem => absurd (h _ hmem) (by decide)

section Lawful

variable {scheme host digits : Bytes}

/-- A byte more decides about an authority only if what it leaves is not the bridge's
own, and the other way round. -/
theorem replace_authority_ne (hne : digits ≠ []) (hdigits : ∀ b ∈ digits, isAsciiDigit b = true)
    (token : Bytes) (a : UInt8)
    (h : isLocalHost (originalHost token) ≠ isLocalHost (originalHost (token ++ [a]))) :
    (authorityRule scheme (host ++ ':'.toUInt8 :: digits)).replace token ≠
      (authorityRule scheme (host ++ ':'.toUInt8 :: digits)).replace (token ++ [a]) := by
  have hport := at_not_mem hdigits
  cases htest : isLocalHost (originalHost token) with
  | true =>
    have hlonger : isLocalHost (originalHost (token ++ [a])) = false :=
      Bool.eq_false_iff.mpr fun hlonger => h (htest.trans hlonger.symm)
    rw [Tokens.Rule.replace_of_true htest, Tokens.Rule.replace_of_false hlonger]
    -- the token would be the bridge's own address without its last digit
    show host ++ ':'.toUInt8 :: digits ≠ token ++ [a]
    intro heq
    rcases List.eq_nil_or_concat' digits with rfl | ⟨start, d, rfl⟩
    · exact hne rfl
    · have hsplit : host ++ ':'.toUInt8 :: (start ++ [d]) = (host ++ ':'.toUInt8 :: start) ++ [d] := by
        rw [List.append_assoc, List.cons_append]
      rw [hsplit] at heq
      obtain ⟨rfl, -⟩ := List.append_inj' heq rfl
      rw [← heq, ← hsplit, originalHost_port host hport,
        originalHost_port host fun hmem => hport (List.mem_append_left _ hmem)] at h
      exact h rfl
  | false =>
    have hlonger : isLocalHost (originalHost (token ++ [a])) = true := by
      cases hlonger : isLocalHost (originalHost (token ++ [a])) with
      | true => rfl
      | false => exact absurd (htest.trans hlonger.symm) h
    rw [Tokens.Rule.replace_of_false htest, Tokens.Rule.replace_of_true hlonger]
    show token ≠ host ++ ':'.toUInt8 :: digits
    rintro rfl
    by_cases hat : a = '@'.toUInt8
    · rw [hat, originalHost_at, isLocalHost_short (by decide)] at hlonger
      cases hlonger
    · rw [List.append_assoc, List.cons_append, originalHost_port host hport,
        originalHost_port host] at h
      · exact h rfl
      · intro hmem
        rcases List.mem_append.mp hmem with hmem | hmem
        · exact hport hmem
        · exact hat (List.mem_singleton.mp hmem).symm

/-- The marker of a scheme that ends in a slash. -/
theorem schemeMarker_concat (start : Bytes) : schemeMarker (start ++ ['/'.toUInt8]) =
    schemeMarker start ++ [fun a => asciiLower a == asciiLower '/'.toUInt8] := List.map_append

theorem isAuthorityEnd_of_slash {a : UInt8}
    (h : (asciiLower a == asciiLower '/'.toUInt8) = true) : isAuthorityEnd a = true := by
  have hslash : asciiLower a = '/'.toUInt8 := eq_of_beq h
  rw [asciiLower] at hslash
  split at hslash
  · next hupper =>
    -- no capital letter has a slash for its small one
    have hvalue := congrArg UInt8.toNat hslash
    rw [UInt8.toNat_add] at hvalue
    change (a.toNat + 32) % 256 = 47 at hvalue
    omega
  · rw [hslash]
    decide

theorem lawful_authorityRule (start : Bytes) (hstart : start ≠ []) (hne : digits ≠ [])
    (hdigits : ∀ b ∈ digits, isAsciiDigit b = true) :
    (authorityRule (start ++ ['/'.toUInt8]) (host ++ ':'.toUInt8 :: digits)).Lawful where
  two_le := by
    have hpos := List.length_pos_iff.mpr hstart
    show 2 ≤ (schemeMarker (start ++ ['/'.toUInt8])).length
    rw [length_schemeMarker, List.length_append, List.length_singleton]
    omega
  marker_delim text a h := by
    rw [show (authorityRule (start ++ ['/'.toUInt8]) (host ++ ':'.toUInt8 :: digits)).marker = _ from
      schemeMarker_concat start] at h
    have hlast := Tokens.endsWith_concat h
    exact isAuthorityEnd_of_slash hlast
  test_nil := by
    show isLocalHost (originalHost []) = false
    exact isLocalHost_short (by decide)
  test_singleton a := isLocalHost_short
    (Nat.lt_of_le_of_lt (length_originalHost_le [a]) (Nat.le_succ 2))
  substitute_plain := by
    rcases List.eq_nil_or_concat' digits with rfl | ⟨before, d, rfl⟩
    · exact absurd rfl hne
    · refine ⟨host ++ ':'.toUInt8 :: before, d, ?_, ?_⟩
      · show host ++ ':'.toUInt8 :: (before ++ [d]) = host ++ ':'.toUInt8 :: before ++ [d]
        rw [List.append_assoc, List.cons_append]
      · exact isAuthorityEnd_of_digit (hdigits d (List.mem_append_right _ List.mem_cons_self))
  replace_ne token a _ h := replace_authority_ne hne hdigits token a h

end Lawful

theorem httpRule_lawful (config : HttpRewriteConfig) : (httpRule config).Lawful := by
  have hscheme : asBytes "http://" = asBytes "http:/" ++ ['/'.toUInt8] := by decide
  rw [httpRule, authority_eq, hscheme]
  exact lawful_authorityRule (asBytes "http:/") (by decide) (decimal_ne_nil _)
    fun b hb => isAsciiDigit_of_mem_decimal hb

theorem rtspRule_lawful (config : HttpRewriteConfig) : (rtspRule config).Lawful := by
  have hscheme : asBytes "rtsp://" = asBytes "rtsp:/" ++ ['/'.toUInt8] := by decide
  rw [rtspRule, authority_eq, hscheme]
  exact lawful_authorityRule (asBytes "rtsp:/") (by decide) (decimal_ne_nil _)
    fun b hb => isAsciiDigit_of_mem_decimal hb

theorem delim_authorityRule (scheme authority : Bytes) :
    (authorityRule scheme authority).delim = isAuthorityEnd := rfl

theorem schemeMarker_cons (b : UInt8) (scheme : Bytes) : schemeMarker (b :: scheme) =
    (fun a => asciiLower a == asciiLower b) :: schemeMarker scheme := rfl

/-- No text ends with both prefixes. -/
theorem compatible_rules (config : HttpRewriteConfig) :
    Tokens.Compatible (httpRule config) (rtspRule config) where
  delim_eq := by rw [rtspRule, httpRule, delim_authorityRule, delim_authorityRule]
  apart text h := by
    have hhttp : asBytes "http://" = 'h'.toUInt8 :: asBytes "ttp://" := by decide
    have hrtsp : asBytes "rtsp://" = 'r'.toUInt8 :: asBytes "tsp://" := by decide
    change Tokens.endsWith (schemeMarker (asBytes "http://")) text = true at h
    show Tokens.endsWith (schemeMarker (asBytes "rtsp://")) text = false
    rw [hhttp, schemeMarker_cons] at h
    rw [hrtsp, schemeMarker_cons]
    refine Tokens.endsWith_apart ?_ (fun a ha => ?_) h
    · rw [length_schemeMarker, length_schemeMarker]
      decide
    · rw [eq_of_beq ha]
      decide

/-! ## The parts of a response -/

section Assemble

variable {headerText : List Char} {line : List Char} {length length' : Nat} {body body' : Bytes}

/-- What takes the place of the old lengths is one line, the others stay. -/
theorem mem_headerLines : line ∈ headerLines headerText length ↔
    (line ∈ splitCrlf headerText ∧ isContentLength line = false) ∨ line = contentLengthLine length := by
  rw [headerLines]
  split
  · next hany =>
    obtain ⟨old, hold, hlength⟩ := List.any_eq_true.mp hany
    rw [List.mem_map]
    constructor
    · rintro ⟨kept, hkept, rfl⟩
      split
      · exact .inr rfl
      · next hother => exact .inl ⟨hkept, Bool.eq_false_iff.mpr hother⟩
    · rintro (⟨hline, hother⟩ | rfl)
      · exact ⟨line, hline, by rw [hother]; rfl⟩
      · exact ⟨old, hold, if_pos hlength⟩
  · next hnone =>
    have hother : ∀ old ∈ splitCrlf headerText, isContentLength old = false := by
      intro old hold
      exact Bool.eq_false_iff.mpr fun hlength => hnone (List.any_eq_true.mpr ⟨old, hold, hlength⟩)
    have hsame : (splitCrlf headerText).map (fun line =>
        if isContentLength line then contentLengthLine length else line) = splitCrlf headerText :=
      (List.map_congr_left fun old hold => if_neg (Bool.eq_false_iff.mp (hother old hold))).trans
        (List.map_id _)
    rw [hsame, List.mem_append, List.mem_singleton]
    exact or_congr_left ⟨fun hline => ⟨hline, hother line hline⟩, And.left⟩

theorem contentLengthLine_eq (length : Nat) :
    contentLengthLine length = "Content-Length: ".toList ++ Nat.toDigits 10 length := by
  rw [contentLengthLine, String.toList_append]
  show _ ++ (Nat.repr length).toList = _
  rw [Nat.toList_repr]

theorem encode_contentLengthLine (length : Nat) :
    encode (contentLengthLine length) = asBytes "Content-Length: " ++ decimal length := by
  rw [contentLengthLine_eq, encode_append]
  rfl

theorem length_decimal_mono (h : length ≤ length') :
    (decimal length).length ≤ (decimal length').length := by
  rw [decimal, decimal, encode_ascii (Text.toDigits_ascii _), encode_ascii (Text.toDigits_ascii _),
    List.length_map, List.length_map, Nat.length_toDigits_le_iff (by decide) Nat.length_toDigits_pos]
  exact Nat.lt_of_le_of_lt h
    ((Nat.length_toDigits_le_iff (by decide) Nat.length_toDigits_pos).mp (Nat.le_refl _))

theorem joinCrlf_cons (line next : List Char) (rest : List (List Char)) :
    joinCrlf (line :: next :: rest) = line ++ '\r' :: '\n' :: joinCrlf (next :: rest) := by
  rw [joinCrlf]
  exact List.cons_ne_nil next rest

theorem encode_joinCrlf_cons (line next : List Char) (rest : List (List Char)) :
    encode (joinCrlf (line :: next :: rest)) =
      encode line ++ '\r'.toUInt8 :: '\n'.toUInt8 :: encode (joinCrlf (next :: rest)) := by
  rw [joinCrlf_cons, encode_append]
  rfl

/-- Longer lines make a longer text. -/
theorem length_joinCrlf_mono {before after : List (List Char)}
    (h : List.Forall₂ (fun line line' => (encode line).length ≤ (encode line').length) before after) :
    (encode (joinCrlf before)).length ≤ (encode (joinCrlf after)).length := by
  induction h with
  | nil => exact Nat.le_refl _
  | cons hline hrest ih =>
    cases hrest with
    | nil => exact hline
    | cons _ _ =>
      rw [encode_joinCrlf_cons, encode_joinCrlf_cons, List.length_append, List.length_append]
      exact Nat.add_le_add hline (Nat.add_le_add_right ih 2)

theorem length_headerLines_mono (headerText : List Char) (h : length ≤ length') :
    (encode (joinCrlf (headerLines headerText length))).length ≤
      (encode (joinCrlf (headerLines headerText length'))).length := by
  have hline : (encode (contentLengthLine length)).length ≤
      (encode (contentLengthLine length')).length := by
    rw [encode_contentLengthLine, encode_contentLengthLine, List.length_append, List.length_append]
    exact Nat.add_le_add_left (length_decimal_mono h) _
  have hreplaced : List.Forall₂ (fun line line' => (encode line).length ≤ (encode line').length)
      ((splitCrlf headerText).map fun line =>
        if isContentLength line then contentLengthLine length else line)
      ((splitCrlf headerText).map fun line =>
        if isContentLength line then contentLengthLine length' else line) := by
    rw [List.forall₂_map_left_iff, List.forall₂_map_right_iff, List.forall₂_same]
    intro line _
    split
    · exact hline
    · exact Nat.le_refl _
  refine length_joinCrlf_mono ?_
  rw [headerLines, headerLines]
  split
  · exact hreplaced
  · exact List.rel_append hreplaced (.cons hline .nil)

theorem length_assemble : (assemble headerText body).length =
    (encode (joinCrlf (headerLines headerText body.length))).length + 4 + body.length := by
  rw [assemble, List.length_append, List.length_append]
  rfl

/-- A longer body makes a longer response. -/
theorem length_assemble_lt (h : body.length < body'.length) :
    (assemble headerText body).length < (assemble headerText body').length := by
  have hheader := length_headerLines_mono headerText (Nat.le_of_lt h)
  rw [length_assemble, length_assemble]
  omega

/-- One header with two bodies makes two responses. -/
theorem assemble_inj : assemble headerText body = assemble headerText body' ↔ body = body' := by
  refine ⟨fun heq => ?_, fun heq => heq ▸ rfl⟩
  rcases Nat.lt_trichotomy body.length body'.length with hlt | hlength | hgt
  · exact absurd (congrArg List.length heq) (Nat.ne_of_lt (length_assemble_lt hlt))
  · rw [assemble, assemble, hlength] at heq
    exact List.append_cancel_left heq
  · exact absurd (congrArg List.length heq).symm (Nat.ne_of_lt (length_assemble_lt hgt))

end Assemble

/-! ## Texts in a response -/

/-- A text that is no part of the lines that the rewriting writes itself: it has no line
ends, and a capital `P`, which they have not. -/
structure Foreign (pattern : Bytes) : Prop where
  no_cr : '\r'.toUInt8 ∉ pattern
  no_lf : '\n'.toUInt8 ∉ pattern
  has_p : 'P'.toUInt8 ∈ pattern

section Foreign

variable {pattern : Bytes} {headerText : List Char} {body : Bytes} (foreign : Foreign pattern)

include foreign

theorem Foreign.ne_nil : pattern ≠ [] := List.ne_nil_of_mem foreign.has_p

theorem infix_joinCrlf_iff {lines : List (List Char)} :
    pattern <:+: encode (joinCrlf lines) ↔ ∃ line ∈ lines, pattern <:+: encode line := by
  induction lines with
  | nil =>
    have hnil : ¬pattern <:+: encode (joinCrlf []) := fun h =>
      foreign.ne_nil (List.infix_nil.mp h)
    simp only [hnil, List.not_mem_nil, false_and, exists_false]
  | cons line rest ih =>
    cases rest with
    | nil => simp only [joinCrlf, List.mem_singleton, exists_eq_left]
    | cons next rest =>
      rw [encode_joinCrlf_cons, Text.infix_append_cons_iff foreign.no_cr, ← List.singleton_append,
        Text.infix_append_iff_of_not_mem foreign.ne_nil, ih, List.exists_mem_cons_iff _ line]
      intro b hb
      exact List.mem_singleton.mp hb ▸ foreign.no_lf

theorem not_infix_contentLengthLine (length : Nat) :
    ¬pattern <:+: encode (contentLengthLine length) := by
  intro h
  have hmem := h.subset foreign.has_p
  rw [encode_contentLengthLine, List.mem_append] at hmem
  rcases hmem with hmem | hmem
  · exact absurd hmem (by decide)
  · exact absurd (isAsciiDigit_of_mem_decimal hmem) (by decide)

/-- A text that stands in a response stands in a line of the old header that is kept, or
in the body. -/
theorem infix_assemble_iff : pattern <:+: assemble headerText body ↔
    (∃ line ∈ splitCrlf headerText, isContentLength line = false ∧ pattern <:+: encode line) ∨
      pattern <:+: body := by
  have hcrlf : asBytes "\r\n\r\n" =
      '\r'.toUInt8 :: ['\n'.toUInt8, '\r'.toUInt8, '\n'.toUInt8] := by decide
  have hbody : pattern <:+: ['\n'.toUInt8, '\r'.toUInt8, '\n'.toUInt8] ++ body ↔ pattern <:+: body := by
    refine Text.infix_append_iff_of_not_mem foreign.ne_nil fun b hb => ?_
    simp only [List.mem_cons, List.not_mem_nil, or_false] at hb
    rcases hb with rfl | rfl | rfl
    · exact foreign.no_lf
    · exact foreign.no_cr
    · exact foreign.no_lf
  rw [assemble, hcrlf, List.append_assoc, List.cons_append,
    Text.infix_append_cons_iff foreign.no_cr, hbody, infix_joinCrlf_iff foreign]
  refine or_congr_left ⟨?_, ?_⟩
  · rintro ⟨line, hline, hinfix⟩
    rcases mem_headerLines.mp hline with ⟨hkept, hother⟩ | rfl
    · exact ⟨line, hkept, hother, hinfix⟩
    · exact absurd hinfix (not_infix_contentLengthLine foreign _)
  · rintro ⟨line, hkept, hother, hinfix⟩
    exact ⟨line, mem_headerLines.mpr (.inl ⟨hkept, hother⟩), hinfix⟩

end Foreign

/-! ## The fault and the answer to it -/

def profileText : Bytes := asBytes "Profile token does not exist"

def faultText : Bytes := asBytes "ter:NoProfile"

theorem foreign_profileText : Foreign profileText := ⟨by decide, by decide, by decide⟩

theorem foreign_faultText : Foreign faultText := ⟨by decide, by decide, by decide⟩

theorem isNoProfile_iff {data : Bytes} :
    isNoProfile data = true ↔ profileText <:+: data ∧ faultText <:+: data := by
  have hprofile : "Profile token does not exist".toList.map Char.toUInt8 = profileText := by decide
  have hfault : "ter:NoProfile".toList.map Char.toUInt8 = faultText := by decide
  rw [isNoProfile, Bool.and_eq_true, Text.contains_iff, Text.contains_iff,
    Utf8.infix_lossy_iff (by decide) (by decide), Utf8.infix_lossy_iff (by decide) (by decide),
    hprofile, hfault]

/-- The answer has none of the texts, and ends with the end of an element. -/
theorem deleteProfileAnswer_spec : Text.contains profileText deleteProfileAnswer = false ∧
    Text.contains faultText deleteProfileAnswer = false ∧
    deleteProfileAnswer.getLast? = some '>'.toUInt8 := by decide +kernel

theorem profileText_not_infix : ¬profileText <:+: deleteProfileAnswer := by
  rw [← Text.contains_iff, deleteProfileAnswer_spec.1]
  exact Bool.false_ne_true

theorem faultText_not_infix : ¬faultText <:+: deleteProfileAnswer := by
  rw [← Text.contains_iff, deleteProfileAnswer_spec.2.1]
  exact Bool.false_ne_true

theorem not_endsPlain_deleteProfileAnswer :
    ¬Tokens.EndsPlain isAuthorityEnd deleteProfileAnswer := by
  rintro ⟨start, b, hanswer, hplain⟩
  have hlast := congrArg List.getLast? hanswer
  rw [List.getLast?_concat, deleteProfileAnswer_spec.2.2, Option.some.injEq] at hlast
  rw [← hlast] at hplain
  exact absurd hplain (by decide)

/-- A text that is new in a response stands at the end of its body. -/
theorem suffix_of_infix_assemble {pattern body : Bytes} {headerText : List Char} {b : UInt8}
    (foreign : Foreign pattern) (h : pattern <:+: assemble headerText (body ++ [b]))
    (hold : ¬pattern <:+: assemble headerText body) : pattern <:+ body ++ [b] := by
  rw [infix_assemble_iff foreign] at h hold
  rcases h with hheader | hbody
  · exact absurd (.inl hheader) hold
  · exact (List.infix_concat_iff.mp hbody).resolve_right fun hbody => hold (.inr hbody)

/-- Both texts of the fault cannot come with one byte: they end in different letters. -/
theorem not_both_suffix {body : Bytes} (hprofile : profileText <:+ body) (hfault : faultText <:+ body) :
    False := by
  have htext := List.suffix_of_suffix_length_le hfault hprofile (by decide)
  exact absurd htext (by decide)

end DahuaBridge
