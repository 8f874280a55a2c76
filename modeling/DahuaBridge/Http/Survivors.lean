import DahuaBridge.Http.Segments
import DahuaBridge.Lib.Runs

/-!
# Addresses that survive the rewriting

`replace_url_authorities` reads an authority up to the next delimiter and goes on behind it. Where
the name of a scheme ends such an authority, as in `http://cam,http://10.0.0.1/`, the second
occurrence is passed over. Of a row of occurrences that stand in each other's authorities, every
other one is.

1. `Scheme.Met`: which occurrences are found, passed over, or gone with a replaced authority.
2. `open_iff`: the passes read the authorities of the occurrences that are found.
3. `survivors_iff`: when no address survives.
-/

namespace DahuaBridge

open Tokens (Closed Plain Ended Open)

/-! ## Occurrences -/

/-- The schemes, in the order of the passes. -/
inductive Scheme
  | http
  | rtsp
  deriving DecidableEq

def Scheme.text : Scheme → Bytes
  | .http => asBytes "http://"
  | .rtsp => asBytes "rtsp://"

/-- The bridge's own authority. -/
def Scheme.own (config : HttpRewriteConfig) : Scheme → Bytes
  | .http => authority config.host config.onvifPort
  | .rtsp => authority config.host config.rtspPort

/-- The scheme ends here, in small or capital letters. -/
def Scheme.Ends (scheme : Scheme) (before : Bytes) : Prop :=
  ∃ start found, before = start ++ found ∧ eqIgnoreAsciiCase found scheme.text = true

/-- The authority is the bridge's own, or its host is neither `localhost` nor an address. -/
def Scheme.Harmless (scheme : Scheme) (config : HttpRewriteConfig) (token : Bytes) : Prop :=
  token = scheme.own config ∨ ¬IsLocal IsLocalhost token

/-- What stands behind any occurrence of a scheme, up to the next delimiter, is harmless. -/
def Rewritten (config : HttpRewriteConfig) (output : Bytes) : Prop :=
  ∀ (scheme : Scheme) (before token rest : Bytes), output = before ++ token ++ rest →
    scheme.Ends before → Plain isAuthorityEnd token → Ended isAuthorityEnd rest →
    scheme.Harmless config token

/-- What becomes of an occurrence: its authority is read, or it is passed over, or it is gone
with the authority that its name stands in. -/
inductive Fate
  | found
  | passed
  | gone
  deriving DecidableEq

/-- The fate of an occurrence whose name ends the authority of another one. -/
def Fate.next (fate : Fate) (outer inner : Scheme) (isLocal : Bool) : Fate :=
  if fate = .found ∧ (outer = inner ∨ outer = .http) then
    if isLocal then .gone else if outer = inner then .passed else .found
  else .found

/-- The fate of the occurrence that ends here. -/
inductive Scheme.Met : Scheme → Fate → Bytes → Prop
  | first {scheme : Scheme} {before : Bytes} : scheme.Ends before →
      (∀ (outer : Scheme) (start token : Bytes), before = start ++ token ++ asBytes "//" →
        Plain isAuthorityEnd token → ¬outer.Ends start) →
      scheme.Met .found before
  | inner {outer scheme : Scheme} {fate : Fate} {start token : Bytes} : outer.Met fate start →
      Plain isAuthorityEnd token → scheme.Ends (start ++ token ++ asBytes "//") →
      scheme.Met (fate.next outer scheme (isLocalHost (originalHost token)))
        (start ++ token ++ asBytes "//")

/-! ## The rules -/

/-- What the pass of a scheme looks for. -/
def Scheme.rule (config : HttpRewriteConfig) (scheme : Scheme) : Tokens.Rule UInt8 :=
  authorityRule scheme.text (scheme.own config)

/-- The scheme without its slashes. -/
def Scheme.name : Scheme → Bytes
  | .http => asBytes "http:"
  | .rtsp => asBytes "rtsp:"

/-- The test for a slash in a marker. -/
def isSlash (a : UInt8) : Bool := asciiLower a == asciiLower '/'.toUInt8

section Rules

variable {config : HttpRewriteConfig} {scheme other : Scheme} {before token found : Bytes} {a : UInt8}

theorem isSlash_iff : isSlash a = true ↔ a = '/'.toUInt8 := by
  constructor
  · intro h
    have hlower : asciiLower a = '/'.toUInt8 := eq_of_beq h
    rw [asciiLower] at hlower
    split at hlower
    · next hupper =>
      have hvalue := congrArg UInt8.toNat hlower
      rw [UInt8.toNat_add] at hvalue
      change (a.toNat + 32) % 256 = 47 at hvalue
      omega
    · exact hlower
  · rintro rfl
    decide

theorem schemeMarker_text (scheme : Scheme) :
    schemeMarker scheme.text = schemeMarker scheme.name ++ [isSlash, isSlash] := by
  have htext : scheme.text = scheme.name ++ ['/'.toUInt8, '/'.toUInt8] := by
    cases scheme <;> decide
  rw [htext]
  exact List.map_append

theorem startsWith_schemeMarker (hlength : found.length = scheme.text.length) :
    Tokens.startsWith (schemeMarker scheme.text) found = true ↔
      eqIgnoreAsciiCase found scheme.text = true := by
  refine ⟨eqIgnoreAsciiCase_of_schemeMarker hlength, fun h => ?_⟩
  generalize scheme.text = text at hlength h
  induction text generalizing found with
  | nil => rfl
  | cons b text ih =>
    cases found with
    | nil => cases hlength
    | cons c found =>
      have heq := eq_of_beq h
      rw [List.map_cons, List.map_cons, List.cons.injEq] at heq
      rw [schemeMarker_cons, Tokens.startsWith, Bool.and_eq_true, beq_iff_eq]
      exact ⟨heq.1, ih (Nat.succ.inj hlength) (beq_iff_eq.mpr heq.2)⟩

theorem ends_iff : scheme.Ends before ↔ Tokens.endsWith (schemeMarker scheme.text) before = true := by
  rw [Tokens.endsWith_iff]
  refine exists_congr fun start => exists_congr fun found => and_congr_right fun _ => ?_
  rw [length_schemeMarker]
  constructor
  · intro h
    have hlength : found.length = scheme.text.length := by
      have hmap := congrArg List.length (eq_of_beq h)
      rwa [List.length_map, List.length_map] at hmap
    exact ⟨hlength, (startsWith_schemeMarker hlength).mpr h⟩
  · rintro ⟨hlength, hstarts⟩
    exact (startsWith_schemeMarker hlength).mp hstarts

/-- A letter of a scheme is no delimiter, in small or capital letters. -/
theorem isName_schemeMarker (scheme : Scheme) :
    Tokens.IsName isAuthorityEnd (schemeMarker scheme.name) where
  ne_nil := by cases scheme <;> decide
  plain test htest b hb := by
    obtain ⟨c, hc, rfl⟩ := List.mem_map.mp htest
    have hlower : asciiLower b = asciiLower c := eq_of_beq hb
    have hall : scheme.name.all (fun c => !isAuthorityEnd (asciiLower c)) = true := by
      cases scheme <;> decide
    have hsmall := List.all_eq_true.mp hall c hc
    rw [Bool.not_eq_true', ← hlower, asciiLower] at hsmall
    split at hsmall
    · next hupper =>
      simp only [isAuthorityEnd, List.mem_cons, List.not_mem_nil, or_false, decide_eq_false_iff_not]
      omega
    · exact hsmall

theorem own_eq (config : HttpRewriteConfig) (scheme : Scheme) : ∃ port,
    scheme.own config = asBytes config.host ++ ':'.toUInt8 :: decimal port := by
  cases scheme with
  | http => exact ⟨_, authority_eq config.host config.onvifPort⟩
  | rtsp => exact ⟨_, authority_eq config.host config.rtspPort⟩

/-- The bridge's own authority is no name of a scheme. -/
theorem own_unnamed (config : HttpRewriteConfig) (scheme other : Scheme) :
    Tokens.endsWith (schemeMarker scheme.name) (other.own config) = false := by
  obtain ⟨port, hown⟩ := own_eq config other
  obtain ⟨start, d, hport⟩ := (List.eq_nil_or_concat' (decimal port)).resolve_left (decimal_ne_nil port)
  have hd : isAsciiDigit d = true :=
    isAsciiDigit_of_mem_decimal (hport ▸ List.mem_append_right _ List.mem_cons_self)
  have hname : ∃ name, schemeMarker scheme.name =
      name ++ [fun a => asciiLower a == asciiLower ':'.toUInt8] := by
    cases scheme with
    | http => exact ⟨schemeMarker (asBytes "http"), rfl⟩
    | rtsp => exact ⟨schemeMarker (asBytes "rtsp"), rfl⟩
  obtain ⟨name, hname⟩ := hname
  rw [hname, hown, hport, ← List.cons_append, ← List.append_assoc, Bool.eq_false_iff]
  intro hends
  -- a digit is no colon
  have hlast := Tokens.endsWith_concat hends
  have hcolon : asciiLower d = ':'.toUInt8 := eq_of_beq hlast
  have hbounds := isAsciiDigit_iff.mp hd
  rw [asciiLower, if_neg (by omega)] at hcolon
  rw [hcolon] at hbounds
  exact absurd hbounds (by decide)

theorem framed (hhost : IsDotted (asBytes config.host)) (scheme : Scheme) :
    (scheme.rule config).Framed (schemeMarker scheme.name) isSlash where
  lawful := by
    cases scheme with
    | http => exact httpRule_lawful config
    | rtsp => exact rtspRule_lawful config
  marker_eq := schemeMarker_text scheme
  isName := isName_schemeMarker scheme
  slash_delim a ha := by
    show isAuthorityEnd a = true
    rw [isSlash_iff.mp ha]
    decide
  substitute_plain := by
    show Plain isAuthorityEnd (scheme.own config)
    obtain ⟨port, hown⟩ := own_eq config scheme
    intro b hb
    rw [hown, List.mem_append, List.mem_cons] at hb
    rcases hb with hb | rfl | hb
    · rcases hhost.1 b hb with hdigit | rfl
      · exact isAuthorityEnd_of_digit hdigit
      · decide
    · decide
    · exact isAuthorityEnd_of_digit (isAsciiDigit_of_mem_decimal hb)

/-- A text ends with one scheme at most. -/
theorem Scheme.Ends.unique (h : scheme.Ends before) (h' : other.Ends before) : scheme = other := by
  have hapart {text : Bytes} (hhttp : Scheme.http.Ends text) : ¬Scheme.rtsp.Ends text := by
    rw [ends_iff] at hhttp ⊢
    have hrtsp : Tokens.endsWith (schemeMarker Scheme.rtsp.text) text = false :=
      (compatible_rules ⟨"", 0, 0⟩).apart text hhttp
    rw [hrtsp]
    exact Bool.false_ne_true
  cases scheme <;> cases other
  · rfl
  · exact absurd h' (hapart h)
  · exact absurd h (hapart h')
  · rfl

theorem Scheme.Ends.closed (h : scheme.Ends before) : Closed isAuthorityEnd before := by
  rw [ends_iff, schemeMarker_text] at h
  obtain ⟨start, b, c, rfl, -, hc, -⟩ := Tokens.endsWith_slashes_iff.mp h
  rw [isSlash_iff.mp hc]
  have hconcat : Closed isAuthorityEnd (start ++ [b] ++ ['/'.toUInt8]) :=
    Tokens.closed_concat (by decide) _
  rwa [List.append_assoc] at hconcat

/-- An occurrence ends behind the run of its name and two slashes. -/
theorem ends_run : scheme.Ends before ↔ ∃ start token, before = start ++ token ++ asBytes "//" ∧
    Closed isAuthorityEnd start ∧ Plain isAuthorityEnd token ∧
    Tokens.endsWith (schemeMarker scheme.name) token = true := by
  have hslashes : asBytes "//" = ['/'.toUInt8, '/'.toUInt8] := by decide
  rw [ends_iff, schemeMarker_text, Tokens.endsWith_slashes_run (isName_schemeMarker scheme), hslashes]
  constructor
  · rintro ⟨start, token, b, c, rfl, hclosed, hplain, hb, hc, hends⟩
    rw [isSlash_iff.mp hb, isSlash_iff.mp hc]
    exact ⟨start, token, rfl, hclosed, hplain, hends⟩
  · rintro ⟨start, token, rfl, hclosed, hplain, hends⟩
    exact ⟨start, token, _, _, rfl, hclosed, hplain, isSlash_iff.mpr rfl, isSlash_iff.mpr rfl, hends⟩

end Rules

/-! ## Fates -/

section Fates

variable {scheme other : Scheme} {fate fate' : Fate} {before start token : Bytes}

theorem next_found_iff {outer inner : Scheme} {isLocal : Bool} :
    fate.next outer inner isLocal = .found ↔
      ¬(fate = .found ∧ (outer = inner ∨ (outer = .http ∧ isLocal = true))) := by
  cases fate <;> cases outer <;> cases inner <;> cases isLocal <;> decide

theorem next_passed_iff {outer inner : Scheme} {isLocal : Bool} :
    fate.next outer inner isLocal = .passed ↔ fate = .found ∧ outer = inner ∧ isLocal = false := by
  cases fate <;> cases outer <;> cases inner <;> cases isLocal <;> decide

theorem Scheme.Met.ends (h : scheme.Met fate before) : scheme.Ends before := by
  cases h with
  | first hends => exact hends
  | inner _ _ hends => exact hends

/-- The run before two slashes is determined. -/
theorem slashes_unique {start' token' : Bytes} (hclosed : Closed isAuthorityEnd start)
    (hplain : Plain isAuthorityEnd token) (hclosed' : Closed isAuthorityEnd start')
    (hplain' : Plain isAuthorityEnd token')
    (h : start ++ token ++ asBytes "//" = start' ++ token' ++ asBytes "//") :
    start = start' ∧ token = token' :=
  Tokens.run_unique hclosed hplain hclosed' hplain' (List.append_cancel_right h)

/-- The fate depends on the occurrence in whose authority the name stands, if there is one. -/
theorem met_iff (hclosed : Closed isAuthorityEnd start) (hplain : Plain isAuthorityEnd token)
    (hends : scheme.Ends (start ++ token ++ asBytes "//")) :
    scheme.Met fate (start ++ token ++ asBytes "//") ↔
      (∃ (outer : Scheme) (fate' : Fate), outer.Met fate' start ∧
        fate = fate'.next outer scheme (isLocalHost (originalHost token))) ∨
      ((∀ outer : Scheme, ¬outer.Ends start) ∧ fate = .found) := by
  constructor
  · intro h
    generalize hbefore : start ++ token ++ asBytes "//" = before at h
    cases h with
    | first _ hnone => exact .inr ⟨fun outer => hnone outer start token hbefore.symm hplain, rfl⟩
    | inner hmet hplain' _ =>
      obtain ⟨rfl, rfl⟩ := slashes_unique hclosed hplain hmet.ends.closed hplain' hbefore
      exact .inl ⟨_, _, hmet, rfl⟩
  · rintro (⟨outer, fate', hmet, rfl⟩ | ⟨hnone, rfl⟩)
    · exact .inner hmet hplain hends
    · refine .first hends fun outer start' token' heq hplain' houter => hnone outer ?_
      obtain ⟨rfl, -⟩ := slashes_unique hclosed hplain houter.closed hplain' heq
      exact houter

theorem length_lt_slashes (start token : Bytes) :
    start.length < (start ++ token ++ asBytes "//").length := by
  have htwo : (asBytes "//").length = 2 := by decide
  rw [List.length_append, List.length_append, htwo]
  omega

/-- Every occurrence has a fate. -/
theorem exists_met (h : scheme.Ends before) : ∃ fate, scheme.Met fate before := by
  induction hlength : before.length using Nat.strongRecOn generalizing scheme before with
  | ind n ih =>
    obtain ⟨start, token, rfl, hclosed, hplain, -⟩ := ends_run.mp h
    by_cases houter : ∃ outer : Scheme, outer.Ends start
    · obtain ⟨outer, houter⟩ := houter
      obtain ⟨fate, hmet⟩ := ih _ (hlength ▸ length_lt_slashes start token) houter rfl
      exact ⟨_, .inner hmet hplain h⟩
    · exact ⟨.found, (met_iff hclosed hplain h).mpr (.inr ⟨not_exists.mp houter, rfl⟩)⟩

/-- It has one fate. -/
theorem Scheme.Met.unique (h : scheme.Met fate before) (h' : other.Met fate' before) :
    scheme = other ∧ fate = fate' := by
  induction h generalizing other fate' with
  | first hends hnone =>
    obtain rfl := hends.unique h'.ends
    obtain ⟨start, token, rfl, hclosed, hplain, -⟩ := ends_run.mp hends
    rcases (met_iff hclosed hplain hends).mp h' with ⟨outer, fate, hmet, -⟩ | ⟨-, rfl⟩
    · exact absurd hmet.ends (hnone outer start token rfl hplain)
    · exact ⟨rfl, rfl⟩
  | inner hmet hplain hends ih =>
    obtain rfl := hends.unique h'.ends
    rcases (met_iff hmet.ends.closed hplain hends).mp h' with ⟨outer, fate, hmet', rfl⟩ | ⟨hnone, -⟩
    · obtain ⟨rfl, rfl⟩ := ih hmet'
      exact ⟨rfl, rfl⟩
    · exact absurd hmet.ends (hnone _)

/-- Of a row, every other occurrence is found. -/
theorem found_iff (hclosed : Closed isAuthorityEnd start) (hplain : Plain isAuthorityEnd token)
    (hends : scheme.Ends (start ++ token ++ asBytes "//")) :
    scheme.Met .found (start ++ token ++ asBytes "//") ↔ ¬scheme.Met .found start ∧
      ¬(Scheme.http.Met .found start ∧ isLocalHost (originalHost token) = true) := by
  rw [met_iff hclosed hplain hends]
  constructor
  · rintro (⟨outer, fate, hmet, hfound⟩ | ⟨hnone, -⟩)
    · have hother := next_found_iff.mp hfound.symm
      refine ⟨fun hsame => ?_, fun ⟨hhttp, hlocal⟩ => ?_⟩
      · obtain ⟨rfl, rfl⟩ := hmet.unique hsame
        exact hother ⟨rfl, .inl rfl⟩
      · obtain ⟨rfl, rfl⟩ := hmet.unique hhttp
        exact hother ⟨rfl, .inr ⟨rfl, hlocal⟩⟩
    · exact ⟨fun hsame => hnone _ hsame.ends, fun hhttp => hnone _ hhttp.1.ends⟩
  · rintro ⟨hsame, hhttp⟩
    by_cases houter : ∃ outer : Scheme, outer.Ends start
    · obtain ⟨outer, houter⟩ := houter
      obtain ⟨fate, hmet⟩ := exists_met houter
      refine .inl ⟨outer, fate, hmet, (next_found_iff.mpr ?_).symm⟩
      rintro ⟨rfl, rfl | ⟨rfl, hlocal⟩⟩
      · exact hsame hmet
      · exact hhttp ⟨hmet, hlocal⟩
    · exact .inr ⟨not_exists.mp houter, rfl⟩

/-- An occurrence is passed over behind one that is found and whose authority stays. -/
theorem passed_iff (hclosed : Closed isAuthorityEnd start) (hplain : Plain isAuthorityEnd token)
    (hends : scheme.Ends (start ++ token ++ asBytes "//")) :
    scheme.Met .passed (start ++ token ++ asBytes "//") ↔
      scheme.Met .found start ∧ isLocalHost (originalHost token) = false := by
  rw [met_iff hclosed hplain hends]
  constructor
  · rintro (⟨outer, fate, hmet, hpassed⟩ | ⟨-, hpassed⟩)
    · obtain ⟨rfl, rfl, hforeign⟩ := next_passed_iff.mp hpassed.symm
      exact ⟨hmet, hforeign⟩
    · cases hpassed
  · rintro ⟨hmet, hforeign⟩
    exact .inl ⟨scheme, .found, hmet, (next_passed_iff.mpr ⟨rfl, rfl, hforeign⟩).symm⟩

end Fates

/-! ## What the passes read -/

/-- The host of an authority is the one that is tested. -/
theorem HostPart.eq_originalHost {token host : Bytes} (h : HostPart token host) :
    host = originalHost token := by
  obtain ⟨user, port, rfl, huser, hat, hcolon, hport⟩ := h
  have huser' : user.reverse.takeWhile (· != '@'.toUInt8) = [] := by
    rcases huser with rfl | ⟨name, rfl⟩
    · rfl
    · rw [List.reverse_concat]
      rfl
  have hport' : port.takeWhile (· != ':'.toUInt8) = [] := by
    rcases hport with rfl | ⟨digits, rfl⟩
    · rfl
    · rfl
  have hbehind : ∀ b ∈ (host ++ port).reverse, (b != '@'.toUInt8) = true :=
    fun b hb => bne_iff_ne.mpr fun heq => hat (heq ▸ List.mem_reverse.mp hb)
  have hname : ∀ b ∈ host, (b != ':'.toUInt8) = true :=
    fun b hb => bne_iff_ne.mpr fun heq => hcolon (heq ▸ hb)
  rw [originalHost, List.append_assoc, List.reverse_append, List.takeWhile_append_of_pos hbehind,
    huser', List.append_nil, List.reverse_reverse, List.takeWhile_append_of_pos hname, hport',
    List.append_nil]

theorem isLocalHost_iff {token : Bytes} :
    isLocalHost (originalHost token) = true ↔ IsLocal IsLocalhost token := by
  refine ⟨isLocal_of_isLocalHost, ?_⟩
  rintro ⟨host, hpart, hhost⟩
  rw [← hpart.eq_originalHost, isLocalHost, Bool.or_eq_true, Bool.and_eq_true, List.all_eq_true,
    beq_iff_eq]
  rcases hhost with hlocal | ⟨hdigits, hdots⟩
  · exact .inr hlocal
  · refine .inl ⟨fun b hb => ?_, hdots⟩
    rw [Bool.or_eq_true, beq_iff_eq]
    exact hdigits b hb

section Passes

variable {config : HttpRewriteConfig} {scheme other : Scheme} {before start token rest : Bytes}

theorem asBytes_slashes : asBytes "//" = ['/'.toUInt8, '/'.toUInt8] := by decide

theorem ends_slashes_iff (hclosed : Closed isAuthorityEnd start) (hplain : Plain isAuthorityEnd token) :
    scheme.Ends (start ++ token ++ asBytes "//") ↔
      Tokens.endsWith (schemeMarker scheme.name) token = true := by
  rw [ends_run]
  constructor
  · rintro ⟨start', token', heq, hclosed', hplain', hends⟩
    obtain ⟨-, rfl⟩ := slashes_unique hclosed hplain hclosed' hplain' heq
    exact hends
  · exact fun hends => ⟨start, token, rfl, hclosed, hplain, hends⟩

/-- An authority that is read and local is replaced. -/
theorem behind_local (hopen : Open (scheme.rule config) start)
    (hlocal : isLocalHost (originalHost token) = true) :
    (scheme.rule config).behind start token = scheme.own config := by
  rw [Tokens.behind_of_open hopen]
  exact Tokens.Rule.replace_of_true hlocal

/-- All other runs stay. -/
theorem behind_kept (hclosed : Closed isAuthorityEnd start)
    (h : ¬(Open (scheme.rule config) start ∧ isLocalHost (originalHost token) = true)) :
    (scheme.rule config).behind start token = token := by
  by_cases hopen : Open (scheme.rule config) start
  · rw [Tokens.behind_of_open hopen]
    exact Tokens.Rule.replace_of_false (Bool.eq_false_iff.mpr fun hlocal => h ⟨hopen, hlocal⟩)
  · exact Tokens.behind_of_not_open hclosed hopen

/-- A run that ends in a name afterwards has been kept. -/
theorem kept_of_endsWith
    (h : Tokens.endsWith (schemeMarker scheme.name) ((other.rule config).behind start token) = true) :
    ¬(Open (other.rule config) start ∧ isLocalHost (originalHost token) = true) := by
  rintro ⟨hopen, hlocal⟩
  rw [behind_local hopen hlocal, own_unnamed] at h
  cases h

variable (hhost : IsDotted (asBytes config.host))

include hhost

theorem apply_slashes (scheme : Scheme) (hclosed : Closed isAuthorityEnd start)
    (hplain : Plain isAuthorityEnd token) :
    (scheme.rule config).apply (start ++ token ++ asBytes "//") =
      (scheme.rule config).apply start ++ (scheme.rule config).behind start token ++ asBytes "//" := by
  rw [asBytes_slashes]
  exact Tokens.apply_slashes (framed hhost scheme) (by decide) (by decide) hclosed hplain

theorem closed_rule_apply (scheme : Scheme) (h : Closed isAuthorityEnd before) :
    Closed isAuthorityEnd ((scheme.rule config).apply before) :=
  Tokens.closed_apply (framed hhost scheme).lawful h

theorem plain_rule_behind (scheme : Scheme) (h : Plain isAuthorityEnd token) :
    Plain isAuthorityEnd ((scheme.rule config).behind start token) :=
  Tokens.plain_behind (framed hhost scheme).substitute_plain h

theorem open_slashes_iff (hclosed : Closed isAuthorityEnd start) (hplain : Plain isAuthorityEnd token)
    (hends : Tokens.endsWith (schemeMarker scheme.name) token = true) :
    Open (scheme.rule config) (start ++ token ++ asBytes "//") ↔ ¬Open (scheme.rule config) start := by
  rw [asBytes_slashes]
  exact Tokens.open_marker_iff (framed hhost scheme) (by decide) (by decide) hclosed hplain hends

/-- Where a scheme ends a result of a pass, it ends the text, and its name has been kept. -/
theorem ends_apply (hclosed : Closed isAuthorityEnd before)
    (h : scheme.Ends ((other.rule config).apply before)) :
    ∃ start token, before = start ++ token ++ asBytes "//" ∧ Closed isAuthorityEnd start ∧
      Plain isAuthorityEnd token ∧ Tokens.endsWith (schemeMarker scheme.name) token = true ∧
      ¬(Open (other.rule config) start ∧ isLocalHost (originalHost token) = true) := by
  rw [ends_iff, schemeMarker_text] at h
  obtain ⟨start, token, a, b, rfl, hstart, hplain, ha, hb, hends⟩ :=
    (Tokens.endsWith_apply_iff (framed hhost other) (isName_schemeMarker scheme) hclosed).mp h
  have hkept := kept_of_endsWith hends
  rw [behind_kept hstart hkept] at hends
  rw [isSlash_iff.mp ha, isSlash_iff.mp hb, ← asBytes_slashes]
  exact ⟨start, token, rfl, hstart, hplain, hends, hkept⟩

/-- The passes read the authorities of the occurrences that are found. -/
theorem open_iff (hclosed : Closed isAuthorityEnd before) :
    (Open (Scheme.http.rule config) before ↔ Scheme.http.Met .found before) ∧
    (Open (Scheme.rtsp.rule config) ((Scheme.http.rule config).apply before) ↔
      Scheme.rtsp.Met .found before) := by
  induction hlength : before.length using Nat.strongRecOn generalizing before with
  | ind n ih =>
    have hends {scheme : Scheme} {text : Bytes} (hopen : Open (scheme.rule config) text) :
        scheme.Ends text := ends_iff.mpr hopen.endsWith
    constructor
    · by_cases hhttp : Scheme.http.Ends before
      · obtain ⟨start, token, rfl, hstart, hplain, hname⟩ := ends_run.mp hhttp
        have ih := (ih _ (hlength ▸ length_lt_slashes start token) hstart rfl).1
        rw [open_slashes_iff hhost hstart hplain hname, found_iff hstart hplain hhttp, ih]
        exact ⟨fun h => ⟨h, fun hlocal => h hlocal.1⟩, And.left⟩
      · exact iff_of_false (fun hopen => hhttp (hends hopen)) fun hmet => hhttp hmet.ends
    · by_cases hrtsp : Scheme.rtsp.Ends before
      · obtain ⟨start, token, rfl, hstart, hplain, hname⟩ := ends_run.mp hrtsp
        have ih := ih _ (hlength ▸ length_lt_slashes start token) hstart rfl
        rw [found_iff hstart hplain hrtsp, ← ih.1, ← ih.2, apply_slashes hhost .http hstart hplain]
        have hstart' := closed_rule_apply hhost .http hstart
        by_cases hgone : Open (Scheme.http.rule config) start ∧
            isLocalHost (originalHost token) = true
        · refine iff_of_false (fun hopen => ?_) fun h => h.2 hgone
          have hplain' : Plain isAuthorityEnd ((Scheme.http.rule config).behind start token) :=
            plain_rule_behind hhost .http hplain
          have hnamed := (ends_slashes_iff hstart' hplain').mp (hends hopen)
          exact kept_of_endsWith hnamed hgone
        · rw [behind_kept hstart hgone, open_slashes_iff hhost hstart' hplain hname]
          exact (and_iff_left hgone).symm
      · refine iff_of_false (fun hopen => ?_) fun hmet => hrtsp hmet.ends
        obtain ⟨start, token, rfl, hstart, hplain, hname, -⟩ := ends_apply hhost hclosed (hends hopen)
        exact hrtsp ((ends_slashes_iff hstart hplain).mpr hname)

/-! ## What is written -/

/-- What both passes write for the run behind a text. -/
def written (config : HttpRewriteConfig) (before token : Bytes) : Bytes :=
  (Scheme.rtsp.rule config).behind ((Scheme.http.rule config).apply before)
    ((Scheme.http.rule config).behind before token)

omit hhost in
theorem rewritten_eq (config : HttpRewriteConfig) (data : Bytes) : replaceUrlAuthorities data config =
    (Scheme.rtsp.rule config).apply ((Scheme.http.rule config).apply data) :=
  replaceUrlAuthorities_eq data config

theorem plain_written (hplain : Plain isAuthorityEnd token) :
    Plain isAuthorityEnd (written config before token) :=
  plain_rule_behind hhost .rtsp (plain_rule_behind hhost .http hplain)

theorem written_slashes (hclosed : Closed isAuthorityEnd start) (hplain : Plain isAuthorityEnd token) :
    replaceUrlAuthorities (start ++ token ++ asBytes "//") config =
      replaceUrlAuthorities start config ++ written config start token ++ asBytes "//" := by
  rw [rewritten_eq, rewritten_eq, apply_slashes hhost .http hclosed hplain,
    apply_slashes hhost .rtsp (closed_rule_apply hhost .http hclosed)
      (plain_rule_behind hhost .http hplain)]
  rfl

/-- The text behind a run is written behind what is written for the run. -/
theorem written_append (hclosed : Closed isAuthorityEnd before) (hplain : Plain isAuthorityEnd token)
    (hended : Ended isAuthorityEnd rest) : ∃ rest', Ended isAuthorityEnd rest' ∧
      replaceUrlAuthorities (before ++ token ++ rest) config =
        replaceUrlAuthorities before config ++ written config before token ++ rest' := by
  obtain ⟨middle, hmiddle, hfirst⟩ := Tokens.apply_run_append (framed hhost .http).lawful hclosed
    hplain hended
  have hplain' : Plain isAuthorityEnd ((Scheme.http.rule config).behind before token) :=
    plain_rule_behind hhost .http hplain
  have hmiddle : Ended isAuthorityEnd middle := hmiddle
  have hclosed' : Closed isAuthorityEnd ((Scheme.http.rule config).apply before) :=
    closed_rule_apply hhost .http hclosed
  obtain ⟨rest', hrest', hsecond⟩ :=
    Tokens.apply_run_append (framed hhost .rtsp).lawful hclosed' hplain' hmiddle
  exact ⟨rest', hrest', by rw [rewritten_eq, hfirst, hsecond, rewritten_eq]; rfl⟩

/-- A closed beginning of the result is the result of a closed beginning. -/
theorem exists_before (hclosed : Closed isAuthorityEnd before)
    (h : before <+: replaceUrlAuthorities rest config) : ∃ start more, rest = start ++ more ∧
      Closed isAuthorityEnd start ∧ replaceUrlAuthorities start config = before := by
  by_cases hne : before = []
  · subst hne
    exact ⟨[], rest, rfl, Tokens.closed_nil, rfl⟩
  · obtain ⟨last, a, rfl, ha⟩ := hclosed.eq_concat hne
    have hrtsp := framed hhost .rtsp
    have hhttp := framed hhost .http
    rw [rewritten_eq] at h
    obtain ⟨middle, more, hmiddle, rfl⟩ :=
      Tokens.exists_of_delim hrtsp.lawful hrtsp.substitute_plain ha h
    have hprefix : middle ++ [a] <+: (Scheme.http.rule config).apply rest := by
      rw [hmiddle]
      exact ⟨more, (List.append_cons ..).symm⟩
    obtain ⟨start, more, rfl, rfl⟩ :=
      Tokens.exists_of_delim hhttp.lawful hhttp.substitute_plain ha hprefix
    refine ⟨start ++ [a], more, List.append_cons .., Tokens.closed_concat ha start, ?_⟩
    rw [rewritten_eq, Tokens.apply_delim hhttp.lawful ha, Tokens.apply_delim hrtsp.lawful ha]

/-- Where a scheme ends the result, the occurrence is found or passed over. -/
theorem met_of_ends (hclosed : Closed isAuthorityEnd before)
    (h : scheme.Ends (replaceUrlAuthorities before config)) :
    scheme.Met .found before ∨ scheme.Met .passed before := by
  rw [rewritten_eq] at h
  obtain ⟨middle, token, hmiddle, hmiddleClosed, hplain, hname, hrtsp⟩ :=
    ends_apply hhost (closed_rule_apply hhost .http hclosed) h
  have hends : scheme.Ends ((Scheme.http.rule config).apply before) :=
    hmiddle ▸ (ends_slashes_iff hmiddleClosed hplain).mpr hname
  obtain ⟨start, token', rfl, hstart, hplain', hname', hhttp⟩ := ends_apply hhost hclosed hends
  rw [apply_slashes hhost .http hstart hplain', behind_kept hstart hhttp] at hmiddle
  obtain ⟨rfl, rfl⟩ := slashes_unique (closed_rule_apply hhost .http hstart) hplain' hmiddleClosed
    hplain hmiddle
  have hends := (ends_slashes_iff hstart hplain).mpr hname
  rw [(open_iff hhost hstart).1] at hhttp
  rw [(open_iff hhost hstart).2] at hrtsp
  by_cases hfound : scheme.Met .found start
  · refine .inr ((passed_iff hstart hplain hends).mpr ⟨hfound, Bool.eq_false_iff.mpr fun hlocal => ?_⟩)
    cases scheme with
    | http => exact hhttp ⟨hfound, hlocal⟩
    | rtsp => exact hrtsp ⟨hfound, hlocal⟩
  · exact .inl ((found_iff hstart hplain hends).mpr ⟨hfound, hhttp⟩)

/-- The authority of an occurrence that is passed over stays. -/
theorem written_passed (h : scheme.Met .passed before) : written config before token = token := by
  have hclosed := h.ends.closed
  have hnone {other : Scheme} (hfound : other.Met .found before) : False := by
    cases (h.unique hfound).2
  rw [written, behind_kept hclosed fun hopen => hnone ((open_iff hhost hclosed).1.mp hopen.1),
    behind_kept (closed_rule_apply hhost .http hclosed)
      fun hopen => hnone ((open_iff hhost hclosed).2.mp hopen.1)]

/-- The occurrence stays as well. -/
theorem ends_passed (h : scheme.Met .passed before) :
    scheme.Ends (replaceUrlAuthorities before config) := by
  obtain ⟨start, token, rfl, hclosed, hplain, hname⟩ := ends_run.mp h.ends
  obtain ⟨-, hforeign⟩ := (passed_iff hclosed hplain h.ends).mp h
  have hkept {other : Scheme} {text : Bytes} :
      ¬(Open (other.rule config) text ∧ isLocalHost (originalHost token) = true) := by
    rw [hforeign]
    exact fun hopen => Bool.false_ne_true hopen.2
  have hwritten : written config start token = token := by
    rw [written, behind_kept hclosed hkept,
      behind_kept (closed_rule_apply hhost .http hclosed) hkept]
  have hclosed' : Closed isAuthorityEnd (replaceUrlAuthorities start config) := by
    rw [rewritten_eq]
    exact closed_rule_apply hhost .rtsp (closed_rule_apply hhost .http hclosed)
  rw [written_slashes hhost hclosed hplain, hwritten, ends_slashes_iff hclosed' hplain]
  exact hname

/-- What is written behind an occurrence that is found is harmless. -/
theorem harmless_found (h : scheme.Met .found before) :
    scheme.Harmless config (written config before token) := by
  have hclosed := h.ends.closed
  have hreplaced {text : Bytes} (hopen : Open (scheme.rule config) text) :
      scheme.Harmless config ((scheme.rule config).behind text token) := by
    cases hlocal : isLocalHost (originalHost token) with
    | true => exact .inl (behind_local hopen hlocal)
    | false =>
      rw [Tokens.behind_of_open hopen]
      refine .inr ?_
      rw [Tokens.Rule.replace_of_false hlocal, ← isLocalHost_iff, hlocal]
      exact Bool.false_ne_true
  cases scheme with
  | http =>
    have hnone : ¬Open (Scheme.rtsp.rule config) ((Scheme.http.rule config).apply before) := by
      intro hopen
      cases (h.unique ((open_iff hhost hclosed).2.mp hopen)).1
    rw [written, behind_kept (closed_rule_apply hhost .http hclosed) fun hopen => hnone hopen.1]
    exact hreplaced ((open_iff hhost hclosed).1.mpr h)
  | rtsp =>
    have hnone : ¬Open (Scheme.http.rule config) before := by
      intro hopen
      cases (h.unique ((open_iff hhost hclosed).1.mp hopen)).1
    rw [written, behind_kept hclosed fun hopen => hnone hopen.1]
    exact hreplaced ((open_iff hhost hclosed).2.mpr h)

/-- Where no address is left, nothing is rewritten. -/
theorem rewritten_eq_self {output : Bytes} (h : Rewritten config output) :
    replaceUrlAuthorities output config = output := by
  have hpass (scheme : Scheme) : (scheme.rule config).apply output = output := by
    refine Tokens.apply_eq_self (framed hhost scheme).lawful
      fun before token rest houtput hends hplain hended => ?_
    rcases h scheme before token rest houtput (ends_iff.mpr hends) hplain hended with hown | hforeign
    · cases hlocal : isLocalHost (originalHost token) with
      | true => exact (Tokens.Rule.replace_of_true hlocal).trans hown.symm
      | false => exact Tokens.Rule.replace_of_false hlocal
    · rw [← isLocalHost_iff, Bool.not_eq_true] at hforeign
      exact Tokens.Rule.replace_of_false hforeign
  rw [rewritten_eq, hpass, hpass]

end Passes

/-- With an address as the host: what stands behind the schemes in the result is harmless, and a
second rewriting changes nothing, exactly if this holds already for the occurrences that the
passes pass over. -/
theorem survivors_iff {config : HttpRewriteConfig} (hhost : IsDotted (asBytes config.host))
    (data : Bytes) :
    let output := replaceUrlAuthorities data config
    (Rewritten config output ∧ replaceUrlAuthorities output config = output) ↔
      ∀ (scheme : Scheme) (before token rest : Bytes), data = before ++ token ++ rest →
        scheme.Met .passed before → Plain isAuthorityEnd token → Ended isAuthorityEnd rest →
        scheme.Harmless config token := by
  intro output
  constructor
  · rintro ⟨hrewritten, -⟩ scheme before token rest hdata hpassed hplain hended
    obtain ⟨rest', hended', houtput⟩ := written_append hhost hpassed.ends.closed hplain hended
    rw [← hdata, written_passed hhost hpassed] at houtput
    exact hrewritten scheme _ token rest' houtput (ends_passed hhost hpassed) hplain hended'
  · intro h
    have hrewritten : Rewritten config output := by
      intro scheme before token rest houtput hends hplain hended
      have hprefix : before <+: output := by
        rw [houtput, List.append_assoc]
        exact List.prefix_append _ _
      obtain ⟨start, more, hdata, hclosed, rfl⟩ := exists_before hhost hends.closed hprefix
      obtain ⟨run, rest₀, rfl, hrun, hended₀⟩ := Tokens.exists_first_run isAuthorityEnd more
      rw [← List.append_assoc] at hdata
      obtain ⟨rest', hended', hwritten⟩ := written_append hhost hclosed hrun hended₀
      -- the authority is what is written for the run of the data
      have htoken : token = written config start run := by
        have heq : replaceUrlAuthorities start config ++ (token ++ rest) =
            replaceUrlAuthorities start config ++ (written config start run ++ rest') := by
          rw [← List.append_assoc, ← List.append_assoc, ← houtput, ← hwritten, ← hdata]
        exact (Tokens.first_run_unique hplain hended (plain_written hhost hrun) hended'
          (List.append_cancel_left heq)).1
      rw [htoken]
      rcases met_of_ends hhost hclosed hends with hfound | hpassed
      · exact harmless_found hhost hfound
      · rw [written_passed hhost hpassed]
        exact h scheme start run rest₀ hdata hpassed hrun hended₀
    exact ⟨hrewritten, rewritten_eq_self hhost hrewritten⟩

def lanConfig : HttpRewriteConfig := ⟨"192.168.1.2", 16540, 16554⟩

theorem isDotted_lanConfig : IsDotted (asBytes lanConfig.host) :=
  ⟨List.forall_iff_forall_mem.mp (by decide +kernel), by decide +kernel⟩

/-- The second of two addresses with a comma between them is passed over. -/
theorem survivors_iff_comma :
    let output := replaceUrlAuthorities (asBytes "http://cam,http://10.0.0.5/") lanConfig
    ¬(Rewritten lanConfig output ∧ replaceUrlAuthorities output lanConfig = output) := by
  intro output hboth
  have hfirst : Scheme.http.Met .found (asBytes "http://") := by
    refine .first ⟨[], asBytes "http://", rfl, by decide⟩ fun outer start token heq _ houter => ?_
    obtain ⟨before, found, rfl, hfound⟩ := houter
    have hlength := congrArg List.length (eq_of_beq hfound)
    have htext : outer.text.length = 7 := by cases outer <;> decide
    have hsum := congrArg List.length heq
    have hseven : (asBytes "http://").length = 7 := by decide
    have htwo : (asBytes "//").length = 2 := by decide
    rw [List.length_map, List.length_map, htext] at hlength
    rw [hseven, List.length_append, List.length_append, List.length_append, htwo] at hsum
    omega
  have hplain : Plain isAuthorityEnd (asBytes "cam,http:") := by decide
  have hends : Scheme.http.Ends (asBytes "http://" ++ asBytes "cam,http:" ++ asBytes "//") :=
    ⟨asBytes "http://cam,", asBytes "http://", by decide, by decide⟩
  have hpassed : Scheme.http.Met .passed (asBytes "http://" ++ asBytes "cam,http:" ++ asBytes "//") :=
    .inner hfirst hplain hends
  rcases (survivors_iff isDotted_lanConfig (asBytes "http://cam,http://10.0.0.5/")).mp hboth .http _
    (asBytes "10.0.0.5") (asBytes "/") (by decide) hpassed (by decide) (by decide) with hown | hforeign
  · exact absurd hown (by decide +kernel)
  · exact hforeign (isLocalHost_iff.mp (by decide))

/-- A tab ends no authority. -/
theorem tab_survivor : ¬∀ (config : HttpRewriteConfig) (data : Bytes),
    IsDotted (asBytes config.host) → Rewritten config (replaceUrlAuthorities data config) := by
  intro h
  have hrewritten := h lanConfig (asBytes "http://cam\thttp://10.0.0.5/") isDotted_lanConfig
  have hsame : replaceUrlAuthorities (asBytes "http://cam\thttp://10.0.0.5/") lanConfig =
      asBytes "http://cam\thttp://" ++ asBytes "10.0.0.5" ++ asBytes "/" := by decide +kernel
  have hends : Scheme.http.Ends (asBytes "http://cam\thttp://") :=
    ⟨asBytes "http://cam\t", asBytes "http://", by decide, by decide⟩
  rcases hrewritten .http _ _ _ hsame hends (by decide) (by decide) with hown | hforeign
  · exact absurd hown (by decide +kernel)
  · exact hforeign (isLocalHost_iff.mp (by decide))

end DahuaBridge
