import DahuaBridge.Http.Rewrite

/-!
# What the rewriting of addresses replaces

`replace_url_authorities` moves an index through a buffer that it changes in place. Here
its slices are checked, the turns of its loops are counted, and what it replaces is said
without the loops.

1. `checkedLoop_eq`: no slice is out of range, and there are no more turns than bytes.
2. `hostPart_originalHost`: the host is what stands between the last `@` and a `:`.
3. `replaceUrlAuthorities_segments`: each pass replaces segments with local hosts, and no
   other byte.
-/

namespace DahuaBridge

/-! ## Slices in range -/

/-- Why a loop that is checked does not come to its end. -/
inductive Halt where
  /-- A slice is out of range. -/
  | panic
  /-- There are turns left when the fuel is used up. -/
  | unfinished

/-- `&data[start..stop]`. -/
def slice (data : Bytes) (start stop : Nat) : Except Halt Bytes :=
  if start ≤ stop ∧ stop ≤ data.length then .ok ((data.take stop).drop start) else .error .panic

/-- `data.splice(start..stop, with)`. -/
def splice (data : Bytes) (start stop : Nat) (substitute : Bytes) : Except Halt Bytes :=
  if start ≤ stop ∧ stop ≤ data.length then .ok (data.take start ++ substitute ++ data.drop stop)
  else .error .panic

/-- The loop of `replaceLoop`, with every slice checked. -/
def checkedLoop (scheme authority : Bytes) : Nat → Nat → Bytes → Except Halt Bytes
  | 0, _, _ => .error .unfinished
  | fuel + 1, searchFrom, output =>
    if searchFrom + scheme.length < output.length then do
      let unread ← slice output searchFrom output.length
      match Tokens.position (schemeMarker scheme) unread with
      | none => return output
      | some relative =>
        let start := searchFrom + relative + scheme.length
        let tail ← slice output start output.length
        let stop := start + tail.findIdx isAuthorityEnd
        let originalAuthority ← slice output start stop
        if isLocalHost (originalHost originalAuthority) then
          let output ← splice output start stop authority
          checkedLoop scheme authority fuel (start + authority.length) output
        else checkedLoop scheme authority fuel stop output
    else return output

/-- `replace_url_authorities` with checked loops, each of at most so many turns. -/
def checkedUrlAuthorities (turns : Nat) (data : Bytes) (config : HttpRewriteConfig) :
    Except Halt Bytes :=
  [(asBytes "http://", authority config.host config.onvifPort),
    (asBytes "rtsp://", authority config.host config.rtspPort)].foldlM
      (fun output entry => checkedLoop entry.1 entry.2 turns 0 output) data

section Checked

variable {scheme authority output : Bytes} {searchFrom relative start stop fuel turns : Nat}

theorem slice_eq_ok (h : start ≤ stop) (hstop : stop ≤ output.length) :
    slice output start stop = .ok ((output.take stop).drop start) := if_pos ⟨h, hstop⟩

theorem splice_eq_ok (h : start ≤ stop) (hstop : stop ≤ output.length) (substitute : Bytes) :
    splice output start stop substitute = .ok (output.take start ++ substitute ++ output.drop stop) :=
  if_pos ⟨h, hstop⟩

/-- Where one turn reads: behind what is read already, and in the buffer. -/
theorem turn_bounds (hscheme : scheme ≠ [])
    (h : Tokens.position (schemeMarker scheme) (output.drop searchFrom) = some relative) :
    searchFrom < searchFrom + relative + scheme.length ∧
      searchFrom + relative + scheme.length ≤ output.length := by
  have hpos := List.length_pos_iff.mpr hscheme
  have hmarker : schemeMarker scheme ≠ [] := mt List.map_eq_nil_iff.mp hscheme
  have hle := Tokens.position_add_length_le hmarker h
  rw [length_schemeMarker, List.length_drop] at hle
  omega

theorem stop_le (h : start ≤ output.length) :
    start + (output.drop start).findIdx isAuthorityEnd ≤ output.length := by
  have hle : (output.drop start).findIdx isAuthorityEnd ≤ output.length - start :=
    List.length_drop ▸ List.findIdx_le_length
  exact Nat.add_le_of_le_sub' h hle

/-- With a turn for each byte that is left, the loop comes to its end, and every slice is in
range. -/
theorem checkedLoop_eq (hscheme : scheme ≠ []) (h : searchFrom ≤ output.length)
    (hfuel : output.length - searchFrom ≤ fuel) (hturns : output.length - searchFrom < turns) :
    checkedLoop scheme authority turns searchFrom output =
      .ok (replaceLoop scheme authority fuel searchFrom output) := by
  induction turns generalizing fuel searchFrom output with
  | zero => exact absurd hturns (Nat.not_lt_zero _)
  | succ turns ih =>
    by_cases hmore : searchFrom + scheme.length < output.length
    · obtain ⟨fuel, rfl⟩ : ∃ n, fuel = n + 1 := Nat.exists_eq_succ_of_ne_zero (by omega)
      rw [checkedLoop, replaceLoop, if_pos hmore, if_pos hmore, slice_eq_ok h (Nat.le_refl _),
        List.take_length]
      show (match Tokens.position (schemeMarker scheme) (output.drop searchFrom) with
        | none => _
        | some relative => _) = _
      cases hposition : Tokens.position (schemeMarker scheme) (output.drop searchFrom) with
      | none => rfl
      | some relative =>
        obtain ⟨hstart, hle⟩ := turn_bounds hscheme hposition
        have hstop := stop_le hle
        have hrange := Nat.le_add_right (searchFrom + relative + scheme.length)
          ((output.drop (searchFrom + relative + scheme.length)).findIdx isAuthorityEnd)
        simp only [slice_eq_ok hle (Nat.le_refl _), List.take_length, bind, Except.bind,
          slice_eq_ok hrange hstop, splice_eq_ok hrange hstop]
        split
        · -- what is left is what stood behind the old authority
          refine ih ?_ ?_ ?_
          all_goals
            simp only [List.length_append, List.length_drop, List.length_take]
            omega
        · exact ih hstop (by omega) (by omega)
    · rw [checkedLoop, if_neg hmore]
      cases fuel with
      | zero => rfl
      | succ fuel =>
        rw [replaceLoop, if_neg hmore]
        rfl

end Checked

/-! ## Local hosts -/

/-- The host of an authority: behind the last `@`, before the first `:` there. -/
def HostPart (token host : Bytes) : Prop :=
  ∃ user port, token = user ++ host ++ port ∧
    (user = [] ∨ ∃ name, user = name ++ ['@'.toUInt8]) ∧ '@'.toUInt8 ∉ host ++ port ∧
    ':'.toUInt8 ∉ host ∧ (port = [] ∨ ∃ digits, port = ':'.toUInt8 :: digits)

/-- Digits and exactly three dots. -/
def IsDotted (host : Bytes) : Prop :=
  (∀ b ∈ host, isAsciiDigit b = true ∨ b = '.'.toUInt8) ∧ host.count '.'.toUInt8 = 3

/-- The host of an authority has a name that the camera has for itself, or is an address. -/
def IsLocal (isName : Bytes → Prop) (token : Bytes) : Prop :=
  ∃ host, HostPart token host ∧ (isName host ∨ IsDotted host)

/-- `localhost` in small or capital letters. -/
def IsLocalhost (host : Bytes) : Prop := eqIgnoreAsciiCase host (asBytes "localhost") = true

/-- What a pass may do: behind the scheme, in small or capital letters, the authorities with
local hosts are replaced. -/
def Pass (isName : Bytes → Prop) (scheme authority : Bytes) : Bytes → Bytes → Prop :=
  Tokens.Replaced (fun found => eqIgnoreAsciiCase found scheme = true) isAuthorityEnd
    (IsLocal isName) authority

section Pass

variable {scheme authority token found : Bytes}

/-- Up to a byte, what is left is nothing, or begins with it. -/
theorem dropWhile_bne (b : UInt8) (text : Bytes) :
    text.dropWhile (· != b) = [] ∨ ∃ rest, text.dropWhile (· != b) = b :: rest := by
  cases hrest : text.dropWhile (· != b) with
  | nil => exact .inl rfl
  | cons a rest =>
    have hhead := List.head?_dropWhile_not (· != b) text
    rw [hrest, List.head?_cons] at hhead
    have heq : a = b := bne_eq_false_iff_eq.mp hhead
    exact .inr ⟨rest, by rw [heq]⟩

theorem hostPart_originalHost (token : Bytes) : HostPart token (originalHost token) := by
  obtain ⟨after, hafter⟩ : ∃ after,
      after = (token.reverse.takeWhile (· != '@'.toUInt8)).reverse := ⟨_, rfl⟩
  have hhost : originalHost token = after.takeWhile (· != ':'.toUInt8) := by
    rw [hafter, originalHost]
  refine ⟨(token.reverse.dropWhile (· != '@'.toUInt8)).reverse, after.dropWhile (· != ':'.toUInt8),
    ?_, ?_, ?_, ?_, ?_⟩
  · rw [hhost, List.append_assoc, List.takeWhile_append_dropWhile, hafter, ← List.reverse_append,
      List.takeWhile_append_dropWhile, List.reverse_reverse]
  · refine (dropWhile_bne '@'.toUInt8 token.reverse).imp (fun hnil => ?_) ?_
    · rw [hnil, List.reverse_nil]
    · rintro ⟨rest, hrest⟩
      exact ⟨rest.reverse, by rw [hrest, List.reverse_cons]⟩
  · rw [hhost, List.takeWhile_append_dropWhile, hafter, List.mem_reverse]
    exact fun hmem => absurd (List.mem_takeWhile_imp hmem) (by decide)
  · rw [hhost]
    exact fun hmem => absurd (List.mem_takeWhile_imp hmem) (by decide)
  · exact dropWhile_bne ':'.toUInt8 after

theorem isLocal_of_isLocalHost (h : isLocalHost (originalHost token) = true) :
    IsLocal IsLocalhost token := by
  refine ⟨originalHost token, hostPart_originalHost token, ?_⟩
  rw [isLocalHost, Bool.or_eq_true, Bool.and_eq_true, List.all_eq_true, beq_iff_eq] at h
  rcases h with ⟨hdotted, hdots⟩ | hname
  · refine .inr ⟨fun b hb => ?_, hdots⟩
    have hpasses := hdotted b hb
    rw [Bool.or_eq_true, beq_iff_eq] at hpasses
    exact hpasses
  · exact .inl hname

/-- The marker of a scheme is the scheme in small or capital letters. -/
theorem eqIgnoreAsciiCase_of_schemeMarker (hlength : found.length = scheme.length)
    (h : Tokens.startsWith (schemeMarker scheme) found = true) :
    eqIgnoreAsciiCase found scheme = true := by
  induction scheme generalizing found with
  | nil =>
    rw [List.length_eq_zero_iff.mp hlength]
    rfl
  | cons b scheme ih =>
    cases found with
    | nil => cases hlength
    | cons a found =>
      rw [schemeMarker_cons, Tokens.startsWith, Bool.and_eq_true, beq_iff_eq] at h
      have hrest := eq_of_beq (ih (Nat.succ.inj hlength) h.2)
      rw [eqIgnoreAsciiCase, List.map_cons, List.map_cons, h.1, hrest, beq_self_eq_true]

theorem pass_replaceScheme (hscheme : scheme ≠ []) (data : Bytes) :
    Pass IsLocalhost scheme authority data (replaceScheme data (scheme, authority)) := by
  rw [replaceScheme_eq hscheme]
  refine (Tokens.rewrite_replaced (authorityRule scheme authority) data.length data).mono ?_ ?_
  · rintro found ⟨hlength, hstarts⟩
    exact eqIgnoreAsciiCase_of_schemeMarker (hlength.trans (length_schemeMarker scheme)) hstarts
  · exact fun token htest => isLocal_of_isLocalHost htest

end Pass

/-- The two passes come to their ends, no slice is out of range, and each of them replaces
segments behind its scheme by its authority, and no other byte. -/
theorem replaceUrlAuthorities_segments (config : HttpRewriteConfig) (data : Bytes) :
    let http := replaceScheme data (asBytes "http://", authority config.host config.onvifPort)
    (∃ turns, ∀ more, checkedUrlAuthorities (turns + more) data config =
      .ok (replaceUrlAuthorities data config)) ∧
    Pass IsLocalhost (asBytes "http://") (authority config.host config.onvifPort) data http ∧
    Pass IsLocalhost (asBytes "rtsp://") (authority config.host config.rtspPort) http
      (replaceUrlAuthorities data config) := by
  intro http
  have hhttp : asBytes "http://" ≠ [] := by decide
  have hrtsp : asBytes "rtsp://" ≠ [] := by decide
  refine ⟨⟨max data.length http.length + 1, fun more => ?_⟩, pass_replaceScheme hhttp data,
    pass_replaceScheme hrtsp http⟩
  have hfirst : checkedLoop (asBytes "http://") (authority config.host config.onvifPort)
      (max data.length http.length + 1 + more) 0 data = .ok http :=
    checkedLoop_eq hhttp (Nat.zero_le _) (Nat.le_refl _) (by omega)
  have hsecond : checkedLoop (asBytes "rtsp://") (authority config.host config.rtspPort)
      (max data.length http.length + 1 + more) 0 http = .ok (replaceUrlAuthorities data config) :=
    checkedLoop_eq hrtsp (Nat.zero_le _) (Nat.le_refl _) (by omega)
  simp only [checkedUrlAuthorities, List.foldlM_cons, List.foldlM_nil, hfirst, hsecond, bind,
    Except.bind, pure, Except.pure]

/-- The name is replaced in capital letters, too. -/
theorem capitalLocalhost_replaced :
    let data := asBytes "http://LOCALHOST/"
    let http := replaceScheme data (asBytes "http://", authority "192.168.1.2" 16540)
    http = asBytes "http://192.168.1.2:16540/" ∧
    ¬Pass (· = asBytes "localhost") (asBytes "http://") (authority "192.168.1.2" 16540) data http := by
  intro data http
  have hhttp : http = asBytes "http://192.168.1.2:16540/" := by decide +kernel
  have hne : http ≠ data := by decide +kernel
  refine ⟨hhttp, fun hpass => ?_⟩
  rcases hpass.eq_or_exists with hsame | ⟨token, hinfix, host, ⟨user, port, rfl, -⟩, hhost⟩
  · exact hne hsame
  · have hsubset : host ⊆ data := fun b hb => hinfix.subset (by
      rw [List.mem_append, List.mem_append]
      exact .inl (.inr hb))
    -- the data has no small `l` and no dot
    rcases hhost with rfl | ⟨-, hdots⟩
    · exact absurd (hsubset (show 'l'.toUInt8 ∈ asBytes "localhost" by decide)) (by decide)
    · have hdot : '.'.toUInt8 ∈ host := List.count_pos_iff.mp (by omega)
      exact absurd (hsubset hdot) (by decide)

end DahuaBridge
