import DahuaBridge.Http.Relay

/-!
# The length of a rewritten response

`rewrite_http_response` splits the header at CRLF and replaces the lines that start with
`Content-Length:`; `http_response_complete` splits it at LF and takes the first length that
it can read. A line that only a LF ends is one for the test and none for the rewriting, so a
length behind it survives, and is read first.

1. `contentLength_joinCrlf`: the test reads the lines of the rewriting one after the other.
2. `headerEnd_assemble`: the rewritten header has no empty line but at its end.
3. `selfDelimiting_iff`: the response ends where it says exactly if no other length survives.
-/

namespace DahuaBridge

/-! ## The two readings of a header -/

section Lines

variable {line text : List Char} {ls : List (List Char)}

/-- What the test reads of one line. -/
def readLength (line : List Char) : Option Nat := do
  let (name, value) ← Text.splitOnce (· = ':') line
  if name.map Char.toLower = "content-length".toList then
    parseUsize (Text.trim Text.isWhiteSpace value)
  else none

/-- The value is trimmed, so the end of the line does not matter. -/
theorem readLength_concat_cr (line : List Char) : readLength (line ++ ['\r']) = readLength line := by
  rw [readLength, readLength, Text.splitOnce_concat (by decide)]
  cases Text.splitOnce (· = ':') line with
  | none => rfl
  | some parts =>
    show (if parts.1.map Char.toLower = "content-length".toList then
      parseUsize (Text.trim Text.isWhiteSpace (parts.2 ++ ['\r'])) else none) = _
    rw [Text.trim_concat (by decide)]
    rfl

theorem readLength_stripCr (line : List Char) : readLength (stripCr line) = readLength line := by
  rw [stripCr]
  split
  · next hlast =>
    obtain ⟨start, rfl⟩ := List.getLast?_eq_some_iff.mp hlast
    rw [List.dropLast_concat, readLength_concat_cr]
  · rfl

/-- The test reads what stands between the line feeds. -/
theorem contentLength_eq (headers : List Char) :
    contentLength headers = (headers.splitOnP (· = '\n')).findSome? readLength := by
  show (lines headers).findSome? readLength = _
  rcases List.eq_nil_or_concat' (headers.splitOnP (· = '\n')) with hnil | ⟨pieces, last, hpieces⟩
  · exact absurd hnil (List.splitOnP_ne_nil _ _)
  · have hstrip : (pieces.map stripCr).findSome? readLength = pieces.findSome? readLength := by
      rw [List.findSome?_map]
      exact congrArg (List.findSome? · pieces) (funext readLength_stripCr)
    have hlast : (if last.isEmpty then [] else [last]).findSome? readLength =
        [last].findSome? readLength := by
      split
      · next hempty =>
        rw [List.isEmpty_iff.mp hempty]
        rfl
      · rfl
    simp only [lines, hpieces, List.getLast?_concat, List.dropLast_concat, List.findSome?_append,
      hstrip, hlast]

theorem contentLength_concat_cr (text : List Char) :
    contentLength (text ++ ['\r']) = contentLength text := by
  obtain ⟨pieces, last, hold, hnew⟩ := 
    @Text.splitOnP_concat Char (· = '\n') '\r' (by decide) text
  rw [contentLength_eq, contentLength_eq, hold, hnew, List.findSome?_append, List.findSome?_append,
    List.findSome?_singleton, List.findSome?_singleton, readLength_concat_cr]

/-- The test reads the lines that CRLF ends one after the other. -/
theorem contentLength_joinCrlf (ls : List (List Char)) :
    contentLength (joinCrlf ls) = ls.findSome? contentLength := by
  induction ls with
  | nil => rfl
  | cons line rest ih =>
    cases rest with
    | nil => rw [joinCrlf, List.findSome?_singleton]
    | cons next rest =>
      have hsplit : joinCrlf (line :: next :: rest) =
          (line ++ ['\r']) ++ '\n' :: joinCrlf (next :: rest) := by
        rw [joinCrlf_cons, List.append_assoc]
        rfl
      rw [hsplit, contentLength_eq, List.splitOnP_append_cons _ _ (by decide), List.findSome?_append,
        ← contentLength_eq, ← contentLength_eq, contentLength_concat_cr, ih]
      show _ = ([line] ++ next :: rest).findSome? contentLength
      rw [List.findSome?_append, List.findSome?_singleton]

end Lines

/-! ## The line that is written -/

section Written

variable {text : List Char} {n : Nat}

theorem foldl_digits (h : ∀ c ∈ text, c.isDigit = true) (value : Nat) :
    text.foldl (fun value c => if c.isDigit then value.map (· * 10 + (c.toNat - 48)) else none)
      (some value) = some (Nat.ofDigitChars 10 text value) := by
  induction text generalizing value with
  | nil => rw [List.foldl_nil, Nat.ofDigitChars_nil]
  | cons c text ih =>
    obtain ⟨hc, htext⟩ := List.forall_mem_cons.mp h
    rw [List.foldl_cons, if_pos hc, Option.map_some, ih htext, Nat.ofDigitChars_cons,
      Nat.mul_comm value]
    rfl

theorem parseUsize_toDigits (h : n < 2 ^ 64) : parseUsize (Nat.toDigits 10 n) = some n := by
  have hdigits : digits (Nat.toDigits 10 n) = some n := by
    rw [digits, foldl_digits (Text.isDigit_toDigits n), Nat.ofDigitChars_ten_toDigits]
  have hplus : (Nat.toDigits 10 n).head? ≠ some '+' := by
    intro hhead
    exact absurd (Text.isDigit_toDigits n _ (List.mem_of_head? hhead)) (by decide)
  rw [parseUsize, if_neg hplus, hdigits, if_neg (mt List.isEmpty_iff.mp Nat.toDigits_ne_nil),
    Option.filter_some, decide_eq_true h, if_pos rfl]

/-- The test reads back what the rewriting writes. -/
theorem contentLength_contentLengthLine (h : n < 2 ^ 64) :
    contentLength (contentLengthLine n) = some n := by
  have hplain : ∀ c ∈ contentLengthLine n, decide (c = '\n') = false := by
    intro c hc
    rw [contentLengthLine_eq, List.mem_append] at hc
    refine decide_eq_false fun heq => ?_
    rcases hc with hname | hdigit
    · exact absurd (heq ▸ hname) (by decide +kernel)
    · exact absurd (heq ▸ Text.isDigit_toDigits n c hdigit) (by decide)
  have hname : ∀ c ∈ "Content-Length".toList, decide (c = ':') = false := by
    intro c hc
    refine decide_eq_false fun heq => ?_
    exact absurd (heq ▸ hc) (by decide +kernel)
  have hline : contentLengthLine n = "Content-Length".toList ++ ':' :: ' ' :: Nat.toDigits 10 n := by
    have hcolon : "Content-Length: ".toList = "Content-Length".toList ++ [':', ' '] := by decide +kernel
    rw [contentLengthLine_eq, hcolon, List.append_assoc]
    rfl
  have hvalue : Text.trim Text.isWhiteSpace (' ' :: Nat.toDigits 10 n) = Nat.toDigits 10 n := by
    rw [Text.trim_cons (by decide), Text.trim_eq_self]
    exact fun c hc => Text.not_isWhiteSpace_of_isDigit (Text.isDigit_toDigits n c hc)
  rw [contentLength_eq, List.splitOnP_eq_singleton hplain, List.findSome?_singleton, readLength,
    hline, Text.splitOnce_append_cons hname (by decide)]
  show (if "Content-Length".toList.map Char.toLower = "content-length".toList then
    parseUsize (Text.trim Text.isWhiteSpace (' ' :: Nat.toDigits 10 n)) else none) = _
  rw [if_pos (by decide +kernel), hvalue, parseUsize_toDigits h]

end Written

/-! ## The length that is read first -/

/-- The first length that the test reads in the lines before the first `Content-Length`
line. -/
def strayLength (headerText : List Char) : Option Nat :=
  ((splitCrlf headerText).takeWhile (!isContentLength ·)).findSome? contentLength

section Stray

variable {n : Nat}

theorem headerLines_eq (headerText : List Char) (n : Nat) : headerLines headerText n =
    ((splitCrlf headerText).map fun line =>
      if isContentLength line then contentLengthLine n else line) ++
        if (splitCrlf headerText).any isContentLength then [] else [contentLengthLine n] := by
  rw [headerLines]
  split
  · exact (List.append_nil _).symm
  · rfl

theorem findSome?_replaced (h : n < 2 ^ 64) (ls : List (List Char)) :
    ((ls.map fun line => if isContentLength line then contentLengthLine n else line) ++
      if ls.any isContentLength then [] else [contentLengthLine n]).findSome? contentLength =
      ((ls.takeWhile (!isContentLength ·)).findSome? contentLength).or (some n) := by
  induction ls with
  | nil =>
    show [contentLengthLine n].findSome? contentLength = some n
    rw [List.findSome?_singleton, contentLength_contentLengthLine h]
  | cons line ls ih =>
    cases hline : isContentLength line with
    | true =>
      simp only [List.map_cons, hline, if_true, List.cons_append, List.findSome?_cons,
        contentLength_contentLengthLine h, List.takeWhile_cons, Bool.not_true, Bool.false_eq_true,
        if_false, List.findSome?_nil, Option.none_or]
    | false =>
      simp only [List.map_cons, List.any_cons, hline, Bool.false_or, Bool.false_eq_true, if_false,
        List.takeWhile_cons, Bool.not_false, if_true, List.cons_append, List.findSome?_cons]
      cases contentLength line with
      | some v => rfl
      | none => exact ih

/-- What the test reads in the header that is written. -/
theorem contentLength_headerLines (h : n < 2 ^ 64) (headerText : List Char) :
    contentLength (joinCrlf (headerLines headerText n)) =
      (strayLength headerText).or (some n) := by
  rw [contentLength_joinCrlf, headerLines_eq, strayLength]
  exact findSome?_replaced h _

end Stray

/-! ## The end of the header -/

section HeaderEnd

variable {line text : List Char} {ls : List (List Char)}

theorem prefix_joinCrlf (line : List Char) (rest : List (List Char)) :
    line <+: joinCrlf (line :: rest) := by
  cases rest with
  | nil => exact List.prefix_refl line
  | cons next rest =>
    rw [joinCrlf_cons]
    exact List.prefix_append ..

theorem splitCrlf_ne_nil (text : List Char) : splitCrlf text ≠ [] := by
  fun_induction splitCrlf text with
  | case1 => exact List.cons_ne_nil _ _
  | case2 text ih => exact List.cons_ne_nil _ _
  | case3 c text hpair ih =>
    rw [Ne, List.modifyHead_eq_nil_iff]
    exact ih

/-- The lines are the text. -/
theorem joinCrlf_splitCrlf (text : List Char) : joinCrlf (splitCrlf text) = text := by
  fun_induction splitCrlf text with
  | case1 => rfl
  | case2 text ih =>
    obtain ⟨line, rest, hlines⟩ := List.exists_cons_of_ne_nil (splitCrlf_ne_nil text)
    rw [hlines] at ih ⊢
    rw [joinCrlf_cons, ih, List.nil_append]
  | case3 c text hpair ih =>
    obtain ⟨line, rest, hlines⟩ := List.exists_cons_of_ne_nil (splitCrlf_ne_nil text)
    rw [hlines] at ih ⊢
    rw [List.modifyHead_cons, ← ih]
    cases rest with
    | nil => rfl
    | cons next rest => rw [joinCrlf_cons, joinCrlf_cons, List.cons_append]

/-- No line has a line end in it. -/
theorem splitCrlf_free (text : List Char) : ∀ line ∈ splitCrlf text, ¬['\r', '\n'] <:+: line := by
  have hnil : ¬['\r', '\n'] <:+: ([] : List Char) := fun h =>
    absurd (List.infix_nil.mp h) (List.cons_ne_nil _ _)
  fun_induction splitCrlf text with
  | case1 => exact List.forall_mem_singleton.mpr hnil
  | case2 text ih => exact List.forall_mem_cons.mpr ⟨hnil, ih⟩
  | case3 c text hpair ih =>
    obtain ⟨line, rest, hlines⟩ := List.exists_cons_of_ne_nil (splitCrlf_ne_nil text)
    have htext := joinCrlf_splitCrlf text
    rw [hlines] at ih htext ⊢
    obtain ⟨hline, hrest⟩ := List.forall_mem_cons.mp ih
    rw [List.modifyHead_cons]
    refine List.forall_mem_cons.mpr ⟨fun h => ?_, hrest⟩
    rcases List.infix_cons_iff.mp h with hprefix | hinfix
    · obtain ⟨hc, hhead⟩ := List.cons_prefix_cons.mp hprefix
      obtain ⟨more, hmore⟩ := hhead.trans (prefix_joinCrlf line rest)
      rw [htext] at hmore
      exact hpair more hc.symm hmore.symm
    · exact hline hinfix

/-- A line end is at the beginning only if the first line is empty. -/
theorem crlf_prefix_iff (hline : ¬['\r', '\n'] <:+: line) :
    ['\r', '\n'] <+: line ++ '\r' :: '\n' :: text ↔ [] = line := by
  constructor
  · intro hprefix
    rcases line with _ | ⟨c, _ | ⟨d, line⟩⟩
    · rfl
    · exact absurd (List.cons_prefix_cons.mp (List.cons_prefix_cons.mp hprefix).2).1 (by decide)
    · obtain ⟨hc, hrest⟩ := List.cons_prefix_cons.mp hprefix
      obtain ⟨hd, -⟩ := List.cons_prefix_cons.mp hrest
      rw [← hc, ← hd] at hline
      exact absurd (List.prefix_append ['\r', '\n'] line).isInfix hline
  · rintro rfl
    exact List.prefix_append ['\r', '\n'] text

/-- Behind lines and the beginning of an empty one, an empty line is one of the lines. -/
theorem blank_iff (hfree : ∀ line ∈ ls, ¬['\r', '\n'] <:+: line) (hne : ls ≠ []) :
    ['\r', '\n', '\r', '\n'] <:+: joinCrlf ls ++ ['\r', '\n', '\r'] ↔ [] ∈ ls.tail := by
  induction ls with
  | nil => exact absurd rfl hne
  | cons line rest ih =>
    obtain ⟨hline, hrest⟩ := List.forall_mem_cons.mp hfree
    cases rest with
    | nil =>
      rw [joinCrlf, Text.infix_append_pair_iff (by decide) hline]
      exact iff_of_false (by decide) List.not_mem_nil
    | cons next rest =>
      have hnext : ['\r', '\n'] <+: joinCrlf (next :: rest) ++ ['\r', '\n', '\r'] ↔ [] = next := by
        obtain ⟨hfirst, -⟩ := List.forall_mem_cons.mp hrest
        cases rest with
        | nil => exact crlf_prefix_iff hfirst
        | cons after rest =>
          rw [joinCrlf_cons, List.append_assoc]
          exact crlf_prefix_iff hfirst
      rw [joinCrlf_cons, List.append_assoc, List.cons_append, List.cons_append,
        Text.infix_append_pair_iff (by decide) hline, ih hrest (List.cons_ne_nil _ _), hnext,
        List.tail_cons, List.tail_cons, List.mem_cons]

end HeaderEnd

/-! ## The parts that are found again -/

section Found

variable {data : Bytes} {i n : Nat}

theorem cr_not_mem_contentLengthLine (n : Nat) : '\r' ∉ contentLengthLine n := by
  rw [contentLengthLine_eq, List.mem_append]
  rintro (hname | hdigit)
  · exact absurd hname (by decide +kernel)
  · exact absurd (Text.isDigit_toDigits n _ hdigit) (by decide)

theorem contentLengthLine_ne_nil (n : Nat) : contentLengthLine n ≠ [] := by
  rw [contentLengthLine_eq]
  exact List.append_ne_nil_of_right_ne_nil _ Nat.toDigits_ne_nil

theorem headerLines_free (headerText : List Char) (n : Nat) :
    ∀ line ∈ headerLines headerText n, ¬['\r', '\n'] <:+: line := by
  intro line hline
  rcases mem_headerLines.mp hline with ⟨hold, -⟩ | rfl
  · exact splitCrlf_free headerText line hold
  · exact fun h => cr_not_mem_contentLengthLine n (h.subset List.mem_cons_self)

theorem headerLines_ne_nil (headerText : List Char) (n : Nat) : headerLines headerText n ≠ [] :=
  List.ne_nil_of_mem (mem_headerLines.mpr (.inr rfl))

/-- No line becomes empty. -/
theorem headerLines_tail (headerText : List Char) (n : Nat)
    (h : [] ∈ (headerLines headerText n).tail) : [] ∈ (splitCrlf headerText).tail := by
  obtain ⟨line, rest, hlines⟩ := List.exists_cons_of_ne_nil (splitCrlf_ne_nil headerText)
  rw [headerLines_eq, hlines, List.map_cons, List.cons_append, List.tail_cons] at h
  rw [hlines, List.tail_cons]
  rcases List.mem_append.mp h with hold | hnew
  · obtain ⟨old, hmem, heq⟩ := List.mem_map.mp hold
    split at heq
    · exact absurd heq (contentLengthLine_ne_nil n)
    · exact heq ▸ hmem
  · split at hnew
    · exact absurd hnew List.not_mem_nil
    · exact absurd (List.mem_singleton.mp hnew).symm (contentLengthLine_ne_nil n)

theorem map_toUInt8_blank :
    ['\r', '\n', '\r', '\n'].map Char.toUInt8 = asBytes "\r\n\r\n" := by decide

/-- The header of a response has no empty line in it. -/
theorem splitCrlf_tail (h : headerEnd data = some i) :
    [] ∉ (splitCrlf (Utf8.lossy (data.take i))).tail := by
  intro hblank
  have hstart : (asBytes "\r\n\r\n").dropLast =
      '\r'.toUInt8 :: ['\n'.toUInt8, '\r'.toUInt8] := by decide
  have hdecoded : Utf8.lossy ('\r'.toUInt8 :: ['\n'.toUInt8, '\r'.toUInt8]) =
      ['\r', '\n', '\r'] := by decide
  have hinfix := (blank_iff (splitCrlf_free _) (splitCrlf_ne_nil _)).mpr hblank
  rw [joinCrlf_splitCrlf, ← hdecoded, ← Utf8.lossy_append_ascii _ _ (by decide), ← hstart,
    Utf8.infix_lossy_iff (by decide) (by decide), map_toUInt8_blank] at hinfix
  exact Tokens.not_infix_of_position (by decide) h hinfix

/-- The rewritten header ends where it is put in front of the body. -/
theorem headerEnd_assemble (h : headerEnd data = some i) (body : Bytes) :
    headerEnd (assemble (Utf8.lossy (data.take i)) body) =
      some (encode (joinCrlf (headerLines (Utf8.lossy (data.take i)) body.length))).length := by
  refine (Tokens.position_literal_append (by decide)).mpr fun hinfix => ?_
  have hstart : (asBytes "\r\n\r\n").dropLast = encode ['\r', '\n', '\r'] := by decide
  rw [← map_toUInt8_blank, map_toUInt8_blank, hstart, ← encode_append, ← map_toUInt8_blank,
    ← Utf8.infix_lossy_iff (by decide) (by decide), encode, Utf8.lossy_encode] at hinfix
  refine splitCrlf_tail h (headerLines_tail _ body.length ?_)
  exact (blank_iff (headerLines_free _ _) (headerLines_ne_nil _ _)).mp hinfix

end Found

/-! ## Where a response ends -/

/-- The message is a header and the body, and the test finds out where it ends. -/
structure SelfDelimiting (out body : Bytes) : Prop where
  /-- The body begins behind the first empty line, and its length is read before. -/
  framed : ∃ i, headerEnd out = some i ∧ out.drop (i + 4) = body ∧
    contentLength (Utf8.lossy (out.take i)) = some body.length
  complete : httpResponseComplete out = true
  incomplete : ∀ start, start <+: out → start ≠ out → httpResponseComplete start = false

section Delimiting

variable {out body : Bytes} {i : Nat}

theorem take_assemble (headerText : List Char) (body : Bytes) : (assemble headerText body).take
    (encode (joinCrlf (headerLines headerText body.length))).length =
      encode (joinCrlf (headerLines headerText body.length)) := by
  rw [assemble, List.append_assoc, List.take_left]

theorem drop_assemble (headerText : List Char) (body : Bytes) : (assemble headerText body).drop
    ((encode (joinCrlf (headerLines headerText body.length))).length + 4) = body :=
  List.drop_left' List.length_append

/-- What the test reads in a response that is put together. -/
theorem contentLength_assemble (headerText : List Char) (h : body.length < 2 ^ 64) :
    contentLength (Utf8.lossy ((assemble headerText body).take
      (encode (joinCrlf (headerLines headerText body.length))).length)) =
        (strayLength headerText).or (some body.length) := by
  have hdecoded : Utf8.lossy (encode (joinCrlf (headerLines headerText body.length))) = _ :=
    Utf8.lossy_encode _
  rw [take_assemble, hdecoded, contentLength_headerLines h]

/-- A message whose length is declared ends there. -/
theorem SelfDelimiting.of_framed (hheader : headerEnd out = some i) (hbody : out.drop (i + 4) = body)
    (hlength : contentLength (Utf8.lossy (out.take i)) = some body.length)
    (hfits : out.length < 2 ^ 64) : SelfDelimiting out body := by
  have hend : out.length = i + 4 + body.length := by
    rw [← hbody, List.length_drop, Nat.add_sub_cancel' (headerEnd_add_four_le hheader)]
  refine ⟨⟨i, hheader, hbody, hlength⟩, ?_, fun start hstart hne => ?_⟩
  · rw [httpResponseComplete, messageComplete]
    simp only [hheader, hlength, ← hend, Nat.mod_eq_of_lt hfits, Nat.le_refl, decide_true]
  · have hlt : start.length < out.length :=
      Nat.lt_of_le_of_ne hstart.length_le fun heq => hne (hstart.eq_of_length heq)
    rw [List.prefix_iff_eq_take.mp hstart]
    exact not_complete_take hheader hlength hend hfits hlt

end Delimiting

/-- A rewritten response that fits into memory ends where it says exactly if no other length
is read before the one that is written. -/
theorem selfDelimiting_iff (config : HttpRewriteConfig) (data : Bytes) {i : Nat}
    (hheader : headerEnd data = some i)
    (hfits : (rewriteHttpResponse data config).length < 2 ^ 64) :
    SelfDelimiting (rewriteHttpResponse data config)
        (replaceUrlAuthorities (data.drop (i + 4)) config) ↔
      ∀ length, strayLength (Utf8.lossy (data.take i)) = some length →
        length = (replaceUrlAuthorities (data.drop (i + 4)) config).length := by
  have hout : rewriteHttpResponse data config =
      assemble (Utf8.lossy (data.take i)) (replaceUrlAuthorities (data.drop (i + 4)) config) := by
    rw [rewriteHttpResponse, hheader]
  rw [hout] at hfits ⊢
  generalize replaceUrlAuthorities (data.drop (i + 4)) config = body at hfits ⊢
  have hbody : body.length < 2 ^ 64 := by
    rw [length_assemble] at hfits
    exact Nat.lt_of_le_of_lt (Nat.le_add_left ..) hfits
  have hend := headerEnd_assemble hheader body
  have hread := contentLength_assemble (Utf8.lossy (data.take i)) hbody
  constructor
  · intro hdelimits length hstray
    obtain ⟨k, hk, -, hlength⟩ := hdelimits.framed
    obtain rfl := Option.some.inj (hk.symm.trans hend)
    rw [hread, hstray, Option.some_or, Option.some.injEq] at hlength
    exact hlength
  · intro hsame
    refine .of_framed hend (drop_assemble _ body) (hread.trans ?_) hfits
    cases hstray : strayLength (Utf8.lossy (data.take i)) with
    | none => rfl
    | some length => rw [hsame length hstray, Option.some_or]

/-- A header without a bare LF. -/
theorem selfDelimiting_iff_crlf :
    let data := asBytes "HTTP/1.1 200 OK\r\nContent-Length: 16\r\n\r\nhttp://10.0.0.25"
    let config : HttpRewriteConfig := ⟨"192.168.1.2", 16540, 15540⟩
    SelfDelimiting (rewriteHttpResponse data config)
      (replaceUrlAuthorities (data.drop 39) config) := by
  intro data config
  have hstray : strayLength (Utf8.lossy (data.take 35)) = none := by decide +kernel
  refine (selfDelimiting_iff config data (by decide +kernel) (by decide +kernel)).mpr fun length h => ?_
  cases hstray.symm.trans h

/-- A length behind a bare LF stays, the one that is added comes too late, and the response
is complete before it has ended. -/
theorem bareLf_not_selfDelimiting :
    let data := asBytes "HTTP/1.1 200 OK\nContent-Length: 16\r\n\r\nhttp://10.0.0.25"
    let config : HttpRewriteConfig := ⟨"192.168.1.2", 16540, 15540⟩
    let out := rewriteHttpResponse data config
    headerEnd data = some 34 ∧
    out = asBytes "HTTP/1.1 200 OK\nContent-Length: 16\r\nContent-Length: 24\r\n\r\n" ++
      asBytes "http://192.168.1.2:16540" ∧
    httpResponseComplete (out.take (out.length - 8)) = true ∧
    ¬SelfDelimiting out (replaceUrlAuthorities (data.drop 38) config) := by
  intro data config out
  have hearly : httpResponseComplete (out.take (out.length - 8)) = true := by decide +kernel
  refine ⟨by decide +kernel, by decide +kernel, hearly, fun hdelimits => ?_⟩
  have hne : out.take (out.length - 8) ≠ out := by decide +kernel
  rw [hdelimits.incomplete _ (List.take_prefix ..) hne] at hearly
  cases hearly

end DahuaBridge
