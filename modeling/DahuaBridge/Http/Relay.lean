import DahuaBridge.Http.Rewrite

/-!
# Relaying HTTP responses

`process_writer` of `rust-engine/src/process.rs`: the bytes of a realm on their way
to the client. On an ONVIF realm the chunks are put together until the response is
complete, and it is rewritten as a whole.

A header without `Content-Length` makes a response complete on the spot, and so the
cut between two chunks can end a response early.

* `collect_cases`: what is rewritten is all there is, or a prefix that is complete.
* `answer_concat_iff`: when one more byte makes no difference to the answer.
* `relay_independent_iff`: when no cut makes a difference.
* `relay_independent_of_length`: a response with its length is relayed as a whole.
-/

namespace DahuaBridge

structure WriterExit where
  /-- What was given to `write_all`, in order. -/
  writes : List Bytes
  /-- The realms left in `channels`. -/
  channels : List U32

def WriterExit.written (done : WriterExit) : Bytes := done.writes.flatten

/-- The `while` loop on an ONVIF realm. -/
def collect (response : Bytes) : List Bytes → Bytes
  | [] => response
  | data :: rx =>
    let response := response ++ data
    if httpResponseComplete response then response else collect response rx

/-- The `loop` on any other realm; `fails n` says that the `n`-th write is an error. -/
def relay (fails : Nat → Bool) : Nat → List Bytes → List Bytes
  | _, [] => []
  | n, data :: rx => if fails n then [data] else data :: relay fails (n + 1) rx

/-- What the client gets for a response. -/
def answer (config : HttpRewriteConfig) (response : Bytes) : Bytes :=
  normalizeNoProfileDeleteResponse (rewriteHttpResponse response config)

/-- `process_writer`, with the chunks that arrive before the channel is closed. -/
def processWriter (httpRewrite : Option HttpRewriteConfig) (fails : Nat → Bool) (rx : List Bytes)
    (realm : U32) (channels : List U32) : WriterExit :=
  match httpRewrite with
  | some config =>
    let response := collect [] rx
    -- the result of the write is not looked at
    { writes := if response.isEmpty then [] else [answer config response]
      channels := channels.filter (· ≠ realm) }
  | none => { writes := relay fails 0 rx, channels }

/-! ## One more byte -/

/-- What follows the header. -/
def responseBody (data : Bytes) : Bytes :=
  match headerEnd data with
  | none => []
  | some headerEnd => data.drop (headerEnd + 4)

/-- A byte behind a complete response that makes no difference: the response is the fault
without it and with it, or the byte lengthens an address at the end of the body that is
replaced without it and with it. -/
def Harmless (config : HttpRewriteConfig) (data : Bytes) (b : UInt8) : Prop :=
  (isNoProfile (rewriteHttpResponse data config) = true ∧
    isNoProfile (rewriteHttpResponse (data ++ [b]) config) = true) ∨
  Tokens.LengthensEither (httpRule config) (rtspRule config) (responseBody data) b

section Byte

variable {config : HttpRewriteConfig} {data : Bytes} {b : UInt8} {headerText : List Char}
  {body body' : Bytes}

theorem answer_of_fault (h : isNoProfile (rewriteHttpResponse data config) = true) :
    answer config data = deleteProfileAnswer := if_pos h

theorem answer_of_not_fault (h : isNoProfile (rewriteHttpResponse data config) = false) :
    answer config data = rewriteHttpResponse data config :=
  if_neg (Bool.eq_false_iff.mp h)

theorem endsPlain_assemble (h : Tokens.EndsPlain isAuthorityEnd body) :
    Tokens.EndsPlain isAuthorityEnd (assemble headerText body) := h.append _

/-- A byte more in the body does not take the fault away. -/
theorem isNoProfile_assemble_concat (h : isNoProfile (assemble headerText body) = true) :
    isNoProfile (assemble headerText (body ++ [b])) = true := by
  rw [isNoProfile_iff, infix_assemble_iff foreign_profileText,
    infix_assemble_iff foreign_faultText] at h ⊢
  have hbody : body <:+: body ++ [b] := (List.prefix_append ..).isInfix
  exact ⟨h.1.imp_right fun hp => hp.trans hbody, h.2.imp_right fun hf => hf.trans hbody⟩

/-- If a byte more in the body makes the fault, the response before was not the answer to
it. -/
theorem assemble_ne_answer (h : isNoProfile (assemble headerText (body ++ [b])) = true) :
    assemble headerText body ≠ deleteProfileAnswer := by
  intro hanswer
  obtain ⟨hprofile, hfault⟩ := isNoProfile_iff.mp h
  refine not_both_suffix (suffix_of_infix_assemble foreign_profileText hprofile ?_)
    (suffix_of_infix_assemble foreign_faultText hfault ?_)
  · exact hanswer ▸ profileText_not_infix
  · exact hanswer ▸ faultText_not_infix

theorem rewriteHttpResponse_some (config : HttpRewriteConfig) {i : Nat} (h : headerEnd data = some i) :
    rewriteHttpResponse data config = assemble (Utf8.lossy (data.take i))
      (replaceUrlAuthorities (responseBody data) config) := by
  rw [rewriteHttpResponse, responseBody, h]

/-- Behind a header, a byte more is one in the body. -/
theorem rewriteHttpResponse_concat (config : HttpRewriteConfig) (b : UInt8) {i : Nat}
    (h : headerEnd data = some i) :
    rewriteHttpResponse (data ++ [b]) config = assemble (Utf8.lossy (data.take i))
      (replaceUrlAuthorities (responseBody data ++ [b]) config) := by
  have hle := headerEnd_add_four_le h
  rw [rewriteHttpResponse, responseBody, h, headerEnd_append [b] h]
  simp only [List.take_append_of_le_length (Nat.le_of_add_right_le hle),
    List.drop_append_of_le_length hle]

/-- The three things that a byte more can do to the rewritten body. -/
theorem replaceUrlAuthorities_concat (config : HttpRewriteConfig) (body : Bytes) (b : UInt8) :
    (¬Tokens.LengthensEither (httpRule config) (rtspRule config) body b ∧
        replaceUrlAuthorities (body ++ [b]) config = replaceUrlAuthorities body config ++ [b]) ∨
      (Tokens.LengthensEither (httpRule config) (rtspRule config) body b ∧
        replaceUrlAuthorities (body ++ [b]) config = replaceUrlAuthorities body config) ∨
      (¬Tokens.LengthensEither (httpRule config) (rtspRule config) body b ∧
        replaceUrlAuthorities (body ++ [b]) config ≠ replaceUrlAuthorities body config ∧
        Tokens.EndsPlain isAuthorityEnd (replaceUrlAuthorities (body ++ [b]) config) ∧
        Tokens.EndsPlain isAuthorityEnd (replaceUrlAuthorities body config)) := by
  simp only [replaceUrlAuthorities_eq]
  exact Tokens.apply_both_concat (httpRule_lawful config) (rtspRule_lawful config)
    (compatible_rules config) body b

/-- The rewritten body stays the same only if the byte lengthens an address. -/
theorem replaceUrlAuthorities_concat_iff (config : HttpRewriteConfig) (body : Bytes) (b : UInt8) :
    replaceUrlAuthorities (body ++ [b]) config = replaceUrlAuthorities body config ↔
      Tokens.LengthensEither (httpRule config) (rtspRule config) body b := by
  rcases replaceUrlAuthorities_concat config body b with ⟨hno, hgrows⟩ | ⟨hyes, hsame⟩ | ⟨hno, hne, -⟩
  · refine iff_of_false (fun heq => ?_) hno
    rw [hgrows] at heq
    exact List.cons_ne_nil b [] (List.append_right_eq_self.mp heq)
  · exact iff_of_true hsame hyes
  · exact iff_of_false hne hno

/-- The answer to the fault is no response that a byte less or a byte more makes a fault. -/
theorem answer_ne_of_fault_ne {i : Nat} (h : headerEnd data = some i)
    (hne : isNoProfile (rewriteHttpResponse (data ++ [b]) config) ≠
      isNoProfile (rewriteHttpResponse data config)) :
    answer config (data ++ [b]) ≠ answer config data := by
  have hold := rewriteHttpResponse_some config h
  have hnew := rewriteHttpResponse_concat config b h
  have hcases := replaceUrlAuthorities_concat config (responseBody data) b
  cases hfault : isNoProfile (rewriteHttpResponse data config) with
  | true =>
    have hnofault : isNoProfile (rewriteHttpResponse (data ++ [b]) config) = false :=
      Bool.eq_false_iff.mpr fun h' => hne (h'.trans hfault.symm)
    rw [answer_of_fault hfault, answer_of_not_fault hnofault, hnew]
    rw [hold] at hfault
    rw [hnew] at hnofault
    rcases hcases with ⟨-, hgrows⟩ | ⟨-, hsame⟩ | ⟨-, -, hends, -⟩
    · rw [hgrows, isNoProfile_assemble_concat hfault] at hnofault
      cases hnofault
    · rw [hsame, hfault] at hnofault
      cases hnofault
    · exact fun heq => not_endsPlain_deleteProfileAnswer (heq ▸ endsPlain_assemble hends)
  | false =>
    have hnofault : isNoProfile (rewriteHttpResponse (data ++ [b]) config) = true :=
      Bool.eq_true_of_not_eq_false fun h' => hne (h'.trans hfault.symm)
    rw [answer_of_not_fault hfault, answer_of_fault hnofault, hold]
    rw [hold] at hfault
    rw [hnew] at hnofault
    rcases hcases with ⟨-, hgrows⟩ | ⟨-, hsame⟩ | ⟨-, -, -, hends⟩
    · rw [hgrows] at hnofault
      exact (assemble_ne_answer hnofault).symm
    · rw [hsame, hfault] at hnofault
      cases hnofault
    · exact fun heq => not_endsPlain_deleteProfileAnswer (heq ▸ endsPlain_assemble hends)

/-- Behind a header, one more byte makes no difference exactly if it is harmless. -/
theorem answer_concat_iff {i : Nat} (h : headerEnd data = some i) :
    answer config (data ++ [b]) = answer config data ↔ Harmless config data b := by
  have hold := rewriteHttpResponse_some config h
  have hnew := rewriteHttpResponse_concat config b h
  have hbody := replaceUrlAuthorities_concat_iff config (responseBody data) b
  by_cases hne : isNoProfile (rewriteHttpResponse (data ++ [b]) config) =
      isNoProfile (rewriteHttpResponse data config)
  · cases hfault : isNoProfile (rewriteHttpResponse data config) with
    | true =>
      rw [hfault] at hne
      rw [answer_of_fault hfault, answer_of_fault hne]
      exact iff_of_true rfl (.inl ⟨hfault, hne⟩)
    | false =>
      rw [hfault] at hne
      rw [answer_of_not_fault hfault, answer_of_not_fault hne, hold, hnew, assemble_inj, hbody,
        Harmless, hfault]
      simp only [Bool.false_eq_true, false_and, false_or]
  · refine iff_of_false (answer_ne_of_fault_ne h hne) ?_
    rintro (⟨hfault, hfault'⟩ | hlengthens)
    · exact hne (hfault'.trans hfault.symm)
    · rw [hold, hnew, hbody.mpr hlengthens] at hne
      exact hne rfl

end Byte

/-! ## Where the chunks end -/

section Chunks

variable {config : HttpRewriteConfig} {fails : Nat → Bool} {realm : U32} {channels : List U32}
  {R response : Bytes} {chunks : List Bytes} {k : Nat}

/-- What is put together is all there is, or a prefix that is complete. -/
theorem collect_cases (response : Bytes) (chunks : List Bytes) :
    collect response chunks = response ++ chunks.flatten ∨
      (httpResponseComplete (collect response chunks) = true ∧
        collect response chunks <+: response ++ chunks.flatten) := by
  induction chunks generalizing response with
  | nil => exact .inl (List.append_nil response).symm
  | cons data rx ih =>
    rw [collect, List.flatten_cons, ← List.append_assoc]
    split
    · next hcomplete => exact .inr ⟨hcomplete, List.prefix_append ..⟩
    · exact ih (response ++ data)

/-- A complete response is no longer waited for. -/
theorem collect_complete (h : httpResponseComplete (response ++ R) = true) :
    collect response (R :: chunks) = response ++ R := if_pos h

/-- An empty response is not complete, and nothing is written for it. -/
theorem written_processWriter (config : HttpRewriteConfig) (fails : Nat → Bool) (realm : U32)
    (channels : List U32) (chunks : List Bytes) :
    (processWriter (some config) fails chunks realm channels).written =
      if (collect [] chunks).isEmpty then [] else answer config (collect [] chunks) := by
  simp only [processWriter, WriterExit.written]
  split
  · rfl
  · exact List.append_nil _

/-- The chunks are a way to cut `R` into pieces that are not empty. -/
def Cuts (R : Bytes) (chunks : List Bytes) : Prop :=
  (∀ data ∈ chunks, data ≠ []) ∧ chunks.flatten = R

/-- What is behind a prefix that is complete makes no difference, if no byte of it does. -/
theorem answer_take_eq (h : ∀ k (hk : k < R.length), httpResponseComplete (R.take k) = true →
    Harmless config (R.take k) R[k]) (hk : k ≤ R.length)
    (hcomplete : httpResponseComplete (R.take k) = true) :
    answer config (R.take k) = answer config R := by
  induction hn : R.length - k generalizing k with
  | zero => rw [List.take_of_length_le (Nat.sub_eq_zero_iff_le.mp hn)]
  | succ n ih =>
    have hlt : k < R.length := by omega
    obtain ⟨i, hi⟩ := headerEnd_of_messageComplete hcomplete
    have hnext : httpResponseComplete (R.take (k + 1)) = true := by
      rw [← List.take_append_getElem hlt]
      exact messageComplete_append _ hcomplete
    rw [← ih hlt hnext (by omega), ← List.take_append_getElem hlt]
    exact ((answer_concat_iff hi).mpr (h k hlt hcomplete)).symm

variable (config fails realm channels)

/-- A complete prefix that arrives as a chunk of its own is all that is written. -/
theorem written_take (hk : k < R.length) (hcomplete : httpResponseComplete (R.take k) = true) :
    Cuts R [R.take k, R.drop k] ∧
      (processWriter (some config) fails [R.take k, R.drop k] realm channels).written =
        answer config (R.take k) := by
  have hne : R.take k ≠ [] := by
    intro hnil
    rw [hnil] at hcomplete
    cases hcomplete
  refine ⟨⟨?_, ?_⟩, ?_⟩
  · simp only [List.forall_mem_cons, List.not_mem_nil, false_imp_iff, implies_true, and_true]
    exact ⟨hne, fun hnil => absurd (List.drop_eq_nil_iff.mp hnil) (Nat.not_le.mpr hk)⟩
  · rw [List.flatten_cons, List.flatten_singleton, List.take_append_drop]
  · rw [written_processWriter, collect_complete hcomplete, List.nil_append,
      if_neg (mt List.isEmpty_iff.mp hne)]

/-- A response in one chunk. -/
theorem written_whole (hne : R ≠ []) : Cuts R [R] ∧
    (processWriter (some config) fails [R] realm channels).written = answer config R := by
  have hcollect : collect [] [R] = R := by
    rw [collect, List.nil_append]
    split <;> rfl
  refine ⟨⟨fun data hdata => List.mem_singleton.mp hdata ▸ hne, List.flatten_singleton⟩, ?_⟩
  rw [written_processWriter, hcollect, if_neg (mt List.isEmpty_iff.mp hne)]

/-- Where every byte behind a complete prefix is harmless, the answer is the one to the
whole response. -/
theorem written_of_harmless (h : ∀ k (hk : k < R.length),
    httpResponseComplete (R.take k) = true → Harmless config (R.take k) R[k]) (hcuts : Cuts R chunks) :
    (processWriter (some config) fails chunks realm channels).written =
      if R.isEmpty then [] else answer config R := by
  rw [written_processWriter]
  have hcases := collect_cases [] chunks
  rw [hcuts.2, List.nil_append] at hcases
  rcases hcases with hall | ⟨hcomplete, hprefix⟩
  · rw [hall]
  · have htake := List.prefix_iff_eq_take.mp hprefix
    have hne : collect [] chunks ≠ [] := by
      intro hnil
      rw [hnil] at hcomplete
      cases hcomplete
    have hR : R ≠ [] := fun hnil => hne (List.prefix_nil.mp (hnil ▸ hprefix))
    rw [htake] at hcomplete
    rw [if_neg (mt List.isEmpty_iff.mp hne), if_neg (mt List.isEmpty_iff.mp hR), htake,
      answer_take_eq h hprefix.length_le hcomplete]

end Chunks

/-- What the client gets does not depend on the chunks exactly if every byte behind a
prefix that is complete is harmless. -/
theorem relay_independent_iff (config : HttpRewriteConfig) (fails : Nat → Bool) (realm : U32)
    (channels : List U32) (R : Bytes) :
    (∀ chunks chunks', Cuts R chunks → Cuts R chunks' →
      (processWriter (some config) fails chunks realm channels).written =
        (processWriter (some config) fails chunks' realm channels).written) ↔
    ∀ k (hk : k < R.length), httpResponseComplete (R.take k) = true →
      Harmless config (R.take k) R[k] := by
  constructor
  · intro hsame k hk hcomplete
    have hR : R ≠ [] := List.ne_nil_of_length_pos (Nat.lt_of_le_of_lt (Nat.zero_le k) hk)
    obtain ⟨hcutsR, hwhole⟩ := written_whole config fails realm channels hR
    -- every prefix that is complete is answered like the whole
    have hprefix : ∀ j < R.length, httpResponseComplete (R.take j) = true →
        answer config (R.take j) = answer config R := by
      intro j hj hcomplete
      obtain ⟨hcuts, hwritten⟩ := written_take config fails realm channels hj hcomplete
      rw [← hwritten, ← hwhole]
      exact hsame _ _ hcuts hcutsR
    obtain ⟨i, hi⟩ := headerEnd_of_messageComplete hcomplete
    have hnext : httpResponseComplete (R.take (k + 1)) = true := by
      rw [← List.take_append_getElem hk]
      exact messageComplete_append _ hcomplete
    rw [← answer_concat_iff hi, List.take_append_getElem hk, hprefix k hk hcomplete]
    rcases Nat.lt_or_eq_of_le (Nat.succ_le_of_lt hk) with hlt | hend
    · exact hprefix (k + 1) hlt hnext
    · rw [List.take_of_length_le (Nat.le_of_eq hend.symm)]
  · intro h chunks chunks' hcuts hcuts'
    rw [written_of_harmless config fails realm channels h hcuts,
      written_of_harmless config fails realm channels h hcuts']

/-- A header without a length, and a body that comes with it or after it. -/
theorem relay_cut_differs :
    let head := asBytes "HTTP/1.1 200 OK\r\n\r\n"
    let body := asBytes "X"
    let config : HttpRewriteConfig := ⟨"192.168.1.2", 16540, 15540⟩
    Cuts (head ++ body) [head ++ body] ∧ Cuts (head ++ body) [head, body] ∧
    (processWriter (some config) (fun _ => false) [head ++ body] 1 [1]).written =
      asBytes "HTTP/1.1 200 OK\r\nContent-Length: 1\r\n\r\nX" ∧
    (processWriter (some config) (fun _ => false) [head, body] 1 [1]).written =
      asBytes "HTTP/1.1 200 OK\r\nContent-Length: 0\r\n\r\n" ∧
    (processWriter (some config) (fun _ => false) [head ++ body] 1 [1]).written ≠
      (processWriter (some config) (fun _ => false) [head, body] 1 [1]).written := by
  refine ⟨⟨by decide, by decide⟩, ⟨by decide, by decide⟩, ?_, ?_, ?_⟩
  all_goals decide +kernel

/-! ## Responses with their length -/

section Length

variable {R : Bytes} {i length k : Nat}

/-- No prefix of a response is complete if its length is declared and nothing follows. -/
theorem not_complete_take (hheader : headerEnd R = some i)
    (hlength : contentLength (Utf8.lossy (R.take i)) = some length)
    (hend : R.length = i + 4 + length) (hfits : R.length < 2 ^ 64) (hk : k < R.length) :
    httpResponseComplete (R.take k) = false := by
  rw [Bool.eq_false_iff]
  intro hcomplete
  obtain ⟨j, hj⟩ := headerEnd_of_messageComplete hcomplete
  have hle := headerEnd_add_four_le hj
  have hsame := headerEnd_append (R.drop k) hj
  rw [List.take_append_drop, hheader, Option.some.injEq] at hsame
  subst hsame
  rw [List.length_take_of_le (Nat.le_of_lt hk)] at hle
  have htake : (R.take k).take i = R.take i := by
    rw [List.take_take, Nat.min_eq_left (Nat.le_of_add_right_le hle)]
  simp only [httpResponseComplete, messageComplete, hj, htake, hlength, ← hend,
    Nat.mod_eq_of_lt hfits, decide_eq_true_eq, List.length_take_of_le (Nat.le_of_lt hk)] at hcomplete
  exact Nat.not_le.mpr hk hcomplete

/-- Such a response is relayed in the same way however it is cut. -/
theorem relay_independent_of_length (config : HttpRewriteConfig) (fails : Nat → Bool) (realm : U32)
    (channels : List U32) (hheader : headerEnd R = some i)
    (hlength : contentLength (Utf8.lossy (R.take i)) = some length)
    (hend : R.length = i + 4 + length) (hfits : R.length < 2 ^ 64) {chunks : List Bytes}
    (hcuts : Cuts R chunks) :
    (processWriter (some config) fails chunks realm channels).written =
      if R.isEmpty then [] else answer config R := by
  refine written_of_harmless config fails realm channels (fun k hk hcomplete => ?_) hcuts
  rw [not_complete_take hheader hlength hend hfits hk] at hcomplete
  cases hcomplete

end Length

end DahuaBridge
