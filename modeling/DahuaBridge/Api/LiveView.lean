import DahuaBridge.Http.Message
import DahuaBridge.Lib.Tokens
import DahuaBridge.Ptcp.Packet

/-!
# The live view

`frames` in `live_view` of `app/main.py`: the output of FFmpeg comes in reads of any length, and
each JPEG of it is sent as one part of a response. The buffer keeps what a later read may
complete.

1. `scanJpegs`: what the JPEGs of a whole stream are.
2. `scanJpegs_append`: what is left in the buffer stands for all that has been read.
3. `part_injective`: a part tells its JPEG.
4. `frames_eq_scan`: the parts do not depend on how the stream is cut into reads.
-/

namespace DahuaBridge

/-! ## The generator -/

/-- `b"\xff\xd8"`. -/
def jpegStart : Bytes := [0xFF, 0xD8]

/-- `b"\xff\xd9"`. -/
def jpegEnd : Bytes := [0xFF, 0xD9]

/-- `buffer.find(marker, start)`. -/
def find (buffer marker : Bytes) (start : Nat) : Option Nat :=
  (Tokens.position (Tokens.literal marker) (buffer.drop start)).map (start + ·)

/-- The inner loop: the JPEGs that the buffer holds, and what is kept of it. The fuel counts
the turns that are left. -/
def drain : Nat → Bytes → List Bytes × Bytes
  | 0, buffer => ([], buffer)
  | fuel + 1, buffer =>
    match find buffer jpegStart 0 with
    | none => ([], if 2 < buffer.length then buffer.drop (buffer.length - 2) else buffer)
    | some start =>
      match find buffer jpegEnd (start + 2) with
      | none => ([], buffer.drop start)
      | some stop =>
        let stop := stop + 2
        let (jpegs, kept) := drain fuel (buffer.drop stop)
        ((buffer.take stop).drop start :: jpegs, kept)

/-- What is yielded for a JPEG. -/
def part (jpeg : Bytes) : Bytes :=
  asBytes "--frame\r\n" ++ asBytes "Content-Type: image/jpeg\r\n" ++
    asBytes ("Content-Length: " ++ toString jpeg.length ++ "\r\n\r\n") ++ jpeg ++ asBytes "\r\n"

/-- The outer loop, with the reads that it gets. It ends with the first that is empty. -/
def framesFrom : Bytes → List Bytes → List Bytes
  | _, [] => []
  | buffer, chunk :: reads =>
    if chunk.isEmpty then []
    else
      let (jpegs, kept) := drain ((buffer ++ chunk).length + 1) (buffer ++ chunk)
      jpegs.map part ++ framesFrom kept reads

def frames (reads : List Bytes) : List Bytes := framesFrom [] reads

/-! ## The scan of a whole stream -/

/-- The first start, the first end behind it, and what follows. -/
def nextJpeg (stream : Bytes) : Option (Bytes × Bytes) :=
  (Tokens.position (Tokens.literal jpegStart) stream).bind fun i =>
    (Tokens.position (Tokens.literal jpegEnd) (stream.drop (i + 2))).map fun j =>
      ((stream.drop i).take (j + 4), stream.drop (i + (j + 4)))

/-- The JPEGs of a stream. The fuel counts the bytes that are left. -/
def scanAux : Nat → Bytes → List Bytes
  | 0, _ => []
  | fuel + 1, stream =>
    match nextJpeg stream with
    | none => []
    | some (jpeg, rest) => jpeg :: scanAux fuel rest

def scanJpegs (stream : Bytes) : List Bytes := scanAux (stream.length + 1) stream

section Scan

variable {stream rest jpeg : Bytes} {i j k fuel fuel' : Nat}

theorem length_literal (marker : Bytes) : (Tokens.literal marker).length = marker.length :=
  List.length_map _

theorem nextJpeg_eq (hi : Tokens.position (Tokens.literal jpegStart) stream = some i)
    (hj : Tokens.position (Tokens.literal jpegEnd) (stream.drop (i + 2)) = some j) :
    nextJpeg stream = some ((stream.drop i).take (j + 4), stream.drop (i + (j + 4))) := by
  rw [nextJpeg, hi, Option.bind_some, hj, Option.map_some]

theorem nextJpeg_shorter (h : nextJpeg stream = some (jpeg, rest)) :
    rest.length < stream.length := by
  obtain ⟨i, hi, hmap⟩ := Option.bind_eq_some_iff.mp h
  obtain ⟨j, hj, hpair⟩ := Option.map_eq_some_iff.mp hmap
  obtain ⟨-, rfl⟩ := Prod.mk.inj hpair
  have hle := Tokens.position_add_length_le (List.cons_ne_nil _ _) hi
  change i + 2 ≤ stream.length at hle
  rw [List.length_drop]
  omega

theorem scanAux_fuel (h : stream.length < fuel) (h' : stream.length < fuel') :
    scanAux fuel stream = scanAux fuel' stream := by
  induction fuel generalizing fuel' stream with
  | zero => exact absurd h (Nat.not_lt_zero _)
  | succ fuel ih =>
    obtain ⟨fuel', rfl⟩ : ∃ n, fuel' = n + 1 :=
      Nat.exists_eq_succ_of_ne_zero (Nat.ne_of_gt (Nat.zero_lt_of_lt h'))
    rw [scanAux, scanAux]
    cases hnext : nextJpeg stream with
    | none => rfl
    | some next =>
      have hshorter := nextJpeg_shorter hnext
      exact congrArg (next.1 :: ·) (ih (Nat.lt_of_lt_of_le hshorter (Nat.le_of_lt_succ h))
        (Nat.lt_of_lt_of_le hshorter (Nat.le_of_lt_succ h')))

theorem scanJpegs_none (h : nextJpeg stream = none) : scanJpegs stream = [] := by
  rw [scanJpegs, scanAux, h]

theorem scanJpegs_some (h : nextJpeg stream = some (jpeg, rest)) :
    scanJpegs stream = jpeg :: scanJpegs rest := by
  rw [scanJpegs, scanAux, h, scanJpegs]
  exact congrArg (jpeg :: ·) (scanAux_fuel (nextJpeg_shorter h) (Nat.lt_succ_self _))

theorem scanJpegs_congr {stream' : Bytes} (h : nextJpeg stream = nextJpeg stream') :
    scanJpegs stream = scanJpegs stream' := by
  cases hnext : nextJpeg stream with
  | none => rw [scanJpegs_none hnext, scanJpegs_none (h.symm.trans hnext)]
  | some next => rw [scanJpegs_some hnext, scanJpegs_some (h.symm.trans hnext)]

/-- Where no JPEG starts, nothing is lost. -/
theorem nextJpeg_drop
    (h : ∀ j < k, Tokens.startsWith (Tokens.literal jpegStart) (stream.drop j) = false) :
    nextJpeg stream = nextJpeg (stream.drop k) := by
  rw [nextJpeg, nextJpeg, Tokens.position_drop h]
  cases Tokens.position (Tokens.literal jpegStart) (stream.drop k) with
  | none => rfl
  | some i =>
    simp only [Option.map_some, Option.bind_some, List.drop_drop, Nat.add_assoc]

end Scan

/-! ## The buffer -/

section Drain

variable {buffer more : Bytes} {start stop fuel : Nat}

theorem find_start : find buffer jpegStart 0 =
    Tokens.position (Tokens.literal jpegStart) buffer := by
  rw [find, List.drop_zero]
  cases Tokens.position (Tokens.literal jpegStart) buffer with
  | none => rfl
  | some i => exact congrArg some (Nat.zero_add i)

/-- A marker that is found in a part of the stream is there. -/
theorem startsWith_within {j : Nat} (hj : j + 2 ≤ buffer.length) (more : Bytes) :
    Tokens.startsWith (Tokens.literal jpegStart) ((buffer ++ more).drop j) =
      Tokens.startsWith (Tokens.literal jpegStart) (buffer.drop j) := by
  rw [List.drop_append_of_le_length (Nat.le_of_add_right_le hj)]
  refine Tokens.startsWith_append more ?_
  rw [length_literal, List.length_drop]
  exact Nat.le_sub_of_add_le' hj

/-- Without a start, only the last byte can belong to a JPEG. -/
theorem nextJpeg_trim (h : find buffer jpegStart 0 = none) (more : Bytes) :
    nextJpeg (buffer ++ more) = nextJpeg (buffer.drop (buffer.length - 2) ++ more) := by
  rw [find_start] at h
  rw [nextJpeg_drop (k := buffer.length - 2), List.drop_append_of_le_length (Nat.sub_le _ _)]
  intro j hj
  rw [startsWith_within (by omega)]
  exact Tokens.position_eq_none h j

/-- What stands before a start belongs to no JPEG. -/
theorem nextJpeg_start (h : find buffer jpegStart 0 = some start) (more : Bytes) :
    nextJpeg (buffer ++ more) = nextJpeg (buffer.drop start ++ more) := by
  rw [find_start] at h
  have hle := Tokens.position_add_length_le (List.cons_ne_nil _ _) h
  change start + 2 ≤ buffer.length at hle
  rw [nextJpeg_drop (k := start), List.drop_append_of_le_length (by omega)]
  intro j hj
  rw [startsWith_within (by omega)]
  exact (Tokens.position_eq_some h).2 j hj

/-- A JPEG that the buffer holds is the next one, whatever follows. -/
theorem nextJpeg_whole (hstart : find buffer jpegStart 0 = some start)
    (hstop : find buffer jpegEnd (start + 2) = some stop) (more : Bytes) :
    nextJpeg (buffer ++ more) =
      some ((buffer.take (stop + 2)).drop start, buffer.drop (stop + 2) ++ more) := by
  rw [find_start] at hstart
  obtain ⟨j, hj, rfl⟩ := Option.map_eq_some_iff.mp hstop
  have hle := Tokens.position_add_length_le (List.cons_ne_nil _ _) hj
  change j + 2 ≤ (buffer.drop (start + 2)).length at hle
  rw [List.length_drop] at hle
  have hj' : Tokens.position (Tokens.literal jpegEnd) ((buffer ++ more).drop (start + 2)) =
      some j := by
    rw [List.drop_append_of_le_length (by omega)]
    exact Tokens.position_append (List.cons_ne_nil _ _) more hj
  have hwhole : start + (j + 4) ≤ buffer.length := by omega
  have hlast : start + 2 + j + 2 = start + (j + 4) := by omega
  rw [nextJpeg_eq (Tokens.position_append (List.cons_ne_nil _ _) more hstart) hj', hlast,
    List.drop_append_of_le_length hwhole,
    List.drop_append_of_le_length (Nat.le_of_add_right_le hwhole),
    List.take_append_of_le_length (by rw [List.length_drop]; omega), List.drop_take,
    Nat.add_sub_cancel_left]

theorem drain_none (h : find buffer jpegStart 0 = none) :
    drain (fuel + 1) buffer = ([], buffer.drop (buffer.length - 2)) := by
  rw [drain, h]
  dsimp only
  split
  · rfl
  · next hshort => rw [Nat.sub_eq_zero_of_le (Nat.le_of_not_lt hshort), List.drop_zero]

theorem drain_start (hstart : find buffer jpegStart 0 = some start)
    (hstop : find buffer jpegEnd (start + 2) = none) :
    drain (fuel + 1) buffer = ([], buffer.drop start) := by
  simp only [drain, hstart, hstop]

theorem drain_whole (hstart : find buffer jpegStart 0 = some start)
    (hstop : find buffer jpegEnd (start + 2) = some stop) : drain (fuel + 1) buffer =
      ((buffer.take (stop + 2)).drop start :: (drain fuel (buffer.drop (stop + 2))).1,
        (drain fuel (buffer.drop (stop + 2))).2) := by
  simp only [drain, hstart, hstop]

/-- After a JPEG there is less in the buffer. -/
theorem length_drop_stop (hstart : find buffer jpegStart 0 = some start)
    (hstop : find buffer jpegEnd (start + 2) = some stop) :
    (buffer.drop (stop + 2)).length < buffer.length := by
  have hnext := nextJpeg_whole hstart hstop []
  rw [List.append_nil, List.append_nil] at hnext
  exact nextJpeg_shorter hnext

/-- The JPEGs of the buffer come first, and what is kept stands for all that has been read. -/
theorem scanJpegs_append (hfuel : buffer.length < fuel) (more : Bytes) :
    scanJpegs (buffer ++ more) =
      (drain fuel buffer).1 ++ scanJpegs ((drain fuel buffer).2 ++ more) := by
  induction fuel generalizing buffer with
  | zero => exact absurd hfuel (Nat.not_lt_zero _)
  | succ fuel ih =>
    cases hstart : find buffer jpegStart 0 with
    | none =>
      rw [drain_none hstart]
      exact scanJpegs_congr (nextJpeg_trim hstart more)
    | some start =>
      cases hstop : find buffer jpegEnd (start + 2) with
      | none =>
        rw [drain_start hstart hstop]
        exact scanJpegs_congr (nextJpeg_start hstart more)
      | some stop =>
        have hfewer := Nat.lt_of_lt_of_le (length_drop_stop hstart hstop) (Nat.le_of_lt_succ hfuel)
        rw [drain_whole hstart hstop, scanJpegs_some (nextJpeg_whole hstart hstop more), ih hfewer,
          List.cons_append]

/-- What is kept holds no JPEG. -/
theorem nextJpeg_kept (hfuel : buffer.length < fuel) : nextJpeg (drain fuel buffer).2 = none := by
  induction fuel generalizing buffer with
  | zero => exact absurd hfuel (Nat.not_lt_zero _)
  | succ fuel ih =>
    cases hstart : find buffer jpegStart 0 with
    | none =>
      have htrim := nextJpeg_trim hstart []
      rw [List.append_nil, List.append_nil] at htrim
      rw [drain_none hstart, ← htrim, nextJpeg, ← find_start, hstart, Option.bind_none]
    | some start =>
      cases hstop : find buffer jpegEnd (start + 2) with
      | none =>
        have hkept := nextJpeg_start hstart []
        rw [List.append_nil, List.append_nil] at hkept
        rw [drain_start hstart hstop, ← hkept, nextJpeg, ← find_start, hstart, Option.bind_some,
          Option.map_eq_none_iff.mp hstop, Option.map_none]
      | some stop =>
        rw [drain_whole hstart hstop]
        exact ih (Nat.lt_of_lt_of_le (length_drop_stop hstart hstop) (Nat.le_of_lt_succ hfuel))

end Drain

/-! ## The parts -/

/-- Between the reads, what is kept stands for all that has been read. -/
theorem framesFrom_eq {reads : List Bytes} (hreads : ∀ chunk ∈ reads, chunk ≠ []) {kept : Bytes}
    (hkept : nextJpeg kept = none) :
    framesFrom kept (reads ++ [[]]) = (scanJpegs (kept ++ reads.flatten)).map part := by
  induction reads generalizing kept with
  | nil =>
    rw [List.flatten_nil, List.append_nil, scanJpegs_none hkept]
    rfl
  | cons chunk reads ih =>
    obtain ⟨hchunk, hreads⟩ := List.forall_mem_cons.mp hreads
    have hfuel := Nat.lt_succ_self (kept ++ chunk).length
    have hmore : chunk.isEmpty = false := Bool.eq_false_iff.mpr (mt List.isEmpty_iff.mp hchunk)
    rw [List.cons_append, framesFrom, hmore, if_neg Bool.false_ne_true, List.flatten_cons,
      ← List.append_assoc, scanJpegs_append hfuel, List.map_append]
    exact congrArg (_ ++ ·) (ih hreads (nextJpeg_kept hfuel))

/-- A frame of a stream: it begins with a start, and ends with the first end behind that. -/
structure IsFrame (frame : Bytes) : Prop where
  starts : jpegStart <+: frame
  ends : jpegEnd <:+ frame
  first : ∀ k, 2 ≤ k → k + 3 ≤ frame.length → ¬jpegEnd <+: frame.drop k

/-- A frame has room for both markers. -/
theorem IsFrame.four_le_length {frame : Bytes} (h : IsFrame frame) : 4 ≤ frame.length := by
  obtain ⟨body, rfl⟩ := h.starts
  have hends := h.ends
  match body with
  | [] => revert hends; decide
  | [last] =>
    obtain ⟨front, hfront⟩ := hends
    match front with
    | [] => cases hfront
    | [first] => cases hfront
    | first :: second :: front =>
      have hlength := congrArg List.length hfront
      simp [jpegEnd, jpegStart] at hlength
  | first :: second :: body => exact Nat.le_add_left 4 body.length

theorem IsFrame.nextJpeg {frame : Bytes} (h : IsFrame frame) (rest : Bytes) :
    nextJpeg (frame ++ rest) = some (frame, rest) := by
  have hlength := h.four_le_length
  have hstart : Tokens.position (Tokens.literal jpegStart) (frame ++ rest) = some 0 := by
    refine Tokens.position_of_first ?_ fun j hj => absurd hj (Nat.not_lt_zero j)
    rw [List.drop_zero, Tokens.startsWith_literal]
    exact h.starts.trans (List.prefix_append _ _)
  have hstop : Tokens.position (Tokens.literal jpegEnd) ((frame ++ rest).drop (0 + 2)) =
      some (frame.length - 4) := by
    refine Tokens.position_of_first ?_ fun j hj => ?_
    · obtain ⟨front, hfront⟩ := h.ends
      have hfront' : front.length = 0 + 2 + (frame.length - 4) := by
        have hsum := congrArg List.length hfront
        rw [List.length_append] at hsum
        change front.length + 2 = frame.length at hsum
        omega
      rw [List.drop_drop, Tokens.startsWith_literal, ← hfront', ← hfront, List.append_assoc,
        List.drop_left]
      exact List.prefix_append jpegEnd rest
    · rw [List.drop_drop, Bool.eq_false_iff, Ne, Tokens.startsWith_literal,
        List.drop_append_of_le_length (by omega)]
      rw [List.isPrefix_append_of_length]
      · exact h.first (0 + 2 + j) (Nat.le_add_right 2 j) (by omega)
      · rw [List.length_drop]
        show 2 ≤ _
        omega
  rw [nextJpeg_eq hstart hstop, Nat.sub_add_cancel hlength, Nat.zero_add, List.drop_zero,
    List.take_left, List.drop_left]

theorem scanJpegs_flatten {jpegs : List Bytes} (h : ∀ jpeg ∈ jpegs, IsFrame jpeg) :
    scanJpegs jpegs.flatten = jpegs := by
  induction jpegs with
  | nil => rfl
  | cons jpeg jpegs ih =>
    obtain ⟨hjpeg, hjpegs⟩ := List.forall_mem_cons.mp h
    rw [List.flatten_cons, scanJpegs_some (hjpeg.nextJpeg jpegs.flatten), ih hjpegs]

/-- A part, with the letter that ends the length. -/
theorem part_eq (jpeg : Bytes) : part jpeg =
    asBytes "--frame\r\nContent-Type: image/jpeg\r\nContent-Length: " ++
      ((Nat.toDigits 10 jpeg.length).map Char.toUInt8 ++
        13 :: ([10, 13, 10] ++ (jpeg ++ [13, 10]))) := by
  have hlength : asBytes ("Content-Length: " ++ toString jpeg.length ++ "\r\n\r\n") =
      asBytes "Content-Length: " ++ (Nat.toDigits 10 jpeg.length).map Char.toUInt8 ++
        [13, 10, 13, 10] := by
    have hdigits : (toString jpeg.length).toList = Nat.toDigits 10 jpeg.length := by
      rw [Nat.toString_eq_repr, Nat.repr, String.toList_ofList]
    rw [asBytes, String.toList_append, String.toList_append, List.flatMap_append,
      List.flatMap_append, hdigits, ← encode_ascii (Text.toDigits_ascii jpeg.length)]
    rfl
  have hhead : asBytes "--frame\r\nContent-Type: image/jpeg\r\nContent-Length: " =
      asBytes "--frame\r\n" ++ asBytes "Content-Type: image/jpeg\r\n" ++
        asBytes "Content-Length: " := by decide +kernel
  rw [part, hlength, hhead]
  simp only [List.append_assoc, List.cons_append, List.nil_append]
  rfl

/-- A part tells its JPEG. -/
theorem part_injective : Function.Injective part := by
  intro jpeg jpeg' h
  rw [part_eq, part_eq] at h
  have hdigits (n : Nat) : (13 : UInt8) ∉ (Nat.toDigits 10 n).map Char.toUInt8 := by
    intro hmem
    obtain ⟨c, hc, hcr⟩ := List.mem_map.mp hmem
    obtain ⟨hlow, hhigh⟩ := Text.isDigit_bounds (Text.isDigit_toDigits n c hc)
    have hnat : c.toNat % 2 ^ 8 = 13 := (UInt32.toNat_toUInt8 c.val).symm.trans (congrArg _ hcr)
    rw [Nat.mod_eq_of_lt (Nat.lt_of_le_of_lt hhigh (by decide))] at hnat
    exact absurd (hnat ▸ hlow) (by decide)
  rcases Text.letters_cases (List.append_cancel_left h) with
    ⟨-, -, hafter⟩ | ⟨between, hbefore, -⟩ | ⟨between, hbefore, -⟩
  · exact (List.append_cancel_right (List.append_cancel_left hafter)).symm
  · exact absurd (hbefore ▸ List.mem_append_right _ List.mem_cons_self) (hdigits jpeg'.length)
  · exact absurd (hbefore ▸ List.mem_append_right _ List.mem_cons_self) (hdigits jpeg.length)

/-- However the stream is cut into reads, what is yielded is one part for each JPEG that the scan
of the whole stream takes; for a stream of frames, these are the frames. No other JPEGs would be
yielded so. -/
theorem frames_eq_scan {reads : List Bytes} (hreads : ∀ chunk ∈ reads, chunk ≠ []) :
    (frames (reads ++ [[]]) = (scanJpegs reads.flatten).map fun jpeg =>
      asBytes "--frame\r\n" ++ asBytes "Content-Type: image/jpeg\r\n" ++
        asBytes ("Content-Length: " ++ toString jpeg.length ++ "\r\n\r\n") ++ jpeg ++
          asBytes "\r\n") ∧
    (∀ jpegs : List Bytes, (∀ jpeg ∈ jpegs, IsFrame jpeg) → reads.flatten = jpegs.flatten →
      frames (reads ++ [[]]) = jpegs.map fun jpeg =>
        asBytes "--frame\r\n" ++ asBytes "Content-Type: image/jpeg\r\n" ++
          asBytes ("Content-Length: " ++ toString jpeg.length ++ "\r\n\r\n") ++ jpeg ++
            asBytes "\r\n") ∧
    ∀ jpegs : List Bytes, frames (reads ++ [[]]) = jpegs.map part →
      jpegs = scanJpegs reads.flatten := by
  have hscan : frames (reads ++ [[]]) = (scanJpegs reads.flatten).map part :=
    framesFrom_eq hreads rfl
  refine ⟨hscan, fun jpegs hjpegs hstream => ?_, fun jpegs hjpegs => ?_⟩
  · rw [hscan, hstream, scanJpegs_flatten hjpegs]
    rfl
  · exact List.map_injective_iff.mpr part_injective (hjpegs.symm.trans hscan)

/-- Every marker is cut by a read. -/
theorem frames_eq_scan_cut : frames ([[7, 0xFF], [0xD8, 1, 0xFF], [0xD9, 0xFF], [0xD8]] ++ [[]]) =
    [asBytes "--frame\r\nContent-Type: image/jpeg\r\nContent-Length: 5\r\n\r\n" ++
      [0xFF, 0xD8, 1, 0xFF, 0xD9] ++ asBytes "\r\n"] := by
  have hreads : ∀ chunk ∈ ([[7, 0xFF], [0xD8, 1, 0xFF], [0xD9, 0xFF], [0xD8]] : List Bytes),
      chunk ≠ [] := by decide
  rw [(frames_eq_scan hreads).1]
  decide +kernel

end DahuaBridge
