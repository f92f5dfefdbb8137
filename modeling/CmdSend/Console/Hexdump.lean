-- SUMMARY: The hex dump of console_utils.c: the lines that it prints, and what they say about the bytes.
import CmdSend.Lib.Format
import CmdSend.Lib.Loop

/-!
# The hex dump

`ConsoleUtils_Hexdump` puts each line together in two arrays on the stack, which start
with any contents and are not cleared between the lines. The offsets and the size are
`size_t`, and no sum of them exceeds the size; the offset that is printed is cut to an
`unsigned int`.
-/

namespace CmdSend.Console

open CLib

/-! ## The dump -/

/-- `sizeof(hexdump_line)`. -/
def hexdumpLineSize : Nat := 64

/-- `sizeof(chardump_line)`. -/
def chardumpLineSize : Nat := 20

/-- The locals of `ConsoleUtils_Hexdump`, with what has been stored into the arrays and
what has been printed. -/
structure Hexdump where
  hexdumpLine : Mem
  chardumpLine : Mem
  hexStores : List Store
  charStores : List Store
  i : Nat
  printed : List Text

namespace Hexdump

/-- The body of the inner loop, for `c = p[i]`. -/
def putByte (d : Hexdump) (j : Nat) (c : Byte) : Hexdump :=
  let hex := Store.snprintf (j * 3) 4 (str " " ++ fmt0x 2 c.toNat)
  let c := if !isprint c then ch '.' else c
  let char := Store.snprintf j 2 [c]
  { d with
    hexdumpLine := hex.apply d.hexdumpLine
    chardumpLine := char.apply d.chardumpLine
    hexStores := d.hexStores ++ [hex]
    charStores := d.charStores ++ [char]
    i := d.i + 1 }

/-- A round of the inner loop. -/
def byteRound (p : Mem) (sz : Nat) : Hexdump × Nat → Option ((Hexdump × Nat) ⊕ (Hexdump × Nat))
  | (d, j) =>
    if j < 16 ∧ d.i < sz then some (.inl (d.putByte j (p d.i), j + 1)) else some (.inr (d, j))

/-- The text of the `printf`. -/
def lineText (d : Hexdump) (j : Nat) : Text :=
  str "0x" ++ fmt0x 3 ((d.i - j) % 2 ^ 32) ++ str ":" ++
    fmtLeft 50 (d.hexdumpLine.cstr hexdumpLineSize) ++
    fmtLeft 20 (d.chardumpLine.cstr chardumpLineSize) ++ str "\n"

/-- A round of the outer loop. The inner loop makes 16 rounds at most, and the last test. -/
def lineRound (p : Mem) (sz : Nat) (d : Hexdump) : Option (Hexdump ⊕ Hexdump) :=
  if d.i < sz then
    (Loop.run (byteRound p sz) 17 (d, 0)).map fun (d, j) =>
      .inl { d with printed := d.printed ++ [d.lineText j] }
  else some (.inr d)

end Hexdump

/-- `ConsoleUtils_Hexdump`, for the initial contents of the two arrays. Each round of the
outer loop takes a byte at least. -/
def hexdump (p : Mem) (sz : Nat) (hexdumpLine chardumpLine : Mem) : Option Hexdump :=
  Loop.run (Hexdump.lineRound p sz) (sz + 1) ⟨hexdumpLine, chardumpLine, [], [], 0, []⟩

/-! ## Reading a line -/

/-- What a line says: the offset, the bytes of the hex column and the character column. -/
structure Line where
  offset : Nat
  bytes : List Byte
  chars : Text
deriving DecidableEq, Repr

/-- The bytes of a hex column, each with a blank in front. -/
def readColumn : Text → List Byte
  | blank :: hi :: lo :: rest =>
    match digitsValue 16 0 [hi, lo] with
    | some v => if blank = ch ' ' then BitVec.ofNat 8 v :: readColumn rest else []
    | none => []
  | _ => []

/-- Read a line: a number, a colon, the hex column of 50 characters, and the character
column of 20. -/
def readLine (line : Text) : Option Line :=
  match scanMagnitude line with
  | some (offset, c :: columns) =>
    if c = ch ':' ∧ columns.drop 70 = str "\n" then
      some ⟨offset, readColumn (columns.take 50), (columns.drop 50).take 20⟩
    else none
  | _ => none

/-! ## The lines -/

/-- What the character column shows for a byte. -/
def shownChar (c : Byte) : Byte := if isprint c then c else ch '.'

/-- The hex column of some bytes. -/
def hexText (bytes : List Byte) : Text := bytes.flatMap fun c => str " " ++ fmt0x 2 c.toNat

/-- The bytes of a line. -/
def lineBytes (p : Mem) (sz k : Nat) : List Byte := p.slice (16 * k) (min 16 (sz - 16 * k))

/-- A line of the dump. -/
def line (p : Mem) (sz k : Nat) : Text :=
  str "0x" ++ fmt0x 3 (16 * k % 2 ^ 32) ++ str ":" ++ fmtLeft 50 (hexText (lineBytes p sz k)) ++
    fmtLeft 20 ((lineBytes p sz k).map shownChar) ++ str "\n"

theorem length_fmt0x_byte (c : Byte) : (fmt0x 2 c.toNat).length = 2 :=
  length_fmt0x (by decide) c.isLt

theorem length_hexText (bytes : List Byte) : (hexText bytes).length = bytes.length * 3 := by
  induction bytes with
  | nil => rfl
  | cons c bytes ih =>
    have hpiece : (str " " ++ fmt0x 2 c.toNat).length = 3 := by
      rw [List.length_append, length_fmt0x_byte]
      rfl
    rw [hexText, List.flatMap_cons, List.length_append, hpiece, List.length_cons]
    rw [hexText] at ih
    omega

theorem hexText_append_singleton (bytes : List Byte) (c : Byte) :
    hexText (bytes ++ [c]) = hexText bytes ++ (str " " ++ fmt0x 2 c.toNat) := by
  simp [hexText]

theorem zero_notMem_hexText (bytes : List Byte) : 0 ∉ hexText bytes := by
  intro h
  obtain ⟨c, -, hc⟩ := List.mem_flatMap.mp h
  cases List.mem_append.mp hc with
  | inl hblank => exact absurd hblank (by decide)
  | inr hdigit =>
    have hsome := isSome_digitIn_of_mem (digitsValue_fmt0x 2 c.toNat) hdigit
    exact absurd hsome (by decide)

theorem zero_notMem_map_shownChar (bytes : List Byte) : 0 ∉ bytes.map shownChar := by
  have hne : ∀ c, shownChar c ≠ 0 := by decide
  intro h
  obtain ⟨c, -, hc⟩ := List.mem_map.mp h
  exact hne c hc

/-! ## The inner loop -/

namespace Hexdump

/-- The stores so far stay inside the two arrays. -/
structure StoresWithin (d : Hexdump) : Prop where
  hex : ∀ s ∈ d.hexStores, s.Within hexdumpLineSize
  char : ∀ s ∈ d.charStores, s.Within chardumpLineSize

variable {p : Mem} {sz : Nat} {d₀ d : Hexdump}

/-- The arrays hold the columns of the bytes from the start of the line on. -/
structure LinePart (p : Mem) (sz : Nat) (d₀ d : Hexdump) (j : Nat) : Prop extends
    d.StoresWithin where
  i : d.i = d₀.i + j
  le_line : j ≤ 16
  le_size : d.i ≤ sz
  hexText : d.hexdumpLine.Builds (hexText (p.slice d₀.i j))
  charText : d.chardumpLine.Builds ((p.slice d₀.i j).map shownChar)
  printed : d.printed = d₀.printed

theorem StoresWithin.putByte {j : Nat} (h : d.StoresWithin) (hj : j < 16) (c : Byte) :
    (d.putByte j c).StoresWithin := by
  refine ⟨List.forall_mem_append.mpr ⟨h.hex, List.forall_mem_singleton.mpr ?_⟩,
    List.forall_mem_append.mpr ⟨h.char, List.forall_mem_singleton.mpr ?_⟩⟩
  · exact Store.within_snprintf (by decide) (by unfold hexdumpLineSize; omega) _
  · exact Store.within_snprintf (by decide) (by unfold chardumpLineSize; omega) _

/-- A byte adds its piece to each column. -/
theorem LinePart.putByte {j : Nat} (h : LinePart p sz d₀ d j) (hj : j < 16) (hi : d.i < sz) :
    LinePart p sz d₀ (d.putByte j (p d.i)) (j + 1) := by
  have hslice : p.slice d₀.i (j + 1) = p.slice d₀.i j ++ [p d.i] := by
    rw [Mem.slice_add, h.i]
    rfl
  have hpiece : (str " " ++ fmt0x 2 (p d.i).toNat).length < 4 := by
    rw [List.length_append, length_fmt0x_byte]
    decide
  refine ⟨h.toStoresWithin.putByte hj _, ?_, hj, hi, ?_, ?_, h.printed⟩
  · have hsucc : (d.putByte j (p d.i)).i = d.i + 1 := rfl
    rw [hsucc, h.i, Nat.add_assoc]
  · have happend := h.hexText.append hpiece
    rw [length_hexText, Mem.length_slice] at happend
    rw [hslice, hexText_append_singleton]
    exact happend
  · have hfit : [shownChar (p d.i)].length < 2 := Nat.lt_succ_self 1
    have happend := h.charText.append hfit
    rw [List.length_map, Mem.length_slice] at happend
    rw [hslice, List.map_append]
    have hchar : (if !isprint (p d.i) then ch '.' else p d.i) = shownChar (p d.i) := by
      unfold shownChar
      cases isprint (p d.i) <;> rfl
    unfold Hexdump.putByte
    simp only [hchar]
    exact happend

/-- The inner loop takes the bytes of a line. -/
theorem run_byteRound (hstores : d₀.StoresWithin) (hi : d₀.i ≤ sz) :
    ∃ r, Loop.run (byteRound p sz) 17 (d₀, 0) = some r ∧
      LinePart p sz d₀ r.1 r.2 ∧ r.2 = min 16 (sz - d₀.i) := by
  refine Loop.run_of_measure (I := fun s => LinePart p sz d₀ s.1 s.2) (fun s => 16 - s.2) ?_ ?_ ?_
  · rintro ⟨d, j⟩ h
    by_cases hgo : j < 16 ∧ d.i < sz
    · exact Or.inl ⟨_, if_pos hgo, h.putByte hgo.1 hgo.2, Nat.sub_succ_lt_self 16 j hgo.1⟩
    · refine Or.inr ⟨_, if_neg hgo, h, ?_⟩
      have hlast := h.i
      have hle := h.le_line
      have hsize := h.le_size
      simp only at hlast hle hsize ⊢
      omega
  · exact ⟨hstores, rfl, Nat.zero_le _, hi, Mem.Builds.nil _, Mem.Builds.nil _, rfl⟩
  · exact Nat.lt_succ_self 16

/-! ## The outer loop -/

/-- So many lines have been printed, and the bytes up to the end of the last one taken. -/
structure Dumped (p : Mem) (sz : Nat) (d : Hexdump) : Prop extends d.StoresWithin where
  i : d.i = min (16 * d.printed.length) sz
  started : 16 * d.printed.length < sz + 16
  printed : d.printed = (List.range d.printed.length).map (line p sz)

/-- The array holds a string when the line has a byte, and that is the column. -/
theorem LinePart.cstr_hexdumpLine {j : Nat} (h : LinePart p sz d₀ d j) (hj : 0 < j) :
    d.hexdumpLine.cstr hexdumpLineSize = Console.hexText (p.slice d₀.i j) := by
  have hlen := length_hexText (p.slice d₀.i j)
  rw [Mem.length_slice] at hlen
  have hle := h.le_line
  refine h.hexText.cstr ?_ (zero_notMem_hexText _) ?_
  · rw [← List.length_pos_iff]
    omega
  · unfold hexdumpLineSize
    omega

theorem LinePart.cstr_chardumpLine {j : Nat} (h : LinePart p sz d₀ d j) (hj : 0 < j) :
    d.chardumpLine.cstr chardumpLineSize = (p.slice d₀.i j).map shownChar := by
  have hlen : ((p.slice d₀.i j).map shownChar).length = j := by simp
  have hle := h.le_line
  refine h.charText.cstr ?_ (zero_notMem_map_shownChar _) ?_
  · rw [← List.length_pos_iff]
    omega
  · unfold chardumpLineSize
    omega

theorem LinePart.lineText_eq {k j : Nat} (h : LinePart p sz d₀ d j) (hi : d₀.i = 16 * k)
    (hj : j = min 16 (sz - 16 * k)) (hlt : 16 * k < sz) : d.lineText j = line p sz k := by
  have hbytes : p.slice d₀.i j = lineBytes p sz k := by rw [hi, hj, lineBytes]
  have hoffset : d.i - j = 16 * k := by
    have hlast := h.i
    omega
  unfold Hexdump.lineText line
  rw [h.cstr_hexdumpLine (by omega), h.cstr_chardumpLine (by omega), hbytes, hoffset]

/-- A round of the outer loop prints one line more. -/
theorem Dumped.lineRound (h : Dumped p sz d) (hlt : d.i < sz) :
    ∃ d', Hexdump.lineRound p sz d = some (.inl d') ∧ Dumped p sz d' ∧ d.i < d'.i := by
  obtain ⟨⟨d', j⟩, hrun, hpart, hj⟩ := run_byteRound (p := p) h.toStoresWithin hlt.le
  have hi : d.i = 16 * d.printed.length := by
    have hmin := h.i
    omega
  replace hpart : LinePart p sz d d' j := hpart
  simp only [hi] at hj
  have hnext := hpart.i
  refine ⟨{ d' with printed := d'.printed ++ [d'.lineText j] }, ?_, ⟨?_, ?_, ?_, ?_⟩, ?_⟩
  · unfold Hexdump.lineRound
    rw [if_pos hlt, hrun]
    rfl
  · exact ⟨hpart.hex, hpart.char⟩
  · simp only [List.length_append, List.length_singleton, hpart.printed]
    omega
  · simp only [List.length_append, List.length_singleton, hpart.printed]
    omega
  · simp only [List.length_append, List.length_singleton, hpart.printed]
    rw [hpart.lineText_eq hi hj (by omega), List.range_succ, List.map_append, ← h.printed]
    rfl
  · simp only
    omega

end Hexdump

/-- The dump ends, and prints these lines. -/
theorem hexdump_eq (p : Mem) (sz : Nat) (hexdumpLine chardumpLine : Mem) :
    ∃ d, hexdump p sz hexdumpLine chardumpLine = some d ∧ d.StoresWithin ∧
      d.printed = (List.range ((sz + 15) / 16)).map (line p sz) := by
  obtain ⟨d, hrun, hdumped, hdone⟩ : ∃ d, hexdump p sz hexdumpLine chardumpLine = some d ∧
      Hexdump.Dumped p sz d ∧ ¬d.i < sz := by
    refine Loop.run_of_measure (I := Hexdump.Dumped p sz) (fun d => sz - d.i) ?_ ?_ ?_
    · intro d h
      by_cases hlt : d.i < sz
      · obtain ⟨d', hround, hnext, hmore⟩ := h.lineRound hlt
        exact Or.inl ⟨d', hround, hnext, Nat.sub_lt_sub_left hlt hmore⟩
      · exact Or.inr ⟨d, if_neg hlt, h, hlt⟩
    · exact ⟨⟨fun _ hs => absurd hs List.not_mem_nil, fun _ hs => absurd hs List.not_mem_nil⟩,
        (Nat.zero_min sz).symm, Nat.add_pos_right sz (by decide), rfl⟩
    · exact Nat.lt_succ_of_le (Nat.sub_le _ _)
  have hcount : d.printed.length = (sz + 15) / 16 := by
    have hi := hdumped.i
    have hstarted := hdumped.started
    omega
  exact ⟨d, hrun, hdumped.toStoresWithin, by rw [← hcount]; exact hdumped.printed⟩

/-! ## What the lines say -/

theorem readColumn_hexText (bytes : List Byte) (blanks : Nat) :
    readColumn (hexText bytes ++ List.replicate blanks (ch ' ')) = bytes := by
  induction bytes with
  | nil =>
    match blanks with
    | 0 | 1 | 2 => rfl
    | blanks + 3 => rfl
  | cons c bytes ih =>
    obtain ⟨hi, lo, hdigits⟩ := List.length_eq_two.mp (length_fmt0x_byte c)
    have hvalue := digitsValue_fmt0x 2 c.toNat
    rw [hdigits] at hvalue
    have hcons : hexText (c :: bytes) ++ List.replicate blanks (ch ' ') =
        ch ' ' :: hi :: lo :: (hexText bytes ++ List.replicate blanks (ch ' ')) := by
      rw [hexText, List.flatMap_cons, hdigits]
      rfl
    rw [hcons, readColumn, hvalue]
    simp only [if_true, ih, BitVec.ofNat_toNat, BitVec.setWidth_eq]

theorem readLine_line (p : Mem) (sz k : Nat) :
    readLine (line p sz k) = some ⟨16 * k % 2 ^ 32, lineBytes p sz k,
      fmtLeft 20 ((lineBytes p sz k).map shownChar)⟩ := by
  have hlen : (lineBytes p sz k).length ≤ 16 := by
    rw [lineBytes, Mem.length_slice]
    omega
  have hhex : (fmtLeft 50 (hexText (lineBytes p sz k))).length = 50 := by
    rw [fmtLeft, List.length_rightpad, length_hexText]
    omega
  have hchar : (fmtLeft 20 ((lineBytes p sz k).map shownChar)).length = 20 := by
    rw [fmtLeft, List.length_rightpad, List.length_map]
    omega
  have hline : line p sz k = str "0x" ++ fmt0x 3 (16 * k % 2 ^ 32) ++
      ch ':' :: (fmtLeft 50 (hexText (lineBytes p sz k)) ++
        (fmtLeft 20 ((lineBytes p sz k).map shownChar) ++ str "\n")) := by
    simp only [line, List.append_assoc]
    rfl
  rw [readLine, hline, scanMagnitude_fmt0x 3 _ (by decide)]
  dsimp only
  rw [if_pos]
  · rw [List.take_left' hhex, List.drop_left' hhex, List.take_left' hchar, fmtLeft,
      List.rightpad, readColumn_hexText]
  · refine ⟨rfl, ?_⟩
    rw [← List.append_assoc, List.drop_left']
    rw [List.length_append, hhex, hchar]

/-- The bytes of the first lines. -/
theorem flatMap_lineBytes (p : Mem) (sz k : Nat) :
    (List.range k).flatMap (lineBytes p sz) = p.slice 0 (min (16 * k) sz) := by
  induction k with
  | zero => simp
  | succ k ih =>
    rw [List.range_succ, List.flatMap_append, ih, List.flatMap_singleton, lineBytes]
    by_cases hlt : 16 * k < sz
    · have hadd := Mem.slice_add p 0 (16 * k) (min 16 (sz - 16 * k))
      rw [Nat.zero_add] at hadd
      rw [Nat.min_eq_left hlt.le, ← hadd]
      congr 1
      omega
    · rw [show min 16 (sz - 16 * k) = 0 by omega, Mem.slice_zero, List.append_nil]
      congr 1
      omega

/-- The lines say what the buffer holds, next to the offsets that `shown` gives. -/
structure Faithful (shown : Nat → Nat) (p : Mem) (sz : Nat) (lines : List Text) : Prop where
  count : lines.length = (sz + 15) / 16
  line : ∀ k text, lines[k]? = some text → ∃ l, readLine text = some l ∧ l.offset = shown k ∧
    l.bytes.length = min 16 (sz - 16 * k) ∧ l.chars = fmtLeft 20 (l.bytes.map shownChar)
  bytes : (lines.filterMap readLine).flatMap Line.bytes = p.slice 0 sz

/-- The dump ends with lines that say what the buffer holds, and stores inside its arrays. -/
def DumpsFaithfully (shown : Nat → Nat) (p : Mem) (sz : Nat) (hexdumpLine chardumpLine : Mem) :
    Prop :=
  ∃ d, hexdump p sz hexdumpLine chardumpLine = some d ∧ Faithful shown p sz d.printed ∧
    d.StoresWithin

theorem getElem?_lines {p : Mem} {sz k : Nat} (h : 16 * k < sz) :
    ((List.range ((sz + 15) / 16)).map (line p sz))[k]? = some (line p sz k) := by
  rw [List.getElem?_map, List.getElem?_range (by omega)]
  rfl

/-- The dump is faithful, with offsets modulo 2^32. -/
theorem dumpsFaithfully (p : Mem) (sz : Nat) (hexdumpLine chardumpLine : Mem) :
    DumpsFaithfully (fun k => 16 * k % 2 ^ 32) p sz hexdumpLine chardumpLine := by
  obtain ⟨d, hrun, hwithin, hprinted⟩ := hexdump_eq p sz hexdumpLine chardumpLine
  refine ⟨d, hrun, ⟨?_, fun k text htext => ?_, ?_⟩, hwithin⟩
  · rw [hprinted, List.length_map, List.length_range]
  · rw [hprinted] at htext
    have hk : k < (sz + 15) / 16 := by
      have hlt := (List.getElem?_eq_some_iff.mp htext).1
      rwa [List.length_map, List.length_range] at hlt
    rw [getElem?_lines (by omega)] at htext
    obtain rfl := Option.some.inj htext
    exact ⟨_, readLine_line p sz k, rfl, Mem.length_slice .., rfl⟩
  · have hread : d.printed.filterMap readLine =
        (List.range ((sz + 15) / 16)).map fun k => ⟨16 * k % 2 ^ 32, lineBytes p sz k,
          fmtLeft 20 ((lineBytes p sz k).map shownChar)⟩ := by
      rw [hprinted, List.filterMap_map, ← List.filterMap_eq_map]
      exact List.filterMap_congr fun k _ => readLine_line p sz k
    rw [hread, List.flatMap_map]
    refine (flatMap_lineBytes p sz _).trans ?_
    congr 1
    omega

/-- A buffer of more than 4 GiB has a line whose offset is printed as 0. -/
theorem dumpsFaithfully_fails_past_offsets :
    ¬DumpsFaithfully (fun k => 16 * k) (fun _ => 0) (2 ^ 32 + 1) (fun _ => 0) fun _ => 0 := by
  rintro ⟨d, hrun, hfaithful, -⟩
  obtain ⟨d', hrun', -, hprinted⟩ :=
    hexdump_eq (fun _ => 0) (2 ^ 32 + 1) (fun _ => 0) fun _ => 0
  obtain rfl := Option.some.inj (hrun.symm.trans hrun')
  have htext := getElem?_lines (p := fun _ => 0) (show 16 * 2 ^ 28 < 2 ^ 32 + 1 by omega)
  rw [← hprinted] at htext
  obtain ⟨l, hl, hoffset, -, -⟩ := hfaithful.line _ _ htext
  rw [readLine_line] at hl
  obtain rfl := Option.some.inj hl
  exact absurd hoffset (by decide)

/-! ## The bytes that are shown -/

/-- The bytes that some lines of a hex dump show. -/
def shownBytes (lines : List Text) : List Byte :=
  (lines.filterMap readLine).flatMap Line.bytes

/-- The lines that dump some bytes. -/
def dumpLines (bytes : List Byte) : List Text :=
  (List.range ((bytes.length + 15) / 16)).map (line (Mem.copy (fun _ => 0) 0 bytes) bytes.length)

/-- A line depends only on the bytes that are dumped. -/
theorem line_congr {p q : Mem} {sz : Nat} (h : p.slice 0 sz = q.slice 0 sz) (k : Nat) :
    line p sz k = line q sz k := by
  have hat : ∀ i < sz, p i = q i := by
    intro i hi
    have hget : (p.slice 0 sz)[i]? = (q.slice 0 sz)[i]? := by rw [h]
    rw [List.getElem?_eq_getElem (by rwa [Mem.length_slice]),
      List.getElem?_eq_getElem (by rwa [Mem.length_slice]), Mem.getElem_slice,
      Mem.getElem_slice, Nat.zero_add] at hget
    exact Option.some.inj hget
  have hbytes : lineBytes p sz k = lineBytes q sz k :=
    Mem.slice_congr fun i hlo hhi => hat i (by omega)
  unfold line
  rw [hbytes]

/-- The dump prints the lines of the bytes that it is given, whatever its arrays held before. -/
theorem printed_hexdump (p : Mem) (sz : Nat) (hexdumpLine chardumpLine : Mem) :
    ∃ d, hexdump p sz hexdumpLine chardumpLine = some d ∧ d.StoresWithin ∧
      d.printed = dumpLines (p.slice 0 sz) := by
  obtain ⟨d, hrun, hwithin, hprinted⟩ := hexdump_eq p sz hexdumpLine chardumpLine
  refine ⟨d, hrun, hwithin, ?_⟩
  have hlen := Mem.length_slice p 0 sz
  have hslice := Mem.slice_copy_same (fun _ => 0) 0 (p.slice 0 sz)
  rw [hlen] at hslice
  rw [hprinted, dumpLines, hlen]
  exact List.map_congr_left fun k _ => line_congr hslice.symm k

/-- The dump of some bytes shows them. -/
theorem shownBytes_dumpLines (bytes : List Byte) : shownBytes (dumpLines bytes) = bytes := by
  have hread : (dumpLines bytes).filterMap readLine =
      (List.range ((bytes.length + 15) / 16)).map fun k =>
        ⟨16 * k % 2 ^ 32, lineBytes (Mem.copy (fun _ => 0) 0 bytes) bytes.length k, fmtLeft 20
          ((lineBytes (Mem.copy (fun _ => 0) 0 bytes) bytes.length k).map shownChar)⟩ := by
    rw [dumpLines, List.filterMap_map, ← List.filterMap_eq_map]
    exact List.filterMap_congr fun k _ => readLine_line _ _ k
  have hall : min (16 * ((bytes.length + 15) / 16)) bytes.length = bytes.length := by omega
  rw [shownBytes, hread, List.flatMap_map]
  refine (flatMap_lineBytes _ _ _).trans ?_
  rw [hall, Mem.slice_copy_same]

/-- The dump of a buffer shows it. -/
theorem shownBytes_hexdump (p : Mem) (sz : Nat) (hexdumpLine chardumpLine : Mem) :
    ∃ d, hexdump p sz hexdumpLine chardumpLine = some d ∧ d.StoresWithin ∧
      shownBytes d.printed = p.slice 0 sz := by
  obtain ⟨d, hrun, hwithin, hprinted⟩ := printed_hexdump p sz hexdumpLine chardumpLine
  exact ⟨d, hrun, hwithin, by rw [hprinted, shownBytes_dumpLines]⟩

example : (hexdump (fun i => BitVec.ofNat 8 (i + 60)) 3 (fun _ => 255) fun _ => 255).map
    Hexdump.printed = some [str ("0x000: 3c 3d 3e" ++ String.ofList (List.replicate 41 ' ') ++
      "<=>" ++ String.ofList (List.replicate 17 ' ') ++ "\n")] := by decide +kernel

end CmdSend.Console
