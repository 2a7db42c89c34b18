import Phaze.Mpeg.Frames

set_option autoImplicit false

/-!
# The scan window of a file

The leading ID3v2 tags, the window behind them and the verdict on it.
-/

namespace Phaze.Mpeg

def maxScanBytes : Nat := 64 * 1024 * 1024
def maxId3v2Bytes : Nat := maxScanBytes
def maxId3v2Tags : Nat := 8
def id3v2HeaderLen : Nat := 10

-- `_read_at`
def readAt (file : Bytes) (offset length : Nat) : Bytes := (file.drop offset).take length

def id3v2TagSize : Bytes → Option Nat
  | 0x49 :: 0x44 :: 0x33 :: major :: revision :: flags :: s0 :: s1 :: s2 :: s3 :: _ =>
      if major = 0xFF ∨ revision = 0xFF then none
      else if [s0, s1, s2, s3].any fun byte => byte &&& 0x80 ≠ 0 then none
      else
        let size := (s0.toNat <<< 21) ||| (s1.toNat <<< 14) ||| (s2.toNat <<< 7) ||| s3.toNat
        let footer := if flags &&& 0x10 ≠ 0 then id3v2HeaderLen else 0
        some (id3v2HeaderLen + size + footer)
  | _ => none

-- The loop of `id3v2_region_end`, with the tags that may still follow.
def regionFrom (file : Bytes) : Nat → Nat → Option Nat
  | 0, _ => none
  | tags + 1, reached =>
      match id3v2TagSize (readAt file reached id3v2HeaderLen) with
      | none => some reached
      | some size =>
          if min file.length maxId3v2Bytes < reached + size then none else regionFrom file tags (reached + size)

def id3v2RegionEnd (file : Bytes) : Option Nat := regionFrom file (maxId3v2Tags + 1) 0

structure ScanWindow where
  id3v2End : Nat
  data : Bytes
deriving DecidableEq

def readScanWindow (file : Bytes) : Option ScanWindow :=
  (id3v2RegionEnd file).map fun tagEnd =>
    { id3v2End := tagEnd, data := readAt file tagEnd (min maxScanBytes (file.length - tagEnd)) }

structure MisdetectionVerdict where
  misdetected : Bool
  spliceOffset : Option Nat
  id3v2End : Nat
  chainLayer : Option Nat
  probedLayer : Option Nat
deriving DecidableEq

def layerForCodec (codec : Option String) : Option Nat :=
  if codec = some "mp3" then some 3 else if codec = some "mp2" then some 2 else if codec = some "mp1" then some 1 else none

def detectMisdetection (window : ScanWindow) (probedCodec : Option String) (minFrames : Nat) : MisdetectionVerdict :=
  let probedLayer := layerForCodec probedCodec
  match findStream window.data 0 minFrames with
  | none =>
      { misdetected := false, spliceOffset := none, id3v2End := window.id3v2End, chainLayer := none, probedLayer }
  | some (offset, header) =>
      { misdetected := some header.layer ≠ probedLayer, spliceOffset := some (window.id3v2End + offset)
        id3v2End := window.id3v2End, chainLayer := some header.layer, probedLayer }

/-! ## Offsets in the file -/

variable {file data : Bytes} {first : FrameHeader} {window : ScanWindow} {minFrames : Nat}

theorem regionFrom_le {tags reached tagEnd : Nat} (within : reached ≤ file.length)
    (found : regionFrom file tags reached = some tagEnd) : tagEnd ≤ file.length := by
  induction tags generalizing reached with
  | zero => cases found
  | succ tags ih =>
    rw [regionFrom] at found
    split at found
    next =>
      obtain rfl := Option.some.inj found
      exact within
    next size =>
      split at found
      next => cases found
      next inside => exact ih (by omega) found

-- The window is the part of the file from the tags to the limit of the scan.
theorem readScanWindow_data (read : readScanWindow file = some window) :
    window.id3v2End ≤ file.length ∧ window.data = (file.take (window.id3v2End + maxScanBytes)).drop window.id3v2End := by
  obtain ⟨tagEnd, found, rfl⟩ := Option.map_eq_some_iff.mp read
  have within := regionFrom_le (Nat.zero_le _) found
  refine ⟨within, ?_⟩
  rw [List.drop_take, readAt, Nat.add_sub_cancel_left, List.take_eq_take_iff]
  simp only [List.length_drop]
  omega

theorem parseFrameHeader_drop (data : Bytes) (shift pos : Nat) :
    parseFrameHeader (data.drop shift) pos = parseFrameHeader data (shift + pos) := by
  simp [parseFrameHeader, List.getElem?_drop, Nat.add_assoc]

theorem Chain.drop {shift count pos : Nat} (chain : Chain data first count (shift + pos)) (within : shift ≤ data.length) :
    Chain (data.drop shift) first count pos := by
  generalize spot : shift + pos = place at chain
  induction chain generalizing pos with
  | done place => exact .done pos
  | frame count place frame parsed alike inside rest ih =>
    subst spot
    have tail := @ih (pos + frame.length) (by omega)
    refine .frame count pos frame ?_ alike ?_ tail
    · rw [parseFrameHeader_drop, parsed]
    · rw [List.length_drop]
      omega

theorem Chain.undrop {shift count pos : Nat} (chain : Chain (data.drop shift) first count pos)
    (within : shift ≤ data.length) : Chain data first count (shift + pos) := by
  induction chain with
  | done pos => exact .done _
  | frame count pos frame parsed alike inside rest ih =>
    rw [List.length_drop] at inside
    refine .frame count _ frame ?_ alike (by omega) ?_
    · rw [← parseFrameHeader_drop, parsed]
    · rw [Nat.add_assoc]
      exact ih

theorem streamAt_drop {shift pos : Nat} (within : shift ≤ data.length) :
    StreamAt (data.drop shift) minFrames pos ↔ StreamAt data minFrames (shift + pos) := by
  constructor
  · intro stream
    obtain ⟨first, count, parsed, enough, chain⟩ := stream
    exact ⟨first, count, parseFrameHeader_drop data shift pos ▸ parsed, enough, chain.undrop within⟩
  · intro stream
    obtain ⟨first, count, parsed, enough, chain⟩ := stream
    exact ⟨first, count, (parseFrameHeader_drop data shift pos).trans parsed, enough, chain.drop within⟩

theorem firstStream_drop {shift pos : Nat} (within : shift ≤ data.length) :
    FirstStream (data.drop shift) 0 minFrames pos ↔ FirstStream data shift minFrames (shift + pos) := by
  constructor
  · intro first
    refine ⟨(streamAt_drop within).mp first.stream, by omega, fun other from' stream => ?_⟩
    obtain ⟨place, rfl⟩ := Nat.exists_eq_add_of_le (show shift ≤ other by omega)
    have after := first.first place (by omega) ((streamAt_drop within).mpr stream)
    omega
  · intro first
    refine ⟨(streamAt_drop within).mpr first.stream, by omega, fun other _ stream => ?_⟩
    have after := first.first (shift + other) (by omega) ((streamAt_drop within).mp stream)
    omega

/-- The verdict splices at the first stream of the file from its tags on. -/
theorem spliceOffset_iff (least : 1 ≤ minFrames) (read : readScanWindow file = some window) (codec : Option String)
    (offset : Nat) : (detectMisdetection window codec minFrames).spliceOffset = some offset ↔
      FirstStream (file.take (window.id3v2End + maxScanBytes)) window.id3v2End minFrames offset := by
  obtain ⟨within, data⟩ := readScanWindow_data read
  have inside : window.id3v2End ≤ (file.take (window.id3v2End + maxScanBytes)).length := by
    rw [List.length_take]
    omega
  constructor
  · intro spliced
    unfold detectMisdetection at spliced
    split at spliced
    next => cases spliced
    next pos header found =>
      obtain rfl := Option.some.inj spliced
      have first := (findStream_some least found).1
      rw [data] at first
      exact (firstStream_drop inside).mp first
  · intro first
    obtain ⟨pos, rfl⟩ := Nat.exists_eq_add_of_le (show window.id3v2End ≤ offset by have := first.from'; omega)
    have dropped := (firstStream_drop inside).mpr first
    rw [← data] at dropped
    obtain ⟨header, -, parsed, -⟩ := dropped.stream
    have found := (findStream_iff least (pos, header)).mpr ⟨dropped, parsed⟩
    simp [detectMisdetection, found]

theorem StreamAt.inside {pos : Nat} (stream : StreamAt data minFrames pos) : pos < data.length := by
  obtain ⟨first, -, parsed, -⟩ := stream
  exact (mem_syncs.mp (parsed_sync (Int.natCast_nonneg pos) parsed)).1

/-- `find_stream` finds the first stream, every frame has a length, and the verdict on a file names that stream in the
file, behind its tags. -/
theorem streams_are_found :
    (∀ (data : Bytes) (start : Int) (minFrames : Nat), 1 ≤ minFrames →
      (∀ found, findStream data start minFrames = some found ↔
        FirstStream data start minFrames found.1 ∧ parseFrameHeader data found.1 = some found.2) ∧
      (findStream data start minFrames = none ↔ ∀ pos : Nat, start ≤ pos → ¬ StreamAt data minFrames pos)) ∧
    (∀ (data : Bytes) (pos : Nat) (header : FrameHeader), parseFrameHeader data pos = some header → 0 < header.length) ∧
    ∀ (file : Bytes) (window : ScanWindow) (codec : Option String) (minFrames : Nat), 1 ≤ minFrames →
      readScanWindow file = some window →
      (detectMisdetection window codec minFrames).id3v2End = window.id3v2End ∧
      ∀ offset, (detectMisdetection window codec minFrames).spliceOffset = some offset ↔
        FirstStream (file.take (window.id3v2End + maxScanBytes)) window.id3v2End minFrames offset ∧
          window.id3v2End ≤ offset ∧ offset ≤ file.length := by
  refine ⟨fun data start minFrames least => ⟨findStream_iff least, findStream_none least, fun nowhere => ?_⟩,
    fun data pos header parsed => ?_, fun file window codec minFrames least read => ⟨?_, fun offset => ?_⟩⟩
  · cases result : findStream data start minFrames with
    | none => rfl
    | some found =>
      have first := (findStream_some least result).1
      exact absurd first.stream (nowhere _ first.from')
  · have long := parseFrameHeader_length parsed
    omega
  · unfold detectMisdetection
    split <;> rfl
  · rw [spliceOffset_iff least read]
    refine ⟨fun first => ⟨first, ?_, ?_⟩, fun both => both.1⟩
    · have from' := first.from'
      omega
    · have inside := first.stream.inside
      rw [List.length_take] at inside
      omega

-- A stray sync byte, then two frames of MPEG-2 Layer 3 at 8 kbps.
def quietFrame : Bytes := [0xFF, 0xF3, 0x14, 0x00] ++ List.replicate 20 0

def quietFrames : Bytes := 0xFF :: quietFrame ++ quietFrame

-- An ID3v2 tag of four bytes, two of which look like the start of a frame.
def quietTag : Bytes := [0x49, 0x44, 0x33, 4, 0, 0, 0, 0, 0, 4, 0xFF, 0xF3, 0, 0]

theorem quiet_frames_are_found :
    readScanWindow (quietTag ++ quietFrames) = some { id3v2End := 14, data := quietFrames } ∧
      (detectMisdetection { id3v2End := 14, data := quietFrames } (some "mp1") 2).spliceOffset = some 15 ∧
      FirstStream ((quietTag ++ quietFrames).take (14 + maxScanBytes)) 14 2 15 ∧ FirstStream quietFrames 0 2 1 := by
  have found : findStream quietFrames 0 2 =
      some (1, { version := 2, layer := 3, sampleRate := 24000, bitrateKbps := 8, length := 24 }) := by decide
  have window : readScanWindow (quietTag ++ quietFrames) = some { id3v2End := 14, data := quietFrames } := by decide +kernel
  have spliced : (detectMisdetection { id3v2End := 14, data := quietFrames } (some "mp1") 2).spliceOffset = some 15 := by
    rw [detectMisdetection, found]
  obtain ⟨scans, -, files⟩ := streams_are_found
  refine ⟨window, spliced, ?_, ((scans quietFrames 0 2 (by decide)).1 _).mp found |>.1⟩
  exact (((files _ _ (some "mp1") 2 (by decide) window).2 15).mp spliced).1

end Phaze.Mpeg
