import Mathlib

set_option autoImplicit false

/-!
# Chains of MPEG frames

The parse of `services/mpeg_frames.py` over the bytes of a file. The version is the raw code of the header, where
3 stands for MPEG-1.
-/

namespace Phaze.Mpeg

abbrev Bytes := List UInt8

/-! ## Headers -/

def bitratesV1 : Nat → List Nat
  | 1 => [0, 32, 64, 96, 128, 160, 192, 224, 256, 288, 320, 352, 384, 416, 448]
  | 2 => [0, 32, 48, 56, 64, 80, 96, 112, 128, 160, 192, 224, 256, 320, 384]
  | _ => [0, 32, 40, 48, 56, 64, 80, 96, 112, 128, 160, 192, 224, 256, 320]

def bitratesV2 : Nat → List Nat
  | 1 => [0, 32, 48, 56, 64, 80, 96, 112, 128, 144, 160, 176, 192, 224, 256]
  | _ => [0, 8, 16, 24, 32, 40, 48, 56, 64, 80, 96, 112, 128, 144, 160]

def sampleRates : Nat → List Nat
  | 3 => [44100, 48000, 32000]
  | 2 => [22050, 24000, 16000]
  | _ => [11025, 12000, 8000]

structure FrameHeader where
  version : Nat
  layer : Nat
  sampleRate : Nat
  bitrateKbps : Nat
  length : Nat
deriving DecidableEq

def frameLength (version layer bitrate sampleRate padding : Nat) : Nat :=
  if layer = 1 then (12 * bitrate / sampleRate + padding) * 4
  else if layer = 3 ∧ version ≠ 3 then 72 * bitrate / sampleRate + padding
  else 144 * bitrate / sampleRate + padding

-- The four bytes of a header, without the bounds of the data.
def headerOf (b0 b1 b2 b3 : UInt8) : Option FrameHeader :=
  if b0 ≠ 0xFF ∨ b1 &&& 0xE0 ≠ 0xE0 then none
  else
    let version := ((b1 >>> 3) &&& 3).toNat
    let layer := 4 - ((b1 >>> 1) &&& 3).toNat
    let bitrateIndex := ((b2 >>> 4) &&& 0x0F).toNat
    let rateIndex := ((b2 >>> 2) &&& 3).toNat
    if version = 1 ∨ layer = 4 ∨ bitrateIndex = 0 ∨ bitrateIndex = 15 ∨ rateIndex = 3 ∨ b3 &&& 3 = 2 then none
    else
      let table := if version = 3 then bitratesV1 else bitratesV2
      let bitrate := (table layer).getD bitrateIndex 0 * 1000
      let sampleRate := (sampleRates version).getD rateIndex 0
      let padding := ((b2 >>> 1) &&& 1).toNat
      some { version, layer, sampleRate, bitrateKbps := bitrate / 1000,
             length := frameLength version layer bitrate sampleRate padding }

def parseFrameHeader (data : Bytes) (pos : Nat) : Option FrameHeader :=
  match data[pos]?, data[pos + 1]?, data[pos + 2]?, data[pos + 3]? with
  | some b0, some b1, some b2, some b3 => headerOf b0 b1 b2 b3
  | _, _, _, _ => none

/-! ## Chains -/

def FrameHeader.like (frame first : FrameHeader) : Bool :=
  frame.version = first.version && frame.layer = first.layer && frame.sampleRate = first.sampleRate

-- The loop of `chain_length`, with what is left of the limit.
def chainFrom (data : Bytes) (first : FrameHeader) : Nat → Nat → Nat
  | 0, _ => 0
  | limit + 1, pos =>
      match parseFrameHeader data pos with
      | none => 0
      | some frame =>
          if !frame.like first then 0
          else if data.length < pos + frame.length then 0
          else 1 + chainFrom data first limit (pos + frame.length)

def chainLength (data : Bytes) (start limit : Nat) : Nat × Option FrameHeader :=
  match parseFrameHeader data start with
  | none => (0, none)
  | some first =>
      if data.length < start + first.length then (0, none)
      else (1 + chainFrom data first (limit - 1) (start + first.length), some first)

-- `_SYNC.finditer(data, start)`
def syncs (data : Bytes) (start : Int) : List Nat :=
  (List.range data.length).filter fun pos =>
    start ≤ pos && data[pos]? = some 0xFF && (data[pos + 1]?).any fun byte => 0xE0 ≤ byte

def findStream (data : Bytes) (start : Int) (minFrames : Nat) : Option (Nat × FrameHeader) :=
  (syncs data start).findSome? fun pos =>
    match chainLength data pos minFrames with
    | (count, some first) => if minFrames ≤ count then some (pos, first) else none
    | (_, none) => none

/-! ## What a stream is -/

/-- Consecutive frames from a position, all like the first one and all within the data. -/
inductive Chain (data : Bytes) (first : FrameHeader) : Nat → Nat → Prop where
  | done (pos : Nat) : Chain data first 0 pos
  | frame (count pos : Nat) (frame : FrameHeader) (parsed : parseFrameHeader data pos = some frame)
      (alike : frame.like first = true) (within : pos + frame.length ≤ data.length)
      (rest : Chain data first count (pos + frame.length)) : Chain data first (count + 1) pos

def StreamAt (data : Bytes) (minFrames pos : Nat) : Prop :=
  ∃ first count, parseFrameHeader data pos = some first ∧ minFrames ≤ count ∧ Chain data first count pos

variable {data : Bytes} {first frame : FrameHeader} {pos count limit minFrames : Nat}

/-! ## Lengths -/

theorem sampleRates_bounds (version : Nat) {index : Nat} (index' : index < 3) :
    8000 ≤ (sampleRates version).getD index 0 ∧ (sampleRates version).getD index 0 ≤ 48000 ∧
      (version ≠ 3 → (sampleRates version).getD index 0 ≤ 24000) := by
  have cases : index = 0 ∨ index = 1 ∨ index = 2 := by omega
  unfold sampleRates
  rcases cases with rfl | rfl | rfl
  all_goals
    split <;> simp

theorem bitrates_bounds (version layer : Nat) {index : Nat} (low : 1 ≤ index) (high : index ≤ 14) :
    8 ≤ ((if version = 3 then bitratesV1 else bitratesV2) layer).getD index 0 ∧
      (version = 3 ∨ layer = 1 → 32 ≤ ((if version = 3 then bitratesV1 else bitratesV2) layer).getD index 0) := by
  have listed : index ∈ List.range' 1 14 := by
    rw [List.mem_range'_1]
    omega
  have each : ∀ place ∈ List.range' 1 14, ∀ row ∈ [bitratesV1 1, bitratesV1 2, bitratesV1 3, bitratesV2 1],
      32 ≤ row.getD place 0 := by decide
  have other : ∀ place ∈ List.range' 1 14, 8 ≤ (bitratesV2 2).getD place 0 := by decide
  by_cases latest : version = 3
  next =>
    have wide : 32 ≤ (bitratesV1 layer).getD index 0 := by
      unfold bitratesV1
      split
      · exact each index listed (bitratesV1 1) (by simp)
      · exact each index listed (bitratesV1 2) (by simp)
      · exact each index listed (bitratesV1 3) (by simp)
    rw [if_pos latest]
    exact ⟨by omega, fun _ => wide⟩
  next =>
    rw [if_neg latest]
    unfold bitratesV2
    split
    · have wide := each index listed (bitratesV2 1) (by simp)
      exact ⟨le_trans (by decide) wide, fun _ => wide⟩
    · rename_i different
      exact ⟨other index listed, fun either => absurd (either.resolve_left latest) different⟩

theorem frameLength_ge {version layer bitrate sampleRate padding : Nat} (slow : 8000 ≤ sampleRate)
    (fast : sampleRate ≤ 48000) (half : version ≠ 3 → sampleRate ≤ 24000) (least : 8 ≤ bitrate)
    (wide : version = 3 ∨ layer = 1 → 32 ≤ bitrate) :
    24 ≤ frameLength version layer (bitrate * 1000) sampleRate padding := by
  have positive : 0 < sampleRate := by omega
  unfold frameLength
  split
  next one =>
    have enough := wide (.inr one)
    have six : 6 ≤ 12 * (bitrate * 1000) / sampleRate := (Nat.le_div_iff_mul_le positive).mpr (by omega)
    omega
  next =>
    split
    next low =>
      have slower := half low.2
      have enough : 24 ≤ 72 * (bitrate * 1000) / sampleRate := (Nat.le_div_iff_mul_le positive).mpr (by omega)
      omega
    next =>
      have enough : 24 ≤ 144 * (bitrate * 1000) / sampleRate := by
        rw [Nat.le_div_iff_mul_le positive]
        by_cases latest : version = 3
        · have more := wide (.inl latest)
          omega
        · have slower := half latest
          omega
      omega

theorem masked_le (byte mask : UInt8) : (byte &&& mask).toNat ≤ mask.toNat := by
  rw [UInt8.toNat_and]
  exact Nat.and_le_right

/-- No header is shorter than 24 bytes. -/
theorem headerOf_length {b0 b1 b2 b3 : UInt8} {header : FrameHeader} (parsed : headerOf b0 b1 b2 b3 = some header) :
    24 ≤ header.length := by
  unfold headerOf at parsed
  split at parsed
  next => cases parsed
  next =>
    simp only at parsed
    split at parsed
    next => cases parsed
    next valid =>
      simp only [not_or] at valid
      obtain rfl := Option.some.inj parsed
      obtain ⟨-, -, lowest, highest, rate, -⟩ := valid
      have rateBound := masked_le (b2 >>> 2) 3
      have bitrateBound := masked_le (b2 >>> 4) 0x0F
      have three : (3 : UInt8).toNat = 3 := rfl
      have fifteen : (0x0F : UInt8).toNat = 15 := rfl
      generalize ((b1 >>> 3) &&& 3).toNat = version
      generalize 4 - ((b1 >>> 1) &&& 3).toNat = layer
      generalize ((b2 >>> 4) &&& 0x0F).toNat = bitrateIndex at *
      generalize ((b2 >>> 2) &&& 3).toNat = rateIndex at *
      have rates : rateIndex < 3 := by omega
      have low : 1 ≤ bitrateIndex := by omega
      have high : bitrateIndex ≤ 14 := by omega
      obtain ⟨slow, fast, half⟩ := sampleRates_bounds version rates
      obtain ⟨least, wide⟩ := bitrates_bounds version layer low high
      exact frameLength_ge slow fast half least wide

theorem parseFrameHeader_length (parsed : parseFrameHeader data pos = some frame) : 24 ≤ frame.length := by
  unfold parseFrameHeader at parsed
  split at parsed
  next => exact headerOf_length parsed
  next => cases parsed

/-! ## Candidates -/

theorem sync_byte {byte : UInt8} (set' : byte &&& 0xE0 = 0xE0) : 0xE0 ≤ byte := by
  rw [UInt8.le_iff_toNat_le, ← set', UInt8.toNat_and]
  exact Nat.and_le_left

theorem mem_syncs {start : Int} : pos ∈ syncs data start ↔
    pos < data.length ∧ start ≤ pos ∧ data[pos]? = some 0xFF ∧ ∃ byte, data[pos + 1]? = some byte ∧ 0xE0 ≤ byte := by
  simp [syncs, Option.any_eq_true, and_assoc]

-- Every header that is parsed stands at a candidate.
theorem parsed_sync {start : Int} (from' : start ≤ pos) (parsed : parseFrameHeader data pos = some frame) :
    pos ∈ syncs data start := by
  unfold parseFrameHeader at parsed
  split at parsed
  next b0 b1 b2 b3 first second third fourth =>
    have inside := (List.getElem?_eq_some_iff.mp first).1
    unfold headerOf at parsed
    split at parsed
    next => cases parsed
    next synced =>
      simp only [not_or, not_not] at synced
      exact mem_syncs.mpr ⟨inside, from', synced.1 ▸ first, b1, second, sync_byte synced.2⟩
  next => cases parsed

/-! ## Chains -/

theorem chainFrom_chain (data : Bytes) (first : FrameHeader) (limit pos : Nat) :
    Chain data first (chainFrom data first limit pos) pos := by
  induction limit generalizing pos with
  | zero => exact .done pos
  | succ limit ih =>
    rw [chainFrom]
    split
    next => exact .done pos
    next frame parsed =>
      split
      next => exact .done pos
      next alike =>
        split
        next => exact .done pos
        next within =>
          rw [Nat.add_comm]
          exact .frame _ pos frame parsed (by simpa using alike) (by omega) (ih _)

theorem chainFrom_least (chain : Chain data first count pos) (limit : Nat) : min count limit ≤ chainFrom data first limit pos := by
  induction chain generalizing limit with
  | done pos => simp
  | frame count pos frame parsed alike within rest ih =>
    cases limit with
    | zero => simp
    | succ limit =>
      have rest := ih limit
      have fits : ¬ data.length < pos + frame.length := by omega
      simp only [chainFrom, parsed, alike, fits, if_false, Bool.not_true, Bool.false_eq_true]
      omega

theorem like_self (first : FrameHeader) : first.like first = true := by simp [FrameHeader.like]

def accepted (data : Bytes) (minFrames pos : Nat) : Option (Nat × FrameHeader) :=
  match chainLength data pos minFrames with
  | (count, some first) => if minFrames ≤ count then some (pos, first) else none
  | (_, none) => none

theorem accepted_some {found : Nat × FrameHeader} (accepts : accepted data minFrames pos = some found) :
    found.1 = pos ∧ parseFrameHeader data pos = some found.2 ∧ StreamAt data minFrames pos := by
  unfold accepted chainLength at accepts
  cases parsed : parseFrameHeader data pos with
  | none => simp [parsed] at accepts
  | some first =>
    simp only [parsed] at accepts
    by_cases within : data.length < pos + first.length
    next => simp [within] at accepts
    next =>
      simp only [within, if_false] at accepts
      split at accepts
      next enough =>
        obtain rfl := Option.some.inj accepts
        have rest := chainFrom_chain data first (minFrames - 1) (pos + first.length)
        refine ⟨rfl, rfl, first, _, parsed, ?_, .frame _ pos first parsed (like_self first) (by omega) rest⟩
        omega
      next => cases accepts

theorem accepted_of_stream (least : 1 ≤ minFrames) (stream : StreamAt data minFrames pos) :
    (accepted data minFrames pos).isSome := by
  obtain ⟨first, count, parsed, enough, chain⟩ := stream
  cases chain with
  | done => omega
  | frame count pos frame parsed' alike within rest =>
    obtain rfl := Option.some.inj (parsed'.symm.trans parsed)
    have counted := chainFrom_least rest (minFrames - 1)
    have fits : ¬ data.length < pos + frame.length := by omega
    have reaches : minFrames ≤ 1 + chainFrom data frame (minFrames - 1) (pos + frame.length) := by omega
    simp [accepted, chainLength, parsed, fits, reaches]

theorem syncs_ordered (data : Bytes) (start : Int) : (syncs data start).Pairwise (· < ·) :=
  List.Pairwise.filter _ List.pairwise_lt_range

/-- The first stream from the start on. -/
structure FirstStream (data : Bytes) (start : Int) (minFrames pos : Nat) : Prop where
  stream : StreamAt data minFrames pos
  from' : start ≤ pos
  first : ∀ other : Nat, start ≤ other → StreamAt data minFrames other → pos ≤ other

theorem StreamAt.sync {start : Int} (stream : StreamAt data minFrames pos) (from' : start ≤ pos) :
    pos ∈ syncs data start := by
  obtain ⟨first, -, parsed, -⟩ := stream
  exact parsed_sync from' parsed

theorem findStream_some {start : Int} {found : Nat × FrameHeader} (least : 1 ≤ minFrames)
    (finds : findStream data start minFrames = some found) :
    FirstStream data start minFrames found.1 ∧ parseFrameHeader data found.1 = some found.2 := by
  obtain ⟨before, pos, after, split, accepts, refused⟩ := List.findSome?_eq_some_iff.mp finds
  obtain ⟨rfl, parsed, stream⟩ := accepted_some accepts
  have listed : found.1 ∈ syncs data start := by simp [split]
  refine ⟨⟨stream, (mem_syncs.mp listed).2.1, fun other from' another => ?_⟩, parsed⟩
  have ordered := syncs_ordered data start
  have member := another.sync from'
  rw [split] at ordered member
  rcases List.mem_append.mp member with early | later
  · have some' := accepted_of_stream least another
    have none' : accepted data minFrames other = none := refused other early
    rw [none'] at some'
    cases some'
  · rcases List.mem_cons.mp later with rfl | behind
    · exact le_rfl
    · exact ((List.pairwise_cons.mp (List.pairwise_append.mp ordered).2.1).1 other behind).le

theorem findStream_none {start : Int} (least : 1 ≤ minFrames) (none' : findStream data start minFrames = none) :
    ∀ pos : Nat, start ≤ pos → ¬ StreamAt data minFrames pos := by
  intro pos from' stream
  have refused : accepted data minFrames pos = none := List.findSome?_eq_none_iff.mp none' pos (stream.sync from')
  have some' := accepted_of_stream least stream
  rw [refused] at some'
  cases some'

/-- `find_stream` returns the first stream with its header, and nothing exactly where there is none. -/
theorem findStream_iff {start : Int} (least : 1 ≤ minFrames) (found : Nat × FrameHeader) :
    findStream data start minFrames = some found ↔
      FirstStream data start minFrames found.1 ∧ parseFrameHeader data found.1 = some found.2 := by
  refine ⟨findStream_some least, fun there => ?_⟩
  obtain ⟨first, parsed⟩ := there
  cases result : findStream data start minFrames with
  | none => exact absurd first.stream (findStream_none least result _ first.from')
  | some other =>
    obtain ⟨again, parsed'⟩ := findStream_some least result
    have same : other.1 = found.1 := Nat.le_antisymm (again.first _ first.from' first.stream)
      (first.first _ again.from' again.stream)
    rw [same, parsed] at parsed'
    exact congrArg some (Prod.ext same (Option.some.inj parsed').symm)

end Phaze.Mpeg
