import Phaze.Shared.Guards
import Phaze.Shared.Percent

set_option autoImplicit false

/-!
# Source-neutral tracklist data

The values of `tracklist_providers/domain.py` with the checks that their construction makes. A text is a Python
string: its code points, lone surrogates included, which no validated field admits.
-/

namespace Phaze.Tracklist

open Phaze.Guards

abbrev Text := Percent.Str

def CodePoint.isScalar : Percent.CodePoint → Bool
  | .scalar _ => true
  | .surrogate _ => false

-- A `str` field of a `max_length`.
def fits (limit : Nat) (text : Text) : Bool := text.length ≤ limit && text.all CodePoint.isScalar

def evidenceFits (evidence : List Text) : Bool := evidence.length ≤ 64 && evidence.all (fits 4096)

/-! ## Timestamps -/

inductive TimestampKind where
  | offset
  | clock
  | unknown
deriving DecidableEq

inductive TimestampPrecision where
  | cueFrame75
  | second
  | minute
  | unknown
deriving DecidableEq

inductive OffsetUsability where
  | qualified
  | approximate
  | unusable
deriving DecidableEq

structure RationalOffset where
  numerator : Nat
  denominator : Nat
  positive : 0 < denominator
deriving DecidableEq

def RationalOffset.asFraction (offset : RationalOffset) : ℚ := (offset.numerator : ℚ) / offset.denominator

structure Timestamp where
  original : Text
  kind : TimestampKind := .unknown
  precision : TimestampPrecision := .unknown
  origin : Option Text := none
  offset : Option RationalOffset := none
  offsetUsability : OffsetUsability := .unusable
  evidence : List Text := []
deriving DecidableEq

-- A fraction of the offset that is whole.
def RationalOffset.whole (offset : RationalOffset) (times : ℚ) : Bool := (offset.asFraction * times).den = 1

def Timestamp.fieldsFit (timestamp : Timestamp) : Bool :=
  fits 4096 timestamp.original && timestamp.origin.all (fits 4096) && evidenceFits timestamp.evidence

def Timestamp.validateQualification (timestamp : Timestamp) : Except String Unit := do
  require (timestamp.kind = .offset || timestamp.offset.isNone) "Clock and unknown timestamps cannot contain an offset"
  require (timestamp.offsetUsability = .unusable || (timestamp.kind = .offset && timestamp.offset.isSome &&
    timestamp.origin.any (fun origin => !origin.isEmpty) && !timestamp.evidence.isEmpty))
    "Usable offsets require origin and interpretation evidence"
  require (timestamp.offsetUsability ≠ .qualified || timestamp.precision = .cueFrame75 || timestamp.precision = .second)
    "Qualified offsets require frame or second precision"
  require (timestamp.precision ≠ .cueFrame75 || timestamp.offset.all (RationalOffset.whole · 75))
    "CUE offset must preserve whole 75fps frames"
  require (timestamp.precision ≠ .second || timestamp.offset.all (RationalOffset.whole · 1))
    "Second precision requires whole seconds"
  require (timestamp.precision ≠ .minute || timestamp.offset.all (RationalOffset.whole · (1 / 60)))
    "Minute precision requires whole minutes"

/-! ## Tracks -/

structure ProviderTrack where
  position : Int
  sectionOrdinal : Option Nat := none
  artist : Option Text := none
  title : Option Text := none
  timestamp : Option Timestamp := none
  label : Option Text := none
  remixInfo : Option Text := none
  isMashup : Bool := false
  evidence : List Text := []
deriving DecidableEq

end Phaze.Tracklist
