import Phaze.Shared.Patterns
import Phaze.Tracklist.LocalCue

set_option autoImplicit false

/-!
# Syntax of local text rows

`tracklist_providers/local_text.py`, `note_line` of `local_syntax.py` and the patterns of `local_parser.py`. The
characters of words (`\w`) are a parameter.
-/

namespace Phaze.Tracklist

open Phaze.Percent Phaze.Unicode Phaze.Patterns

/-! ## Patterns -/

def frameLeft (point : CodePoint) : Bool := isSpace point || oneOf "|│║┃/\\─━═┌┐└┘╔╗╚╝█▓▒░▀▄▌▐■" point

def frameRight (point : CodePoint) : Bool := isSpace point || oneOf "|│║┃█▓▒░" point

def notDigit (point : CodePoint) : Bool := !isDecimal point

def letter (point : CodePoint) : Bool := isAsciiLetter point

def colon : Pattern := literal ":"

def anything : Pattern := .run dot 0 none

-- `\d{1,6}:\d{2}(?::\d{2})?`
def clockTime : Pattern := all [digitsOf 1 6, colon, digitsOf 2 2, (all [colon, digitsOf 2 2]).optional]

def ordered : Pattern :=
  all [any [all [literal "[", .group 1 (digitsOf 1 4), literal "]"], all [.group 2 (digitsOf 1 4), (Pattern.one (oneOf ".):-")).optional]],
    .run (oneOf " \t") 1 none, .group 3 (.run dot 1 none), .finish]

def timed : Pattern :=
  all [any [all [literal "[", .group 1 (any [clockTime, digitsOf 1 6]), literal "]"], .group 2 clockTime],
    .run (oneOf " \t") 1 none, .group 3 (.run dot 1 none), .finish]

def headingPattern : Pattern :=
  all [any [all [caseless "track", spaces 0, caseless "list", (caseless "ing").optional], caseless "setlist", caseless "tracks",
      all [caseless "nr", (literal ".").optional, spaces 1, any [caseless "title", caseless "track"], anything]],
    spaces 0, colon.optional, .finish]

def sectionPattern : Pattern :=
  all [any [caseless "part", caseless "set", caseless "disc", caseless "disk", caseless "cd"], spaces 0, digitsOf 1 4, .boundary,
    anything, .finish]

def duration : Pattern :=
  all [spaces 1, (literal "[").optional, .group 1 clockTime, (literal "]").optional, (all [spaces 1, literal "min"]).optional, .finish]

def isDecoration (point : CodePoint) : Bool :=
  isSpace point || oneOf "-=+*_~|.:/\\[]" point || (0x2500 ≤ code point && code point ≤ 0x259F)

def decoration : Pattern := all [.run isDecoration 1 none, .finish]

def dateHeader : Pattern :=
  let mark := Pattern.one (oneOf "-./")
  all [any [all [digitsOf 4 4, mark, digitsOf 2 2, mark, digitsOf 2 2], all [digitsOf 2 2, mark, digitsOf 2 2, mark, digitsOf 4 4]], .boundary]

def mediaName : Pattern :=
  all [literal ".", any (["mp3", "m4a", "mp4", "wav", "flac", "ogg", "ape", "aiff", "wma"].map caseless), spaces 0, .finish]

def lineup : Pattern := all [digitsOf 1 2, literal ".", digitsOf 2 2, spaces 1, .one notDigit]

def unknownPattern : Pattern :=
  all [any [caseless "id", caseless "unknown", caseless "unidentified", .run (oneOf "?") 1 none],
    any [.one isSpace, .finish, .one (oneOf "([")]]

def absentPattern : Pattern :=
  all [any [all [any (["no", "unknown", "missing", "unavailable"].map caseless), spaces 1, any [caseless "tracklist", caseless "setlist"]],
      all [any [caseless "tracklist", caseless "setlist"], spaces 1, any (["unknown", "unavailable", "missing"].map caseless)]],
    .boundary]

def labeled : Pattern :=
  all [.group 1 (all [.one letter, .fewest (fun point => letter point || oneOf " ._/-" point) 0 (some 63)]), spaces 0, .one (oneOf ":="),
    spaces 0, .group 2 (.fewest dot 0 none), spaces 0, .finish]

def header : Pattern :=
  all [any (["artist", "album", "title", "date", "genre", "label", "venue", "event", "year", "quality", "bitrate", "encoder", "length",
      "tracklist", "tracks"].map caseless), spaces 0, colon, spaces 0, anything, .finish]

def timePattern : Pattern :=
  all [(all [.group 1 (caseless "clock"), spaces 1]).optional, .group 2 (digitsOf 1 6), colon, .group 3 (digitsOf 2 2),
    (all [colon, .group 4 (digitsOf 2 2)]).optional, .finish]

def minutePattern : Pattern := all [.group 1 (digitsOf 1 6), spaces 0, caseless "min", .finish]

def annotation : Pattern :=
  all [any [all [literal "[", caseless "label", colon, spaces 0, .group 1 (.run (fun point => !oneOf "[]" point) 1 none), literal "]"],
      all [literal "(", caseless "remix", colon, spaces 0, .group 2 (.run (fun point => !oneOf "()" point) 1 none), literal ")"],
      .group 3 (all [literal "(", caseless "mashup", literal ")"])],
    .finish]

def separator : Pattern := all [.one isSpace, .one (oneOf "-–—"), .one isSpace]

def dashes : Pattern := .run (oneOf "-") 6 none

def exportHeading : Pattern :=
  all [any [all [caseless "file", (caseless "s").optional, (all [literal "(", caseless "s", literal ")"]).optional],
    caseless "export information"], spaces 0, colon]

-- `^[-.:]\s+`
def listMark : Pattern := all [.one (oneOf "-.:"), spaces 1]

def bareNumber : Pattern := all [.run isDecimal 1 none, spaces 1, .one notDigit]

def sideNumber : Pattern :=
  all [.one fun point => 0x41 ≤ code point && code point ≤ 0x5A, digitsOf 1 2, .one (oneOf ".)"), .one isSpace]

def liveSet : Pattern :=
  any [all [.boundary, any [all [caseless "live", spaces 1, caseless "broadcast"], all [caseless "live", spaces 1, caseless "set"]], .boundary],
    all [digitsOf 4 4, literal "-", digitsOf 2 2, literal "-", digitsOf 2 2]]

-- `\w`, on ASCII text.
def asciiWord : CodePoint → Bool
  | .scalar char => char.isAlphanum || char = '_'
  | .surrogate _ => false

/-! ## Lines -/

def stripOf (drops : CodePoint → Bool) (text : Text) : Text := ((text.dropWhile drops).reverse.dropWhile drops).reverse

-- `note_line(raw)[0]`
def noteLine (raw : Text) : Text := ((raw.dropWhile frameLeft).reverse.dropWhile frameRight).reverse

def startsWith (text : Text) (literal : String) : Bool := (str literal).isPrefixOf text

def contains (text : Text) (literal : String) : Bool := text.tails.any (str literal).isPrefixOf

variable (isWord : CodePoint → Bool)

def heading (line : Text) : Bool := (fullmatch isWord headingPattern (stripOf (oneOf " .:=*-_") line)).isSome

def closesFrame (raw : Text) : Bool := startsWith (lstrip raw) "\\" && (search isWord dashes raw).isSome

-- The lines of a block up to its closing border.
def exportFrame (lines : List Text) (index : Nat) : Bool :=
  let raw := lines.getD index []
  startsWith (lstrip raw) "/" && (search isWord dashes raw).isSome &&
    (((lines.drop (index + 1)).take 32).takeWhile (fun raw => !closesFrame isWord raw)).any fun raw =>
      (matchStart isWord exportHeading (noteLine raw)).isSome

structure TextRowSyntax where
  number : Option Nat
  body : Text
  time : Option Text := none
  minute : Bool := false

-- `str.isdigit` beyond `\d`: superscripts, circled and other digits.
def otherDigits : List (Nat × Nat) :=
  [(0xB2, 0xB3), (0xB9, 0xB9), (0x1369, 0x1371), (0x19DA, 0x19DA), (0x2070, 0x2070), (0x2074, 0x2079), (0x2080, 0x2089), (0x2460, 0x2468),
    (0x2474, 0x247C), (0x2488, 0x2490), (0x24EA, 0x24EA), (0x24F5, 0x24FD), (0x24FF, 0x24FF), (0x2776, 0x277E), (0x2780, 0x2788),
    (0x278A, 0x2792), (0x10A40, 0x10A43), (0x10E60, 0x10E68), (0x11052, 0x1105A), (0x1F100, 0x1F10A)]

def isDigit (point : CodePoint) : Bool :=
  isDecimal point || otherDigits.any fun range => range.1 ≤ code point && code point ≤ range.2

def allDigits (text : Text) : Bool := text ≠ [] && text.all isDigit

-- The decimal number of the group that took part.
def ordinalOf (place : Place) : Nat := Tracklist.number ((place.text? 1).getD ((place.text? 2).getD []))

def originalOf (place : Place) : Text := (place.text? 1).getD ((place.text? 2).getD [])

def bodyOf (place : Place) : Text := (place.text? 3).getD []

def withoutMark (body : Text) : Text := ((matchStart isWord listMark body).map Place.rest).getD body

-- `text.split("]", 1)`
def splitBracket (text : Text) : Text × Text :=
  (text.takeWhile (· ≠ .scalar ']'), (text.dropWhile (· ≠ .scalar ']')).tail)

def hasColon (text : Text) : Bool := contains text ":"

def prefixOf (line : Text) : TextRowSyntax :=
  match fullmatch isWord timed line with
  | some place =>
      match fullmatch isWord ordered (bodyOf place) with
      | some following =>
          { number := some (ordinalOf following), body := withoutMark isWord (bodyOf following), time := some (originalOf place)
            minute := !hasColon (originalOf place) }
      | none => { number := none, body := bodyOf place, time := some (originalOf place), minute := !hasColon (originalOf place) }
  | none =>
      match fullmatch isWord ordered line with
      | none => { number := none, body := line }
      | some place =>
          let body := withoutMark isWord (bodyOf place)
          if startsWith body "[" && contains body "]" then
            let (original, rest) := splitBracket body.tail
            { number := some (ordinalOf place), body := strip rest, time := some original, minute := allDigits original }
          else match fullmatch isWord timed body with
            | some trailing =>
                { number := some (ordinalOf place), body := bodyOf trailing, time := some (originalOf trailing)
                  minute := !hasColon (originalOf trailing) }
            | none => { number := some (ordinalOf place), body }

-- The first line of a few that has text.
def nearest (lines : List Text) : Option Text := (lines.map noteLine).find? (· ≠ [])

def nextNumbered (lines : List Text) (index : Nat) : Option TextRowSyntax :=
  (nearest ((lines.drop (index + 1)).take 3)).bind fun line =>
    let parsed := prefixOf isWord line
    if parsed.number.isSome then some parsed else none

def isDash (point : CodePoint) : Bool := oneOf "-–—•/" point

def separatesAt (left : Option CodePoint) (point : CodePoint) (right : Option CodePoint) : Bool :=
  point = .scalar '•' || (point = .scalar '/' && left.any isSpace && right.any isSpace) ||
    (point ≠ .scalar '/' && (left.any isSpace || right.any isSpace))

-- Separators outside brackets and quotes.
def separatorsFrom : Option CodePoint → Nat → Nat → Bool → Text → List Nat
  | _, _, _, _, [] => []
  | left, index, depth, quoted, point :: rest =>
      if point = quoteMark then separatorsFrom (some point) (index + 1) depth (!quoted) rest
      else if !quoted && oneOf "([" point then separatorsFrom (some point) (index + 1) (depth + 1) quoted rest
      else if !quoted && oneOf ")]" point then separatorsFrom (some point) (index + 1) (depth - 1) quoted rest
      else if !quoted && depth = 0 && isDash point && separatesAt left point rest.head? then
        index :: separatorsFrom (some point) (index + 1) depth quoted rest
      else separatorsFrom (some point) (index + 1) depth quoted rest

def separators (body : Text) : List Nat := separatorsFrom none 0 0 false body

def plainRow (line : Text) : Bool :=
  (fullmatch isWord labeled line).isNone && !contains line "://" && (matchStart isWord dateHeader line).isNone &&
    (search isWord mediaName line).isNone && separators line ≠ []

def adjacentRow (lines : List Text) (index : Nat) : Bool :=
  (nearest ((lines.take index).reverse.take 2)).any (plainRow isWord) ||
    (nearest ((lines.drop (index + 1)).take 2)).any (plainRow isWord)

end Phaze.Tracklist
