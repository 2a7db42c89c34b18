import Phaze.Shared.Unicode

set_option autoImplicit false

/-!
# Lengths of JSON

The bytes of the compact UTF-8 text that pydantic writes for a value.
-/

namespace Phaze.Json

open Phaze.Percent Phaze.Unicode

inductive Value where
  | null
  | bool (value : Bool)
  | int (value : Int)
  | text (value : Str)
  | list (values : List Value)
  | record (fields : List (String × Value))

-- A control character without a short escape is written `\u00XX`.
def pointLength : CodePoint → Nat
  | .scalar char =>
      if char = '"' ∨ char = '\\' then 2
      else if char.toNat ∈ [0x8, 0x9, 0xA, 0xC, 0xD] then 2
      else if char.toNat < 0x20 then 6
      else char.utf8Size
  | .surrogate _ => 6

def textLength (text : Str) : Nat := (text.map pointLength).sum + 2

mutual

def Value.length : Value → Nat
  | .null => 4
  | .bool value => if value then 4 else 5
  | .int value => (printInt value).length
  | .text value => textLength value
  | .list values => listLength values + 2
  | .record fields => recordLength fields + 2

-- The elements with a comma before each but the first.
def listLength : List Value → Nat
  | [] => 0
  | [value] => value.length
  | value :: next :: rest => value.length + 1 + listLength (next :: rest)

def recordLength : List (String × Value) → Nat
  | [] => 0
  | [(name, value)] => name.length + 3 + value.length
  | (name, value) :: next :: rest => name.length + 3 + value.length + 1 + recordLength (next :: rest)

end

def optional (value : Option Str) : Value := value.elim .null .text

def texts (values : List Str) : Value := .list (values.map .text)

theorem listLength_cons (value : Value) (rest : List Value) :
    listLength (value :: rest) = value.length + (if rest = [] then 0 else 1) + listLength rest := by
  cases rest with
  | nil => simp [listLength]
  | cons next rest => simp [listLength]

theorem listLength_le (values : List Value) : listLength values ≤ (values.map fun value => value.length + 1).sum := by
  induction values with
  | nil => exact Nat.le_refl 0
  | cons value rest ih =>
    rw [listLength_cons, List.map_cons, List.sum_cons]
    split
    · omega
    · omega

theorem textLength_append (text other : Str) : textLength (text ++ other) + 2 = textLength text + textLength other := by
  simp only [textLength, List.map_append, List.sum_append]
  omega

end Phaze.Json
