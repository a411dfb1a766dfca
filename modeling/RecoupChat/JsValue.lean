import Mathlib.Data.Int.Log
import Mathlib.Data.List.DropRight
import Mathlib.Data.Rat.Floor
import RecoupChat.JsText

/-! JSON values as the language computes with them: fields, lengths and the comparison with a
number, which may throw. -/
namespace JsValue

/-- A string is its UTF-16 code units. -/
abbrev Text := List UInt16

def text (s : String) : Text := s.toList.map fun c => c.toNat.toUInt16

/-- NaN is left out: no JSON text denotes it. -/
inductive Number where
  | finite (value : ℚ)
  | infinity (negative : Bool)
  deriving DecidableEq

mutual
inductive Json where
  | null
  | bool (value : Bool)
  | number (value : Number)
  | string (value : Text)
  | array (elements : Elements)
  | object (fields : Fields)
  deriving DecidableEq

inductive Elements where
  | nil
  | cons (value : Json) (rest : Elements)
  deriving DecidableEq

inductive Fields where
  | nil
  | cons (key : Text) (value : Json) (rest : Fields)
  deriving DecidableEq
end

def Elements.length : Elements → Nat
  | .nil => 0
  | .cons _ rest => rest.length + 1

def Fields.get? (key : Text) : Fields → Option Json
  | .nil => none
  | .cons k value rest => if k = key then some value else rest.get? key

/-! Numbers from texts. -/

def roundHalfEven (q : ℚ) : ℤ :=
  let rest := q - ⌊q⌋
  if rest < 1 / 2 ∨ rest = 1 / 2 ∧ ⌊q⌋ % 2 = 0 then ⌊q⌋ else ⌊q⌋ + 1

def toDouble (q : ℚ) : Number :=
  let exponent := max (Int.log 2 |q| - 52) (-1074)
  let value := roundHalfEven (q / 2 ^ exponent) * (2 : ℚ) ^ exponent
  if |value| < 2 ^ 1024 then .finite value else .infinity (q < 0)

def isSpace (c : UInt16) : Bool := JsText.isSpace c.toNat

def digit (radix : Nat) (c : UInt16) : Option Nat :=
  let n := c.toNat
  let value :=
    if 48 ≤ n ∧ n ≤ 57 then some (n - 48)
    else if 65 ≤ n ∧ n ≤ 70 then some (n - 55)
    else if 97 ≤ n ∧ n ≤ 102 then some (n - 87)
    else none
  value.filter (· < radix)

def digits (radix : Nat) : Text → Option Nat
  | [] => none
  | c :: cs => (c :: cs).foldlM (fun n c => (digit radix c).map (n * radix + ·)) 0

def integer : Text → Option Int
  | 43 :: s => (digits 10 s).map (↑·)
  | 45 :: s => (digits 10 s).map fun n => -(n : Int)
  | s => (digits 10 s).map (↑·)

def decimal (s : Text) : Option ℚ :=
  let mantissa := s.takeWhile fun c => c ≠ 101 && c ≠ 69
  let whole := mantissa.takeWhile (· ≠ 46)
  let fraction := (mantissa.dropWhile (· ≠ 46)).drop 1
  let exponent := match s.dropWhile fun c => c ≠ 101 && c ≠ 69 with
    | [] => some 0
    | _ :: e => integer e
  exponent.bind fun e =>
    (digits 10 (whole ++ fraction)).map fun n => n * (10 : ℚ) ^ (e - fraction.length)

def unsigned (s : Text) : Option Number :=
  if s = text "Infinity" then some (.infinity false) else (decimal s).map toDouble

def Number.neg : Number → Number
  | .finite value => .finite (-value)
  | .infinity negative => .infinity !negative

/-- `Number(s)`; `none` is NaN. -/
def stringToNumber (s : Text) : Option Number :=
  match (s.dropWhile isSpace).rdropWhile isSpace with
  | [] => some (.finite 0)
  | 43 :: s => unsigned s
  | 45 :: s => (unsigned s).map Number.neg
  | 48 :: c :: s =>
    if c = 120 ∨ c = 88 then (digits 16 s).map (toDouble ·)
    else if c = 111 ∨ c = 79 then (digits 8 s).map (toDouble ·)
    else if c = 98 ∨ c = 66 then (digits 2 s).map (toDouble ·)
    else unsigned (48 :: c :: s)
  | s => unsigned s

/-! Conversions of values. An outer `none` is a throw: an own `toString`, which no function can
be, leaves an object without a primitive value. -/

def Fields.toNumber (fields : Fields) : Option (Option Number) :=
  if fields.get? (text "toString") = none then some none else none

mutual

/-- The number that the text of an element reads as when an array is joined. The text of a
number reads as that number. -/
def Json.read : Json → Option (Option Number)
  | .null => some (some (.finite 0))
  | .bool _ => some none
  | .number value => some (some value)
  | .string value => some (stringToNumber value)
  | .array elements => elements.read
  | .object fields => fields.toNumber

/-- The number that the joined text reads as; a comma makes it NaN. -/
def Elements.read : Elements → Option (Option Number)
  | .nil => some (some (.finite 0))
  | .cons value .nil => value.read
  | .cons value (.cons value' rest) =>
    match value.read, (Elements.cons value' rest).read with
    | some _, some _ => some none
    | _, _ => none

end

def Json.toNumber : Json → Option (Option Number)
  | .null => some (some (.finite 0))
  | .bool value => some (some (.finite (if value then 1 else 0)))
  | .number value => some (some value)
  | .string value => some (stringToNumber value)
  | .array elements => elements.read
  | .object fields => fields.toNumber

def Number.atLeast (k : ℚ) : Number → Bool
  | .finite value => k ≤ value
  | .infinity negative => !negative

/-- `value >= k`, where `value` may be undefined. -/
def atLeast (k : ℚ) : Option Json → Option Bool
  | none => some false
  | some value => value.toNumber.map fun n => n.any (·.atLeast k)

/-- `value.length`; the inner `none` is undefined. -/
def Json.length : Json → Option (Option Json)
  | .null => none
  | .bool _ | .number _ => some none
  | .string value => some (some (.number (.finite value.length)))
  | .array elements => some (some (.number (.finite elements.length)))
  | .object fields => some (fields.get? (text "length"))

/-! What `JSON.parse` reads back from `JSON.stringify`: no text stands for an infinite number. -/

def Number.sent : Number → Json
  | .finite value => .number (.finite value)
  | .infinity _ => .null

mutual

def Json.sent : Json → Json
  | .number value => value.sent
  | .array elements => .array elements.sent
  | .object fields => .object fields.sent
  | value => value

def Elements.sent : Elements → Elements
  | .nil => .nil
  | .cons value rest => .cons value.sent rest.sent

def Fields.sent : Fields → Fields
  | .nil => .nil
  | .cons key value rest => .cons key value.sent rest.sent

end

theorem length_sent : (elements : Elements) → elements.sent.length = elements.length
  | .nil => rfl
  | .cons _ rest => congrArg (· + 1) (length_sent rest)

theorem get?_sent (key : Text) :
    (fields : Fields) → fields.sent.get? key = (fields.get? key).map Json.sent
  | .nil => rfl
  | .cons k value rest => by
    simp only [Fields.sent, Fields.get?, get?_sent key rest]
    split <;> rfl

example : atLeast 40 (some (.string (text " 0x28 "))) = some true := by decide +kernel

end JsValue
