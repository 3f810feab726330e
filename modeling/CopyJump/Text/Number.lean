namespace CopyJump.Text.Number

inductive Problem
  | empty
  | invalidDigit
  | tooLarge
deriving DecidableEq

def Problem.message : Problem → String
  | empty => "cannot parse integer from empty string"
  | invalidDigit => "invalid digit found in string"
  | tooLarge => "number too large to fit in target type"

def digit? (base : Nat) (c : Char) : Option Nat :=
  let n := c.toNat
  let value :=
    if 0x30 ≤ n && n ≤ 0x39 then some (n - 0x30)
    else if 0x41 ≤ n && n ≤ 0x46 then some (n - 0x41 + 10)
    else if 0x61 ≤ n && n ≤ 0x66 then some (n - 0x61 + 10)
    else none
  value.filter (· < base)

/-- Reads digits behind a value. A character is looked at before the value it makes. -/
def digits (base limit value : Nat) : List Char → Except Problem Nat
  | [] => .ok value
  | c :: cs =>
    match digit? base c with
    | none => .error .invalidDigit
    | some d =>
      if limit < value * base + d then .error .tooLarge
      else digits base limit (value * base + d) cs

def read (base limit : Nat) (cs : List Char) : Except Problem Nat :=
  match cs with
  | [] => .error .empty
  | ['+'] => .error .invalidDigit
  | '+' :: rest => digits base limit 0 rest
  | cs => digits base limit 0 cs

def padded (base width n : Nat) : List Char :=
  let ds := Nat.toDigits base n
  List.replicate (width - ds.length) '0' ++ ds

end CopyJump.Text.Number
