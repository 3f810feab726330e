import CopyJump.Keyboard
import CopyJump.Text.Number
import CopyJump.Text.Utf8

namespace CopyJump.Typed

open Text

inductive Reading
  | stroke (s : Stroke)
  | mouse
  | position
  | unfinished
  | dropped

def key (k : Key) : Reading := .stroke { key := k }

def isDigit (b : UInt8) : Bool := 0x30 ≤ b && b ≤ 0x39

/-- Modifiers are sent as bits, and one added. -/
def modified (k : Key) (n : Nat) : Reading :=
  let bits := n - 1
  .stroke ⟨k, bits.testBit 0, bits.testBit 2, bits.testBit 1⟩

def letterKey? : Char → Option Key
  | 'A' => some .up
  | 'B' => some .down
  | 'C' => some .right
  | 'D' => some .left
  | 'F' => some .finish
  | 'H' => some .home
  | _ => none

/-- `P` to `S` are the first four function keys. -/
def functionKey? (b : UInt8) : Option Key :=
  if 0x50 ≤ b ∧ b ≤ 0x53 then some (.function (b.toNat - 0x4F)) else none

def numberedKey? (n : Nat) : Option Key :=
  match n with
  | 1 | 7 => some .home
  | 2 => some .insert
  | 3 => some .delete
  | 4 | 8 => some .finish
  | 5 => some .pageUp
  | 6 => some .pageDown
  | _ =>
    if 11 ≤ n ∧ n ≤ 15 then some (.function (n - 10))
    else if 17 ≤ n ∧ n ≤ 21 then some (.function (n - 11))
    else if 23 ≤ n ∧ n ≤ 26 then some (.function (n - 12))
    else if 28 ≤ n ∧ n ≤ 29 then some (.function (n - 13))
    else if 31 ≤ n ∧ n ≤ 34 then some (.function (n - 14))
    else none

def chars? (bs : List UInt8) : Option (List Char) :=
  (Utf8.pieces bs).mapM fun
    | .char c => some c
    | .broken _ => none

def fields : List Char → List (List Char)
  | [] => [[]]
  | c :: cs =>
    if c = ';' then [] :: fields cs
    else match fields cs with
      | [] => [[c]]
      | f :: fs => (c :: f) :: fs

def byte? (cs : List Char) : Option Nat := (Number.read 10 255 cs).toOption

def numbered (body : List UInt8) : Reading :=
  match (chars? body).map fields with
  | some (first :: rest) =>
    match (byte? first).bind numberedKey? with
    | some k => modified k (((rest.head?).bind byte?).getD 1)
    | none => .dropped
  | _ => .dropped

/-- A letter behind numbers. The low bits of the byte before it, a digit or not, are for the
modifiers. -/
def lettered (body : List UInt8) (last : UInt8) : Reading :=
  match (letterKey? (Char.ofNat last.toNat)).or (functionKey? last), body.getLast? with
  | some k, some b => modified k b.toNat
  | _, _ => .dropped

def isPosition (body : List UInt8) : Bool :=
  match (chars? body).map fields with
  | some (row :: column :: _) =>
    [row, column].all fun cs ↦ (Number.read 10 0xFFFF cs).toOption.isSome
  | _ => false

def parameters (bs : List UInt8) : Reading :=
  let last := bs.getLast?.getD 0
  let body := bs.dropLast
  if body.isEmpty then .unfinished
  else if last < 64 || 126 < last then .unfinished
  else
    match Char.ofNat last.toNat with
    | 'M' => .mouse
    | 'R' => if isPosition body then .position else .dropped
    | '~' => numbered body
    | _ => lettered body last

def sequence (bs : List UInt8) : Reading :=
  match bs with
  | [] => .unfinished
  | b :: rest =>
    if isDigit b then parameters bs
    else
      match Char.ofNat b.toNat with
      | '[' =>
        match rest with
        | [] => .unfinished
        | f :: _ => if 0x41 ≤ f ∧ f ≤ 0x45 then key (.function (f.toNat - 0x40)) else .dropped
      | 'Z' => .stroke ⟨.backTab, true, false, false⟩
      | 'M' => if rest.length < 3 then .unfinished else .mouse
      | '<' => if rest.getLast? = some 0x6D ∨ rest.getLast? = some 0x4D then .mouse else .unfinished
      | c =>
        match letterKey? c with
        | some k => key k
        | none => .dropped

def characterSize? (lead : UInt8) : Option Nat :=
  if lead < 0x80 then some 1
  else if lead < 0xC0 then none
  else if lead < 0xE0 then some 2
  else if lead < 0xF0 then some 3
  else if lead < 0xF8 then some 4
  else none

def character (lead : UInt8) (rest : List UInt8) : Reading :=
  match Utf8.pieces (lead :: rest), characterSize? lead with
  | [.char c], _ => .stroke { key := .char c, shift := c.isUpper }
  | _, none => .dropped
  | _, some size =>
    if rest.all Utf8.continuation.holds && rest.length + 1 < size then .unfinished else .dropped

def control (base : Char) (offset : Nat) : Reading :=
  .stroke { key := .char (Char.ofNat (base.toNat + offset)), control := true }

def simple (lead : UInt8) (rest : List UInt8) : Reading :=
  if lead = 0x0D then key .enter
  else if lead = 0x09 then key .tab
  else if lead = 0x7F then key .backspace
  else if lead = 0 then control ' ' 0
  else if lead ≤ 0x1A then control 'a' (lead.toNat - 1)
  else if 0x1C ≤ lead ∧ lead ≤ 0x1F then control '4' (lead.toNat - 0x1C)
  else character lead rest

def withAlt : Reading → Reading
  | .stroke s => .stroke { s with alt := true }
  | r => r

def esc : UInt8 := 0x1B

/-- What bytes make, where `more` tells if others wait behind them. A lone ESC is a key only if none
do. -/
def reading (more : Bool) : List UInt8 → Reading
  | [] => .unfinished
  | lead :: rest =>
    if lead = esc then
      match rest with
      | [] => if more then .unfinished else key .escape
      | second :: rest =>
        if second = esc then key .escape
        else if second = 0x4F then
          match rest with
          | [] => .unfinished
          | third :: _ => ((functionKey? third).map key).getD .dropped
        else if second = 0x5B then sequence rest
        else withAlt (simple second rest)
    else simple lead rest

/-- What some bytes make behind those left from before, and the bytes left. -/
def arrivals (left : List UInt8) : List UInt8 → List Arrival × List UInt8
  | [] => ([], left)
  | b :: bs =>
    let after (a : Arrival) : List Arrival × List UInt8 :=
      let (as, left) := arrivals [] bs
      (a :: as, left)
    match reading (!bs.isEmpty) (left ++ [b]) with
    | .unfinished => arrivals (left ++ [b]) bs
    | .dropped => arrivals [] bs
    | .stroke s => after (.key s)
    | .mouse => after .other
    | .position => after .report

end CopyJump.Typed
