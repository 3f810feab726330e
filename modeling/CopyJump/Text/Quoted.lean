import CopyJump.Text.Invisible
import CopyJump.Text.Utf8

namespace CopyJump.Text.Quoted

def escape (c : Char) : List Char :=
  match c with
  | '\x00' => ['\\', '0']
  | '\t' => ['\\', 't']
  | '\r' => ['\\', 'r']
  | '\n' => ['\\', 'n']
  | '"' => ['\\', '"']
  | '\\' => ['\\', '\\']
  | c => if isInvisible c then '\\' :: 'u' :: '\x7b' :: Nat.toDigits 16 c.toNat ++ ['\x7d'] else [c]

def quote (body : List Char) : String := String.ofList ('"' :: body ++ ['"'])

def text (s : String) : String := quote (s.toList.flatMap escape)

/-- A byte that belongs to no character: two upper-case digits. -/
def escapeByte (b : UInt8) : List Char :=
  '\\' :: 'x' :: [b.toNat / 16, b.toNat % 16].map fun n ↦ (Nat.digitChar n).toUpper

def bytes (bs : List UInt8) : String :=
  quote ((Utf8.pieces bs).flatMap fun
    | .char c => escape c
    | .broken bs => bs.flatMap escapeByte)

end CopyJump.Text.Quoted
