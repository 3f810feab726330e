namespace CopyJump.Text.Utf8

structure Span where
  lo : UInt8
  hi : UInt8

def Span.holds (r : Span) (b : UInt8) : Bool := r.lo ≤ b && b ≤ r.hi

def continuation : Span := ⟨0x80, 0xBF⟩

/-- Where the bytes after a lead byte lie; none if no character starts with it. The second byte
is narrowed where a shorter form, a surrogate or a value past 10FFFF would follow. -/
def tail? (lead : UInt8) : Option (List Span) :=
  if lead < 0x80 then some []
  else if lead < 0xC2 then none
  else if lead < 0xE0 then some [continuation]
  else if lead = 0xE0 then some [⟨0xA0, 0xBF⟩, continuation]
  else if lead = 0xED then some [⟨0x80, 0x9F⟩, continuation]
  else if lead < 0xF0 then some [continuation, continuation]
  else if lead = 0xF0 then some [⟨0x90, 0xBF⟩, continuation, continuation]
  else if lead < 0xF4 then some [continuation, continuation, continuation]
  else if lead = 0xF4 then some [⟨0x80, 0x8F⟩, continuation, continuation]
  else none

def leadBits (lead : UInt8) : Nat → Nat
  | 0 => lead.toNat
  | n => lead.toNat % (0x40 >>> n)

/-- A character, or the longest run of bytes that starts one and breaks off. -/
inductive Piece
  | char (c : Char)
  | broken (bytes : List UInt8)

def readTail (seen : List UInt8) (value : Nat) : List Span → List UInt8 → Piece × List UInt8
  | [], bs => (.char (Char.ofNat value), bs)
  | _ :: _, [] => (.broken seen, [])
  | r :: rs, b :: bs =>
    if r.holds b then readTail (seen ++ [b]) (value * 64 + b.toNat % 64) rs bs
    else (.broken seen, b :: bs)

theorem length_readTail_le (seen : List UInt8) (value : Nat) (rs : List Span) (bs : List UInt8) :
    (readTail seen value rs bs).2.length ≤ bs.length := by
  induction rs generalizing seen value bs with
  | nil => simp [readTail]
  | cons r rs ih =>
    cases bs with
    | nil => simp [readTail]
    | cons b bs =>
      simp only [readTail]
      split
      · exact Nat.le_trans (ih _ _ bs) (Nat.le_succ _)
      · exact Nat.le_refl _

def next (lead : UInt8) (bs : List UInt8) : Piece × List UInt8 :=
  match tail? lead with
  | none => (.broken [lead], bs)
  | some rs => readTail [lead] (leadBits lead rs.length) rs bs

theorem length_next_le (lead : UInt8) (bs : List UInt8) : (next lead bs).2.length ≤ bs.length := by
  unfold next
  split
  · exact Nat.le_refl _
  · exact length_readTail_le ..

def pieces : List UInt8 → List Piece
  | [] => []
  | b :: bs =>
    have : (next b bs).2.length < bs.length + 1 := Nat.lt_succ_of_le (length_next_le b bs)
    (next b bs).1 :: pieces (next b bs).2
termination_by bs => bs.length

def replacement : Char := '\uFFFD'

def Piece.shown : Piece → Char
  | char c => c
  | broken _ => replacement

def decode (bs : List UInt8) : List Char := (pieces bs).map Piece.shown

def text (bs : List UInt8) : String := String.ofList (decode bs)

end CopyJump.Text.Utf8
