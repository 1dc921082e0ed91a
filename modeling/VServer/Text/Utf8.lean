/-
Texts as bytes.

`encode` writes a text in UTF-8.  `decode` reads bytes back and, where they are no UTF-8, tells
apart the two ways to fail: a sequence that no continuation can mend, with the number of bytes
that are wrong, and a sequence that is cut off by the end of the bytes.  Both are found at the
first byte of the sequence.
-/

namespace VServer.Text

/-- Bytes of a file or a stream. -/
abbrev Bytes := List UInt8

/-- Number of bytes that a text takes. -/
def byteSize : List Char → Nat
  | [] => 0
  | c :: cs => c.utf8Size + byteSize cs

@[simp] theorem byteSize_append (cs ds : List Char) :
    byteSize (cs ++ ds) = byteSize cs + byteSize ds := by
  induction cs with
  | nil => simp [byteSize]
  | cons c cs ih => simp [byteSize, ih, Nat.add_assoc]

/-- The bytes of a text. -/
def encode (cs : List Char) : Bytes :=
  cs.flatMap String.utf8EncodeChar

/-- The bytes of a string. -/
def encodeString (s : String) : Bytes :=
  encode s.toList

/-- Why bytes are no text, and where. -/
inductive Utf8Error where
  /-- The `length` bytes at `index` start no character, whatever follows them. -/
  | invalid (length index : Nat)
  /-- The bytes at `index` are the start of a character that does not end. -/
  | incomplete (index : Nat)
deriving DecidableEq, Repr

namespace Utf8Error

/-- The error as it is told to a client. -/
def message : Utf8Error → String
  | invalid length index =>
    "invalid utf-8 sequence of " ++ length.repr ++ " bytes from index " ++ index.repr
  | incomplete index => "incomplete utf-8 byte sequence from index " ++ index.repr

end Utf8Error

/-- Whether a byte continues a character. -/
def isContinuation (b : UInt8) : Bool :=
  0x80 ≤ b && b ≤ 0xbf

/-- Whether `b` may follow the first byte `a` of a character of three bytes. -/
def isSecondOfThree (a b : UInt8) : Bool :=
  isContinuation b && (a != 0xe0 || 0xa0 ≤ b) && (a != 0xed || b ≤ 0x9f)

/-- Whether `b` may follow the first byte `a` of a character of four bytes. -/
def isSecondOfFour (a b : UInt8) : Bool :=
  isContinuation b && (a != 0xf0 || 0x90 ≤ b) && (a != 0xf4 || b ≤ 0x8f)

/-- The six low bits of a continuation byte, behind the bits read so far. -/
def pushBits (high : Nat) (b : UInt8) : Nat :=
  high * 64 + (b.toNat - 0x80)

/-- Read the characters of `bytes`, of which the first one stands at `index`. -/
def decodeAt (index : Nat) (bytes : Bytes) : Except Utf8Error (List Char) :=
  match bytes with
  | [] => .ok []
  | a :: r0 =>
    if a < 0x80 then
      (decodeAt (index + 1) r0).map (Char.ofNat a.toNat :: ·)
    else if 0xc2 ≤ a && a ≤ 0xdf then
      match r0 with
      | [] => .error (.incomplete index)
      | b :: r1 =>
        if isContinuation b then
          (decodeAt (index + 2) r1).map (Char.ofNat (pushBits (a.toNat - 0xc0) b) :: ·)
        else .error (.invalid 1 index)
    else if 0xe0 ≤ a && a ≤ 0xef then
      match r0 with
      | [] => .error (.incomplete index)
      | b :: r1 =>
        if isSecondOfThree a b then
          match r1 with
          | [] => .error (.incomplete index)
          | c :: r2 =>
            if isContinuation c then
              (decodeAt (index + 3) r2).map
                (Char.ofNat (pushBits (pushBits (a.toNat - 0xe0) b) c) :: ·)
            else .error (.invalid 2 index)
        else .error (.invalid 1 index)
    else if 0xf0 ≤ a && a ≤ 0xf4 then
      match r0 with
      | [] => .error (.incomplete index)
      | b :: r1 =>
        if isSecondOfFour a b then
          match r1 with
          | [] => .error (.incomplete index)
          | c :: r2 =>
            if isContinuation c then
              match r2 with
              | [] => .error (.incomplete index)
              | d :: r3 =>
                if isContinuation d then
                  (decodeAt (index + 4) r3).map
                    (Char.ofNat (pushBits (pushBits (pushBits (a.toNat - 0xf0) b) c) d) :: ·)
                else .error (.invalid 3 index)
            else .error (.invalid 2 index)
        else .error (.invalid 1 index)
    else .error (.invalid 1 index)

/-- Read bytes as a text. -/
def decode (bytes : Bytes) : Except Utf8Error (List Char) :=
  decodeAt 0 bytes

end VServer.Text
