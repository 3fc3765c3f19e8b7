/-!
# Bytes of a text

Text is stored in the UTF-8 encoding. Bytes that are no text are refused with the point where the
first bad sequence begins and its length, or read with a replacement for each bad sequence.
-/

namespace ScriptDeps.Text

/-- The bytes of a text. -/
def encode (s : List Char) : List UInt8 := s.flatMap String.utf8EncodeChar

/-- What stands at the start of some bytes. -/
inductive Utf8Step where
  /-- A character of so many bytes. -/
  | char (c : Char) (size : Nat)
  /-- A sequence of so many bytes that is no character. -/
  | bad (size : Nat)
  /-- The beginning of a character, cut off by the end. -/
  | cut
  deriving DecidableEq, Repr

/-- A byte that goes on with a character. -/
def isTail (b : UInt8) : Bool := 0x80 ≤ b && b ≤ 0xBF

/-- The second bytes that may follow a first byte. -/
def isSecond (a b : UInt8) : Bool :=
  if a = 0xE0 then 0xA0 ≤ b && b ≤ 0xBF
  else if a = 0xED then 0x80 ≤ b && b ≤ 0x9F
  else if a = 0xF0 then 0x90 ≤ b && b ≤ 0xBF
  else if a = 0xF4 then 0x80 ≤ b && b ≤ 0x8F
  else isTail b

/-- Number of bytes of the character that a first byte begins. -/
def sizeOf? (a : UInt8) : Option Nat :=
  if a < 0x80 then some 1
  else if 0xC2 ≤ a ∧ a ≤ 0xDF then some 2
  else if 0xE0 ≤ a ∧ a ≤ 0xEF then some 3
  else if 0xF0 ≤ a ∧ a ≤ 0xF4 then some 4
  else none

/-- The six bits that a byte after the first adds. -/
def tailBits (n : Nat) (b : UInt8) : Nat := 64 * n + (b.toNat - 0x80)

/-- Read the bytes after the first, `missing` of them, of which `size` bytes were read. -/
def utf8Tail (code : Nat) : (missing size : Nat) → List UInt8 → Utf8Step
  | 0, size, _ => .char (Char.ofNat code) size
  | _ + 1, _, [] => .cut
  | missing + 1, size, b :: bytes =>
    if isTail b then utf8Tail (tailBits code b) missing (size + 1) bytes else .bad size

/-- What stands at the start of bytes that begin with `a`. -/
def utf8Step (a : UInt8) (bytes : List UInt8) : Utf8Step :=
  match sizeOf? a with
  | none => .bad 1
  | some 1 => .char (Char.ofNat a.toNat) 1
  | some size =>
    match bytes with
    | [] => .cut
    | b :: bytes =>
      if isSecond a b then
        utf8Tail (tailBits (a.toNat % Nat.pow 2 (7 - size)) b) (size - 2) 2 bytes
      else .bad 1

/-- Why bytes are no text. -/
structure Utf8Error where
  /-- Number of bytes before the bad sequence. -/
  index : Nat
  /-- Length of the bad sequence, none if the end cuts it off. -/
  size : Option Nat
  deriving DecidableEq, Repr

/-- What an error says. -/
def Utf8Error.message (e : Utf8Error) : String :=
  match e.size with
  | some size => s!"invalid utf-8 sequence of {size} bytes from index {e.index}"
  | none => s!"incomplete utf-8 byte sequence from index {e.index}"

/-- Read bytes from an index on; `skip` of them belong to a character that has been read. -/
def decodeFrom (index : Nat) : (skip : Nat) → List UInt8 → Except Utf8Error (List Char)
  | _, [] => .ok []
  | skip + 1, _ :: bytes => decodeFrom (index + 1) skip bytes
  | 0, a :: bytes =>
    match utf8Step a bytes with
    | .char c size =>
      match decodeFrom (index + 1) (size - 1) bytes with
      | .ok s => .ok (c :: s)
      | .error e => .error e
    | .bad size => .error ⟨index, some size⟩
    | .cut => .error ⟨index, none⟩

/-- The text that some bytes are. -/
def decode (bytes : List UInt8) : Except Utf8Error (List Char) := decodeFrom 0 0 bytes

/-- What stands for a bad sequence. -/
def replacement : Char := '\uFFFD'

/-- Read bytes with a replacement for each bad sequence. -/
def decodeLossy : (skip : Nat) → List UInt8 → List Char
  | _, [] => []
  | skip + 1, _ :: bytes => decodeLossy skip bytes
  | 0, a :: bytes =>
    match utf8Step a bytes with
    | .char c size => c :: decodeLossy (size - 1) bytes
    | .bad size => replacement :: decodeLossy (size - 1) bytes
    | .cut => [replacement]

end ScriptDeps.Text
