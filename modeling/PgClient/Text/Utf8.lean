/-
  PgClient.Text.Utf8

  UTF-8. A byte string is cut into well-formed characters and maximal broken
  parts (`pieces`); the strict reader refuses the first broken part and says
  where it is, the lossy reader puts U+FFFD for each.
-/
import PgClient.Bytes

namespace PgClient.Utf8

/-- The bytes of a text. -/
def encode (s : String) : Bytes :=
  s.toList.flatMap String.utf8EncodeChar

/-! ## Cutting bytes into characters -/

/-- One part of a byte string. -/
inductive Piece where
  /-- A well-formed character. -/
  | char (c : Char)
  /-- The first `size` bytes of a character, followed by a byte that cannot continue it. -/
  | broken (size : Nat)
  /-- The first `size` bytes of a character, at the end of the byte string. -/
  | cut (size : Nat)
  deriving DecidableEq, Repr

/-- Bytes that begin a character of two or more bytes. -/
def isLead (a : UInt8) : Bool := 0xC2 ≤ a && a ≤ 0xF4

/-- Bytes that continue a character. -/
def isTrail (b : UInt8) : Bool := 0x80 ≤ b && b ≤ 0xBF

/-- Whether `b` may follow the lead byte `a`: overlong forms, surrogates and numbers
above U+10FFFF are ruled out here. -/
def follows (a b : UInt8) : Bool :=
  isTrail b &&
    (if a = 0xE0 then 0xA0 ≤ b
     else if a = 0xED then b ≤ 0x9F
     else if a = 0xF0 then 0x90 ≤ b
     else if a = 0xF4 then b ≤ 0x8F
     else true)

/-- The low six bits of a continuation byte. -/
def low (b : UInt8) : Nat := b.toNat % 64

/-- How many bytes a piece takes. -/
def Piece.size : Piece → Nat
  | .char c => c.utf8Size
  | .broken n => n
  | .cut n => n

/-- The piece that the byte `a` and the bytes after it begin with. -/
def first (a : UInt8) (rest : Bytes) : Piece :=
  -- One byte.
  if a < 0x80 then .char (Char.ofNat a.toNat)
  else if !isLead a then .broken 1
  else match rest with
    | [] => .cut 1
    | b :: rest =>
      if !follows a b then .broken 1
      -- Two bytes.
      else if a < 0xE0 then .char (Char.ofNat (a.toNat % 32 * 64 + low b))
      else match rest with
        | [] => .cut 2
        | c :: rest =>
          if !isTrail c then .broken 2
          -- Three bytes.
          else if a < 0xF0 then .char (Char.ofNat (a.toNat % 16 * 4096 + low b * 64 + low c))
          else match rest with
            | [] => .cut 3
            | d :: _ =>
              if !isTrail d then .broken 3
              -- Four bytes.
              else .char (Char.ofNat (a.toNat % 8 * 262144 + low b * 4096 + low c * 64 + low d))

/-- The pieces after the next `skip` bytes. -/
def piecesFrom : Nat → Bytes → List Piece
  | _, [] => []
  | skip + 1, _ :: rest => piecesFrom skip rest
  | 0, a :: rest => first a rest :: piecesFrom ((first a rest).size - 1) rest

/-- The characters and broken parts of a byte string, in order. -/
def pieces (bs : Bytes) : List Piece := piecesFrom 0 bs

/-! ## The two readers -/

/-- Why bytes are not UTF-8. -/
structure Fault where
  /-- The length of the well-formed part in front. -/
  index : Nat
  /-- The length of the broken part; `none` where the bytes end inside a character. -/
  size : Option Nat
  deriving DecidableEq, Repr

def Fault.message (f : Fault) : String :=
  match f.size with
  | some n => "invalid utf-8 sequence of " ++ n.repr ++ " bytes from index " ++ f.index.repr
  | none => "incomplete utf-8 byte sequence from index " ++ f.index.repr

/-- The characters of a list of pieces, refusing the first broken one. -/
def strict (index : Nat) : List Piece → Except Fault (List Char)
  | [] => .ok []
  | .char c :: rest => (strict (index + c.utf8Size) rest).map (c :: ·)
  | .broken n :: _ => .error ⟨index, some n⟩
  | .cut _ :: _ => .error ⟨index, none⟩

/-- The text that well-formed bytes spell. -/
def decode (bs : Bytes) : Except Fault String :=
  (strict 0 (pieces bs)).map String.ofList

/-- A character, or the replacement character for a broken part. -/
def Piece.shown : Piece → Char
  | .char c => c
  | _ => '\ufffd'

/-- The text of any bytes, with U+FFFD for each broken part. -/
def decodeLossy (bs : Bytes) : String :=
  String.ofList ((pieces bs).map Piece.shown)

end PgClient.Utf8
