/-!
# UTF-8

Texts as bytes. A byte string falls into characters and maximal invalid parts: a part that
starts like a character and breaks off, or one byte that starts none. Text that has to be
valid is refused when there is such a part; text that is only shown has each of them replaced
by U+FFFD.
-/

namespace LineShell

abbrev Bytes := List UInt8

namespace Utf8

/-- What a first byte announces: the bits it carries, how many bytes follow, and between which
bounds the first of them lies. The bounds rule out overlong forms, surrogates and numbers above
U+10FFFF. -/
structure Lead where
  bits : Nat
  follow : Nat
  low : UInt8
  high : UInt8

def Lead.ofByte? (b : UInt8) : Option Lead :=
  let n := b.toNat
  if n < 0x80 then some ⟨n, 0, 0x80, 0xBF⟩
  else if n < 0xC2 then none
  else if n < 0xE0 then some ⟨n - 0xC0, 1, 0x80, 0xBF⟩
  else if n = 0xE0 then some ⟨0, 2, 0xA0, 0xBF⟩
  else if n = 0xED then some ⟨0xD, 2, 0x80, 0x9F⟩
  else if n < 0xF0 then some ⟨n - 0xE0, 2, 0x80, 0xBF⟩
  else if n = 0xF0 then some ⟨0, 3, 0x90, 0xBF⟩
  else if n < 0xF4 then some ⟨n - 0xF0, 3, 0x80, 0xBF⟩
  else if n = 0xF4 then some ⟨4, 3, 0x80, 0x8F⟩
  else none

def continuing : Nat → UInt8 → UInt8 → Bytes → Bytes
  | n + 1, low, high, b :: rest =>
    if low ≤ b ∧ b ≤ high then b :: continuing n 0x80 0xBF rest else []
  | _, _, _, _ => []

/-- The part that starts with byte `b`: its character, unless the part is invalid, and the
number of bytes it has after `b`. -/
def part (b : UInt8) (rest : Bytes) : Option Char × Nat :=
  match Lead.ofByte? b with
  | none => (none, 0)
  | some lead =>
    let more := continuing lead.follow lead.low lead.high rest
    let value := more.foldl (fun acc x => acc * 64 + x.toNat % 64) lead.bits
    (if more.length = lead.follow then some (Char.ofNat value) else none, more.length)

/-- A byte string part by part, `none` for an invalid one. -/
def parts : Bytes → List (Option Char)
  | [] => []
  | b :: rest => (part b rest).1 :: parts (rest.drop (part b rest).2)
termination_by bytes => bytes.length
decreasing_by simp only [List.length_drop, List.length_cons]; omega

def encode (cs : List Char) : Bytes := cs.flatMap String.utf8EncodeChar

def decode? (bytes : Bytes) : Option (List Char) := (parts bytes).mapM id

/-- The text with U+FFFD for each invalid part. -/
def display (bytes : Bytes) : List Char := (parts bytes).map (·.getD '\uFFFD')

end Utf8

def bytesOf (s : String) : Bytes := Utf8.encode s.toList

theorem bytesOf_append (a b : String) : bytesOf (a ++ b) = bytesOf a ++ bytesOf b := by
  simp [bytesOf, Utf8.encode]

def shown (bytes : Bytes) : String := String.ofList (Utf8.display bytes)

end LineShell
