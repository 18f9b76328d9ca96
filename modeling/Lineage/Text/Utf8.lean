/-!
# UTF-8

Text as bytes and back.  Decoding feeds the bytes one at a time to a `Decoder`, which gives a character or,
for a sequence of bytes that encodes none, a gap; each longest start of a character that is never completed is
one gap.  So `lossy` replaces exactly the gaps, and `decode?` answers exactly when there are none.
-/

namespace Lineage

/-- The content of a file. -/
abbrev Bytes := List UInt8

namespace Utf8

/-! ### Encoding -/

def encodeChar (c : Char) : Bytes :=
  let n := c.toNat
  if n < 0x80 then [UInt8.ofNat n]
  else if n < 0x800 then [UInt8.ofNat (0xC0 + n / 0x40), UInt8.ofNat (0x80 + n % 0x40)]
  else if n < 0x10000 then
    [UInt8.ofNat (0xE0 + n / 0x1000), UInt8.ofNat (0x80 + n / 0x40 % 0x40), UInt8.ofNat (0x80 + n % 0x40)]
  else
    [UInt8.ofNat (0xF0 + n / 0x40000), UInt8.ofNat (0x80 + n / 0x1000 % 0x40),
      UInt8.ofNat (0x80 + n / 0x40 % 0x40), UInt8.ofNat (0x80 + n % 0x40)]

def encode (cs : List Char) : Bytes :=
  cs.flatMap encodeChar

/-! ### Decoding -/

/-- A character whose first bytes have been read: its bits so far, the number of bytes still to come, and the
range of the next one.  The range of the second byte excludes overlong forms, surrogates and numbers above
`0x10FFFF`. -/
structure Opened where
  bits : Nat
  more : Nat
  low : UInt8
  high : UInt8

/-- What a byte outside ASCII announces as the first of a character. -/
def opened? (b : UInt8) : Option Opened :=
  if b < 0xC2 then none
  else if b < 0xE0 then some ⟨b.toNat - 0xC0, 1, 0x80, 0xBF⟩
  else if b < 0xF0 then
    some ⟨b.toNat - 0xE0, 2, if b = 0xE0 then 0xA0 else 0x80, if b = 0xED then 0x9F else 0xBF⟩
  else if b < 0xF5 then
    some ⟨b.toNat - 0xF0, 3, if b = 0xF0 then 0x90 else 0x80, if b = 0xF4 then 0x8F else 0xBF⟩
  else none

/-- Characters and gaps read so far, the latest first, and the character that is being read. -/
structure Decoder where
  units : List (Option Char)
  opened : Option Opened

namespace Decoder

def start : Decoder := ⟨[], none⟩

/-- A byte that begins a character, after the given units. -/
def begin (units : List (Option Char)) (b : UInt8) : Decoder :=
  if b < 0x80 then ⟨some (Char.ofNat b.toNat) :: units, none⟩
  else
    match opened? b with
    | some o => ⟨units, some o⟩
    | none => ⟨none :: units, none⟩

def feed (d : Decoder) (b : UInt8) : Decoder :=
  match d.opened with
  | none => begin d.units b
  | some o =>
    if o.low ≤ b ∧ b ≤ o.high then
      let bits := o.bits * 0x40 + (b.toNat - 0x80)
      if o.more ≤ 1 then ⟨some (Char.ofNat bits) :: d.units, none⟩
      else ⟨d.units, some ⟨bits, o.more - 1, 0x80, 0xBF⟩⟩
    else begin (none :: d.units) b

/-- The units when no byte follows. -/
def finish (d : Decoder) : List (Option Char) :=
  match d.opened with
  | none => d.units.reverse
  | some _ => (none :: d.units).reverse

end Decoder

/-- The characters and gaps of a byte string, in order. -/
def units (bytes : Bytes) : List (Option Char) :=
  (bytes.foldl Decoder.feed Decoder.start).finish

/-- The character that stands for a gap. -/
def replacement : Char := '\uFFFD'

/-- The text with every gap replaced. -/
def lossy (bytes : Bytes) : List Char :=
  (units bytes).map (·.getD replacement)

/-- The text, if there are no gaps. -/
def decode? (bytes : Bytes) : Option (List Char) :=
  (units bytes).mapM id

/-- The number of bytes before the first gap. -/
def validLength (bytes : Bytes) : Nat :=
  (((units bytes).takeWhile Option.isSome).flatMap fun u => (u.map encodeChar).getD []).length

end Utf8

/-- The bytes of a text. -/
def Bytes.ofString (s : String) : Bytes :=
  Utf8.encode s.toList

/-- The text of a byte string, with what is not text replaced. -/
def Bytes.toStringLossy (b : Bytes) : String :=
  String.ofList (Utf8.lossy b)

end Lineage
