import Lineage.Text.Emoji

/-!
# The width of a text

Most characters take their columns alone, but some share them: a selector, a skin tone or a joiner makes one
image of several characters, and in some scripts several letters are written as one sign.  A text is measured
from its end, since the columns of a character depend on what follows it.
-/

namespace Lineage.Width

/-- What a place is followed by, as far as the character before it may share its columns. -/
inductive Ahead where
  | other
  | image
  | tone
  | flagLetter
  /-- Two flag letters or more. -/
  | flagLetters
  /-- A joiner and an image. -/
  | joinedImage
  | joinedKeycap
  /-- A single flag letter that a joiner ties to an image. -/
  | joinedLetter
  /-- Flags that a joiner ties to an image, and whether the first one lacks a letter. -/
  | joinedFlags (half : Bool)
  /-- The end of a flag that is spelt in tags and that a joiner ties to an image. -/
  | joinedTags (letters digits : Nat)
  /-- An Arabic alef. -/
  | alef
  /-- A Hebrew lamed, and whether a joiner stands before it; so of the next ones. -/
  | lamed (joined : Bool)
  /-- A Buginese ya. -/
  | ya (joined : Bool)
  /-- A Buginese vowel sign, a joiner and a ya. -/
  | signYa
  /-- A letter of the Orkhon script. -/
  | orkhon (joined : Bool)
  /-- A Tifinagh consonant. -/
  | tifinagh (joined : Bool)
  /-- The Tifinagh joiner and a consonant. -/
  | tifinaghPair
  /-- A Lisu tone letter. -/
  | lisu
  /-- A Khmer letter that can stand below another one. -/
  | khmer
  /-- The Kirat Rai vowels e and ai. -/
  | kiratE | kiratAi
  deriving DecidableEq, Repr

def joiner : Char := '\u200D'

def tifinaghJoiner : Char := '\u2D7F'

/-- The ranges of the Arabic letters lam and alef. -/
def lams : List (Nat × Nat) :=
  [(0x644, 0x644), (0x6B5, 0x6B8), (0x76A, 0x76A), (0x8A6, 0x8A6), (0x8C7, 0x8C7)]

def alefs : List (Nat × Nat) :=
  [(0x622, 0x623), (0x625, 0x625), (0x627, 0x627), (0x671, 0x673), (0x675, 0x675), (0x773, 0x774),
    (0x870, 0x882)]

/-- The Khmer letters that can stand below another one. -/
def khmerLetters : List (Nat × Nat) :=
  [(0x1780, 0x1782), (0x1784, 0x1787), (0x1789, 0x178C), (0x178E, 0x1793), (0x1795, 0x1798), (0x179B, 0x179D),
    (0x17A0, 0x17A0), (0x17A2, 0x17A2), (0x17A7, 0x17A7), (0x17AB, 0x17AC), (0x17AF, 0x17AF)]

def tifinaghLetters : List (Nat × Nat) :=
  [(0x2D31, 0x2D65), (0x2D6F, 0x2D6F)]

/-- The marks that change nothing between letters which share a column. -/
def ignorable : List (Nat × Nat) :=
  [(0x34F, 0x34F), (0x17B4, 0x17B5), (0x180B, 0x180D), (0x180F, 0x180F), (0xFE00, 0xFE0F), (0xE0100, 0xE01EF)]

/-- The characters without width that keep a lam and an alef apart. -/
def separating : List (Nat × Nat) :=
  [(0x605, 0x605), (0x890, 0x891), (0x8E2, 0x8E2), (0x9BE, 0x9BE), (0x9D7, 0x9D7), (0xB3E, 0xB3E),
    (0xB57, 0xB57), (0xBBE, 0xBBE), (0xBD7, 0xBD7), (0xCC0, 0xCC0), (0xCC2, 0xCC2), (0xCC7, 0xCC8),
    (0xCCA, 0xCCB), (0xCD5, 0xCD6), (0xD3E, 0xD3E), (0xD4E, 0xD4E), (0xD57, 0xD57), (0xDCF, 0xDCF),
    (0xDDF, 0xDDF), (0x1160, 0x11FF), (0x1715, 0x1715), (0x1734, 0x1734), (0x180E, 0x180E), (0x1B35, 0x1B35),
    (0x1B3B, 0x1B3B), (0x1B3D, 0x1B3D), (0x1B43, 0x1B44), (0x1BAA, 0x1BAA), (0x1BF2, 0x1BF3), (0x200C, 0x200D),
    (0x2065, 0x2069), (0x302E, 0x302F), (0x3164, 0x3164), (0xA8FA, 0xA8FA), (0xA953, 0xA953), (0xA9C0, 0xA9C0),
    (0xD7B0, 0xD7C6), (0xD7CB, 0xD7FB), (0xFF9E, 0xFFA0), (0xFFF0, 0xFFF8), (0x111C0, 0x111C0),
    (0x111C2, 0x111C3), (0x11235, 0x11235), (0x1133E, 0x1133E), (0x1134D, 0x1134D), (0x11357, 0x11357),
    (0x113B8, 0x113B8), (0x113C2, 0x113C2), (0x113C5, 0x113C5), (0x113C7, 0x113C9), (0x113CF, 0x113CF),
    (0x113D1, 0x113D1), (0x114B0, 0x114B0), (0x114BD, 0x114BD), (0x115AF, 0x115AF), (0x116B6, 0x116B6),
    (0x11930, 0x11930), (0x1193D, 0x1193D), (0x1193F, 0x1193F), (0x11941, 0x11941), (0x11A84, 0x11A89),
    (0x11D46, 0x11D46), (0x11F02, 0x11F02), (0x11F41, 0x11F41), (0x16FF0, 0x16FF1), (0x1D165, 0x1D166),
    (0x1D16D, 0x1D172), (0xE0000, 0xE0000), (0xE0002, 0xE001F), (0xE0080, 0xE00FF), (0xE01F0, 0xE0FFF)]

/-- Whether a lam and an alef are written as one with a character between them. -/
def isTransparent (c : Char) : Bool :=
  ofChar c == 0 && !within separating c

namespace Ahead

/-- What a place before a character is followed by. -/
def ofChar (c : Char) : Ahead :=
  if Emoji.isTone c then .tone
  else if Emoji.isFlagLetter c then .flagLetter
  else if Emoji.isImage c then .image
  else if within alefs c then .alef
  else if c = '\u05DC' then .lamed false
  else if c = '\u1A10' then .ya false
  else if c.toNat = 0x10C03 then .orkhon false
  else if within tifinaghLetters c then .tifinagh false
  else if c = '\uA4FC' ∨ c = '\uA4FD' then .lisu
  else if within khmerLetters c then .khmer
  else if c.toNat = 0x16D67 then .kiratE
  else if c.toNat = 0x16D68 then .kiratAi
  else .other

/-- Letters that share a column with others of their script. -/
def isLetter : Ahead → Bool
  | .alef | .lamed _ | .ya _ | .signYa | .orkhon _ | .tifinagh _ | .tifinaghPair | .lisu | .khmer | .kiratE
  | .kiratAi => true
  | _ => false

/-- What a joiner before letters makes of them. -/
def join : Ahead → Ahead
  | .lamed _ => .lamed true
  | .ya _ => .ya true
  | .orkhon _ => .orkhon true
  | .tifinagh _ => .tifinagh true
  | a => a

/-- A character that leaves letters as they are, or joins them to those before. -/
def pass? (c : Char) (a : Ahead) : Option Ahead :=
  if !a.isLetter || a == .alef then none
  else if c = joiner then some a.join
  else if within ignorable c then some a
  else none

/-- The columns that a character adds to an image which it is part of. -/
def growImage? (c : Char) : Ahead → Option (Int × Ahead)
  | .image => if c = joiner then some (0, .joinedImage) else none
  | .tone =>
    if Emoji.takesTone c then some (0, .image) else if c = joiner then some (0, .joinedImage) else none
  | .flagLetter => if Emoji.isFlagLetter c then some (1, .flagLetters) else none
  | .flagLetters =>
    if Emoji.isFlagLetter c then some (1, .flagLetters)
    else if c = joiner then some (0, .joinedImage)
    else none
  | .joinedImage =>
    if c = '\u20E3' then some (0, .joinedKeycap)
    else if Emoji.isFlagLetter c then some (1, .joinedLetter)
    else if Emoji.isTone c then some (0, .tone)
    else if c.toNat = 0xE007F then some (0, .joinedTags 0 0)
    else if Emoji.isImage c then some (0, .image)
    else none
  | .joinedLetter => if Emoji.isFlagLetter c then some (-1, .joinedFlags false) else none
  | .joinedFlags half =>
    if Emoji.isFlagLetter c then some (if half then (-1, .joinedFlags false) else (3, .joinedFlags true))
    else if c = joiner then some (0, .joinedImage)
    else none
  | .joinedTags letters 0 =>
    if Emoji.isTagLetter c ∧ letters < 6 then some (0, .joinedTags (letters + 1) 0)
    else if Emoji.isTagDigit c ∧ letters ≤ 4 then some (0, .joinedTags 0 1)
    else if c.toNat = 0x1F3F4 ∧ 3 ≤ letters then some (0, .image)
    else none
  | .joinedTags _ digits =>
    if Emoji.isTagDigit c ∧ digits < 3 then some (0, .joinedTags 0 (digits + 1))
    else if c.toNat = 0x1F3F4 ∧ digits = 3 then some (0, .image)
    else none
  | _ => none

/-- The columns that a letter adds to letters which it is written as one with. -/
def growLetter? (c : Char) : Ahead → Option (Int × Ahead)
  | .alef =>
    if within lams c then some (0, .other) else if isTransparent c then some (0, .alef) else none
  | .lamed true => if c = '\u05D0' then some (0, .other) else none
  | .ya true => if c = '\u1A17' then some (0, .signYa) else none
  | .signYa => if c = '\u1A15' then some (0, .other) else none
  | .orkhon true => if c.toNat = 0x10C32 then some (0, .other) else none
  | .tifinagh joined =>
    if c = tifinaghJoiner then some (1, .tifinaghPair)
    else if joined ∧ within tifinaghLetters c then some (0, .other)
    else none
  | .tifinaghPair => if within tifinaghLetters c then some (-1, .other) else none
  | .lisu => if '\uA4F8' ≤ c ∧ c ≤ '\uA4FB' then some (0, .other) else none
  | .khmer => if c = '\u17D2' then some (-1, .other) else none
  | .kiratE =>
    if c.toNat = 0x16D63 ∨ c.toNat = 0x16D69 then some (0, .other)
    else if c.toNat = 0x16D67 then some (0, .kiratAi)
    else if c.toNat = 0x16D68 then some (1, .kiratE)
    else none
  | .kiratAi => if c.toNat = 0x16D63 then some (0, .other) else none
  | _ => none

/-- The columns that a character takes before what follows, and what a place before both is followed by. -/
def before (c : Char) (a : Ahead) : Int × Ahead :=
  match a.pass? c with
  | some next => (0, next)
  | none =>
    match (a.growImage? c).or (a.growLetter? c) with
    | some grown => grown
    | none => (Width.ofChar c, ofChar c)

end Ahead

/-- What a selector asks of the character before it. -/
inductive Selector where
  | image | text
  deriving DecidableEq, Repr

def selector? (c : Char) : Option Selector :=
  if c = '\uFE0F' then some .image else if c = '\uFE0E' then some .text else none

/-- What a place is followed by: a selector, perhaps, and what stands after that. -/
structure Following where
  selector : Option Selector
  ahead : Ahead

namespace Following

def none : Following :=
  ⟨.none, .other⟩

/-- What a place before a selector is followed by.  Letters are still seen behind it, and an image behind the
selector for images. -/
def select (s : Selector) (a : Ahead) : Following :=
  let seen := a.isLetter || s == .image && (a == .joinedImage || a == .joinedKeycap)
  ⟨some s, if seen then a else .other⟩

/-- What follows, when the selector applies to no character. -/
def unselected (f : Following) : Ahead :=
  if f.selector.isNone || f.ahead.isLetter then f.ahead else .other

/-- The columns that a character takes before what follows. -/
def before (c : Char) (f : Following) : Int × Following :=
  if f.selector = some .image ∧ Emoji.takesImage c then
    (if f.ahead = .joinedImage ∨ f.ahead = .joinedKeycap then 0 else 2, ⟨.none, .image⟩)
  else if c.toNat ≤ 0xA0 then (1, none)
  else if f.selector = some .text ∧ Emoji.narrowsToText c then (1, none)
  else
    match selector? c with
    | some s => (0, select s f.unselected)
    | .none =>
      let (width, ahead) := f.unselected.before c
      (width, ⟨.none, ahead⟩)

end Following

/-- The columns that a text of one line takes. -/
def ofText (cs : List Char) : Nat :=
  let measure (c : Char) (sum : Int × Following) : Int × Following :=
    let (width, following) := sum.2.before c
    (sum.1 + width, following)
  (cs.foldr measure (0, Following.none)).1.toNat

end Lineage.Width
