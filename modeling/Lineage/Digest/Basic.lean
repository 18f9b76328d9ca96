import Lineage.Digest.Blake3

/-!
# Digests

The fingerprint of a file's content, and its text: two hexadecimal digits a byte.
-/

namespace Lineage

/-- The length of a digest in bytes. -/
def digestLength : Nat := 32

abbrev Digest := Vector UInt8 digestLength

namespace Digest

def hexByte (b : UInt8) : List Char :=
  [Nat.digitChar (b.toNat / 16), Nat.digitChar (b.toNat % 16)]

def hex (d : Digest) : String :=
  String.ofList (d.toList.flatMap hexByte)

/-- The digest of a history file. -/
def ofContent (content : Bytes) : Digest :=
  Blake3.hash content

end Digest

end Lineage
