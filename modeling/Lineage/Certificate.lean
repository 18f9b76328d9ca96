import Lineage.Digest.Basic
import Lineage.Report

/-!
# Certificates

A certificate binds a verdict to the bytes it was computed from.  It covers a byte string when it holds the
digest of that string, and says nothing about any other.  Which hash the digests come from is left open.
-/

namespace Lineage

/-- The version of the form of certificates. -/
def schemaVersion : Nat := 1

structure Certificate where
  schemaVersion : Nat
  /-- The digest of the history file, in hexadecimal digits. -/
  historyDigest : String
  /-- The number of entries of the file, sound or not. -/
  recordCount : Nat
  verdict : Report
  /-- When the verdict was reached, as the caller says. -/
  verifiedAt : String
  deriving DecidableEq, Repr

namespace Certificate

def ofDigest (digest : Digest) (recordCount : Nat) (verdict : Report) (verifiedAt : String) : Certificate :=
  ⟨Lineage.schemaVersion, digest.hex, recordCount, verdict, verifiedAt⟩

/-- The certificate for a verdict on some bytes. -/
def issue (hash : Bytes → Digest) (content : Bytes) (recordCount : Nat) (verdict : Report)
    (verifiedAt : String) : Certificate :=
  ofDigest (hash content) recordCount verdict verifiedAt

def covers (hash : Bytes → Digest) (c : Certificate) (content : Bytes) : Bool :=
  c.historyDigest == (hash content).hex

end Certificate

end Lineage
