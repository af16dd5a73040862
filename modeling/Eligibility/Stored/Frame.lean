import Eligibility.Blake3
import Eligibility.Stored.Payload

/-!
# Stored sets of rules

A stored set is a header of thirty-two bytes and a payload.  The header names the format and its
version, gives the length of the payload and holds half of the payload's hash.

## Main definitions

* `Header`, `Header.write`, `Header.read` : what the header says, and its bytes.
* `LoadError` : why bytes are no stored set.
* `RuleSet.toBytes`, `RuleSet.ofBytes` : the bytes of a set of rules, and the set of such bytes.
-/

namespace Eligibility

/-- Why bytes are no stored set of rules. -/
inductive LoadError
  /-- The bytes do not start as a stored set does. -/
  | badMagic
  /-- The format is of another version. -/
  | incompatibleVersion (version : Nat)
  /-- The payload does not have the stated hash. -/
  | checksumMismatch
  /-- There are fewer bytes than needed. -/
  | lengthMismatch (expected actual : Nat)
  /-- The payload is not made as payloads are. -/
  | undecodable
  /-- Something is wrong with the set. -/
  | invalid (fault : StoredSet.Fault)
  deriving DecidableEq

/-- What the header of a stored set says. -/
structure Header where
  /-- The version of the format. -/
  version : Nat
  /-- The number of bytes of the payload. -/
  length : Nat
  /-- The first half of the hash of the payload. -/
  digest : List UInt8
  deriving DecidableEq

namespace Header

/-- The bytes that a stored set starts with. -/
def magic : List UInt8 := [0x45, 0x4C, 0x49, 0x47]

/-- The version of the format. -/
def supported : Nat := 1

/-- The version of the program that writes; it is not looked at. -/
def writer : Nat := 1

/-- The number of bytes of a header. -/
def size : Nat := 32

/-- The first half of the hash of a payload. -/
def digestOf (payload : List UInt8) : List UInt8 :=
  (Blake3.hash payload).take 16

/-- The header of a payload. -/
def ofPayload (payload : List UInt8) : Header :=
  ⟨supported, payload.length, digestOf payload⟩

/-- The bytes of a header.  The length is written in four bytes, whatever it is. -/
def write (h : Header) : List UInt8 :=
  magic ++ Stored.littleEndian 2 h.version ++ Stored.littleEndian 2 writer ++
    Stored.littleEndian 4 0 ++ Stored.littleEndian 4 h.length ++ h.digest

/-- The header at the front of a string of bytes. -/
def read (bytes : List UInt8) : Except LoadError Header :=
  let field (start width : Nat) := (bytes.drop start).take width
  if bytes.length < size then .error (.lengthMismatch size bytes.length)
  else if field 0 4 ≠ magic then .error .badMagic
  else .ok ⟨Stored.ofLittleEndian (field 4 2), Stored.ofLittleEndian (field 12 4), field 16 16⟩

end Header

namespace LoadError

/-- The wording of an error. -/
def message : LoadError → String
  | badMagic => "not an eligo binary: invalid magic bytes"
  | incompatibleVersion version =>
    "incompatible format version: blob is v" ++ toString version ++ ", engine supports v" ++
      toString Header.supported
  | checksumMismatch => "integrity check failed: BLAKE3 checksum mismatch"
  | lengthMismatch expected actual =>
    "payload length mismatch: expected " ++ toString expected ++ " bytes, got " ++ toString actual
  | undecodable => "failed to decode payload"
  | invalid fault => "validation failed: " ++ fault.message

end LoadError

namespace RuleSet

/-- The bytes of a set of rules. -/
def toBytes (s : RuleSet) : List UInt8 :=
  let payload := s.toStored.write
  (Header.ofPayload payload).write ++ payload

/-- The payload of a stored set, whose header has to be right about it. -/
def payloadOf (bytes : List UInt8) : Except LoadError (List UInt8) := do
  let header ← Header.read bytes
  if header.version ≠ Header.supported then throw (.incompatibleVersion header.version)
  let body := bytes.drop Header.size
  if body.length < header.length then throw (.lengthMismatch header.length body.length)
  let payload := body.take header.length
  if Header.digestOf payload ≠ header.digest then throw .checksumMismatch
  return payload

/-- The set of rules that was stored.  Bytes after the payload are not looked at. -/
def ofBytes (bytes : List UInt8) : Except LoadError RuleSet := do
  let payload ← payloadOf bytes
  match StoredSet.read payload with
  | none => throw .undecodable
  | some stored =>
    match stored.restore with
    | .ok rules => return rules
    | .error fault => throw (.invalid fault)

end RuleSet

end Eligibility
