import Eligibility.RuleSet.Builder
import Eligibility.Stored.Frame

/-!
# Sets of rules in files

A file is its bytes, or nothing where there is no such file.

## Main definitions

* `FileError` : why a file does not give a set of rules.
* `RuleSet.ofBookFile`, `RuleSet.ofStoredFile` : the set in a rule book, and a stored set.
-/

namespace Eligibility

/-- Why a file does not give a set of rules; `ε` is what may be wrong with its content. -/
inductive FileError (ε : Type)
  /-- There is no such file. -/
  | notFound
  /-- The bytes are no text. -/
  | notText
  /-- The content does not give a set. -/
  | content (e : ε)
  deriving DecidableEq

namespace RuleSet

/-- The set of all rules of a rule book in a file. -/
def ofBookFile (file : Option (List UInt8)) : Except (FileError RuleError) RuleSet :=
  match file with
  | none => .error .notFound
  | some bytes =>
    match String.fromUTF8? bytes.toByteArray with
    | none => .error .notText
    | some document => (ofBook document).mapError .content

/-- The stored set of rules in a file. -/
def ofStoredFile (file : Option (List UInt8)) : Except (FileError LoadError) RuleSet :=
  match file with
  | none => .error .notFound
  | some bytes => (ofBytes bytes).mapError .content

end RuleSet

end Eligibility
