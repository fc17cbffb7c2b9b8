/-
  File:      DeveSub/Yaml/Parser.lean
  Subject:   What other parts use of `deve-sub-yaml`: its errors (`error.rs`), the check of line
             breaks before the scanner (`parser.rs`), and the answer of the streaming check of a
             top-level sequence (`generated.rs`).
-/
import DeveSub.Lib.Fallible
import DeveSub.Lib.Text

namespace DeveSub

/-- `SequenceState`. -/
inductive SequenceState where
  | missing
  | notSequence
  | empty
  | nonEmpty
  deriving DecidableEq

namespace BoundedYaml

/-- `ErrorKind`. -/
inductive ErrorKind where
  | syntaxError
  | ambiguousFlowIndicator
  | ambiguousLineBreak
  | document
  | input
  | budget
  | depth
  | aliasError
  | tag
  | duplicateKey
  | merge
  | type
  deriving DecidableEq

/-- `Error`. -/
structure Error where
  kind : ErrorKind
  location : Option (Nat × Nat)
  deriving DecidableEq

/-- `Error::new`. -/
def Error.new (kind : ErrorKind) : Error := ⟨kind, none⟩

/-- `check_legacy_line_breaks`. -/
def checkLegacyLineBreaks (input : Str) : Except Error Unit :=
  rejectWhen (input.any fun c => c.toNat = 0x85 || c.toNat = 0x2028 || c.toNat = 0x2029)
    (.new .ambiguousLineBreak)

end BoundedYaml

end DeveSub
