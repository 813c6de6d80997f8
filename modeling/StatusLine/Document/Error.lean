import StatusLine.Color
import StatusLine.Segment
import StatusLine.Separator
import StatusLine.Style
import StatusLine.Text.Quoted

namespace StatusLine

/-- What is wrong with a well-formed document. `found` is the description of what stands there. -/
inductive Refusal where
  | wrongType (found expected : String)
  | wrongValue (found expected : String)
  | wrongLength (length : Nat) (expected : String)
  | unknownField (name : String) (known : List String)
  | unknownVariant (name : String) (known : List String)
  | missingField (name : String)
  | duplicateField (name : String)
  | noForm (type : String)
  | wanted (what : String)
  | color (cause : ColorError)
  | style (cause : StyleError)
  | separator (cause : SeparatorError)
  | segment (cause : SegmentError)
deriving DecidableEq, Repr

def oneOf : List String → String
  | [] => "there are no others"
  | [a] => "expected " ++ Text.offered a
  | [a, b] => "expected " ++ Text.offered a ++ " or " ++ Text.offered b
  | names => "expected one of " ++ ", ".intercalate (names.map Text.offered)

def Refusal.message : Refusal → String
  | .wrongType found expected => "invalid type: " ++ found ++ ", expected " ++ expected
  | .wrongValue found expected => "invalid value: " ++ found ++ ", expected " ++ expected
  | .wrongLength n expected =>
      "invalid length " ++ Integer.text n ++ ", expected " ++ expected
  | .unknownField name known => "unknown field " ++ Text.offered name ++ ", " ++ oneOf known
  | .unknownVariant name known => "unknown variant " ++ Text.offered name ++ ", " ++ oneOf known
  | .missingField name => "missing field " ++ Text.offered name
  | .duplicateField name => "duplicate field " ++ Text.offered name
  | .noForm type => "data did not match any variant of untagged enum " ++ type
  | .wanted what => what
  | .color e => e.message
  | .style e => e.message
  | .separator e => e.message
  | .segment e => e.message

/-- A text that is not well-formed has no sentence of its own. -/
inductive DocumentError where
  | malformed
  | refused (cause : Refusal)
deriving DecidableEq, Repr

end StatusLine
