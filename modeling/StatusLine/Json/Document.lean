import StatusLine.Document.Decoder
import StatusLine.Json.Reader

namespace StatusLine.Decoder

variable {α : Type}

def ofText (decode : Decoder α) (s : String) : Except DocumentError α :=
  let (node, clean) := Json.read s
  match decode ⟨.jsonText, 0⟩ node with
  | .ok x => if clean then .ok x else .error .malformed
  | .error e => .error e

def ofValue (decode : Decoder α) (j : Json) : Except DocumentError α :=
  decode ⟨.jsonValue, 0⟩ (.ofJson j)

end StatusLine.Decoder
