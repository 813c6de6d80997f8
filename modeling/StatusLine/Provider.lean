import StatusLine.Config
import StatusLine.Format.Expr
import StatusLine.Format.Variable
import StatusLine.Text.Quoted

/-!
Providers: named sources of content that is worked out when a status line is drawn. A registry finds
a provider by its name.
-/

namespace StatusLine

inductive Fragment where
  | text (s : String)
  | variable (v : Variable)
  | format (s : String)
deriving DecidableEq

def Fragment.write : Fragment → List Char
  | .text s => Expr.escape false s.toList
  | .variable v => v.token.toList
  | .format s => s.toList

abbrev Output := List Fragment

def Output.format (o : Output) : String := String.ofList (o.flatMap Fragment.write)

inductive ProviderError where
  | unknown (name : String)
  | arguments (name reason : String)
  | failed (reason : String)
deriving DecidableEq, Repr

def ProviderError.message : ProviderError → String
  | .unknown name => "unknown provider " ++ name
  | .arguments name reason => name ++ ": bad arguments: " ++ reason
  | .failed reason => reason

abbrev Provider := Arguments → Except ProviderError Output

def Provider.constant (o : Output) : Provider := fun _ => .ok o

abbrev Registry := Keyed Provider

namespace Registry

def lookup (r : Registry) (name : String) : Option Provider := r.find? name

def register (r : Registry) (name : String) (p : Provider) : Registry := r.insert name p

def names (r : Registry) : List String := r.keys

def shown (r : Registry) : String := Text.quotedList r.names

end Registry

end StatusLine
