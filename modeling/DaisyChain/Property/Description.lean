import DaisyChain.Property.Table
import DaisyChain.Text.Quoted

/-!
# Describing properties

`Definition.describe` is the text in which a definition is shown to a reader.  It tells the
number of the property, its name in quotes, its access and its size, and says nothing of the
handlers.
-/

namespace DaisyChain

/-- The text of an access. -/
def Access.describe : Access → String
  | .readOnly => "ReadOnly"
  | .writeOnly => "WriteOnly"
  | .readWrite => "ReadWrite"

/-- The text of a size. -/
def PropertySize.describe : PropertySize → String
  | .static length => "Static(" ++ toString length.toNat ++ ")"
  | .dynamic => "Dynamic"

/-- The text of a definition. -/
def Definition.describe {M : Type} (d : Definition M) : String :=
  "PropertyDef \x7b id: PropertyId(" ++ toString d.id.number.toNat ++ "), name: " ++
    Text.quoted d.name ++ ", access: " ++ d.access.describe ++ ", size: " ++
    d.size.describe ++ " \x7d"

end DaisyChain
