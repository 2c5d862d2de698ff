import EcmaSyntax.Print.Tree

/-!
The text of a program.
-/

namespace EcmaSyntax

open EcmaSyntax.Print EcmaSyntax.Tree

/-- The text of a program, a line for each statement. -/
def print (style : Style) (program : Program) : String :=
  let text := String.intercalate style.newline (program.body.map (statementText style 0))
  if style.trailing && !text.isEmpty then text ++ style.newline else text

end EcmaSyntax
