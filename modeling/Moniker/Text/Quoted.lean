/-!
# Quoted text

A quoted text stands between quotes, and a quote inside it is written twice, so a reader
that meets a single quote knows that the text has ended.
-/

namespace Moniker.Text.Quoted

/-- Doubles every quote. -/
def escape : List Char → List Char
  | [] => []
  | c :: rest => if c = '"' then '"' :: '"' :: escape rest else c :: escape rest

/-- The quoted form of a text. -/
def quote (s : String) : String :=
  String.ofList ('"' :: (escape s.toList ++ ['"']))

end Moniker.Text.Quoted
