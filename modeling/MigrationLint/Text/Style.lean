/-!
# Terminal styles

A painted text is preceded by the escape sequences of its styles and followed by the sequence that
ends them. Without colour a text stays as it is.
-/

namespace MigrationLint

/-- A way to set off text on a terminal. -/
inductive Style
  | bold
  | dim
  | italic
  | red
  | green
  | yellow
  | blue
  | magenta
  | cyan
  deriving DecidableEq, Repr

namespace Style

/-- The parameter of the escape sequence that starts the style. -/
def parameter : Style → String
  | bold => "1"
  | dim => "2"
  | italic => "3"
  | red => "31"
  | green => "32"
  | yellow => "33"
  | blue => "34"
  | magenta => "35"
  | cyan => "36"

/-- The escape sequence that starts the style. -/
def start (s : Style) : String :=
  "\x1b[" ++ s.parameter ++ "m"

/-- The escape sequence that ends every style. -/
def stop : String :=
  "\x1b[0m"

/-- The text in the given styles, or as it is when nothing is coloured. -/
def paint (colour : Bool) (styles : List Style) (text : String) : String :=
  if colour then String.join (styles.map start) ++ text ++ stop else text

end Style

end MigrationLint
