import AdLedger.Settings.Location

/-!
# Styles

Styled text for terminals: an escape sequence before the text and one after it that ends all styles.
Where the text itself ends all styles the style is begun again.
-/

namespace AdLedger.Cli

/-- How a part of an answer stands out. -/
inductive Style where
  | bold
  | dimmed
  | yellow
  | heading
  deriving DecidableEq

namespace Style

/-- The sequence that begins a style. -/
def opening : Style → String
  | bold => "\x1b[1m"
  | dimmed => "\x1b[2m"
  | yellow => "\x1b[33m"
  | heading => "\x1b[1;36m"

/-- The sequence that ends all styles. -/
def closing : String := "\x1b[0m"

def apply (style : Style) (text : String) : String :=
  style.opening ++ text.replace closing (closing ++ style.opening) ++ closing

/-- Whether a variable that switches something says that it is on. -/
def switchedOn (env : Environment) (name : String) : Option Bool :=
  (env.lookup name).map (· ≠ "0")

/-- Whether answers are styled: never when the user asks for plain ones, else as the variables say,
else where the answer goes to a terminal. -/
def wanted (env : Environment) (plain terminal : Bool) : Bool :=
  if plain then false
  else if switchedOn env "CLICOLOR_FORCE" = some true then true
  else if (switchedOn env "NO_COLOR").isSome then false
  else terminal && (switchedOn env "CLICOLOR").getD true

end Style
end AdLedger.Cli
