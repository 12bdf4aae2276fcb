import AdLedger.Text.Blank

/-!
# Locations

Where the database and the settings file are: at the path given, else at the one in an environment
variable that is not blank, else in the user's own directories.
-/

namespace AdLedger

/-- The values of environment variables. -/
abbrev Environment := List (String × String)

namespace Location

/-- The value of a variable that is set and not empty. -/
def nonEmpty (env : Environment) (name : String) : Option String :=
  (env.lookup name).filter (· ≠ "")

/-- The value of a variable that is set and not blank. -/
def nonBlank (env : Environment) (name : String) : Option String :=
  (env.lookup name).filter fun value => !Text.allBlank value.toList

def join (directory path : String) : String :=
  if directory.endsWith "/" then directory ++ path else directory ++ "/" ++ path

/-- One of the user's directories: what a variable of this name gives if it is an absolute path,
else a directory within the home directory. -/
def userDirectory (env : Environment) (name fallback : String) : Option String :=
  match (nonEmpty env name).filter (·.startsWith "/") with
  | some directory => some directory
  | none => (nonEmpty env "HOME").map (join · fallback)

/-- The path given, else that of a variable, else one among the user's directories. -/
def resolve (env : Environment) (given : Option String) (name : String)
    (fallback : Option String) : Option String :=
  given <|> nonBlank env name <|> fallback

def database (env : Environment) (given : Option String) : Option String :=
  resolve env given "ADH_DB"
    ((userDirectory env "XDG_DATA_HOME" ".local/share").map (join · "adh/ad_history.db"))

def settings (env : Environment) (given : Option String) : Option String :=
  resolve env given "ADH_CONFIG"
    ((userDirectory env "XDG_CONFIG_HOME" ".config").map (join · "adh/config.json"))

end Location
end AdLedger
