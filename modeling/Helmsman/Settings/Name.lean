import Helmsman.Text.Lines
import Helmsman.Text.UpperCase
/-!
# Names of settings

A setting is named by a path of words with dots between them. In the environment the same path is written in capitals
behind a common beginning, with two underscores between the words.
-/

namespace Helmsman.Settings

/-- What the name of every variable begins with. -/
def environmentStart : String := "POLARIS_"

/-- What stands between the words of a variable's name. -/
def wordSeparator : String := "__"

def environmentName (path : String) : String :=
  environmentStart ++ wordSeparator.intercalate ((Text.parts '.' path).map Text.upper)

end Helmsman.Settings
