import Lightpay.Config.Format
import Lightpay.Ini.Parser
import Lightpay.Json.Entries
import Lightpay.Json5.Parser
import Lightpay.Ron.Parser
import Lightpay.Toml.Parser
import Lightpay.Yaml.Parser

/-!
The reader of configurations that the tool comes with. The tool itself takes any other as well.
-/

namespace Lightpay.Config.Format

def parse? : Format → String → Option Entries
  | .toml => Toml.parse?
  | .json => Json.entries?
  | .yaml => Yaml.parse?
  | .ini => Ini.parse?
  | .ron => Ron.parse?
  | .json5 => Json5.parse?

/-- The entries in the text of a file, in front of which a byte order mark may stand. -/
def read? (format : Format) (text : String) : Option Entries :=
  match text.toList with
  | '\ufeff' :: rest => format.parse? (String.ofList rest)
  | _ => format.parse? text

end Lightpay.Config.Format
