import TaintLedger.Files
import TaintLedger.Settings

/-! # The settings of a run -/

namespace TaintLedger.Command

/-- Why the file of settings is not loaded. -/
inductive ConfigFault where
  | unread (path why : String)
  | unloaded (path : String) (why : SettingsFault)
deriving DecidableEq, Repr

def ConfigFault.message : ConfigFault → String
  | .unread path why =>
    "failed to load config file " ++ path ++ ": could not read config file: " ++ why
  | .unloaded path why =>
    "failed to load config file " ++ path ++ ": could not load " ++ path ++ ": " ++ why.message

/-- The settings of a file, or the default ones without one. A verbose run logs more, whatever the
file says. -/
def configure (path : String) (verbose : Bool) (fs : Files) : Except ConfigFault Settings := do
  let s ←
    if path.isEmpty then pure {}
    else match fs.read path with
      | .error why => .error (.unread path why)
      | .ok text => match Settings.parse path text with
        | .error why => .error (.unloaded path why)
        | .ok s => pure s
  pure (if verbose then { s with logLevel := 4 } else s)

end TaintLedger.Command
