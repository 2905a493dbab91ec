import TaintLedger.Yaml.Scalar

/-! # Keys without a type -/

namespace TaintLedger.Yaml

/-- What a key stands for: a text, or what another scalar stands for. -/
inductive Key where
  | text (s : String)
  | value (v : Scalar)
deriving DecidableEq, Repr

/-- Two keys are one. Keys of different kinds never are. -/
def Key.same : Key → Key → Bool
  | .text a, .text b => a == b
  | .value (.real x), .value (.real y) => x.same y
  | .value (.timestamp x), .value (.timestamp y) => x.same y
  | .value a, .value b => a == b
  | _, _ => false

end TaintLedger.Yaml
