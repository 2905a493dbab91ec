import TaintLedger.Code.Body

/-! # Raw results

What a taint analysis reports: for each sink the sources that flow into it. Statements are told
apart by their identity.
-/

namespace TaintLedger

/-- A source with the statements its data goes through. A report may leave a statement out. -/
structure RawSource where
  source : Option Site
  path : List (Option Site) := []

structure RawSink where
  sink : Option Site
  sources : List RawSource := []

abbrev RawResults := List RawSink

namespace RawResults

def idOf (s : Option Site) : Option StmtId := s.map (·.id)

/-- Adds a flow. A sink that is already there keeps its place. -/
def add (sink : Option Site) (source : RawSource) : RawResults → RawResults
  | [] => [⟨sink, [source]⟩]
  | r :: rs =>
    if idOf r.sink = idOf sink then { r with sources := r.sources ++ [source] } :: rs
    else r :: add sink source rs

/-- The number of flows. -/
def pairs : RawResults → Nat
  | [] => 0
  | r :: rs => r.sources.length + pairs rs

end RawResults

/-- Every statement that was taken for a source or a sink, in a flow or not. -/
structure Collected where
  sources : List (Option Site) := []
  sinks : List (Option Site) := []

end TaintLedger
