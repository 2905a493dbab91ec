import TaintLedger.Code.Program
import TaintLedger.Handle.Resolver
import TaintLedger.QuickSort
import TaintLedger.Ssa.Convert
import TaintLedger.Ssa.Directive

/-! # The resolution of the accessor calls of functions -/

namespace TaintLedger.Ssa

/-- One call of an accessor or reader, as it is written and with its handle resolved. -/
structure Resolution where
  caller : String
  position : Position
  call : String
  resolved : String
deriving DecidableEq, Repr

namespace Resolution

/-- A call whose handle is not known stays as it is. -/
def isResolved (r : Resolution) : Bool := r.call != r.resolved

def text (r : Resolution) : String := r.position.text ++ ": " ++ r.resolved ++ " in " ++ r.caller

/-- The line of a call in a listing. -/
def line (verbose : Bool) (r : Resolution) : String :=
  r.position.text ++ ": " ++
    (if r.isResolved then Text.sanitize r.resolved else Text.sanitize r.call ++ " (unresolved)") ++
    (if verbose then " in " ++ Text.sanitize r.caller else "") ++ "\n"

/-- A listing of calls: all of them, or those that are not resolved. -/
def listing (unresolvedOnly verbose : Bool) (rs : List Resolution) : String :=
  String.join ((rs.filter fun r => !unresolvedOnly || !r.isResolved).map (line verbose))

end Resolution

/-- Why functions are not resolved. -/
inductive ResolveFault where
  | convert (why : ConvertFault)
  | program (why : ProgramError)
deriving DecidableEq, Repr

def ResolveFault.message : ResolveFault → String
  | .convert why => why.message
  | .program why => why.message

/-- Converts functions in order, up to the first that fails. No two have one signature. -/
def convertAll (p : Program) : List Function → Except ResolveFault (List Converted)
  | [] => .ok []
  | f :: fs =>
    match f.convert p.drafts.length with
    | .error why => .error (.convert why)
    | .ok c =>
      match p.add ⟨c.method.signature, some c.method.body⟩ with
      | .error why => .error (.program why)
      | .ok p' => (convertAll (p'.setDominators c.dominators) fs).map (c :: ·)

/-- Where a quick sort by full names puts each function. -/
def nameRanks (fs : List Function) : List Nat :=
  let named := fs.zipIdx.map fun (f, i) => (f.fullName, i)
  let sorted := QuickSort.sort (fun x y => Text.before x.1 y.1) named.toArray
  let places := sorted.toList.map (·.2)
  (List.range fs.length).map places.idxOf

/-- Functions by their full names, those of one name by their ranks. -/
def sortByName (fs : List Function) : List Function :=
  let ordered (x y : Function × Nat) : Bool :=
    !Text.before y.1.fullName x.1.fullName &&
      (Text.before x.1.fullName y.1.fullName || x.2 ≤ y.2)
  ((fs.zip (nameRanks fs)).mergeSort ordered).map (·.1)

/-- The resolution of the call in a statement, if it is one to resolve and no directive asks to
leave it out. -/
def resolveSite (r : Resolver) (ds : Directives) (c : Converted) (s : Site) (pos : Position) :
    Logged (Option Resolution) :=
  match s.stmt.call? with
  | none => pure none
  | some call =>
    if r.vocabulary.isAccessor call.signature || r.vocabulary.isReader call.signature then
      if ds.ignores pos then do
        Logged.write .debug ("ignoring " ++ call.signature ++ " at " ++ pos.text)
        pure none
      else do
        let resolved ← r.resolveSource c.dominators.above s
        let res : Resolution := ⟨c.method.signature, pos, call.signature, resolved⟩
        Logged.write .trace res.text
        pure (some res)
    else pure none

/-- The resolutions in one function, in the order of its statements. -/
def resolveFunction (r : Resolver) (ds : Directives) (c : Converted) : Logged (List Resolution) :=
  Logged.collectSome (fun (s, pos) => resolveSite r ds c s pos) (c.method.sites.zip c.positions)

/-- The resolutions in all functions, taken by name. -/
def resolveFunctions (r : Resolver) (ds : Directives) (fs : List Function) :
    Logged (Except ResolveFault (List Resolution)) :=
  match convertAll .empty (sortByName fs) with
  | .error why => pure (.error why)
  | .ok cs => do
    let found ← Logged.collect (resolveFunction r ds) cs
    let rs := found.flatten
    Logged.write .info ("Resolved " ++ Text.decimal (rs.countP Resolution.isResolved) ++ " of " ++
      Text.decimal rs.length ++ " accessor calls")
    pure (.ok rs)

end TaintLedger.Ssa
