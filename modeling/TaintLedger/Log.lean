/-! # Logs

A computation that reports what it does yields its result together with the entries it wrote. What
of them is shown depends on the level of the reader only.
-/

namespace TaintLedger

inductive LogLevel where
  | error
  | warn
  | info
  | debug
  | trace
deriving DecidableEq, Repr

namespace LogLevel

/-- An entry shows when its level is at most that of the reader. -/
def number : LogLevel → Int
  | .error => 1
  | .warn => 2
  | .info => 3
  | .debug => 4
  | .trace => 5

def tag : LogLevel → String
  | .error => "[ERROR] "
  | .warn => "[WARN] "
  | .info => "[INFO] "
  | .debug => "[DEBUG] "
  | .trace => "[TRACE] "

end LogLevel

structure LogEntry where
  level : LogLevel
  text : String
deriving DecidableEq, Repr

/-- The line of an entry. A text that ends its line itself gets no second line end. -/
def LogEntry.line (e : LogEntry) : String :=
  e.level.tag ++ e.text ++ (if e.text.toList.getLast? = some '\n' then "" else "\n")

/-- Whether a reader of a level sees an entry. -/
def LogEntry.shown (level : Int) (e : LogEntry) : Bool := e.level.number ≤ level

/-- What a reader of a level sees. -/
def renderLog (level : Int) (entries : List LogEntry) : String :=
  String.join ((entries.filter (·.shown level)).map LogEntry.line)

/-- The level to read at: silence leaves errors only. -/
def effectiveLevel (level : Int) (silent : Bool) : Int :=
  if silent && 2 ≤ level then 1 else level

/-- A result with the entries written on the way to it. -/
structure Logged (α : Type) where
  val : α
  entries : List LogEntry

namespace Logged

variable {α β : Type}

instance : Monad Logged where
  pure a := ⟨a, []⟩
  bind x f := ⟨(f x.val).val, x.entries ++ (f x.val).entries⟩

def write (level : LogLevel) (text : String) : Logged Unit := ⟨(), [⟨level, text⟩]⟩

@[simp] theorem val_pure (a : α) : (pure a : Logged α).val = a := rfl

@[simp] theorem val_bind (x : Logged α) (f : α → Logged β) : (x >>= f).val = (f x.val).val := rfl

@[simp] theorem entries_pure (a : α) : (pure a : Logged α).entries = [] := rfl

@[simp] theorem entries_bind (x : Logged α) (f : α → Logged β) :
    (x >>= f).entries = x.entries ++ (f x.val).entries := rfl

@[simp] theorem entries_write (l : LogLevel) (t : String) : (write l t).entries = [⟨l, t⟩] := rfl

/-- The results of a list of computations, run in order. -/
def collect (f : α → Logged β) : List α → Logged (List β)
  | [] => pure []
  | a :: as => do
    let b ← f a
    let bs ← collect f as
    pure (b :: bs)

@[simp] theorem val_collect (f : α → Logged β) (as : List α) :
    (collect f as).val = as.map fun a => (f a).val := by
  induction as with
  | nil => rfl
  | cons a as ih => simp [collect, ih]

/-- The results of those computations in a list that have one. -/
def collectSome (f : α → Logged (Option β)) : List α → Logged (List β)
  | [] => pure []
  | a :: as => do
    let b ← f a
    let bs ← collectSome f as
    pure (b.toList ++ bs)

@[simp] theorem val_collectSome (f : α → Logged (Option β)) (as : List α) :
    (collectSome f as).val = as.filterMap fun a => (f a).val := by
  induction as with
  | nil => rfl
  | cons a as ih =>
    cases h : (f a).val <;> simp [collectSome, ih, h]

end Logged

end TaintLedger
