/-! # Texts as lists of characters

Cutting, stripping and replacing on `List Char`. Functions of the library that read or write a
`String` go through these; whether the characters stand for bytes does not matter to them.
-/

namespace TaintLedger.Text

/-- `s` without `p` at its start, if it is there. -/
def stripLeft (p s : List Char) : List Char :=
  if p.isPrefixOf s then s.drop p.length else s

/-- `s` without `p` at its end, if it is there. -/
def stripRight (p s : List Char) : List Char :=
  if p.isSuffixOf s then s.take (s.length - p.length) else s

/-- What stands before and after the first occurrence of `sep`. -/
def cut (sep : List Char) : List Char → Option (List Char × List Char)
  | [] => if sep.isEmpty then some ([], []) else none
  | c :: s =>
    if sep.isPrefixOf (c :: s) then some ([], (c :: s).drop sep.length)
    else (cut sep s).map fun (a, b) => (c :: a, b)

/-- What stands before and after the last occurrence of the character `x`. -/
def cutLast (x : Char) : List Char → Option (List Char × List Char)
  | [] => none
  | c :: s =>
    match cutLast x s with
    | some (a, b) => some (c :: a, b)
    | none => if c = x then some ([], s) else none

def contains (p s : List Char) : Bool := (cut p s).isSome

/-- `s` with the first occurrence of `old` replaced by `new`. -/
def replaceFirst (old new s : List Char) : List Char :=
  match cut old s with
  | some (a, b) => a ++ new ++ b
  | none => s

/-- `s` with `sep` between its parts. -/
def join (sep : List Char) : List (List Char) → List Char
  | [] => []
  | [s] => s
  | s :: rest => s ++ sep ++ join sep rest

/-- The pieces of `s` between the occurrences of the character `x`, one more than there are. -/
def splitOn (x : Char) : List Char → List (List Char)
  | [] => [[]]
  | c :: s =>
    if c = x then [] :: splitOn x s
    else match splitOn x s with
      | [] => [[c]]
      | w :: ws => (c :: w) :: ws

/-- The texts of `ws` with `sep` between them. -/
def joinWith (sep : String) (ws : List String) : String :=
  String.ofList (join sep.toList (ws.map String.toList))

def dropEnd (p : Char → Bool) (s : List Char) : List Char :=
  (s.reverse.dropWhile p).reverse

/-- `s` without the characters in `p` at either end. -/
def trim (p : Char → Bool) (s : List Char) : List Char := dropEnd p (s.dropWhile p)

theorem stripLeft_append (p s : List Char) : stripLeft p (p ++ s) = s := by
  simp [stripLeft]

theorem stripRight_append (s p : List Char) : stripRight p (s ++ p) = s := by
  simp [stripRight]

theorem cut_eq_some {sep s a b : List Char} (h : cut sep s = some (a, b)) :
    s = a ++ sep ++ b := by
  induction s generalizing a b with
  | nil =>
    unfold cut at h
    split at h <;> simp_all [List.isEmpty_iff]
  | cons c s ih =>
    unfold cut at h
    split at h
    · next hp =>
      obtain ⟨t, ht⟩ := List.isPrefixOf_iff_prefix.1 hp
      simp only [Option.some.injEq, Prod.mk.injEq] at h
      obtain ⟨rfl, rfl⟩ := h
      rw [← ht]; simp
    · obtain ⟨⟨x, y⟩, hx, hy⟩ := Option.map_eq_some_iff.1 h
      simp only [Prod.mk.injEq] at hy
      obtain ⟨rfl, rfl⟩ := hy
      simp [ih hx]

end TaintLedger.Text
