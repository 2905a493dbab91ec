/-! # Quick sort

Sorting in place by halving around pivots. Items that are equal in the order do not keep their
places, so where they end up depends on every step: short ranges are sorted by insertion, the
pivot is a median of samples, a range that looks sorted is tried by a few insertions first, one of
many equal items is split into the equal and the greater ones, and after too many uneven splits a
heap takes over.
-/

namespace TaintLedger.QuickSort

variable {α : Type} (less : α → α → Bool)

/-- The item at one place is less than that at another. -/
def lessAt (xs : Array α) (i j : Nat) : Bool :=
  match xs[i]?, xs[j]? with
  | some x, some y => less x y
  | _, _ => false

/-- Moves the item at a place down to `low` at most, while it is less than the one below. -/
def sink (low : Nat) : (i : Nat) → Array α → Array α
  | 0, xs => xs
  | i + 1, xs =>
    if low < i + 1 && lessAt less xs (i + 1) i then sink low i (xs.swapIfInBounds (i + 1) i) else xs

/-- Moves the item below a place up, while the one at the place is less. -/
def rise (high : Nat) : (fuel : Nat) → (i : Nat) → Array α → Array α
  | 0, _, xs => xs
  | n + 1, i, xs =>
    if i < high && lessAt less xs i (i - 1) then
      rise high n (i + 1) (xs.swapIfInBounds i (i - 1))
    else xs

def insertionSort (a b : Nat) (xs : Array α) : Array α :=
  (List.range' (a + 1) (b - (a + 1))).foldl (fun xs i => sink less a i xs) xs

/-! ## Heaps -/

/-- Moves the root of a heap of `size` items from `first` on down to its place. -/
def siftDown (first size : Nat) : (fuel : Nat) → (root : Nat) → Array α → Array α
  | 0, _, xs => xs
  | n + 1, root, xs =>
    let left := 2 * root + 1
    if size ≤ left then xs
    else
      let right := left + 1
      let child :=
        if right < size && lessAt less xs (first + left) (first + right) then right else left
      if lessAt less xs (first + root) (first + child) then
        siftDown first size n child (xs.swapIfInBounds (first + root) (first + child))
      else xs

def heapSort (a b : Nat) (xs : Array α) : Array α :=
  let size := b - a
  let heap := (List.range ((size - 1) / 2 + 1)).reverse.foldl
    (fun xs i => siftDown less a size size i xs) xs
  (List.range size).reverse.foldl
    (fun xs i => siftDown less a i size 0 (xs.swapIfInBounds a (a + i))) heap

/-! ## Pivots -/

/-- Two places in the order of their items, with one more swap if they were not. -/
def order (xs : Array α) (i j swaps : Nat) : Nat × Nat × Nat :=
  if lessAt less xs j i then (j, i, swaps + 1) else (i, j, swaps)

/-- The place of the middle one of three items, and the swaps so far. -/
def median (xs : Array α) (i j k swaps : Nat) : Nat × Nat :=
  let (i, j, swaps) := order less xs i j swaps
  let (j, _, swaps) := order less xs j k swaps
  let (_, j, swaps) := order less xs i j swaps
  (j, swaps)

/-- What the samples say of a range. -/
inductive Trend where
  | rising
  | falling
  | unclear
deriving DecidableEq

/-- A pivot for a range, from three samples, or nine in a long one. -/
def pivot (a b : Nat) (xs : Array α) : Nat × Trend :=
  let size := b - a
  let quarter := size / 4
  let near (i swaps : Nat) : Nat × Nat :=
    if 50 ≤ size then median less xs (i - 1) i (i + 1) swaps else (i, swaps)
  let (i, swaps) := near (a + quarter) 0
  let (j, swaps) := near (a + quarter * 2) swaps
  let (k, swaps) := near (a + quarter * 3) swaps
  let (j, swaps) := median less xs i j k swaps
  (j, if swaps = 0 then .rising else if swaps = 12 then .falling else .unclear)

/-! ## Partitions -/

/-- The first place from `i` on that is not in `p`. -/
def climb (p : Nat → Bool) : (fuel : Nat) → (i : Nat) → Nat
  | 0, i => i
  | n + 1, i => if p i then climb p n (i + 1) else i

/-- The first place from `j` down that is not in `p`. -/
def fall (p : Nat → Bool) : (j : Nat) → Nat
  | 0 => 0
  | j + 1 => if p (j + 1) then fall p j else j + 1

/-- Moves the items of a range that belong `left` before those that belong right, by swaps from both
ends. The result has where the ends met, and whether there was no swap. -/
def meet (left right : Array α → Nat → Bool) : (fuel : Nat) → (still : Bool) → (i j : Nat) →
    Array α → Array α × Nat × Nat × Bool
  | 0, still, i, j, xs => (xs, i, j, still)
  | n + 1, still, i, j, xs =>
    let i := climb (fun k => k ≤ j && left xs k) (j + 1 - i) i
    let j := fall (fun k => i ≤ k && right xs k) j
    if j < i then (xs, i, j, still)
    else meet left right n false (i + 1) (j - 1) (xs.swapIfInBounds i j)

/-- Splits a range into the items less than the pivot, the pivot at the place that comes with the
result, and the others. The last component tells that they stood like this already. -/
def partition (a b pivot : Nat) (xs : Array α) : Array α × Nat × Bool :=
  let (xs, _, j, still) := meet (fun xs k => lessAt less xs k a) (fun xs k => !lessAt less xs k a)
    (b - a) true (a + 1) (b - 1) (xs.swapIfInBounds a pivot)
  (xs.swapIfInBounds j a, j, still)

/-- Splits a range without items less than the pivot into those equal to it and those greater. -/
def partitionEqual (a b pivot : Nat) (xs : Array α) : Array α × Nat :=
  let (xs, i, _, _) := meet (fun xs k => !lessAt less xs a k) (fun xs k => lessAt less xs a k)
    (b - a) true (a + 1) (b - 1) (xs.swapIfInBounds a pivot)
  (xs, i)

/-- Tries to sort a range by so many insertions; a short range is left as it is. The last component
tells that the range is sorted. -/
def fewInsertions (a b : Nat) : (steps : Nat) → (i : Nat) → Array α → Array α × Bool
  | 0, _, xs => (xs, false)
  | n + 1, i, xs =>
    let i := climb (fun k => k < b && !lessAt less xs k (k - 1)) (b - i) i
    if i = b then (xs, true)
    else if b - a < 50 then (xs, false)
    else
      let xs := xs.swapIfInBounds i (i - 1)
      let xs := if 2 ≤ i - a then sink less 0 (i - 1) xs else xs
      let xs := if 2 ≤ b - i then rise less b (b - i) (i + 1) xs else xs
      fewInsertions a b n i xs

/-- The next of a series of words that look random. -/
def scramble (r : UInt64) : UInt64 :=
  let r := r ^^^ (r <<< 13)
  let r := r ^^^ (r >>> 17)
  r ^^^ (r <<< 5)

/-- Swaps three items around the middle of a range with items from places that look random. -/
def scatter (a b : Nat) (xs : Array α) : Array α :=
  let size := b - a
  if size < 8 then xs
  else
    let middle := a + size / 4 * 2
    let place (r : UInt64) : Nat :=
      let n := r.toNat % Nat.pow 2 (Nat.log2 size + 1)
      a + if size ≤ n then n - size else n
    let r₀ := scramble size.toUInt64
    let r₁ := scramble r₀
    let r₂ := scramble r₁
    let xs := xs.swapIfInBounds (middle - 1) (place r₀)
    let xs := xs.swapIfInBounds middle (place r₁)
    xs.swapIfInBounds (middle + 1) (place r₂)

def reverse (a b : Nat) (xs : Array α) : Array α :=
  (List.range ((b - a) / 2)).foldl (fun xs i => xs.swapIfInBounds (a + i) (b - 1 - i)) xs

/-- Sorts a range. `limit` is how many more uneven splits are taken; `balanced` and `partitioned`
tell how the last split went. -/
def sortRange : (fuel : Nat) → (a b limit : Nat) → (balanced partitioned : Bool) → Array α →
    Array α
  | 0, _, _, _, _, _, xs => xs
  | n + 1, a, b, limit, balanced, partitioned, xs =>
    let size := b - a
    if size ≤ 12 then insertionSort less a b xs
    else if limit = 0 then heapSort less a b xs
    else
      let (xs, limit) := if balanced then (xs, limit) else (scatter a b xs, limit - 1)
      let (p, trend) := pivot less a b xs
      let (xs, p, trend) :=
        if trend = .falling then (reverse a b xs, b - 1 - (p - a), Trend.rising)
        else (xs, p, trend)
      let (xs, done) :=
        if balanced && partitioned && trend = .rising then fewInsertions less a b 5 (a + 1) xs
        else (xs, false)
      if done then xs
      else if 0 < a && !lessAt less xs (a - 1) p then
        let (xs, middle) := partitionEqual less a b p xs
        sortRange n middle b limit balanced partitioned xs
      else
        let (xs, middle, still) := partition less a b p xs
        if middle - a < b - middle then
          sortRange n (middle + 1) b limit (size / 8 ≤ middle - a) still
            (sortRange n a middle limit true true xs)
        else
          sortRange n a middle limit (size / 8 ≤ b - middle) still
            (sortRange n (middle + 1) b limit true true xs)

def sort (xs : Array α) : Array α :=
  let n := xs.size
  sortRange less (n + 1) 0 n (if n = 0 then 0 else Nat.log2 n + 1) true true xs

end TaintLedger.QuickSort
