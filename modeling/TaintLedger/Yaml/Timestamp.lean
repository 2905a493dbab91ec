import TaintLedger.Text.Basic

/-! # Timestamps in plain scalars -/

namespace TaintLedger.Yaml

/-- The zone of a timestamp: none or `Z`, an offset of zero, one of whole hours, or another. -/
inductive Zone where
  | universal
  | zero
  | hours (h : Int)
  | other
deriving DecidableEq, Repr

structure Timestamp where
  year : Nat
  month : Nat
  day : Nat
  hour : Nat := 0
  minute : Nat := 0
  second : Nat := 0
  nanosecond : Nat := 0
  zone : Zone := .universal
deriving DecidableEq, Repr

namespace Timestamp

/-- Equality of timestamps. One in a zone of its own is not equal to any. -/
def same (a b : Timestamp) : Bool := a == b && a.zone != .other

/-- One or two digits. -/
def number? (s : List Char) : Option (Nat × List Char) :=
  match s with
  | a :: b :: r =>
    if a.isDigit then
      if b.isDigit then some ((a.toNat - 48) * 10 + (b.toNat - 48), r)
      else some (a.toNat - 48, b :: r)
    else none
  | [a] => if a.isDigit then some (a.toNat - 48, []) else none
  | [] => none

def literal? (c : Char) (s : List Char) : Option (List Char) :=
  match s with
  | x :: r => if x = c then some r else none
  | [] => none

def isLeap (y : Nat) : Bool := y % 4 == 0 && (y % 100 != 0 || y % 400 == 0)

def daysIn (y m : Nat) : Nat :=
  if m = 2 then (if isLeap y then 29 else 28)
  else if m = 4 ∨ m = 6 ∨ m = 9 ∨ m = 11 then 30 else 31

def digitsValue (s : List Char) : Nat := s.foldl (fun n c => n * 10 + (c.toNat - 48)) 0

/-- A date that exists: four digits of year, then month and day. -/
def date? (s : List Char) : Option (Timestamp × List Char) := do
  let year := s.takeWhile Char.isDigit
  if year.length ≠ 4 then none
  let y := digitsValue year
  let (m, r) ← number? (← literal? '-' (s.drop 4))
  let (d, r) ← number? (← literal? '-' r)
  if 1 ≤ m ∧ m ≤ 12 ∧ 1 ≤ d ∧ d ≤ daysIn y m then some ({ year := y, month := m, day := d }, r)
  else none

/-- Hour, minute and second, with an optional fraction of which nine digits count. -/
def clock? (t : Timestamp) (s : List Char) : Option (Timestamp × List Char) := do
  let (h, r) ← number? s
  let (m, r) ← number? (← literal? ':' r)
  let (sec, r) ← number? (← literal? ':' r)
  if 24 ≤ h ∨ 60 ≤ m ∨ 60 ≤ sec then none
  let t := { t with hour := h, minute := m, second := sec }
  match r with
  | p :: c :: rest =>
    if (p = '.' ∨ p = ',') ∧ c.isDigit then
      let digits := (c :: rest).takeWhile Char.isDigit
      let nanosecond := digitsValue ((digits ++ List.replicate 9 '0').take 9)
      some ({ t with nanosecond }, (c :: rest).dropWhile Char.isDigit)
    else some (t, r)
  | _ => some (t, r)

/-- The zone of an offset in minutes. Whole hours from 12 before to 14 after count. -/
def offsetZone (minutes : Int) : Zone :=
  if minutes = 0 then .zero
  else if minutes % 60 = 0 ∧ -12 * 60 ≤ minutes ∧ minutes ≤ 14 * 60 then .hours (minutes / 60)
  else .other

/-- `Z`, or an offset of two digits of hours and of minutes. -/
def zone? (s : List Char) : Option Zone :=
  match s with
  | ['Z'] => some .universal
  | [sign, a, b, ':', c, d] =>
    let h := digitsValue [a, b]
    let m := digitsValue [c, d]
    if (sign = '+' ∨ sign = '-') ∧ [a, b, c, d].all Char.isDigit ∧ h ≤ 24 ∧ m ≤ 60 then
      let minutes : Int := h * 60 + m
      some (offsetZone (if sign = '-' then -minutes else minutes))
    else none
  | _ => none

/-- A date alone, a date and time with a zone after `T`, or one without a zone after blanks. -/
def ofPlain? (s : List Char) : Option Timestamp := do
  let (t, r) ← date? s
  match r with
  | [] => some t
  | c :: r =>
    if c = 'T' ∨ c = 't' then
      let (t, r) ← clock? t r
      pure { t with zone := ← zone? r }
    else if c = ' ' then
      let (t, r) ← clock? t (r.dropWhile (· == ' '))
      if r.isEmpty then some t else none
    else none

end Timestamp

end TaintLedger.Yaml
