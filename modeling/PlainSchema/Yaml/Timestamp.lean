/-
PlainSchema/Yaml/Timestamp.lean

Timestamps in YAML: a day, or a day and a time of day with an optional fraction and
an optional zone.  A month, a day or an hour may have one digit only; but a day
without a time is taken for a timestamp without being tagged only if it is written
with all its digits.
-/
import PlainSchema.Yaml.Fault

namespace PlainSchema

namespace Yaml

/-- A time of day as it is written; the zone is in seconds. -/
structure WrittenTime where
  hour : Nat
  minute : Nat
  second : Nat
  fraction : List Char
  zone : Option Int

/-- A timestamp as it is written. -/
structure WrittenTimestamp where
  year : Nat
  month : Nat
  day : Nat
  /-- Whether month and day have two digits each. -/
  full : Bool
  time : Option WrittenTime

/-- A number of exactly the given count of ASCII digits, and the rest. -/
def fixedDigits? (count : Nat) (cs : List Char) : Option (Nat × List Char) :=
  let ds := cs.take count
  if ds.length = count && ds.all Char.isDigit then
    some (ds.foldl (fun n c => n * 10 + (c.toNat - '0'.toNat)) 0, cs.drop count)
  else none

/-- A number of one digit or two, whether it has two, and the rest. -/
def oneOrTwoDigits? : List Char → Option (Nat × Bool × List Char)
  | a :: b :: cs =>
    if !a.isDigit then none
    else if b.isDigit then some ((a.toNat - 48) * 10 + (b.toNat - 48), true, cs)
    else some (a.toNat - 48, false, b :: cs)
  | [a] => if a.isDigit then some (a.toNat - 48, false, []) else none
  | [] => none

/-- The zone that ends a timestamp. -/
def zone? (cs : List Char) : Option (Option Int) :=
  match cs.dropWhile fun c => c = ' ' || c = '\t' with
  | [] => if cs.isEmpty then some none else none
  | ['Z'] => some (some 0)
  | sign :: cs => do
    let sign : Int ← if sign = '+' then some 1 else if sign = '-' then some (-1) else none
    let (hours, _, cs) ← oneOrTwoDigits? cs
    let minutes ← match cs with
      | [] => some 0
      | ':' :: cs => (fixedDigits? 2 cs).bind fun (m, cs) => if cs.isEmpty then some m else none
      | _ => none
    return some (sign * ((hours * 60 + minutes : Nat) * 60))

/-- The time of day that ends a timestamp, from its hour on. -/
def time? (cs : List Char) : Option WrittenTime := do
  let (hour, _, cs) ← oneOrTwoDigits? cs
  let ':' :: cs := cs | none
  let (minute, cs) ← fixedDigits? 2 cs
  let ':' :: cs := cs | none
  let (second, cs) ← fixedDigits? 2 cs
  let (fraction, cs) := match cs with
    | '.' :: cs => (cs.takeWhile Char.isDigit, cs.dropWhile Char.isDigit)
    | cs => ([], cs)
  return ⟨hour, minute, second, fraction, ← zone? cs⟩

/-- What a text says if it is written as a timestamp. -/
def writtenTimestamp? (cs : List Char) : Option WrittenTimestamp := do
  let (year, cs) ← fixedDigits? 4 cs
  let '-' :: cs := cs | none
  let (month, fullMonth, cs) ← oneOrTwoDigits? cs
  let '-' :: cs := cs | none
  let (day, fullDay, cs) ← oneOrTwoDigits? cs
  match cs with
  | [] => return ⟨year, month, day, fullMonth && fullDay, none⟩
  | c :: rest =>
    let cs ←
      if c = 'T' || c = 't' then some rest
      else if c = ' ' || c = '\t' then some (rest.dropWhile fun c => c = ' ' || c = '\t')
      else none
    return ⟨year, month, day, fullMonth && fullDay, some (← time? cs)⟩

/-- The texts that a text may stand for where a line feed at its end does not count. -/
def withoutLastBreak (cs : List Char) : List (List Char) :=
  if cs.getLast? = some '\n' then [cs, cs.dropLast] else [cs]

/-- Whether a text is taken for a timestamp without being tagged. -/
def isTimestamp (cs : List Char) : Bool :=
  (withoutLastBreak cs).any fun cs =>
    (writtenTimestamp? cs).any fun t => t.time.isSome || t.full

/-- The microseconds that the digits of a fraction stand for; the seventh and later digits do not
count. -/
def microseconds (fraction : List Char) : Nat :=
  let ds := fraction.take 6
  (ds ++ List.replicate (6 - ds.length) '0').foldl (fun n c => n * 10 + (c.toNat - 48)) 0

/-- The day or moment that a tagged text names. -/
def timestamp (cs : List Char) : Except Fault Node :=
  match (withoutLastBreak cs).findSome? writtenTimestamp? with
  | none => .error .timestamp
  | some t =>
    match t.time with
    | none => ((Date.of t.year t.month t.day).map Node.date).mapError Fault.calendar
    | some time =>
      ((DateTime.of t.year t.month t.day time.hour time.minute time.second
        (microseconds time.fraction) time.zone).map Node.datetime).mapError Fault.calendar

end Yaml

end PlainSchema
