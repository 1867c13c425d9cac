/-
TOML values, and how tables are put together.

A table remembers how it came to be, because that decides what may be added to it
later.  Headers lead through every table that was not written in braces, and
create the tables on their way; a table made in this way may still get a header
of its own, once.  Dotted keys lead only through tables that have no header, and
add keys only to tables that dotted keys have made.  Through an array of tables
the way leads to its last table.
-/

namespace ChangeImpact
namespace Toml

inductive Origin where
  /-- By a header of its own. -/
  | header
  /-- On the way of a header to a table further in. -/
  | implicit
  /-- On the way of a dotted key. -/
  | dotted
  /-- Written in braces. -/
  | inline
deriving DecidableEq, Repr

/-- TOML values.  Of a number in floating point only whether it is in range is kept, and
of a date or time only that it is one. -/
inductive Value where
  | string (s : String)
  /-- An integer, or a text in the form of one that stands for no number. -/
  | integer (n : Option Int)
  | float (inRange : Bool)
  | boolean (b : Bool)
  | moment
  | array (items : List Value)
  | table (origin : Origin) (entries : List (String × Value))
  /-- The tables of headers in double brackets. -/
  | tables (items : List Value)

/-- The entries of a table in their order. -/
abbrev Entries := List (String × Value)

namespace Value

/-- Whether all numbers in the value can be represented: integers as signed or unsigned
ones of 128 bits, others in double precision. -/
def inRange : Value → Bool
  | .string _ | .boolean _ | .moment => true
  | .integer n =>
    n.any fun n => -Int.ofNat (Nat.pow 2 127) ≤ n && n < Int.ofNat (Nat.pow 2 128)
  | .float ok => ok
  | .array items => items.attach.all fun v => v.1.inRange
  | .table _ entries => entries.attach.all fun e => e.1.2.inRange
  | .tables items => items.attach.all fun v => v.1.inRange
termination_by v => sizeOf v
decreasing_by
  · simp_wf; have := List.sizeOf_lt_of_mem v.2; omega
  · simp_wf
    have h := List.sizeOf_lt_of_mem e.2
    have : sizeOf e.1.2 < sizeOf e.1 := by cases e.1; simp only [Prod.mk.sizeOf_spec]; omega
    omega
  · simp_wf; have := List.sizeOf_lt_of_mem v.2; omega

end Value

namespace Entries

def get? (entries : Entries) (key : String) : Option Value :=
  entries.lookup key

/-- Gives a key that is present another value. -/
def replace (entries : Entries) (key : String) (v : Value) : Entries :=
  entries.map fun e => if e.1 = key then (key, v) else e

/-- Adds a key that is not present. -/
def insertNew? (entries : Entries) (key : String) (v : Value) : Option Entries :=
  match entries.get? key with
  | some _ => none
  | none => some (entries ++ [(key, v)])

end Entries

/-- How a path of keys leads through tables. -/
structure Way where
  /-- The tables it may enter. -/
  enters : Origin → Bool
  /-- The tables it makes where there are none. -/
  makes : Origin

def Way.header : Way where
  enters := (· ≠ .inline)
  makes := .implicit

def Way.dotted : Way where
  enters o := o = .implicit || o = .dotted
  makes := .dotted

/-- Changes the table that a path leads to.  `change` is told how that table came to be. -/
def Way.alter (w : Way) (change : Origin → Entries → Option Entries) :
    List String → Origin → Entries → Option Entries
  | [], origin, entries => change origin entries
  | key :: path, _, entries =>
    match entries.get? key with
    | none =>
      (w.alter change path w.makes []).map fun e => entries ++ [(key, .table w.makes e)]
    | some (.table o inner) =>
      if w.enters o then
        (w.alter change path o inner).map fun e => entries.replace key (.table o e)
      else none
    | some (.tables items) =>
      match items.getLast? with
      | some (.table o inner) =>
        (w.alter change path o inner).map fun e =>
          entries.replace key (.tables (items.dropLast ++ [.table o e]))
      | _ => none
    | some _ => none

namespace Entries

def assign? (entries : Entries) (path : List String) (key : String) (v : Value) :
    Option Entries :=
  Way.dotted.alter
    (fun origin e => if path.isEmpty || origin = .dotted then e.insertNew? key v else none)
    path .header entries

def openTable? (entries : Entries) (path : List String) (key : String) : Option Entries :=
  Way.header.alter
    (fun _ e =>
      match e.get? key with
      | none => some (e ++ [(key, .table .header [])])
      | some (.table .implicit inner) => some (e.replace key (.table .header inner))
      | some _ => none)
    path .header entries

/-- Adds a table to the array of tables of a header in double brackets. -/
def openItem? (entries : Entries) (path : List String) (key : String) : Option Entries :=
  Way.header.alter
    (fun _ e =>
      match e.get? key with
      | none => some (e ++ [(key, .tables [.table .header []])])
      | some (.tables items) => some (e.replace key (.tables (items ++ [.table .header []])))
      | some _ => none)
    path .header entries

/-- Adds a value under a dotted key to the table that a header has opened. -/
def assignAt? (entries : Entries) (header path : List String) (key : String) (v : Value) :
    Option Entries :=
  Way.header.alter (fun _ e => e.assign? path key v) header .header entries

end Entries
end Toml
end ChangeImpact
