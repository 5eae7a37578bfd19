import LineLint.Data.Table
import LineLint.Data.Value

/-! # Tables in TOML

A document grows a tree of tables.  Each table remembers how it came about,
because that decides what may still be added to it: a table with a header of its
own takes no dotted keys from outside, and only a table that was merely implied
by a longer header may still get a header.
-/
namespace LineLint
namespace Toml

open Data

/-- How a table came about. -/
inductive Origin where
  /-- It has a header of its own, or is the document itself. -/
  | header
  /-- It was implied by the header of a table inside it. -/
  | implied
  /-- It was implied by a dotted key. -/
  | dotted
  deriving DecidableEq, Repr

/-- What a key stands for while the document is being read. -/
inductive Node where
  /-- A finished value. -/
  | leaf (value : Value)
  /-- A table that may still grow. -/
  | table (origin : Origin) (entries : List (String × Node))
  /-- A list of tables, of which the last may still grow. -/
  | series (earlier : List Value) (last : List (String × Node))

/-- The entries of a table that may still grow. -/
abbrev Entries : Type :=
  Table Node

mutual

/-- The value that a node has come to. -/
def Node.value : Node → Value
  | .leaf value => value
  | .table _ entries => .object (membersOf entries)
  | .series earlier last => .array (earlier ++ [.object (membersOf last)])

/-- The members that entries have come to. -/
def membersOf : List (String × Node) → List (String × Value)
  | [] => []
  | (key, node) :: entries => (key, node.value) :: membersOf entries

end

/-- Sets a key to a value below a table, going down a dotted path; `outermost` tells that the
table itself is meant.  A table on the way must have come about by dotted keys, or stand on the
way to one that does. -/
def assign (key : String) (value : Value) :
    List String → Bool → Origin → Entries → Option Entries
  | [], outermost, origin, entries =>
    if !outermost && origin != .dotted then none
    else
      match entries.get? key with
      | some _ => none
      | none => some (entries.put key (.leaf value))
  | part :: path, _, _, entries =>
    match entries.get? part with
    | none =>
      (assign key value path false .dotted []).map fun inner =>
        entries.put part (.table .dotted inner)
    | some (.leaf _) => none
    | some (.table .header _) => none
    | some (.table origin inner) =>
      (assign key value path false origin inner).map fun inner =>
        entries.put part (.table origin inner)
    | some (.series earlier last) =>
      (assign key value path false .header last).map fun last =>
        entries.put part (.series earlier last)

/-- Changes the table at the end of a path of headers, which implies the tables on its way. -/
def changeAt (change : Entries → Option Entries) : List String → Entries → Option Entries
  | [], entries => change entries
  | part :: path, entries =>
    match entries.get? part with
    | none =>
      (changeAt change path []).map fun inner => entries.put part (.table .implied inner)
    | some (.leaf _) => none
    | some (.table origin inner) =>
      (changeAt change path inner).map fun inner => entries.put part (.table origin inner)
    | some (.series earlier last) =>
      (changeAt change path last).map fun last => entries.put part (.series earlier last)

/-- Gives a table its header.  A table that was implied before moves to the end. -/
def openTable (key : String) (entries : Entries) : Option Entries :=
  match entries.get? key with
  | none => some (entries.put key (.table .header []))
  | some (.table .implied inner) => some ((entries.erase key).put key (.table .header inner))
  | some _ => none

/-- Adds a table to a list of tables. -/
def openItem (key : String) (entries : Entries) : Option Entries :=
  match entries.get? key with
  | none => some (entries.put key (.series [] []))
  | some (.series earlier last) =>
    some (entries.put key (.series (earlier ++ [.object (membersOf last)]) []))
  | some _ => none

end Toml
end LineLint
