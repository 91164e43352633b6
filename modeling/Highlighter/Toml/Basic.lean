set_option autoImplicit false

namespace Highlighter

/-- A `header` table has had its own heading, an `implied` one only headings of tables within it, a
`dotted` one keys with dots, and an `inline` one stands in braces. -/
inductive TableForm where
  | header
  | implied
  | dotted
  | inline
  deriving DecidableEq, Repr

inductive Toml where
  | whole (value : Int)
  | real (literal : String)
  | flag (value : Bool)
  | text (value : String)
  | list (items : List Toml)
  | table (form : TableForm) (entries : List (String × Toml))

namespace Toml

abbrev Entries := List (String × Toml)

def put (key : String) (value : Toml) : Entries → Entries
  | [] => [(key, value)]
  | (other, old) :: rest =>
    if other == key then (key, value) :: rest else (other, old) :: put key value rest

def assign (value : Toml) : List String → Entries → Option Entries
  | [], _ => none
  | [key], entries =>
    match entries.lookup key with
    | none => some (put key value entries)
    | some _ => none
  | key :: rest, entries =>
    match entries.lookup key with
    | none => (assign value rest []).map fun inner => put key (.table .dotted inner) entries
    | some (.table .dotted inner) =>
      (assign value rest inner).map fun inner => put key (.table .dotted inner) entries
    | some (.table .implied inner) =>
      (assign value rest inner).map fun inner => put key (.table .implied inner) entries
    | some _ => none

def openTable : List String → Entries → Option Entries
  | [], _ => none
  | [key], entries =>
    match entries.lookup key with
    | none => some (put key (.table .header []) entries)
    | some (.table .implied inner) => some (put key (.table .header inner) entries)
    | some _ => none
  | key :: rest, entries =>
    match entries.lookup key with
    | none => (openTable rest []).map fun inner => put key (.table .implied inner) entries
    | some (.table .inline _) => none
    | some (.table form inner) =>
      (openTable rest inner).map fun inner => put key (.table form inner) entries
    | some _ => none

def within (change : Entries → Option Entries) : List String → Entries → Option Entries
  | [], entries => change entries
  | key :: rest, entries =>
    match entries.lookup key with
    | some (.table form inner) =>
      (within change rest inner).map fun inner => put key (.table form inner) entries
    | _ => none

end Toml

end Highlighter
