/-!
Values of TOML, and the tables that a document builds up. Of texts, numbers and times only that they
are well formed is known.
-/

namespace EditorMarkdown.Toml

inductive Value where
  | bool (value : Bool)
  | scalar
  | array (items : List Value)
  | table (entries : List (String × Value))
  deriving Repr, Inhabited

namespace Value

def bool? : Value → Option Bool
  | .bool value => some value
  | _ => none

def table? : Value → Option (List (String × Value))
  | .table entries => some entries
  | _ => none

end Value

/-- How a table came about: as part of the name of another, by its own header, or by a key with
dots. -/
inductive Origin where
  | implied | header | dotted
  deriving DecidableEq, Repr

/-- What a name stands for while a document is read. The last table of an array of tables is still
open. -/
inductive Entry where
  | value (value : Value)
  | table (origin : Origin) (entries : List (String × Entry))
  | tables (closed : List (List (String × Entry))) (last : List (String × Entry))
  deriving Repr, Inhabited

abbrev Entries := List (String × Entry)

def entry? (name : String) (entries : Entries) : Option Entry :=
  (entries.find? fun entry => entry.1 = name).map (·.2)

def setEntry (name : String) (entry : Entry) : Entries → Entries
  | [] => [(name, entry)]
  | (other, old) :: rest =>
      if other = name then (other, entry) :: rest else (other, old) :: setEntry name entry rest

/-- Changes the entries of the table at a path. Tables on the way that are missing are implied, and
of an array of tables the last is meant. -/
def changeTable (change : Entries → Option Entries) : List String → Entries → Option Entries
  | [], entries => change entries
  | name :: path, entries =>
      match entry? name entries with
      | none =>
          (changeTable change path []).map fun inner =>
            setEntry name (.table .implied inner) entries
      | some (.table origin inner) =>
          (changeTable change path inner).map fun inner =>
            setEntry name (.table origin inner) entries
      | some (.tables closed last) =>
          (changeTable change path last).map fun last =>
            setEntry name (.tables closed last) entries
      | some (.value _) => none

def openTable (name : String) (entries : Entries) : Option Entries :=
  match entry? name entries with
  | none => some (setEntry name (.table .header []) entries)
  | some (.table .implied inner) => some (setEntry name (.table .header inner) entries)
  | some _ => none

def openNext (name : String) (entries : Entries) : Option Entries :=
  match entry? name entries with
  | none => some (setEntry name (.tables [] []) entries)
  | some (.tables closed last) => some (setEntry name (.tables (closed ++ [last]) []) entries)
  | some _ => none

/-- Sets the value of a key, which must be new; the dots of the key make tables. -/
def setValue (value : Value) : List String → Entries → Option Entries
  | [], _ => none
  | [name], entries =>
      match entry? name entries with
      | none => some (setEntry name (.value value) entries)
      | some _ => none
  | name :: path, entries =>
      match entry? name entries with
      | none =>
          (setValue value path []).map fun inner => setEntry name (.table .dotted inner) entries
      | some (.table .dotted inner) =>
          (setValue value path inner).map fun inner =>
            setEntry name (.table .dotted inner) entries
      | some _ => none

mutual
def Entry.toValue : Entry → Value
  | .value value => value
  | .table _ entries => .table (entriesToValues entries)
  | .tables closed last =>
      .array (closedToValues closed ++ [.table (entriesToValues last)])

def entriesToValues : List (String × Entry) → List (String × Value)
  | [] => []
  | (name, entry) :: rest => (name, entry.toValue) :: entriesToValues rest

def closedToValues : List (List (String × Entry)) → List Value
  | [] => []
  | entries :: rest => .table (entriesToValues entries) :: closedToValues rest
end

end EditorMarkdown.Toml
