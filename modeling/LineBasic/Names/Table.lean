import LineBasic.Source.Location

/-!
# Tables of names

A table holds names with the place each was first met at, in that order. No operation moves or drops
an entry, and a name is entered once.
-/

namespace LineBasic

set_option autoImplicit false

structure NameTable where
  entries : List (String × Location)
  deriving DecidableEq

namespace NameTable

def empty : NameTable := ⟨[]⟩

def names (table : NameTable) : List String := table.entries.map (·.1)

def size (table : NameTable) : Nat := table.entries.length

def has (table : NameTable) (name : String) : Bool := table.names.contains name

/-- The place of a name. -/
def get? (table : NameTable) (name : String) : Option Location := table.entries.lookup name

/-- Enters a name that is new; a name that is there keeps its place. -/
def note (table : NameTable) (name : String) (place : Location) : NameTable :=
  if table.has name then table else ⟨table.entries ++ [(name, place)]⟩

end NameTable

end LineBasic
