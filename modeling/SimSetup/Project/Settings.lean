import SimSetup.Toml.Scalar

/-!
# Settings in a document

A group of settings is a table. It may also be an array, which gives the settings in their order and
may stop early; what is not given has a default, and what is given beyond is ignored. A date or time
stands for a table with one entry.
-/

namespace SimSetup.Project

open Toml (Table)

/-- The key that marks a table as the stand-in for a date or time. -/
def dateKey : String := "$__toml_private_datetime"

inductive Group
  | named (entries : Table)
  | listed (items : List Toml.Value)

def Group.ofValue? : Toml.Value → Option Group
  | .table entries => some (.named entries)
  | .array items => some (.listed items)
  | .datetime d => some (.named [(dateKey, .string d.text)])
  | _ => none

def Group.get? (g : Group) (name : String) (position : Nat) : Option Toml.Value :=
  match g with
  | named entries => entries.lookup name
  | listed items => items[position]?

def Group.setting (g : Group) (name : String) (position : Nat) (kind : Toml.Value → Option α)
    (default : α) : Option α :=
  match g.get? name position with
  | none => some default
  | some v => kind v

def text? : Toml.Value → Option String
  | .string s => some s
  | _ => none

def flag? : Toml.Value → Option Bool
  | .boolean b => some b
  | _ => none

def dateOf? (v : Toml.Value) : Option Toml.DateTime := do
  Toml.dateTime.run? (← text? v).toList

mutual

/-- A value as it is kept: stand-ins are dates again, and the keys of tables are in increasing
order. -/
def settled : Toml.Value → Option Toml.Value
  | .array items => (settledItems items).map .array
  | .table entries =>
    match entries with
    | (key, v) :: rest =>
      if key = dateKey then (dateOf? v).map .datetime
      else do
        let kept := (key, ← settled v) :: (← settledEntries rest)
        return .table (kept.mergeSort fun a b => a.1 ≤ b.1)
    | [] => some (.table [])
  | v => some v

def settledItems : List Toml.Value → Option (List Toml.Value)
  | [] => some []
  | v :: vs => do return (← settled v) :: (← settledItems vs)

def settledEntries : Table → Option Table
  | [] => some []
  | (key, v) :: rest => do return (key, ← settled v) :: (← settledEntries rest)

end

end SimSetup.Project
