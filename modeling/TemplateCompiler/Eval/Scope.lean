import TemplateCompiler.Json.Value

/-!
# Scopes

Variables live in scopes.  A scope refers to its parent by the slot it is kept
in, and a variable is looked up along the chain of parents.  Scopes are made and
released as on a stack: releasing a scope releases all that were made after it,
and its slot is used again.  The first scope is the root, which holds the data
and is never released.

Variables are bound when their scope is made.  Assignment only replaces the
value of a variable that some scope of the chain holds already.
-/

namespace TemplateCompiler

/-- Variables and their values.  Of several values for one variable the first
counts. -/
abbrev Bindings := List (String × Json)

namespace Bindings

/-- The bindings made one after the other; a later one hides an earlier one of
the same variable. -/
def ofList (entries : List (String × Json)) : Bindings :=
  entries.reverse

/-- Replaces the value of a variable that is bound. -/
def replace (name : String) (value : Json) : Bindings → Bindings
  | [] => []
  | (other, otherValue) :: entries =>
      if name = other then (name, value) :: entries
      else (other, otherValue) :: replace name value entries

end Bindings

/-- A scope: its own variables, and the slot of its parent. -/
structure Scope where
  bindings : Bindings
  parent : Option Nat

/-- The live scopes, each in the slot that is its place in the list. -/
structure Context where
  scopes : List Scope

namespace Context

/-- The context whose root holds some bindings. -/
def ofBindings (entries : List (String × Json)) : Context :=
  ⟨[⟨.ofList entries, none⟩]⟩

/-- The context of a data value: the fields of an object become variables, and
any other value has none. -/
def ofData (data : Json) : Context :=
  match data with
  | .object fields => ofBindings fields
  | _ => ofBindings []

def depth (context : Context) : Nat :=
  context.scopes.length

/-- Whether a slot holds a scope. -/
def isLive (context : Context) (slot : Nat) : Bool :=
  slot < context.depth

def parent? (context : Context) (slot : Nat) : Option Nat :=
  context.scopes[slot]?.bind (·.parent)

/-- The value of a variable in a scope itself, whatever its parents hold. -/
def local? (context : Context) (slot : Nat) (name : String) : Option Json :=
  context.scopes[slot]?.bind fun scope => scope.bindings.lookup name

/-- The slot of the nearest scope that holds a variable, among the first `bound`
scopes of the chain. -/
def ownerWithin (context : Context) (name : String) : (bound : Nat) → (slot : Nat) → Option Nat
  | 0, _ => none
  | bound + 1, slot =>
      match context.scopes[slot]? with
      | none => none
      | some scope =>
          if (scope.bindings.lookup name).isSome then some slot
          else scope.parent.bind (ownerWithin context name bound)

/-- The slot of the nearest scope of a chain that holds a variable.  No chain is
longer than the number of scopes. -/
def owner? (context : Context) (slot : Nat) (name : String) : Option Nat :=
  context.ownerWithin name context.depth slot

/-- The value of a variable in the nearest scope of a chain that holds it. -/
def get? (context : Context) (slot : Nat) (name : String) : Option Json :=
  (context.owner? slot name).bind fun owner => context.local? owner name

/-- Replaces the value of a variable in the nearest scope of a chain that holds
it. -/
def set? (context : Context) (slot : Nat) (name : String) (value : Json) : Option Context :=
  (context.owner? slot name).map fun owner =>
    ⟨context.scopes.modify owner fun scope =>
      { scope with bindings := scope.bindings.replace name value }⟩

/-- Makes a scope under a parent, and gives its slot. -/
def child (context : Context) (parent : Nat) (entries : List (String × Json)) : Context × Nat :=
  (⟨context.scopes ++ [⟨.ofList entries, some parent⟩]⟩, context.depth)

/-- Releases a scope and all that were made after it.  The root stays. -/
def release (context : Context) (slot : Nat) : Context :=
  if slot = 0 then context else ⟨context.scopes.take slot⟩

end Context

end TemplateCompiler
