import Parley.Bindings
import Parley.Session.Basic

/-
What a host can ask of a playthrough.
-/

namespace Parley

/-- A request for the next line, from a document known by name or the default
one. -/
structure Request where
  key : String
  document : Option String := none

inductive Inquiry where
  | hasProperty
  | property
  | setProperty
  | hasMethod
  | callMethod

inductive Action where
  | lineAt (r : Request)
  | responses (keys : List (Option String)) (document : Option String)
  | isValid (line : Value)
  | check (condition : Value)
  | mutate (mutation : Value)
  | resolve (tokens : Value) (hint : Hint)
  | resolveTwice (tokens : Value) (hint : Hint)
  | value (token : Value) (hint : Hint)
  | set (name value : Value)
  | call (name args : Value)
  | arguments (args : Value)
  | interpolate (text : String) (replacements : List Value)
  | addListener (word id : String) (reaction : Reaction Hearer)
  | removeListener (word id : String)
  | subscribe (word id : String)
  | setStrict (strict : Bool)
  | setStates (indices : List Nat)
  | setDefault (document : Option String)
  | reset
  | inquire (index : Nat) (inquiry : Inquiry) (args : List Value)

inductive Command where
  | next (r : Request)
  /-- Goes on from the last line, or from another key if there is none. -/
  | follow (choice : Option Int) (other : String) (document : Option String)
  /-- Starts the second request when the first one pauses or ends. -/
  | overlap (first second : Request)
  | act (a : Action)

/-- What a command gives: a value or a fault, one of them for each of two
requests, or nothing if it ran out of visits. -/
inductive Reply where
  | single (r : Except Fault Value)
  | both (first second : Except Fault Value)
  | exhausted

end Parley
