import LineScript.Fault
import LineScript.Json.Basic

/-!
# Declared libraries

A library is declared, not programmed: it is a *recipe* for a value. Besides plain data a recipe
may make actions, pending results and streams, and functions. A declared function matches lines
by a rule, handles them by a row of effects on the state and the engine, or generates
registrations. Effects and results are given by *expressions*, which may use the arguments and the
state.
-/

namespace LineScript.Library

/-- A failure that a declared function ends with. -/
inductive Thrown where
  | fault (fault : Fault)
  | abort (kind message : String)
deriving Repr

/-- The failure that a thrown one is. -/
def Thrown.failure : Thrown → Failure
  | .fault cause => .fault cause
  | .abort kind message => .abort kind message

/-- How a generating function gives its registrations. -/
inductive Giving where
  | returned
  | awaited
  | yielded
  | yieldedAsync
deriving DecidableEq, Repr

mutual

/-- How a value is made. -/
inductive Recipe where
  | plain (value : Value)
  | list (items : List Recipe)
  | tuple (items : List Recipe)
  | dict (entries : List (String × Recipe))
  | map (pairs : List (Recipe × Recipe))
  | object (fields : List (String × Recipe))
  | function (function : Function)
  | pending (result : Recipe)
  | stream (items : List Recipe) (asynchronous : Bool)
  | action (matcher handler options : Recipe) (settings : List (String × Recipe))
  | bundled
  | comments
  | option (name : String) (fallback : Recipe)
  | options (settings : List (String × Recipe))
  | actionOptions (deref : Recipe)

/-- A declared function: a matcher, a handler, or a generator of registrations. -/
inductive Function where
  | matching (name : String) (rule : MatchRule) (asynchronous : Bool)
  | handling (name : String) (effects : List Effect) (result : Expr) (asynchronous : Bool)
  | generating (name : String) (items : List Recipe) (giving : Giving) (failing : Option Thrown)

/-- How a declared function matches a line: it takes the whole line, gives a fixed result, fails,
takes what follows a given start, takes the words, or accepts one line only. -/
inductive MatchRule where
  | wholeLine
  | constant (result : Recipe)
  | failing (thrown : Thrown)
  | startingWith (start : String)
  | words
  | equalTo (line : Value)

/-- A value that depends on the arguments of a handler and on the state. -/
inductive Expr where
  | recipe (recipe : Recipe)
  | argument (index : Int)
  | arguments
  | entry (name : String)
  | joined (parts : List Expr)

/-- What a declared handler does. -/
inductive Effect where
  | set (name : String) (value : Expr)
  | append (name : String) (value : Expr)
  | increment (name : String)
  | erase (name : String)
  | print (value : Expr)
  | dereference (name : String) (value : Expr)
  | fail (thrown : Thrown)
  | failIf (name : String) (thrown : Thrown)
  | register (registration : Recipe)
  | run (script : Recipe)
  | runOn (script state : Recipe)

end

instance : Inhabited Recipe := ⟨.plain .null⟩

/-- The name of a declared function. -/
def Function.name : Function → String
  | .matching name .. => name
  | .handling name .. => name
  | .generating name .. => name

end LineScript.Library
