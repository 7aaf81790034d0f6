/-
Module: FunctionBundler.Environment.Query
Purpose: What a build environment wants from its surroundings.
Trusted boundary: none
Main exports:
  Query, Query.Answer, Work, ask
-/
import FunctionBundler.Failure
import FunctionBundler.Program

namespace FunctionBundler.Environment

/-- What an environment wants from its surroundings. -/
inductive Query where
  | present (path : Path)
  | installed (program : String)
  | run (program : String) (arguments : List String)
  | launch (image mount : String)
  | execute (container program : String) (arguments : List String)
  | remove (container : String)
deriving DecidableEq

/-- What is answered to a query. -/
abbrev Query.Answer : Query → Type
  | .present _ | .installed _ => Bool
  | .run _ _ | .launch _ _ | .execute _ _ _ => Except Failure String
  | .remove _ => Except Failure Unit

/-- A computation that asks these queries. -/
abbrev Work := Program Query Query.Answer

/-- Ask one query. -/
def ask (query : Query) : Work query.Answer :=
  Program.query query

end FunctionBundler.Environment
