import Groundwork.Jinja.Value

set_option autoImplicit false

/- Why a template has no rendering. A template that cannot be read fails before any of it runs; else
the fault carries the line of the expression that failed. -/
namespace Groundwork.Jinja

inductive Problem where
  | raised (message : String)
  | undefinedValue
  | badEscape
  | unknownFilter (name : String)
  | unknownTest (name : String)
  | unknownFunction (name : String)
  | unknownMethod (kind : Kind) (name : String)
  | notCallable (kind : Kind)
  | tooManyArguments
  | missingArgument
  | notIterable
  | cannotVisit (kind : Kind)
  | noContainment
  | noPairs
  | noLength (kind : Kind)
  | noJoin (kind : Kind)
  | unsupported (operator : String) (left right : Kind)
  | tooLarge (operator left right : String)
  | cannotNegate
  | notUnpackable
  | wrongLength (expected got : Nat)
deriving DecidableEq

namespace Problem

def invalidOperation (detail : String) : String := "invalid operation: " ++ detail

def callableText : Kind → String
  | .sequence | .map => "object is not callable"
  | k => "value of type " ++ k.text ++ " is not callable"

def message : Problem → String
  | .raised text => invalidOperation text
  | .undefinedValue => "undefined value"
  | .badEscape => "bad string escape"
  | .unknownFilter name => "unknown filter: filter " ++ name ++ " is unknown"
  | .unknownTest name => "unknown test: test " ++ name ++ " is unknown"
  | .unknownFunction name => "unknown function: " ++ name ++ " is unknown"
  | .unknownMethod kind name =>
      "unknown method: " ++ kind.text ++ " has no method named " ++ name
  | .notCallable kind => invalidOperation (callableText kind)
  | .tooManyArguments => "too many arguments"
  | .missingArgument => "missing argument"
  | .notIterable => invalidOperation "not iterable"
  | .cannotVisit kind => invalidOperation (kind.text ++ " is not iterable")
  | .noContainment => invalidOperation "cannot perform a containment check on this value"
  | .noPairs => invalidOperation "cannot convert value into pairs"
  | .noLength kind => invalidOperation ("cannot calculate length of value of type " ++ kind.text)
  | .noJoin kind => invalidOperation ("cannot join value of type " ++ kind.text)
  | .unsupported operator left right =>
      invalidOperation ("tried to use " ++ operator ++ " operator on unsupported types "
        ++ left.text ++ " and " ++ right.text)
  | .tooLarge operator left right =>
      invalidOperation ("unable to calculate " ++ left ++ " " ++ operator ++ " " ++ right)
  | .cannotNegate => "invalid operation"
  | .notUnpackable => "cannot unpack: value is not iterable"
  | .wrongLength expected got =>
      "cannot unpack: sequence of wrong length (expected " ++ toString expected ++ ", got "
        ++ toString got ++ ")"

end Problem

inductive Fault where
  | unreadable
  | failed (problem : Problem) (line : Nat)
deriving DecidableEq

def Fault.message : Fault → String
  | .unreadable => "syntax error: unreadable template"
  | .failed problem line => problem.message ++ " (in <string>:" ++ toString line ++ ")"

end Groundwork.Jinja
