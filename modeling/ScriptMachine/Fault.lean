/-
This file holds the ways in which reading and running a program fail, and their wording. A value
thrown by a program is not one of them.
-/

namespace ScriptMachine

/-- What the modelled subset leaves out. -/
inductive Unsupported where
  | kind (shown : String)
  | generatorFunction
  | asyncFunction
  | parameter (shown : String)
  | declaratorTarget (shown : String)
  | catchParameter
  | finallyClause
  | tryWithoutCatch
  | regularExpression
  | computedWrite
  | property
  | propertyKey (shown : String)
  | stepping (shown : String)
  | evaluating (shown : String)
  | literal
  | assignmentOperator (shown : String)
  | binaryOperator (shown : String)
  | unaryOperator (shown : String)
  | logicalOperator (shown : String)
  | callAmongDeclarators
  | primitive (shown : String)
  | objectToPrimitive
  | truth
  | number
  | objectToString
  | symbolToString
  | hostValue (spelled : String)
  | ownPropertyTest
deriving DecidableEq

inductive BadWrite where
  | nullAddress
  | unboundAddress
  | notReference
deriving DecidableEq

/-- Situations that correct linking rules out. -/
inductive Unreachable where
  | returnToHalt
  | scopeExitToHalt
  | handlerExitToHalt
  | noNode
  | finished
deriving DecidableEq

inductive Mistyped where
  | notProgram (shown : String)
  | notObject
  | callInExpression
deriving DecidableEq

/-- A failure ends the operation in which it arises. -/
inductive Fault where
  | unsupported (cause : Unsupported)
  | unresolved (shown : String)
  | notCallable
  | badWrite (cause : BadWrite)
  | unreachable (cause : Unreachable)
  | mistyped (cause : Mistyped)
  | unparsable (message : String)
  | malformed
  | overflow
  | missingFile
  | notAFile
  | notAFolder
  | unnameable
  | nameTooLong
  | undecodable
deriving DecidableEq, Inhabited

def Unsupported.message : Unsupported → String
  | .kind shown => shown
  | .generatorFunction => "generator function"
  | .asyncFunction => "async function"
  | .parameter shown => "function parameter " ++ shown
  | .declaratorTarget shown => "declarator target " ++ shown
  | .catchParameter => "catch clause without a simple parameter"
  | .finallyClause => "finally clause"
  | .tryWithoutCatch => "try statement without catch"
  | .regularExpression => "regular expression literal"
  | .computedWrite => "computed member write"
  | .property => "Property"
  | .propertyKey shown => "property key " ++ shown
  | .stepping shown => shown ++ ".step"
  | .evaluating shown => shown ++ ".eval"
  | .literal => "Literal.eval"
  | .assignmentOperator shown => "assignment operator " ++ shown
  | .binaryOperator shown => "unrecognized binary operation: " ++ shown
  | .unaryOperator shown => "unrecognized unary operation: " ++ shown
  | .logicalOperator shown => "unrecognized logical operation: " ++ shown
  | .callAmongDeclarators => "call initializer in a multi-declarator declaration"
  | .primitive shown => "ToPrimitive " ++ shown
  | .objectToPrimitive => "OrdinaryToPrimitive"
  | .truth => "ToBoolean"
  | .number => "missing ToNumber() support"
  | .objectToString => "ToString(Object)"
  | .symbolToString => "ToString(Symbol)"
  | .hostValue spelled => "host value " ++ spelled
  | .ownPropertyTest => "builtin-hasOwnProperty"

def BadWrite.message : BadWrite → String
  | .nullAddress => "can't set NullPointer's value"
  | .unboundAddress => "set() of addr not in store"
  | .notReference => "PutValue passed non-ref first arg"

def Unreachable.message : Unreachable → String
  | .returnToHalt => "HaltKont.apply"
  | .scopeExitToHalt => "HaltKont.leaveScope"
  | .handlerExitToHalt => "HaltKont.leaveHandler"
  | .noNode => "State.node must be an ast node"
  | .finished => "shouldn't reach here"

def Mistyped.message : Mistyped → String
  | .notProgram shown => "expected a Program, got " ++ shown
  | .notObject => "member expression with lhs not an object"
  | .callInExpression => "call result used in expression position"

/-- The code and the text of a failure that the program itself reports. -/
def Fault.report : Fault → Option (String × String)
  | .unsupported cause => some ("E_UNSUPPORTED", cause.message)
  | .unresolved shown => some ("E_UNRESOLVED", "could not find " ++ shown)
  | .notCallable => some ("E_NOT_CALLABLE", "callee is not a function")
  | .badWrite cause => some ("E_BAD_WRITE", cause.message)
  | .unreachable cause => some ("E_UNREACHABLE", cause.message)
  | .mistyped cause => some ("E_TYPE", cause.message)
  | .unparsable message => some ("E_PARSE", message)
  | .malformed | .overflow | .missingFile | .notAFile | .notAFolder | .unnameable | .nameTooLong
  | .undecodable => none

/-- A reported failure is shown as its code in brackets and its text. -/
def Fault.message? (fault : Fault) : Option String :=
  fault.report.map fun (code, text) => "[" ++ code ++ "] " ++ text

end ScriptMachine
