/-
This file holds the operators of expressions. An operator that the subset gives no meaning is kept
as it was written.
-/

import ScriptMachine.Tree

namespace ScriptMachine

inductive BinaryOperator where
  | add
  | subtract
  | multiply
  | divide
  | remainder
  | less
  | greater
  | lessOrEqual
  | greaterOrEqual
  | equal
  | notEqual
  | identical
  | notIdentical
  | other (written : Tree)

inductive UnaryOperator where
  | not
  | negate
  | toNumber
  | discard
  | other (written : Tree)

inductive AssignmentOperator where
  | assign
  | other (written : Tree)

def BinaryOperator.ofTree : Tree → BinaryOperator
  | .text "+" => .add
  | .text "-" => .subtract
  | .text "*" => .multiply
  | .text "/" => .divide
  | .text "%" => .remainder
  | .text "<" => .less
  | .text ">" => .greater
  | .text "<=" => .lessOrEqual
  | .text ">=" => .greaterOrEqual
  | .text "==" => .equal
  | .text "!=" => .notEqual
  | .text "===" => .identical
  | .text "!==" => .notIdentical
  | written => .other written

def BinaryOperator.toTree : BinaryOperator → Tree
  | .add => .text "+"
  | .subtract => .text "-"
  | .multiply => .text "*"
  | .divide => .text "/"
  | .remainder => .text "%"
  | .less => .text "<"
  | .greater => .text ">"
  | .lessOrEqual => .text "<="
  | .greaterOrEqual => .text ">="
  | .equal => .text "=="
  | .notEqual => .text "!="
  | .identical => .text "==="
  | .notIdentical => .text "!=="
  | .other written => written

def UnaryOperator.ofTree : Tree → UnaryOperator
  | .text "!" => .not
  | .text "-" => .negate
  | .text "+" => .toNumber
  | .text "void" => .discard
  | written => .other written

def UnaryOperator.toTree : UnaryOperator → Tree
  | .not => .text "!"
  | .negate => .text "-"
  | .toNumber => .text "+"
  | .discard => .text "void"
  | .other written => written

def AssignmentOperator.ofTree : Tree → AssignmentOperator
  | .text "=" => .assign
  | written => .other written

def AssignmentOperator.toTree : AssignmentOperator → Tree
  | .assign => .text "="
  | .other written => written

end ScriptMachine
