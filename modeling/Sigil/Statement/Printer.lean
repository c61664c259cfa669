import Sigil.Statement.Basic
import Sigil.Token.Balanced

/-!
The written form of a statement. Arguments stand in parentheses with a comma behind each; so do values
and bounds, unless they are not balanced, which a line can only hold bare.
-/
namespace Sigil.Statement

def inParens (text : Text) : Text := '(' :: (text ++ [')'])

def renderValue (text : Text) : Text := if Token.isBalanced text then inParens text else text

def renderCall (call : Call) : Text :=
  '!' :: (call.module ++ ' ' :: (call.name ++ ':' :: call.args.flatMap fun arg => ' ' :: (inParens arg ++ [','])))

def renderFlags : List Text → Text
  | [] => []
  | [flag] => flag
  | flag :: rest => flag ++ '/' :: renderFlags rest

def render : Statement → Text
  | .call site => renderCall site
  | .assign a =>
    '$' :: (a.name ++ ' ' :: (a.type.name ++ '[' :: (renderFlags a.flags ++ "] = ".toList ++ renderValue a.value)))
  | .openLoop name lower upper =>
    "@n $".toList ++ name ++ ' ' :: (renderValue lower ++ ' ' :: renderValue upper)
  | .loopBack name => "@b $".toList ++ name
  | .conditional label condition => "?if $".toList ++ label ++ " | ".toList ++ condition
  | .nothing => []

end Sigil.Statement
