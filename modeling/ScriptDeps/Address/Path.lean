import ScriptDeps.Address.Percent
import ScriptDeps.Text.Split

/-!
# Paths of addresses

A path is a row of segments. One dot stands for the place itself and two dots for the place above
it, and neither is a segment of its own.
-/

namespace ScriptDeps.Address

/-- The segment is a dot, which may be written with a percent sign. -/
def isDot (segment : List Char) : Bool := [".", "%2e", "%2E"].contains (String.ofList segment)

/-- The segment is two dots, each of which may be written with a percent sign. -/
def isDoubleDot (segment : List Char) : Bool :=
  ["..", "%2e%2e", "%2e%2E", "%2E%2e", "%2E%2E", "%2e.", "%2E.", ".%2e", ".%2E"].contains
    (String.ofList segment)

/-- The segment names a drive: a letter and a colon or a bar. -/
def isDrive : List Char → Bool
  | [letter, mark] => letter.isAlpha && (mark == ':' || mark == '|')
  | _ => false

/-- The segments without the last one; a drive at their start stays where paths may have drives. -/
def parent (drives : Bool) (segments : List (List Char)) : List (List Char) :=
  match segments with
  | [segment] => if drives && isDrive segment then [segment] else []
  | segments => segments.dropLast

/-- The segment as it stands behind others: a drive at the start has a colon. -/
def settled (drives : Bool) (before : List (List Char)) (segment : List Char) : List Char :=
  if drives && before.isEmpty && isDrive segment then segment.take 1 ++ [':'] else segment

/-- Put segments behind others and follow the dots among them. The last segment is empty where a
dot stands. -/
def follow (drives : Bool) : (path segments : List (List Char)) → List (List Char)
  | path, [] => path
  | path, [segment] =>
    if isDoubleDot segment then parent drives path ++ [[]]
    else if isDot segment then path ++ [[]]
    else path ++ [settled drives path segment]
  | path, segment :: next :: segments =>
    if isDoubleDot segment then follow drives (parent drives path) (next :: segments)
    else if isDot segment then follow drives path (next :: segments)
    else follow drives (path ++ [settled drives path segment]) (next :: segments)

/-- The segments of a written path, without its first slash. -/
def segmentsOf (isSlash : Char → Bool) (s : List Char) : List (List Char) :=
  (Text.splitWhere isSlash s).map (percentEncode outsidePath)

end ScriptDeps.Address
