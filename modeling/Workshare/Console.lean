import Workshare.Http.Interface

namespace Workshare.Console

/-- What stands before the first blank, and what stands behind it. -/
def splitBlank (cs : List Char) : List Char × List Char :=
  (cs.takeWhile (· ≠ ' '), (cs.dropWhile (· ≠ ' ')).drop 1)

/-- A method, a target and a JSON body, with a blank between them. -/
def readRequest (line : String) : Http.Request :=
  let cs := line.toList.takeWhile fun c => c ≠ '\n' && c ≠ '\r'
  let (method, rest) := splitBlank cs
  let (target, body) := splitBlank rest
  ⟨String.ofList method, String.ofList target, "application/json", String.ofList body⟩

def writeResponse (r : Http.Response) : String :=
  toString r.status ++ (r.body.map fun b => " " ++ b.text).getD ""

end Workshare.Console
