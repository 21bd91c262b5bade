import Dryer.MachineSchema.MachineDoc

/-!
# Source spans

The places of the dotted paths of a YAML document. A path without an entry is located at its
nearest recorded ancestor.
-/
namespace Dryer.MachineParser
open MachineSchema

structure SpanIndex where
  map : Std.TreeMap String SourceSpan
  document : Option String

namespace SpanIndex

def getSpan (index : SpanIndex) (path : String) : Option SourceSpan :=
  index.map[path]?.map fun span => { span with document := index.document }

/-- The loop of `locate_span`, on the reversed path: cut it before its last `.` or `[`. -/
def locateAncestor (index : SpanIndex) : List Char → Option SourceSpan
  | [] => none
  | c :: rest =>
    if c = '.' ∨ c = '[' then
      (index.getSpan (String.ofList rest.reverse)).orElse fun _ => index.locateAncestor rest
    else index.locateAncestor rest

def locateSpan (index : SpanIndex) (path : String) : Option SourceSpan :=
  (index.getSpan path).orElse fun _ => index.locateAncestor path.toList.reverse

end SpanIndex

end Dryer.MachineParser
