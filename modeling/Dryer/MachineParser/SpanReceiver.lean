import Dryer.Library.Text
import Dryer.MachineParser.Spans

/-!
# The span receiver

The events of a YAML parser, and the receiver that builds the span index from them. The containers
around the next event are a stack of frames; where the index is in the document is a path of their
segments.
-/
namespace Dryer.MachineParser
open Library MachineSchema

/-! ## Events -/

/-- A place in the source, with a line from 1 and a column from 0. -/
structure Marker where
  line : ℕ
  col : ℕ

inductive ScalarStyle where
  | plain
  | singleQuoted
  | doubleQuoted
  | literal
  | folded
  deriving DecidableEq

inductive Event where
  | nothing
  | streamStart
  | streamEnd
  | documentStart
  | documentEnd
  | alias
  | scalar (value : String) (style : ScalarStyle)
  | sequenceStart
  | sequenceEnd
  | mappingStart
  | mappingEnd

inductive Frame where
  | map (expectKey flow : Bool)
  | seq (idx : ℕ) (flow : Bool)
  deriving DecidableEq

/-- The stacks of frames and of `pushed` have their tops at the front. -/
structure Receiver where
  map : Std.TreeMap String SourceSpan
  sourceLines : List String
  /-- The segments of the enclosing containers, the outermost first. -/
  path : List String
  frames : List Frame
  /-- Whether each container has put a segment on the path. -/
  pushed : List Bool
  /-- The key of the next value. -/
  pending : Option String

/-- A segment of an item joins without a dot. -/
def join (path : List String) : String :=
  path.foldl (fun out seg =>
    if startsWith seg "[" || out.isEmpty then out ++ seg else out ++ "." ++ seg) ""

/-! ## Ends of scalars -/

def leadingSpaces (line : String) : ℕ := (line.toList.takeWhile (· = ' ')).length

/-- An odd number of backslashes, from the characters before, the last one first. -/
def isEscaped (before : List Char) : Bool :=
  (before.takeWhile (· = Char.ofNat 0x5c)).length % 2 = 1

/-- The index of the first terminator from a start on. -/
def plainTerminator (chars : List Char) (start : ℕ) (flow : Bool) : Option ℕ :=
  (List.range chars.length).find? fun i =>
    let c := chars.getD i ' '
    let precededBySpace := i = start || isWhitespace (chars.getD (i - 1) ' ')
    let followedBySpace := (chars[i + 1]?).all isWhitespace
    start ≤ i && (flow && c ∈ [',', ']', '}'] || c = '#' && precededBySpace ||
      c = ':' && followedBySpace)

/-- The end of a plain scalar in a line, and whether a terminator ends it. -/
def plainLineEnd (chars : List Char) (start : ℕ) (flow : Bool) : ℕ × Bool :=
  let terminator := plainTerminator chars start flow
  let «end» := terminator.getD chars.length
  let scalar := (chars.take «end»).drop start
  (min «end» start + (scalar.reverse.dropWhile isWhitespace).length, terminator.isSome)

/-- The index of the quote that ends a scalar. The characters before are reversed; `skip` passes
over the second one of two single quotes. -/
def closingQuote (quote : Char) : (skip : Bool) → (before : List Char) → List Char → Option ℕ
  | _, _, [] => none
  | true, before, c :: rest => closingQuote quote false (c :: before) rest
  | false, before, c :: rest =>
    if c ≠ quote then closingQuote quote false (c :: before) rest
    else if quote = Char.ofNat 0x27 ∧ rest.head? = some quote then
      closingQuote quote true (c :: before) rest
    else if quote = Char.ofNat 0x22 ∧ isEscaped before then
      closingQuote quote false (c :: before) rest
    else some before.length

/-- The last line of a block scalar. The indent of its content is that of its first line. -/
def blockLastLine (baseIndent : ℕ) : Option ℕ → ℕ → List (String × ℕ) → ℕ
  | _, lastLine, [] => lastLine
  | contentIndent, lastLine, (line, lineIdx) :: rest =>
    if (trim line).isEmpty then
      blockLastLine baseIndent contentIndent
        (if contentIndent.isSome then lineIdx else lastLine) rest
    else
      let indent := leadingSpaces line
      match contentIndent with
      | some required =>
        if indent < required then lastLine
        else blockLastLine baseIndent contentIndent lineIdx rest
      | none =>
        if baseIndent < indent then blockLastLine baseIndent (some indent) lineIdx rest
        else lastLine

/-- The last line of a plain scalar and its end there. -/
def plainLastLine (baseIndent : ℕ) (flow : Bool) : ℕ × ℕ → List (String × ℕ) → ℕ × ℕ
  | last, [] => last
  | last, (line, lineIdx) :: rest =>
    if (trim line).isEmpty then plainLastLine baseIndent flow last rest
    else
      let indent := leadingSpaces line
      if indent ≤ baseIndent then last
      else
        let (lineEnd, stopped) := plainLineEnd line.toList indent flow
        if stopped then (lineIdx, lineEnd)
        else plainLastLine baseIndent flow (lineIdx, lineEnd) rest

section Ends

variable (sourceLines : List String)

def sourceEnd (mark : Marker) : SourcePosition :=
  match sourceLines.getLast? with
  | some line => ⟨sourceLines.length, line.toList.length + 1⟩
  | none => ⟨mark.line, mark.col + 2⟩

def quotedScalarEnd (mark : Marker) (quote : Char) : SourcePosition :=
  let startLine := mark.line - 1
  let closing := (sourceLines.zipIdx.drop startLine).findSome? fun (line, lineIdx) =>
    let start := if lineIdx = startLine then mark.col + 1 else 0
    let chars := line.toList
    (closingQuote quote false (chars.take start).reverse (chars.drop start)).map fun i =>
      (⟨lineIdx + 1, i + 2⟩ : SourcePosition)
  closing.getD (sourceEnd sourceLines mark)

def blockScalarEnd (mark : Marker) : SourcePosition :=
  let startIdx := mark.line - 1
  match sourceLines[startIdx]? with
  | none => ⟨mark.line, mark.col + 2⟩
  | some startLine =>
    let startsAtHeader := (startLine.toList[mark.col]?).any fun c => c = '|' || c = '>'
    let baseIndent := if startsAtHeader then leadingSpaces startLine else mark.col
    let contentIndent := if startsAtHeader then none else some baseIndent
    let lastLine := blockLastLine baseIndent contentIndent startIdx
      (sourceLines.zipIdx.drop (startIdx + 1))
    ⟨lastLine + 1, (sourceLines.getD lastLine "").toList.length + 1⟩

def plainScalarEnd (value : String) (mark : Marker) (flow : Bool) : SourcePosition :=
  match sourceLines[mark.line - 1]? with
  | none => ⟨mark.line, mark.col + value.toList.length + 1⟩
  | some line =>
    let (rawFirstEnd, terminated) := plainLineEnd line.toList mark.col flow
    let firstEnd := min rawFirstEnd (mark.col + value.toList.length)
    if terminated then ⟨mark.line, firstEnd + 1⟩
    else
      let (lastLine, lastEnd) := plainLastLine (leadingSpaces line) flow
        (mark.line - 1, max firstEnd (mark.col + value.toList.length))
        (sourceLines.zipIdx.drop mark.line)
      ⟨lastLine + 1, lastEnd + 1⟩

def scalarEnd (value : String) (style : ScalarStyle) (mark : Marker) (flow : Bool) :
    SourcePosition :=
  match style with
  | .singleQuoted => quotedScalarEnd sourceLines mark (Char.ofNat 0x27)
  | .doubleQuoted => quotedScalarEnd sourceLines mark (Char.ofNat 0x22)
  | .literal | .folded => blockScalarEnd sourceLines mark
  | .plain => plainScalarEnd sourceLines value mark flow

def scalarSpan (path value : String) (style : ScalarStyle) (mark : Marker) (flow : Bool) :
    SourceSpan where
  document := none
  path := some path
  start := ⟨mark.line, mark.col + 1⟩
  «end» := scalarEnd sourceLines value style mark flow

/-- An alias ends at white space or at a sign of the flow style. -/
def aliasSpan (path : String) (mark : Marker) : SourceSpan where
  document := none
  path := some path
  start := ⟨mark.line, mark.col + 1⟩
  «end» :=
    match sourceLines[mark.line - 1]? with
    | some line =>
      let name := (line.toList.drop mark.col).takeWhile fun c =>
        !isWhitespace c && c ∉ [',', '[', ']', '{', '}']
      ⟨mark.line, mark.col + name.length + 1⟩
    | none => ⟨mark.line, mark.col + 2⟩

/-- Whether a container is in the flow style. -/
def startsFlow (mark : Marker) (expected : Char) : Bool :=
  (sourceLines[mark.line - 1]?).bind (fun line => line.toList[mark.col]?) = some expected

end Ends

/-! ## The receiver -/

namespace Receiver

def new (source : String) : Receiver where
  map := ∅
  sourceLines := lines source
  path := []
  frames := []
  pushed := []
  pending := none

def enterContainer (rx : Receiver) : Receiver :=
  match rx.pending, rx.frames with
  | some key, _ =>
    { rx with pending := none, path := rx.path ++ [key], pushed := true :: rx.pushed }
  | none, .seq idx flow :: frames =>
    { rx with
      frames := .seq (idx + 1) flow :: frames
      path := rx.path ++ [s!"[{idx}]"]
      pushed := true :: rx.pushed }
  | none, _ => { rx with pushed := false :: rx.pushed }

/-- A container that was the value of a key makes room for the next key. -/
def expectNextKey : List Frame → List Frame
  | .map _ flow :: frames => .map true flow :: frames
  | frames => frames

def leaveContainer (rx : Receiver) : Receiver where
  map := rx.map
  sourceLines := rx.sourceLines
  path := if rx.pushed.headD false then rx.path.dropLast else rx.path
  frames := expectNextKey rx.frames.tail
  pushed := rx.pushed.tail
  pending := rx.pending

def onValueScalar (rx : Receiver) : Receiver :=
  match rx.frames with
  | .map _ flow :: frames => { rx with frames := .map true flow :: frames, pending := none }
  | _ => rx

def onScalar (rx : Receiver) (value : String) (style : ScalarStyle) (mark : Marker) : Receiver :=
  match rx.frames with
  | .map true flow :: frames =>
    let path := join (rx.path ++ [value])
    { rx with
      map := rx.map.insert path (scalarSpan rx.sourceLines path value style mark flow)
      frames := .map false flow :: frames
      pending := some value }
  | .seq idx flow :: frames =>
    let path := join (rx.path ++ [s!"[{idx}]"])
    { rx with
      map := rx.map.insert path (scalarSpan rx.sourceLines path value style mark flow)
      frames := .seq (idx + 1) flow :: frames }
  | _ => rx.onValueScalar

def onAlias (rx : Receiver) (mark : Marker) : Receiver :=
  match rx.frames with
  | .seq idx flow :: frames =>
    let path := join (rx.path ++ [s!"[{idx}]"])
    { rx with
      map := rx.map.insert path (aliasSpan rx.sourceLines path mark)
      frames := .seq (idx + 1) flow :: frames }
  | _ => rx.onValueScalar

def pushFrame (rx : Receiver) (frame : Frame) : Receiver :=
  { rx.enterContainer with frames := frame :: rx.enterContainer.frames }

def onEvent (rx : Receiver) : Event × Marker → Receiver
  | (.mappingStart, mark) => rx.pushFrame (.map true (startsFlow rx.sourceLines mark '{'))
  | (.sequenceStart, mark) => rx.pushFrame (.seq 0 (startsFlow rx.sourceLines mark '['))
  | (.mappingEnd, _) => rx.leaveContainer
  | (.sequenceEnd, _) => rx.leaveContainer
  | (.scalar value style, mark) => rx.onScalar value style mark
  | (.alias, mark) => rx.onAlias mark
  | _ => rx

/-- All events of a document. -/
def run (rx : Receiver) (events : List (Event × Marker)) : Receiver := events.foldl onEvent rx

end Receiver

/-- The index of a source, from the events of the parser and whether it has come to the end. -/
def SpanIndex.build (parse : String → List (Event × Marker) × Bool) (source : String)
    (document : Option String) : SpanIndex :=
  let (events, complete) := parse source
  { map := if complete then ((Receiver.new source).run events).map else ∅
    document }

end Dryer.MachineParser
