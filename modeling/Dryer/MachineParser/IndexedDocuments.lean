import Dryer.Library.OrderedMaps
import Dryer.MachineParser.SpanReceiver

/-!
# Indexed documents

The trees of YAML documents with the events that they are emitted as, and what the span index has
of a document: the keys of its mappings and the scalars and aliases of its sequences, at their
paths.
-/
namespace Dryer.MachineParser
open Library MachineSchema

/-! ## Documents -/

structure Scalar where
  value : String
  style : ScalarStyle
  mark : Marker

mutual

inductive Node where
  | scalar (scalar : Scalar)
  | alias (mark : Marker)
  | mapping (start «end» : Marker) (entries : Entries)
  | sequence (start «end» : Marker) (items : Items)

inductive Entries where
  | nil
  | cons (key : Scalar) (value : Node) (rest : Entries)

inductive Items where
  | nil
  | cons (item : Node) (rest : Items)

end

def Scalar.event (scalar : Scalar) : Event × Marker :=
  (.scalar scalar.value scalar.style, scalar.mark)

mutual

def Node.events : Node → List (Event × Marker)
  | .scalar s => [s.event]
  | .alias mark => [(.alias, mark)]
  | .mapping start «end» entries =>
    (.mappingStart, start) :: (entries.events ++ [(.mappingEnd, «end»)])
  | .sequence start «end» items =>
    (.sequenceStart, start) :: (items.events ++ [(.sequenceEnd, «end»)])

def Entries.events : Entries → List (Event × Marker)
  | .nil => []
  | .cons key value rest => key.event :: (value.events ++ rest.events)

def Items.events : Items → List (Event × Marker)
  | .nil => []
  | .cons item rest => item.events ++ rest.events

end

def Items.length : Items → ℕ
  | .nil => 0
  | .cons _ rest => rest.length + 1

/-- A document between the start and the end of the stream and its own. -/
def documentEvents (start «end» : Marker) (document : Node) : List (Event × Marker) :=
  [(.streamStart, start), (.documentStart, start)] ++ document.events ++
    [(.documentEnd, «end»), (.streamEnd, «end»)]

/-! ## What is indexed -/

section Contents

variable (sourceLines : List String)

def Scalar.indexed (scalar : Scalar) (path : List String) (flow : Bool) : String × SourceSpan :=
  (join path, scalarSpan sourceLines (join path) scalar.value scalar.style scalar.mark flow)

def itemSegment (idx : ℕ) : String := s!"[{idx}]"

/-- A scalar or an alias in a sequence. -/
def Node.item (path : List String) (flow : Bool) : Node → List (String × SourceSpan)
  | .scalar s => [s.indexed sourceLines path flow]
  | .alias mark => [(join path, aliasSpan sourceLines (join path) mark)]
  | .mapping _ _ _ => []
  | .sequence _ _ _ => []

mutual

/-- What is inside a node at a path. -/
def Node.contents (path : List String) : Node → List (String × SourceSpan)
  | .scalar _ => []
  | .alias _ => []
  | .mapping start _ entries => entries.contents path (startsFlow sourceLines start '{')
  | .sequence start _ items => items.contents path (startsFlow sourceLines start '[') 0

/-- Each key with what is inside its value. -/
def Entries.contents (path : List String) (flow : Bool) : Entries → List (String × SourceSpan)
  | .nil => []
  | .cons key value rest =>
    key.indexed sourceLines (path ++ [key.value]) flow ::
      (value.contents (path ++ [key.value]) ++ rest.contents path flow)

/-- The items from an index on. -/
def Items.contents (path : List String) (flow : Bool) : ℕ → Items → List (String × SourceSpan)
  | _, .nil => []
  | idx, .cons item rest =>
    item.item sourceLines (path ++ [itemSegment idx]) flow ++
      item.contents (path ++ [itemSegment idx]) ++ rest.contents path flow (idx + 1)

end

end Contents

/-! ## The receiver on a document -/

/-- More entries for an index. The last one of a path takes the place of those before. -/
def insertAll (map : Std.TreeMap String SourceSpan) (entries : List (String × SourceSpan)) :
    Std.TreeMap String SourceSpan :=
  entries.foldl (fun map entry => map.insert entry.1 entry.2) map

variable {map : Std.TreeMap String SourceSpan} {sourceLines path : List String} {flow : Bool}
  {frames : List Frame} {pushed : List Bool}

@[simp] theorem insertAll_nil : insertAll map [] = map := rfl

@[simp] theorem insertAll_cons (entry : String × SourceSpan)
    (entries : List (String × SourceSpan)) :
    insertAll map (entry :: entries) = insertAll (map.insert entry.1 entry.2) entries := rfl

theorem insertAll_append (entries more : List (String × SourceSpan)) :
    insertAll map (entries ++ more) = insertAll (insertAll map entries) more :=
  List.foldl_append

namespace Receiver

@[simp] theorem run_nil (rx : Receiver) : rx.run [] = rx := rfl

@[simp] theorem run_cons (rx : Receiver) (event : Event × Marker)
    (events : List (Event × Marker)) : rx.run (event :: events) = (rx.onEvent event).run events :=
  rfl

@[simp] theorem run_append (rx : Receiver) (events more : List (Event × Marker)) :
    rx.run (events ++ more) = (rx.run events).run more := List.foldl_append

/-! ### Single events -/

/-- A key is indexed, and its value comes next. -/
theorem onEvent_key (key : Scalar) :
    onEvent ⟨map, sourceLines, path, .map true flow :: frames, pushed, none⟩ key.event =
      ⟨insertAll map [key.indexed sourceLines (path ++ [key.value]) flow], sourceLines, path,
        .map false flow :: frames, pushed, some key.value⟩ := rfl

theorem enterContainer_value (key : String) :
    enterContainer ⟨map, sourceLines, path, .map false flow :: frames, pushed, some key⟩ =
      ⟨map, sourceLines, path ++ [key], .map false flow :: frames, true :: pushed, none⟩ := rfl

theorem enterContainer_item (idx : ℕ) :
    enterContainer ⟨map, sourceLines, path, .seq idx flow :: frames, pushed, none⟩ =
      ⟨map, sourceLines, path ++ [itemSegment idx], .seq (idx + 1) flow :: frames, true :: pushed,
        none⟩ := rfl

/-- A container that puts a segment on the path takes it off again. -/
theorem leaveContainer_run {rx : Receiver} {map' : Std.TreeMap String SourceSpan} {segment : String}
    {frame frame' : Frame} {body : List (Event × Marker)}
    (henter : rx.enterContainer =
      ⟨map, sourceLines, path ++ [segment], frames, true :: pushed, none⟩)
    (hbody : run ⟨map, sourceLines, path ++ [segment], frame :: frames, true :: pushed, none⟩ body =
      ⟨map', sourceLines, path ++ [segment], frame' :: frames, true :: pushed, none⟩) :
    ((rx.pushFrame frame).run body).leaveContainer =
      ⟨map', sourceLines, path, expectNextKey frames, pushed, none⟩ := by
  rw [pushFrame, henter, hbody]
  simp [leaveContainer]

/-! ### Whole nodes -/

mutual

/-- The value of a key ends where the next key is expected. -/
theorem run_value (key : String) : ∀ (node : Node) (map : Std.TreeMap String SourceSpan)
    (path : List String) (flow : Bool) (frames : List Frame) (pushed : List Bool),
    run ⟨map, sourceLines, path, .map false flow :: frames, pushed, some key⟩ node.events =
      ⟨insertAll map (node.contents sourceLines (path ++ [key])), sourceLines, path,
        .map true flow :: frames, pushed, none⟩
  | .scalar _, _, _, _, _, _ => rfl
  | .alias _, _, _, _, _, _ => rfl
  | .mapping _ _ entries, map, path, _, _, _ => by
    rw [Node.events, run_cons, run_append]
    exact leaveContainer_run (enterContainer_value key)
      (run_entries entries map (path ++ [key]) _ _ _)
  | .sequence _ _ items, map, path, _, _, _ => by
    rw [Node.events, run_cons, run_append]
    exact leaveContainer_run (enterContainer_value key)
      (run_items items map (path ++ [key]) 0 _ _ _)

/-- An item of any kind takes one index. -/
theorem run_item (idx : ℕ) : ∀ (node : Node) (map : Std.TreeMap String SourceSpan)
    (path : List String) (flow : Bool) (frames : List Frame) (pushed : List Bool),
    run ⟨map, sourceLines, path, .seq idx flow :: frames, pushed, none⟩ node.events =
      ⟨insertAll map (node.item sourceLines (path ++ [itemSegment idx]) flow ++
          node.contents sourceLines (path ++ [itemSegment idx])), sourceLines, path,
        .seq (idx + 1) flow :: frames, pushed, none⟩
  | .scalar _, _, _, _, _, _ => rfl
  | .alias _, _, _, _, _, _ => rfl
  | .mapping _ _ entries, map, path, _, _, _ => by
    rw [Node.events, run_cons, run_append]
    exact leaveContainer_run (enterContainer_item idx)
      (run_entries entries map (path ++ [itemSegment idx]) _ _ _)
  | .sequence _ _ items, map, path, _, _, _ => by
    rw [Node.events, run_cons, run_append]
    exact leaveContainer_run (enterContainer_item idx)
      (run_items items map (path ++ [itemSegment idx]) 0 _ _ _)

theorem run_entries : ∀ (entries : Entries) (map : Std.TreeMap String SourceSpan)
    (path : List String) (flow : Bool) (frames : List Frame) (pushed : List Bool),
    run ⟨map, sourceLines, path, .map true flow :: frames, pushed, none⟩ entries.events =
      ⟨insertAll map (entries.contents sourceLines path flow), sourceLines, path,
        .map true flow :: frames, pushed, none⟩
  | .nil, _, _, _, _, _ => rfl
  | .cons key value rest, map, path, flow, frames, pushed => by
    rw [Entries.events, run_cons, run_append, onEvent_key, run_value key.value value,
      run_entries rest, Entries.contents]
    simp [insertAll_append]

theorem run_items : ∀ (items : Items) (map : Std.TreeMap String SourceSpan)
    (path : List String) (idx : ℕ) (flow : Bool) (frames : List Frame) (pushed : List Bool),
    run ⟨map, sourceLines, path, .seq idx flow :: frames, pushed, none⟩ items.events =
      ⟨insertAll map (items.contents sourceLines path flow idx), sourceLines, path,
        .seq (idx + items.length) flow :: frames, pushed, none⟩
  | .nil, _, _, _, _, _, _ => rfl
  | .cons item rest, map, path, idx, flow, frames, pushed => by
    rw [Items.events, run_append, run_item idx item, run_items rest, Items.contents, Items.length,
      Nat.add_right_comm, Nat.add_assoc]
    simp only [insertAll_append]

end

/-- At the root there is no segment. -/
theorem run_root (node : Node) (map : Std.TreeMap String SourceSpan) :
    run ⟨map, sourceLines, [], [], [], none⟩ node.events =
      ⟨insertAll map (node.contents sourceLines []), sourceLines, [], [], [], none⟩ := by
  cases node with
  | scalar | «alias» => rfl
  | mapping start «end» entries =>
    rw [Node.events, run_cons, run_append]
    exact congrArg leaveContainer (run_entries entries map [] _ [] [false])
  | sequence start «end» items =>
    rw [Node.events, run_cons, run_append]
    exact congrArg leaveContainer (run_items items map [] 0 _ [] [false])

end Receiver

/-! ## What the index has -/

/-- The last entry of a path. -/
def lastSpan (entries : List (String × SourceSpan)) (path : String) : Option SourceSpan :=
  (entries.reverse.find? fun entry => entry.1 = path).map Prod.snd

theorem getElem?_insertAll (entries : List (String × SourceSpan)) (path : String) :
    (insertAll map entries)[path]? = (lastSpan entries path).or map[path]? := by
  induction entries using List.reverseRecOn with
  | nil => rfl
  | append_singleton entries entry ih =>
    rw [insertAll_append, insertAll_cons, insertAll_nil, Std.TreeMap.getElem?_insert]
    by_cases heq : entry.1 = path
    · subst heq
      simp [lastSpan]
    · have hne : compare entry.1 path ≠ .eq := by simpa using heq
      simp [lastSpan, heq, hne, ih]

def Entries.toList : Entries → List (Scalar × Node)
  | .nil => []
  | .cons key value rest => (key, value) :: rest.toList

def Items.toList : Items → List Node
  | .nil => []
  | .cons item rest => item :: rest.toList

def Node.isContainer : Node → Bool
  | .scalar _ | .alias _ => false
  | .mapping _ _ _ | .sequence _ _ _ => true

/-- The paths from a node to the keys and to the scalar and alias items inside it. -/
inductive Indexed : List String → Node → Prop
  | key {start «end» entries key value} (h : (key, value) ∈ Entries.toList entries) :
      Indexed [key.value] (.mapping start «end» entries)
  | value {start «end» entries key value path} (h : (key, value) ∈ Entries.toList entries)
      (hvalue : Indexed path value) : Indexed (key.value :: path) (.mapping start «end» entries)
  | item {start «end» items node} {idx : ℕ} (h : (Items.toList items)[idx]? = some node)
      (hleaf : node.isContainer = false) :
      Indexed [itemSegment idx] (.sequence start «end» items)
  | inside {start «end» items node path} {idx : ℕ} (h : (Items.toList items)[idx]? = some node)
      (hinside : Indexed path node) :
      Indexed (itemSegment idx :: path) (.sequence start «end» items)

theorem mem_item {node : Node} {p : String} :
    p ∈ (node.item sourceLines path flow).map Prod.fst ↔
      node.isContainer = false ∧ p = join path := by
  cases node <;> simp [Node.item, Node.isContainer, Scalar.indexed]

mutual

theorem mem_contents : ∀ (node : Node) (path : List String) (p : String),
    p ∈ (node.contents sourceLines path).map Prod.fst ↔
      ∃ inner, Indexed inner node ∧ p = join (path ++ inner)
  | .scalar _, _, _ => by
    simp only [Node.contents, List.map_nil, List.not_mem_nil, false_iff]
    rintro ⟨_, ⟨⟩, -⟩
  | .alias _, _, _ => by
    simp only [Node.contents, List.map_nil, List.not_mem_nil, false_iff]
    rintro ⟨_, ⟨⟩, -⟩
  | .mapping start «end» entries, path, p => by
    rw [Node.contents, mem_entries]
    constructor
    · rintro ⟨key, value, hmem, rfl | ⟨inner, hinner, rfl⟩⟩
      · exact ⟨_, .key hmem, rfl⟩
      · exact ⟨_, .value hmem hinner, rfl⟩
    · rintro ⟨_, hindexed, rfl⟩
      cases hindexed with
      | key hmem => exact ⟨_, _, hmem, .inl rfl⟩
      | value hmem hinner => exact ⟨_, _, hmem, .inr ⟨_, hinner, rfl⟩⟩
  | .sequence start «end» items, path, p => by
    rw [Node.contents, mem_items]
    constructor
    · rintro ⟨i, node, hnode, ⟨hleaf, rfl⟩ | ⟨inner, hinner, rfl⟩⟩
      · exact ⟨_, .item hnode hleaf, by rw [Nat.zero_add]⟩
      · exact ⟨_, .inside hnode hinner, by rw [Nat.zero_add]⟩
    · rintro ⟨_, hindexed, rfl⟩
      cases hindexed with
      | item hnode hleaf => exact ⟨_, _, hnode, .inl ⟨hleaf, by rw [Nat.zero_add]⟩⟩
      | inside hnode hinner => exact ⟨_, _, hnode, .inr ⟨_, hinner, by rw [Nat.zero_add]⟩⟩

theorem mem_entries : ∀ (entries : Entries) (path : List String) (flow : Bool) (p : String),
    p ∈ (entries.contents sourceLines path flow).map Prod.fst ↔
      ∃ key value, (key, value) ∈ entries.toList ∧ (p = join (path ++ [key.value]) ∨
        ∃ inner, Indexed inner value ∧ p = join (path ++ key.value :: inner))
  | .nil, _, _, _ => by simp [Entries.contents, Entries.toList]
  | .cons key value rest, path, flow, p => by
    have hvalue := mem_contents value (path ++ [key.value]) p
    have hrest := mem_entries rest path flow p
    rw [Entries.contents, List.map_cons, List.map_append, List.mem_cons, List.mem_append, hvalue,
      hrest]
    constructor
    · rintro (hkey | ⟨inner, hinner, rfl⟩ | ⟨key', value', hmem, h⟩)
      · exact ⟨key, value, .head _, .inl hkey⟩
      · exact ⟨key, value, .head _, .inr ⟨inner, hinner, by simp⟩⟩
      · exact ⟨key', value', .tail _ hmem, h⟩
    · rintro ⟨key', value', hmem, h⟩
      obtain heq | hmem := List.mem_cons.mp hmem
      · obtain ⟨rfl, rfl⟩ := Prod.mk.inj heq
        obtain hkey | ⟨inner, hinner, rfl⟩ := h
        · exact .inl hkey
        · exact .inr (.inl ⟨inner, hinner, by simp⟩)
      · exact .inr (.inr ⟨key', value', hmem, h⟩)

theorem mem_items : ∀ (items : Items) (path : List String) (idx : ℕ) (flow : Bool) (p : String),
    p ∈ (items.contents sourceLines path flow idx).map Prod.fst ↔
      ∃ i node, items.toList[i]? = some node ∧
        (node.isContainer = false ∧ p = join (path ++ [itemSegment (idx + i)]) ∨
          ∃ inner, Indexed inner node ∧ p = join (path ++ itemSegment (idx + i) :: inner))
  | .nil, _, _, _, _ => by simp [Items.contents, Items.toList]
  | .cons item rest, path, idx, flow, p => by
    have hitem := mem_contents item (path ++ [itemSegment idx]) p
    have hrest := mem_items rest path (idx + 1) flow p
    have hidx (i : ℕ) : idx + 1 + i = idx + (i + 1) := by omega
    simp only [hidx] at hrest
    rw [Items.contents, List.map_append, List.map_append, List.mem_append, List.mem_append,
      mem_item, hitem, hrest]
    constructor
    · rintro ((⟨hleaf, rfl⟩ | ⟨inner, hinner, rfl⟩) | ⟨i, node, hnode, h⟩)
      · exact ⟨0, item, rfl, .inl ⟨hleaf, rfl⟩⟩
      · exact ⟨0, item, rfl, .inr ⟨inner, hinner, by simp⟩⟩
      · exact ⟨i + 1, node, hnode, h⟩
    · rintro ⟨i, node, hnode, h⟩
      cases i with
      | zero =>
        obtain rfl := Option.some.inj hnode
        obtain ⟨hleaf, rfl⟩ | ⟨inner, hinner, rfl⟩ := h
        · exact .inl (.inl ⟨hleaf, rfl⟩)
        · exact .inl (.inr ⟨inner, hinner, by simp⟩)
      | succ i => exact .inr ⟨i, node, hnode, h⟩

end

theorem isSome_lastSpan_iff {entries : List (String × SourceSpan)} {path : String} :
    (lastSpan entries path).isSome ↔ path ∈ entries.map Prod.fst := by
  simp [lastSpan]

/-- The index of a document has the paths to its keys and to its scalar and alias items, each with
the last span of the path, and the receiver is back where it has started. -/
theorem document_is_indexed (source : String) (start «end» : Marker) (document : Node) :
    let rx := (Receiver.new source).run (documentEvents start «end» document)
    (∀ path : String, path ∈ rx.map ↔ ∃ segments, Indexed segments document ∧
      path = join segments) ∧
    (∀ path : String, rx.map[path]? = lastSpan (document.contents (lines source) []) path) ∧
    rx.path = [] ∧ rx.frames = [] ∧ rx.pushed = [] ∧ rx.pending = none := by
  have hrun : (Receiver.new source).run (documentEvents start «end» document) =
      ⟨insertAll ∅ (document.contents (lines source) []), lines source, [], [], [], none⟩ := by
    rw [documentEvents, Receiver.run_append, Receiver.run_append]
    exact Receiver.run_root document ∅
  have hget (path : String) : (insertAll ∅ (document.contents (lines source) []))[path]? =
      lastSpan (document.contents (lines source) []) path := by
    rw [getElem?_insertAll, Std.TreeMap.getElem?_emptyc, Option.or_none]
  rw [hrun]
  refine ⟨?_, hget, rfl, rfl, rfl, rfl⟩
  intro path
  rw [Std.TreeMap.mem_iff_isSome_getElem?, hget, isSome_lastSpan_iff, mem_contents]
  rfl

end Dryer.MachineParser
