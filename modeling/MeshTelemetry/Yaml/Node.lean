import MeshTelemetry.Data.Table
import MeshTelemetry.Yaml.Token

/-! The tree of a YAML document. An alias stands for the node whose anchor it names,
and stays an alias in the tree, since a node may hold an alias of itself. -/

set_option autoImplicit false

namespace MeshTelemetry.Yaml

inductive Node
  | scalar (text : String) (style : ScalarStyle) (tag : Option String)
  | sequence (items : List Node)
  | mapping (members : List (Node × Node))
  | alias (anchor : Nat)
deriving Inhabited

def Node.empty : Node := .scalar "" .plain none

structure Builder where
  tokens : List Token
  /-- Handles of tags and what they stand for; the first of equal ones counts. -/
  handles : List (String × String) := []
  names : Table String Nat := ∅
  nodes : Table Nat Node := ∅

/-- A step in building a document; none if a token is out of place. -/
abbrev Build := StateT Builder Option

namespace Build

def peek : Build (Option Token) := return (← get).tokens.head?

def drop : Build Unit := modify fun b => { b with tokens := b.tokens.tail }

def accept (t : Token) : Build Bool := do
  if (← peek) = some t then
    drop
    return true
  return false

def expect (t : Token) : Build Unit := do
  if !(← accept t) then failure

def next (ts : List Token) : Build Bool := do
  match ← peek with
  | some t => return ts.contains t
  | none => return false

/-- The number of an anchor's name: how many names there were before it. -/
def nameAnchor (name : String) : Build Nat := do
  let number := (← get).names.size
  modify fun b => { b with names := b.names.insert name number }
  return number

def anchorOf (name : String) : Build Nat := do
  match (← get).names.get? name with
  | some number => return number
  | none => failure

def fullTag (handle suffix : String) : Build String := do
  if handle.isEmpty then return suffix
  match (← get).handles.lookup handle with
  | some stem => return stem ++ suffix
  | none => failure

def properties : Build (Option String × Option (String × String)) := do
  match ← peek with
  | some (.anchor name) =>
    drop
    match ← peek with
    | some (.tag handle suffix) =>
      drop
      return (some name, some (handle, suffix))
    | _ => return (some name, none)
  | some (.tag handle suffix) =>
    drop
    match ← peek with
    | some (.anchor name) =>
      drop
      return (some name, some (handle, suffix))
    | _ => return (none, some (handle, suffix))
  | _ => return (none, none)

/-- Whether a block may open here, and whether a sequence may stand without one. -/
inductive Place
  | flow
  | block
  | entry
deriving DecidableEq

def endsEntry : List Token := [.key, .value, .blockEnd]

mutual

def node (place : Place) : Nat → Build Node
  | 0 => failure
  | fuel + 1 => do
    match ← peek with
    | some (.alias name) =>
      drop
      return .alias (← anchorOf name)
    | _ =>
      let (anchor, tag) ← properties
      let tag ← tag.mapM fun t => fullTag t.1 t.2
      let number ← anchor.mapM nameAnchor
      let n ← content place (anchor.isSome || tag.isSome) tag fuel
      if let some number := number then
        modify fun b => { b with nodes := b.nodes.insert number n }
      return n

/-- A node without its properties. With properties it may be left out. -/
def content (place : Place) (mayBeEmpty : Bool) (tag : Option String) : Nat → Build Node
  | 0 => failure
  | fuel + 1 => do
    match ← peek with
    | some .blockEntry =>
      if place = .entry then looseSequence [] fuel
      else if mayBeEmpty then return .scalar "" .plain tag
      else failure
    | some (.scalar text style) =>
      drop
      return .scalar text style tag
    | some .flowSequenceStart =>
      drop
      flowSequence true [] fuel
    | some .flowMappingStart =>
      drop
      flowMapping true [] fuel
    | some .blockSequenceStart =>
      drop
      blockSequence [] fuel
    | some .blockMappingStart =>
      drop
      blockMapping [] fuel
    | _ => if mayBeEmpty then return .scalar "" .plain tag else failure

def nodeUnless (ends : List Token) (place : Place) : Nat → Build Node
  | 0 => failure
  | fuel + 1 => do
    if ← next ends then return .empty
    node place fuel

def blockSequence (items : List Node) : Nat → Build Node
  | 0 => failure
  | fuel + 1 => do
    if ← accept .blockEntry then
      let item ← nodeUnless [.blockEntry, .blockEnd] .block fuel
      blockSequence (item :: items) fuel
    else
      expect .blockEnd
      return .sequence items.reverse

def looseSequence (items : List Node) : Nat → Build Node
  | 0 => failure
  | fuel + 1 => do
    if ← accept .blockEntry then
      let item ← nodeUnless (.blockEntry :: endsEntry) .block fuel
      looseSequence (item :: items) fuel
    else return .sequence items.reverse

def blockMapping (members : List (Node × Node)) : Nat → Build Node
  | 0 => failure
  | fuel + 1 => do
    if ← accept .key then
      let key ← nodeUnless endsEntry .entry fuel
      let value ← blockValue fuel
      blockMapping ((key, value) :: members) fuel
    else
      expect .blockEnd
      return .mapping members.reverse

def blockValue : Nat → Build Node
  | 0 => failure
  | fuel + 1 => do
    if ← accept .value then nodeUnless endsEntry .entry fuel
    else return .empty

def flowSequence (first : Bool) (items : List Node) : Nat → Build Node
  | 0 => failure
  | fuel + 1 => do
    if ← accept .flowSequenceEnd then return .sequence items.reverse
    if !first then expect .flowEntry
    if ← accept .key then
      let pair ← flowPair fuel
      flowSequence false (.mapping [pair] :: items) fuel
    else if ← accept .flowSequenceEnd then return .sequence items.reverse
    else
      let item ← node .flow fuel
      flowSequence false (item :: items) fuel

/-- A pair in a sequence. The token that shows its key to be left out is passed over. -/
def flowPair : Nat → Build (Node × Node)
  | 0 => failure
  | fuel + 1 => do
    if ← next [.value, .flowEntry, .flowSequenceEnd] then
      drop
      return (.empty, ← flowValue .flowSequenceEnd fuel)
    else
      let key ← node .flow fuel
      return (key, ← flowValue .flowSequenceEnd fuel)

def flowValue (close : Token) : Nat → Build Node
  | 0 => failure
  | fuel + 1 => do
    if ← accept .value then nodeUnless [.flowEntry, close] .flow fuel
    else return .empty

def flowMapping (first : Bool) (members : List (Node × Node)) : Nat → Build Node
  | 0 => failure
  | fuel + 1 => do
    if ← accept .flowMappingEnd then return .mapping members.reverse
    if !first then expect .flowEntry
    if ← accept .key then
      let key ← nodeUnless [.value, .flowEntry, .flowMappingEnd] .flow fuel
      let value ← flowValue .flowMappingEnd fuel
      flowMapping false ((key, value) :: members) fuel
    else if ← accept .flowMappingEnd then return .mapping members.reverse
    else
      let key ← node .flow fuel
      flowMapping false ((key, .empty) :: members) fuel

end

def standardHandles : List (String × String) := [("!", "!"), ("!!", "tag:yaml.org,2002:")]

/-- The directives before a document: at most one version, and each handle once. -/
def directives (versioned : Bool) (handles : List (String × String)) : Nat → Build Unit
  | 0 => failure
  | fuel + 1 => do
    match ← peek with
    | some (.version major minor) =>
      if versioned || major ≠ 1 || !(minor = 1 || minor = 2) then failure
      drop
      directives true handles fuel
    | some (.handle name stem) =>
      if (handles.lookup name).isSome then failure
      drop
      directives versioned ((name, stem) :: handles) fuel
    | _ => modify fun b => { b with handles := handles ++ standardHandles }

def atContent : Build Bool := do
  match ← peek with
  | none | some .documentStart | some .documentEnd | some (.version ..) | some (.handle ..) =>
    return false
  | _ => return true

def dropEnds : Nat → Build Unit
  | 0 => failure
  | fuel + 1 => do
    if ← accept .documentEnd then dropEnds fuel

def document (fuel : Nat) : Build Node := do
  let isBare := match ← peek with
    | some .documentStart | some (.version ..) | some (.handle ..) => false
    | _ => true
  directives false [] fuel
  let root ←
    if isBare then node .block fuel
    else
      expect .documentStart
      if ← atContent then node .block fuel else pure .empty
  dropEnds fuel
  if (← peek).isSome then failure
  return root

end Build

structure Document where
  root : Node
  anchors : Table Nat Node

/-- The document of a text. A text with nothing in it is an empty document, and one
with several documents is none. -/
def Document.ofText? (s : String) : Option Document := do
  let tokens ← Token.all s.toList
  if tokens.isEmpty then some ⟨.empty, ∅⟩
  else
    let (root, b) ← (Build.document (6 * (tokens.length + 1))).run { tokens }
    some ⟨root, b.nodes⟩

end MeshTelemetry.Yaml
