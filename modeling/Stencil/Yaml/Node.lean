import Stencil.Yaml.Tag

/-!
# Nodes

A YAML text stands for a tree of nodes: scalars, sequences and mappings, each with a tag. An alias
stands for the node of its anchor; one that stands inside that very node is kept as a loop.

`Node.ofTokens` reads the tokens of a text that holds one document at most, and `Node.root` the text
itself.
-/

namespace Stencil.Yaml

/-- A node with its tag. -/
inductive Node where
  | scalar (tag text : String)
  | sequence (tag : String) (items : List Node)
  | mapping (tag : String) (entries : List (Node × Node))
  /-- An alias of a collection that it is part of. -/
  | loop (isMapping : Bool)
  deriving Repr

namespace Node

/-- The tokens still to be read, the handles of tags and the anchors seen. -/
structure Reading where
  tokens : List Token
  handles : List (String × String)
  anchors : List (String × Node) := []

/-- A step of reading nodes. It fails when the tokens are in no right order, and at a fault. -/
abbrev ReadM := StateT Reading (Except Fault)

/-- The next token. A fault is as far as one can read. -/
def next? : ReadM (Option Token) := do
  match (← get).tokens.head? with
  | some (.fault f) => throw f
  | t => return t

/-- Drops a token. -/
def skip : ReadM Unit :=
  modify fun s => { s with tokens := s.tokens.tail }

/-- Is the next token one of those given? The end of the text is none of them. -/
def nextIn (ts : List Token) : ReadM Bool := do
  match ← next? with
  | none => return false
  | some t => return ts.contains t

/-- Passes over the token if it is the next one. -/
def accept (t : Token) : ReadM Bool := do
  if ← nextIn [t] then
    skip
    return true
  else return false

/-- Demands a token. -/
def expect (t : Token) : ReadM Unit := do
  if ← accept t then pure () else throw .malformed

/-- The name for the next node, if there is one. -/
def anchor? : ReadM (Option String) := do
  match ← next? with
  | some (.anchor name) =>
    skip
    return some name
  | _ => return none

/-- Reads a tag: its handle, if there is one, and what follows that. -/
def tag? : ReadM (Option (Option String × String)) := do
  match ← next? with
  | some (.tag handle suffix) =>
    skip
    return some (handle, suffix)
  | _ => return none

/-- Writes a tag out in full. Its handle must be known. -/
def fullTag : Option (Option String × String) → ReadM (Option String)
  | none => return none
  | some (none, suffix) => return some suffix
  | some (some handle, suffix) => do
    match (← get).handles.lookup handle with
    | some start => return some (start ++ suffix)
    | none => throw .malformed

/-- Reads an anchor and a tag in either order. -/
def properties : ReadM (Option String × Option String) := do
  match ← anchor? with
  | some a => return (some a, ← fullTag (← tag?))
  | none =>
    match ← tag? with
    | none => return (none, none)
    | some t =>
      let anchor ← anchor?
      return (anchor, ← fullTag (some t))

/-- The node of a scalar that was left out. -/
def missing : Node :=
  .scalar (coreTag "null") ""

/-- A tag that asks for what goes without saying counts as none. -/
def given (tag : Option String) : Option String :=
  if tag == some "!" then none else tag

/-- The tag of a scalar. A plain one without a tag has that of its spelling, and so has one that
asks for what goes without saying. -/
def scalarTag (tag : Option String) (isPlain : Bool) (text : String) : String :=
  match tag with
  | none => if isPlain then tagOf text else coreTag "str"
  | some "!" => tagOf text
  | some t => t

/-- Notes the node of an anchor. -/
def name (anchor : Option String) (n : Node) : ReadM Unit :=
  match anchor with
  | none => pure ()
  | some a => modify fun s => { s with anchors := (a, n) :: s.anchors }

/-- An anchor must be new. -/
def checkNew (anchor : Option String) : ReadM Unit := do
  match anchor with
  | none => pure ()
  | some a => if ((← get).anchors.lookup a).isSome then throw .malformed else pure ()

/-- A node that has an anchor or a tag and nothing else is an empty scalar. -/
def bare (anchor tag : Option String) : ReadM Node :=
  if anchor.isNone && tag.isNone then throw .malformed
  else return .scalar (scalarTag tag true "") ""

mutual

/-- Reads a node. In a block, blocks may stand; where `indentless` holds, also a sequence whose
entries stand no deeper than their key. -/
def read (block indentless : Bool) : Nat → ReadM Node
  | 0 => throw .malformed
  | fuel + 1 => do
    if let some (.alias a) := ← next? then
      skip
      match (← get).anchors.lookup a with
      | some n => return n
      | none => throw .malformed
    else
      let (anchor, tag) ← properties
      let first ← next?
      checkNew anchor
      let n ← do
        let seqTag := (given tag).getD (coreTag "seq")
        let mapTag := (given tag).getD (coreTag "map")
        match first with
        | some (.scalar text isPlain) =>
          skip
          pure (Node.scalar (scalarTag tag isPlain text) text)
        | some .flowSequenceStart =>
          skip
          name anchor (.loop false)
          pure (Node.sequence seqTag (← flowItems true fuel))
        | some .flowMappingStart =>
          skip
          name anchor (.loop true)
          pure (Node.mapping mapTag (← flowEntries true fuel))
        | some .blockEntry =>
          if indentless then
            name anchor (.loop false)
            pure (Node.sequence seqTag (← indentlessItems fuel))
          else bare anchor tag
        | some .blockSequenceStart =>
          if block then
            skip
            name anchor (.loop false)
            pure (Node.sequence seqTag (← blockItems fuel))
          else bare anchor tag
        | some .blockMappingStart =>
          if block then
            skip
            name anchor (.loop true)
            pure (Node.mapping mapTag (← blockEntries fuel))
          else bare anchor tag
        | _ => bare anchor tag
      name anchor n
      return n

/-- Reads a node, or takes one for left out if one of the tokens is next. -/
def readUnless (stops : List Token) (block indentless : Bool) : Nat → ReadM Node
  | 0 => throw .malformed
  | fuel + 1 => do
    if ← nextIn stops then return missing else read block indentless fuel

/-- Reads the entries of a block sequence and its end. -/
def blockItems : Nat → ReadM (List Node)
  | 0 => throw .malformed
  | fuel + 1 => do
    if ← accept .blockEntry then
      let n ← readUnless [.blockEntry, .blockEnd] true false fuel
      return n :: (← blockItems fuel)
    else
      expect .blockEnd
      return []

/-- Reads the entries of a sequence that has no block of its own. -/
def indentlessItems : Nat → ReadM (List Node)
  | 0 => throw .malformed
  | fuel + 1 => do
    if ← accept .blockEntry then
      let n ← readUnless [.blockEntry, .key, .value, .blockEnd] true false fuel
      return n :: (← indentlessItems fuel)
    else return []

/-- Reads the entries of a block mapping and its end. -/
def blockEntries : Nat → ReadM (List (Node × Node))
  | 0 => throw .malformed
  | fuel + 1 => do
    let stops : List Token := [.key, .value, .blockEnd]
    if ← accept .key then
      let k ← readUnless stops true true fuel
      let v ← if ← accept .value then readUnless stops true true fuel else pure missing
      return (k, v) :: (← blockEntries fuel)
    else
      expect .blockEnd
      return []

/-- Reads the items of a flow sequence and its end. An item may be a mapping of one entry. -/
def flowItems (first : Bool) : Nat → ReadM (List Node)
  | 0 => throw .malformed
  | fuel + 1 => do
    if ← accept .flowSequenceEnd then return []
    if !first then expect .flowEntry
    if ← accept .key then
      let k ← readUnless [.value, .flowEntry, .flowSequenceEnd] false false fuel
      let v ← if ← accept .value then readUnless [.flowEntry, .flowSequenceEnd] false false fuel
        else pure missing
      return Node.mapping (coreTag "map") [(k, v)] :: (← flowItems false fuel)
    else if ← accept .flowSequenceEnd then return []
    else
      let n ← read false false fuel
      return n :: (← flowItems false fuel)

/-- Reads the entries of a flow mapping and its end. -/
def flowEntries (first : Bool) : Nat → ReadM (List (Node × Node))
  | 0 => throw .malformed
  | fuel + 1 => do
    if ← accept .flowMappingEnd then return []
    if !first then expect .flowEntry
    if ← accept .key then
      let k ← readUnless [.value, .flowEntry, .flowMappingEnd] false false fuel
      let v ← if ← accept .value then readUnless [.flowEntry, .flowMappingEnd] false false fuel
        else pure missing
      return (k, v) :: (← flowEntries false fuel)
    else if ← accept .flowMappingEnd then return []
    else
      let k ← read false false fuel
      return (k, missing) :: (← flowEntries false fuel)

end

/-- The handles of tags that need no directive. -/
def standardHandles : List (String × String) :=
  [("!", "!"), ("!!", coreStart)]

/-- Takes in the directives before a document: one version at most, of the first major number, and
one start for each handle. -/
def directives (versioned : Bool) (handles : List (String × String)) :
    List Token → Except Fault (List (String × String) × List Token)
  | .directive (.version major _) :: rest =>
    if versioned || major != 1 then .error .malformed else directives true handles rest
  | .directive (.tag handle start) :: rest =>
    if (handles.lookup handle).isSome then .error .malformed
    else directives versioned ((handle, start) :: handles) rest
  | .directive (.other _) :: rest => directives versioned handles rest
  | ts => .ok (handles ++ standardHandles, ts)

/-- Refuses misplaced tokens, unless a fault stands in their place. -/
def refuse {α : Type} : List Token → Except Fault α
  | .fault f :: _ => .error f
  | _ => .error .malformed

/-- Nothing but document ends may follow the one document. The directives of a further one are taken
in before it is refused. -/
def finished : List Token → Except Fault Unit
  | [] => .ok ()
  | .documentEnd :: ts => finished ts
  | ts => do refuse (← directives false [] ts).2

/-- Reads the one document of a text, from its content on. -/
def document (handles : List (String × String)) (tokens : List Token) :
    Except Fault (Option Node) := do
  let r ← (read true false (4 * tokens.length + 4)).run { tokens, handles }
  finished r.2.tokens
  return some r.1

/-- Reads what follows the mark at the start of a document. The content may be left out. -/
def started (handles : List (String × String)) : List Token → Except Fault (Option Node)
  | [] => return some missing
  | .documentEnd :: more => do
    finished more
    return some missing
  | .directive d :: more => do
    finished (.directive d :: more)
    return some missing
  | .documentStart :: _ => .error .malformed
  | tokens => document handles tokens

/-- Reads a document behind its directives, which has a mark at its start. -/
def marked (handles : List (String × String)) : List Token → Except Fault (Option Node)
  | .documentStart :: tokens => started handles tokens
  | tokens => refuse tokens

/-- Reads the tokens of a text. There may be no document in it. -/
def ofTokens (tokens : List Token) : Except Fault (Option Node) := do
  match tokens with
  | [] => return none
  | .directive _ :: _ | .documentStart :: _ =>
    let r ← directives false [] tokens
    marked r.1 r.2
  | tokens => document standardHandles tokens

/-- The node of the document in a text. -/
def root (text : String) : Except Fault (Option Node) :=
  match Token.scan text with
  | none => .error .malformed
  | some tokens => ofTokens tokens

end Node

end Stencil.Yaml
