import FixtureCheck.Yaml.Node
import FixtureCheck.Yaml.Token.Lexer

/-!
# Reading YAML

`document` reads the only document of a text as a node; `parse` gives its value. A reader takes the tokens that are left
and knows the anchors so far, so an alias stands for the node it names. Every reader gets one token further before it
calls itself again, except where a node turns out to be a collection; the number of steps is bounded by the number of
tokens.
-/

namespace FixtureCheck.Yaml

/-- The tokens left, the anchors so far and the handles of tags. -/
structure Reader where
  tokens : List Token
  /-- The nodes of anchors; none while a node is being read. -/
  anchors : List (String × Option Node) := []
  handles : List (String × String) := []

/-- Readers of nodes. -/
abbrev Reading := StateT Reader (Except YamlError)

namespace Reading

/-- The next token. -/
def peek : Reading Token := do
  return (← get).tokens.headD ⟨.streamEnd, default⟩

/-- Takes the next token. -/
def take : Reading Token := do
  let token ← peek
  modify fun r => { r with tokens := r.tokens.drop 1 }
  return token

/-- Is the next token of a kind? -/
def isNext (p : TokenKind → Bool) : Reading Bool := do
  return p (← peek).kind

/-- Failure at a place. -/
def fail {α : Type} (text : String) (mark : Mark) (context : Option Context := none) : Reading α :=
  throw (.problem text (some mark) context)

/-- A node for what is not there. -/
def empty (mark : Mark) : Node := .scalar .null "" mark

/-- The tag that is written in front of a node. -/
def resolveTag (start mark : Mark) (handle : Option String) (suffix : String) : Reading Tag := do
  match handle with
  | none => return .ofText suffix
  | some handle =>
    match (← get).handles.lookup handle with
    | some begin_ => return .ofText (begin_ ++ suffix)
    | none =>
      fail ("found undefined tag handle " ++ Text.quoted handle) mark (some ⟨"while parsing a node", some start⟩)

/-- The anchor and the tag in front of a node, in either order. -/
def properties : Reading (Option (String × Mark) × Option Tag) := do
  let start := (← peek).mark
  let anchor? : Reading (Option (String × Mark)) := do
    match (← peek).kind with
    | .anchor name => return some (name, (← take).mark)
    | _ => return none
  let tag? : Reading (Option Tag) := do
    match (← peek).kind with
    | .tag handle suffix => return some (← resolveTag start (← take).mark handle suffix)
    | _ => return none
  match ← anchor? with
  | some anchor => return (some anchor, ← tag?)
  | none =>
    let tag ← tag?
    return (← if tag.isSome then anchor? else pure none, tag)

/-- Notes that the node of an anchor is being read. -/
def openAnchor : Option (String × Mark) → Reading Unit
  | none => return
  | some (name, mark) => do
    if ((← get).anchors.lookup name).isSome then
      fail "second occurrence" mark (some ⟨"found duplicate anchor " ++ Text.quoted name ++ "; first occurrence", none⟩)
    modify fun r => { r with anchors := (name, none) :: r.anchors }

/-- Notes the node of an anchor. -/
def closeAnchor (anchor : Option (String × Mark)) (node : Node) : Reading Node := do
  if let some (name, _) := anchor then modify fun r => { r with anchors := (name, some node) :: r.anchors }
  return node

/-- The node that an alias names. -/
def aliased (name : String) (mark : Mark) : Reading Node := do
  match (← get).anchors.lookup name with
  | some (some node) => return node
  | _ => fail ("found undefined alias " ++ Text.quoted name) mark

/-- Does nothing stand where a key or a value of a block may stand? -/
def endsBlockPart : TokenKind → Bool
  | .key | .value | .blockEnd => true
  | _ => false

/-- Does nothing stand where a key or a value of a flow collection may stand? -/
def endsFlowPart (ending : TokenKind) (kind : TokenKind) : Bool := kind == .flowEntry || kind == ending

mutual

/-- A node, in a block or in a flow collection. A sequence that is a value of a mapping needs no deeper indentation. -/
def node (n : Nat) (inBlock isValue : Bool) : Reading Node := do
  match n with
  | 0 => fail "nesting too deep" (← peek).mark
  | n + 1 =>
    let first ← peek
    if let .reference name := first.kind then
      let _ ← take
      return ← aliased name first.mark
    let (anchor, tag) ← properties
    openAnchor anchor
    let start := first.mark
    let seqTag := if tag.all (· == .unknown "!") then .seq else tag.getD .seq
    let mapTag := if tag.all (· == .unknown "!") then .map else tag.getD .map
    let token ← peek
    let content : Reading Node := match token.kind with
      | .blockEntry =>
        if isValue then do return .sequence seqTag (← items n token.mark .blockEntry) start
        else noContent inBlock start anchor tag
      | .scalar text isPlain => do
        let _ ← take
        let tag := match tag with
          | none => if isPlain then Tag.ofPlain text else .str
          | some (.unknown "!") => Tag.ofPlain text
          | some tag => tag
        return .scalar tag text start
      | .flowSequence => do
        let _ ← take
        return .sequence seqTag (← flowItems n token.mark true) start
      | .flowMapping => do
        let _ ← take
        return .mapping mapTag (← flowEntries n token.mark true) start
      | .blockSequence =>
        if inBlock then do
          let _ ← take
          return .sequence seqTag (← items n token.mark .blockEnd) start
        else noContent inBlock start anchor tag
      | .blockMapping =>
        if inBlock then do
          let _ ← take
          return .mapping mapTag (← entries n token.mark) start
        else noContent inBlock start anchor tag
      | _ => noContent inBlock start anchor tag
    closeAnchor anchor (← content)
termination_by (n, 0)
where
  /-- A node that has an anchor or a tag but no content. -/
  noContent (inBlock : Bool) (start : Mark) (anchor : Option (String × Mark)) (tag : Option Tag) : Reading Node := do
    match anchor, tag with
    | none, none =>
      let token ← peek
      let kind := if inBlock then "block" else "flow"
      fail s!"expected the node content, but found '{token.kind.text}'" token.mark
        (some ⟨s!"while parsing a {kind} node", some start⟩)
    | _, tag =>
      match tag with
      | none | some (.unknown "!") => return .scalar .null "" start
      | some tag => return .scalar tag "" start

/-- The items of a block sequence; one without its own indentation ends where no item follows. -/
def items (n : Nat) (start : Mark) (ending : TokenKind) : Reading (List Node) := do
  match n with
  | 0 => fail "nesting too deep" start
  | n + 1 =>
    let token ← peek
    if token.kind == .blockEntry then
      let _ ← take
      let isEmpty ← isNext fun kind =>
        kind == .blockEntry || kind == .blockEnd || (ending == .blockEntry && (kind == .key || kind == .value))
      let item ← if isEmpty then pure (empty token.mark) else node n true false
      return item :: (← items n start ending)
    else if ending == .blockEntry then return []
    else if token.kind == .blockEnd then
      let _ ← take
      return []
    else
      fail s!"expected <block end>, but found '{token.kind.text}'" token.mark
        (some ⟨"while parsing a block collection", some start⟩)
termination_by (n, 1)

/-- A key or a value of a block mapping, after its token. -/
def blockPart (n : Nat) (mark : Mark) : Reading Node := do
  if ← isNext endsBlockPart then return empty mark else node n true true
termination_by (n, 1)

/-- The entries of a block mapping. -/
def entries (n : Nat) (start : Mark) : Reading (List (Node × Node)) := do
  match n with
  | 0 => fail "nesting too deep" start
  | n + 1 =>
    let token ← peek
    match token.kind with
    | .key =>
      let _ ← take
      let key ← blockPart n token.mark
      let next ← peek
      let inner ← if next.kind == .value then do
        let _ ← take
        blockPart n next.mark
      else pure (empty next.mark)
      return (key, inner) :: (← entries n start)
    | .blockEnd =>
      let _ ← take
      return []
    | kind =>
      fail s!"expected <block end>, but found '{kind.text}'" token.mark
        (some ⟨"while parsing a block mapping", some start⟩)
termination_by (n, 1)

/-- A key or a value inside a flow collection. -/
def flowPart (n : Nat) (stops : TokenKind → Bool) (mark : Mark) : Reading Node := do
  if ← isNext stops then return empty mark else node n false false
termination_by (n, 1)

/-- The value after a key inside a flow collection; empty if there is none. -/
def flowValue (n : Nat) (ending : TokenKind) : Reading Node := do
  let token ← peek
  if token.kind == .value then
    let _ ← take
    flowPart n (endsFlowPart ending) token.mark
  else return empty token.mark
termination_by (n, 2)

/-- The items of a flow sequence. A key among them makes a mapping of one entry. -/
def flowItems (n : Nat) (start : Mark) (isFirst : Bool) : Reading (List Node) := do
  match n with
  | 0 => fail "nesting too deep" start
  | n + 1 =>
    if !(← isNext (· == .flowSequenceEnd)) then
      if !isFirst then
        let token ← peek
        if token.kind == .flowEntry then let _ ← take
        else
          fail s!"expected ',' or ']', but got '{token.kind.text}'" token.mark
            (some ⟨"while parsing a flow sequence", some start⟩)
      let token ← peek
      if token.kind == .key then
        let _ ← take
        let key ← flowPart n (fun kind => kind == .value || endsFlowPart .flowSequenceEnd kind) token.mark
        let inner ← flowValue n .flowSequenceEnd
        return .mapping .map [(key, inner)] token.mark :: (← flowItems n start false)
      else if token.kind != .flowSequenceEnd then
        let item ← node n false false
        return item :: (← flowItems n start false)
    let _ ← take
    return []
termination_by (n, 1)

/-- The entries of a flow mapping. -/
def flowEntries (n : Nat) (start : Mark) (isFirst : Bool) : Reading (List (Node × Node)) := do
  match n with
  | 0 => fail "nesting too deep" start
  | n + 1 =>
    if !(← isNext (· == .flowMappingEnd)) then
      if !isFirst then
        let token ← peek
        if token.kind == .flowEntry then let _ ← take
        else
          fail (s!"expected ',' or '\x7d', but got " ++ Text.quoted token.kind.text) token.mark
            (some ⟨"while parsing a flow mapping", some start⟩)
      let token ← peek
      if token.kind == .key then
        let _ ← take
        let key ← flowPart n (fun kind => kind == .value || endsFlowPart .flowMappingEnd kind) token.mark
        let inner ← flowValue n .flowMappingEnd
        return (key, inner) :: (← flowEntries n start false)
      else if token.kind != .flowMappingEnd then
        let key ← node n false false
        return (key, empty (← peek).mark) :: (← flowEntries n start false)
    let _ ← take
    return []
termination_by (n, 1)

end

/-! ## Documents -/

/-- The handles of tags that are always there. -/
def standardHandles : List (String × String) := [("!", "!"), ("!!", Tag.standardStart)]

/-- The directives in front of a document. -/
def directives : Nat → Bool → List (String × String) → Reading Unit
  | 0, _, _ => return
  | n + 1, hasVersion, own => do
    let token ← peek
    match token.kind with
    | .directive value =>
      let _ ← take
      match value with
      | .version major _ =>
        if hasVersion then fail "found duplicate YAML directive" token.mark
        else if major != 1 then fail "found incompatible YAML document (version 1.* is required)" token.mark
        else directives n true own
      | .tag handle start =>
        if (own.lookup handle).isSome then fail ("duplicate tag handle " ++ Text.quoted handle) token.mark
        else directives n hasVersion ((handle, start) :: own)
      | .other => directives n hasVersion own
    | _ => modify fun r => { r with handles := own ++ standardHandles }

/-- Takes the marks for the end of a document. -/
def skipEnds : Nat → Reading Unit
  | 0 => return
  | n + 1 => do
    if ← isNext (· == .documentEnd) then
      let _ ← take
      skipEnds n

/-- Is the token one that no content of a document begins with? -/
def isOutside : TokenKind → Bool
  | .directive _ | .documentStart | .documentEnd | .streamEnd => true
  | _ => false

/-- The contents of a document that is told apart by marks, up to its end. -/
def markedDocument (n : Nat) : Reading Node := do
  directives n false []
  let token ← peek
  if token.kind != .documentStart then
    fail s!"expected '<document start>', but found '{token.kind.text}'" token.mark
  let _ ← take
  let root ← if ← isNext isOutside then pure (empty token.mark) else node n true false
  return root

/-- The only document of a text; none if there is nothing in the text. -/
def document (n : Nat) : Reading (Option Node) := do
  set { ← get with handles := standardHandles }
  let root ←
    if ← isNext fun kind => kind == .streamEnd then return none
    else if ← isNext fun kind => !isOutside kind || kind == .documentEnd then node n true false
    else markedDocument n
  skipEnds n
  let token ← peek
  if token.kind == .streamEnd then return some root
  directives n false []
  let token ← peek
  if token.kind != .documentStart then
    fail s!"expected '<document start>', but found '{token.kind.text}'" token.mark
  fail "but found another document" token.mark
    (some ⟨"expected a single document in the stream", some root.mark⟩)

end Reading

/-- The value of the only document of a text; null if there is nothing in it. -/
def parse (text : String) : Except YamlError Json := do
  let tokens ← tokens text
  let size := 4 * tokens.length + 8
  let (root, _) ← (Reading.document size).run { tokens }
  match root with
  | none => return .null
  | some root => root.value (tokens.length + 2)

end FixtureCheck.Yaml
