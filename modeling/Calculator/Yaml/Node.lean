import Calculator.Yaml.Resolve
import Calculator.Yaml.Token

namespace Calculator.Yaml

-- Tokens being read, and the values that were given a name with an anchor.
structure Feed where
  tokens : List Token
  anchors : List (String × Data) := []
  deriving Inhabited

namespace Feed

def next (feed : Feed) : Option Token := feed.tokens.head?

def advance (feed : Feed) : Feed := { feed with tokens := feed.tokens.tail }

-- Whether one of some tokens comes next.
def isNext (tokens : List Token) (feed : Feed) : Bool :=
  match feed.next with
  | some token => tokens.contains token
  | none => false

-- Passes a token that has to come next.
def expect (token : Token) (feed : Feed) : Option Feed :=
  if feed.next = some token then some feed.advance else none

end Feed

-- A mapping cannot have a list or a mapping as a key.
def isKey : Data → Bool
  | .list _ | .mapping _ => false
  | _ => true

def addEntry (key value : Data) (entries : List (Data × Data)) : Option (List (Data × Data)) :=
  if isKey key then some (Data.insert key value entries) else none

mutual

-- A value. Values that begin a block need `inBlock`; a sequence may stand at the indentation of
-- the mapping around it, where `inMapping` says so. `fuel` bounds the depth and the number of
-- entries; each function takes a token or asks one that does.
def node (inBlock inMapping : Bool) : Nat → Feed → Option (Data × Feed)
  | 0, _ => none
  | fuel + 1, feed =>
    match feed.next with
    | some (.alias name) => (feed.anchors.lookup name).map fun value => (value, feed.advance)
    | some (.anchor name) => do
      if (feed.anchors.lookup name).isSome then none
      let feed := feed.advance
      let (value, feed) ← (content inBlock inMapping fuel feed).or
        (if startsContent inBlock inMapping feed then none else some (.null, feed))
      return (value, { feed with anchors := (name, value) :: feed.anchors })
    | _ => content inBlock inMapping fuel feed

def content (inBlock inMapping : Bool) : Nat → Feed → Option (Data × Feed)
  | 0, _ => none
  | fuel + 1, feed =>
    match feed.next with
    | some (.scalar text true) => (resolve text).map fun value => (value, feed.advance)
    | some (.scalar text false) => some (.text text, feed.advance)
    | some .flowSequenceStart => flowItems true fuel feed.advance []
    | some .flowMappingStart => flowEntries true fuel feed.advance []
    | some .blockEntry => if inMapping then looseItems fuel feed [] else none
    | some .blockSequenceStart => if inBlock then blockItems fuel feed.advance [] else none
    | some .blockMappingStart => if inBlock then blockEntries fuel feed.advance [] else none
    | _ => none

-- Whether a value begins here.
def startsContent (inBlock inMapping : Bool) (feed : Feed) : Bool :=
  match feed.next with
  | some (.scalar ..) | some .flowSequenceStart | some .flowMappingStart => true
  | some .blockEntry => inMapping
  | some .blockSequenceStart | some .blockMappingStart => inBlock
  | _ => false

-- A value, or null where one of some tokens comes instead.
def nodeUnless (ends : List Token) (inBlock inMapping : Bool) :
    Nat → Feed → Option (Data × Feed)
  | 0, _ => none
  | fuel + 1, feed =>
    if feed.isNext ends then some (.null, feed) else node inBlock inMapping fuel feed

-- The items of a sequence in a block of its own.
def blockItems : Nat → Feed → List Data → Option (Data × Feed)
  | 0, _, _ => none
  | fuel + 1, feed, items =>
    if feed.isNext [.blockEntry] then do
      let (item, feed) ← nodeUnless [.blockEntry, .blockEnd] true false fuel feed.advance
      blockItems fuel feed (item :: items)
    else (feed.expect .blockEnd).map fun feed => (.list items.reverse, feed)

-- The items of a sequence at the indentation of the mapping around it.
def looseItems : Nat → Feed → List Data → Option (Data × Feed)
  | 0, _, _ => none
  | fuel + 1, feed, items =>
    if feed.isNext [.blockEntry] then do
      let (item, feed) ←
        nodeUnless [.blockEntry, .key, .value, .blockEnd] true false fuel feed.advance
      looseItems fuel feed (item :: items)
    else some (.list items.reverse, feed)

-- The entries of a mapping in a block.
def blockEntries : Nat → Feed → List (Data × Data) → Option (Data × Feed)
  | 0, _, _ => none
  | fuel + 1, feed, entries =>
    let ends := [Token.key, .value, .blockEnd]
    if feed.isNext [.key] then do
      let (key, feed) ← nodeUnless ends true true fuel feed.advance
      let (value, feed) ←
        if feed.isNext [.value] then nodeUnless ends true true fuel feed.advance
        else some (.null, feed)
      let entries ← addEntry key value entries
      blockEntries fuel feed entries
    else (feed.expect .blockEnd).map fun feed => (.mapping entries, feed)

-- The items of a sequence in brackets. A single entry of a mapping may stand as an item.
def flowItems (first : Bool) : Nat → Feed → List Data → Option (Data × Feed)
  | 0, _, _ => none
  | fuel + 1, feed, items =>
    if feed.isNext [.flowSequenceEnd] then some (.list items.reverse, feed.advance)
    else do
      let feed ← if first then some feed else feed.expect .flowEntry
      if feed.isNext [.flowSequenceEnd] then return (.list items.reverse, feed.advance)
      if feed.isNext [.key] then
        let (key, feed) ←
          nodeUnless [.value, .flowEntry, .flowSequenceEnd] false false fuel feed.advance
        let (value, feed) ←
          if feed.isNext [.value] then
            nodeUnless [.flowEntry, .flowSequenceEnd] false false fuel feed.advance
          else some (.null, feed)
        let entries ← addEntry key value []
        flowItems false fuel feed (.mapping entries :: items)
      else
        let (item, feed) ← node false false fuel feed
        flowItems false fuel feed (item :: items)

-- The entries of a mapping in braces. An entry without a colon has a null value.
def flowEntries (first : Bool) : Nat → Feed → List (Data × Data) → Option (Data × Feed)
  | 0, _, _ => none
  | fuel + 1, feed, entries =>
    if feed.isNext [.flowMappingEnd] then some (.mapping entries, feed.advance)
    else do
      let feed ← if first then some feed else feed.expect .flowEntry
      if feed.isNext [.flowMappingEnd] then return (.mapping entries, feed.advance)
      let ends := [Token.flowEntry, .flowMappingEnd]
      if feed.isNext [.key] then
        let (key, feed) ← nodeUnless (.value :: ends) false false fuel feed.advance
        let (value, feed) ←
          if feed.isNext [.value] then nodeUnless ends false false fuel feed.advance
          else some (.null, feed)
        let entries ← addEntry key value entries
        flowEntries false fuel feed entries
      else
        let (key, feed) ← node false false fuel feed
        let entries ← addEntry key .null entries
        flowEntries false fuel feed entries

end

-- The value of a text with at most one document; a text without one is null.
def document (feed : Feed) : Option Data := do
  let fuel := 3 * feed.tokens.length + 3
  let (value, feed) ←
    match feed.next with
    | none => some (.null, feed)
    | some .documentStart =>
      let feed := feed.advance
      if feed.tokens = [] || feed.isNext [.documentStart, .documentEnd] then some (.null, feed)
      else node true false fuel feed
    | some _ => node true false fuel feed
  if (feed.tokens.dropWhile (· = .documentEnd)).isEmpty then some value else none

-- The integer that a token fails to denote.
def Token.integerFault? : Token → Option IntegerFault
  | .scalar text true => Yaml.integerFault? text
  | _ => none

def malformed : DataFault := .malformed "the text is malformed"

-- Reads the value of a YAML text without tags, directives, merged mappings, dates and numbers in
-- base sixty. The form of the whole text is checked before any integer is.
def ofText : DataReader := fun text =>
  match Token.ofText? text with
  | none => .error malformed
  | some tokens =>
    match document { tokens }, tokens.findSome? Token.integerFault? with
    | none, _ => .error malformed
    | some _, some fault => .error (.failed fault.message)
    | some value, none => .ok value

end Calculator.Yaml
