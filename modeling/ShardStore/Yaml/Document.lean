import ShardStore.Yaml.Scalar

/-!
Documents: blocks, told apart by indentation, and brackets, which are not. Anchors, tags, directives,
literal blocks and keys behind question marks are not read; a text with one of them, or with more than
one document, is refused.
-/

namespace ShardStore.Yaml

mutual

/-- Reads what stands at a place inside of brackets, which may be brackets again. No tab may stand in
front of the column `least` on further lines of a scalar. -/
def flowNode? (least : Nat) : Nat → Cursor → Option (Yaml × Cursor)
  | 0, _ => none
  | fuel + 1, cursor =>
    if cursor.startsWith '[' then do
      let (items, next) ← flowItems? least fuel (cursor.advance 1 false)
      some (.sequence items, next)
    else if cursor.startsWith '\x7b' then do
      let (entries, next) ← flowEntries? least fuel (cursor.advance 1 false)
      some (.mapping entries, next)
    else scalar? true least fuel cursor

/-- Reads a key or an item, and behind a colon in its reach the value that makes it an entry. The
value may be missing in front of a comma or of `close`. -/
def flowPair? (least : Nat) (close : Char) : Nat → Cursor → Option (Yaml × Option Yaml × Cursor)
  | 0, _ => none
  | fuel + 1, cursor => do
    let (key, next) ← flowNode? least fuel cursor
    let colon := next.toToken true
    if colon.startsWith ':' && cursor.reaches colon then
      let value := (colon.advance 1 false).toToken true
      if value.startsWith ',' || value.startsWith close then some (key, some nothing, value)
      else
        let (value, next) ← flowNode? least fuel value
        some (key, some value, next.toToken true)
    else some (key, none, colon)

def flowItems? (least : Nat) : Nat → Cursor → Option (List Yaml × Cursor)
  | 0, _ => none
  | fuel + 1, cursor => do
    let cursor := cursor.toToken true
    if cursor.startsWith ']' then some ([], cursor.advance 1 false)
    else
      let (key, value?, next) ← flowPair? least ']' fuel cursor
      let item := value?.elim key fun value => .mapping [(key, value)]
      if next.startsWith ',' then
        let (items, last) ← flowItems? least fuel (next.advance 1 false)
        some (item :: items, last)
      else if next.startsWith ']' then some ([item], next.advance 1 false)
      else none

def flowEntries? (least : Nat) : Nat → Cursor → Option (List (Yaml × Yaml) × Cursor)
  | 0, _ => none
  | fuel + 1, cursor => do
    let cursor := cursor.toToken true
    if cursor.startsWith '\x7d' then some ([], cursor.advance 1 false)
    else
      let (key, value?, next) ← flowPair? least '\x7d' fuel cursor
      let entry := (key, value?.getD nothing)
      if next.startsWith ',' then
        let (entries, last) ← flowEntries? least fuel (next.advance 1 false)
        some (entry :: entries, last)
      else if next.startsWith '\x7d' then some ([entry], next.advance 1 false)
      else none

end

/-- Reads a scalar or something in brackets. Further lines of a scalar that is not in brackets begin at
the column `least` or behind it. -/
def inlineNode? (least fuel : Nat) (cursor : Cursor) : Option (Yaml × Cursor) :=
  if cursor.startsWith '[' || cursor.startsWith '\x7b' then flowNode? least fuel cursor
  else scalar? false least fuel cursor

/-- Reads a key of a block mapping, which has a colon in its reach. The place is that of the colon. -/
def blockKey? (fuel : Nat) (cursor : Cursor) : Option (Yaml × Cursor) := do
  let (key, next) ← inlineNode? cursor.column fuel cursor
  let colon := next.toToken false
  if colon.atColon && cursor.reaches colon then some (key, colon) else none

/-- Where a block goes on behind one of its parts. -/
inductive Continuation where
  /-- The block has a further part here. -/
  | more
  /-- The block has ended. -/
  | ended
  /-- What stands here belongs nowhere. -/
  | astray
deriving Repr, DecidableEq

/-- Whether a block at a column has a further part at a place, if only what `fits` is a part. -/
def continuation (column : Nat) (fits endsInColumn : Bool) (cursor : Cursor) : Continuation :=
  if cursor.atDocumentEnd then .ended
  else if !cursor.fresh then .astray
  else if cursor.column < column then .ended
  else if column < cursor.column then .astray
  else if fits then .more
  else if endsInColumn then .ended
  else .astray

mutual

/-- Reads what stands at a place in a block. Further lines of a scalar begin at the column `least` or
behind it. -/
def blockNode? : Nat → Nat → Cursor → Option (Yaml × Cursor)
  | 0, _, _ => none
  | fuel + 1, least, cursor =>
    if cursor.atDash then
      if cursor.fresh then do
        let (items, next) ← blockItems? fuel cursor.column false cursor
        some (.sequence items, next)
      else none
    else do
      let (value, next) ← inlineNode? least fuel cursor
      let colon := next.toToken false
      if cursor.fresh && colon.atColon && cursor.reaches colon then
        let (entries, last) ← blockEntries? fuel cursor.column value colon
        some (.mapping entries, last)
      else some (value, next)

/-- Reads the value behind the colon or dash of a part of a block at a column. The items of a
sequence in a mapping may stand in the mapping's own column. -/
def blockValue? : Nat → Nat → Bool → Cursor → Option (Yaml × Cursor)
  | 0, _, _, _ => none
  | fuel + 1, column, dashes, cursor =>
    let value := cursor.toToken false
    if value.atDocumentEnd then some (nothing, value)
    else if value.line == cursor.line || column < value.column then
      blockNode? fuel (column + 1) value
    else if dashes && value.column == column && value.atDash then do
      let (items, next) ← blockItems? fuel column true value
      some (.sequence items, next)
    else some (nothing, value)

def blockEntries? : Nat → Nat → Yaml → Cursor → Option (List (Yaml × Yaml) × Cursor)
  | 0, _, _, _ => none
  | fuel + 1, column, key, colon => do
    let (value, next) ← blockValue? fuel column true (colon.advance 1 false)
    let next := next.toToken false
    match continuation column true false next with
    | .ended => some ([(key, value)], next)
    | .astray => none
    | .more =>
      let (nextKey, colon) ← blockKey? fuel next
      let (entries, last) ← blockEntries? fuel column nextKey colon
      some ((key, value) :: entries, last)

def blockItems? : Nat → Nat → Bool → Cursor → Option (List Yaml × Cursor)
  | 0, _, _, _ => none
  | fuel + 1, column, inMapping, dash => do
    let (item, next) ← blockValue? fuel column false (dash.advance 1 true)
    let next := next.toToken false
    match continuation column next.atDash inMapping next with
    | .ended => some ([item], next)
    | .astray => none
    | .more =>
      let (items, last) ← blockItems? fuel column inMapping next
      some (item :: items, last)

end

def isFinished : Nat → Cursor → Bool
  | 0, _ => false
  | fuel + 1, cursor =>
    let next := cursor.toToken false
    next.atEnd || (next.atMark Cursor.documentEnd && isFinished fuel (next.advance 3 false))

def document? (cursor : Cursor) : Option Yaml := do
  let fuel := 4 * cursor.rest.length + 8
  let start := cursor.toToken false
  if start.atEnd then some nothing
  else if start.atMark Cursor.documentEnd then none
  else
    let start :=
      if start.atMark Cursor.documentStart then (start.advance 3 false).toToken false else start
    let (value, next) ←
      if start.atDocumentEnd then some (nothing, start) else blockNode? fuel 0 start
    if isFinished fuel next then some value else none

def parse? (text : String) : Option Yaml :=
  if text.toList.all isAllowed then document? { rest := unifyBreaks [] text.toList } else none

end ShardStore.Yaml
