/-!
YAML documents as values, and the places in a text at which their parts are found. Two things at a
place decide what may stand there: its column, since blocks are told apart by how far they are
indented, and whether it is fresh, that is, with nothing but blanks and the dashes of list items in
front of it on its line. Only there may a block begin.
-/

namespace ShardStore

/-- What a document or a part of it says. Only a plain scalar, one without quotes, can be anything
but text. -/
inductive Yaml where
  | plain (text : String)
  | quoted (text : String)
  | sequence (items : List Yaml)
  | mapping (entries : List (Yaml × Yaml))
deriving Repr, Inhabited

namespace Yaml

/-- What stands where nothing is written. -/
def nothing : Yaml := .plain ""

def isBlank (c : Char) : Bool :=
  c == ' ' || c == '\t'

/-- Line breaks, once those of other systems have been made line feeds. -/
def isBreak (c : Char) : Bool :=
  c == '\n' || c == '\u2028' || c == '\u2029'

def isAllowed (c : Char) : Bool :=
  c == '\t' || c == '\n' || c == '\r' || ('\x20' ≤ c && c ≤ '\x7E') || c == '\u0085' ||
    ('\u00A0' ≤ c && c ≤ '\uFFFD') || 0x10000 ≤ c.toNat

/-- Makes every line break that is not one of the Unicode separators a line feed. What has been done
is in `reversed`. -/
def unifyBreaks (reversed : List Char) : List Char → List Char
  | '\r' :: '\n' :: rest => unifyBreaks ('\n' :: reversed) rest
  | '\r' :: rest => unifyBreaks ('\n' :: reversed) rest
  | '\u0085' :: rest => unifyBreaks ('\n' :: reversed) rest
  | c :: rest => unifyBreaks (c :: reversed) rest
  | [] => reversed.reverse

def endsWord : List Char → Bool
  | [] => true
  | c :: _ => isBlank c || isBreak c

structure Cursor where
  rest : List Char
  line : Nat := 0
  column : Nat := 0
  /-- How many bytes stand in front of it on its line. -/
  offset : Nat := 0
  fresh : Bool := true
deriving Repr

namespace Cursor

def atEnd (cursor : Cursor) : Bool :=
  cursor.rest.isEmpty

def atMark (cursor : Cursor) (mark : List Char) : Bool :=
  cursor.column == 0 && cursor.rest.take 3 == mark && endsWord (cursor.rest.drop 3)

def documentStart : List Char := ['-', '-', '-']

def documentEnd : List Char := ['.', '.', '.']

def atMarker (cursor : Cursor) : Bool :=
  cursor.atMark documentStart || cursor.atMark documentEnd

def atDocumentEnd (cursor : Cursor) : Bool :=
  cursor.atEnd || cursor.atMarker

def atDash (cursor : Cursor) : Bool :=
  match cursor.rest with
  | '-' :: rest => endsWord rest
  | _ => false

/-- Whether a colon that ends a key in a block comes next. -/
def atColon (cursor : Cursor) : Bool :=
  match cursor.rest with
  | ':' :: rest => endsWord rest
  | _ => false

def startsWith (cursor : Cursor) (c : Char) : Bool :=
  cursor.rest.head? == some c

/-- How many bytes may lie between the beginning of a key and its colon. -/
def keyLimit : Nat := 1024

/-- Whether what begins at a place can be a key with its colon at a later one: the two are on one line
and not too far apart. -/
def reaches (start colon : Cursor) : Bool :=
  colon.line == start.line && colon.offset ≤ start.offset + keyLimit

def advance (cursor : Cursor) (count : Nat) (fresh : Bool) : Cursor :=
  let offset := ((cursor.rest.take count).map Char.utf8Size).foldl (· + ·) cursor.offset
  { cursor with rest := cursor.rest.drop count, column := cursor.column + count, offset, fresh }

/-- May begin a line, and takes up its first column. -/
def byteOrderMark : Char := '\uFEFF'

/-- Steps over blanks, comments and line breaks to where something is written. A byte order mark may
begin a line. Tabs do not count as indentation: in a block, one at the beginning of a line is something
written. -/
def toToken (flow : Bool) (cursor : Cursor) : Cursor :=
  match _written : cursor.rest with
  | [] => cursor
  | c :: rest =>
    if c == ' ' || (c == '\t' && (flow || !cursor.fresh)) ||
        (c == byteOrderMark && cursor.column == 0) then
      toToken flow
        { cursor with rest, column := cursor.column + 1, offset := cursor.offset + c.utf8Size }
    else if isBreak c then
      toToken flow { rest, line := cursor.line + 1, fresh := cursor.fresh || !flow }
    else if c == '#' then toToken flow { cursor with rest := rest.dropWhile (!isBreak ·) }
    else cursor
termination_by cursor.rest.length
decreasing_by
  · simp [_written]
  · simp [_written]
  · simpa [_written] using Nat.lt_succ_of_le (rest.dropWhile_sublist _).length_le

end Cursor

/-- What stands between two words of a scalar. -/
structure Gap where
  /-- The blanks in front of the first line break. -/
  blanks : List Char := []
  breaks : List Char := []
deriving Repr

namespace Gap

def isEmpty (gap : Gap) : Bool :=
  gap.blanks.isEmpty && gap.breaks.isEmpty

/-- What a gap stands for in the text of the scalar: a single line feed for a space, further ones
for themselves, and blanks on a line for themselves. -/
def folded (gap : Gap) : List Char :=
  match gap.breaks with
  | [] => gap.blanks
  | ['\n'] => [' ']
  | '\n' :: more => more
  | breaks => breaks

end Gap

/-- Steps over the line breaks of a gap and the blanks behind them, the breaks in front being in
`reversed`. A tab in front of the column `least` is refused. -/
def takeBreaks? (least : Nat) (reversed : List Char) (cursor : Cursor) :
    Option (List Char × Cursor) :=
  match _written : cursor.rest with
  | [] => some (reversed.reverse, cursor)
  | c :: rest =>
    if isBreak c then takeBreaks? least (c :: reversed) { rest, line := cursor.line + 1 }
    else if !isBlank c then some (reversed.reverse, cursor)
    else if c == '\t' && cursor.column < least then none
    else
      takeBreaks? least reversed
        { cursor with rest, column := cursor.column + 1, offset := cursor.offset + 1 }
termination_by cursor.rest.length
decreasing_by all_goals simp [_written]

/-- Steps over a gap. Behind a line break, a tab in front of the column `least` is refused. -/
def takeGap? (least : Nat) (cursor : Cursor) : Option (Gap × Cursor) := do
  let blanks := cursor.rest.takeWhile isBlank
  let (breaks, next) ← takeBreaks? least [] (cursor.advance blanks.length cursor.fresh)
  some ({ blanks, breaks }, next)

end Yaml

end ShardStore
