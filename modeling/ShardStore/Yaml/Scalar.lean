import ShardStore.Yaml.Cursor

namespace ShardStore.Yaml

def isFlowIndicator (c : Char) : Bool :=
  [',', '[', ']', '\x7b', '\x7d'].contains c

/-- The characters with which no plain scalar begins. -/
def isIndicator (c : Char) : Bool :=
  isFlowIndicator c || ['-', '?', ':', '#', '&', '*', '!', '|', '>', '\'', '"', '%', '@',
    Char.ofNat 0x60].contains c

/-- Whether a plain scalar may begin with these characters. A dash may if a word goes on behind it,
and so may, outside of brackets, a question mark and a colon. -/
def startsPlain (flow : Bool) : List Char → Bool
  | [] => false
  | c :: rest =>
    !(isIndicator c || isBlank c || isBreak c) ||
      ((c == '-' || (!flow && (c == '?' || c == ':'))) && !endsWord rest)

/-- Splits behind a word of a plain scalar, its first characters being in `reversed`, as the whole word
then is. Inside of brackets a colon must not be followed by something of the brackets' structure. -/
def takeWord? (flow : Bool) (reversed : List Char) : List Char → Option (List Char × List Char)
  | [] => some (reversed, [])
  | c :: rest =>
    if isBlank c || isBreak c || (c == ':' && endsWord rest) || (flow && isFlowIndicator c) then
      some (reversed, c :: rest)
    else if flow && c == ':' && rest.head?.any (fun d => isFlowIndicator d || d == '?') then none
    else takeWord? flow (c :: reversed) rest

/-- Reads the words of a plain scalar behind the text in `reversed`, as the whole text then is, and a
gap that stands for `gap`. Outside of brackets, the scalar's further lines begin at the column `least`
or behind it. -/
def plainWords? (flow : Bool) (least : Nat) :
    Nat → List Char → List Char → Cursor → Option (List Char × Cursor)
  | 0, _, _, _ => none
  | fuel + 1, reversed, gap, cursor =>
    if cursor.atMarker || cursor.startsWith '#' then some (reversed, cursor)
    else
      match takeWord? flow [] cursor.rest with
      | none => none
      | some ([], _) => some (reversed, cursor)
      | some (word, _) => do
        let reversed := word ++ gap.reverse ++ reversed
        let (gap, next) ← takeGap? least (cursor.advance word.length false)
        if gap.isEmpty || (!flow && next.column < least) then some (reversed, next)
        else plainWords? flow least fuel reversed gap.folded next

def plain? (flow : Bool) (least fuel : Nat) (cursor : Cursor) : Option (String × Cursor) :=
  if startsPlain flow cursor.rest then
    (plainWords? flow least fuel [] [] cursor).map fun (reversed, next) =>
      (String.ofList reversed.reverse, next)
  else none

def hexValue? (c : Char) : Option Nat :=
  if c.isDigit then some (c.toNat - 48)
  else if 'a' ≤ c && c ≤ 'f' then some (c.toNat - 87)
  else if 'A' ≤ c && c ≤ 'F' then some (c.toNat - 55)
  else none

/-- The number that so many hexadecimal digits spell behind those read for `value`. -/
def hex? : Nat → Nat → List Char → Option Nat
  | 0, value, _ => some value
  | _, _, [] => none
  | count + 1, value, c :: rest => do hex? count (value * 16 + (← hexValue? c)) rest

def scalarOf? (n : Nat) : Option Char :=
  if n.isValidChar then some (Char.ofNat n) else none

/-- The character that stands behind a backslash, and how many characters spell it there. -/
def escaped? : List Char → Option (Char × Nat)
  | '0' :: _ => some ('\x00', 1)
  | 'a' :: _ => some ('\x07', 1)
  | 'b' :: _ => some ('\x08', 1)
  | 't' :: _ => some ('\t', 1)
  | '\t' :: _ => some ('\t', 1)
  | 'n' :: _ => some ('\n', 1)
  | 'v' :: _ => some ('\x0B', 1)
  | 'f' :: _ => some ('\x0C', 1)
  | 'r' :: _ => some ('\r', 1)
  | 'e' :: _ => some ('\x1B', 1)
  | ' ' :: _ => some (' ', 1)
  | '"' :: _ => some ('"', 1)
  | '/' :: _ => some ('/', 1)
  | '\\' :: _ => some ('\\', 1)
  | 'N' :: _ => some ('\u0085', 1)
  | '_' :: _ => some ('\u00A0', 1)
  | 'L' :: _ => some ('\u2028', 1)
  | 'P' :: _ => some ('\u2029', 1)
  | 'x' :: rest => (hex? 2 0 rest >>= scalarOf?).map (·, 3)
  | 'u' :: rest => (hex? 4 0 rest >>= scalarOf?).map (·, 5)
  | 'U' :: rest => (hex? 8 0 rest >>= scalarOf?).map (·, 9)
  | _ => none

/-- Reads a scalar in single quotes to its closing quote, behind the text in `reversed`, as the whole
text then is. -/
def singleQuoted? : Nat → List Char → Cursor → Option (List Char × Cursor)
  | 0, _, _ => none
  | fuel + 1, reversed, cursor =>
    if cursor.atMarker then none
    else
      match cursor.rest with
      | [] => none
      | '\'' :: '\'' :: _ => singleQuoted? fuel ('\'' :: reversed) (cursor.advance 2 false)
      | '\'' :: _ => some (reversed, cursor.advance 1 false)
      | c :: _ =>
        if isBlank c || isBreak c then do
          let (gap, next) ← takeGap? 0 cursor
          singleQuoted? fuel (gap.folded.reverse ++ reversed) next
        else singleQuoted? fuel (c :: reversed) (cursor.advance 1 false)

/-- Reads a scalar in double quotes to its closing quote, behind the text in `reversed`, as the whole
text then is. A backslash at the end of a line joins the lines. -/
def doubleQuoted? : Nat → List Char → Cursor → Option (List Char × Cursor)
  | 0, _, _ => none
  | fuel + 1, reversed, cursor =>
    if cursor.atMarker then none
    else
      match cursor.rest with
      | [] => none
      | '"' :: _ => some (reversed, cursor.advance 1 false)
      | '\\' :: rest =>
        if rest.head?.any isBreak then do
          let (gap, next) ← takeGap? 0 (cursor.advance 1 false)
          doubleQuoted? fuel ((gap.breaks.drop 1).reverse ++ reversed) next
        else do
          let (c, width) ← escaped? rest
          doubleQuoted? fuel (c :: reversed) (cursor.advance (width + 1) false)
      | c :: _ =>
        if isBlank c || isBreak c then do
          let (gap, next) ← takeGap? 0 cursor
          doubleQuoted? fuel (gap.folded.reverse ++ reversed) next
        else doubleQuoted? fuel (c :: reversed) (cursor.advance 1 false)

def scalar? (flow : Bool) (least fuel : Nat) (cursor : Cursor) : Option (Yaml × Cursor) :=
  match cursor.rest with
  | '\'' :: _ => do
    let (reversed, next) ← singleQuoted? fuel [] (cursor.advance 1 false)
    some (.quoted (String.ofList reversed.reverse), next)
  | '"' :: _ => do
    let (reversed, next) ← doubleQuoted? fuel [] (cursor.advance 1 false)
    some (.quoted (String.ofList reversed.reverse), next)
  | _ => do
    let (text, next) ← plain? flow least fuel cursor
    some (.plain text, next)

end ShardStore.Yaml
