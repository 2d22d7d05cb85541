import PerfFormula.Document.Yaml.Scalar

/-!
# Tokens of YAML

The marks and scalars of a document, in which blocks have a visible start and end. The start of a
block is a change of indentation, which matters only where an entry or a key begins. What is a key
is known no sooner than at the colon behind it; so the place of a possible key is remembered, and
the tokens that start a mapping and its key are put there later. A possible key has to end on its
own line, and within 1024 characters.
-/

namespace PerfFormula
namespace Yaml

/-- A part of a document. -/
inductive Token where
  | documentStart
  | documentEnd
  | blockList
  | blockMapping
  | blockEnd
  | flowList
  | flowListEnd
  | flowMapping
  | flowMappingEnd
  | comma
  | entry
  | key
  | value
  /-- A scalar, plain or not. -/
  | scalar (text : List Char) (plain : Bool)
  deriving DecidableEq, Repr

/-- A place where a key may have started. -/
structure Candidate where
  /-- How many tokens stand before it. -/
  place : Nat
  line : Nat
  column : Nat
  index : Nat
  /-- Whether only a key may stand there. -/
  required : Bool
  deriving DecidableEq, Repr

/-- What has been read of a document. -/
structure Scanner where
  cursor : Cursor
  /-- The tokens so far, the latest first. -/
  tokens : List Token
  /-- The columns of the open blocks, the innermost first. -/
  blocks : List Nat
  /-- How many brackets and braces are open. -/
  flow : Nat
  /-- Whether a key may start at the next token. -/
  keyAllowed : Bool
  /-- The possible keys: of the innermost brackets or braces first, of the block last. -/
  candidates : List (Option Candidate)

/-- Where reading tokens stops: why, and the tokens that are certain by then. -/
structure Halt where
  error : Error
  settled : List Token
  deriving DecidableEq, Repr

namespace Token

/-- Put some tokens at a place, which counts from the first token; all are listed latest first. -/
def insertAt (place : Nat) (new tokens : List Token) : List Token :=
  let later := tokens.length - place
  tokens.take later ++ new ++ tokens.drop later

end Token

namespace Scanner

/-- The start of a document. -/
def start (cs : List Char) : Scanner := ⟨.start cs, [], [], 0, true, [none]⟩

/-- Add a token and go on at another place. -/
def push (s : Scanner) (t : Token) (c : Cursor) : Scanner :=
  { s with tokens := t :: s.tokens, cursor := c }

/-! ## Possible keys -/

/-- The possible key at this depth. -/
def candidate (s : Scanner) : Option Candidate := s.candidates.headD none

/-- Set the possible key at this depth. -/
def setCandidate (s : Scanner) (candidate : Option Candidate) : Scanner :=
  { s with candidates := candidate :: s.candidates.tail }

/-- Give up the possible key at this depth, unless only a key may stand there. -/
def dropCandidate (s : Scanner) : Except Error Scanner :=
  match s.candidate with
  | some k => if k.required then refuse else .ok (s.setCandidate none)
  | none => .ok s

/-- Whether a possible key has ended before the current place. -/
def isStale (c : Cursor) (k : Candidate) : Bool := k.line != c.line || c.index - k.index > 1024

/-- Give up the possible keys that have ended. -/
def dropStale (s : Scanner) : Except Error Scanner :=
  let gone := fun k : Option Candidate => k.any (isStale s.cursor)
  if s.candidates.any fun k => gone k && k.any (·.required) then refuse
  else .ok { s with candidates := s.candidates.map fun k => if gone k then none else k }

/-- Remember that a key may start here. -/
def saveCandidate (s : Scanner) : Except Error Scanner :=
  if s.keyAllowed then do
    let s ← s.dropCandidate
    -- What starts in the column of the innermost block has to be a key.
    let required := s.flow == 0 && s.blocks.head? == some s.cursor.column
    let c := s.cursor
    return s.setCandidate (some ⟨s.tokens.length, c.line, c.column, c.index, required⟩)
  else .ok s

/-! ## Blocks -/

/-- Close the blocks that are indented further than a column. -/
def closeBlocks (s : Scanner) (column : Nat) : Scanner :=
  if s.flow != 0 then s
  else
    let closed := s.blocks.takeWhile (column < ·)
    { s with
      blocks := s.blocks.drop closed.length
      tokens := closed.map (fun _ => Token.blockEnd) ++ s.tokens }

/-- Close all blocks. -/
def closeAll (s : Scanner) : Scanner :=
  if s.flow != 0 then s
  else { s with blocks := [], tokens := s.blocks.map (fun _ => Token.blockEnd) ++ s.tokens }

/-- The tokens that start a block at a column, and the open blocks then: none if the innermost block
starts there already. -/
def openBlock (s : Scanner) (t : Token) (column : Nat) : List Token × List Nat :=
  if s.flow == 0 && s.blocks.head?.all (· < column) then ([t], column :: s.blocks)
  else ([], s.blocks)

/-- The least column of what belongs to the innermost block. -/
def innerColumn (s : Scanner) : Nat :=
  match s.blocks.head? with
  | none => 0
  | some column => column + 1

/-! ## The kinds of tokens -/

/-- The start or the end of a document. -/
def readSeparator (s : Scanner) (t : Token) : Except Error Scanner := do
  let s ← s.closeAll.dropCandidate
  return { s.push t (s.cursor.skip 3) with keyAllowed := false }

/-- An opening bracket or brace. -/
def readFlowStart (s : Scanner) (t : Token) : Except Error Scanner := do
  let s ← s.saveCandidate
  return { s.push t s.cursor.next with
    flow := s.flow + 1, keyAllowed := true, candidates := none :: s.candidates }

/-- A closing bracket or brace. -/
def readFlowEnd (s : Scanner) (t : Token) : Except Error Scanner := do
  let s ← s.dropCandidate
  if s.flow == 0 then refuse
  else
    return { s.push t s.cursor.next with
      flow := s.flow - 1, keyAllowed := false, candidates := s.candidates.tail }

/-- A comma. -/
def readComma (s : Scanner) : Except Error Scanner := do
  let s ← s.dropCandidate
  return { s.push .comma s.cursor.next with keyAllowed := true }

/-- The mark of an entry, or of a key that is marked as one. -/
def readMark (s : Scanner) (t block : Token) (keyAllowed : Bool) : Except Error Scanner := do
  -- Outside brackets an entry can start only where a key could.
  if s.flow == 0 && !s.keyAllowed then refuse
  else
    let (opening, blocks) := s.openBlock block s.cursor.column
    let s ← { s with tokens := opening ++ s.tokens, blocks }.dropCandidate
    return { s.push t s.cursor.next with keyAllowed }

/-- A colon. What it follows is a key if one may have started there. -/
def readValue (s : Scanner) : Except Error Scanner :=
  match s.candidate with
  | some k =>
    -- The block and the key start where the possible key did, in front of its tokens.
    let (opening, blocks) := s.openBlock .blockMapping k.column
    let s := { s with tokens := Token.insertAt k.place (.key :: opening) s.tokens, blocks }
    .ok { (s.setCandidate none).push .value s.cursor.next with keyAllowed := false }
  -- No key: an entry with an empty one.
  | none => s.readMark .value .blockMapping (s.flow == 0)

/-- A block scalar. -/
def readBlockScalar (s : Scanner) (folded : Bool) : Except Error Scanner := do
  let s ← s.dropCandidate
  let (text, c) ← blockScalar folded (max 1 s.innerColumn) s.cursor.next
  return { s.push (.scalar text false) c with keyAllowed := true }

/-- A scalar between quotes. -/
def readQuoted (s : Scanner) (mark : Char) : Except Error Scanner := do
  let s ← s.saveCandidate
  let c := s.cursor.next
  let (text, c) ← quotedScalar mark (c.rest.length + 1) c
  return { s.push (.scalar text false) c with keyAllowed := false }

/-- A plain scalar. -/
def readPlain (s : Scanner) : Except Error Scanner := do
  let s ← s.saveCandidate
  let c := s.cursor
  let (text, c, keyAllowed) := plainScalar (s.flow != 0) s.innerColumn (c.rest.length + 1) c
  return { s.push (.scalar text true) c with keyAllowed }

/-! ## All tokens -/

/-- The characters that start no plain scalar. -/
def indicators : List Char :=
  ['-', '?', ':', ',', '[', ']', '\x7b', '\x7d', '#', '&', '*', '!', '|', '>', '\'', '"', '%', '@',
    '`']

/-- Whether a plain scalar starts here: with no indicator, or with a dash, or outside brackets and
braces with a question mark or a colon, if something follows these without a gap. -/
def startsPlain (s : Scanner) (ch : Char) : Bool :=
  if isGap ch then false
  else if ch ∈ indicators then
    !s.cursor.gapAt 1 && (ch == '-' || (s.flow == 0 && (ch == '?' || ch == ':')))
  else true

/-- Skip spaces, comments and line breaks up to the next token. -/
def skipGaps : (fuel : Nat) → Scanner → Scanner
  | 0, s => s
  | fuel + 1, s =>
    let c := skipComment (s.cursor.skipWhile (· == ' '))
    match c.lineBreak? with
    | none => { s with cursor := c }
    | some (_, c) => skipGaps fuel { s with cursor := c, keyAllowed := s.keyAllowed || s.flow == 0 }

/-- Read the token that starts with the given character. -/
def readToken (s : Scanner) (ch : Char) : Except Error Scanner :=
  let c := s.cursor
  let gapFollows := c.gapAt 1
  -- Directives are not read.
  if c.column == 0 && ch == '%' then refuse
  else if c.column == 0 && c.atMarker '-' then s.readSeparator .documentStart
  else if c.column == 0 && c.atMarker '.' then s.readSeparator .documentEnd
  else if ch == '[' then s.readFlowStart .flowList
  else if ch == '\x7b' then s.readFlowStart .flowMapping
  else if ch == ']' then s.readFlowEnd .flowListEnd
  else if ch == '\x7d' then s.readFlowEnd .flowMappingEnd
  else if ch == ',' then s.readComma
  else if ch == '-' && gapFollows then s.readMark .entry .blockList true
  else if ch == '?' && (s.flow != 0 || gapFollows) then
    s.readMark .key .blockMapping (s.flow == 0)
  else if ch == ':' && (s.flow != 0 || gapFollows) then s.readValue
  else if ch == '|' && s.flow == 0 then s.readBlockScalar false
  else if ch == '>' && s.flow == 0 then s.readBlockScalar true
  else if ch == '\'' || ch == '"' then s.readQuoted ch
  else if s.startsPlain ch then s.readPlain
  else refuse

/-- Read the next token, if there is one. -/
def readNext (s : Scanner) : Except Error (Option Scanner) := do
  let s ← (skipGaps (s.cursor.rest.length + 1) s).dropStale
  -- The indentation of the next token shows which blocks have ended.
  let s := s.closeBlocks s.cursor.column
  match s.cursor.rest.head? with
  | none => return none
  | some ch => return some (← s.readToken ch)

/-- The tokens that nothing further on can change: those in front of all possible keys. -/
def settled (s : Scanner) : List Token :=
  let live := (s.candidates.filterMap id).filter fun k => !isStale s.cursor k
  s.tokens.reverse.take ((live.map (·.place)).foldl min s.tokens.length)

/-- Read the remaining tokens. -/
def readAll : (fuel : Nat) → Scanner → Except Halt (List Token)
  | 0, s => .error ⟨.malformed, s.settled⟩
  | fuel + 1, s =>
    match s.readNext with
    | .error e => .error ⟨e, s.settled⟩
    | .ok (some next) => readAll fuel next
    | .ok none =>
      match s.closeAll.dropCandidate with
      | .error e => .error ⟨e, s.settled⟩
      | .ok s => .ok s.tokens.reverse

end Scanner

/-- Whether a character may stand in a YAML text at all. -/
def isAllowed (c : Char) : Bool :=
  let n := c.toNat
  n == 0x09 || n == 0x0A || n == 0x0D || (0x20 ≤ n && n ≤ 0x7E) || n == 0x85
    || (0xA0 ≤ n && n ≤ 0xD7FF) || (0xE000 ≤ n && n ≤ 0xFFFD) || 0x10000 ≤ n

/-- The tokens of a text. -/
def tokens (cs : List Char) : Except Halt (List Token) :=
  if cs.all isAllowed then Scanner.readAll (cs.length + 1) (.start cs) else .error ⟨.malformed, []⟩

end Yaml
end PerfFormula
