import PerfFormula.Document.Yaml.Node
import PerfFormula.Document.Yaml.Token

/-!
# Reading YAML

The node that tokens describe, and the document that a text is. A text holds one document or none,
which then is nothing. Entries that are left empty are nothing, too. Only texts, numbers, truth
values and nothing can be keys; the last of several entries under one key wins.

If the tokens end early because of a fault in the text, the tokens before it may make no sense on
their own. Then the text is malformed, and the fault is not looked at.
-/

namespace PerfFormula
namespace Yaml

/-! ## Nodes

A reader gives what it has read and the tokens behind it, or how many tokens were left where they
made no sense. -/

/-- The tokens make no sense from here on. -/
def stopAt {α : Type} (tokens : List Token) : Except Nat α := .error tokens.length

/-- What may end an entry of a block that was left empty. -/
def endsEntry (alsoEntry : Bool) : List Token → Bool
  | .key :: _ | .value :: _ | .blockEnd :: _ => true
  | .entry :: _ => alsoEntry
  | [] => true
  | _ => false

/-- What may end an entry inside brackets or braces that was left empty. -/
def endsFlowEntry (closing : Token) : List Token → Bool
  | .comma :: _ => true
  | t :: _ => t == closing
  | [] => true

/-- The tokens behind a comma. -/
def afterComma : List Token → Except Nat (List Token)
  | .comma :: rest => .ok rest
  | tokens => stopAt tokens

mutual

/-- The node at the front of the tokens. `block` tells whether it may be a block, `inMapping`
whether the entries of a list may follow without a block of their own. -/
def readNode (block inMapping : Bool) : (fuel : Nat) → List Token → Except Nat (Node × List Token)
  | 0, tokens => stopAt tokens
  | fuel + 1, tokens =>
    match tokens with
    | .scalar text plain :: rest => .ok (.scalar text plain, rest)
    | .flowList :: rest =>
      (readFlowItems true fuel rest).map fun (items, rest) => (.list items, rest)
    | .flowMapping :: rest =>
      (readFlowEntries true fuel rest).map fun (entries, rest) => (.ofEntries entries, rest)
    | .blockList :: rest =>
      if block then (readItems fuel rest).map fun (items, rest) => (.list items, rest)
      else stopAt tokens
    | .blockMapping :: rest =>
      if block then
        (readEntries fuel rest).map fun (entries, rest) => (.ofEntries entries, rest)
      else stopAt tokens
    | .entry :: _ =>
      if inMapping then
        (readInnerItems fuel tokens).map fun (items, rest) => (.list items, rest)
      else stopAt tokens
    | _ => stopAt tokens

/-- The items of a list that is a block, and its end. -/
def readItems : (fuel : Nat) → List Token → Except Nat (List Node × List Token)
  | 0, tokens => stopAt tokens
  | fuel + 1, tokens =>
    match tokens with
    | .blockEnd :: rest => .ok ([], rest)
    | .entry :: rest =>
      match rest with
      | .entry :: _ | .blockEnd :: _ => do
        let (items, rest) ← readItems fuel rest
        return (.empty :: items, rest)
      | _ => do
        let (item, rest) ← readNode true false fuel rest
        let (items, rest) ← readItems fuel rest
        return (item :: items, rest)
    | _ => stopAt tokens

/-- The items of a list that stands in a mapping without being a block. -/
def readInnerItems : (fuel : Nat) → List Token → Except Nat (List Node × List Token)
  | 0, tokens => stopAt tokens
  | fuel + 1, tokens =>
    match tokens with
    | .entry :: rest =>
      if endsEntry true rest then do
        let (items, rest) ← readInnerItems fuel rest
        return (.empty :: items, rest)
      else do
        let (item, rest) ← readNode true false fuel rest
        let (items, rest) ← readInnerItems fuel rest
        return (item :: items, rest)
    | _ => .ok ([], tokens)

/-- A key or a value of a mapping that is a block. -/
def readPart : (fuel : Nat) → List Token → Except Nat (Node × List Token)
  | 0, tokens => stopAt tokens
  | fuel + 1, tokens =>
    if endsEntry false tokens then .ok (.empty, tokens) else readNode true true fuel tokens

/-- The entries of a mapping that is a block, and its end. -/
def readEntries : (fuel : Nat) → List Token → Except Nat (List (Node × Node) × List Token)
  | 0, tokens => stopAt tokens
  | fuel + 1, tokens =>
    match tokens with
    | .blockEnd :: rest => .ok ([], rest)
    | .key :: rest => do
      let (key, rest) ← readPart fuel rest
      let (value, rest) ← match rest with
        | .value :: rest => readPart fuel rest
        | _ => .ok (.empty, rest)
      let (entries, rest) ← readEntries fuel rest
      return ((key, value) :: entries, rest)
    | _ => stopAt tokens

/-- A key or a value inside brackets or braces, up to a comma or the closing one. -/
def readFlowPart (closing : Token) : (fuel : Nat) → List Token → Except Nat (Node × List Token)
  | 0, tokens => stopAt tokens
  | fuel + 1, tokens =>
    if endsFlowEntry closing tokens then .ok (.empty, tokens)
    else readNode false false fuel tokens

/-- An entry with a key inside brackets or braces, from what follows the mark of the key on. -/
def readFlowPair (closing : Token) :
    (fuel : Nat) → List Token → Except Nat ((Node × Node) × List Token)
  | 0, tokens => stopAt tokens
  | fuel + 1, tokens => do
    let (key, rest) ← match tokens with
      | .value :: _ => .ok (.empty, tokens)
      | _ => readFlowPart closing fuel tokens
    let (value, rest) ← match rest with
      | .value :: rest => readFlowPart closing fuel rest
      | _ => .ok (.empty, rest)
    return ((key, value), rest)

/-- The items of a list in brackets. An item with a key is a mapping of one entry. -/
def readFlowItems (first : Bool) : (fuel : Nat) → List Token → Except Nat (List Node × List Token)
  | 0, tokens => stopAt tokens
  | fuel + 1, tokens =>
    match tokens with
    | .flowListEnd :: rest => .ok ([], rest)
    | _ => do
      let tokens ← if first then .ok tokens else afterComma tokens
      match tokens with
      | .flowListEnd :: rest => .ok ([], rest)
      | .key :: rest =>
        let (entry, rest) ← readFlowPair .flowListEnd fuel rest
        let (items, rest) ← readFlowItems false fuel rest
        return (.ofEntries [entry] :: items, rest)
      | _ =>
        let (item, rest) ← readNode false false fuel tokens
        let (items, rest) ← readFlowItems false fuel rest
        return (item :: items, rest)

/-- The entries of a mapping in braces. An item without a key is a key with nothing under it. -/
def readFlowEntries (first : Bool) :
    (fuel : Nat) → List Token → Except Nat (List (Node × Node) × List Token)
  | 0, tokens => stopAt tokens
  | fuel + 1, tokens =>
    match tokens with
    | .flowMappingEnd :: rest => .ok ([], rest)
    | _ => do
      let tokens ← if first then .ok tokens else afterComma tokens
      match tokens with
      | .flowMappingEnd :: rest => .ok ([], rest)
      | .key :: rest =>
        let (entry, rest) ← readFlowPair .flowMappingEnd fuel rest
        let (entries, rest) ← readFlowEntries false fuel rest
        return (entry :: entries, rest)
      | _ =>
        -- An item without a key is itself a key.
        let (key, rest) ← readNode false false fuel tokens
        let (entries, rest) ← readFlowEntries false fuel rest
        return ((key, .empty) :: entries, rest)

end

/-! ## Documents -/

/-- A node behind which nothing but the ends of documents may follow. -/
def readLast (fuel : Nat) (tokens : List Token) : Except Nat Node := do
  let (node, rest) ← readNode true false fuel tokens
  match rest.dropWhile (· == .documentEnd) with
  | [] => return node
  | rest => stopAt rest

/-- The node of all tokens. -/
def nodeOf (tokens : List Token) : Except Nat Node :=
  -- Behind a mark at most two readers are entered that take no token, elsewhere at most one.
  let fuel := 2 * tokens.length + 2
  match tokens with
  | [] => .ok .empty
  | .documentStart :: rest =>
    if rest.all (· == .documentEnd) then .ok .empty else readLast fuel rest
  | _ => readLast fuel tokens

/-- The document that a text is, or what is wrong with it. -/
def read (s : String) : Except Error Document :=
  match tokens s.toList with
  | .ok tokens =>
    match nodeOf tokens with
    | .ok node => node.value
    | .error _ => .error .malformed
  | .error halt =>
    -- Where tokens are left, they made no sense before the fault was reached.
    match nodeOf halt.settled with
    | .error (_ + 1) => .error .malformed
    | _ => .error halt.error

end Yaml
end PerfFormula
