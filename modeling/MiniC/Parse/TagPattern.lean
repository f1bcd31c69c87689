import MiniC.Fault

/-!
# Patterns with tags

A pattern is a text with tags in it, which stand between delimiters and may have a label before a colon.
`TagPattern.split` cuts a pattern into its tags and the texts between them. A delimiter with the escape
before it is text.
-/

namespace MiniC

inductive Chunk where
  | text (text : String)
  /-- A tag with the part before its colon, if it has one. -/
  | tag (label : Option String) (word : String)
  deriving DecidableEq, Repr, Inhabited

namespace Chunk

def render : Chunk → Except Fault String
  | text t => pure ("'" ++ t ++ "'")
  | tag (some label) word => pure (word ++ ":" ++ label)
  | tag none _ => throw .unsuitable

end Chunk

structure Delimiters where
  start : List Char
  stop : List Char
  escape : List Char
  deriving DecidableEq, Repr, Inhabited

namespace Delimiters

def standard : Delimiters := ⟨['<'], ['>'], ['\\']⟩

def make (start stop escape : String) : Except Fault Delimiters :=
  if start.isEmpty then throw (.illegal "start cannot be null or empty")
  else if stop.isEmpty then throw (.illegal "stop cannot be null or empty")
  else pure ⟨start.toList, stop.toList, escape.toList⟩

end Delimiters

namespace TagPattern

/-- The places of the delimiters that open and that close tags, in reverse. -/
def marks (d : Delimiters) : Nat → List Char → Nat → List Nat × List Nat → List Nat × List Nat
  | 0, _, _, acc => acc
  | _ + 1, [], _, acc => acc
  | fuel + 1, c :: rest, p, (starts, stops) =>
    let text := c :: rest
    let skip (n : Nat) (acc : List Nat × List Nat) := marks d fuel (text.drop n) (p + n) acc
    if (d.escape ++ d.start).isPrefixOf text then
      skip (d.escape.length + d.start.length) (starts, stops)
    else if (d.escape ++ d.stop).isPrefixOf text then
      skip (d.escape.length + d.stop.length) (starts, stops)
    else if d.start.isPrefixOf text then skip d.start.length (p :: starts, stops)
    else if d.stop.isPrefixOf text then skip d.stop.length (starts, p :: stops)
    else skip 1 (starts, stops)

def between (text : List Char) (first stop : Nat) : List Char := (text.take stop).drop first

def unescape (escape : List Char) : Nat → List Char → List Char
  | 0, text => text
  | _ + 1, [] => []
  | fuel + 1, c :: rest =>
    if !escape.isEmpty && escape.isPrefixOf (c :: rest) then
      unescape escape fuel ((c :: rest).drop escape.length)
    else c :: unescape escape fuel rest

def textChunk (d : Delimiters) (text : List Char) : Chunk :=
  .text (String.ofList (unescape d.escape (text.length + 1) text))

/-- The tag written in a text: its label stands before the first colon. -/
def tagChunk (text : List Char) : Chunk :=
  match text.dropWhile (· ≠ ':') with
  | [] => .tag none (String.ofList text)
  | _ :: word => .tag (some (String.ofList (text.takeWhile (· ≠ ':')))) (String.ofList word)

def tagged (d : Delimiters) (text : List Char) : List (Nat × Nat) → List Chunk
  | [] => []
  | (start, stop) :: rest =>
    let tag := tagChunk (between text (start + d.start.length) stop)
    let after := stop + d.stop.length
    match rest with
    | [] => if after < text.length then [tag, textChunk d (text.drop after)] else [tag]
    | (next, _) :: _ => tag :: textChunk d (between text after next) :: tagged d text rest

/-- The pieces of a pattern. A pattern with tags has to begin with one. -/
def split (d : Delimiters) (pattern : String) : Except Fault (List Chunk) := do
  let text := pattern.toList
  let (starts, stops) := marks d (text.length + 1) text 0 ([], [])
  let (starts, stops) := (starts.reverse, stops.reverse)
  if starts.length > stops.length then throw (.illegal ("unterminated tag in pattern: " ++ pattern))
  if starts.length < stops.length then throw (.illegal ("missing start tag in pattern: " ++ pattern))
  let tags := starts.zip stops
  if tags.any fun (a, b) => a ≥ b then
    throw (.illegal ("tag delimiters out of order in pattern: " ++ pattern))
  match starts with
  | [] => return [textChunk d text]
  | first :: _ => if first > 0 then throw .missing else return tagged d text tags

end TagPattern

end MiniC
