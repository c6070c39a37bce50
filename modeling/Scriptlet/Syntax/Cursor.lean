import Scriptlet.Syntax.Fault

/-!
# Reading tokens one by one

A cursor stands between the tokens already read and those to come. The tokens to come end before the
first end marker, so that nothing behind it can matter, and the place of the end is kept apart. A
parser takes a cursor and gives a result with the cursor behind what it read, or a fault.

Grammars are recursive. `fix` ties the knot: every round of a parser that calls itself reads at
least one token, so one round more than there are tokens is enough.
-/
namespace Scriptlet

namespace Syntax

structure Cursor where
  /-- The token that was read last. -/
  previous : Option Token
  /-- The tokens to come. None of them is an end marker. -/
  rest : List Token
  /-- Where the end of the input stands. -/
  finish : Span
  deriving DecidableEq, Repr

namespace Cursor

def isMarker (token : Token) : Bool := token.kind = .endOfInput

/-- The place of the end of the input. Without a marker it is just behind the last token. -/
def finishOf (tokens : List Token) : Span :=
  match tokens.find? isMarker, tokens.getLast? with
  | some marker, _ => marker.span
  | none, some last => .empty last.span.stop
  | none, none => .empty 0

def ofTokens (tokens : List Token) : Cursor :=
  ⟨none, tokens.takeWhile (!isMarker ·), finishOf tokens⟩

/-- The characters of the next token, or of the end of the input. -/
def here (c : Cursor) : Span :=
  match c.rest with
  | token :: _ => token.span
  | [] => c.finish

/-- Where to point when something is missing: at the token that stands in its place or, at the end
of the input, at the character behind the last token. -/
def missingSpan (c : Cursor) : Span :=
  match c.rest, c.previous with
  | [], some token => .single token.span.stop
  | _, _ => c.here

end Cursor

abbrev Parse := StateT Cursor (Except (Located Fault))

namespace Parse

def fail {α : Type} (cause : Fault) (span : Span) : Parse α :=
  throw ⟨cause, span⟩

/-- The next token, without reading it. -/
def peek? : Parse (Option Token) := fun c => .ok (c.rest.head?, c)

/-- Reads the next token if it is one that is wanted. -/
def take? (wanted : Token → Bool) : Parse (Option Token) := fun c =>
  match c.rest with
  | token :: rest =>
    if wanted token then .ok (some token, ⟨some token, rest, c.finish⟩) else .ok (none, c)
  | [] => .ok (none, c)

/-- Reads the next token if it is of a kind, and tells whether it was. -/
def accept (kind : Token.Kind) : Parse Bool := do
  return (← take? (·.kind = kind)).isSome

/-- Whether the next token is of a kind. At the end of the input it is of none. -/
def nextIs (kind : Token.Kind) : Parse Bool := do
  return (← peek?).any (·.kind = kind)

/-- Reads a token of the only kind that can stand here. -/
def expect (expected : Expected) : Parse Token := do
  match ← take? (·.kind = expected.kind) with
  | some token => return token
  | none =>
    let c ← get
    fail (.missing expected (c.rest.head?.map (·.text))) c.missingSpan

/-- The characters of the token that was read last. -/
def lastSpan : Parse Span := do
  let c ← get
  return (c.previous.map (·.span)).getD c.here

/-- `rounds` rounds of a parser that calls itself. -/
def unroll {α β : Type} (body : (α → Parse β) → α → Parse β) : Nat → α → Parse β
  | 0, _ => do fail .unfinished (← get).here
  | rounds + 1, a => body (unroll body rounds) a

/-- A parser that calls itself after it has read at least one token. -/
def fix {α β : Type} (body : (α → Parse β) → α → Parse β) (a : α) : Parse β := fun c =>
  unroll body (c.rest.length + 1) a c

/-- What `item` reads, once or more, with commas between. -/
def commaSeparated {α : Type} (item : Parse α) : Parse (List α) :=
  fix (fun again (_ : Unit) => do
    let first ← item
    if ← accept .comma then return first :: (← again ()) else return [first]) ()

/-- Items with commas between, up to a closing token, which is not read. -/
def listUntil {α : Type} (closing : Token.Kind) (item : Parse α) : Parse (List α) := do
  if ← nextIs closing then return [] else commaSeparated item

/-- What `item` reads, as often as there is a token that does not end the sequence. -/
def sequenceUntil {α : Type} (stop : Token → Bool) (item : Parse α) : Parse (List α) :=
  fix (fun again (_ : Unit) => do
    match ← peek? with
    | none => return []
    | some token => if stop token then return [] else return (← item) :: (← again ())) ()

end Parse

end Syntax

end Scriptlet
