import Interleaving.Pattern.Token
import Interleaving.Pattern.Tree

/-!
# Reading patterns

The grammar of pattern text: alternatives of sequences of repeated items. A comma between the items
of a sequence may be left out, `+`, `?` and `*` apply to the item before them, the innermost first,
and items are events with or without conditions, the any-term and groups. Alternatives and
sequences associate to the left.
-/

namespace Interleaving.Pattern

/-- What the grammar asks for at some place. -/
inductive Expected where
  | endOfPattern
  | item
  | closeParen
  | fieldName
  | colon
  | fieldValue
  | closeBrace
deriving DecidableEq

/-- How messages name what is asked for. -/
def Expected.text : Expected → String
  | endOfPattern => "end of pattern"
  | item => "an event, `.` or `(`"
  | closeParen => "`)`"
  | fieldName => "a field name"
  | colon => "`:`"
  | fieldValue => "a quoted value or `*`"
  | closeBrace => "`\x7d` or `,`"

/-- Why a text is no pattern. -/
inductive ParseError where
  /-- A token stands where the grammar asks for another. -/
  | unexpectedToken (expected : Expected) (found : TokenKind) (span : Span)
  /-- The text ends where the grammar asks for more. -/
  | unexpectedEnd (expected : Expected) (span : Span)
  /-- The grammar comes upon text that is no token. -/
  | badToken (error : LexicalError) (span : Span)
  /-- A group stands inside too many others. -/
  | tooDeep (span : Span)
  /-- The text holds only blanks. -/
  | emptyPattern
deriving DecidableEq

/-- How many groups may stand one inside the other. -/
def maxNesting : Nat := 64

namespace ParseError

/-- The place of an error. -/
def span? : ParseError → Option Span
  | unexpectedToken _ _ span | unexpectedEnd _ span | badToken _ span | tooDeep span => some span
  | emptyPattern => none

/-- The text of an error. -/
def message : ParseError → String
  | unexpectedToken expected found span =>
    s!"unexpected token at {span.text}: expected {expected.text}, found {found.text}"
  | unexpectedEnd expected span =>
    s!"unexpected end of pattern at {span.text}: expected {expected.text}"
  | badToken error span => s!"invalid syntax at {span.text}: {error.message}"
  | tooDeep span => s!"invalid syntax at {span.text}: groups nested deeper than {maxNesting}"
  | emptyPattern => "empty pattern"

/-- The error of meeting the first of some tokens where something else is asked for. -/
def atToken (expected : Expected) : List Token → ParseError
  | [] => unexpectedEnd expected ⟨0, 0⟩
  | token :: _ =>
    match token.kind with
    | .stop => unexpectedEnd expected token.span
    | .bad error => badToken error token.span
    | kind => unexpectedToken expected kind token.span

end ParseError

/-- Passes a token of one kind. -/
def pass (kind : TokenKind) (expected : Expected) (ts : List Token) :
    Except ParseError (List Token) :=
  match ts with
  | t :: rest => if t.kind = kind then .ok rest else .error (.atToken expected ts)
  | [] => .error (.atToken expected ts)

/-- The conditions of an event after its opening brace, at least one. -/
def conditions (term : EventTerm) : List Token → Except ParseError (EventTerm × List Token)
  | ⟨.ident field, _⟩ :: ⟨.colon, _⟩ :: ⟨.str value, _⟩ :: ⟨.comma, _⟩ :: ts =>
    conditions (term.constrain field value) ts
  | ⟨.ident field, _⟩ :: ⟨.colon, _⟩ :: ⟨.str value, _⟩ :: ts =>
    (pass .closeBrace .closeBrace ts).map (term.constrain field value, ·)
  | ⟨.ident field, _⟩ :: ⟨.colon, _⟩ :: ⟨.star, _⟩ :: ⟨.comma, _⟩ :: ts =>
    conditions (term.constrain field EventTerm.wildcard) ts
  | ⟨.ident field, _⟩ :: ⟨.colon, _⟩ :: ⟨.star, _⟩ :: ts =>
    (pass .closeBrace .closeBrace ts).map (term.constrain field EventTerm.wildcard, ·)
  | ⟨.ident _, _⟩ :: ⟨.colon, _⟩ :: ts => .error (.atToken .fieldValue ts)
  | ⟨.ident _, _⟩ :: ts => .error (.atToken .colon ts)
  | ts => .error (.atToken .fieldName ts)

/-- An event's conditions, if it has any. -/
def braces (term : EventTerm) : List Token → Except ParseError (EventTerm × List Token)
  | ⟨.openBrace, _⟩ :: ⟨.closeBrace, _⟩ :: ts => .ok (term, ts)
  | ⟨.openBrace, _⟩ :: ts => conditions term ts
  | ts => .ok (term, ts)

/-- Applies the repetition signs that follow an item, the first of them innermost. -/
def repetitions (p : Pattern) : List Token → Pattern × List Token
  | ⟨.plus, _⟩ :: ts => repetitions (plus p) ts
  | ⟨.question, _⟩ :: ts => repetitions (maybe p) ts
  | ⟨.star, _⟩ :: ts => repetitions (star p) ts
  | ts => (p, ts)

/-- The tokens of a sequence's next item, if it goes on: a comma is passed over. -/
def nextItem? : List Token → Option (List Token)
  | ⟨.comma, _⟩ :: ts => some ts
  | ts@(⟨.ident _, _⟩ :: _) | ts@(⟨.dot, _⟩ :: _) | ts@(⟨.openParen, _⟩ :: _) => some ts
  | _ => none

mutual

/-- Sequences with bars between them. `depth` counts the groups around them; `fuel` bounds the
number of rules applied one inside the other. -/
def alternatives : (fuel depth : Nat) → List Token →
    Except ParseError (Pattern × List Token)
  | 0, _, ts => .error (.atToken .item ts)
  | fuel + 1, depth, ts => do
    let (p, ts) ← sequence fuel depth ts
    moreAlternatives fuel depth p ts

/-- The alternatives after those already read. -/
def moreAlternatives : (fuel depth : Nat) → Pattern → List Token →
    Except ParseError (Pattern × List Token)
  | 0, _, _, ts => .error (.atToken .item ts)
  | fuel + 1, depth, left, ⟨.bar, _⟩ :: ts => do
    let (right, ts) ← sequence fuel depth ts
    moreAlternatives fuel depth (alt left right) ts
  | _, _, left, ts => .ok (left, ts)

/-- Repeated items one after the other. -/
def sequence : (fuel depth : Nat) → List Token →
    Except ParseError (Pattern × List Token)
  | 0, _, ts => .error (.atToken .item ts)
  | fuel + 1, depth, ts => do
    let (p, ts) ← repeated fuel depth ts
    moreSequence fuel depth p ts

/-- The items of a sequence after those already read. -/
def moreSequence : (fuel depth : Nat) → Pattern → List Token →
    Except ParseError (Pattern × List Token)
  | 0, _, _, ts => .error (.atToken .item ts)
  | fuel + 1, depth, left, ts =>
    match nextItem? ts with
    | some ts => do
      let (right, ts) ← repeated fuel depth ts
      moreSequence fuel depth (seq left right) ts
    | none => .ok (left, ts)

/-- An item and its repetition signs. -/
def repeated : (fuel depth : Nat) → List Token →
    Except ParseError (Pattern × List Token)
  | 0, _, ts => .error (.atToken .item ts)
  | fuel + 1, depth, ts => (item fuel depth ts).map fun (p, ts) => repetitions p ts

/-- An event, the any-term or a group. -/
def item : (fuel depth : Nat) → List Token → Except ParseError (Pattern × List Token)
  | 0, _, ts => .error (.atToken .item ts)
  | _, _, ⟨.ident name, _⟩ :: ts => (braces (.ofName name) ts).map fun (t, ts) => (event t, ts)
  | _, _, ⟨.dot, _⟩ :: ts => .ok (event .any, ts)
  | _, _, ⟨.openParen, _⟩ :: ⟨.closeParen, _⟩ :: ts => .ok (empty, ts)
  | fuel + 1, depth, ⟨.openParen, span⟩ :: ts => do
    if maxNesting ≤ depth then throw (ParseError.tooDeep span)
    let (p, ts) ← alternatives fuel (depth + 1) ts
    let ts ← pass .closeParen .closeParen ts
    return (p, ts)
  | _, _, ts => .error (.atToken .item ts)

end

/-- Reads the tokens of a whole text. No rule is applied more than four times for each token. -/
def ofTokens (ts : List Token) : Except ParseError Pattern :=
  match ts with
  | ⟨.stop, _⟩ :: _ => .error .emptyPattern
  | _ => do
    let (p, ts) ← alternatives (4 * ts.length + 4) 0 ts
    match ts with
    | ⟨.stop, _⟩ :: _ => return p
    | _ => throw (ParseError.atToken .endOfPattern ts)

/-- Reads a pattern from its text. -/
def parse (source : String) : Except ParseError Pattern := ofTokens (Token.scan source)

end Interleaving.Pattern
