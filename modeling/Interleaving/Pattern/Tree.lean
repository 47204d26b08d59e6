import Interleaving.Pattern.Term

/-!
# Pattern trees

Regular expressions over event terms, and how they are written.
-/

namespace Interleaving

/-- A pattern of event sequences. -/
inductive Pattern where
  /-- The empty sequence. -/
  | empty
  /-- One event that satisfies a term. -/
  | event (t : EventTerm)
  /-- Either of two patterns. -/
  | alt (left right : Pattern)
  /-- One pattern and then another. -/
  | seq (left right : Pattern)
  /-- Any number of repetitions, none included. -/
  | star (inner : Pattern)
  /-- The pattern or nothing. -/
  | maybe (inner : Pattern)
deriving DecidableEq

namespace Pattern

instance : Inhabited Pattern := ⟨empty⟩

/-- At least one repetition. -/
def plus (p : Pattern) : Pattern := seq p (star p)

/-- The event terms, from left to right. -/
def terms : Pattern → List EventTerm
  | empty => []
  | event t => [t]
  | alt l r | seq l r => l.terms ++ r.terms
  | star p | maybe p => p.terms

/-- How tightly a written pattern binds: alternatives least, then sequences, then the rest. -/
def rank : Pattern → Nat
  | alt .. => 0
  | seq .. => 1
  | _ => 2

/-- Parentheses around a part that binds more loosely than its place allows. -/
def grouped (min : Nat) (p : Pattern) (cs : List Char) : List Char :=
  if p.rank < min then '(' :: cs ++ [')'] else cs

/-- The written form of a pattern, with parentheses only where the ranks need them. -/
def chars : Pattern → List Char
  | empty => ['(', ')']
  | event t => t.chars
  | alt l r => l.chars ++ ' ' :: '|' :: ' ' :: r.chars
  | seq l r => grouped 1 l l.chars ++ ',' :: ' ' :: grouped 1 r r.chars
  | star p => grouped 2 p p.chars ++ ['*']
  | maybe p => grouped 2 p p.chars ++ ['?']

/-- The text of a pattern. -/
def text (p : Pattern) : String := .ofList p.chars

end Pattern

end Interleaving
