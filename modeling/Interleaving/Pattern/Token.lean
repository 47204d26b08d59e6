import Interleaving.Text.Quoted

/-!
# Tokens

The words and signs of pattern text. `Token.scan` cuts a text into tokens, each with the range of
bytes it covers.
-/

namespace Interleaving

/-- A range of byte offsets: from `start` up to but not including `stop`. -/
structure Span where
  start : Nat
  stop : Nat
deriving DecidableEq

/-- The text of a range. -/
def Span.text (s : Span) : String := s!"{s.start}..{s.stop}"

/-- Why a piece of text is no token. -/
inductive LexicalError where
  /-- A quote is opened and never closed. -/
  | unterminatedString
  /-- A character begins no token. -/
  | strayCharacter (c : Char)
deriving DecidableEq

/-- The text of a lexical error. -/
def LexicalError.message : LexicalError → String
  | unterminatedString => "unterminated string"
  | strayCharacter c => "unexpected character " ++ Text.quotedChar c

/-- The kinds of tokens. -/
inductive TokenKind where
  | ident (name : String)
  | str (value : String)
  | dot
  | comma
  | bar
  | plus
  | question
  | star
  | colon
  | openParen
  | closeParen
  | openBrace
  | closeBrace
  /-- Text that is no token. -/
  | bad (error : LexicalError)
  /-- The end of the text. -/
  | stop
deriving DecidableEq

/-- How messages name a kind of token. -/
def TokenKind.text : TokenKind → String
  | ident name => "identifier `" ++ name ++ "`"
  | str value => "string " ++ Text.quoted value
  | dot => "`.`"
  | comma => "`,`"
  | bar => "`|`"
  | plus => "`+`"
  | question => "`?`"
  | star => "`*`"
  | colon => "`:`"
  | openParen => "`(`"
  | closeParen => "`)`"
  | openBrace => "`\x7b`"
  | closeBrace => "`\x7d`"
  | bad error => error.message
  | stop => "end of pattern"

/-- A token and the bytes it covers. -/
structure Token where
  kind : TokenKind
  span : Span
deriving DecidableEq

namespace Token

/-- Whether a name can begin with a character. -/
def isNameStart (c : Char) : Bool := Text.isAlphabetic c || c == '_'

/-- Whether a name can go on with a character. -/
def isNameRest (c : Char) : Bool := Text.isAlphanumeric c || c == '_'

/-- The number of bytes of a text. -/
def byteLength (cs : List Char) : Nat := cs.foldl (fun n c => n + c.utf8Size) 0

/-- A token cut from the front of a text: its kind, its characters and the text after it. -/
structure Cut where
  kind : TokenKind
  lexeme : List Char
  rest : List Char

/-- What follows an opening quote: the characters up to the closing one, the value that they
spell, if the quote is closed at all, and the text after it. A backslash takes the next character
as it is. -/
def cutString : List Char → List Char × Option (List Char) × List Char
  | [] => ([], none, [])
  | '"' :: rest => (['"'], some [], rest)
  | '\\' :: c :: rest =>
    let (lexeme, value, rest) := cutString rest
    ('\\' :: c :: lexeme, value.map (c :: ·), rest)
  | c :: rest =>
    let (lexeme, value, rest) := cutString rest
    (c :: lexeme, value.map (c :: ·), rest)

/-- The kind of a token that is a single sign. -/
def sign? : Char → Option TokenKind
  | '.' => some .dot
  | ',' => some .comma
  | '|' => some .bar
  | '+' => some .plus
  | '?' => some .question
  | '*' => some .star
  | ':' => some .colon
  | '(' => some .openParen
  | ')' => some .closeParen
  | '\x7b' => some .openBrace
  | '\x7d' => some .closeBrace
  | _ => none

/-- Cuts the token that begins with the character `c`. -/
def cut (c : Char) (cs : List Char) : Cut :=
  match sign? c with
  | some kind => ⟨kind, [c], cs⟩
  | none =>
    if c = '"' then
      let (lexeme, value, rest) := cutString cs
      ⟨match value with
        | some value => .str (.ofList value)
        | none => .bad .unterminatedString, c :: lexeme, rest⟩
    else if isNameStart c then
      let name := c :: cs.takeWhile isNameRest
      ⟨.ident (.ofList name), name, cs.dropWhile isNameRest⟩
    else ⟨.bad (.strayCharacter c), [c], cs⟩

theorem length_cutString_le (cs : List Char) : (cutString cs).2.2.length ≤ cs.length := by
  fun_induction cutString cs with
  | case1 => simp
  | case2 => simp
  | case3 c cs lexeme value rest h ih => simp_all; omega
  | case4 c cs _ _ lexeme value rest h ih => simp_all; omega

/-- What a token leaves is no longer than what stood after its first character. -/
theorem length_rest_cut_le (c : Char) (cs : List Char) : (cut c cs).rest.length ≤ cs.length := by
  unfold cut
  split
  · simp
  · split
    · exact length_cutString_le cs
    · split
      · exact (List.dropWhile_sublist _).length_le
      · simp

/-- The tokens of a text that begins at byte `pos`. -/
def scanFrom (pos : Nat) (cs : List Char) : List Token :=
  let start := pos + byteLength (cs.takeWhile Text.isBlank)
  match _h : cs.dropWhile Text.isBlank with
  | [] => [⟨.stop, ⟨start, start⟩⟩]
  | c :: rest =>
    let token := cut c rest
    let stop := start + byteLength token.lexeme
    ⟨token.kind, ⟨start, stop⟩⟩ :: scanFrom stop token.rest
termination_by cs.length
decreasing_by
  have hle := length_rest_cut_le c rest
  have := (List.dropWhile_sublist (l := cs) Text.isBlank).length_le
  rw [_h, List.length_cons] at this
  omega

/-- The tokens of a text; the last one, and only that, is the end of the text. -/
def scan (source : String) : List Token := scanFrom 0 source.toList

end Token

end Interleaving
