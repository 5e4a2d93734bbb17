import Delegation.Number.Decimal
import Delegation.Policy.Operator
import Delegation.Source.Keyword

namespace Delegation

/-- A place in a source text, by line and column, both counted in characters from one. -/
structure Position where
  line : Nat
  column : Nat
  deriving DecidableEq

namespace Position

def start : Position := ⟨1, 1⟩

def next (p : Position) (c : Char) : Position :=
  if c = '\n' then ⟨p.line + 1, 1⟩ else ⟨p.line, p.column + 1⟩

def after (p : Position) (text : List Char) : Position := text.foldl next p

end Position

inductive TokenKind
  | keyword (k : Keyword)
  | word (name : String)
  | text (value : String)
  | number (value : Binary64)
  | operator (op : Operator)
  | dot
  | comma
  | openBracket
  | closeBracket
  | openParen
  | closeParen
  | any
  | anyDepth
  | newline
  deriving DecidableEq

def TokenKind.describe : TokenKind → String
  | keyword k => "'" ++ k.text ++ "'"
  | word name => "identifier '" ++ name ++ "'"
  | text value => "string '" ++ value ++ "'"
  | number value => "number " ++ String.ofList value.text
  | operator op => "operator '" ++ op.text ++ "'"
  | dot => "'.'"
  | comma => "','"
  | openBracket => "'['"
  | closeBracket => "']'"
  | openParen => "'('"
  | closeParen => "')'"
  | any => "'*'"
  | anyDepth => "'**'"
  | newline => "end of line"

def endOfInput : String := "end of input"

structure Token where
  kind : TokenKind
  lexeme : List Char
  position : Position
  deriving DecidableEq

/-- The tokens of a source text, and the place where they stop. -/
structure TokenStream where
  tokens : List Token
  stop : Position
  deriving DecidableEq

/-- The stream cut before its last `count` entries, of which its end is the first. What is left then
ends at its last token. -/
def TokenStream.cut (stream : TokenStream) : Nat → TokenStream
  | 0 => stream
  | count + 1 =>
    let kept := stream.tokens.take (stream.tokens.length - count)
    ⟨kept, (kept.getLast?.map (·.position)).getD Position.start⟩

end Delegation
