import Delegation.Source.Grammar
import Delegation.Source.Lexer

namespace Delegation

variable [Matchers]

inductive DocumentError
  | lexical (fault : LexicalFault) (position : Position)
  | grammar (fault : GrammarFault) (found : Option TokenKind) (position : Position)
  | invalid (fault : DocumentFault)

namespace DocumentError

def placed (kind : String) (position : Position) (message : String) : String :=
  kind ++ " error at " ++ toString position.line ++ ":" ++ toString position.column ++ ": " ++ message

def message : DocumentError → String
  | lexical fault position => placed "lexical" position fault.message
  | grammar fault found position => placed "syntax" position (fault.message found)
  | invalid fault => "invalid document: " ++ fault.message

def position? : DocumentError → Option Position
  | lexical _ position => some position
  | grammar _ _ position => some position
  | invalid _ => none

end DocumentError

namespace TokenStream

def place (stream : TokenStream) (refusal : Refusal) : DocumentError :=
  let found := refusal.tokens.head?
  .grammar refusal.fault (found.map (·.kind)) ((found.map (·.position)).getD stream.stop)

def parse (stream : TokenStream) (options : ParseOptions) : Noted (Except DocumentError Document) :=
  let (notices, result) := Grammar.statements options stream.tokens
  ⟨notices,
    match result with
    | .error refusal => .error (stream.place refusal)
    | .ok statements => (Document.ofStatements statements).mapError .invalid⟩

end TokenStream

def parse (options : ParseOptions) (source : String) : Noted (Except DocumentError Document) :=
  match tokenize source with
  | .error fault => ⟨[], .error (.lexical fault.cause fault.position)⟩
  | .ok stream => stream.parse options

end Delegation
