namespace Delegation

def escapeQuoted : Char → List Char
  | '\\' => ['\\', '\\']
  | '\'' => ['\\', '\'']
  | '\n' => ['\\', 'n']
  | '\t' => ['\\', 't']
  | '\r' => ['\\', 'r']
  | c => [c]

def quote (text : List Char) : List Char := '\'' :: (text.flatMap escapeQuoted ++ ['\''])

end Delegation
