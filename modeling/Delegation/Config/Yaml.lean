import Delegation.Json.Reader

namespace Delegation

inductive Yaml
  /-- A scalar; a plain one is written without quotes. -/
  | scalar (plain : Bool) (text : List Char)
  | sequence (items : List Yaml)
  | mapping (entries : List (Yaml × Yaml))

namespace Yaml

def missing : Yaml := scalar true []

def isBlank (c : Char) : Bool := c = ' ' || c = '\t'

def unifyBreaks : List Char → List Char
  | [] => []
  | '\r' :: '\n' :: cs => '\n' :: unifyBreaks cs
  | c :: cs => (if c = '\r' || c = '\u0085' then '\n' else c) :: unifyBreaks cs

def isAllowed (c : Char) : Bool :=
  c = '\t' || c = '\n' || c = '\r' || c = '\u0085' || (0x20 ≤ c.toNat && c.toNat < 0x7f) ||
    (0xa0 ≤ c.toNat && c.toNat ∉ [0xfeff, 0xfffe, 0xffff])

/-- Whether a text goes on with a blank, a new line, or not at all. -/
def atGap : List Char → Bool
  | [] => true
  | c :: _ => isBlank c || c = '\n'

/-- The column of the next character that is no blank and in no comment, and the text from there on. -/
def toContent (column : Nat) (inComment : Bool) : List Char → Nat × List Char
  | [] => (column, [])
  | c :: cs =>
    if c = '\n' then toContent 0 false cs
    else if inComment then toContent column true cs
    else if c = ' ' then toContent (column + 1) false cs
    else if c = '#' then toContent column true cs
    else (column, c :: cs)

def endOfLine (text : List Char) : Option (List Char) :=
  match text.dropWhile isBlank with
  | [] => some []
  | '\n' :: cs => some ('\n' :: cs)
  | '#' :: cs => some (cs.dropWhile (· ≠ '\n'))
  | _ => none

def isFlowSign (c : Char) : Bool := c = ',' || c = '[' || c = ']' || c = '\x7b' || c = '\x7d'

def startsPlain (inFlow : Bool) : List Char → Bool
  | [] => false
  | c :: cs =>
    if c = '-' || c = '?' || c = ':' then !atGap cs && !(inFlow && cs.head?.any isFlowSign)
    else !isFlowSign c && !("#&*!|>'\"%@".toList.contains c) && c.toNat ≠ 0x60 && !isBlank c && c ≠ '\n'

def plainRun (inFlow afterBlank : Bool) : List Char → List Char × List Char
  | [] => ([], [])
  | c :: cs =>
    if c = '\n' || (c = '#' && afterBlank) || (inFlow && isFlowSign c) ||
        (c = ':' && (atGap cs || (inFlow && cs.head?.any isFlowSign))) then ([], c :: cs)
    else
      let (run, rest) := plainRun inFlow (isBlank c) cs
      (c :: run, rest)

def trimEnd (text : List Char) : List Char := (text.reverse.dropWhile isBlank).reverse

/-- What the line breaks of a scalar and the blanks around them stand for, the column after them, and the
text from there on. One break stands for a blank, and each further one for itself. -/
def lineFold (text : List Char) : Option (List Char × Nat × List Char) :=
  match text.dropWhile isBlank with
  | '\n' :: cs =>
    let space := cs.takeWhile fun c => isBlank c || c = '\n'
    let further := space.count '\n'
    some (if further = 0 then [' '] else List.replicate further '\n',
      (space.reverse.takeWhile (· ≠ '\n')).length, cs.drop space.length)
  | _ => none

def singleQuoted : (fuel : Nat) → List Char → Option (List Char × List Char)
  | 0, _ => none
  | fuel + 1, text =>
    match lineFold text with
    | some (joint, _, next) => (singleQuoted fuel next).map fun (s, rest) => (joint ++ s, rest)
    | none =>
      match text with
      | [] => none
      | '\'' :: '\'' :: cs => (singleQuoted fuel cs).map fun (s, rest) => ('\'' :: s, rest)
      | '\'' :: cs => some ([], cs)
      | c :: cs => (singleQuoted fuel cs).map fun (s, rest) => (c :: s, rest)

def simpleEscape? : Char → Option Char
  | '0' => some '\x00'
  | 'a' => some '\x07'
  | 'b' => some '\x08'
  | 't' => some '\t'
  | 'n' => some '\n'
  | 'v' => some '\x0b'
  | 'f' => some '\x0c'
  | 'r' => some '\r'
  | 'e' => some '\x1b'
  | ' ' => some ' '
  | '"' => some '"'
  | '/' => some '/'
  | '\\' => some '\\'
  | 'N' => some '\u0085'
  | '_' => some '\u00a0'
  | 'L' => some '\u2028'
  | 'P' => some '\u2029'
  | _ => none

def hexLength? : Char → Option Nat
  | 'x' => some 2
  | 'u' => some 4
  | 'U' => some 8
  | _ => none

def hexChar? (digits : List Char) : Option Char := do
  let values ← digits.mapM Json.hexDigit?
  let n := values.foldl (fun n d => 16 * n + d) 0
  if n.isValidChar then some (Char.ofNat n) else none

/-- The rest of a double-quoted scalar. A break after a backslash stands for nothing. -/
def doubleQuoted : (fuel : Nat) → List Char → Option (List Char × List Char)
  | 0, _ => none
  | fuel + 1, text =>
    match lineFold text with
    | some (joint, _, next) => (doubleQuoted fuel next).map fun (s, rest) => (joint ++ s, rest)
    | none =>
      match text with
      | [] => none
      | '"' :: cs => some ([], cs)
      | '\\' :: '\n' :: cs => do
        let (joint, _, next) ← lineFold ('\n' :: cs)
        let (s, rest) ← doubleQuoted fuel next
        return (joint.filter (· = '\n') ++ s, rest)
      | '\\' :: e :: cs =>
        match hexLength? e with
        | some count => do
          let digits := cs.take count
          if digits.length < count then none
          else
            let c ← hexChar? digits
            let (s, rest) ← doubleQuoted fuel (cs.drop count)
            return (c :: s, rest)
        | none => do
          let c ← simpleEscape? e
          let (s, rest) ← doubleQuoted fuel cs
          return (c :: s, rest)
      | c :: cs => (doubleQuoted fuel cs).map fun (s, rest) => (c :: s, rest)

def quoted (fuel : Nat) (text : List Char) : Option (List Char × List Char) :=
  match text with
  | '\'' :: cs => singleQuoted fuel cs
  | '"' :: cs => doubleQuoted fuel cs
  | _ => none

/-- The text after blanks, line breaks and comments, all of which flow collections may hold. -/
def flowSkip (inComment : Bool) : List Char → List Char
  | [] => []
  | c :: cs =>
    if c = '\n' then flowSkip false cs
    else if inComment || isBlank c then flowSkip inComment cs
    else if c = '#' then flowSkip true cs
    else c :: cs

/-- A line that ends a document or starts another. -/
def isMarker : List Char → Bool
  | '-' :: '-' :: '-' :: cs | '.' :: '.' :: '.' :: cs => atGap cs
  | _ => false

/-- A plain scalar, which may go on over several lines. Outside flow collections these are indented by
more than `parent`, and a colon after it would make it a key, which has one line. -/
def plainLines (inFlow : Bool) (parent : Int) : (fuel : Nat) → List Char → Option (List Char × List Char)
  | 0, _ => none
  | fuel + 1, text =>
    let (run, rest) := plainRun inFlow false text
    let line := trimEnd run
    if rest.head? = some ':' && (!inFlow || rest.tail.head?.any isFlowSign) then none
    else
      match lineFold rest with
      | none => some (line, rest)
      | some (joint, column, next) =>
        if next.isEmpty || next.head? = some '#' || (column = 0 && isMarker next) ||
            (if inFlow then (plainRun true false next).1.isEmpty else (column : Int) ≤ parent) then
          some (line, rest)
        else (plainLines inFlow parent fuel next).map fun (more, rest) => (line ++ joint ++ more, rest)

mutual

def flowNode : (fuel : Nat) → List Char → Option (Yaml × List Char)
  | 0, _ => none
  | fuel + 1, text =>
    match text with
    | '[' :: cs => (flowItems fuel (flowSkip false cs)).map fun (items, rest) => (sequence items, rest)
    | '\x7b' :: cs => (flowEntries fuel (flowSkip false cs)).map fun (entries, rest) => (mapping entries, rest)
    | _ =>
      if text.head? = some '\'' ∨ text.head? = some '"' then
        (quoted text.length text).map fun (s, rest) => (scalar false s, rest)
      else if startsPlain true text then
        (plainLines true (-1) text.length text).map fun (s, rest) => (scalar true s, rest)
      else none

/-- The rest of a sequence in brackets. An item may be a single entry of a mapping. -/
def flowItems : (fuel : Nat) → List Char → Option (List Yaml × List Char)
  | 0, _ => none
  | fuel + 1, text =>
    match text with
    | ']' :: cs => some ([], cs)
    | _ => do
      let (item, rest) ← flowNode fuel text
      let (item, rest) ← match flowSkip false rest with
        | ':' :: cs => do
          let (value, rest) ← flowValue fuel (flowSkip false cs)
          pure (mapping [(item, value)], rest)
        | rest => pure (item, rest)
      match flowSkip false rest with
      | ',' :: cs =>
        let (items, rest) ← flowItems fuel (flowSkip false cs)
        return (item :: items, rest)
      | ']' :: cs => return ([item], cs)
      | _ => none

def flowValue : (fuel : Nat) → List Char → Option (Yaml × List Char)
  | 0, _ => none
  | fuel + 1, text =>
    if text.head? = some ',' ∨ text.head? = some ']' ∨ text.head? = some '\x7d' then
      some (missing, text)
    else flowNode fuel text

def flowEntries : (fuel : Nat) → List Char → Option (List (Yaml × Yaml) × List Char)
  | 0, _ => none
  | fuel + 1, text =>
    match text with
    | '\x7d' :: cs => some ([], cs)
    | _ => do
      let (key, rest) ← flowNode fuel text
      let (value, rest) ← match flowSkip false rest with
        | ':' :: cs => flowValue fuel (flowSkip false cs)
        | rest => pure (missing, rest)
      match flowSkip false rest with
      | ',' :: cs =>
        let (entries, rest) ← flowEntries fuel (flowSkip false cs)
        return ((key, value) :: entries, rest)
      | '\x7d' :: cs => return ([(key, value)], cs)
      | _ => none

end

def blockKey? (text : List Char) : Option (Yaml × List Char) :=
  if text.head? = some '\'' ∨ text.head? = some '"' then
    match quoted text.length text with
    | some (s, rest) =>
      match rest.dropWhile isBlank with
      | ':' :: cs => if atGap cs then some (scalar false s, cs) else none
      | _ => none
    | none => none
  else if startsPlain false text then
    match plainRun false false text with
    | (run, ':' :: cs) => some (scalar true (trimEnd run), cs)
    | _ => none
  else none

def startsItem : List Char → Bool
  | '-' :: cs => atGap cs
  | _ => false

/-- A scalar or flow collection within a block whose lines are indented by more than `parent`. -/
def inlineNode (parent : Int) (text : List Char) : Option (Yaml × List Char) := do
  let (node, rest) ←
    if startsPlain false text then
      (plainLines false parent text.length text).map fun (s, rest) => (scalar true s, rest)
    else flowNode text.length text
  return (node, ← endOfLine rest)

mutual

/-- A node that starts at the given column of a line, within lines indented by more than `parent`. -/
def blockNode : (fuel : Nat) → (parent : Int) → (column : Nat) → List Char → Option (Yaml × List Char)
  | 0, _, _, _ => none
  | fuel + 1, parent, column, text =>
    if startsItem text then
      (blockItems fuel column text).map fun (items, rest) => (sequence items, rest)
    else if (blockKey? text).isSome then
      (blockEntries fuel column text).map fun (entries, rest) => (mapping entries, rest)
    else inlineNode parent text

def blockItems : (fuel : Nat) → (column : Nat) → List Char → Option (List Yaml × List Char)
  | 0, _, _ => none
  | fuel + 1, column, text => do
    let after := text.drop 1
    let blanks := after.takeWhile (· = ' ')
    let inner := after.drop blanks.length
    let (item, rest) ←
      if (endOfLine inner).isSome then blockValue fuel column false after
      else blockNode fuel column (column + 1 + blanks.length) inner
    let (next, text) := toContent 0 false rest
    if next = column && startsItem text then
      let (items, rest) ← blockItems fuel column text
      return (item :: items, rest)
    else if next > column && !text.isEmpty then none
    else return ([item], rest)

def blockEntries : (fuel : Nat) → (column : Nat) → List Char → Option (List (Yaml × Yaml) × List Char)
  | 0, _, _ => none
  | fuel + 1, column, text => do
    let (key, after) ← blockKey? text
    let inner := after.dropWhile isBlank
    let (value, rest) ←
      if (endOfLine inner).isSome then blockValue fuel column true after
      else inlineNode column inner
    let (next, text) := toContent 0 false rest
    if text.isEmpty || next < column || (next = 0 && isMarker text) then return ([(key, value)], rest)
    else if next = column then
      let (entries, rest) ← blockEntries fuel column text
      return ((key, value) :: entries, rest)
    else none

/-- The node on the lines after a key or a hyphen at the given column, which may be missing. A sequence
under a key need not be indented. -/
def blockValue : (fuel : Nat) → (column : Nat) → (underKey : Bool) → List Char → Option (Yaml × List Char)
  | 0, _, _, _ => none
  | fuel + 1, column, underKey, text => do
    let rest ← endOfLine text
    let (next, inner) := toContent 0 false rest
    if inner.isEmpty || (next = 0 && isMarker inner) then return (missing, rest)
    else if next > column || (underKey && next = column && startsItem inner) then
      blockNode fuel column next inner
    else return (missing, rest)

end

/-- The only document of a text, which may stand between markers; without content it is a missing node. -/
def document? (text : List Char) : Option Yaml := do
  let fuel := 4 * text.length + 4
  let (column, start) := toContent 0 false text
  let marked := column = 0 && isMarker start && start.head? = some '-'
  let onMarkerLine := marked && (endOfLine (start.drop 3)).isNone
  let (column, start) := if marked then toContent 3 false (start.drop 3) else (column, start)
  let ended (column : Nat) (rest : List Char) : Bool :=
    rest.isEmpty || (column = 0 && isMarker rest && rest.head? = some '.' &&
      (toContent 3 false (rest.drop 3)).2.isEmpty)
  if ended column start then return missing
  else
    let (node, rest) ←
      if onMarkerLine then inlineNode (-1) start else blockNode fuel (-1) column start
    let (column, rest) := toContent 0 false rest
    if ended column rest then return node else none

def ofText? (text : List Char) : Option Yaml :=
  let text := if text.head? = some '\ufeff' then text.tail else text
  if text.all isAllowed then document? (unifyBreaks text) else none

end Yaml

end Delegation
